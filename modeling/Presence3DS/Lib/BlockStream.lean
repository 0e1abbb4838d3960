import Mathlib.Algebra.Order.Ring.Int
import Mathlib.Algebra.Order.Ring.Nat
import Mathlib.Data.List.GetD
import Mathlib.Data.List.TakeWhile
import Mathlib.Logic.Function.Basic
import Mathlib.Order.Fin.Basic

/-! A text that is absorbed in blocks of a fixed size. It may come in pieces of any length, so that
what does not fill a block yet is kept in a buffer. -/

namespace BlockStream

variable {σ β : Type*} [Inhabited β]

def blockAt (text : List β) (start : ℕ) : ℕ → β := fun k => text.getD (start + k) default

/-- The first `count` blocks of a text, absorbed one after the other. -/
def absorb (compress : σ → (ℕ → β) → σ) (size : ℕ) (s : σ) (text : List β) (count : ℕ) : σ :=
  (List.range count).foldl (fun s i => compress s (blockAt text (size * i))) s

structure Buffered (σ β : Type*) where
  state : σ
  buffer : ℕ → β
  filled : ℕ

/-- One more element of the text. -/
def Buffered.feed (compress : σ → (ℕ → β) → σ) (size : ℕ) (s : Buffered σ β) (b : β) :
    Buffered σ β :=
  let buffer := Function.update s.buffer s.filled b
  if s.filled + 1 = size then ⟨compress s.state buffer, buffer, 0⟩
  else ⟨s.state, buffer, s.filled + 1⟩

/-- The compression reads a block only. -/
def Local (compress : σ → (ℕ → β) → σ) (size : ℕ) : Prop :=
  ∀ s f g, (∀ k < size, f k = g k) → compress s f = compress s g

variable {compress : σ → (ℕ → β) → σ} {size : ℕ} {s₀ : σ} {text : List β}

@[simp] theorem absorb_zero : absorb compress size s₀ text 0 = s₀ := rfl

theorem absorb_succ (count : ℕ) : absorb compress size s₀ text (count + 1) =
    compress (absorb compress size s₀ text count) (blockAt text (size * count)) := by
  rw [absorb, List.range_succ, List.foldl_append]
  rfl

theorem blockAt_append {more : List β} {start k : ℕ} (h : start + k < text.length) :
    blockAt (text ++ more) start k = blockAt text start k :=
  List.getD_append _ _ _ _ h

/-- Whole blocks do not depend on what comes behind them. -/
theorem absorb_append (hlocal : Local compress size) (more : List β) {count : ℕ}
    (h : size * count ≤ text.length) :
    absorb compress size s₀ (text ++ more) count = absorb compress size s₀ text count := by
  induction count with
  | zero => rfl
  | succ count ih =>
    rw [Nat.mul_succ] at h
    rw [absorb_succ, absorb_succ, ih (by omega)]
    apply hlocal
    intro k hk
    exact blockAt_append (by omega)

/-- The stream has absorbed the whole blocks of a text, and the rest is in the buffer. -/
structure Holds (compress : σ → (ℕ → β) → σ) (size : ℕ) (s₀ : σ) (text : List β)
    (s : Buffered σ β) : Prop where
  state : s.state = absorb compress size s₀ text (text.length / size)
  filled : s.filled = text.length % size
  buffer : ∀ k < s.filled, s.buffer k = blockAt text (size * (text.length / size)) k

theorem Holds.nil (buffer : ℕ → β) : Holds compress size s₀ [] ⟨s₀, buffer, 0⟩ where
  state := by rw [List.length_nil, Nat.zero_div, absorb_zero]
  filled := by rw [List.length_nil, Nat.zero_mod]
  buffer k hk := absurd hk (Nat.not_lt_zero k)

theorem Holds.feed {s : Buffered σ β} (hlocal : Local compress size) (hsize : 0 < size)
    (h : Holds compress size s₀ text s) (b : β) :
    Holds compress size s₀ (text ++ [b]) (s.feed compress size b) := by
  have hdiv := Nat.div_add_mod text.length size
  have hmod := Nat.mod_lt text.length hsize
  have hlength : (text ++ [b]).length = text.length + 1 := List.length_append
  -- What the buffer holds now, the element that has come last among it.
  have hbuffer : ∀ k < s.filled + 1, Function.update s.buffer s.filled b k =
      blockAt (text ++ [b]) (size * (text.length / size)) k := by
    intro k hk
    have hfilled := h.filled
    by_cases hlast : k = s.filled
    · subst hlast
      rw [Function.update_self, blockAt, hfilled, hdiv, List.getD_append_right _ _ _ _ le_rfl,
        Nat.sub_self]
      rfl
    · rw [Function.update_of_ne hlast, h.buffer k (by omega), blockAt_append (by omega)]
  have habsorb : absorb compress size s₀ (text ++ [b]) (text.length / size) =
      absorb compress size s₀ text (text.length / size) :=
    absorb_append hlocal [b] (Nat.mul_div_le text.length size)
  unfold Buffered.feed
  by_cases hfull : s.filled + 1 = size
  · simp only [if_pos hfull]
    have hwhole : text.length + 1 = size * (text.length / size + 1) := by
      rw [Nat.mul_succ]
      have hfilled := h.filled
      omega
    refine ⟨?_, ?_, fun k hk => absurd hk (Nat.not_lt_zero k)⟩
    · rw [hlength, hwhole, Nat.mul_div_cancel_left _ hsize, absorb_succ, habsorb, ← h.state]
      apply hlocal
      intro k hk
      exact hbuffer k (by omega)
    · rw [hlength, hwhole, Nat.mul_mod_right]
  · simp only [if_neg hfull]
    have hrest : text.length % size + 1 < size := by
      have hfilled := h.filled
      omega
    have hcount : (text ++ [b]).length / size = text.length / size := by
      rw [hlength, ← hdiv, Nat.add_assoc, Nat.mul_add_div hsize, Nat.div_eq_of_lt hrest,
        Nat.mul_add_div hsize, Nat.div_eq_of_lt hmod]
    refine ⟨?_, ?_, ?_⟩
    · rw [hcount, habsorb, h.state]
    · rw [hlength, h.filled, ← hdiv, Nat.add_assoc, Nat.mul_add_mod, Nat.mul_add_mod,
        Nat.mod_eq_of_lt hmod, Nat.mod_eq_of_lt hrest]
    · rw [hcount]
      exact hbuffer

end BlockStream
