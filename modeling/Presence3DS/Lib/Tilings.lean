import Mathlib.Algebra.Order.Ring.Int
import Mathlib.Algebra.Order.Ring.Nat
import Mathlib.Data.List.Nodup
import Mathlib.Data.List.TakeWhile
import Mathlib.Logic.Equiv.Basic
import Mathlib.Order.Fin.Basic

/-! Ranges of a space of 32-bit addresses that wraps around, ranges that follow one another, and
lists that are read in the order of a permutation. -/

namespace Tilings

/-- The number of addresses. -/
def space : ℕ := 2 ^ 32

structure Chunk where
  addr : ℕ
  size : ℕ
deriving DecidableEq

/-- Whether an address is one of the `size` addresses from `start` on. -/
def within (start size a : ℕ) : Bool := decide ((a + space - start) % space < size)

namespace Chunk

def covers (c : Chunk) (a : ℕ) : Bool := within c.addr c.size a

end Chunk

/-- Each address of the range lies in one of the chunks and in no second one, and no other address
lies in any. -/
def Tiles (start size : ℕ) (cs : List Chunk) : Prop :=
  ∀ a < space, cs.countP (fun c => c.covers a) = if within start size a then 1 else 0

variable {start size o e : ℕ} {c : Chunk} {cs ds : List Chunk}

theorem Tiles.perm (h : Tiles start size cs) (hperm : ds.Perm cs) : Tiles start size ds := by
  intro a ha
  rw [hperm.countP_eq]
  exact h a ha

theorem tiles_singleton (start size : ℕ) : Tiles start size [⟨start, size⟩] := by
  intro a _
  rw [List.countP_singleton]
  rfl

/-- The chunks follow one another from the offset `o` up to the offset `e`. -/
def Follow (start : ℕ) : ℕ → List Chunk → ℕ → Prop
  | o, [], e => o = e
  | o, c :: cs, e => c.addr = (start + o) % space ∧ 0 < c.size ∧ Follow start (o + c.size) cs e

theorem Follow.le (h : Follow start o cs e) : o ≤ e := by
  induction cs generalizing o with
  | nil => exact Nat.le_of_eq h
  | cons c cs ih => exact (Nat.le_add_right o c.size).trans (ih h.2.2)

theorem Follow.append {m : ℕ} (h : Follow start o cs m) (h' : Follow start m ds e) :
    Follow start o (cs ++ ds) e := by
  induction cs generalizing o with
  | nil =>
    obtain rfl : o = m := h
    exact h'
  | cons c cs ih => exact ⟨h.1, h.2.1, ih h.2.2⟩

theorem Follow.pos (h : Follow start o cs e) : ∀ c ∈ cs, c.addr < space ∧ 0 < c.size := by
  induction cs generalizing o with
  | nil => exact fun c hc => absurd hc List.not_mem_nil
  | cons c cs ih =>
    refine List.forall_mem_cons.mpr ⟨⟨?_, h.2.1⟩, ih h.2.2⟩
    rw [h.1]
    exact Nat.mod_lt _ (by decide)

/-- A chunk covers the addresses whose offset lies between its own two ends. -/
theorem covers_iff (hstart : start < space) (haddr : c.addr = (start + o) % space)
    (hend : o + c.size ≤ space) {a : ℕ} (ha : a < space) :
    c.covers a = true ↔
      o ≤ (a + space - start) % space ∧ (a + space - start) % space < o + c.size := by
  unfold Chunk.covers within
  rw [decide_eq_true_iff, haddr]
  unfold space at *
  omega

theorem Follow.countP (h : Follow start o cs e) (hstart : start < space) (he : e ≤ space) {a : ℕ}
    (ha : a < space) : cs.countP (fun c => c.covers a) =
      if o ≤ (a + space - start) % space ∧ (a + space - start) % space < e then 1 else 0 := by
  induction cs generalizing o with
  | nil =>
    obtain rfl : o = e := h
    rw [if_neg fun hlt => absurd (hlt.1.trans_lt hlt.2) (Nat.lt_irrefl o)]
    rfl
  | cons c cs ih =>
    obtain ⟨haddr, hpos, hrest⟩ := h
    have hend : o + c.size ≤ e := hrest.le
    have hcovers := covers_iff hstart haddr (hend.trans he) ha
    rw [List.countP_cons, ih hrest]
    generalize (a + space - start) % space = x at hcovers ⊢
    by_cases hc : c.covers a = true
    · obtain ⟨hlow, hhigh⟩ := hcovers.mp hc
      rw [if_pos hc, if_neg (by omega), if_pos (by omega)]
    · have hout := mt hcovers.mpr hc
      rw [if_neg hc, add_zero]
      congr 1
      exact propext (by omega)

/-- Chunks that follow one another from the start to the end of a range tile it. -/
theorem Follow.tiles (h : Follow start 0 cs size) (hstart : start < space)
    (hsize : size ≤ space) : Tiles start size cs := by
  intro a ha
  rw [h.countP hstart hsize ha, within]
  congr 1
  simp

/-- What is picked in the order of a permutation is the list in another order. -/
theorem perm_map_range {α : Type*} (f : ℕ → α) {n : ℕ} (σ : Equiv.Perm ℕ)
    (hσ : ∀ k, n ≤ k → σ k = k) :
    ((List.range n).map fun k => f (σ k)).Perm ((List.range n).map f) := by
  have hlt : ∀ k, k < n → σ k < n := by
    intro k hk
    by_contra hge
    have hfix : σ (σ k) = σ k := hσ _ (Nat.not_lt.mp hge)
    rw [σ.injective hfix] at hge
    exact hge hk
  have hperm : ((List.range n).map σ).Perm (List.range n) := by
    refine (List.perm_ext_iff_of_nodup (List.Nodup.map σ.injective List.nodup_range)
      List.nodup_range).mpr
      fun k => ?_
    rw [List.mem_map, List.mem_range]
    constructor
    · rintro ⟨j, hj, rfl⟩
      exact hlt j (List.mem_range.mp hj)
    · intro hk
      refine ⟨σ.symm k, List.mem_range.mpr ?_, σ.apply_symm_apply k⟩
      by_contra hge
      have hfix := hσ _ (Nat.not_lt.mp hge)
      rw [σ.apply_symm_apply] at hfix
      rw [← hfix] at hge
      exact hge hk
  have hmap : (List.range n).map (fun k => f (σ k)) = ((List.range n).map σ).map f := by
    rw [List.map_map]
    rfl
  rw [hmap]
  exact hperm.map f

end Tilings
