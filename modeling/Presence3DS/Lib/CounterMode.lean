import Mathlib.Algebra.Order.Ring.Int
import Mathlib.Algebra.Order.Ring.Nat
import Mathlib.Data.List.TakeWhile
import Mathlib.Data.Nat.Cast.Basic
import Mathlib.Order.Fin.Basic

/-! Counter mode: the blocks of a text are combined with the key stream of consecutive counters.
A text is a function of the place of a block. -/

namespace CounterMode

variable {κ : Type*} {w : ℕ} (keyStream : κ → BitVec w)

/-- The first `n` blocks of a text in counter mode. -/
def crypt [Add κ] [NatCast κ] (counter : κ) (n : ℕ) (text : ℕ → BitVec w) : ℕ → BitVec w :=
  fun k => if k < n then text k ^^^ keyStream (counter + k) else text k

/-- A text of `n` blocks, with another one behind it. -/
def splice (n : ℕ) (text rest : ℕ → BitVec w) : ℕ → BitVec w :=
  fun k => if k < n then text k else rest (k - n)

section Add
variable [Add κ] [NatCast κ] {counter : κ} {n k : ℕ} {text : ℕ → BitVec w}

theorem crypt_of_lt (h : k < n) :
    crypt keyStream counter n text k = text k ^^^ keyStream (counter + k) := if_pos h

theorem crypt_zero : crypt keyStream counter 0 text = text := by
  funext k
  exact if_neg (Nat.not_lt_zero k)

end Add

variable [AddMonoidWithOne κ] {counter : κ} {m m' n k : ℕ} {text : ℕ → BitVec w}

/-- A text can be done in parts, where the counter goes on. -/
theorem crypt_add : crypt keyStream counter (m + n) text =
    splice m (crypt keyStream counter m text)
      (crypt keyStream (counter + m) n fun k => text (m + k)) := by
  funext k
  by_cases hm : k < m
  · rw [splice, if_pos hm, crypt_of_lt keyStream hm,
      crypt_of_lt keyStream (Nat.lt_add_right n hm)]
  · obtain ⟨k, rfl⟩ := Nat.exists_eq_add_of_le (Nat.le_of_not_lt hm)
    rw [splice, if_neg hm, Nat.add_sub_cancel_left, crypt, crypt, add_assoc, ← Nat.cast_add]
    simp only [Nat.add_lt_add_iff_left]

/-- A part of a text is done by itself with the counter that it has in the whole. -/
theorem crypt_part (h : m + k < n) (hk : k < m') : crypt keyStream counter n text (m + k) =
    crypt keyStream (counter + m) m' (fun k => text (m + k)) k := by
  rw [crypt_of_lt keyStream h, crypt_of_lt keyStream hk, add_assoc, ← Nat.cast_add]

end CounterMode
