import Mathlib.Algebra.Order.Ring.Int
import Mathlib.Algebra.Order.Ring.Nat
import Mathlib.Data.List.TakeWhile
import Mathlib.Logic.Function.Basic
import Mathlib.Order.Fin.Basic

/-! Output that grows downwards, each new element in front of the others, and copies out of the output
itself: on lists, and in a memory that holds the list. -/

namespace BackCopy

variable {α : Type*}

/-- `n` elements are copied, each from the place with index `disp` of the output so far, if that is
one. -/
def copyBack (disp : ℕ) : ℕ → List α → Option (List α)
  | 0, out => some out
  | n + 1, out => out[disp]?.bind fun a => copyBack disp n (a :: out)

/-- The list stands in the memory from address `a` on. -/
def Holds (m : ℕ → α) (a : ℕ) (out : List α) : Prop :=
  ∀ i, (h : i < out.length) → m (a + i) = out[i]

/-- An element goes in front of address `a`. -/
def push (b : α) (a : ℕ) (m : ℕ → α) : ℕ → α := Function.update m (a - 1) b

/-- The copy in memory. -/
def copyDown (disp : ℕ) : ℕ → ℕ → (ℕ → α) → ℕ → α
  | 0, _, m => m
  | n + 1, a, m => copyDown disp n (a - 1) (push (m (a + disp)) a m)

variable {m : ℕ → α} {a disp n x : ℕ} {out out' : List α} {b : α}

theorem length_copyBack (h : copyBack disp n out = some out') : out'.length = out.length + n := by
  induction n generalizing out with
  | zero =>
    cases h
    rfl
  | succ n ih =>
    obtain ⟨b, -, hrest⟩ := Option.bind_eq_some_iff.mp h
    rw [ih hrest, List.length_cons]
    omega

theorem push_other (h : x ≠ a - 1) : push b a m x = m x := by
  rw [push, Function.update_of_ne h]

theorem holds_nil (m : ℕ → α) (a : ℕ) : Holds m a [] := fun _ h => absurd h (Nat.not_lt_zero _)

theorem holds_push (hpos : 0 < a) (h : Holds m a out) : Holds (push b a m) (a - 1) (b :: out) := by
  intro i hi
  cases i with
  | zero => exact Function.update_self (a - 1) b m
  | succ i =>
    rw [push_other (by omega), show a - 1 + (i + 1) = a + i by omega]
    exact h i (Nat.lt_of_succ_lt_succ hi)

theorem copyDown_other (hx : x < a - n ∨ a ≤ x) (hpos : n ≤ a) : copyDown disp n a m x = m x := by
  induction n generalizing a m with
  | zero => rfl
  | succ n ih =>
    rw [copyDown, ih (by omega) (by omega), push_other (by omega)]

/-- A copy in a memory that holds the output does what the copy of the output does. -/
theorem holds_copyDown (hpos : n ≤ a) (h : Holds m a out) (hcopy : copyBack disp n out = some out') :
    Holds (copyDown disp n a m) (a - n) out' := by
  induction n generalizing a m out with
  | zero =>
    cases hcopy
    exact h
  | succ n ih =>
    obtain ⟨b, hb, hrest⟩ := Option.bind_eq_some_iff.mp hcopy
    obtain ⟨hdisp, hget⟩ := List.getElem?_eq_some_iff.mp hb
    have hsource : m (a + disp) = b := (h disp hdisp).trans hget
    have hlast := ih (a := a - 1) (by omega) (holds_push (b := b) (by omega) h) hrest
    rw [copyDown, hsource]
    rwa [Nat.sub_sub, Nat.add_comm 1 n] at hlast

end BackCopy
