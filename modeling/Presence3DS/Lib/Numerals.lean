import Mathlib.Algebra.Order.Ring.Int
import Mathlib.Algebra.Order.Ring.Nat
import Mathlib.Data.List.TakeWhile
import Mathlib.Order.Fin.Basic
import Mathlib.Tactic.Ring

/-! Numerals: the number that a text of digits stands for, the highest digit first, and readers
of it that keep what they have read in a word. -/

namespace Numerals

variable {α : Type*} (digit? : α → Option ℕ) (base : ℕ)

/-- The number that the digits stand for, behind one that has been read. -/
def valueFrom (acc : ℕ) (s : List α) : ℕ :=
  s.foldl (fun acc c => base * acc + (digit? c).getD 0) acc

def value (s : List α) : ℕ := valueFrom digit? base 0 s

def isDigit (c : α) : Bool := (digit? c).isSome

/-- A numeral is not empty, and all of it are digits. -/
def numeral (s : List α) : Option ℕ :=
  if s ≠ [] ∧ s.all (isDigit digit?) = true then some (value digit? base s) else none

variable {digit? base} {acc : ℕ} {c : α} {s : List α}

theorem valueFrom_cons {d : ℕ} (h : digit? c = some d) :
    valueFrom digit? base acc (c :: s) = valueFrom digit? base (base * acc + d) s := by
  rw [valueFrom, List.foldl_cons, h]
  rfl

/-- What has been read is not taken back. -/
theorem le_valueFrom (hbase : 0 < base) (acc : ℕ) (s : List α) :
    acc ≤ valueFrom digit? base acc s := by
  induction s generalizing acc with
  | nil => exact le_rfl
  | cons c s ih =>
    refine le_trans ?_ (ih (base * acc + (digit? c).getD 0))
    exact (Nat.le_mul_of_pos_left acc hbase).trans (Nat.le_add_right _ _)

/-- What has been read is moved up by the digits behind it. -/
theorem valueFrom_eq (acc : ℕ) (s : List α) :
    valueFrom digit? base acc s = acc * base ^ s.length + value digit? base s := by
  induction s generalizing acc with
  | nil => exact (Nat.mul_one acc).symm
  | cons c s ih =>
    show valueFrom digit? base (base * acc + (digit? c).getD 0) s = _ +
      valueFrom digit? base (base * 0 + (digit? c).getD 0) s
    rw [ih, ih (base * 0 + (digit? c).getD 0), List.length_cons, pow_succ]
    ring

theorem value_lt (hdigit : ∀ c d, digit? c = some d → d < base)
    (hs : s.all (isDigit digit?) = true) : value digit? base s < base ^ s.length := by
  induction s with
  | nil => exact Nat.one_pos
  | cons c s ih =>
    rw [List.all_cons, Bool.and_eq_true] at hs
    obtain ⟨d, hd⟩ := Option.isSome_iff_exists.mp hs.1
    have hstep : value digit? base (c :: s) = d * base ^ s.length + value digit? base s := by
      rw [value, valueFrom_cons hd, valueFrom_eq, Nat.mul_zero, Nat.zero_add]
    have hle := Nat.mul_le_mul_right (base ^ s.length) (Nat.succ_le_of_lt (hdigit c d hd))
    have hlt := ih hs.2
    rw [hstep, List.length_cons, pow_succ']
    rw [Nat.succ_mul] at hle
    omega

theorem numeral_eq_some_iff {n : ℕ} : numeral digit? base s = some n ↔
    s ≠ [] ∧ (∀ c ∈ s, isDigit digit? c = true) ∧ value digit? base s = n := by
  unfold numeral
  rw [Option.ite_none_right_eq_some, List.all_eq_true, and_assoc, Option.some_inj]

/-! ## Readers -/

/-- A word holds what has been read, modulo its size. -/
theorem foldlM_ofNat (w acc : ℕ) (s : List α) :
    s.foldlM (fun res c => (digit? c).map fun d => BitVec.ofNat w base * res + BitVec.ofNat w d)
      (BitVec.ofNat w acc) =
      if s.all (isDigit digit?) = true then some (BitVec.ofNat w (valueFrom digit? base acc s))
      else none := by
  induction s generalizing acc with
  | nil => rfl
  | cons c s ih =>
    rw [List.foldlM_cons, List.all_cons]
    cases hc : digit? c with
    | none =>
      rw [isDigit, hc]
      rfl
    | some d =>
      rw [isDigit, hc, valueFrom_cons hc]
      show List.foldlM _ (BitVec.ofNat w base * BitVec.ofNat w acc + BitVec.ofNat w d) s = _
      rw [← BitVec.ofNat_mul, ← BitVec.ofNat_add]
      exact ih _

end Numerals
