import Mathlib.Algebra.Order.Ring.Int
import Mathlib.Algebra.Order.Ring.Nat
import Mathlib.Data.List.TakeWhile
import Mathlib.Logic.Function.Iterate
import Mathlib.Order.Fin.Basic

/-! The cyclic redundancy check: a register that takes the message bit by bit, the lowest bit of each
byte first. -/

namespace Crc

def step (poly register : UInt32) : UInt32 :=
  if register &&& 1 = 0 then register >>> 1 else (register >>> 1) ^^^ poly

def feed (poly register : UInt32) (bit : Bool) : UInt32 :=
  step poly (register ^^^ if bit then 1 else 0)

/-- The lowest bits of a number, the lowest first. -/
def bits : ℕ → ℕ → List Bool
  | 0, _ => []
  | k + 1, n => decide (n % 2 = 1) :: bits k (n / 2)

def crc (poly : UInt32) (message : List UInt8) : UInt32 :=
  ~~~ (message.flatMap fun byte => bits 8 byte.toNat).foldl (feed poly) 0xFFFFFFFF

variable (poly : UInt32)

theorem and_one_and_one (y : UInt32) : (y &&& 1) &&& 1 = y &&& 1 := by
  rw [UInt32.and_assoc, UInt32.and_self]

theorem xor_and_one (x y : UInt32) : (x ^^^ y) &&& 1 = (x &&& 1) ^^^ (y &&& 1) := by
  rw [← UInt32.toNat_inj, UInt32.toNat_and, UInt32.toNat_xor, UInt32.toNat_xor, UInt32.toNat_and,
    UInt32.toNat_and, Nat.and_xor_distrib_right]

theorem and_one_shift (y : UInt32) : (y &&& 1) >>> 1 = 0 := by
  rw [← UInt32.toNat_inj, UInt32.toNat_shiftRight, UInt32.toNat_and, UInt32.toNat_one,
    Nat.and_one_is_mod]
  show (y.toNat % 2) >>> 1 = 0
  rw [Nat.shiftRight_eq_div_pow]
  omega

/-- What is not in the lowest bit is only shifted. -/
theorem step_xor (x y : UInt32) :
    step poly (x ^^^ y) = step poly (x ^^^ (y &&& 1)) ^^^ (y >>> 1) := by
  have hlow : (x ^^^ (y &&& 1)) &&& 1 = (x ^^^ y) &&& 1 := by
    rw [xor_and_one, xor_and_one, and_one_and_one]
  have hhigh : (x ^^^ (y &&& 1)) >>> 1 = x >>> 1 := by
    rw [UInt32.shiftRight_xor, and_one_shift, UInt32.xor_zero]
  rw [step, step, hlow, hhigh, UInt32.shiftRight_xor]
  split_ifs
  · rfl
  · rw [UInt32.xor_assoc, UInt32.xor_comm (y >>> 1), ← UInt32.xor_assoc]

theorem ofNat_and_one {n : ℕ} (h : n < 2 ^ 32) :
    UInt32.ofNat n &&& 1 = if decide (n % 2 = 1) = true then 1 else 0 := by
  rw [← UInt32.toNat_inj, UInt32.toNat_and, UInt32.toNat_one, Nat.and_one_is_mod,
    UInt32.toNat_ofNat_of_lt' h]
  rcases Nat.mod_two_eq_zero_or_one n with hbit | hbit
  · rw [hbit]
    rfl
  · rw [hbit]
    rfl

theorem ofNat_shiftRight_one {n : ℕ} (h : n < 2 ^ 32) :
    UInt32.ofNat n >>> 1 = UInt32.ofNat (n / 2) := by
  rw [← UInt32.toNat_inj, UInt32.toNat_shiftRight, UInt32.toNat_ofNat_of_lt' h,
    UInt32.toNat_ofNat_of_lt' (Nat.lt_of_le_of_lt (Nat.div_le_self n 2) h)]
  exact Nat.shiftRight_eq_div_pow n 1

/-- A number of `k` bits that goes into the register at once. -/
theorem step_iterate (register : UInt32) {k n : ℕ} (h : n < 2 ^ k) (hk : k ≤ 32) :
    (step poly)^[k] (register ^^^ UInt32.ofNat n) = (bits k n).foldl (feed poly) register := by
  induction k generalizing register n with
  | zero =>
    obtain rfl : n = 0 := Nat.lt_one_iff.mp h
    exact UInt32.xor_zero
  | succ k ih =>
    have hn : n < 2 ^ 32 := Nat.lt_of_lt_of_le h (Nat.pow_le_pow_right (by decide) hk)
    rw [Function.iterate_succ_apply, step_xor, ofNat_and_one hn, ofNat_shiftRight_one hn]
    exact ih _ (by omega) (by omega)

end Crc
