import Mathlib.Algebra.Order.Ring.Int
import Mathlib.Algebra.Order.Ring.Nat
import Mathlib.Data.List.TakeWhile
import Mathlib.Order.Fin.Basic

/-! Numbers of a variable length: seven bits a byte, the lowest first, and the last byte is marked. As
a further byte adds one, there is only one encoding of a number. -/

namespace Vuint

def encode (n : ℕ) : List UInt8 :=
  if n < 128 then [UInt8.ofNat (128 + n)] else UInt8.ofNat (n % 128) :: encode (n / 128 - 1)
termination_by n
decreasing_by omega

/-- The number that the bytes begin with, and what follows it. -/
def decode : List UInt8 → Option (ℕ × List UInt8)
  | [] => none
  | b :: bytes =>
    if 128 ≤ b.toNat then some (b.toNat - 128, bytes)
    else (decode bytes).map fun (n, rest) => (b.toNat + 128 * (n + 1), rest)

theorem decode_encode (n : ℕ) (rest : List UInt8) : decode (encode n ++ rest) = some (n, rest) := by
  induction n using Nat.strongRecOn with
  | ind n ih =>
    rw [encode]
    split_ifs with hsmall
    · have hbyte : (UInt8.ofNat (128 + n)).toNat = 128 + n :=
        UInt8.toNat_ofNat_of_lt' (show 128 + n < 2 ^ 8 by omega)
      show decode (UInt8.ofNat (128 + n) :: rest) = _
      rw [decode, hbyte, if_pos (Nat.le_add_right _ _), Nat.add_sub_cancel_left]
    · have hbyte : (UInt8.ofNat (n % 128)).toNat = n % 128 :=
        UInt8.toNat_ofNat_of_lt' (show n % 128 < 2 ^ 8 by omega)
      rw [List.cons_append, decode, hbyte, if_neg (by omega), ih _ (by omega)]
      show some (n % 128 + 128 * (n / 128 - 1 + 1), rest) = _
      congr 2
      omega

theorem encode_ne_nil (n : ℕ) : encode n ≠ [] := by
  rw [encode]
  split_ifs <;> simp

theorem length_encode_le (n : ℕ) : (encode n).length ≤ n + 1 := by
  induction n using Nat.strongRecOn with
  | ind n ih =>
    rw [encode]
    split_ifs with hsmall
    · exact Nat.le_add_left 1 n
    · have := ih (n / 128 - 1) (by omega)
      rw [List.length_cons]
      omega

theorem length_encode_lt {k n : ℕ} (h : n < 128 ^ k) : (encode n).length ≤ k + 1 := by
  induction k generalizing n with
  | zero =>
    obtain rfl : n = 0 := Nat.lt_one_iff.mp h
    exact length_encode_le 0
  | succ k ih =>
    rw [encode]
    split_ifs with hsmall
    · exact Nat.le_add_left 1 _
    · rw [Nat.pow_succ] at h
      exact Nat.succ_le_succ (ih (by omega))

end Vuint
