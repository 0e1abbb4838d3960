import Mathlib.Algebra.Order.Ring.Int
import Mathlib.Algebra.Order.Ring.Nat
import Mathlib.Data.List.TakeWhile
import Mathlib.Order.Fin.Basic

/-! Fields of consecutive bits of a word: reading one, and writing one with the others unchanged. -/

namespace BitFields

variable {w start len start' len' : ℕ}

def getField (start len : ℕ) (d : BitVec w) : BitVec len := d.extractLsb' start len

/-- The bits that a field takes up. -/
def fieldMask (w start len : ℕ) : BitVec w := (BitVec.allOnes len).setWidth w <<< start

def setField (start : ℕ) (v : BitVec len) (d : BitVec w) : BitVec w :=
  (d &&& ~~~fieldMask w start len) ||| (v.setWidth w <<< start)

theorem getLsbD_fieldMask {i : ℕ} (hi : i < w) :
    (fieldMask w start len).getLsbD i = decide (start ≤ i ∧ i < start + len) := by
  rw [fieldMask, BitVec.getLsbD_shiftLeft, BitVec.getLsbD_setWidth, BitVec.getLsbD_allOnes,
    Bool.eq_iff_iff]
  simp only [Bool.and_eq_true, decide_eq_true_eq, Bool.not_eq_true', decide_eq_false_iff_not]
  omega

theorem getLsbD_setField (v : BitVec len) (d : BitVec w) {i : ℕ} (hi : i < w) :
    (setField start v d).getLsbD i =
      if start ≤ i ∧ i < start + len then v.getLsbD (i - start) else d.getLsbD i := by
  rw [setField, BitVec.getLsbD_or, BitVec.getLsbD_and, BitVec.getLsbD_not, getLsbD_fieldMask hi,
    BitVec.getLsbD_shiftLeft, BitVec.getLsbD_setWidth]
  split_ifs with h
  · have hlt : i - start < w := by omega
    simp [h, hi, hlt]
  · rw [decide_eq_false h]
    by_cases hstart : i < start
    · simp [hi, hstart]
    · have hout : v.getLsbD (i - start) = false := BitVec.getLsbD_of_ge v _ (by omega)
      simp [hi, hout]

theorem getField_setField (h : start + len ≤ w) (v : BitVec len) (d : BitVec w) :
    getField start len (setField start v d) = v := by
  apply BitVec.eq_of_getLsbD_eq
  intro i hi
  rw [getField, BitVec.getLsbD_extractLsb', getLsbD_setField v d (by omega), if_pos (by omega),
    Nat.add_sub_cancel_left, decide_eq_true hi, Bool.true_and]

/-- A field that is apart from the one that is written keeps its value. -/
theorem getField_setField_of_disjoint (h : start' + len' ≤ start ∨ start + len ≤ start')
    (v : BitVec len) (d : BitVec w) :
    getField start' len' (setField start v d) = getField start' len' d := by
  apply BitVec.eq_of_getLsbD_eq
  intro i hi
  rw [getField, getField, BitVec.getLsbD_extractLsb', BitVec.getLsbD_extractLsb']
  by_cases hw : start' + i < w
  · rw [getLsbD_setField v d hw, if_neg (by omega)]
  · rw [BitVec.getLsbD_of_ge _ _ (by omega), BitVec.getLsbD_of_ge _ _ (by omega)]

/-- What is left without the lowest bits is the multiple below. -/
theorem toNat_and_not_low (x : BitVec w) (k : ℕ) :
    (x &&& ~~~(BitVec.ofNat w (2 ^ k - 1))).toNat = x.toNat / 2 ^ k * 2 ^ k := by
  have hshift : x &&& ~~~(BitVec.ofNat w (2 ^ k - 1)) = x >>> k <<< k := by
    apply BitVec.eq_of_getLsbD_eq
    intro i hi
    rw [BitVec.getLsbD_and, BitVec.getLsbD_not, BitVec.getLsbD_ofNat, Nat.testBit_two_pow_sub_one,
      BitVec.getLsbD_shiftLeft, BitVec.getLsbD_ushiftRight]
    by_cases hk : i < k
    · simp [hi, hk]
    · simp [hi, hk, Nat.add_sub_cancel' (Nat.le_of_not_lt hk)]
  have hlt : x.toNat / 2 ^ k * 2 ^ k < 2 ^ w := (Nat.div_mul_le_self _ _).trans_lt x.isLt
  rw [hshift, BitVec.toNat_shiftLeft, BitVec.toNat_ushiftRight, Nat.shiftLeft_eq,
    Nat.shiftRight_eq_div_pow, Nat.mod_eq_of_lt hlt]

end BitFields
