import Mathlib.Tactic.IntervalCases
import Presence3DS.Lib.BitFields

/-! The long branches of Thumb code: two halfwords, of which the first one puts the upper half of
the distance into the link register, and the second one branches. -/

namespace Thumb

structure Core where
  pc : BitVec 32
  lr : BitVec 32
  thumb : Bool
deriving DecidableEq

/-- The halfwords of `BL` and `BLX` by their upper five bits; the distance of `BLX` has an even
number of halfwords. -/
def branch (op : BitVec 16) (c : Core) : Option Core :=
  let offset := op.extractLsb' 0 11
  match (op.extractLsb' 11 5).toNat with
  | 0b11110 => some { c with pc := c.pc + 2#32, lr := c.pc + 4#32 + offset.signExtend 32 <<< 12 }
  | 0b11101 =>
    if offset.getLsbD 0 then none
    else some ⟨(c.lr + offset.setWidth 32 <<< 1) &&& ~~~3#32, (c.pc + 2#32) ||| 1#32, false⟩
  | 0b11111 => some ⟨c.lr + offset.setWidth 32 <<< 1, (c.pc + 2#32) ||| 1#32, c.thumb⟩
  | _ => none

variable {d : BitVec 32}

/-- The halfwords of a `BLX` over a distance, of which the upper ten bits and the lowest one do
not count. -/
def blxPrefix (d : BitVec 32) : BitVec 16 := 0b11110#5 ++ d.extractLsb' 11 11

def blxSuffix (d : BitVec 32) : BitVec 16 := 0b11101#5 ++ (d.extractLsb' 1 10 ++ 0#1)

/-- The bits above the distance are copies of its sign. -/
theorem getLsbD_of_bounds (hmin : -0x200000 ≤ d.toInt) (hmax : d.toInt < 0x200000) {i : ℕ}
    (hi : 21 ≤ i) (hi' : i < 32) : d.getLsbD i = d.getLsbD 21 := by
  have hzero : ∀ x : BitVec 32, x.toNat < 2 ^ 21 → ∀ j, 21 ≤ j → x.getLsbD j = false :=
    fun x hx j hj => Nat.testBit_lt_two_pow (hx.trans_le (Nat.pow_le_pow_right (by decide) hj))
  rw [BitVec.toInt_eq_toNat_cond] at hmin hmax
  have hd := d.isLt
  by_cases hpos : d.toNat < 2 ^ 21
  · rw [hzero d hpos i hi, hzero d hpos 21 le_rfl]
  · have hnot : (~~~d).toNat < 2 ^ 21 := by
      rw [BitVec.toNat_not]
      split_ifs at hmin <;> omega
    have hbit : ∀ j, j < 32 → d.getLsbD j = !(~~~d).getLsbD j := by
      intro j hj
      rw [BitVec.getLsbD_not, decide_eq_true hj, Bool.true_and, Bool.not_not]
    rw [hbit i hi', hbit 21 (by decide), hzero _ hnot i hi, hzero _ hnot 21 le_rfl]

theorem signExtend_distance (hmin : -0x200000 ≤ d.toInt) (hmax : d.toInt < 0x200000) :
    (d.extractLsb' 11 11).signExtend 32 <<< 12 + (d.extractLsb' 1 10 ++ 0#1).setWidth 32 <<< 1 =
      (d &&& ~~~1#32) <<< 1 := by
  have hsum : (d.extractLsb' 11 11).signExtend 32 <<< 12 +
      (d.extractLsb' 1 10 ++ 0#1).setWidth 32 <<< 1 =
      ((d.extractLsb' 11 11).signExtend 32 <<< 12 |||
        (d.extractLsb' 1 10 ++ 0#1).setWidth 32 <<< 1) := by
    apply BitVec.add_eq_or_of_and_eq_zero
    apply BitVec.eq_of_getLsbD_eq
    intro i hi
    interval_cases i <;> simp
  rw [hsum]
  apply BitVec.eq_of_getLsbD_eq
  intro i hi
  have hmsb : (d.extractLsb' 11 11).msb = d[21] := by
    rw [BitVec.msb_eq_getLsbD_last, BitVec.getLsbD_extractLsb']
    rfl
  have hlower : ∀ (j : ℕ) (hj : j < 11), (d.extractLsb' 1 10 ++ 0#1)[j] =
      if j = 0 then false else d[j] := by
    intro j hj
    rw [← BitVec.getLsbD_eq_getElem, BitVec.getLsbD_append]
    interval_cases j <;> simp
  by_cases hlow : i < 22
  · interval_cases i <;> simp [BitVec.getElem_signExtend, hlower]
  · have hbit := getLsbD_of_bounds hmin hmax (show 21 ≤ i - 1 by omega) (by omega)
    interval_cases i <;> simp [BitVec.getElem_signExtend, hmsb] at hbit ⊢ <;> exact hbit.symm

theorem branch_blxPrefix (d : BitVec 32) (c : Core) : branch (blxPrefix d) c =
    some { c with
      pc := c.pc + 2#32
      lr := c.pc + 4#32 + (d.extractLsb' 11 11).signExtend 32 <<< 12 } := by
  have hfield : (blxPrefix d).extractLsb' 11 5 = 0b11110#5 := BitVec.extractLsb'_append_eq_left
  have hoffset : (blxPrefix d).extractLsb' 0 11 = d.extractLsb' 11 11 :=
    BitVec.extractLsb'_append_eq_right
  unfold branch
  rw [hfield, hoffset]
  rfl

theorem branch_blxSuffix (d : BitVec 32) (c : Core) : branch (blxSuffix d) c =
    some ⟨(c.lr + (d.extractLsb' 1 10 ++ 0#1).setWidth 32 <<< 1) &&& ~~~3#32,
      (c.pc + 2#32) ||| 1#32, false⟩ := by
  have hfield : (blxSuffix d).extractLsb' 11 5 = 0b11101#5 := BitVec.extractLsb'_append_eq_left
  have hoffset : (blxSuffix d).extractLsb' 0 11 = d.extractLsb' 1 10 ++ 0#1 :=
    BitVec.extractLsb'_append_eq_right
  have heven : (d.extractLsb' 1 10 ++ 0#1).getLsbD 0 = false := by
    rw [BitVec.getLsbD_append]
    rfl
  unfold branch
  rw [hfield, hoffset]
  show (if (d.extractLsb' 1 10 ++ 0#1).getLsbD 0 then none else _) = _
  rw [heven]
  rfl

theorem branch_blx (hmin : -0x200000 ≤ d.toInt) (hmax : d.toInt < 0x200000) (c : Core) :
    (branch (blxPrefix d) c).bind (branch (blxSuffix d)) =
      some ⟨(c.pc + 4#32 + (d &&& ~~~1#32) <<< 1) &&& ~~~3#32, (c.pc + 4#32) ||| 1#32, false⟩ := by
  rw [branch_blxPrefix, Option.bind_some, branch_blxSuffix, ← signExtend_distance hmin hmax,
    ← BitVec.add_assoc]
  show some (Core.mk _ ((c.pc + 2#32 + 2#32) ||| 1#32) false) = _
  rw [BitVec.add_assoc c.pc 2#32 2#32]
  rfl

end Thumb
