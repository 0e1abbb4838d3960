import Presence3DS.Cheats.Apply
import Presence3DS.Lib.Traced

/-! The operations of integers that C leaves undefined for some operands: the quotient, the
remainder and the shifts of codes F3, F5, FA, FB and FF. These codes are given again with their
operations noted, and do the same. -/

namespace Presence3DS.Cheats
open Loops Traced

inductive Operation where
  | quotient (divisor : BitVec 32)
  | remainder (divisor : BitVec 32)
  | shift (amount : BitVec 32)
deriving DecidableEq

def Operation.Defined : Operation → Prop
  | .quotient y | .remainder y => y ≠ 0
  | .shift y => y < 32

variable {W : Type}

abbrev ArithT (W : Type) := TracedM (CheatData W) Operation

/-- An operation, and its result. -/
def noted (o : Operation) (value : BitVec 32) : ArithT W (BitVec 32) :=
  logged (fun _ => [o]) (pure value)

/-- F3 -/
def divideMemoryT (c : Console W) (arg0 arg1 : BitVec 32) : ArithT W Unit := do
  let floatMode := (← quiet get).floatMode
  let tmp ← quiet (cheatRead32 c (arg0 &&& 0x00FFFFFF))
  let tmp ← if floatMode then pure (c.floatDiv tmp arg1)
    else noted (.quotient arg1) (div c tmp arg1)
  quiet (cheatWrite32 c (arg0 &&& 0x00FFFFFF) tmp)

/-- F5 -/
def divideDataT (c : Console W) (arg1 : BitVec 32) : ArithT W Unit := do
  let value ← quiet activeData
  let value ← if (← quiet get).data1Mode then pure (c.floatDiv value arg1)
    else noted (.quotient arg1) (div c value arg1)
  quiet (setActiveData value)

/-- FA and FB -/
def shiftDataT (op : BitVec 32 → BitVec 32 → BitVec 32) (arg1 : BitVec 32) : ArithT W Unit := do
  let value ← quiet activeData
  let value ← noted (.shift arg1) (op value arg1)
  quiet (setActiveData value)

/-- FF -/
def randomDataT (c : Console W) (arg0 arg1 : BitVec 32) : ArithT W Unit := do
  let range := arg1 - (arg0 &&& 0xFFFFFF)
  let number ← quiet cheatGetRandomNumber
  let number ← noted (.remainder range) (mod c number range)
  quiet (setActiveData ((arg0 &&& 0xFFFFFF) + number))

/-- The code of a line, where it is one of these. -/
def arithmetic (c : Console W) (line : BitVec 64) : Option (ArithT W Unit) :=
  let arg0 := (line >>> 32).setWidth 32
  let arg1 := line.setWidth 32
  if (arg0 >>> 28).toNat = 0xF ∧ arg0 ≠ 0xF0F00000 then
    match (arg0 >>> 24 &&& 0x0F).toNat with
    | 0x3 => some (divideMemoryT c arg0 arg1)
    | 0x5 => some (divideDataT c arg1)
    | 0xA => some (shiftDataT (shl c) arg1)
    | 0xB => some (shiftDataT (shr c) arg1)
    | 0xF => some (randomDataT c arg0 arg1)
    | _ => none
  else none

/-- The interpreter's answer to such a code, and the operations that it has carried out. -/
def CheatState.afterArithmetic (s : CheatState W) (t : ArithT W Unit) :
    Pass (CheatState W) (ℕ × CheatData W) × List Operation :=
  match resultOf t s.data with
  | (some _, d) => (.next (advance { s with data := d }), logOf t s.data)
  | (none, d) => (.done (0, d), logOf t s.data)

/-- One pass of the loop of `Cheat_ApplyCheat`, with its operations. -/
def applyLineArithmetic (c : Console W) (cheat : Cheat) (s : CheatState W) :
    Pass (CheatState W) (ℕ × CheatData W) × List Operation :=
  if s.index < cheat.codesCount then
    match arithmetic c (cheat.codes s.index) with
    | some effect =>
      if s.skipExecution then (.next s.advance, []) else s.afterArithmetic effect
    | none => (applyLine c cheat s, [])
  else (.done (1, s.data), [])

/-- No pass of the run carries out an undefined operation. -/
def ArithmeticSafe (c : Console W) (cheat : Cheat) (typeE : TypeE) (d : CheatData W) : Prop :=
  Guarded (applyLine c cheat) (fun s => ∀ o ∈ (applyLineArithmetic c cheat s).2, o.Defined)
    (.start typeE d)

/-! ## The operands of a line -/

/-- The operands are in the range of the operation, or it is one of floats, or F3 fails at the word
that it is to divide. -/
def operandsFit (c : Console W) (line : BitVec 64) (d : CheatData W) : Bool :=
  let arg0 := (line >>> 32).setWidth 32
  let arg1 := line.setWidth 32
  if (arg0 >>> 28).toNat = 0xF ∧ arg0 ≠ 0xF0F00000 then
    match (arg0 >>> 24 &&& 0x0F).toNat with
    | 0x3 => arg1 ≠ 0 || d.floatMode ||
        ((cheatRead32 c (arg0 &&& 0x00FFFFFF)).run d : Option (BitVec 32) × CheatData W).1.isNone
    | 0x5 => arg1 ≠ 0 || d.data1Mode
    | 0xA | 0xB => arg1 < 32
    | 0xF => arg1 ≠ arg0 &&& 0xFFFFFF
    | _ => true
  else true

/-- The condition of a pass. -/
def arithmeticFits (c : Console W) (cheat : Cheat) (s : CheatState W) : Bool :=
  decide (cheat.codesCount ≤ s.index) || s.skipExecution ||
    operandsFit c (cheat.codes s.index) s.data

theorem shiftDataT_eq (op : BitVec 32 → BitVec 32 → BitVec 32) (arg1 : BitVec 32) :
    shiftDataT op arg1 =
      logged (fun _ : CheatData W => [.shift arg1]) (changeData (op · arg1)) := by
  funext ⟨d, log⟩
  show (_, _, log ++ [] ++ [_] ++ []) = (_, _, log ++ [_])
  rw [List.append_nil, List.append_nil]

theorem randomDataT_eq (c : Console W) (arg0 arg1 : BitVec 32) :
    randomDataT c arg0 arg1 =
      logged (fun _ => [.remainder (arg1 - (arg0 &&& 0xFFFFFF))]) (randomData c arg0 arg1) := by
  funext ⟨d, log⟩
  show (_, _, log ++ [] ++ [_] ++ []) = (_, _, log ++ [_])
  rw [List.append_nil, List.append_nil]

theorem divideDataT_eq (c : Console W) (arg1 : BitVec 32) :
    divideDataT c arg1 =
      logged (fun d => if d.data1Mode then [] else [.quotient arg1])
        (scaleData c.floatDiv (div c) arg1) := by
  funext ⟨d, log⟩
  obtain ⟨value, hvalue⟩ : ∃ value, (activeData.run d : Option (BitVec 32) × CheatData W) =
      (some value, d) := ⟨_, rfl⟩
  show ((divideDataT c arg1).run (d, log) : Option Unit × CheatData W × List Operation) =
    (((scaleData c.floatDiv (div c) arg1).run d : Option Unit × CheatData W).1,
      ((scaleData c.floatDiv (div c) arg1).run d : Option Unit × CheatData W).2, _)
  have hget : ((get : CheatM W (CheatData W)).run d : Option (CheatData W) × CheatData W) =
      (some d, d) := rfl
  unfold divideDataT scaleData
  rw [run_quiet_bind, hvalue]
  simp only
  rw [run_quiet_bind, hget, run_bind, hvalue]
  simp only
  rw [run_bind, hget]
  simp only
  cases d.data1Mode
  · show (_, _, log ++ [_] ++ []) = (_, _, log ++ [_])
    rw [List.append_nil]
    rfl
  · show (_, _, log ++ []) = (_, _, log ++ [])
    rfl

theorem divideMemoryT_eq (c : Console W) (arg0 arg1 : BitVec 32) :
    divideMemoryT c arg0 arg1 =
      logged (fun d => if d.floatMode ||
          ((cheatRead32 c (arg0 &&& 0x00FFFFFF)).run d : Option (BitVec 32) × CheatData W).1.isNone
        then [] else [.quotient arg1])
        (changeMemory c c.floatDiv (div c) arg0 arg1) := by
  funext ⟨d, log⟩
  show ((divideMemoryT c arg0 arg1).run (d, log) : Option Unit × CheatData W × List Operation) =
    (((changeMemory c c.floatDiv (div c) arg0 arg1).run d : Option Unit × CheatData W).1,
      ((changeMemory c c.floatDiv (div c) arg0 arg1).run d : Option Unit × CheatData W).2, _)
  have hget : ((get : CheatM W (CheatData W)).run d : Option (CheatData W) × CheatData W) =
      (some d, d) := rfl
  unfold divideMemoryT changeMemory
  rw [run_quiet_bind, hget]
  simp only
  rw [run_quiet_bind, run_bind, hget]
  simp only
  rw [run_bind]
  rcases ((cheatRead32 c (arg0 &&& 0x00FFFFFF)).run d : Option (BitVec 32) × CheatData W) with
    ⟨_ | value, d'⟩
  · cases d.floatMode
    · show (_, _, log) = (_, _, log ++ [])
      rw [List.append_nil]
    · show (_, _, log) = (_, _, log ++ [])
      rw [List.append_nil]
  · cases d.floatMode
    · show (_, _, log ++ [_] ++ []) = (_, _, log ++ [_])
      rw [List.append_nil]
      rfl
    · rfl

/-! ## One line -/

theorem decode_typeF (c : Console W) {line : BitVec 64}
    (h : (((line >>> 32).setWidth 32 : BitVec 32) >>> 28).toNat = 0xF ∧
      ((line >>> 32).setWidth 32 : BitVec 32) ≠ 0xF0F00000) :
    decode c line = decodeF c (((line >>> 32).setWidth 32 : BitVec 32) >>> 24 &&& 0x0F).toNat
      ((line >>> 32).setWidth 32) (line.setWidth 32) := by
  have hzero : ¬(((line >>> 32).setWidth 32 : BitVec 32) = 0 ∧
      (line.setWidth 32 : BitVec 32) = 0) := by
    rintro ⟨hzero, -⟩
    rw [hzero] at h
    exact absurd h.1 (by decide)
  simp only [decode, if_neg hzero, h.1]

theorem decode_byteF (c : Console W) {line : BitVec 64} {subcode : ℕ} (hpos : 0 < subcode)
    (hlt : subcode < 16) (h : (line >>> 56).toNat = 0xF0 + subcode) :
    ((line >>> 32).setWidth 32 : BitVec 32) ≠ 0xF0F00000 ∧
      decode c line = decodeF c subcode ((line >>> 32).setWidth 32) (line.setWidth 32) := by
  have hbyte : (((line >>> 32).setWidth 32 : BitVec 32) >>> 24).toNat = 0xF0 + subcode := by
    bv_omega
  have hhigh : (((line >>> 32).setWidth 32 : BitVec 32) >>> 28).toNat = 0xF := by
    bv_omega
  have hstop : ((line >>> 32).setWidth 32 : BitVec 32) ≠ 0xF0F00000 := by
    intro hstop
    rw [hstop] at hbyte
    change 0xF0 = _ at hbyte
    omega
  refine ⟨hstop, (decode_typeF c ⟨hhigh, hstop⟩).trans ?_⟩
  rw [BitVec.toNat_and, hbyte]
  congr 1
  show (0xF0 + subcode) &&& (2 ^ 4 - 1) = subcode
  rw [Nat.and_two_pow_sub_one_eq_mod]
  omega

theorem forall_unless {b : Bool} {o : Operation} :
    (∀ e ∈ (if b then [] else [o]), e.Defined) ↔ b = true ∨ o.Defined := by
  cases b <;> simp

theorem defined_quotient (y : BitVec 32) : (Operation.quotient y).Defined ↔ y ≠ 0 := Iff.rfl

theorem arithmetic_cases (c : Console W) (line : BitVec 64) :
    (arithmetic c line = none ∧ ∀ d, operandsFit c line d = true) ∨
    ∃ x f, arithmetic c line = some (logged f x) ∧ decode c line = .plain x ∧
      ∀ d, (operandsFit c line d = true ↔ ∀ o ∈ f d, o.Defined) := by
  by_cases htype : (((line >>> 32).setWidth 32 : BitVec 32) >>> 28).toNat = 0xF ∧
      ((line >>> 32).setWidth 32 : BitVec 32) ≠ 0xF0F00000
  · rw [decode_typeF c htype]
    unfold arithmetic operandsFit decodeF
    simp only [if_pos htype, if_neg htype.2]
    generalize ((line >>> 32).setWidth 32 : BitVec 32) = arg0
    generalize (line.setWidth 32 : BitVec 32) = arg1
    generalize (arg0 >>> 24 &&& 0x0F).toNat = subcode
    split
    · refine .inr ⟨_, _, congrArg some (divideMemoryT_eq c arg0 arg1), rfl, fun d => ?_⟩
      rw [forall_unless, defined_quotient, Bool.or_assoc, Bool.or_eq_true, decide_eq_true_eq]
      exact or_comm
    · refine .inr ⟨_, _, congrArg some (divideDataT_eq c arg1), rfl, fun d => ?_⟩
      rw [forall_unless, defined_quotient, Bool.or_eq_true, decide_eq_true_eq]
      exact or_comm
    · refine .inr ⟨_, _, congrArg some (shiftDataT_eq (shl c) arg1), rfl, fun d => ?_⟩
      rw [List.forall_mem_singleton, decide_eq_true_eq]
      rfl
    · refine .inr ⟨_, _, congrArg some (shiftDataT_eq (shr c) arg1), rfl, fun d => ?_⟩
      rw [List.forall_mem_singleton, decide_eq_true_eq]
      rfl
    · refine .inr ⟨_, _, congrArg some (randomDataT_eq c arg0 arg1), rfl, fun d => ?_⟩
      rw [List.forall_mem_singleton, decide_eq_true_eq]
      show arg1 ≠ arg0 &&& 0xFFFFFF ↔ arg1 - (arg0 &&& 0xFFFFFF) ≠ 0
      rw [Ne, Ne, BitVec.sub_eq_iff_eq_add]
      show _ ↔ ¬arg1 = 0#32 + (arg0 &&& 0xFFFFFF)
      rw [BitVec.zero_add]
    · exact .inl ⟨rfl, fun _ => rfl⟩
  · left
    unfold arithmetic operandsFit
    exact ⟨if_neg htype, fun _ => if_neg htype⟩

theorem afterArithmetic_logged (s : CheatState W) (f : CheatData W → List Operation)
    (x : CheatM W Unit) :
    s.afterArithmetic (logged f x) = (s.after x fun _ d => { s with data := d }, f s.data) := by
  have hrun : resultOf (logged f x) s.data = (x.run s.data : Option Unit × CheatData W) := rfl
  have hlog : logOf (logged f x) s.data = f s.data := rfl
  unfold CheatState.afterArithmetic CheatState.after
  rw [hrun, hlog]
  rcases (x.run s.data : Option Unit × CheatData W) with ⟨_ | a, d⟩
  · rfl
  · rfl

theorem applyLineArithmetic_defined_iff (c : Console W) (cheat : Cheat) (s : CheatState W) :
    (∀ o ∈ (applyLineArithmetic c cheat s).2, o.Defined) ↔ arithmeticFits c cheat s = true := by
  have hnone : ∀ o ∈ ([] : List Operation), o.Defined := fun o ho => absurd ho List.not_mem_nil
  unfold applyLineArithmetic arithmeticFits
  rw [Bool.or_eq_true, Bool.or_eq_true, decide_eq_true_eq]
  by_cases hindex : s.index < cheat.codesCount
  · rw [if_pos hindex]
    rcases arithmetic_cases c (cheat.codes s.index) with ⟨hcode, hfits⟩ | ⟨x, f, hcode, -, hfits⟩
    · rw [hcode]
      exact iff_of_true hnone (.inr (hfits s.data))
    · simp only [hcode]
      split_ifs with hskip
      · exact iff_of_true hnone (.inl (.inr hskip))
      · rw [afterArithmetic_logged, ← hfits]
        have hover : ¬cheat.codesCount ≤ s.index := Nat.not_le_of_lt hindex
        tauto
  · rw [if_neg hindex]
    exact iff_of_true hnone (.inl (.inl (Nat.le_of_not_lt hindex)))

theorem arithmeticSafe_iff (c : Console W) (cheat : Cheat) (typeE : TypeE) (d : CheatData W) :
    ArithmeticSafe c cheat typeE d ↔
      Guarded (applyLine c cheat) (fun s => arithmeticFits c cheat s = true) (.start typeE d) := by
  unfold ArithmeticSafe
  simp only [applyLineArithmetic_defined_iff]

/-- A code of each kind with an operand that is out of its range: F5, FA, FB and FF. -/
def undefinedCheats : List Cheat :=
  [cheatOf [0xF500000000000000] (by decide), cheatOf [0xFA00000000000020] (by decide),
    cheatOf [0xFB00000000000020] (by decide), cheatOf [0xFF00000500000005] (by decide)]

theorem undefined_operations_are_carried_out :
    ¬∃ cheat ∈ undefinedCheats, ArithmeticSafe emptyConsole cheat ⟨0, 0⟩ (emptyData 0) := by
  have hfirst : ∀ {cheat : Cheat} {o : Operation}, ¬o.Defined →
      o ∈ (applyLineArithmetic emptyConsole cheat (.start ⟨0, 0⟩ (emptyData 0))).2 →
      ¬ArithmeticSafe emptyConsole cheat ⟨0, 0⟩ (emptyData 0) :=
    fun ho hmem hsafe => ho (hsafe.here _ hmem)
  have hshift : ¬(Operation.shift 32).Defined := by
    show ¬(32 : BitVec 32) < 32
    decide
  rw [undefinedCheats]
  simp only [not_exists, not_and, List.forall_mem_cons]
  refine ⟨hfirst (o := .quotient 0) (fun h => h rfl) (by decide), hfirst hshift (by decide),
    hfirst hshift (by decide), hfirst (o := .remainder 0) (fun h => h rfl) (by decide), ?_⟩
  exact fun cheat h => absurd h List.not_mem_nil

end Presence3DS.Cheats
