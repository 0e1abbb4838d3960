import Mathlib.Algebra.Order.Ring.Int
import Mathlib.Algebra.Order.Ring.Nat
import Mathlib.Data.List.TakeWhile
import Mathlib.Order.Fin.Basic
import Mathlib.Tactic.IntervalCases

/-! The patch of the code that Process9 installs its exception handlers with (`patches.c` of the
arm9): its stores are made absolute, and most of them are left out. -/

namespace Presence3DS.Arm9

abbrev ArmWord := BitVec 32

/-! ## What the processor does -/

/-- `STR` and `STRT` with an immediate offset from `r0`, under no condition. -/
def StoresFromR0 (op : ArmWord) : Prop :=
  op &&& 0xF0000000#32 = 0xE0000000#32 ∧ op &&& 0x0E500000#32 = 0x04000000#32 ∧
    op &&& 0x000F0000#32 = 0#32

instance (op : ArmWord) : Decidable (StoresFromR0 op) :=
  inferInstanceAs (Decidable (_ ∧ _ ∧ _))

/-- The bits `P`, `U` and `W`. -/
def indexBit (op : ArmWord) : Bool := op.getLsbD 24

def addBit (op : ArmWord) : Bool := op.getLsbD 23

def writebackBit (op : ArmWord) : Bool := op.getLsbD 21

def storedRegister (op : ArmWord) : ArmWord := (op >>> 12) &&& 0xF#32

def offsetAddress (r0 op : ArmWord) : ArmWord :=
  if addBit op then r0 + (op &&& 0xFFF#32) else r0 - (op &&& 0xFFF#32)

structure ArmStore where
  register : ArmWord
  address : ArmWord
deriving DecidableEq

/-- Without the index, the offset is added behind the store. -/
def armStore (r0 op : ArmWord) : ArmStore where
  register := storedRegister op
  address := if indexBit op then offsetAddress r0 op else r0

def armWriteback (r0 op : ArmWord) : ArmWord :=
  if !indexBit op || writebackBit op then offsetAddress r0 op else r0

/-- What each instruction stores by way of `r0`, which the others leave alone. -/
def armStores : ArmWord → List ArmWord → List (Option ArmStore)
  | _, [] => []
  | r0, op :: code =>
    if StoresFromR0 op then some (armStore r0 op) :: armStores (armWriteback r0 op) code
    else none :: armStores r0 code

/-! ## What the patch does -/

def firstStoreOp : ArmWord := 0xE5801000#32

def lastOp : ArmWord := 0xE3A01040#32

def nopOp : ArmWord := 0xE1A00000#32

/-- The handlers of the IRQ and of the SVC are kept. -/
def isDropped (addr : ArmWord) : Bool :=
  addr &&& 7#32 ≠ 0 ∧ addr ≠ 0x08000014#32 ∧ addr ≠ 0x08000004#32

/-- An instruction of the loop, and `r0` behind it. -/
def patchStore (r0 op : ArmWord) : ArmWord × ArmWord :=
  let rD := (op >>> 12) &&& 0xF#32
  let offset := if (op >>> 23) &&& 1#32 = 0#32 then -(op &&& 0xFFF#32) else op &&& 0xFFF#32
  let writeback := (op >>> 21) &&& 1#32 ≠ 0#32
  let pre := (op >>> 24) &&& 1#32 ≠ 0#32
  let addr := r0 + if pre ∨ ¬writeback then offset else 0
  let op := if isDropped addr then nopOp
    else 0xE5800000#32 ||| (rD <<< 12) ||| (addr &&& 0xFFF#32)
  let addr := if pre then addr else addr + offset
  (op, if writeback then addr else r0)

/-- The loop, which ends at `mov r1, #0x40`. -/
def patchStores : ArmWord → List ArmWord → List ArmWord
  | _, [] => []
  | r0, op :: code =>
    if op = lastOp then op :: code
    else if op &&& 0xFE5F0000#32 ≠ 0xE4000000#32 then op :: patchStores r0 code
    else (patchStore r0 op).1 :: patchStores (patchStore r0 op).2 code

/-- The words of the section, in which the pattern is found at one or not at all: the loop goes back
to `str r1, [r0]` from there. -/
def patchArm9ExceptionHandlersInstall (words : List ArmWord) :
    Option ℕ → UInt32 × List ArmWord
  | none => (1, words)
  | some temp =>
    let before := ((words.take (temp + 1)).reverse.dropWhile (· ≠ firstStoreOp)).length - 1
    (0, words.take before ++ patchStores 0x08000000#32 (words.drop before))

/-! ## What is claimed -/

/-- The code from `str r1, [r0]` to `mov r1, #0x40`, with the pattern in its first part. -/
structure HandlersInstall where
  before : List ArmWord
  toPattern : List ArmWord
  behindPattern : List ArmWord
  after : List ArmWord
  firstStoreOp_notMem : firstStoreOp ∉ toPattern
  lastOp_notMem : lastOp ∉ toPattern ++ behindPattern

def HandlersInstall.code (h : HandlersInstall) : List ArmWord :=
  firstStoreOp :: (h.toPattern ++ h.behindPattern)

def HandlersInstall.words (h : HandlersInstall) : List ArmWord :=
  h.before ++ (h.code ++ lastOp :: h.after)

def HandlersInstall.temp (h : HandlersInstall) : ℕ := h.before.length + h.toPattern.length

/-- One instruction after the other stores what it did, or nothing if that is to be dropped. -/
def StoresTheSame (h : HandlersInstall) : Prop :=
  ∃ code : List ArmWord, patchArm9ExceptionHandlersInstall h.words (some h.temp) =
      (0, h.before ++ (code ++ lastOp :: h.after)) ∧
    armStores 0x08000000#32 code =
      (armStores 0x08000000#32 h.code).map (Option.filter fun store => !isDropped store.address)

def armOffset (op : ArmWord) : ArmWord :=
  if addBit op then op &&& 0xFFF#32 else -(op &&& 0xFFF#32)

/-- What an offset is taken into account too early by: that of a post-indexed store is, unless it
has the bit `W`. -/
def earlyOffset (op : ArmWord) : ArmWord :=
  if indexBit op || writebackBit op then 0 else armOffset op

/-- The addresses lie in the first page, and the offsets that the patch forgets to add to `r0` do
not matter. -/
def InStep : ArmWord → ArmWord → List ArmWord → Prop
  | _, _, [] => True
  | r0, forgotten, op :: code =>
    if StoresFromR0 op then
      let addr := (armStore r0 op).address
      let late := forgotten - earlyOffset op
      (if isDropped addr then isDropped (addr - late) = true
        else isDropped (addr - late) = false ∧ addr.toNat / 0x1000 = 0x8000 ∧
          late.toNat % 0x1000 = 0) ∧
      InStep (armWriteback r0 op) (forgotten + earlyOffset op) code
    else InStep r0 forgotten code

/-! ## One instruction -/

theorem and_eq_of_and_eq {op m v m' v' : ArmWord} (h : op &&& m = v) (hm : m &&& m' = m')
    (hv : v &&& m' = v') : op &&& m' = v' := by
  rw [← hm, ← BitVec.and_assoc, h, hv]

theorem recognised_iff (op : ArmWord) :
    op &&& 0xFE5F0000#32 = 0xE4000000#32 ↔ StoresFromR0 op := by
  constructor
  · intro h
    exact ⟨and_eq_of_and_eq h (by decide) (by decide), and_eq_of_and_eq h (by decide) (by decide),
      and_eq_of_and_eq h (by decide) (by decide)⟩
  · rintro ⟨hcond, hstore, hbase⟩
    have hmask : 0xFE5F0000#32 = 0xF0000000#32 ||| 0x0E500000#32 ||| 0x000F0000#32 := by decide
    rw [hmask, BitVec.and_or_distrib_left, BitVec.and_or_distrib_left, hcond, hstore, hbase]
    decide

theorem bit_iff (op : ArmWord) (n : ℕ) :
    (op >>> n) &&& 1#32 = 0#32 ↔ op.getLsbD n = false := by
  rw [BitVec.and_one_eq_setWidth_ofBool_getLsbD, BitVec.getLsbD_ushiftRight, Nat.add_zero]
  cases op.getLsbD n
  · exact iff_of_true rfl rfl
  · exact iff_of_false (by decide) (by decide)

/-- The store that takes the place of another one. -/
def absoluteOp (rD addr : ArmWord) : ArmWord :=
  0xE5800000#32 ||| (rD <<< 12) ||| (addr &&& 0xFFF#32)

theorem absoluteOp_store (op addr r0 : ArmWord) :
    StoresFromR0 (absoluteOp (storedRegister op) addr) ∧
      armStore r0 (absoluteOp (storedRegister op) addr) =
        ⟨storedRegister op, r0 + (addr &&& 0xFFF#32)⟩ ∧
      armWriteback r0 (absoluteOp (storedRegister op) addr) = r0 := by
  have hstore : absoluteOp (storedRegister op) addr &&& 0xFE5F0000#32 = 0xE4000000#32 := by
    apply BitVec.eq_of_getLsbD_eq
    intro i hi
    interval_cases i <;> simp [absoluteOp, storedRegister]
  have hindex : indexBit (absoluteOp (storedRegister op) addr) = true := by
    simp [indexBit, absoluteOp]
  have hadd : addBit (absoluteOp (storedRegister op) addr) = true := by
    simp [addBit, absoluteOp]
  have hwriteback : writebackBit (absoluteOp (storedRegister op) addr) = false := by
    simp [writebackBit, absoluteOp, storedRegister]
  have hregister : storedRegister (absoluteOp (storedRegister op) addr) = storedRegister op := by
    apply BitVec.eq_of_getLsbD_eq
    intro i hi
    interval_cases i <;> simp [absoluteOp, storedRegister]
  have hoffset : absoluteOp (storedRegister op) addr &&& 0xFFF#32 = addr &&& 0xFFF#32 := by
    apply BitVec.eq_of_getLsbD_eq
    intro i hi
    interval_cases i <;> simp [absoluteOp, storedRegister]
  refine ⟨(recognised_iff _).mp hstore, ?_, ?_⟩
  · rw [armStore, hregister, hindex, if_pos rfl, offsetAddress, hadd, if_pos rfl, hoffset]
  · rw [armWriteback, hindex, hwriteback]
    rfl

theorem nopOp_no_store : ¬StoresFromR0 nopOp := by decide

/-- The address that the patch follows, and its `r0` behind the instruction. -/
def followedAddress (r0 op : ArmWord) : ArmWord :=
  r0 + if indexBit op || !writebackBit op then armOffset op else 0

def followedWriteback (r0 op : ArmWord) : ArmWord :=
  if writebackBit op then r0 + armOffset op else r0

theorem patchStore_eq (r0 op : ArmWord) :
    patchStore r0 op =
      (if isDropped (followedAddress r0 op) then nopOp
        else absoluteOp (storedRegister op) (followedAddress r0 op), followedWriteback r0 op) := by
  have hoffset : (if (op >>> 23) &&& 1#32 = 0#32 then -(op &&& 0xFFF#32) else op &&& 0xFFF#32) =
      armOffset op := by
    unfold armOffset
    by_cases hadd : addBit op
    · rw [if_pos hadd, if_neg fun h => by rw [addBit, (bit_iff op 23).mp h] at hadd; cases hadd]
    · rw [if_neg hadd, if_pos ((bit_iff op 23).mpr (Bool.eq_false_of_not_eq_true hadd))]
  have hindex : (op >>> 24) &&& 1#32 = 0#32 ↔ indexBit op = false := bit_iff op 24
  have hwriteback : (op >>> 21) &&& 1#32 = 0#32 ↔ writebackBit op = false := bit_iff op 21
  unfold patchStore followedAddress followedWriteback
  rw [hoffset]
  simp only [ne_eq, hindex, hwriteback]
  cases indexBit op
  · cases writebackBit op
    · rfl
    · show (_, r0 + 0#32 + armOffset op) = _
      rw [BitVec.add_zero r0]
      rfl
  · cases writebackBit op
    · rfl
    · rfl

theorem offsetAddress_eq (r0 op : ArmWord) : offsetAddress r0 op = r0 + armOffset op := by
  unfold offsetAddress armOffset
  split_ifs
  · rfl
  · exact BitVec.sub_eq_add_neg _ _

theorem followedAddress_eq (r0 forgotten op : ArmWord) :
    followedAddress (r0 - forgotten) op =
      (armStore r0 op).address - (forgotten - earlyOffset op) := by
  unfold followedAddress earlyOffset armStore
  rw [offsetAddress_eq]
  cases indexBit op <;> cases writebackBit op <;> simp <;> grind

theorem followedWriteback_eq (r0 forgotten op : ArmWord) :
    followedWriteback (r0 - forgotten) op =
      armWriteback r0 op - (forgotten + earlyOffset op) := by
  unfold followedWriteback earlyOffset armWriteback
  rw [offsetAddress_eq]
  cases indexBit op <;> cases writebackBit op <;> simp <;> grind

/-! ## The code -/

/-- What the code stores behind the patch. -/
def followedStores : ArmWord → List ArmWord → List (Option ArmStore)
  | _, [] => []
  | r0, op :: code =>
    if StoresFromR0 op then
      (if isDropped (followedAddress r0 op) then none
        else some ⟨storedRegister op,
          0x08000000#32 + (followedAddress r0 op &&& 0xFFF#32)⟩) ::
        followedStores (followedWriteback r0 op) code
    else none :: followedStores r0 code

theorem armStores_patchStores {code : List ArmWord} (hcode : lastOp ∉ code) (r0 : ArmWord) :
    armStores 0x08000000#32 (patchStores r0 code) = followedStores r0 code := by
  induction code generalizing r0 with
  | nil => rfl
  | cons op code ih =>
    obtain ⟨hop, hcode⟩ := not_or.mp (mt List.mem_cons.mpr hcode)
    rw [patchStores, followedStores, if_neg (Ne.symm hop)]
    by_cases hstore : StoresFromR0 op
    · rw [if_neg (not_not.mpr ((recognised_iff op).mpr hstore)), if_pos hstore, patchStore_eq]
      dsimp only
      rw [armStores]
      split_ifs with hdropped hnop habsolute
      · exact absurd hnop nopOp_no_store
      · rw [ih hcode]
      · obtain ⟨-, haddress, hr0⟩ := absoluteOp_store op (followedAddress r0 op) 0x08000000#32
        rw [haddress, hr0, ih hcode]
      · exact absurd (absoluteOp_store op (followedAddress r0 op) 0x08000000#32).1 habsolute
    · rw [if_pos (mt (recognised_iff op).mp hstore), if_neg hstore, armStores, if_neg hstore,
        ih hcode]

theorem sameAddress_iff (addr late : ArmWord) :
    0x08000000#32 + ((addr - late) &&& 0xFFF#32) = addr ↔
      addr.toNat / 0x1000 = 0x8000 ∧ late.toNat % 0x1000 = 0 := by
  rw [← BitVec.toNat_inj, BitVec.toNat_add, BitVec.toNat_and, BitVec.toNat_sub,
    show (0xFFF#32).toNat = 2 ^ 12 - 1 from rfl, Nat.and_two_pow_sub_one_eq_mod]
  show (0x08000000 + (2 ^ 32 - late.toNat + addr.toNat) % 2 ^ 32 % 2 ^ 12) % 2 ^ 32 = _ ↔ _
  have haddr := addr.isLt
  have hlate := late.isLt
  omega

theorem followedStores_iff (r0 forgotten : ArmWord) (code : List ArmWord) :
    followedStores (r0 - forgotten) code =
      (armStores r0 code).map (Option.filter fun store => !isDropped store.address) ↔
      InStep r0 forgotten code := by
  induction code generalizing r0 forgotten with
  | nil => exact iff_of_true rfl trivial
  | cons op code ih =>
    rw [followedStores, armStores, InStep]
    by_cases hstore : StoresFromR0 op
    · rw [if_pos hstore, if_pos hstore, if_pos hstore, followedAddress_eq, followedWriteback_eq,
        List.map_cons, List.cons.injEq, ih]
      refine and_congr_left fun _ => ?_
      have hregister : (armStore r0 op).register = storedRegister op := rfl
      generalize armStore r0 op = store at *
      generalize forgotten - earlyOffset op = late
      rw [← hregister]
      obtain ⟨register, addr⟩ := store
      by_cases hdropped : isDropped addr
      · rw [if_pos hdropped, Option.filter_some_neg (by simp [hdropped])]
        split_ifs with hfollowed
        · exact iff_of_true rfl hfollowed
        · exact iff_of_false not_false hfollowed
      · rw [if_neg hdropped, Option.filter_some_pos (by simp [hdropped])]
        split_ifs with hfollowed
        · exact iff_of_false not_false fun h => by
            rw [hfollowed] at h
            exact Bool.noConfusion h.1
        · rw [Option.some.injEq, ArmStore.mk.injEq, sameAddress_iff,
            and_iff_right rfl, and_iff_right (Bool.eq_false_of_not_eq_true hfollowed)]
    · rw [if_neg hstore, if_neg hstore, if_neg hstore, List.map_cons, List.cons.injEq, ih]
      exact and_iff_right rfl

theorem patchStores_append {code : List ArmWord} (hcode : lastOp ∉ code) (r0 : ArmWord)
    (after : List ArmWord) :
    patchStores r0 (code ++ lastOp :: after) = patchStores r0 code ++ lastOp :: after := by
  induction code generalizing r0 with
  | nil =>
    show (if lastOp = lastOp then _ else _) = _
    exact if_pos rfl
  | cons op code ih =>
    obtain ⟨hop, hcode⟩ := not_or.mp (mt List.mem_cons.mpr hcode)
    rw [List.cons_append, patchStores, patchStores, if_neg (Ne.symm hop), if_neg (Ne.symm hop)]
    split_ifs with hstore
    · rw [ih hcode]
      rfl
    · rw [ih hcode]
      rfl

theorem HandlersInstall.lastOp_code (h : HandlersInstall) : lastOp ∉ h.code := by
  intro hmem
  obtain heq | hmem := List.mem_cons.mp hmem
  · exact absurd heq (by decide)
  · exact h.lastOp_notMem hmem

theorem patch_words (h : HandlersInstall) :
    patchArm9ExceptionHandlersInstall h.words (some h.temp) =
      (0, h.before ++ (patchStores 0x08000000#32 h.code ++ lastOp :: h.after)) := by
  have htake : h.words.take (h.temp + 1) = h.before ++ firstStoreOp :: h.toPattern := by
    unfold HandlersInstall.words HandlersInstall.temp HandlersInstall.code
    have hlength : h.before.length + h.toPattern.length + 1 =
        (h.before ++ firstStoreOp :: h.toPattern).length := by
      rw [List.length_append, List.length_cons]
      rfl
    rw [hlength, show h.before ++ (firstStoreOp :: (h.toPattern ++ h.behindPattern) ++
      lastOp :: h.after) = (h.before ++ firstStoreOp :: h.toPattern) ++
        (h.behindPattern ++ lastOp :: h.after) by simp]
    exact List.take_left' rfl
  have hback : (h.words.take (h.temp + 1)).reverse.dropWhile (· ≠ firstStoreOp) =
      firstStoreOp :: h.before.reverse := by
    have hskip : ∀ op ∈ h.toPattern.reverse, decide (op ≠ firstStoreOp) = true := by
      intro op hop
      exact decide_eq_true fun heq => h.firstStoreOp_notMem (heq ▸ List.mem_reverse.mp hop)
    rw [htake, List.reverse_append, List.reverse_cons, List.append_assoc, List.singleton_append,
      List.dropWhile_append_of_pos hskip, List.dropWhile_cons_of_neg (by simp)]
  unfold patchArm9ExceptionHandlersInstall
  dsimp only
  rw [hback, List.length_cons, Nat.add_sub_cancel, List.length_reverse]
  unfold HandlersInstall.words
  rw [List.take_left' rfl, List.drop_left' rfl, patchStores_append h.lastOp_code]

/-- The stores stay what they are, but for those that are dropped, just if the patch stays in step
with `r0`, in the first page. -/
theorem exceptionHandlers_stores (h : HandlersInstall) :
    StoresTheSame h ↔ InStep 0x08000000#32 0#32 h.code := by
  rw [← followedStores_iff, BitVec.sub_zero, ← armStores_patchStores h.lastOp_code]
  constructor
  · rintro ⟨code, hcode, hsame⟩
    rw [patch_words] at hcode
    have hcode := List.append_cancel_left (Prod.mk.inj hcode).2
    rwa [List.append_cancel_right hcode]
  · intro hsame
    exact ⟨_, patch_words h, hsame⟩

/-- `str r1, [r0]` and `str r1, [r0], #8`. -/
def postIndexed : HandlersInstall where
  before := []
  toPattern := [0xE4801008#32]
  behindPattern := []
  after := []
  firstStoreOp_notMem := by decide
  lastOp_notMem := by decide

/-- The second store is moved by its own offset. -/
theorem postIndexed_moved : ¬StoresTheSame postIndexed := by
  rintro ⟨code, hcode, hsame⟩
  rw [patch_words] at hcode
  have hcode := List.append_cancel_right (List.append_cancel_left (Prod.mk.inj hcode).2)
  rw [← hcode] at hsame
  exact absurd hsame (by decide)

end Presence3DS.Arm9
