import Presence3DS.Lib.Thumb
import Presence3DS.Loader.Memsearch

/-! The patch of the ticket wrapper (`patches.c` of the arm9), which replaces a call by one to
another function. -/

namespace Presence3DS.Arm9
open Loader RawMemory Thumb

def rtMemclrPattern : List UInt8 :=
  [0x00, 0x20, 0xA0, 0xE3, 0x04, 0x00, 0x51, 0xE3, 0x07, 0x00, 0x00, 0x3A]

def ticketWrapperPattern : List UInt8 := [0x20, 0x21, 0xA6, 0xA8]

/-- `(s32)(function - ((u32)&off[3])) / 2` -/
def opJumpDistance (function off : ℕ) : BitVec 32 :=
  (BitVec.ofNat 32 function - BitVec.ofNat 32 (off + 6)).sdiv 2

def blxOp (opjumpdistance : BitVec 32) : BitVec 32 :=
  (0xE800F000#32 ||| ((opjumpdistance &&& 0x7FF#32) <<< 16) |||
    ((opjumpdistance >>> 11) &&& 0x3FF#32) ||| ((opjumpdistance >>> 21) &&& 0x400#32)) &&&
    ~~~(1#32 <<< 16)

/-- The result, and the memory that is left. -/
def patchP9AMTicketWrapperZeroKeyIV (m : RawMemory.Memory) (pos : ℕ) (size firmVersion : UInt32) :
    UInt32 × RawMemory.Memory :=
  match memsearch m pos rtMemclrPattern size, memsearch m pos ticketWrapperPattern size with
  | some function, some off =>
    let opjumpdistance := opJumpDistance function off
    if opjumpdistance.toInt < -0x1fffff ∨ opjumpdistance.toInt > 0x1fffff then (1, m)
    else
      let op := blxOp opjumpdistance
      let m := write m (off + 4) (leBytes 2 (op.setWidth 16).toNat)
      (0, write m (off + 6) (leBytes 2 ((op >>> 16).setWidth 16).toNat))
  | _, _ => (if firmVersion = 0xFFFFFFFF then 0 else 1, m)

def readHalf (m : RawMemory.Memory) (a : ℕ) : BitVec 16 := BitVec.ofNat 16 (leValue (read m a 2))

/-- The two halfwords at the call site branch to a function of another instruction set, and come
back behind them. -/
def CallsFromThumb (m : RawMemory.Memory) (site function : ℕ) : Prop :=
  ∀ lr, (branch (readHalf m site) ⟨BitVec.ofNat 32 site, lr, true⟩).bind
      (branch (readHalf m (site + 2))) =
    some ⟨BitVec.ofNat 32 function, BitVec.ofNat 32 (site + 4) ||| 1#32, false⟩

/-! ## The encoding -/

theorem readHalf_write (m : RawMemory.Memory) (a : ℕ) (h : BitVec 16) :
    readHalf (write m a (leBytes 2 h.toNat)) a = h := by
  unfold readHalf
  have hlt : h.toNat < 256 ^ 2 := h.isLt
  rw [read_leBytes, Nat.mod_eq_of_lt hlt, BitVec.ofNat_toNat, BitVec.setWidth_eq]

variable {d : BitVec 32}

theorem blxOp_suffix (d : BitVec 32) : ((blxOp d) >>> 16).setWidth 16 = blxSuffix d := by
  apply BitVec.eq_of_getLsbD_eq
  intro i hi
  unfold blxOp blxSuffix
  rw [BitVec.getLsbD_append, BitVec.getLsbD_append]
  interval_cases i <;> simp

theorem blxOp_prefix (hmin : -0x200000 ≤ d.toInt) (hmax : d.toInt < 0x200000) :
    (blxOp d).setWidth 16 = blxPrefix d := by
  have hsign : d.getLsbD 31 = d.getLsbD 21 := getLsbD_of_bounds hmin hmax (by decide) (by decide)
  apply BitVec.eq_of_getLsbD_eq
  intro i hi
  unfold blxOp blxPrefix
  rw [BitVec.getLsbD_append]
  interval_cases i <;> simp
  exact hsign

theorem double_opJumpDistance {x : BitVec 32} (hx : x.toNat % 2 = 0) :
    (x.sdiv 2 &&& ~~~1#32) <<< 1 = x &&& ~~~3#32 := by
  have hdiv : x.sdiv 2 = x.sshiftRight 1 := by
    apply BitVec.eq_of_toInt_eq
    rw [BitVec.toInt_sdiv_of_ne_or_ne _ _ (.inr (by decide)), BitVec.toInt_sshiftRight]
    show x.toInt.tdiv 2 = x.toInt >>> (1 : ℕ)
    have heven : x.toInt % 2 = 0 := by
      rw [BitVec.toInt_eq_toNat_cond]
      split_ifs <;> omega
    rw [Int.shiftRight_eq_div_pow, Int.tdiv_eq_ediv_of_dvd (Int.dvd_of_emod_eq_zero heven)]
    rfl
  rw [hdiv]
  apply BitVec.eq_of_getLsbD_eq
  intro i hi
  interval_cases i <;> simp [BitVec.getElem_sshiftRight]

/-- The processor takes the distance from four bytes behind the call, in words where it leads to
words: the two bytes that `opJumpDistance` is off by are lost where they have to be. -/
theorem blx_destination {function off : ℕ} (hfunction : function % 4 = 0) (hoff : off % 2 = 0) :
    (BitVec.ofNat 32 (off + 4) + 4#32 + (opJumpDistance function off &&& ~~~1#32) <<< 1) &&&
      ~~~3#32 = BitVec.ofNat 32 function := by
  have hdistance : (BitVec.ofNat 32 function - BitVec.ofNat 32 (off + 6)).toNat % 2 = 0 := by
    rw [BitVec.toNat_sub, BitVec.toNat_ofNat, BitVec.toNat_ofNat]
    omega
  unfold opJumpDistance
  rw [double_opJumpDistance hdistance]
  have hword : ∀ x : BitVec 32, (x &&& ~~~3#32).toNat = x.toNat / 4 * 4 :=
    fun x => BitFields.toNat_and_not_low x 2
  apply BitVec.eq_of_toNat_eq
  rw [hword, BitVec.toNat_add, BitVec.toNat_add, hword, BitVec.toNat_sub, BitVec.toNat_ofNat,
    BitVec.toNat_ofNat, BitVec.toNat_ofNat,
    BitVec.toNat_ofNat]
  obtain hsite | hsite : off % 4 = 0 ∨ off % 4 = 2 := by omega
  · omega
  · omega

/-! ## The patch -/

/-- What is accepted is written, as a call of the function by `BLX`, and nothing else is. -/
theorem ticketWrapper_calls {m : RawMemory.Memory} {pos function off : ℕ}
    {size firmVersion : UInt32}
    (hfunction : memsearch m pos rtMemclrPattern size = some function)
    (hoff : memsearch m pos ticketWrapperPattern size = some off) (hword : function % 4 = 0)
    (hhalfword : off % 2 = 0)
    (haccepted : (patchP9AMTicketWrapperZeroKeyIV m pos size firmVersion).1 = 0) :
    CallsFromThumb (patchP9AMTicketWrapperZeroKeyIV m pos size firmVersion).2 (off + 4)
      function ∧
    EqOutside (patchP9AMTicketWrapperZeroKeyIV m pos size firmVersion).2 m (off + 4) (off + 8) := by
  unfold patchP9AMTicketWrapperZeroKeyIV at haccepted ⊢
  rw [hfunction, hoff] at haccepted ⊢
  dsimp only at haccepted ⊢
  by_cases hlimit : (opJumpDistance function off).toInt < -0x1fffff ∨
      (opJumpDistance function off).toInt > 0x1fffff
  · rw [if_pos hlimit] at haccepted
    exact absurd haccepted (show ¬(1 : UInt32) = 0 by decide)
  rw [if_neg hlimit]
  have hmin : -0x200000 ≤ (opJumpDistance function off).toInt := by omega
  have hmax : (opJumpDistance function off).toInt < 0x200000 := by omega
  constructor
  · intro lr
    have hfirst : ∀ (m' : RawMemory.Memory) (h' : BitVec 16),
        readHalf (write m' (off + 6) (leBytes 2 h'.toNat)) (off + 4) = readHalf m' (off + 4) := by
      intro m' h'
      unfold readHalf
      rw [read_write_of_disjoint (by omega)]
    show (branch (readHalf (write _ (off + 6) _) (off + 4)) _).bind
      (branch (readHalf (write _ (off + 6) _) (off + 6))) = _
    rw [hfirst, readHalf_write, readHalf_write, blxOp_prefix hmin hmax, blxOp_suffix,
      branch_blx hmin hmax, blx_destination hword hhalfword]
    show some (Core.mk _ ((BitVec.ofNat 32 (off + 4) + BitVec.ofNat 32 4) ||| 1#32) _) = _
    rw [← BitVec.ofNat_add]
  · refine EqOutside.trans (eqOutside_write (by omega) ?_) (eqOutside_write le_rfl ?_)
    · rw [length_leBytes]
    · rw [length_leBytes]
      omega

/-- The function, and behind it, not at a word, the code whose call is replaced. -/
def wrappedTicket : RawMemory.Memory := fun i =>
  (rtMemclrPattern ++ [0, 0] ++ ticketWrapperPattern ++ [0, 0, 0, 0, 0, 0]).getD (i - 0x100) 0

theorem ticketWrapper_calls_wrapped :
    CallsFromThumb (patchP9AMTicketWrapperZeroKeyIV wrappedTicket 0x100 24 0).2 0x112 0x100 ∧
    EqOutside (patchP9AMTicketWrapperZeroKeyIV wrappedTicket 0x100 24 0).2 wrappedTicket 0x112
      0x116 :=
  ticketWrapper_calls (by decide +kernel) (by decide +kernel) (by decide) (by decide)
    (by decide +kernel)

end Presence3DS.Arm9
