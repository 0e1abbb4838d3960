import Mathlib.Data.BitVec
import Presence3DS.Lib.CounterMode

/-! The AES engine in counter mode (`crypto.c`). The engine is a keyed cipher on 16-byte blocks. -/

namespace Presence3DS.Arm9.Aes
open CounterMode

abbrev Word := BitVec 32

abbrev Block := BitVec 128

/-- The blocks that a pointer points to. -/
abbrev Buffer := ℕ → Block

/-- 16 bytes, as four words of the memory. -/
structure Iv where
  w0 : Word
  w1 : Word
  w2 : Word
  w3 : Word
deriving DecidableEq

/-- `AES_INPUT_BE` and `AES_INPUT_NORMAL`. -/
structure Mode where
  be : Bool
  normal : Bool

def bswap32 (x : Word) : Word :=
  x.extractLsb' 0 8 ++ x.extractLsb' 8 8 ++ x.extractLsb' 16 8 ++ x.extractLsb' 24 8

def Iv.bswap (iv : Iv) : Iv := ⟨bswap32 iv.w0, bswap32 iv.w1, bswap32 iv.w2, bswap32 iv.w3⟩

def Iv.reverse (iv : Iv) : Iv := ⟨iv.w3, iv.w2, iv.w1, iv.w0⟩

/-- The addition of a carry, with the carry out of it. -/
def addCarry (u : Word) (carry : Bool) : Word × Bool :=
  (if carry then u + 1 else u, carry && u == 0xFFFFFFFF)

/-- `ADD_u128_u32`, from the lowest word on. -/
def addU128U32 (u : Iv) (val : Word) : Iv :=
  let c0 := decide (2 ^ 32 ≤ u.w0.toNat + val.toNat)
  let c1 := addCarry u.w1 c0
  let c2 := addCarry u.w2 c1.2
  let c3 := addCarry u.w3 c2.2
  ⟨u.w0 + val, c1.1, c2.1, c3.1⟩

def aesAdvctr (ctr : Iv) (val : Word) (mode : Mode) : Iv :=
  let ctr := if mode.be then ctr.bswap else ctr
  let ctr := if mode.normal then (addU128U32 ctr.reverse val).reverse else addU128U32 ctr val
  if mode.be then ctr.bswap else ctr

/-- What the counter registers hold, of which the last one is the highest. -/
def aesSetiv (iv : Iv) (mode : Mode) : BitVec 128 :=
  let words := if mode.be then iv.bswap else iv
  let regs := if mode.normal then words.reverse else words
  BitVec.ofNat 128 (regs.w0.toNat + 2 ^ 32 * regs.w1.toNat + 2 ^ 64 * regs.w2.toNat +
    2 ^ 96 * regs.w3.toNat)

/-- The engine in counter mode, with the key stream of the key slot in use. -/
def aesBatch (keyStream : BitVec 128 → Block) (counter : BitVec 128) (blockCount : ℕ)
    (src : Buffer) : Buffer :=
  crypt keyStream counter blockCount src

/-- `aes` in counter mode: what it leaves in the buffer and in `iv`. -/
def aes (keyStream : BitVec 128 → Block) (src : Buffer) (blockCount : ℕ) (iv : Iv) (mode : Mode) :
    Buffer × Iv :=
  if blockCount = 0 then (src, iv)
  else
    let blocks := if 0xFFFF ≤ blockCount then 0xFFFF else blockCount
    let rest := aes keyStream (fun k => src (blocks + k)) (blockCount - blocks)
      (aesAdvctr iv (BitVec.ofNat 32 blocks) mode) mode
    (splice blocks (aesBatch keyStream (aesSetiv iv mode) blocks src) rest.1, rest.2)
termination_by blockCount
decreasing_by split <;> omega

/-! ## The counter -/

theorem getLsbD_bswap32 (x : Word) {i : ℕ} (hi : i < 32) :
    (bswap32 x).getLsbD i = x.getLsbD (8 * (3 - i / 8) + i % 8) := by
  simp only [bswap32, BitVec.getLsbD_append, BitVec.getLsbD_extractLsb']
  split_ifs with h0 h1 h2
  · rw [decide_eq_true h0, Bool.true_and]
    congr 1
    omega
  · rw [decide_eq_true h1, Bool.true_and]
    congr 1
    omega
  · rw [decide_eq_true h2, Bool.true_and]
    congr 1
    omega
  · rw [decide_eq_true (show i - 8 - 8 - 8 < 8 by omega), Bool.true_and]
    congr 1
    omega

theorem bswap32_bswap32 (x : Word) : bswap32 (bswap32 x) = x := by
  apply BitVec.eq_of_getLsbD_eq
  intro i hi
  rw [getLsbD_bswap32 _ hi, getLsbD_bswap32 _ (by omega)]
  congr 1
  omega

theorem Iv.bswap_bswap (iv : Iv) : iv.bswap.bswap = iv := by
  simp only [Iv.bswap, bswap32_bswap32]

theorem addCarry_toNat (u : Word) (carry : Bool) :
    (addCarry u carry).1.toNat + 2 ^ 32 * (addCarry u carry).2.toNat =
      u.toNat + carry.toNat := by
  have hu := u.isLt
  cases carry with
  | false =>
    show u.toNat + 2 ^ 32 * 0 = u.toNat + 0
    omega
  | true =>
    show (u + 1).toNat + 2 ^ 32 * (u == 0xFFFFFFFF).toNat = u.toNat + 1
    by_cases hmax : u = 0xFFFFFFFF
    · rw [hmax]
      rfl
    · have hne : u.toNat ≠ 0xFFFFFFFF := fun h => hmax (BitVec.eq_of_toNat_eq h)
      rw [beq_eq_false_iff_ne.mpr hmax, BitVec.toNat_add]
      show (u.toNat + 1) % 2 ^ 32 + 0 = _
      omega

/-- A word as a digit: the value of four of them, the lowest first. -/
def Iv.value (u : Iv) : ℕ :=
  u.w0.toNat + 2 ^ 32 * u.w1.toNat + 2 ^ 64 * u.w2.toNat + 2 ^ 96 * u.w3.toNat

theorem value_addU128U32 (u : Iv) (val : Word) :
    ∃ carry, (addU128U32 u val).value + 2 ^ 128 * carry = u.value + val.toNat := by
  have hval := val.isLt
  have hlow := u.w0.isLt
  have h0 : (u.w0 + val).toNat +
      2 ^ 32 * (decide (2 ^ 32 ≤ u.w0.toNat + val.toNat)).toNat = u.w0.toNat + val.toNat := by
    rw [BitVec.toNat_add]
    by_cases hcarry : 2 ^ 32 ≤ u.w0.toNat + val.toNat
    · rw [decide_eq_true hcarry]
      show _ + 2 ^ 32 * 1 = _
      omega
    · rw [decide_eq_false hcarry]
      show _ + 2 ^ 32 * 0 = _
      omega
  have h1 := addCarry_toNat u.w1 (decide (2 ^ 32 ≤ u.w0.toNat + val.toNat))
  have h2 := addCarry_toNat u.w2 (addCarry u.w1 (decide (2 ^ 32 ≤ u.w0.toNat + val.toNat))).2
  have h3 := addCarry_toNat u.w3
    (addCarry u.w2 (addCarry u.w1 (decide (2 ^ 32 ≤ u.w0.toNat + val.toNat))).2).2
  refine ⟨(addCarry u.w3
    (addCarry u.w2 (addCarry u.w1 (decide (2 ^ 32 ≤ u.w0.toNat + val.toNat))).2).2).2.toNat, ?_⟩
  simp only [Iv.value, addU128U32]
  omega

theorem ofNat_addU128U32 (u : Iv) (val : Word) :
    BitVec.ofNat 128 (addU128U32 u val).value =
      BitVec.ofNat 128 u.value + (val.toNat : BitVec 128) := by
  obtain ⟨carry, hcarry⟩ := value_addU128U32 u val
  rw [BitVec.natCast_eq_ofNat, ← BitVec.ofNat_add, ← hcarry]
  apply BitVec.eq_of_toNat_eq
  rw [BitVec.toNat_ofNat, BitVec.toNat_ofNat, Nat.add_mul_mod_self_left]

theorem aesSetiv_aesAdvctr (ctr : Iv) (val : Word) (mode : Mode) :
    aesSetiv (aesAdvctr ctr val mode) mode = aesSetiv ctr mode + (val.toNat : BitVec 128) := by
  obtain ⟨be, normal⟩ := mode
  cases be <;> cases normal
  · exact ofNat_addU128U32 ctr val
  · exact ofNat_addU128U32 ctr.reverse val
  · show BitVec.ofNat 128 (addU128U32 ctr.bswap val).bswap.bswap.value = _
    rw [Iv.bswap_bswap]
    exact ofNat_addU128U32 ctr.bswap val
  · show BitVec.ofNat 128 (addU128U32 ctr.bswap.reverse val).reverse.bswap.bswap.reverse.value = _
    rw [Iv.bswap_bswap]
    exact ofNat_addU128U32 ctr.bswap.reverse val

/-! ## The text -/

theorem aes_eq (keyStream : BitVec 128 → Block) (src : Buffer) (blockCount : ℕ) (iv : Iv)
    (mode : Mode) :
    (aes keyStream src blockCount iv mode).1 =
        crypt keyStream (aesSetiv iv mode) blockCount src ∧
      aesSetiv (aes keyStream src blockCount iv mode).2 mode =
        aesSetiv iv mode + (blockCount : BitVec 128) := by
  induction blockCount using Nat.strong_induction_on generalizing src iv with
  | _ blockCount ih =>
    rw [aes]
    by_cases hzero : blockCount = 0
    · rw [if_pos hzero, hzero, crypt_zero, Nat.cast_zero, add_zero]
      exact ⟨rfl, rfl⟩
    · rw [if_neg hzero]
      dsimp only
      obtain ⟨blocks, hblocks⟩ : ∃ blocks, blocks =
        if 0xFFFF ≤ blockCount then 0xFFFF else blockCount := ⟨_, rfl⟩
      have hbounds : 0 < blocks ∧ blocks ≤ blockCount ∧ blocks < 2 ^ 32 := by
        split at hblocks <;> omega
      obtain ⟨hpos, hle, hword⟩ := hbounds
      rw [← hblocks]
      obtain ⟨hrest, hiv⟩ := ih (blockCount - blocks) (by omega) (fun k => src (blocks + k))
        (aesAdvctr iv (BitVec.ofNat 32 blocks) mode)
      have hadv : aesSetiv (aesAdvctr iv (BitVec.ofNat 32 blocks) mode) mode =
          aesSetiv iv mode + (blocks : BitVec 128) := by
        rw [aesSetiv_aesAdvctr, BitVec.toNat_ofNat, Nat.mod_eq_of_lt hword]
      constructor
      · rw [hrest, hadv, aesBatch, ← crypt_add, Nat.add_sub_cancel' hle]
      · rw [hiv, hadv, add_assoc, ← Nat.cast_add, Nat.add_sub_cancel' hle]

end Presence3DS.Arm9.Aes

/-! The sectors of the CTRNAND partition (`crypto.c`), which are encrypted in counter mode on the
NAND of the console or in an EmuNAND on the SD card. -/

namespace Presence3DS.Arm9.CtrNand
open Aes CounterMode

abbrev Word := BitVec 32

inductive FirmwareSource where
  | sysnand
  | emunand
deriving DecidableEq

/-- A device by blocks of 16 bytes, of which a sector has 32. -/
abbrev Disk := ℕ → Block

def InSectors (sector count k : ℕ) : Prop := 32 * sector ≤ k ∧ k < 32 * (sector + count)

instance (sector count k : ℕ) : Decidable (InSectors sector count k) :=
  inferInstanceAs (Decidable (_ ∧ _))

/-- A device (`sdmmc.c`). What is said of a transfer is said of one that returns 0 and whose count
fits the block count register. -/
structure Sdmmc where
  readsectors : Disk → Word → Word → Int × Buffer
  writesectors : Disk → Word → Word → Buffer → Int × Disk
  read_ok : ∀ {disk sector count}, count.toNat < 2 ^ 16 → (readsectors disk sector count).1 = 0 →
    ∀ k < 32 * count.toNat, (readsectors disk sector count).2 k = disk (32 * sector.toNat + k)
  write_ok : ∀ {disk sector count text}, count.toNat < 2 ^ 16 →
    (writesectors disk sector count text).1 = 0 → ∀ k,
      (writesectors disk sector count text).2 k =
        if InSectors sector.toNat count.toNat k then text (k - 32 * sector.toNat) else disk k

structure Hardware where
  nand : Sdmmc
  sdcard : Sdmmc
  /-- The key stream of a key slot. -/
  cipher : UInt8 → BitVec 128 → Block

/-- The variables that say where the partition is and how it is encrypted. -/
structure Globals where
  ctrNandLocation : FirmwareSource
  fatStart : Word
  emuOffset : Word
  nandCtr : Iv
  nandSlot : UInt8

structure Disks where
  nand : Disk
  sd : Disk

/-- `AES_INPUT_BE | AES_INPUT_NORMAL` -/
def beNormal : Mode := ⟨true, true⟩

section Functions
variable (hw : Hardware) (g : Globals) (sector sectorCount : Word)

def sectorCtr : Iv := aesAdvctr g.nandCtr ((sector + g.fatStart) * 0x200 / 0x10) beNormal

def ctrNandRead (disks : Disks) : Int × Buffer :=
  let read := match g.ctrNandLocation with
    | .sysnand => hw.nand.readsectors disks.nand (sector + g.fatStart) sectorCount
    | .emunand => hw.sdcard.readsectors disks.sd (sector + g.emuOffset + g.fatStart) sectorCount
  (read.1, (aes (hw.cipher g.nandSlot) read.2 (sectorCount * 0x200 / 0x10).toNat
    (sectorCtr g sector) beNormal).1)

/-- The loop over chunks of 0x4000 bytes. -/
def writeChunks (inbuf : Buffer) (tempSector : ℕ) (tmpCtr : Iv) (nand : Disk) : Int × Disk :=
  if tempSector < sectorCount.toNat then
    let tempCount := if 0x20 < sectorCount.toNat - tempSector then 0x20
      else sectorCount.toNat - tempSector
    let buffer := aes (hw.cipher g.nandSlot) (fun k => inbuf (32 * tempSector + k))
      (32 * tempCount) tmpCtr beNormal
    let written := hw.nand.writesectors nand (BitVec.ofNat 32 tempSector + sector + g.fatStart)
      (BitVec.ofNat 32 tempCount) buffer.1
    if written.1 = 0 then writeChunks inbuf (tempSector + 0x20) buffer.2 written.2 else written
  else (0, nand)
termination_by sectorCount.toNat - tempSector

def ctrNandWrite (inbuf : Buffer) (disks : Disks) : Int × Disks :=
  let written := writeChunks hw g sector sectorCount inbuf 0 (sectorCtr g sector) disks.nand
  (written.1, { disks with nand := written.2 })

end Functions

/-! ## What a write keeps -/

/-- After a write that succeeds, every part of what was written is read back by a read that
succeeds, and on both devices nothing else has changed. -/
structure Kept (hw : Hardware) (g : Globals) (sector sectorCount : Word) (content : Buffer)
    (disks disks' : Disks) : Prop where
  read : ∀ i n : Word, i.toNat + n.toNat ≤ sectorCount.toNat →
    (ctrNandRead hw g (sector + i) n disks').1 = 0 → ∀ k < 32 * n.toNat,
      (ctrNandRead hw g (sector + i) n disks').2 k = content (32 * i.toNat + k)
  nand : ∀ k, ¬(g.ctrNandLocation = .sysnand ∧
    InSectors (sector + g.fatStart).toNat sectorCount.toNat k) → disks'.nand k = disks.nand k
  sd : ∀ k, ¬(g.ctrNandLocation = .emunand ∧
    InSectors (sector + g.emuOffset + g.fatStart).toNat sectorCount.toNat k) →
      disks'.sd k = disks.sd k

section Write
variable {hw : Hardware} {g : Globals} {sector sectorCount : Word}

theorem blockCount_eq (h : 0x200 * sectorCount.toNat < 2 ^ 32) :
    (sectorCount * 0x200 / 0x10).toNat = 32 * sectorCount.toNat := by
  rw [BitVec.toNat_udiv, BitVec.toNat_mul]
  show sectorCount.toNat * 512 % 2 ^ 32 / 16 = _
  omega

theorem ctrNandRead_sysnand {disks : Disks} {k : ℕ} (hsys : g.ctrNandLocation = .sysnand)
    (hmem : 0x200 * sectorCount.toNat < 2 ^ 32) (hk : k < 32 * sectorCount.toNat) :
    (ctrNandRead hw g sector sectorCount disks).2 k =
      (hw.nand.readsectors disks.nand (sector + g.fatStart) sectorCount).2 k ^^^
        hw.cipher g.nandSlot (aesSetiv (sectorCtr g sector) beNormal + (k : BitVec 128)) := by
  rw [ctrNandRead, hsys, blockCount_eq hmem]
  dsimp only
  rw [(aes_eq _ _ _ _ _).1, crypt_of_lt _ hk]

theorem ctrNandRead_emunand {disks : Disks} {k : ℕ} (hemu : g.ctrNandLocation = .emunand)
    (hmem : 0x200 * sectorCount.toNat < 2 ^ 32) (hk : k < 32 * sectorCount.toNat) :
    (ctrNandRead hw g sector sectorCount disks).2 k =
      (hw.sdcard.readsectors disks.sd (sector + g.emuOffset + g.fatStart) sectorCount).2 k ^^^
        hw.cipher g.nandSlot (aesSetiv (sectorCtr g sector) beNormal + (k : BitVec 128)) := by
  rw [ctrNandRead, hemu, blockCount_eq hmem]
  dsimp only
  rw [(aes_eq _ _ _ _ _).1, crypt_of_lt _ hk]

theorem aesSetiv_sectorCtr (g : Globals) (sector : Word) :
    aesSetiv (sectorCtr g sector) beNormal = aesSetiv g.nandCtr beNormal +
      ((32 * ((sector + g.fatStart).toNat % 2 ^ 23) : ℕ) : BitVec 128) := by
  rw [sectorCtr, aesSetiv_aesAdvctr]
  congr 2
  rw [BitVec.toNat_udiv, BitVec.toNat_mul]
  show (sector + g.fatStart).toNat * 512 % 2 ^ 32 / 16 = _
  omega

theorem toNat_sector {tempSector : ℕ}
    (hrange : g.fatStart.toNat + sector.toNat + sectorCount.toNat ≤ 2 ^ 32)
    (hlt : tempSector < sectorCount.toNat) :
    (BitVec.ofNat 32 tempSector + sector + g.fatStart).toNat =
      g.fatStart.toNat + sector.toNat + tempSector := by
  rw [BitVec.toNat_add, BitVec.toNat_add, BitVec.toNat_ofNat]
  omega

theorem written_chunk {inbuf : Buffer} {counter : BitVec 128} {tempSector tempCount : ℕ}
    {tmpCtr : Iv} {nand : Disk}
    (hrange : g.fatStart.toNat + sector.toNat + sectorCount.toNat ≤ 2 ^ 32)
    (hlt : tempSector < sectorCount.toNat) (hchunk : tempCount ≤ 0x20)
    (hend : tempSector + tempCount ≤ sectorCount.toNat)
    (hctr : aesSetiv tmpCtr beNormal = counter + ((32 * tempSector : ℕ) : BitVec 128))
    (hok : (hw.nand.writesectors nand (BitVec.ofNat 32 tempSector + sector + g.fatStart)
      (BitVec.ofNat 32 tempCount) (aes (hw.cipher g.nandSlot)
        (fun k => inbuf (32 * tempSector + k)) (32 * tempCount) tmpCtr beNormal).1).1 = 0) (k : ℕ) :
    (hw.nand.writesectors nand (BitVec.ofNat 32 tempSector + sector + g.fatStart)
      (BitVec.ofNat 32 tempCount) (aes (hw.cipher g.nandSlot)
        (fun k => inbuf (32 * tempSector + k)) (32 * tempCount) tmpCtr beNormal).1).2 k =
      if InSectors (g.fatStart.toNat + sector.toNat + tempSector) tempCount k then
        crypt (hw.cipher g.nandSlot) counter (32 * sectorCount.toNat) inbuf
          (k - 32 * (g.fatStart.toNat + sector.toNat))
      else nand k := by
  have hcount : (BitVec.ofNat 32 tempCount).toNat = tempCount := by
    rw [BitVec.toNat_ofNat]
    omega
  have hsector := toNat_sector hrange hlt
  rw [hw.nand.write_ok (by rw [hcount]; omega) hok, hcount, hsector]
  by_cases hk : InSectors (g.fatStart.toNat + sector.toNat + tempSector) tempCount k
  · obtain ⟨hlow, hhigh⟩ := hk
    rw [if_pos ⟨hlow, hhigh⟩, if_pos ⟨hlow, hhigh⟩, (aes_eq _ _ _ _ _).1, hctr]
    have hplace : k - 32 * (g.fatStart.toNat + sector.toNat) =
        32 * tempSector + (k - 32 * (g.fatStart.toNat + sector.toNat + tempSector)) := by omega
    rw [hplace]
    exact (crypt_part _ (by omega) (by omega)).symm
  · rw [if_neg hk, if_neg hk]

theorem writeChunks_eq {inbuf : Buffer} {counter : BitVec 128}
    (hrange : g.fatStart.toNat + sector.toNat + sectorCount.toNat ≤ 2 ^ 32) (tempSector : ℕ)
    {tmpCtr : Iv} {nand : Disk}
    (hctr : aesSetiv tmpCtr beNormal = counter + ((32 * tempSector : ℕ) : BitVec 128))
    (hok : (writeChunks hw g sector sectorCount inbuf tempSector tmpCtr nand).1 = 0) (k : ℕ) :
    (writeChunks hw g sector sectorCount inbuf tempSector tmpCtr nand).2 k =
      if InSectors (g.fatStart.toNat + sector.toNat + tempSector)
          (sectorCount.toNat - tempSector) k then
        crypt (hw.cipher g.nandSlot) counter (32 * sectorCount.toNat) inbuf
          (k - 32 * (g.fatStart.toNat + sector.toNat))
      else nand k := by
  induction hleft : sectorCount.toNat - tempSector using Nat.strong_induction_on
    generalizing tempSector tmpCtr nand with
  | _ left ih =>
    rw [writeChunks] at hok ⊢
    by_cases hlt : tempSector < sectorCount.toNat
    · rw [if_pos hlt] at hok ⊢
      dsimp only at hok ⊢
      obtain ⟨tempCount, hcount⟩ : ∃ tempCount, tempCount =
        if 0x20 < sectorCount.toNat - tempSector then 0x20
          else sectorCount.toNat - tempSector := ⟨_, rfl⟩
      have hbounds : tempCount ≤ 0x20 ∧ tempSector + tempCount ≤ sectorCount.toNat ∧
          (tempSector + tempCount < sectorCount.toNat → tempCount = 0x20) := by
        split at hcount <;> omega
      obtain ⟨hchunk, hend, hfull⟩ := hbounds
      rw [← hcount] at hok ⊢
      split at hok
      · next hres =>
        rw [if_pos hres]
        have hwritten := written_chunk hrange hlt hchunk hend hctr hres
        by_cases hlast : tempCount = 0x20
        · have hnext : aesSetiv (aes (hw.cipher g.nandSlot)
              (fun k => inbuf (32 * tempSector + k)) (32 * tempCount) tmpCtr beNormal).2 beNormal =
              counter + ((32 * (tempSector + 0x20) : ℕ) : BitVec 128) := by
            rw [(aes_eq _ _ _ _ _).2, hctr, add_assoc, ← Nat.cast_add, hlast, Nat.mul_add]
          rw [ih (sectorCount.toNat - (tempSector + 0x20)) (by omega) (tempSector + 0x20) hnext hok
            rfl, hwritten, ← ite_or]
          refine if_congr ?_ rfl rfl
          unfold InSectors
          omega
        · -- the last chunk, which is not a whole one
          have hleft' : tempCount = left := by omega
          rw [writeChunks, if_neg (by omega), hwritten, hleft']
      · next hres => exact absurd hok hres
    · have hnone : ¬InSectors (g.fatStart.toNat + sector.toNat + tempSector) left k := by
        rintro ⟨hlow, hhigh⟩
        omega
      rw [if_neg hlt, if_neg hnone]

theorem ctrNandWrite_eq {inbuf : Buffer} {disks : Disks}
    (hrange : g.fatStart.toNat + sector.toNat + sectorCount.toNat ≤ 2 ^ 32)
    (hok : (ctrNandWrite hw g sector sectorCount inbuf disks).1 = 0) (k : ℕ) :
    (ctrNandWrite hw g sector sectorCount inbuf disks).2.nand k =
      if InSectors (g.fatStart.toNat + sector.toNat) sectorCount.toNat k then
        crypt (hw.cipher g.nandSlot) (aesSetiv (sectorCtr g sector) beNormal)
          (32 * sectorCount.toNat) inbuf (k - 32 * (g.fatStart.toNat + sector.toNat))
      else disks.nand k :=
  writeChunks_eq hrange 0 (by rw [Nat.mul_zero, Nat.cast_zero, add_zero]) hok k

theorem aesSetiv_sectorCtr_add {i : Word}
    (hwrap : (g.fatStart.toNat + sector.toNat) % 2 ^ 23 + i.toNat < 2 ^ 23) :
    aesSetiv (sectorCtr g (sector + i)) beNormal =
      aesSetiv (sectorCtr g sector) beNormal + ((32 * i.toNat : ℕ) : BitVec 128) := by
  rw [aesSetiv_sectorCtr, aesSetiv_sectorCtr, add_assoc (aesSetiv g.nandCtr beNormal),
    ← Nat.cast_add]
  congr 2
  rw [BitVec.toNat_add, BitVec.toNat_add, BitVec.toNat_add]
  omega

theorem ctrNandRead_written {content : Buffer} {disks : Disks}
    (hsys : g.ctrNandLocation = .sysnand)
    (hrange : g.fatStart.toNat + sector.toNat + sectorCount.toNat ≤ 2 ^ 32)
    (hcount : sectorCount.toNat < 2 ^ 16)
    (hwrap : (g.fatStart.toNat + sector.toNat) % 2 ^ 23 + sectorCount.toNat ≤ 2 ^ 23)
    (hwritten : ∀ k, InSectors (g.fatStart.toNat + sector.toNat) sectorCount.toNat k →
      disks.nand k = crypt (hw.cipher g.nandSlot) (aesSetiv (sectorCtr g sector) beNormal)
        (32 * sectorCount.toNat) content (k - 32 * (g.fatStart.toNat + sector.toNat)))
    {i n : Word} (hpart : i.toNat + n.toNat ≤ sectorCount.toNat)
    (hok : (ctrNandRead hw g (sector + i) n disks).1 = 0) {k : ℕ} (hk : k < 32 * n.toNat) :
    (ctrNandRead hw g (sector + i) n disks).2 k = content (32 * i.toNat + k) := by
  have hsector : (sector + i + g.fatStart).toNat = g.fatStart.toNat + sector.toNat + i.toNat := by
    rw [BitVec.toNat_add, BitVec.toNat_add]
    omega
  rw [ctrNandRead_sysnand hsys (by omega) hk]
  rw [ctrNandRead, hsys] at hok
  have hread := hw.nand.read_ok (by omega) hok k hk
  rw [hsector, hwritten _ ⟨by omega, by omega⟩] at hread
  rw [hread]
  have hplace : 32 * (g.fatStart.toNat + sector.toNat + i.toNat) + k -
      32 * (g.fatStart.toNat + sector.toNat) = 32 * i.toNat + k := by omega
  rw [hplace, crypt_of_lt _ (by omega), aesSetiv_sectorCtr_add (by omega), add_assoc,
    ← Nat.cast_add, BitVec.xor_assoc, BitVec.xor_self, BitVec.xor_zero]

/-- On the NAND of the console a write is kept, up to what one read can transfer and to the end of
4 GiB. -/
theorem kept_sysnand {content : Buffer} {disks : Disks} (hsys : g.ctrNandLocation = .sysnand)
    (hrange : g.fatStart.toNat + sector.toNat + sectorCount.toNat ≤ 2 ^ 32)
    (hcount : sectorCount.toNat < 2 ^ 16)
    (hwrap : (g.fatStart.toNat + sector.toNat) % 2 ^ 23 + sectorCount.toNat ≤ 2 ^ 23)
    (hok : (ctrNandWrite hw g sector sectorCount content disks).1 = 0) :
    Kept hw g sector sectorCount content disks
      (ctrNandWrite hw g sector sectorCount content disks).2 := by
  have hwritten := ctrNandWrite_eq hrange hok
  refine ⟨fun i n hpart hread k hk => ?_, fun k hk => ?_, fun _ _ => rfl⟩
  · exact ctrNandRead_written hsys hrange hcount hwrap
      (fun k hin => (hwritten k).trans (if_pos hin)) hpart hread hk
  · rw [hwritten k]
    refine if_neg fun hin => hk ⟨hsys, ?_⟩
    obtain ⟨hlow, hhigh⟩ := hin
    have hstart : (sector + g.fatStart).toNat = g.fatStart.toNat + sector.toNat := by
      rw [BitVec.toNat_add]
      omega
    rw [hstart]
    exact ⟨hlow, hhigh⟩

theorem kept_none {content : Buffer} {disks : Disks} (hnone : sectorCount.toNat = 0) :
    Kept hw g sector sectorCount content disks
      (ctrNandWrite hw g sector sectorCount content disks).2 := by
  have hsame : (ctrNandWrite hw g sector sectorCount content disks).2 = disks := by
    rw [ctrNandWrite, writeChunks, if_neg (by omega)]
  rw [hsame]
  refine ⟨fun i n hpart _ k hk => ?_, fun _ _ => rfl, fun _ _ => rfl⟩
  omega

end Write

/-! ## What a write does not keep -/

/-- A device on which every transfer succeeds; one that does not fit the register reads zeros. -/
def plainDevice : Sdmmc where
  readsectors disk sector count :=
    (0, fun k => if count.toNat < 2 ^ 16 then disk (32 * sector.toNat + k) else 0)
  writesectors disk sector count text :=
    (0, fun k => if InSectors sector.toNat count.toNat k then text (k - 32 * sector.toNat)
      else disk k)
  read_ok hcount _ _ _ := if_pos hcount
  write_ok _ _ _ := rfl

theorem writeChunks_plainDevice {hw : Hardware} (hnand : hw.nand = plainDevice) (g : Globals)
    (sector sectorCount : Word) (inbuf : Buffer) (tempSector : ℕ) (tmpCtr : Iv) (nand : Disk) :
    (writeChunks hw g sector sectorCount inbuf tempSector tmpCtr nand).1 = 0 := by
  have hres : ∀ disk sector count text, (hw.nand.writesectors disk sector count text).1 = 0 := by
    intro disk sector count text
    rw [hnand]
    rfl
  induction hleft : sectorCount.toNat - tempSector using Nat.strong_induction_on
    generalizing tempSector tmpCtr nand with
  | _ left ih =>
    rw [writeChunks]
    split
    · dsimp only
      rw [if_pos (hres _ _ _ _)]
      exact ih _ (by omega) _ _ _ rfl
    · rfl

/-- What is kept of every content, whatever the devices, the key and the counter are. -/
def KeptAt (location : FirmwareSource) (fatStart emuOffset sector sectorCount : Word) : Prop :=
  ∀ (hw : Hardware) (nandCtr : Iv) (nandSlot : UInt8) (content : Buffer) (disks : Disks),
    (ctrNandWrite hw ⟨location, fatStart, emuOffset, nandCtr, nandSlot⟩ sector sectorCount content
      disks).1 = 0 →
    Kept hw ⟨location, fatStart, emuOffset, nandCtr, nandSlot⟩ sector sectorCount content disks
      (ctrNandWrite hw ⟨location, fatStart, emuOffset, nandCtr, nandSlot⟩ sector sectorCount
        content disks).2

section KeptAt
variable {location : FirmwareSource} {fatStart emuOffset sector sectorCount : Word}

def plainHardware (cipher : BitVec 128 → Block) : Hardware :=
  ⟨plainDevice, plainDevice, fun _ => cipher⟩

def zeroIv : Iv := ⟨0, 0, 0, 0⟩

def zeroDisks : Disks := ⟨fun _ => 0, fun _ => 0⟩

theorem KeptAt.kept (h : KeptAt location fatStart emuOffset sector sectorCount)
    (cipher : BitVec 128 → Block) (content : Buffer) :
    Kept (plainHardware cipher) ⟨location, fatStart, emuOffset, zeroIv, 0⟩ sector sectorCount content
      zeroDisks (ctrNandWrite (plainHardware cipher) ⟨location, fatStart, emuOffset, zeroIv, 0⟩
        sector sectorCount content zeroDisks).2 :=
  h _ _ _ _ _ (writeChunks_plainDevice rfl _ _ _ _ _ _ _)

theorem KeptAt.sysnand (h : KeptAt location fatStart emuOffset sector sectorCount)
    (hpos : sectorCount.toNat ≠ 0) : location = .sysnand := by
  cases location with
  | sysnand => rfl
  | emunand =>
    have hread := (h.kept (fun _ => 0) fun _ => 1).read 0 1
      (show 0 + 1 ≤ sectorCount.toNat by omega) rfl 0 (by decide)
    rw [ctrNandRead_emunand rfl (by decide) (by decide)] at hread
    -- what was on the SD card before
    have hzero : (0 : Block) ^^^ 0 = 1 := hread
    exact absurd hzero (by decide)

theorem KeptAt.count_lt (h : KeptAt .sysnand fatStart emuOffset sector sectorCount)
    (hmem : 0x200 * sectorCount.toNat < 2 ^ 32) : sectorCount.toNat < 2 ^ 16 := by
  by_contra hcount
  have hread := (h.kept (fun _ => 0) fun _ => 1).read 0 sectorCount
    (Nat.zero_add sectorCount.toNat).le rfl 0 (by omega)
  rw [ctrNandRead_sysnand rfl hmem (by omega)] at hread
  have hzero : (if sectorCount.toNat < 2 ^ 16 then _ else (0 : Block)) ^^^ 0 = 1 := hread
  rw [if_neg hcount] at hzero
  exact absurd hzero (by decide)

theorem KeptAt.within (h : KeptAt .sysnand fatStart emuOffset sector sectorCount)
    (hrange : fatStart.toNat + sector.toNat + sectorCount.toNat ≤ 2 ^ 32) :
    (fatStart.toNat + sector.toNat) % 2 ^ 23 + sectorCount.toNat ≤ 2 ^ 23 := by
  by_contra hwrap
  -- the sector that starts at 4 GiB is read with the counter of sector 0
  obtain ⟨i, hi⟩ : ∃ i : Word, i.toNat = 2 ^ 23 - (fatStart.toNat + sector.toNat) % 2 ^ 23 := by
    refine ⟨BitVec.ofNat 32 (2 ^ 23 - (fatStart.toNat + sector.toNat) % 2 ^ 23), ?_⟩
    rw [BitVec.toNat_ofNat]
    omega
  obtain ⟨g, hg⟩ : ∃ g : Globals, g = ⟨.sysnand, fatStart, emuOffset, zeroIv, 0⟩ := ⟨_, rfl⟩
  have hkept := h.kept id fun _ => 0
  have hok : (ctrNandWrite (plainHardware id) g sector sectorCount (fun _ => 0) zeroDisks).1 = 0 :=
    writeChunks_plainDevice rfl g sector sectorCount _ _ _ _
  rw [← hg] at hkept
  have hread := hkept.read i 1 (show i.toNat + 1 ≤ sectorCount.toNat by omega) (by rw [hg]; rfl) 0
    (by decide)
  have hfat : g.fatStart = fatStart := by rw [hg]
  have hctr : g.nandCtr = zeroIv := by rw [hg]
  have hzero : aesSetiv zeroIv beNormal = 0 := by decide
  have hsector : (sector + i + g.fatStart).toNat = fatStart.toNat + sector.toNat + i.toNat := by
    rw [hfat, BitVec.toNat_add, BitVec.toNat_add]
    omega
  have hstart : (sector + g.fatStart).toNat = fatStart.toNat + sector.toNat := by
    rw [hfat, BitVec.toNat_add]
    omega
  have hwritten := ctrNandWrite_eq (hfat ▸ hrange) hok
    (32 * (fatStart.toNat + sector.toNat + i.toNat))
  rw [if_pos (by rw [hfat]; exact ⟨by omega, by omega⟩), crypt_of_lt _ (by rw [hfat]; omega),
    aesSetiv_sectorCtr, hctr, hzero, hstart, hfat, zero_add, ← Nat.cast_add] at hwritten
  rw [ctrNandRead_sysnand (by rw [hg]) (by decide) (by decide), aesSetiv_sectorCtr, hctr, hzero,
    hsector] at hread
  have hraw : ∀ disk sector, (plainDevice.readsectors disk sector 1).2 0 =
      disk (32 * sector.toNat + 0) := fun disk sector =>
    plainDevice.read_ok (show (1 : Word).toNat < 2 ^ 16 by decide) rfl 0 (by decide)
  have hread := (congrArg (· ^^^ _) (hraw _ _)).symm.trans hread
  have hlow : 32 * ((fatStart.toNat + sector.toNat + i.toNat) % 2 ^ 23) = 0 := by omega
  have hhigh : 32 * ((fatStart.toNat + sector.toNat) % 2 ^ 23) +
      (32 * (fatStart.toNat + sector.toNat + i.toNat) -
        32 * (fatStart.toNat + sector.toNat)) = 2 ^ 28 := by omega
  rw [Nat.add_zero, hsector, hwritten, hlow, hhigh] at hread
  have hsame : ((0 : Block) ^^^ ((2 ^ 28 : ℕ) : BitVec 128)) ^^^
      (0 + ((0 : ℕ) : BitVec 128) + ((0 : ℕ) : BitVec 128)) = 0 := hread
  exact absurd hsame (by decide)

/-- A write is kept exactly when it is empty, or goes to the NAND of the console, can be read at
once and does not go past 4 GiB. -/
theorem keptAt_iff (hrange : fatStart.toNat + sector.toNat + sectorCount.toNat ≤ 2 ^ 32)
    (hmem : 0x200 * sectorCount.toNat < 2 ^ 32) :
    KeptAt location fatStart emuOffset sector sectorCount ↔
      sectorCount.toNat = 0 ∨ location = .sysnand ∧ sectorCount.toNat < 2 ^ 16 ∧
        (fatStart.toNat + sector.toNat) % 2 ^ 23 + sectorCount.toNat ≤ 2 ^ 23 := by
  constructor
  · intro h
    by_cases hzero : sectorCount.toNat = 0
    · exact .inl hzero
    · have hsys := h.sysnand hzero
      subst hsys
      exact .inr ⟨rfl, h.count_lt hmem, h.within hrange⟩
  · rintro (hnone | ⟨rfl, hcount, hwrap⟩)
    · exact fun _ _ _ _ _ _ => kept_none hnone
    · exact fun _ _ _ _ _ hok => kept_sysnand rfl hrange hcount hwrap hok

/-- 256 sectors from the start of the partition. -/
theorem keptAt_small : KeptAt .sysnand 0x5CAE5 0 0 0x100 ↔
    (0x100 : Word).toNat = 0 ∨ FirmwareSource.sysnand = .sysnand ∧ (0x100 : Word).toNat < 2 ^ 16 ∧
      ((0x5CAE5 : Word).toNat + (0 : Word).toNat) % 2 ^ 23 + (0x100 : Word).toNat ≤ 2 ^ 23 :=
  keptAt_iff (by decide) (by decide)

/-- What is meant for an EmuNAND is written to the NAND of the console. -/
theorem emunand_not_kept : ¬KeptAt .emunand 0x5CAE5 0x200000 0 1 := fun h =>
  FirmwareSource.noConfusion (h.sysnand (by decide))

end KeptAt

end Presence3DS.Arm9.CtrNand
