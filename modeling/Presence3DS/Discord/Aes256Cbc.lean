import Presence3DS.Lib.Rijndael

/-! The cipher of the signatures (`aes256_cbc.c`). -/

namespace Presence3DS.Discord.Aes256Cbc

/-- The substitution table, as the source has it. -/
def sbox : List UInt8 := [
  0x63, 0x7c, 0x77, 0x7b, 0xf2, 0x6b, 0x6f, 0xc5, 0x30, 0x01, 0x67, 0x2b, 0xfe, 0xd7, 0xab, 0x76,
  0xca, 0x82, 0xc9, 0x7d, 0xfa, 0x59, 0x47, 0xf0, 0xad, 0xd4, 0xa2, 0xaf, 0x9c, 0xa4, 0x72, 0xc0,
  0xb7, 0xfd, 0x93, 0x26, 0x36, 0x3f, 0xf7, 0xcc, 0x34, 0xa5, 0xe5, 0xf1, 0x71, 0xd8, 0x31, 0x15,
  0x04, 0xc7, 0x23, 0xc3, 0x18, 0x96, 0x05, 0x9a, 0x07, 0x12, 0x80, 0xe2, 0xeb, 0x27, 0xb2, 0x75,
  0x09, 0x83, 0x2c, 0x1a, 0x1b, 0x6e, 0x5a, 0xa0, 0x52, 0x3b, 0xd6, 0xb3, 0x29, 0xe3, 0x2f, 0x84,
  0x53, 0xd1, 0x00, 0xed, 0x20, 0xfc, 0xb1, 0x5b, 0x6a, 0xcb, 0xbe, 0x39, 0x4a, 0x4c, 0x58, 0xcf,
  0xd0, 0xef, 0xaa, 0xfb, 0x43, 0x4d, 0x33, 0x85, 0x45, 0xf9, 0x02, 0x7f, 0x50, 0x3c, 0x9f, 0xa8,
  0x51, 0xa3, 0x40, 0x8f, 0x92, 0x9d, 0x38, 0xf5, 0xbc, 0xb6, 0xda, 0x21, 0x10, 0xff, 0xf3, 0xd2,
  0xcd, 0x0c, 0x13, 0xec, 0x5f, 0x97, 0x44, 0x17, 0xc4, 0xa7, 0x7e, 0x3d, 0x64, 0x5d, 0x19, 0x73,
  0x60, 0x81, 0x4f, 0xdc, 0x22, 0x2a, 0x90, 0x88, 0x46, 0xee, 0xb8, 0x14, 0xde, 0x5e, 0x0b, 0xdb,
  0xe0, 0x32, 0x3a, 0x0a, 0x49, 0x06, 0x24, 0x5c, 0xc2, 0xd3, 0xac, 0x62, 0x91, 0x95, 0xe4, 0x79,
  0xe7, 0xc8, 0x37, 0x6d, 0x8d, 0xd5, 0x4e, 0xa9, 0x6c, 0x56, 0xf4, 0xea, 0x65, 0x7a, 0xae, 0x08,
  0xba, 0x78, 0x25, 0x2e, 0x1c, 0xa6, 0xb4, 0xc6, 0xe8, 0xdd, 0x74, 0x1f, 0x4b, 0xbd, 0x8b, 0x8a,
  0x70, 0x3e, 0xb5, 0x66, 0x48, 0x03, 0xf6, 0x0e, 0x61, 0x35, 0x57, 0xb9, 0x86, 0xc1, 0x1d, 0x9e,
  0xe1, 0xf8, 0x98, 0x11, 0x69, 0xd9, 0x8e, 0x94, 0x9b, 0x1e, 0x87, 0xe9, 0xce, 0x55, 0x28, 0xdf,
  0x8c, 0xa1, 0x89, 0x0d, 0xbf, 0xe6, 0x42, 0x68, 0x41, 0x99, 0x2d, 0x0f, 0xb0, 0x54, 0xbb, 0x16]

/-- `Rcon` -/
def rconTable : List UInt8 := [0x00, 0x01, 0x02, 0x04, 0x08, 0x10, 0x20, 0x40, 0x80, 0x1b, 0x36]

def xtime (a : UInt8) : UInt8 := a <<< 1 ^^^ ((a >>> 7) &&& 1) * 0x1b

/-- One turn of the loop of `gmult`, on `a`, `b` and `result`. -/
def gmultStep (s : UInt8 × UInt8 × UInt8) : UInt8 × UInt8 × UInt8 :=
  let (a, b, result) := s
  (xtime a, b >>> 1, if b &&& 1 ≠ 0 then result ^^^ a else result)

def gmult (a b : UInt8) : UInt8 := (gmultStep^[8] (a, b, 0)).2.2

/-! The array of a block, or of a state, is a list of 16 bytes. -/

def subBytes (state : List UInt8) : List UInt8 := state.map fun b => sbox.getD b.toNat 0

/-- The three rows, each rotated through `tmp`. -/
def shiftRows (state : List UInt8) : List UInt8 :=
  let get (s : List UInt8) (i : ℕ) : UInt8 := s.getD i 0
  let tmp := get state 1
  let state := state.set 1 (get state 5)
  let state := state.set 5 (get state 9)
  let state := state.set 9 (get state 13)
  let state := state.set 13 tmp
  let tmp := get state 2
  let state := state.set 2 (get state 10)
  let state := state.set 10 tmp
  let tmp := get state 6
  let state := state.set 6 (get state 14)
  let state := state.set 14 tmp
  let tmp := get state 15
  let state := state.set 15 (get state 11)
  let state := state.set 11 (get state 7)
  let state := state.set 7 (get state 3)
  state.set 3 tmp

def mixColumn (state : List UInt8) (i : ℕ) : List UInt8 :=
  let a0 := state.getD (i * 4) 0
  let a1 := state.getD (i * 4 + 1) 0
  let a2 := state.getD (i * 4 + 2) 0
  let a3 := state.getD (i * 4 + 3) 0
  let state := state.set (i * 4) (gmult a0 2 ^^^ gmult a1 3 ^^^ a2 ^^^ a3)
  let state := state.set (i * 4 + 1) (a0 ^^^ gmult a1 2 ^^^ gmult a2 3 ^^^ a3)
  let state := state.set (i * 4 + 2) (a0 ^^^ a1 ^^^ gmult a2 2 ^^^ gmult a3 3)
  state.set (i * 4 + 3) (gmult a0 3 ^^^ a1 ^^^ a2 ^^^ gmult a3 2)

def mixColumns (state : List UInt8) : List UInt8 := (List.range 4).foldl mixColumn state

/-- `(u8)(w >> shift)` -/
def wordByte (w : BitVec 32) (shift : ℕ) : UInt8 := UInt8.ofBitVec ((w >>> shift).setWidth 8)

/-- One turn of the loop of `add_round_key`, where `rk` points to a word of the array. -/
def addRoundWord (rk : List (BitVec 32)) (first : ℕ) (state : List UInt8) (i : ℕ) : List UInt8 :=
  let w := rk.getD (first + i) 0
  let state := state.modify (i * 4) (· ^^^ wordByte w 24)
  let state := state.modify (i * 4 + 1) (· ^^^ wordByte w 16)
  let state := state.modify (i * 4 + 2) (· ^^^ wordByte w 8)
  state.modify (i * 4 + 3) (· ^^^ wordByte w 0)

def addRoundKey (state : List UInt8) (rk : List (BitVec 32)) (first : ℕ) : List UInt8 :=
  (List.range 4).foldl (addRoundWord rk first) state

def packWord (b0 b1 b2 b3 : UInt8) : BitVec 32 :=
  b0.toBitVec.setWidth 32 <<< 24 ||| b1.toBitVec.setWidth 32 <<< 16 |||
    b2.toBitVec.setWidth 32 <<< 8 ||| b3.toBitVec.setWidth 32

def rotWord (temp : BitVec 32) : BitVec 32 := temp <<< 8 ||| temp >>> 24

def subWord (temp : BitVec 32) : BitVec 32 :=
  packWord (sbox.getD ((temp >>> 24) &&& 0xff).toNat 0)
    (sbox.getD ((temp >>> 16) &&& 0xff).toNat 0) (sbox.getD ((temp >>> 8) &&& 0xff).toNat 0)
    (sbox.getD (temp &&& 0xff).toNat 0)

/-- One turn of the second loop of `key_expansion`, which fills the array from 8 on. -/
def expandKey (rk : List (BitVec 32)) (i : ℕ) : List (BitVec 32) :=
  let temp := rk.getD (i - 1) 0
  let temp :=
    if i % 8 = 0 then
      subWord (rotWord temp) ^^^ (rconTable.getD (i / 8) 0).toBitVec.setWidth 32 <<< 24
    else if i % 8 = 4 then subWord temp
    else temp
  rk ++ [rk.getD (i - 8) 0 ^^^ temp]

def keyExpansion (key : ℕ → UInt8) : List (BitVec 32) :=
  (List.range' 8 52).foldl expandKey ((List.range 8).map fun i =>
    packWord (key (4 * i)) (key (4 * i + 1)) (key (4 * i + 2)) (key (4 * i + 3)))

def encryptRound (rk : List (BitVec 32)) (block : List UInt8) (i : ℕ) : List UInt8 :=
  addRoundKey (mixColumns (shiftRows (subBytes block))) rk (i * 4)

def aes256EncryptBlock (rk : List (BitVec 32)) (block : List UInt8) : List UInt8 :=
  let block := (List.range' 1 13).foldl (encryptRound rk) (addRoundKey block rk 0)
  addRoundKey (shiftRows (subBytes block)) rk (14 * 4)

/-- The chain, and the output so far. -/
structure CbcState where
  chain : List UInt8
  output : List UInt8

def cbcStep (rk : List (BitVec 32)) (input : List UInt8) (padval : UInt8) (s : CbcState) (i : ℕ) :
    CbcState :=
  let buffer := (List.range 16).map fun j =>
    if i * 16 + j < input.length then input.getD (i * 16 + j) 0 ^^^ s.chain.getD j 0
    else padval ^^^ s.chain.getD j 0
  let buffer := aes256EncryptBlock rk buffer
  { chain := buffer, output := s.output ++ buffer }

/-- The output and `*output_len`; `padded_len` is a `u32`. -/
def aes256CbcEncrypt (key iv : ℕ → UInt8) (input : List UInt8) : List UInt8 × ℕ :=
  let padval := UInt8.ofNat (16 - input.length % 16)
  let paddedLen := (input.length + padval.toNat) % 2 ^ 32
  let s := (List.range (paddedLen / 16)).foldl (cbcStep (keyExpansion key) input padval)
    ⟨(List.range 16).map iv, []⟩
  (s.output, paddedLen)

/-! ## The parts are those of the standard -/

open Rijndael (State Column)

theorem sbox_eq : sbox = Rijndael.inverses.map fun n => Rijndael.affine (UInt8.ofNat n) := by
  decide +kernel

@[simp] theorem getD_sbox (b : UInt8) : sbox.getD b.toNat 0 = Rijndael.sbox b := by
  rw [sbox_eq, ← Rijndael.map_inverse, List.map_map,
    List.getD_eq_getElem _ _ (by simpa using b.toNat_lt), List.getElem_map, List.getElem_range]
  rfl

theorem xtime_eq (a : UInt8) : xtime a = Rijndael.xtime a :=
  CString.forall_byte (P := fun a => xtime a = Rijndael.xtime a) (by decide +kernel) a

theorem gmult_two (a : UInt8) : gmult a 2 = Rijndael.mul 2 a := by
  rw [Rijndael.mul_02, ← xtime_eq]
  show 0 ^^^ xtime a = xtime a
  rw [UInt8.zero_xor]

theorem gmult_three (a : UInt8) : gmult a 3 = Rijndael.mul 3 a := by
  rw [Rijndael.mul_03, ← xtime_eq, UInt8.xor_comm]
  show 0 ^^^ a ^^^ xtime a = a ^^^ xtime a
  rw [UInt8.zero_xor]

theorem subBytes_bytes (s : State) : subBytes s.bytes = (Rijndael.subBytes s).bytes := by
  unfold subBytes
  simp only [getD_sbox]
  rfl

theorem shiftRows_bytes (s : State) : shiftRows s.bytes = (Rijndael.shiftRows s).bytes := rfl

theorem mix_eq (c : Column) : c.mix =
    ⟨gmult c.r0 2 ^^^ gmult c.r1 3 ^^^ c.r2 ^^^ c.r3,
      c.r0 ^^^ gmult c.r1 2 ^^^ gmult c.r2 3 ^^^ c.r3,
      c.r0 ^^^ c.r1 ^^^ gmult c.r2 2 ^^^ gmult c.r3 3,
      gmult c.r0 3 ^^^ c.r1 ^^^ c.r2 ^^^ gmult c.r3 2⟩ := by
  simp only [Column.mix, Rijndael.mixByte, gmult_two, gmult_three, UInt8.xor_assoc, UInt8.xor_comm,
    Rijndael.xor_left_comm]

theorem mixColumns_bytes (s : State) : mixColumns s.bytes = (Rijndael.mixColumns s).bytes := by
  unfold Rijndael.mixColumns State.map
  simp only [mix_eq]
  simp [mixColumns, mixColumn, List.range_succ, State.bytes]

/-! ### The key schedule -/

def wordColumn (w : BitVec 32) : Column :=
  ⟨wordByte w 24, wordByte w 16, wordByte w 8, wordByte w 0⟩

theorem getLsbD_wordByte (w : BitVec 32) (shift : ℕ) {i : ℕ} (hi : i < 8) :
    (wordByte w shift).toBitVec.getLsbD i = w.getLsbD (shift + i) := by
  show ((w >>> shift).setWidth 8).getLsbD i = _
  rw [BitVec.getLsbD_setWidth, BitVec.getLsbD_ushiftRight, decide_eq_true hi, Bool.true_and]

theorem byte_ext {a b : UInt8} (h : ∀ i < 8, a.toBitVec.getLsbD i = b.toBitVec.getLsbD i) :
    a = b :=
  UInt8.toBitVec_inj.mp (BitVec.eq_of_getLsbD_eq h)

theorem getLsbD_packWord (b0 b1 b2 b3 : UInt8) {i : ℕ} (hi : i < 8) :
    (packWord b0 b1 b2 b3).getLsbD (24 + i) = b0.toBitVec.getLsbD i ∧
    (packWord b0 b1 b2 b3).getLsbD (16 + i) = b1.toBitVec.getLsbD i ∧
    (packWord b0 b1 b2 b3).getLsbD (8 + i) = b2.toBitVec.getLsbD i ∧
    (packWord b0 b1 b2 b3).getLsbD (0 + i) = b3.toBitVec.getLsbD i := by
  have hout : ∀ (b : UInt8) {j : ℕ}, 8 ≤ j → b.toBitVec.getLsbD j = false :=
    fun b _ hj => BitVec.getLsbD_of_ge b.toBitVec _ hj
  simp only [packWord, BitVec.getLsbD_or, BitVec.getLsbD_shiftLeft, BitVec.getLsbD_setWidth]
  refine ⟨?_, ?_, ?_, ?_⟩
  · simp [hout _ (show 8 ≤ 24 + i by omega), hout _ (show 8 ≤ 24 + i - 16 by omega),
      hout _ (show 8 ≤ 24 + i - 8 by omega), show 24 + i < 32 by omega, show i < 32 by omega]
  · simp [hout _ (show 8 ≤ 16 + i by omega), hout _ (show 8 ≤ 16 + i - 8 by omega),
      show 16 + i < 32 by omega, show i < 32 by omega, show 16 + i < 24 by omega]
  · simp [show 8 + i < 32 by omega, show i < 32 by omega,
      show 8 + i < 24 by omega, show 8 + i < 16 by omega]
  · simp [hi, show i < 32 by omega, show i < 24 by omega, show i < 16 by omega]

theorem wordColumn_packWord (b0 b1 b2 b3 : UInt8) :
    wordColumn (packWord b0 b1 b2 b3) = ⟨b0, b1, b2, b3⟩ := by
  unfold wordColumn
  congr 1 <;> apply byte_ext <;> intro i hi <;> rw [getLsbD_wordByte _ _ hi]
  · exact (getLsbD_packWord b0 b1 b2 b3 hi).1
  · exact (getLsbD_packWord b0 b1 b2 b3 hi).2.1
  · exact (getLsbD_packWord b0 b1 b2 b3 hi).2.2.1
  · exact (getLsbD_packWord b0 b1 b2 b3 hi).2.2.2

theorem wordColumn_xor (v w : BitVec 32) :
    wordColumn (v ^^^ w) = (wordColumn v).xor (wordColumn w) := by
  have hbyte : ∀ shift, wordByte (v ^^^ w) shift = wordByte v shift ^^^ wordByte w shift := by
    intro shift
    apply byte_ext
    intro i hi
    rw [getLsbD_wordByte _ _ hi, UInt8.toBitVec_xor, BitVec.getLsbD_xor, BitVec.getLsbD_xor,
      getLsbD_wordByte _ _ hi, getLsbD_wordByte _ _ hi]
  simp only [wordColumn, Column.xor, hbyte]

theorem wordColumn_rotWord (w : BitVec 32) :
    wordColumn (rotWord w) = Rijndael.rotWord (wordColumn w) := by
  have hhigh : ∀ shift ≤ 16, wordByte (rotWord w) (shift + 8) = wordByte w shift := by
    intro shift hshift
    apply byte_ext
    intro i hi
    rw [getLsbD_wordByte _ _ hi, getLsbD_wordByte _ _ hi, rotWord, BitVec.getLsbD_or,
      BitVec.getLsbD_shiftLeft, BitVec.getLsbD_ushiftRight,
      BitVec.getLsbD_of_ge w (24 + (shift + 8 + i)) (by omega), Bool.or_false,
      decide_eq_true (show shift + 8 + i < 32 by omega),
      decide_eq_false (show ¬shift + 8 + i < 8 by omega),
      show shift + 8 + i - 8 = shift + i by omega]
    rfl
  have hlow : wordByte (rotWord w) 0 = wordByte w 24 := by
    apply byte_ext
    intro i hi
    rw [getLsbD_wordByte _ _ hi, getLsbD_wordByte _ _ hi, rotWord, BitVec.getLsbD_or,
      BitVec.getLsbD_shiftLeft, BitVec.getLsbD_ushiftRight, Nat.zero_add, decide_eq_true hi]
    simp
  show Column.mk _ _ _ _ = Column.mk _ _ _ _
  rw [hhigh 16 le_rfl, hhigh 8 (by decide), hhigh 0 (by decide), hlow]
  rfl

theorem wordColumn_subWord (w : BitVec 32) :
    wordColumn (subWord w) = Rijndael.subWord (wordColumn w) := by
  have hindex : ∀ shift, ((w >>> shift) &&& 0xff).toNat = (wordByte w shift).toNat := by
    intro shift
    show _ = ((w >>> shift).setWidth 8).toNat
    rw [BitVec.toNat_and, BitVec.toNat_setWidth]
    exact Nat.and_two_pow_sub_one_eq_mod _ 8
  have hlast := hindex 0
  rw [BitVec.ushiftRight_zero] at hlast
  unfold subWord
  rw [wordColumn_packWord, hindex, hindex, hindex, hlast]
  simp only [getD_sbox]
  rfl

theorem wordColumn_rcon : ∀ j < 8, 0 < j →
    wordColumn ((rconTable.getD j 0).toBitVec.setWidth 32 <<< 24) = Rijndael.rcon j := by
  decide

theorem wordColumn_getD {rk : List (BitVec 32)} {f : ℕ → Column} {n j : ℕ}
    (h : rk.map wordColumn = (List.range n).map f) (hj : j < n) :
    wordColumn (rk.getD j 0) = f j := by
  have hmap : (rk.map wordColumn)[j]? = some (f j) := by
    rw [h, List.getElem?_map, List.getElem?_range hj, Option.map_some]
  rw [List.getElem?_map] at hmap
  obtain ⟨w, hw, hcolumn⟩ := Option.map_eq_some_iff.mp hmap
  rw [List.getD_eq_getElem?_getD, hw, Option.getD_some, hcolumn]

theorem foldl_expandKey (key : ℕ → UInt8) {count : ℕ} (hcount : count ≤ 52) :
    ((List.range' 8 count).foldl expandKey ((List.range 8).map fun i =>
      packWord (key (4 * i)) (key (4 * i + 1)) (key (4 * i + 2)) (key (4 * i + 3)))).map
        wordColumn =
      (List.range (8 + count)).map (Rijndael.keyExpansion (Column.ofBytes key)) := by
  induction count with
  | zero =>
    show List.map _ (List.map _ _) = _
    rw [List.map_map]
    apply List.map_congr_left
    intro i hi
    rw [Rijndael.keyExpansion_of_lt _ (List.mem_range.mp hi)]
    exact wordColumn_packWord _ _ _ _
  | succ count ih =>
    specialize ih (by omega)
    rw [List.range'_1_concat, List.foldl_append]
    generalize (List.range' 8 count).foldl expandKey _ = rk at ih ⊢
    have hnext : wordColumn (rk.getD (8 + count - 8) 0 ^^^
        (if (8 + count) % 8 = 0 then subWord (rotWord (rk.getD (8 + count - 1) 0)) ^^^
          (rconTable.getD ((8 + count) / 8) 0).toBitVec.setWidth 32 <<< 24
        else if (8 + count) % 8 = 4 then subWord (rk.getD (8 + count - 1) 0)
        else rk.getD (8 + count - 1) 0)) =
        Rijndael.keyExpansion (Column.ofBytes key) (8 + count) := by
      rw [Rijndael.keyExpansion_of_le _ (Nat.le_add_right 8 count), wordColumn_xor,
        wordColumn_getD ih (by omega), ← wordColumn_getD ih (show 8 + count - 1 < _ by omega)]
      congr 1
      split_ifs
      · rw [wordColumn_xor, wordColumn_subWord, wordColumn_rotWord,
          wordColumn_rcon _ (by omega) (by omega)]
      · exact wordColumn_subWord _
      · rfl
    rw [List.foldl_cons, List.foldl_nil, expandKey, List.map_append, List.map_singleton, ih, hnext,
      ← Nat.add_assoc, List.range_succ, List.map_append, List.map_singleton]

theorem wordColumn_keyExpansion (key : ℕ → UInt8) {i : ℕ} (hi : i < 60) :
    wordColumn ((keyExpansion key).getD i 0) = Rijndael.keyExpansion (Column.ofBytes key) i :=
  wordColumn_getD (foldl_expandKey key le_rfl) hi

theorem addRoundKey_words (rk : List (BitVec 32)) (first : ℕ) (s : State) :
    addRoundKey s.bytes rk first = (s.xor
      ⟨wordColumn (rk.getD first 0), wordColumn (rk.getD (first + 1) 0),
        wordColumn (rk.getD (first + 2) 0), wordColumn (rk.getD (first + 3) 0)⟩).bytes := by
  rfl

theorem addRoundKey_bytes (key : ℕ → UInt8) {round : ℕ} (h : round ≤ 14) (s : State) :
    addRoundKey s.bytes (keyExpansion key) (round * 4) =
      (Rijndael.addRoundKey (Rijndael.roundKey (Column.ofBytes key) round) s).bytes := by
  rw [addRoundKey_words, wordColumn_keyExpansion key (by omega),
    wordColumn_keyExpansion key (by omega), wordColumn_keyExpansion key (by omega),
    wordColumn_keyExpansion key (by omega), Nat.mul_comm]
  rfl

theorem encryptRound_bytes (key : ℕ → UInt8) {i : ℕ} (h : i ≤ 14) (s : State) :
    encryptRound (keyExpansion key) s.bytes i =
      (Rijndael.round s (Rijndael.roundKey (Column.ofBytes key) i)).bytes := by
  rw [encryptRound, subBytes_bytes, shiftRows_bytes, mixColumns_bytes, addRoundKey_bytes key h]
  rfl

theorem foldl_encryptRound (key : ℕ → UInt8) (rounds : List ℕ) (h : ∀ i ∈ rounds, i ≤ 14)
    (s : State) : rounds.foldl (encryptRound (keyExpansion key)) s.bytes =
      ((rounds.map (Rijndael.roundKey (Column.ofBytes key))).foldl Rijndael.round s).bytes := by
  induction rounds generalizing s with
  | nil => rfl
  | cons i rounds ih =>
    rw [List.foldl_cons, encryptRound_bytes key (h i List.mem_cons_self),
      ih fun j hj => h j (List.mem_cons_of_mem i hj)]
    rfl

theorem aes256EncryptBlock_bytes (key : ℕ → UInt8) (s : State) :
    aes256EncryptBlock (keyExpansion key) s.bytes =
      (Rijndael.cipher (Column.ofBytes key) s).bytes := by
  have hrounds : ∀ i ∈ List.range' 1 13, i ≤ 14 := by decide
  have hfirst : addRoundKey s.bytes (keyExpansion key) 0 = _ :=
    addRoundKey_bytes key (Nat.zero_le 14) s
  simp only [aes256EncryptBlock]
  rw [hfirst, foldl_encryptRound key _ hrounds, subBytes_bytes, shiftRows_bytes,
    addRoundKey_bytes key le_rfl]
  rfl

/-! ## The chain -/

open Rijndael (aes256)

theorem getD_pad {input : List UInt8} {n : ℕ} (h : n < (Cbc.pad 16 input).length) :
    (Cbc.pad 16 input).getD n 0 =
      if n < input.length then input.getD n 0 else UInt8.ofNat (16 - input.length % 16) := by
  rw [Cbc.length_pad] at h
  split_ifs with hn
  · exact List.getD_append _ _ _ _ hn
  · rw [Cbc.pad, List.getD_append_right _ _ _ _ (Nat.le_of_not_lt hn),
      List.getD_replicate _ (by omega)]
    rfl

theorem cbcStep_bytes (key : ℕ → UInt8) (input output : List UInt8) {count : ℕ}
    (h : 16 * (count + 1) ≤ (Cbc.pad 16 input).length) (s : State) :
    cbcStep (keyExpansion key) input (UInt8.ofNat (16 - input.length % 16)) ⟨s.bytes, output⟩
        count =
      let c := Rijndael.cipher (Column.ofBytes key) (State.xor
        (State.ofBytes fun j => (Cbc.pad 16 input).getD (16 * count + j) 0) s)
      ⟨c.bytes, output ++ c.bytes⟩ := by
  have hbuffer : ((List.range 16).map fun j =>
      if count * 16 + j < input.length then input.getD (count * 16 + j) 0 ^^^ s.bytes.getD j 0
      else UInt8.ofNat (16 - input.length % 16) ^^^ s.bytes.getD j 0) =
      (State.xor (State.ofBytes fun j => (Cbc.pad 16 input).getD (16 * count + j) 0) s).bytes := by
    show _ = (List.range 16).map fun j =>
      (Cbc.pad 16 input).getD (16 * count + j) 0 ^^^ s.bytes.getD j 0
    apply List.map_congr_left
    intro j hj
    rw [List.mem_range] at hj
    rw [getD_pad (by omega), Nat.mul_comm]
    split_ifs <;> rfl
  unfold cbcStep
  simp only [hbuffer, aes256EncryptBlock_bytes]

theorem blocks_succ (key : ℕ → UInt8) (text : List UInt8) (count : ℕ) :
    (aes256 key).blocks (count + 1) text = (aes256 key).blocks count text ++
      [State.ofBytes fun j => text.getD (16 * count + j) 0] := by
  have hbytes : ∀ j < 16, ((text.drop (16 * count)).take 16).getD j 0 =
      text.getD (16 * count + j) 0 := by
    intro j hj
    rw [List.getD_eq_getElem?_getD, List.getElem?_take_of_lt hj, List.getElem?_drop,
      List.getD_eq_getElem?_getD]
  rw [Cbc.BlockCipher.blocks_eq_map, Cbc.BlockCipher.blocks_eq_map, List.range_succ,
    List.map_append, List.map_singleton]
  congr 2
  exact State.ofBytes_congr hbytes

theorem foldl_cbcStep (key iv : ℕ → UInt8) (input : List UInt8) {count : ℕ}
    (h : 16 * count ≤ (Cbc.pad 16 input).length) :
    let cs := (aes256 key).encryptBlocks (State.ofBytes iv)
      ((aes256 key).blocks count (Cbc.pad 16 input))
    (List.range count).foldl
      (cbcStep (keyExpansion key) input (UInt8.ofNat (16 - input.length % 16)))
        ⟨(List.range 16).map iv, []⟩ =
      ⟨(cs.getLastD (State.ofBytes iv)).bytes, (aes256 key).text cs⟩ := by
  induction count with
  | zero => rfl
  | succ count ih =>
    simp only at ih ⊢
    rw [@List.range_succ count, List.foldl_append, ih (by omega), List.foldl_cons, List.foldl_nil,
      cbcStep_bytes key input _ h, blocks_succ, Cbc.BlockCipher.encryptBlocks_concat,
      Cbc.BlockCipher.text_append, List.getLastD_concat]
    rfl

theorem aes256CbcEncrypt_eq (key iv : ℕ → UInt8) {input : List UInt8}
    (h : input.length + 16 < 2 ^ 32) : aes256CbcEncrypt key iv input =
      ((aes256 key).encryptMessage (State.ofBytes iv) input, (Cbc.pad 16 input).length) := by
  have hpad : (UInt8.ofNat (16 - input.length % 16)).toNat = Cbc.padding 16 input.length :=
    UInt8.toNat_ofNat_of_lt' (show 16 - input.length % 16 < 256 by omega)
  have hlength : (input.length + (UInt8.ofNat (16 - input.length % 16)).toNat) % 2 ^ 32 =
      (Cbc.pad 16 input).length := by
    rw [hpad, Cbc.length_pad]
    apply Nat.mod_eq_of_lt
    unfold Cbc.padding
    omega
  have hloop := foldl_cbcStep key iv input (Nat.mul_div_le (Cbc.pad 16 input).length 16)
  unfold aes256CbcEncrypt
  simp only [hlength, hloop]
  rfl

/-- The output is that of the standard, which decrypts to the message, and its length is the least
multiple of the block size above that of the message. -/
theorem aes256CbcEncrypt_decrypts (key iv : ℕ → UInt8) (message : List UInt8)
    (hroom : message.length + 16 < 2 ^ 32) :
    (aes256CbcEncrypt key iv message).1 =
      (aes256 key).encryptMessage (State.ofBytes iv) message ∧
    (aes256 key).decryptMessage (State.ofBytes iv) (aes256CbcEncrypt key iv message).1 =
      some message ∧
    (aes256CbcEncrypt key iv message).1.length = (aes256CbcEncrypt key iv message).2 ∧
    IsLeast {n | 16 ∣ n ∧ message.length < n} (aes256CbcEncrypt key iv message).2 := by
  rw [aes256CbcEncrypt_eq key iv hroom]
  refine ⟨rfl, ?_, ?_, ?_⟩
  · exact (aes256 key).decryptMessage_encryptMessage (show 16 < 256 by decide) _ message
  · exact (aes256 key).length_encryptMessage _ message
  · exact Cbc.isLeast_length_pad (show 0 < 16 by decide)

theorem aes256CbcEncrypt_decrypts_empty :
    (aes256CbcEncrypt (fun i => UInt8.ofNat i) (fun _ => 0) []).1 =
      (aes256 fun i => UInt8.ofNat i).encryptMessage (State.ofBytes fun _ => 0) [] ∧
    (aes256 fun i => UInt8.ofNat i).decryptMessage (State.ofBytes fun _ => 0)
      (aes256CbcEncrypt (fun i => UInt8.ofNat i) (fun _ => 0) []).1 = some [] ∧
    (aes256CbcEncrypt (fun i => UInt8.ofNat i) (fun _ => 0) []).1.length =
      (aes256CbcEncrypt (fun i => UInt8.ofNat i) (fun _ => 0) []).2 ∧
    IsLeast {n | 16 ∣ n ∧ ([] : List UInt8).length < n}
      (aes256CbcEncrypt (fun i => UInt8.ofNat i) (fun _ => 0) []).2 :=
  aes256CbcEncrypt_decrypts _ _ [] (by decide)

end Presence3DS.Discord.Aes256Cbc
