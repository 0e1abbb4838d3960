import Mathlib.Data.List.GetD
import Presence3DS.Lib.Cbc
import Presence3DS.Lib.CString

/-! AES-256 as FIPS 197 defines it, and that the inverse cipher inverts the cipher. -/

namespace Rijndael
open CString

/-! ## The field -/

/-- The product by `x` of a polynomial that is given by its bits, modulo
`x ^ 8 + x ^ 4 + x ^ 3 + x + 1`. -/
def timesX (p : ℕ) : ℕ := bif Nat.blt p 128 then 2 * p else 2 * p ^^^ 0x11B

/-- The product, by the first `count` coefficients of `a`. -/
def timesCoefficients (b : ℕ) : ℕ → ℕ → ℕ
  | 0, _ => 0
  | count + 1, a => timesX (timesCoefficients b count (a / 2)) ^^^ a % 2 * b

def times (a b : ℕ) : ℕ := timesCoefficients b 8 a

/-- The multiplicative inverse, as the power 254; it maps 0 to 0. -/
def inverse (a : ℕ) : ℕ :=
  let a2 := times a a
  let a4 := times a2 a2
  let a8 := times a4 a4
  let a16 := times a8 a8
  let a32 := times a16 a16
  let a64 := times a32 a32
  times a2 (times a4 (times a8 (times a16 (times a32 (times a64 (times a64 a64))))))

def mul (a b : UInt8) : UInt8 := UInt8.ofNat (times a.toNat b.toNat)

def inv (a : UInt8) : UInt8 := UInt8.ofNat (inverse a.toNat)

/-! ## The S-box -/

def rotl (b n : UInt8) : UInt8 := b <<< n ||| b >>> (8 - n)

def sbox (b : UInt8) : UInt8 :=
  let c := inv b
  c ^^^ rotl c 1 ^^^ rotl c 2 ^^^ rotl c 3 ^^^ rotl c 4 ^^^ 0x63

def invSbox (b : UInt8) : UInt8 := inv (rotl b 1 ^^^ rotl b 3 ^^^ rotl b 6 ^^^ 0x05)

/-- The inverses of the numbers below 256. -/
def inverses : List ℕ := [
  0x00, 0x01, 0x8D, 0xF6, 0xCB, 0x52, 0x7B, 0xD1, 0xE8, 0x4F, 0x29, 0xC0, 0xB0, 0xE1, 0xE5, 0xC7,
  0x74, 0xB4, 0xAA, 0x4B, 0x99, 0x2B, 0x60, 0x5F, 0x58, 0x3F, 0xFD, 0xCC, 0xFF, 0x40, 0xEE, 0xB2,
  0x3A, 0x6E, 0x5A, 0xF1, 0x55, 0x4D, 0xA8, 0xC9, 0xC1, 0x0A, 0x98, 0x15, 0x30, 0x44, 0xA2, 0xC2,
  0x2C, 0x45, 0x92, 0x6C, 0xF3, 0x39, 0x66, 0x42, 0xF2, 0x35, 0x20, 0x6F, 0x77, 0xBB, 0x59, 0x19,
  0x1D, 0xFE, 0x37, 0x67, 0x2D, 0x31, 0xF5, 0x69, 0xA7, 0x64, 0xAB, 0x13, 0x54, 0x25, 0xE9, 0x09,
  0xED, 0x5C, 0x05, 0xCA, 0x4C, 0x24, 0x87, 0xBF, 0x18, 0x3E, 0x22, 0xF0, 0x51, 0xEC, 0x61, 0x17,
  0x16, 0x5E, 0xAF, 0xD3, 0x49, 0xA6, 0x36, 0x43, 0xF4, 0x47, 0x91, 0xDF, 0x33, 0x93, 0x21, 0x3B,
  0x79, 0xB7, 0x97, 0x85, 0x10, 0xB5, 0xBA, 0x3C, 0xB6, 0x70, 0xD0, 0x06, 0xA1, 0xFA, 0x81, 0x82,
  0x83, 0x7E, 0x7F, 0x80, 0x96, 0x73, 0xBE, 0x56, 0x9B, 0x9E, 0x95, 0xD9, 0xF7, 0x02, 0xB9, 0xA4,
  0xDE, 0x6A, 0x32, 0x6D, 0xD8, 0x8A, 0x84, 0x72, 0x2A, 0x14, 0x9F, 0x88, 0xF9, 0xDC, 0x89, 0x9A,
  0xFB, 0x7C, 0x2E, 0xC3, 0x8F, 0xB8, 0x65, 0x48, 0x26, 0xC8, 0x12, 0x4A, 0xCE, 0xE7, 0xD2, 0x62,
  0x0C, 0xE0, 0x1F, 0xEF, 0x11, 0x75, 0x78, 0x71, 0xA5, 0x8E, 0x76, 0x3D, 0xBD, 0xBC, 0x86, 0x57,
  0x0B, 0x28, 0x2F, 0xA3, 0xDA, 0xD4, 0xE4, 0x0F, 0xA9, 0x27, 0x53, 0x04, 0x1B, 0xFC, 0xAC, 0xE6,
  0x7A, 0x07, 0xAE, 0x63, 0xC5, 0xDB, 0xE2, 0xEA, 0x94, 0x8B, 0xC4, 0xD5, 0x9D, 0xF8, 0x90, 0x6B,
  0xB1, 0x0D, 0xD6, 0xEB, 0xC6, 0x0E, 0xCF, 0xAD, 0x08, 0x4E, 0xD7, 0xE3, 0x5D, 0x50, 0x1E, 0xB3,
  0x5B, 0x23, 0x38, 0x34, 0x68, 0x46, 0x03, 0x8C, 0xDD, 0x9C, 0x7D, 0xA0, 0xCD, 0x1A, 0x41, 0x1C]

theorem map_inverse : (List.range 256).map inverse = inverses := by decide +kernel

theorem map_inverses : inverses.map (fun n => inverses.getD n 0) = List.range 256 := by
  decide +kernel

theorem inverse_eq {n : ℕ} (h : n < 256) : inverse n = inverses.getD n 0 := by
  rw [← map_inverse, List.getD_eq_getElem _ _ (by simpa using h), List.getElem_map,
    List.getElem_range]

theorem inverse_lt {n : ℕ} (h : n < 256) : inverse n < 256 := by
  have hall : ∀ m ∈ inverses, m < 256 := by decide +kernel
  apply hall
  rw [← map_inverse]
  exact List.mem_map_of_mem (List.mem_range.mpr h)

theorem inverse_inverse {n : ℕ} (h : n < 256) : inverse (inverse n) = n := by
  have hmap := map_inverses
  rw [← congrArg (List.map fun m => inverses.getD m 0) map_inverse, List.map_map] at hmap
  have hget := congrArg (fun l => l.getD n 0) hmap
  rw [inverse_eq (inverse_lt h)]
  simpa [List.getD_eq_getElem?_getD, h] using hget

theorem inv_inv (b : UInt8) : inv (inv b) = b := by
  have hlt : inverse b.toNat < 256 := inverse_lt b.toNat_lt
  rw [inv, inv, UInt8.toNat_ofNat', Nat.mod_eq_of_lt hlt, inverse_inverse b.toNat_lt,
    UInt8.ofNat_toNat]

/-- The step of the S-box that follows the inverse. -/
def affine (c : UInt8) : UInt8 :=
  c ^^^ rotl c 1 ^^^ rotl c 2 ^^^ rotl c 3 ^^^ rotl c 4 ^^^ 0x63

theorem sbox_eq (b : UInt8) : sbox b = affine (inv b) := rfl

theorem affine_inverted (c : UInt8) :
    rotl (affine c) 1 ^^^ rotl (affine c) 3 ^^^ rotl (affine c) 6 ^^^ 0x05 = c :=
  forall_byte (P := fun c =>
    rotl (affine c) 1 ^^^ rotl (affine c) 3 ^^^ rotl (affine c) 6 ^^^ 0x05 = c)
    (by decide +kernel) c

theorem invSbox_sbox (b : UInt8) : invSbox (sbox b) = b := by
  rw [invSbox, sbox_eq, affine_inverted, inv_inv]

/-! ## Columns -/

/-- A column of the state, or a word of the key schedule. -/
structure Column where
  r0 : UInt8
  r1 : UInt8
  r2 : UInt8
  r3 : UInt8
deriving DecidableEq

def Column.map (f : UInt8 → UInt8) (c : Column) : Column := ⟨f c.r0, f c.r1, f c.r2, f c.r3⟩

def Column.xor (c d : Column) : Column :=
  ⟨c.r0 ^^^ d.r0, c.r1 ^^^ d.r1, c.r2 ^^^ d.r2, c.r3 ^^^ d.r3⟩

/-- The first row of `MixColumns`; the others are the same on the rotated column. -/
def mixByte (a b c d : UInt8) : UInt8 := mul 2 a ^^^ mul 3 b ^^^ c ^^^ d

def invMixByte (a b c d : UInt8) : UInt8 :=
  mul 0x0E a ^^^ mul 0x0B b ^^^ mul 0x0D c ^^^ mul 0x09 d

def Column.mix (c : Column) : Column where
  r0 := mixByte c.r0 c.r1 c.r2 c.r3
  r1 := mixByte c.r1 c.r2 c.r3 c.r0
  r2 := mixByte c.r2 c.r3 c.r0 c.r1
  r3 := mixByte c.r3 c.r0 c.r1 c.r2

def Column.invMix (c : Column) : Column where
  r0 := invMixByte c.r0 c.r1 c.r2 c.r3
  r1 := invMixByte c.r1 c.r2 c.r3 c.r0
  r2 := invMixByte c.r2 c.r3 c.r0 c.r1
  r3 := invMixByte c.r3 c.r0 c.r1 c.r2

/-- The product by `x`, as a shift. -/
def xtime (b : UInt8) : UInt8 := b <<< 1 ^^^ if b.toBitVec.msb then 0x1B else 0

theorem xor_left_comm (a b c : UInt8) : a ^^^ (b ^^^ c) = b ^^^ (a ^^^ c) := by
  rw [← UInt8.xor_assoc, UInt8.xor_comm a b, UInt8.xor_assoc]

@[simp] theorem xor_xor_self (a b : UInt8) : a ^^^ (a ^^^ b) = b := by
  rw [← UInt8.xor_assoc, UInt8.xor_self, UInt8.zero_xor]

theorem xtime_xor (a b : UInt8) : xtime (a ^^^ b) = xtime a ^^^ xtime b := by
  unfold xtime
  rw [UInt8.toBitVec_xor, BitVec.msb_xor, UInt8.shiftLeft_xor]
  cases a.toBitVec.msb <;> cases b.toBitVec.msb <;>
    simp [UInt8.xor_assoc, UInt8.xor_comm, xor_left_comm]

/-! The coefficients as polynomials. -/

theorem toNat_xtime (b : UInt8) : (xtime b).toNat = timesX b.toNat :=
  forall_byte (P := fun b => (xtime b).toNat = timesX b.toNat) (by decide +kernel) b

theorem timesX_zero : timesX 0 = 0 := rfl

/-- The product with a polynomial of a degree below 4. -/
theorem times_of_lt {a : ℕ} (h : a < 16) (b : ℕ) : times a b =
    timesX (timesX (timesX (a / 8 * b) ^^^ a / 4 % 2 * b) ^^^ a / 2 % 2 * b) ^^^ a % 2 * b := by
  have hrest : a / 2 / 2 / 2 / 2 = 0 := by omega
  have hlast : a / 2 / 2 / 2 % 2 = a / 8 := by omega
  simp only [times, timesCoefficients, hrest, hlast]
  simp [Nat.div_div_eq_div_mul, timesX_zero]

theorem mul_02 (b : UInt8) : mul 0x02 b = xtime b := by
  rw [mul, times_of_lt (by decide)]
  simp [← toNat_xtime, timesX_zero]

theorem mul_03 (b : UInt8) : mul 0x03 b = xtime b ^^^ b := by
  rw [mul, times_of_lt (by decide)]
  simp [← toNat_xtime, timesX_zero]

theorem mul_09 (b : UInt8) : mul 0x09 b = xtime (xtime (xtime b)) ^^^ b := by
  rw [mul, times_of_lt (by decide)]
  simp [← toNat_xtime]

theorem mul_0B (b : UInt8) : mul 0x0B b = xtime (xtime (xtime b)) ^^^ xtime b ^^^ b := by
  rw [mul, times_of_lt (by decide)]
  simp [← toNat_xtime, ← UInt8.toNat_xor, xtime_xor]

theorem mul_0D (b : UInt8) : mul 0x0D b = xtime (xtime (xtime b)) ^^^ xtime (xtime b) ^^^ b := by
  rw [mul, times_of_lt (by decide)]
  simp [← toNat_xtime, ← UInt8.toNat_xor, xtime_xor]

theorem mul_0E (b : UInt8) :
    mul 0x0E b = xtime (xtime (xtime b)) ^^^ xtime (xtime b) ^^^ xtime b := by
  rw [mul, times_of_lt (by decide)]
  simp [← toNat_xtime, ← UInt8.toNat_xor, xtime_xor]

theorem mixByte_eq (a b c d : UInt8) : mixByte a b c d = xtime (a ^^^ b) ^^^ b ^^^ c ^^^ d := by
  rw [mixByte, mul_02, mul_03, xtime_xor, ← UInt8.xor_assoc (xtime a)]

theorem invMixByte_eq (a b c d : UInt8) : invMixByte a b c d =
    xtime (xtime (xtime (a ^^^ b ^^^ c ^^^ d)) ^^^ xtime (a ^^^ c) ^^^ a ^^^ b) ^^^
      b ^^^ c ^^^ d := by
  rw [invMixByte, mul_0E, mul_0B, mul_0D, mul_09]
  simp only [xtime_xor]
  simp only [UInt8.xor_assoc, UInt8.xor_comm, xor_left_comm]

theorem invMixByte_mixByte (a b c d : UInt8) :
    invMixByte (mixByte a b c d) (mixByte b c d a) (mixByte c d a b) (mixByte d a b c) = a := by
  have hall : mixByte a b c d ^^^ mixByte b c d a ^^^ mixByte c d a b ^^^ mixByte d a b c =
      a ^^^ b ^^^ c ^^^ d := by
    simp [mixByte_eq, xtime_xor, UInt8.xor_assoc, UInt8.xor_comm, xor_left_comm]
  have hac : mixByte a b c d ^^^ mixByte c d a b = xtime (a ^^^ b ^^^ c ^^^ d) ^^^ a ^^^ c := by
    simp [mixByte_eq, xtime_xor, UInt8.xor_assoc, UInt8.xor_comm, xor_left_comm]
  have hrest : mixByte b c d a ^^^ mixByte c d a b ^^^ mixByte d a b c = xtime (a ^^^ b) ^^^ a := by
    simp [mixByte_eq, xtime_xor, UInt8.xor_assoc, UInt8.xor_comm, xor_left_comm]
  have hab : xtime (a ^^^ c) ^^^ mixByte a b c d ^^^ mixByte b c d a =
      xtime (a ^^^ c) ^^^ xtime (a ^^^ c) ^^^ a ^^^ b := by
    simp [mixByte_eq, xtime_xor, UInt8.xor_assoc, UInt8.xor_comm, xor_left_comm]
  calc invMixByte (mixByte a b c d) (mixByte b c d a) (mixByte c d a b) (mixByte d a b c)
      = xtime (xtime (xtime (a ^^^ b ^^^ c ^^^ d)) ^^^
          xtime (xtime (a ^^^ b ^^^ c ^^^ d) ^^^ a ^^^ c) ^^^
          mixByte a b c d ^^^ mixByte b c d a) ^^^ (xtime (a ^^^ b) ^^^ a) := by
        rw [invMixByte_eq, hall, hac, ← hrest]
        simp only [UInt8.xor_assoc]
    _ = xtime (xtime (a ^^^ c) ^^^ mixByte a b c d ^^^ mixByte b c d a) ^^^
          (xtime (a ^^^ b) ^^^ a) := by
        rw [UInt8.xor_assoc _ a c, xtime_xor _ (a ^^^ c), ← UInt8.xor_assoc (xtime (xtime _)),
          UInt8.xor_self, UInt8.zero_xor]
    _ = a := by rw [hab, UInt8.xor_self, UInt8.zero_xor, ← UInt8.xor_assoc, UInt8.xor_self,
          UInt8.zero_xor]

theorem Column.invMix_mix (c : Column) : c.mix.invMix = c := by
  show Column.mk _ _ _ _ = _
  simp only [Column.mix, invMixByte_mixByte]

/-! ## The cipher -/

/-- The state, by columns. -/
structure State where
  c0 : Column
  c1 : Column
  c2 : Column
  c3 : Column
deriving DecidableEq

def State.map (f : Column → Column) (s : State) : State := ⟨f s.c0, f s.c1, f s.c2, f s.c3⟩

def State.xor (s t : State) : State :=
  ⟨s.c0.xor t.c0, s.c1.xor t.c1, s.c2.xor t.c2, s.c3.xor t.c3⟩

def subBytes : State → State := State.map (Column.map sbox)

def invSubBytes : State → State := State.map (Column.map invSbox)

def shiftRows (s : State) : State where
  c0 := ⟨s.c0.r0, s.c1.r1, s.c2.r2, s.c3.r3⟩
  c1 := ⟨s.c1.r0, s.c2.r1, s.c3.r2, s.c0.r3⟩
  c2 := ⟨s.c2.r0, s.c3.r1, s.c0.r2, s.c1.r3⟩
  c3 := ⟨s.c3.r0, s.c0.r1, s.c1.r2, s.c2.r3⟩

def invShiftRows (s : State) : State where
  c0 := ⟨s.c0.r0, s.c3.r1, s.c2.r2, s.c1.r3⟩
  c1 := ⟨s.c1.r0, s.c0.r1, s.c3.r2, s.c2.r3⟩
  c2 := ⟨s.c2.r0, s.c1.r1, s.c0.r2, s.c3.r3⟩
  c3 := ⟨s.c3.r0, s.c2.r1, s.c1.r2, s.c0.r3⟩

def mixColumns : State → State := State.map Column.mix

def invMixColumns : State → State := State.map Column.invMix

/-- `AddRoundKey` -/
abbrev addRoundKey (k s : State) : State := s.xor k

def round (s k : State) : State := addRoundKey k (mixColumns (shiftRows (subBytes s)))

def invRound (k s : State) : State :=
  invMixColumns (addRoundKey k (invSubBytes (invShiftRows s)))

/-! ### The key schedule of eight words -/

def rotWord (w : Column) : Column := ⟨w.r1, w.r2, w.r3, w.r0⟩

def subWord : Column → Column := Column.map sbox

/-- `Rcon`, the power `x ^ (i - 1)` of the field -/
def rcon (i : ℕ) : Column := ⟨xtime^[i - 1] 1, 0, 0, 0⟩

def keyExpansion (key : ℕ → Column) (i : ℕ) : Column :=
  if i < 8 then key i
  else
    let temp := keyExpansion key (i - 1)
    (keyExpansion key (i - 8)).xor
      (if i % 8 = 0 then (subWord (rotWord temp)).xor (rcon (i / 8))
      else if i % 8 = 4 then subWord temp
      else temp)

def roundKey (key : ℕ → Column) (round : ℕ) : State where
  c0 := keyExpansion key (4 * round)
  c1 := keyExpansion key (4 * round + 1)
  c2 := keyExpansion key (4 * round + 2)
  c3 := keyExpansion key (4 * round + 3)

def innerKeys (key : ℕ → Column) : List State := (List.range' 1 13).map (roundKey key)

def cipher (key : ℕ → Column) (s : State) : State :=
  let s := (innerKeys key).foldl round (addRoundKey (roundKey key 0) s)
  addRoundKey (roundKey key 14) (shiftRows (subBytes s))

def invCipher (key : ℕ → Column) (s : State) : State :=
  let s := (innerKeys key).foldr invRound (addRoundKey (roundKey key 14) s)
  addRoundKey (roundKey key 0) (invSubBytes (invShiftRows s))

theorem keyExpansion_of_lt (key : ℕ → Column) {i : ℕ} (h : i < 8) : keyExpansion key i = key i := by
  rw [keyExpansion, if_pos h]

theorem keyExpansion_of_le (key : ℕ → Column) {i : ℕ} (h : 8 ≤ i) :
    keyExpansion key i = (keyExpansion key (i - 8)).xor
      (if i % 8 = 0 then (subWord (rotWord (keyExpansion key (i - 1)))).xor (rcon (i / 8))
      else if i % 8 = 4 then subWord (keyExpansion key (i - 1))
      else keyExpansion key (i - 1)) := by
  rw [keyExpansion, if_neg (Nat.not_lt.mpr h)]

/-! ### The inverse -/

@[simp] theorem Column.xor_xor_self (c k : Column) : (c.xor k).xor k = c := by
  unfold Column.xor
  simp only [UInt8.xor_assoc, UInt8.xor_self, UInt8.xor_zero]

@[simp] theorem State.xor_xor_self (s k : State) : (s.xor k).xor k = s := by
  unfold State.xor
  simp only [Column.xor_xor_self]

theorem State.map_map {f g : Column → Column} (h : ∀ c, f (g c) = c) (s : State) :
    (s.map g).map f = s := by
  unfold State.map
  simp only [h]

theorem invMixColumns_mixColumns (s : State) : invMixColumns (mixColumns s) = s :=
  State.map_map Column.invMix_mix s

theorem invSubBytes_subBytes (s : State) : invSubBytes (subBytes s) = s := by
  apply State.map_map
  intro c
  unfold Column.map
  simp only [invSbox_sbox]

theorem invShiftRows_shiftRows (s : State) : invShiftRows (shiftRows s) = s := rfl

/-- A round is undone between the row shift that follows it and the one inside it. -/
theorem invRound_round (s k : State) :
    invRound k (shiftRows (subBytes (round s k))) = shiftRows (subBytes s) := by
  unfold invRound
  rw [invShiftRows_shiftRows, invSubBytes_subBytes, round, addRoundKey, State.xor_xor_self,
    invMixColumns_mixColumns]

theorem foldr_invRound (keys : List State) (s : State) :
    keys.foldr invRound (shiftRows (subBytes (keys.foldl round s))) = shiftRows (subBytes s) := by
  induction keys generalizing s with
  | nil => rfl
  | cons k keys ih => rw [List.foldl_cons, List.foldr_cons, ih, invRound_round]

theorem invCipher_cipher (key : ℕ → Column) (s : State) : invCipher key (cipher key s) = s := by
  unfold invCipher cipher
  simp only [addRoundKey, State.xor_xor_self, foldr_invRound, invShiftRows_shiftRows,
    invSubBytes_subBytes]

/-! ## Bytes -/

/-- The bytes of a block, one column after the other. -/
def State.bytes (s : State) : List UInt8 :=
  [s.c0, s.c1, s.c2, s.c3].flatMap fun c => [c.r0, c.r1, c.r2, c.r3]

def Column.ofBytes (b : ℕ → UInt8) (i : ℕ) : Column :=
  ⟨b (4 * i), b (4 * i + 1), b (4 * i + 2), b (4 * i + 3)⟩

def State.ofBytes (b : ℕ → UInt8) : State :=
  ⟨Column.ofBytes b 0, Column.ofBytes b 1, Column.ofBytes b 2, Column.ofBytes b 3⟩

theorem State.bytes_ofBytes (b : ℕ → UInt8) : (State.ofBytes b).bytes = (List.range 16).map b :=
  rfl

theorem State.ofBytes_congr {f g : ℕ → UInt8} (h : ∀ k < 16, f k = g k) :
    State.ofBytes f = State.ofBytes g := by
  unfold State.ofBytes Column.ofBytes
  simp (disch := decide) only [h]

/-- AES-256 under a key of 32 bytes. -/
def aes256 (key : ℕ → UInt8) : Cbc.BlockCipher UInt8 State where
  size := 16
  pos := by decide
  ofList l := State.ofBytes fun k => l.getD k 0
  toList := State.bytes
  length_toList b := rfl
  ofList_toList b := rfl
  toList_ofList {l} h := by
    show (State.ofBytes _).bytes = l
    rw [State.bytes_ofBytes]
    apply List.ext_getElem
    · rw [List.length_map, List.length_range, h]
    · intro k hk hl
      rw [List.getElem_map, List.getElem_range, List.getD_eq_getElem _ _ hl]
  xor := State.xor
  xor_xor_self := State.xor_xor_self
  encrypt := cipher (Column.ofBytes key)
  decrypt := invCipher (Column.ofBytes key)
  decrypt_encrypt := invCipher_cipher (Column.ofBytes key)

end Rijndael
