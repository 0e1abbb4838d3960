import Mathlib.Data.BitVec
import Presence3DS.Lib.BlockStream

/-! SHA-256 as FIPS 180-4 defines it, of messages of bytes. -/

namespace Sha2
open BlockStream

abbrev Word := BitVec 32

/-! ## Functions and constants -/

def ch (x y z : Word) : Word := (x &&& y) ^^^ (~~~x &&& z)

def maj (x y z : Word) : Word := (x &&& y) ^^^ (x &&& z) ^^^ (y &&& z)

def bigSigma0 (x : Word) : Word := x.rotateRight 2 ^^^ x.rotateRight 13 ^^^ x.rotateRight 22

def bigSigma1 (x : Word) : Word := x.rotateRight 6 ^^^ x.rotateRight 11 ^^^ x.rotateRight 25

def smallSigma0 (x : Word) : Word := x.rotateRight 7 ^^^ x.rotateRight 18 ^^^ x >>> 3

def smallSigma1 (x : Word) : Word := x.rotateRight 17 ^^^ x.rotateRight 19 ^^^ x >>> 10

def isPrime (n : ℕ) : Bool := 2 ≤ n && (List.range n).all fun d => d < 2 || n % d ≠ 0

/-- The first 64 primes. -/
def primes : List ℕ := (List.range 312).filter isPrime

/-- The greatest number below `2 ^ 40` whose power is not above `n`. -/
def root (power n : ℕ) : ℕ :=
  (List.range 40).reverse.foldl (fun r i => if (r + 2 ^ i) ^ power ≤ n then r + 2 ^ i else r) 0

/-- The first 32 bits of the fractional part of the root of a number. -/
def fraction (power n : ℕ) : Word := BitVec.ofNat 32 (root power (n * 2 ^ (32 * power)))

/-- The fractional parts of the cube roots of the first 64 primes. -/
def constant (t : ℕ) : Word := fraction 3 (primes.getD t 0)

/-- Eight words: the working variables, or a hash value. -/
structure Work where
  a : Word
  b : Word
  c : Word
  d : Word
  e : Word
  f : Word
  g : Word
  h : Word
deriving DecidableEq

/-- The fractional parts of the square roots of the first eight primes. -/
def initial : Work :=
  let word := fun i => fraction 2 (primes.getD i 0)
  ⟨word 0, word 1, word 2, word 3, word 4, word 5, word 6, word 7⟩

/-! ## The hash -/

/-- A word of a block, big endian. -/
def blockWord (block : ℕ → UInt8) (t : ℕ) : Word :=
  (block (4 * t)).toBitVec ++ (block (4 * t + 1)).toBitVec ++
    (block (4 * t + 2)).toBitVec ++ (block (4 * t + 3)).toBitVec

def schedule (block : ℕ → UInt8) (t : ℕ) : Word :=
  if t < 16 then blockWord block t
  else smallSigma1 (schedule block (t - 2)) + schedule block (t - 7) +
    smallSigma0 (schedule block (t - 15)) + schedule block (t - 16)

def round (w : Work) (k m : Word) : Work :=
  let t₁ := w.h + bigSigma1 w.e + ch w.e w.f w.g + k + m
  let t₂ := bigSigma0 w.a + maj w.a w.b w.c
  ⟨t₁ + t₂, w.a, w.b, w.c, w.d + t₁, w.e, w.f, w.g⟩

def add (v w : Work) : Work :=
  ⟨v.a + w.a, v.b + w.b, v.c + w.c, v.d + w.d, v.e + w.e, v.f + w.f, v.g + w.g, v.h + w.h⟩

def compress (hash : Work) (block : ℕ → UInt8) : Work :=
  add hash ((List.range 64).foldl (fun w t => round w (constant t) (schedule block t)) hash)

/-- The last `count` bytes of a number, the highest first. -/
def bytesBE (count n : ℕ) : List UInt8 :=
  (List.range count).map fun i => UInt8.ofNat (n / 256 ^ (count - 1 - i))

/-- How many bytes of zeros pad a message of this length. -/
def zeros (length : ℕ) : ℕ := (119 - length % 64) % 64

def padded (message : List UInt8) : List UInt8 :=
  message ++ 0x80 :: (List.replicate (zeros message.length) 0 ++ bytesBE 8 (8 * message.length))

def Work.bytes (w : Work) : List UInt8 :=
  [w.a, w.b, w.c, w.d, w.e, w.f, w.g, w.h].flatMap fun x => bytesBE 4 x.toNat

def digest (message : List UInt8) : List UInt8 :=
  (absorb compress 64 initial (padded message) ((padded message).length / 64)).bytes

/-! ## Facts about the parts -/

theorem length_bytesBE (count n : ℕ) : (bytesBE count n).length = count := by
  rw [bytesBE, List.length_map, List.length_range]

theorem length_padded (message : List UInt8) :
    (padded message).length = message.length + 1 + zeros message.length + 8 := by
  rw [padded, List.length_append, List.length_cons, List.length_append, List.length_replicate,
    length_bytesBE]
  omega

theorem padded_of_lt {message : List UInt8} {i : ℕ} (h : i < message.length) :
    (padded message).getD i 0 = message.getD i 0 := List.getD_append _ _ _ _ h

theorem padded_marker (message : List UInt8) : (padded message).getD message.length 0 = 0x80 := by
  rw [padded, List.getD_append_right _ _ _ _ le_rfl, Nat.sub_self, List.getD_cons_zero]

theorem padded_zero {message : List UInt8} {i : ℕ} (hlow : message.length < i)
    (hhigh : i < message.length + 1 + zeros message.length) : (padded message).getD i 0 = 0 := by
  obtain ⟨j, rfl⟩ := Nat.exists_eq_add_of_lt hlow
  have hj : j < zeros message.length := by omega
  rw [padded, List.getD_append_right _ _ _ _ (by omega),
    show message.length + j + 1 - message.length = j + 1 by omega, List.getD_cons_succ,
    List.getD_append _ _ _ _ (by rwa [List.length_replicate]), List.getD_replicate _ hj]

theorem padded_length {message : List UInt8} {j : ℕ} (hj : j < 8) :
    (padded message).getD (message.length + 1 + zeros message.length + j) 0 =
      UInt8.ofNat (8 * message.length / 256 ^ (7 - j)) := by
  rw [padded, List.getD_append_right _ _ _ _ (by omega), show message.length + 1 +
    zeros message.length + j - message.length = (zeros message.length + j) + 1 by omega,
    List.getD_cons_succ, List.getD_append_right _ _ _ _ (by rw [List.length_replicate]; omega),
    List.length_replicate, Nat.add_sub_cancel_left,
    List.getD_eq_getElem _ _ (by rwa [length_bytesBE])]
  simp only [bytesBE, List.getElem_map, List.getElem_range]

theorem schedule_of_lt {block : ℕ → UInt8} {t : ℕ} (h : t < 16) :
    schedule block t = blockWord block t := by
  rw [schedule, if_pos h]

theorem schedule_of_le {block : ℕ → UInt8} {t : ℕ} (h : 16 ≤ t) : schedule block t =
    smallSigma1 (schedule block (t - 2)) + schedule block (t - 7) +
      smallSigma0 (schedule block (t - 15)) + schedule block (t - 16) := by
  rw [schedule, if_neg (Nat.not_lt.mpr h)]

theorem schedule_congr {f g : ℕ → UInt8} (h : ∀ k < 64, f k = g k) (t : ℕ) :
    schedule f t = schedule g t := by
  induction t using Nat.strong_induction_on with
  | _ t ih =>
    by_cases ht : t < 16
    · rw [schedule_of_lt ht, schedule_of_lt ht]
      unfold blockWord
      rw [h _ (by omega), h _ (by omega), h _ (by omega), h _ (by omega)]
    · rw [schedule_of_le (Nat.le_of_not_lt ht), schedule_of_le (Nat.le_of_not_lt ht),
        ih (t - 2) (by omega), ih (t - 7) (by omega), ih (t - 15) (by omega),
        ih (t - 16) (by omega)]

theorem compress_local : Local compress 64 := by
  intro hash f g h
  unfold compress
  simp only [schedule_congr h]

end Sha2
