import Presence3DS.Lib.Sha2

/-! The hash that signs the requests (`sha256.c`), whose message may come in pieces. -/

namespace Presence3DS.Discord.Sha256
open BlockStream Sha2

/-- The round constants, as the source has them. -/
def k : List Word := [
  0x428a2f98, 0x71374491, 0xb5c0fbcf, 0xe9b5dba5,
  0x3956c25b, 0x59f111f1, 0x923f82a4, 0xab1c5ed5,
  0xd807aa98, 0x12835b01, 0x243185be, 0x550c7dc3,
  0x72be5d74, 0x80deb1fe, 0x9bdc06a7, 0xc19bf174,
  0xe49b69c1, 0xefbe4786, 0x0fc19dc6, 0x240ca1cc,
  0x2de92c6f, 0x4a7484aa, 0x5cb0a9dc, 0x76f988da,
  0x983e5152, 0xa831c66d, 0xb00327c8, 0xbf597fc7,
  0xc6e00bf3, 0xd5a79147, 0x06ca6351, 0x14292967,
  0x27b70a85, 0x2e1b2138, 0x4d2c6dfc, 0x53380d13,
  0x650a7354, 0x766a0abb, 0x81c2c92e, 0x92722c85,
  0xa2bfe8a1, 0xa81a664b, 0xc24b8b70, 0xc76c51a3,
  0xd192e819, 0xd6990624, 0xf40e3585, 0x106aa070,
  0x19a4c116, 0x1e376c08, 0x2748774c, 0x34b0bcb5,
  0x391c0cb3, 0x4ed8aa4a, 0x5b9cca4f, 0x682e6ff3,
  0x748f82ee, 0x78a5636f, 0x84c87814, 0x8cc70208,
  0x90befffa, 0xa4506ceb, 0xbef9a3f7, 0xc67178f2]

def rotright (a : Word) (b : ℕ) : Word := a >>> b ||| a <<< (32 - b)

def ep0 (x : Word) : Word := rotright x 2 ^^^ rotright x 13 ^^^ rotright x 22

def ep1 (x : Word) : Word := rotright x 6 ^^^ rotright x 11 ^^^ rotright x 25

def sig0 (x : Word) : Word := rotright x 7 ^^^ rotright x 18 ^^^ x >>> 3

def sig1 (x : Word) : Word := rotright x 17 ^^^ rotright x 19 ^^^ x >>> 10

/-- The state is an array of eight words. -/
structure Sha256Ctx where
  data : ℕ → UInt8
  datalen : ℕ
  bitlen : BitVec 64
  state : Work

def byteWord (b : UInt8) : Word := b.toBitVec.setWidth 32

/-- The first loop of `sha256_transform`. -/
def loadWord (data : ℕ → UInt8) (j : ℕ) : Word :=
  byteWord (data j) <<< 24 ||| byteWord (data (j + 1)) <<< 16 ||| byteWord (data (j + 2)) <<< 8 |||
    byteWord (data (j + 3))

/-- The second loop, which fills the array from 16 on. -/
def extend (m : List Word) (i : ℕ) : List Word :=
  m ++ [sig1 (m.getD (i - 2) 0) + m.getD (i - 7) 0 + sig0 (m.getD (i - 15) 0) + m.getD (i - 16) 0]

def messageWords (data : ℕ → UInt8) : List Word :=
  (List.range' 16 48).foldl extend ((List.range 16).map fun i => loadWord data (4 * i))

/-- The third loop. -/
def mix (m : List Word) (w : Work) (i : ℕ) : Work :=
  let t1 := w.h + ep1 w.e + ((w.e &&& w.f) ^^^ (~~~w.e &&& w.g)) + k.getD i 0 + m.getD i 0
  let t2 := ep0 w.a + ((w.a &&& w.b) ^^^ (w.a &&& w.c) ^^^ (w.b &&& w.c))
  { h := w.g, g := w.f, f := w.e, e := w.d + t1, d := w.c, c := w.b, b := w.a, a := t1 + t2 }

def sha256Transform (state : Work) (data : ℕ → UInt8) : Work :=
  let m := messageWords data
  let w := (List.range 64).foldl (mix m) state
  { a := state.a + w.a, b := state.b + w.b, c := state.c + w.c, d := state.d + w.d
    e := state.e + w.e, f := state.f + w.f, g := state.g + w.g, h := state.h + w.h }

/-- `sha256_init`; the data are not initialised. -/
def sha256Init (data : ℕ → UInt8) : Sha256Ctx where
  data := data
  datalen := 0
  bitlen := 0
  state := ⟨0x6a09e667, 0xbb67ae85, 0x3c6ef372, 0xa54ff53a,
    0x510e527f, 0x9b05688c, 0x1f83d9ab, 0x5be0cd19⟩

def updateByte (ctx : Sha256Ctx) (b : UInt8) : Sha256Ctx :=
  let data := Function.update ctx.data ctx.datalen b
  if ctx.datalen + 1 = 64 then
    { data := data
      datalen := 0
      bitlen := ctx.bitlen + 512
      state := sha256Transform ctx.state data }
  else { ctx with data := data, datalen := ctx.datalen + 1 }

def sha256Update (ctx : Sha256Ctx) (data : List UInt8) : Sha256Ctx := data.foldl updateByte ctx

/-- `data[i++] = 0x80; while(i < stop) data[i++] = 0x00;` -/
def padTo (data : ℕ → UInt8) (datalen stop : ℕ) : ℕ → UInt8 :=
  fun i => if i = datalen then 0x80 else if datalen < i ∧ i < stop then 0 else data i

/-- `memset(data, 0, 56)` -/
def clear56 (data : ℕ → UInt8) : ℕ → UInt8 := fun i => if i < 56 then 0 else data i

/-- The eight assignments of the length. -/
def putBitlen (data : ℕ → UInt8) (bitlen : BitVec 64) : ℕ → UInt8 :=
  fun i =>
    if 56 ≤ i ∧ i < 64 then UInt8.ofBitVec ((bitlen >>> (8 * (63 - i))).setWidth 8) else data i

def wordBytes (x : Word) : List UInt8 :=
  (List.range 4).map fun i => UInt8.ofBitVec (((x >>> (24 - i * 8)) &&& 0xFF).setWidth 8)

def sha256Final (ctx : Sha256Ctx) : List UInt8 :=
  let (state, data) :=
    if ctx.datalen < 56 then (ctx.state, padTo ctx.data ctx.datalen 56)
    else
      let data := padTo ctx.data ctx.datalen 64
      (sha256Transform ctx.state data, clear56 data)
  let bitlen := ctx.bitlen + BitVec.ofNat 64 (ctx.datalen * 8)
  let state := sha256Transform state (putBitlen data bitlen)
  [state.a, state.b, state.c, state.d, state.e, state.f, state.g, state.h].flatMap wordBytes

/-! ## The parts are those of the standard -/

theorem rotright_eq (a : Word) {b : ℕ} (h : b < 32) : rotright a b = a.rotateRight b := by
  rw [BitVec.rotateRight_def, Nat.mod_eq_of_lt h]
  rfl

theorem k_eq : k = (List.range 64).map constant := by decide +kernel

theorem loadWord_eq (data : ℕ → UInt8) (t : ℕ) : loadWord data (4 * t) = blockWord data t := by
  apply BitVec.eq_of_getLsbD_eq
  intro i hi
  simp only [loadWord, blockWord, byteWord, BitVec.getLsbD_or, BitVec.getLsbD_shiftLeft,
    BitVec.getLsbD_setWidth, BitVec.getLsbD_append]
  have hout : ∀ (x : BitVec 8) {j : ℕ}, 8 ≤ j → x.getLsbD j = false :=
    fun x _ hj => BitVec.getLsbD_of_ge x _ hj
  by_cases h8 : i < 8
  · simp [hi, h8, show i < 16 by omega, show i < 24 by omega]
  by_cases h16 : i < 16
  · simp [hi, h8, h16, hout _ (show 8 ≤ i by omega), show i < 24 by omega, show i - 8 < 8 by omega,
      show i - 8 < 32 by omega]
  by_cases h24 : i < 24
  · simp [hi, h8, h16, h24, hout _ (show 8 ≤ i by omega), hout _ (show 8 ≤ i - 8 by omega),
      show i - 8 - 8 = i - 16 by omega, show i - 16 < 8 by omega, show ¬i - 8 < 8 by omega,
      show i - 16 < 32 by omega]
  · simp [hi, h8, h16, h24, hout _ (show 8 ≤ i by omega), hout _ (show 8 ≤ i - 8 by omega),
      hout _ (show 8 ≤ i - 16 by omega), show i - 8 - 8 = i - 16 by omega,
      show i - 16 - 8 = i - 24 by omega, show ¬i - 8 < 8 by omega, show ¬i - 16 < 8 by omega,
      show i - 24 < 32 by omega]

theorem foldl_extend_eq (data : ℕ → UInt8) (count : ℕ) :
    (List.range' 16 count).foldl extend ((List.range 16).map fun i => loadWord data (4 * i)) =
      (List.range (16 + count)).map (schedule data) := by
  induction count with
  | zero =>
    apply List.map_congr_left
    intro t ht
    rw [loadWord_eq, schedule_of_lt (List.mem_range.mp ht)]
  | succ count ih =>
    have hget : ∀ t < 16 + count, ((List.range (16 + count)).map (schedule data)).getD t 0 =
        schedule data t := by
      intro t ht
      rw [List.getD_eq_getElem _ _ (by simpa using ht), List.getElem_map, List.getElem_range]
    rw [List.range'_1_concat, List.foldl_append, ih, List.foldl_cons, List.foldl_nil, extend,
      ← Nat.add_assoc, List.range_succ, List.map_append, List.map_singleton,
      schedule_of_le (Nat.le_add_right 16 count), hget _ (by omega), hget _ (by omega),
      hget _ (by omega), hget _ (by omega)]
    simp only [sig0, sig1, smallSigma0, smallSigma1, rotright_eq _ (show 7 < 32 by decide),
      rotright_eq _ (show 18 < 32 by decide), rotright_eq _ (show 17 < 32 by decide),
      rotright_eq _ (show 19 < 32 by decide)]

theorem mix_eq (data : ℕ → UInt8) (w : Work) {t : ℕ} (ht : t < 64) :
    mix (messageWords data) w t = Sha2.round w (constant t) (schedule data t) := by
  have hm : (messageWords data).getD t 0 = schedule data t := by
    rw [messageWords, foldl_extend_eq, List.getD_eq_getElem _ _ (by simpa using ht),
      List.getElem_map, List.getElem_range]
  have hk : k.getD t 0 = constant t := by
    rw [k_eq, List.getD_eq_getElem _ _ (by simpa using ht), List.getElem_map, List.getElem_range]
  simp only [mix, Sha2.round, hm, hk, ep0, ep1, bigSigma0, bigSigma1, ch, maj,
    rotright_eq _ (show 2 < 32 by decide), rotright_eq _ (show 13 < 32 by decide),
    rotright_eq _ (show 22 < 32 by decide), rotright_eq _ (show 6 < 32 by decide),
    rotright_eq _ (show 11 < 32 by decide), rotright_eq _ (show 25 < 32 by decide)]

theorem sha256Transform_eq (state : Work) (data : ℕ → UInt8) :
    sha256Transform state data = compress state data := by
  have hmix : (List.range 64).foldl (mix (messageWords data)) state =
      (List.range 64).foldl (fun w t => Sha2.round w (constant t) (schedule data t)) state :=
    List.foldl_ext _ _ _ fun w t ht => mix_eq data w (List.mem_range.mp ht)
  simp only [sha256Transform, compress, hmix, add]

/-! ## Updates -/

def stream (ctx : Sha256Ctx) : Buffered Work UInt8 := ⟨ctx.state, ctx.data, ctx.datalen⟩

/-- What a context stands for: the message of all updates since the initialisation. -/
structure Absorbed (message : List UInt8) (ctx : Sha256Ctx) : Prop where
  stream : Holds compress 64 initial message (stream ctx)
  bitlen : ctx.bitlen = BitVec.ofNat 64 (512 * (message.length / 64))

theorem stream_updateByte (ctx : Sha256Ctx) (b : UInt8) :
    stream (updateByte ctx b) = (stream ctx).feed compress 64 b := by
  unfold updateByte Buffered.feed stream
  by_cases hfull : ctx.datalen + 1 = 64
  · simp only [if_pos hfull, sha256Transform_eq]
  · simp only [if_neg hfull]

theorem initial_eq : (sha256Init fun _ => 0).state = initial := by decide +kernel

theorem absorbed_init (data : ℕ → UInt8) : Absorbed [] (sha256Init data) where
  stream := by
    have hstate : (sha256Init data).state = initial := initial_eq
    rw [Sha256.stream, hstate]
    exact .nil data
  bitlen := rfl

variable {message : List UInt8} {ctx : Sha256Ctx}

theorem Absorbed.updateByte (h : Absorbed message ctx) (b : UInt8) :
    Absorbed (message ++ [b]) (updateByte ctx b) where
  stream := by
    rw [stream_updateByte]
    exact h.stream.feed compress_local (by decide) b
  bitlen := by
    have hfilled : ctx.datalen = message.length % 64 := h.stream.filled
    rw [List.length_append, List.length_singleton]
    unfold Sha256.updateByte
    by_cases hfull : ctx.datalen + 1 = 64
    · have hcount : (message.length + 1) / 64 = message.length / 64 + 1 := by omega
      simp only [if_pos hfull, h.bitlen, hcount, Nat.mul_succ, BitVec.ofNat_add]
      rfl
    · have hcount : (message.length + 1) / 64 = message.length / 64 := by omega
      simp only [if_neg hfull, h.bitlen, hcount]

theorem Absorbed.update (h : Absorbed message ctx) (data : List UInt8) :
    Absorbed (message ++ data) (sha256Update ctx data) := by
  induction data generalizing message ctx with
  | nil => rwa [List.append_nil]
  | cons b data ih =>
    have hnext := ih (h.updateByte b)
    rwa [List.append_assoc, List.singleton_append] at hnext

theorem absorbed_pieces (data : ℕ → UInt8) (pieces : List (List UInt8)) :
    Absorbed pieces.flatten (pieces.foldl sha256Update (sha256Init data)) := by
  have hpieces : ∀ message ctx, Absorbed message ctx →
      Absorbed (message ++ pieces.flatten) (pieces.foldl sha256Update ctx) := by
    induction pieces with
    | nil =>
      intro message ctx h
      rwa [List.flatten_nil, List.append_nil]
    | cons piece pieces ih =>
      intro message ctx h
      rw [List.flatten_cons, ← List.append_assoc]
      exact ih _ _ (h.update piece)
  exact hpieces [] _ (absorbed_init data)

/-! ## The last blocks -/

theorem byte_eq {w : ℕ} (x : BitVec w) (j : ℕ) :
    UInt8.ofBitVec ((x >>> (8 * j)).setWidth 8) = UInt8.ofNat (x.toNat / 256 ^ j) := by
  apply UInt8.toNat_inj.mp
  rw [UInt8.toNat_ofBitVec, BitVec.toNat_setWidth, BitVec.toNat_ushiftRight, UInt8.toNat_ofNat',
    Nat.shiftRight_eq_div_pow, Nat.pow_mul]

theorem wordBytes_eq (x : Word) : wordBytes x = bytesBE 4 x.toNat := by
  apply List.map_congr_left
  intro i hi
  have hlt := List.mem_range.mp hi
  have hmask : ∀ y : Word, (y &&& 0xFF).setWidth 8 = y.setWidth 8 := by
    intro y
    apply BitVec.eq_of_toNat_eq
    rw [BitVec.toNat_setWidth, BitVec.toNat_setWidth, BitVec.toNat_and]
    exact (congrArg (· % 2 ^ 8) (Nat.and_two_pow_sub_one_eq_mod _ 8)).trans (Nat.mod_mod _ _)
  rw [hmask, show 24 - i * 8 = 8 * (4 - 1 - i) by omega, byte_eq]

theorem Absorbed.length_byte (h : Absorbed message ctx) (hlength : message.length < 2 ^ 61)
    (data : ℕ → UInt8) {j : ℕ} (hj : j < 8) :
    putBitlen data (ctx.bitlen + BitVec.ofNat 64 (ctx.datalen * 8)) (56 + j) =
      (padded message).getD (message.length + 1 + zeros message.length + j) 0 := by
  have hfilled : ctx.datalen = message.length % 64 := h.stream.filled
  have hbits : ctx.bitlen + BitVec.ofNat 64 (ctx.datalen * 8) =
      BitVec.ofNat 64 (8 * message.length) := by
    rw [h.bitlen, ← BitVec.ofNat_add]
    congr 1
    omega
  rw [padded_length hj, putBitlen, if_pos (by omega), hbits, byte_eq, BitVec.toNat_ofNat,
    Nat.mod_eq_of_lt (by omega), show 63 - (56 + j) = 7 - j by omega]

theorem Absorbed.absorb_padded (h : Absorbed message ctx) :
    absorb compress 64 initial (padded message) (message.length / 64) = ctx.state := by
  rw [padded, absorb_append compress_local _ (Nat.mul_div_le _ _)]
  exact h.stream.state.symm

theorem Absorbed.data_eq (h : Absorbed message ctx) {i : ℕ} (hi : i < ctx.datalen) :
    ctx.data i = (padded message).getD (64 * (message.length / 64) + i) 0 := by
  have hfilled : ctx.datalen = message.length % 64 := h.stream.filled
  rw [padded_of_lt (by omega)]
  exact h.stream.buffer i hi

theorem Absorbed.final_short (h : Absorbed message ctx) (hlength : message.length < 2 ^ 61)
    (hroom : ctx.datalen < 56) :
    compress ctx.state (putBitlen (padTo ctx.data ctx.datalen 56)
      (ctx.bitlen + BitVec.ofNat 64 (ctx.datalen * 8))) =
        absorb compress 64 initial (padded message) ((padded message).length / 64) := by
  have hfilled : ctx.datalen = message.length % 64 := h.stream.filled
  have hzeros : zeros message.length = 55 - ctx.datalen := by
    rw [zeros]
    omega
  have hcount : (padded message).length / 64 = message.length / 64 + 1 := by
    rw [length_padded]
    omega
  rw [hcount, absorb_succ, h.absorb_padded]
  apply compress_local
  intro i hi
  show _ = (padded message).getD (64 * (message.length / 64) + i) 0
  by_cases hlen : 56 ≤ i
  · obtain ⟨j, rfl⟩ := Nat.exists_eq_add_of_le hlen
    rw [h.length_byte hlength _ (by omega)]
    congr 1
    omega
  rw [putBitlen, if_neg (fun hrange => hlen hrange.1), padTo]
  split_ifs with hmark hzero
  · rw [← padded_marker message]
    congr 1
    omega
  · rw [padded_zero (by omega) (by omega)]
  · exact h.data_eq (by omega)

theorem Absorbed.final_long (h : Absorbed message ctx) (hlength : message.length < 2 ^ 61)
    (hroom : ¬ctx.datalen < 56) :
    compress (compress ctx.state (padTo ctx.data ctx.datalen 64))
      (putBitlen (clear56 (padTo ctx.data ctx.datalen 64))
        (ctx.bitlen + BitVec.ofNat 64 (ctx.datalen * 8))) =
      absorb compress 64 initial (padded message) ((padded message).length / 64) := by
  have hfilled : ctx.datalen = message.length % 64 := h.stream.filled
  have hzeros : zeros message.length = 119 - ctx.datalen := by
    rw [zeros]
    omega
  have hcount : (padded message).length / 64 = message.length / 64 + 1 + 1 := by
    rw [length_padded]
    omega
  have hfirst : compress ctx.state (padTo ctx.data ctx.datalen 64) =
      absorb compress 64 initial (padded message) (message.length / 64 + 1) := by
    rw [absorb_succ, h.absorb_padded]
    apply compress_local
    intro i hi
    show _ = (padded message).getD (64 * (message.length / 64) + i) 0
    rw [padTo]
    split_ifs with hmark hzero
    · rw [← padded_marker message]
      congr 1
      omega
    · rw [padded_zero (by omega) (by omega)]
    · exact h.data_eq (by omega)
  rw [hcount, absorb_succ, hfirst]
  apply compress_local
  intro i hi
  show _ = (padded message).getD (64 * (message.length / 64 + 1) + i) 0
  by_cases hlen : 56 ≤ i
  · obtain ⟨j, rfl⟩ := Nat.exists_eq_add_of_le hlen
    rw [h.length_byte hlength _ (by omega)]
    congr 1
    omega
  · rw [putBitlen, if_neg (fun hrange => hlen hrange.1), clear56, if_pos (Nat.lt_of_not_le hlen),
      padded_zero (by omega) (by omega)]

theorem Absorbed.final (h : Absorbed message ctx) (hlength : message.length < 2 ^ 61) :
    sha256Final ctx = digest message := by
  have hbytes : wordBytes = fun x => bytesBE 4 x.toNat := funext wordBytes_eq
  unfold sha256Final digest
  split_ifs with hroom
  · simp only [sha256Transform_eq, h.final_short hlength hroom, hbytes, Work.bytes]
  · simp only [sha256Transform_eq, h.final_long hlength hroom, hbytes, Work.bytes]

/-- However a message is split into updates, the hash is the digest of the whole message. -/
theorem sha256_pieces (data : ℕ → UInt8) (pieces : List (List UInt8))
    (hlength : pieces.flatten.length < 2 ^ 61) :
    sha256Final (pieces.foldl sha256Update (sha256Init data)) = digest pieces.flatten :=
  (absorbed_pieces data pieces).final hlength

/-- The hash of `abc`. -/
example : sha256Final (sha256Update (sha256Init fun _ => 0) [0x61, 0x62, 0x63]) =
    [0xBA, 0x78, 0x16, 0xBF, 0x8F, 0x01, 0xCF, 0xEA, 0x41, 0x41, 0x40, 0xDE, 0x5D, 0xAE, 0x22, 0x23,
      0xB0, 0x03, 0x61, 0xA3, 0x96, 0x17, 0x7A, 0x9C, 0xB4, 0x10, 0xFF, 0x61, 0xF2, 0x00, 0x15,
      0xAD] := by decide +kernel

theorem sha256_abc :
    sha256Final ([[0x61], [], [0x62, 0x63]].foldl sha256Update (sha256Init fun _ => 0)) =
      digest [0x61, 0x62, 0x63] :=
  sha256_pieces _ [[0x61], [], [0x62, 0x63]] (by decide)

end Presence3DS.Discord.Sha256
