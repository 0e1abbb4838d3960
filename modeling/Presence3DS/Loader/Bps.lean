import Presence3DS.Lib.Buffer
import Presence3DS.Lib.Crc
import Presence3DS.Lib.Vuint

/-! BPS patches (`bps_patcher.cpp`). The offsets have 32 bits, and so has every sum of them. An access
outside of a stream's memory is a fault, and so is the use of a value that has not been read. -/

namespace Presence3DS.Loader.Bps

open Buffer

/-- The memory of a stream, whose size is that of the memory. -/
structure Stream where
  data : List UInt8
  offset : UInt32

namespace Stream

def size (s : Stream) : UInt32 := UInt32.ofNat s.data.length

def seek (offset : UInt32) (s : Stream) : Stream := { s with offset := offset }

def read (length : UInt32) (s : Stream) : Except Stop (List UInt8 × Stream) :=
  if s.size < s.offset + length then .error .failed
  else if s.offset.toNat + length.toNat ≤ s.data.length then
    .ok ((s.data.drop s.offset.toNat).take length.toNat, s.seek (s.offset + length))
  else .error .fault

/-- The stream, and then the other one. -/
def copyFrom (s other : Stream) (length : UInt32) : Except Stop (Stream × Stream) :=
  if s.size < s.offset + length then .error .failed
  else do
    let (data, other) ← other.read length
    if s.offset.toNat + length.toNat ≤ s.data.length then
      .ok (⟨splice s.data s.offset.toNat data, s.offset + length⟩, other)
    else .error .fault

/-- A value that is used whether or not there is one. -/
def value {α : Type} : Except Stop α → Except Stop α
  | .error .failed => .error .fault
  | x => x

/-- Each pass moves the offset by one, so that a pass for each byte is enough. -/
def readNumberLoop : ℕ → UInt32 → UInt32 → Stream → Except Stop (UInt32 × Stream)
  | 0, data, _, s => .ok (data, s)
  | fuel + 1, data, shift, s =>
    match s.read 1 with
    | .ok ([x], s) =>
      let data := data + (x.toUInt32 &&& 0x7F) * shift
      if x &&& 0x80 ≠ 0 then .ok (data, s)
      else readNumberLoop fuel (data + shift <<< 7) (shift <<< 7) s
    | .error .failed => .ok (data, s)
    | _ => .error .fault

def readNumber (s : Stream) : Except Stop (UInt32 × Stream) :=
  readNumberLoop (s.data.length + 1) 0 1 s

end Stream

def crc32Bit (crc : UInt32) : UInt32 := (crc >>> 1) ^^^ (0xEDB88320 &&& (0 - (crc &&& 1)))

def crc32Byte (crc : UInt32) (byte : UInt8) : UInt32 := crc32Bit^[8] (crc ^^^ byte.toUInt32)

def crc32 (data : List UInt8) : UInt32 := ~~~ data.foldl crc32Byte 0xFFFFFFFF

/-- The number in memory. -/
def le32 (bytes : List UInt8) : UInt32 :=
  UInt32.ofNat (bytes.foldr (fun b n => b.toNat + 2 ^ 8 * n) 0)

structure PatchApplier where
  source : Stream
  target : Stream
  patch : Stream
  sourceRelativeOffset : UInt32
  targetRelativeOffset : UInt32
  targetSize : UInt32

namespace PatchApplier

/-- `source` and `target` have the size of the code. -/
def start (code patch : List UInt8) : PatchApplier :=
  ⟨⟨code, 0⟩, ⟨code, 0⟩, ⟨patch, 0⟩, 0, 0, 0⟩

def sourceRead (length : UInt32) (s : PatchApplier) : Except Stop PatchApplier := do
  let (target, source) ← s.target.copyFrom (s.source.seek s.target.offset) length
  .ok { s with target := target, source := source }

def targetRead (length : UInt32) (s : PatchApplier) : Except Stop PatchApplier := do
  let (target, patch) ← s.target.copyFrom s.patch length
  .ok { s with target := target, patch := patch }

/-- A relative offset has its sign in the lowest bit. -/
def moved (offset data : UInt32) : UInt32 :=
  if data &&& 1 ≠ 0 then offset - data >>> 1 else offset + data >>> 1

def sourceCopy (length : UInt32) (s : PatchApplier) : Except Stop PatchApplier := do
  let (data, patch) ← s.patch.readNumber
  let offset := moved s.sourceRelativeOffset data
  let (target, source) ← s.target.copyFrom (s.source.seek offset) length
  .ok { s with target := target, source := source, patch := patch,
               sourceRelativeOffset := offset + length }

/-- Byte by byte: what has been copied may be copied again. -/
def copyBytes : ℕ → UInt32 → UInt32 → List UInt8 → Except Stop (List UInt8)
  | 0, _, _, data => .ok data
  | count + 1, dest, start, data =>
    match data[start.toNat]? with
    | some byte =>
      if dest.toNat < data.length then
        copyBytes count (dest + 1) (start + 1) (data.set dest.toNat byte)
      else .error .fault
    | none => .error .fault

def targetCopy (length : UInt32) (s : PatchApplier) : Except Stop PatchApplier := do
  let (data, patch) ← s.patch.readNumber
  let offset := moved s.targetRelativeOffset data
  if s.target.size < s.target.offset + length then .error .failed
  else if s.target.size < offset + length then .error .failed
  else do
    let target ← copyBytes length.toNat s.target.offset offset s.target.data
    .ok { s with target := ⟨target, s.target.offset + length⟩, patch := patch,
                 targetRelativeOffset := offset + length }

def handleCommand (s : PatchApplier) : Except Stop PatchApplier := do
  let (data, patch) ← s.patch.readNumber
  let s := { s with patch := patch }
  let length := data >>> 2 + 1
  if data &&& 3 = 0 then s.sourceRead length
  else if data &&& 3 = 1 then s.targetRead length
  else if data &&& 3 = 2 then s.sourceCopy length
  else if data &&& 3 = 3 then s.targetCopy length
  else .error .failed

/-- A command has a byte at least. -/
def commands (commandEnd : UInt32) : ℕ → PatchApplier → Except Stop PatchApplier
  | 0, _ => .error .failed
  | fuel + 1, s =>
    if s.patch.offset < commandEnd then do
      let s ← s.handleCommand
      commands commandEnd fuel s
    else .ok s

def magic : List UInt8 := [0x42, 0x50, 0x53, 0x31]

def footerSize : UInt32 := 12

/-- The magic and the sizes, the first of which is returned. -/
def readHeader (s : PatchApplier) : Except Stop (UInt32 × PatchApplier) := do
  let (bytes, patch) ← Stream.value (s.patch.read 4)
  if bytes ≠ magic then .error .failed
  else do
    let (sourceSize, patch) ← patch.readNumber
    let (targetSize, patch) ← patch.readNumber
    let (metadataSize, patch) ← patch.readNumber
    if s.source.size < sourceSize ∨ s.target.size < targetSize ∨ metadataSize ≠ 0 then
      .error .failed
    else .ok (sourceSize, { s with patch := patch, targetSize := targetSize })

def commandEnd (s : PatchApplier) : UInt32 := s.patch.size - footerSize

/-- The checksums, the second of which is returned, and the target is cleared. -/
def readFooter (sourceSize : UInt32) (s : PatchApplier) : Except Stop (UInt32 × PatchApplier) := do
  let (sourceCrc32, patch) ← Stream.value ((s.patch.seek s.commandEnd).read 4)
  let (targetCrc32, patch) ← Stream.value (patch.read 4)
  if crc32 (s.source.data.take sourceSize.toNat) ≠ le32 sourceCrc32 then .error .failed
  else .ok (le32 targetCrc32, { s with
    patch := patch.seek s.patch.offset,
    target := ⟨List.replicate s.target.data.length 0, s.target.offset⟩ })

/-- Where it succeeds. -/
def apply (s : PatchApplier) : Except Stop PatchApplier := do
  let (sourceSize, s) ← s.readHeader
  let (targetCrc32, s) ← s.readFooter sourceSize
  let s ← commands s.commandEnd (s.patch.data.length + 1) s
  if crc32 (s.target.data.take s.targetSize.toNat) = targetCrc32 then .ok s else .error .failed

end PatchApplier

def heapLimit : UInt32 := 30 * 1024 * 1024

/-- What is returned, and the code and its size. The copies of the code and of the patch are in the
heap one after the other, and the heap's size is what is free, up to a limit. A patch that is not
applied stops the process. -/
def applyCodeBpsPatch (memRegionFree : UInt32) (code : List UInt8) (codeSize : UInt32)
    (file : Option (List UInt8)) : Except Stop (Bool × List UInt8 × UInt32) :=
  match file with
  | none => .ok (true, code, codeSize)
  | some content =>
    let maxSize := UInt32.ofNat code.length
    let patchSize := UInt32.ofNat content.length
    let heap := min memRegionFree heapLimit
    if heap < maxSize + patchSize then .ok (false, code, codeSize)
    else if heap.toNat < maxSize.toNat + patchSize.toNat then .error .fault
    else do
      let s ← (PatchApplier.start code (content.take patchSize.toNat)).apply
      .ok (true, s.target.data, s.targetSize)

/-! ## Checksums -/

theorem crc32Bit_eq (crc : UInt32) : crc32Bit crc = Crc.step 0xEDB88320 crc := by
  have hlow : crc &&& 1 = 0 ∨ crc &&& 1 = 1 := by
    have hmod : (crc &&& 1).toNat = crc.toNat % 2 := by
      rw [UInt32.toNat_and, UInt32.toNat_one, Nat.and_one_is_mod]
    rcases Nat.mod_two_eq_zero_or_one crc.toNat with hbit | hbit
    · exact Or.inl (UInt32.toNat_inj.mp (hmod.trans hbit))
    · exact Or.inr (UInt32.toNat_inj.mp (hmod.trans hbit))
  rw [crc32Bit, Crc.step]
  rcases hlow with hbit | hbit
  · rw [hbit, if_pos rfl]
    exact UInt32.xor_zero
  · rw [hbit, if_neg (by decide)]
    rfl

theorem crc32_eq (data : List UInt8) : crc32 data = Crc.crc 0xEDB88320 data := by
  have hbyte : ∀ crc byte, crc32Byte crc byte =
      (Crc.bits 8 byte.toNat).foldl (Crc.feed 0xEDB88320) crc := by
    intro crc byte
    rw [crc32Byte, show crc32Bit = Crc.step 0xEDB88320 from funext crc32Bit_eq,
      ← Crc.step_iterate 0xEDB88320 crc byte.toNat_lt (by decide), UInt32.ofNat_uInt8ToNat]
  rw [crc32, Crc.crc, List.foldl_flatMap]
  congr 2
  funext crc byte
  exact hbyte crc byte

/-! ## Streams -/

namespace Stream

variable {s other : Stream} {length : UInt32}

def rest (s : Stream) : List UInt8 := s.data.drop s.offset.toNat

theorem size_toNat (h : s.data.length < 2 ^ 32) : s.size.toNat = s.data.length :=
  UInt32.toNat_ofNat_of_lt' h

theorem toNat_add {a b : UInt32} (h : a.toNat + b.toNat < 2 ^ 32) :
    (a + b).toNat = a.toNat + b.toNat := by
  rw [UInt32.toNat_add]
  exact Nat.mod_eq_of_lt h

theorem read_ok (hdata : s.data.length < 2 ^ 32)
    (h : s.offset.toNat + length.toNat ≤ s.data.length) :
    s.read length = .ok (s.rest.take length.toNat, s.seek (s.offset + length)) := by
  have hsum : ¬ s.size < s.offset + length := by
    rw [UInt32.lt_iff_toNat_lt, size_toNat hdata, toNat_add (by omega)]
    omega
  rw [read, if_neg hsum, if_pos h]
  rfl

theorem read_failed (hdata : s.data.length < 2 ^ 32)
    (hwrap : s.offset.toNat + length.toNat < 2 ^ 32)
    (h : s.data.length < s.offset.toNat + length.toNat) : s.read length = .error .failed := by
  refine if_pos ?_
  rw [UInt32.lt_iff_toNat_lt, size_toNat hdata, toNat_add hwrap]
  exact h

theorem copyFrom_ok (hdata : s.data.length < 2 ^ 32)
    (h : s.offset.toNat + length.toNat ≤ s.data.length) (hother : other.data.length < 2 ^ 32)
    (h' : other.offset.toNat + length.toNat ≤ other.data.length) :
    s.copyFrom other length =
      .ok (⟨splice s.data s.offset.toNat (other.rest.take length.toNat), s.offset + length⟩,
        other.seek (other.offset + length)) := by
  have hsum : ¬ s.size < s.offset + length := by
    rw [UInt32.lt_iff_toNat_lt, size_toNat hdata, toNat_add (by omega)]
    omega
  rw [copyFrom, if_neg hsum, read_ok hother h']
  exact if_pos h

/-! ### Numbers -/

theorem and_0x80_ne_zero (x : UInt8) : x &&& 0x80 ≠ 0 ↔ 128 ≤ x.toNat := by
  have hall : ∀ n < 256, n &&& 0x80 ≠ 0 ↔ 128 ≤ n := by decide +kernel
  rw [← hall _ x.toNat_lt, Ne, ← UInt8.toNat_inj, UInt8.toNat_and]
  rfl

theorem low_bits (x : UInt8) : x.toUInt32 &&& 0x7F = UInt32.ofNat (x.toNat % 128) := by
  rw [← UInt32.toNat_inj, UInt32.toNat_and, UInt8.toNat_toUInt32,
    UInt32.toNat_ofNat_of_lt' (show x.toNat % 128 < 2 ^ 32 by omega)]
  exact Nat.and_two_pow_sub_one_eq_mod x.toNat 7

theorem shiftLeft_seven (shift : UInt32) : shift <<< 7 = shift * 128 := by
  rw [← UInt32.toNat_inj, UInt32.toNat_shiftLeft, UInt32.toNat_mul, Nat.shiftLeft_eq]
  rfl

theorem readNumberLoop_decode {fuel n : ℕ} {data shift : UInt32} {bytes : List UInt8}
    (hdata : s.data.length < 2 ^ 32) (hoffset : s.offset.toNat ≤ s.data.length)
    (hfuel : s.rest.length < fuel) (h : Vuint.decode s.rest = some (n, bytes)) :
    ∃ s', readNumberLoop fuel data shift s = .ok (data + UInt32.ofNat n * shift, s') ∧
      s'.data = s.data ∧ s'.offset.toNat ≤ s.data.length ∧ s'.rest = bytes := by
  induction fuel generalizing s data shift n with
  | zero => exact absurd hfuel (Nat.not_lt_zero _)
  | succ fuel ih =>
    rcases hrest : s.rest with _ | ⟨x, more⟩
    · rw [hrest] at h
      exact absurd h (by simp [Vuint.decode])
    have hlength : s.rest.length = s.data.length - s.offset.toNat := List.length_drop
    rw [hrest, List.length_cons] at hlength
    have hread : s.read 1 = .ok (s.rest.take 1, s.seek (s.offset + 1)) :=
      read_ok hdata (show s.offset.toNat + 1 ≤ s.data.length by omega)
    have hnext : (s.offset + 1).toNat = s.offset.toNat + 1 := toNat_add (b := 1) (by
      show s.offset.toNat + 1 < 2 ^ 32
      omega)
    have hmore : (s.seek (s.offset + 1)).rest = more := by
      show s.data.drop (s.offset + 1).toNat = more
      rw [hnext, ← List.drop_drop]
      show s.rest.drop 1 = more
      rw [hrest]
      rfl
    rw [hrest] at hread h
    rw [readNumberLoop, show s.read 1 = .ok ([x], _) from hread]
    dsimp only
    rw [Vuint.decode] at h
    rw [low_bits]
    split_ifs at h with hlast
    · obtain ⟨rfl, rfl⟩ := Prod.mk.inj (Option.some.inj h)
      have hmod : x.toNat % 128 = x.toNat - 128 := by
        have := x.toNat_lt
        omega
      rw [if_pos ((and_0x80_ne_zero x).mpr hlast), hmod]
      exact ⟨_, rfl, rfl, show (s.offset + 1).toNat ≤ s.data.length by omega, hmore⟩
    · obtain ⟨⟨m, bytes'⟩, hdecode, heq⟩ := Option.map_eq_some_iff.mp h
      obtain ⟨rfl, rfl⟩ := Prod.mk.inj heq
      have hmod : x.toNat % 128 = x.toNat := by omega
      rw [if_neg fun hne => hlast ((and_0x80_ne_zero x).mp hne), hmod]
      have hvalue : data + UInt32.ofNat x.toNat * shift + shift <<< 7 +
          UInt32.ofNat m * shift <<< 7 =
            data + UInt32.ofNat (x.toNat + 128 * (m + 1)) * shift := by
        rw [shiftLeft_seven, UInt32.ofNat_add, UInt32.ofNat_mul, UInt32.ofNat_add]
        grind
      rw [← hvalue]
      refine ih (show s.data.length < 2 ^ 32 from hdata)
        (show (s.offset + 1).toNat ≤ s.data.length by omega) ?_ (by rw [hmore, hdecode])
      rw [hmore]
      rw [hrest, List.length_cons] at hfuel
      omega

theorem readNumber_encode {n : ℕ} {bytes : List UInt8} (hdata : s.data.length < 2 ^ 32)
    (hoffset : s.offset.toNat ≤ s.data.length) (h : s.rest = Vuint.encode n ++ bytes) :
    ∃ s', s.readNumber = .ok (UInt32.ofNat n, s') ∧ s'.data = s.data ∧
      s'.offset.toNat ≤ s.data.length ∧ s'.rest = bytes := by
  have hfuel : s.rest.length < s.data.length + 1 := by
    rw [rest, List.length_drop]
    omega
  have hdecode : Vuint.decode s.rest = some (n, bytes) := by rw [h, Vuint.decode_encode]
  have hloop := @readNumberLoop_decode s _ n 0 1 bytes hdata hoffset hfuel hdecode
  rwa [UInt32.zero_add, UInt32.mul_one] at hloop

end Stream

end Presence3DS.Loader.Bps
