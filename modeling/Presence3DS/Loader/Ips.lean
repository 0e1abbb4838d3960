import Mathlib.Data.List.Basic
import Presence3DS.Loader.PatchFile

/-! IPS patches (`patcher.c`), and the format they are in. -/

namespace Presence3DS.Loader

open Buffer

def be16 (b0 b1 : UInt8) : ℕ := b0.toNat <<< 8 ||| b1.toNat

def be24 (b0 b1 b2 : UInt8) : ℕ := b0.toNat <<< 16 ||| b1.toNat <<< 8 ||| b2.toNat

/-- No sum here reaches `2 ^ 32`: an offset has three bytes, and a size two. -/
def ipsGrowToFit (patchedSize maxSize offset size : ℕ) : BufferM UInt8 ℕ :=
  if maxSize < offset + size then fail
  else if size = 0 then pure patchedSize
  else do
    if patchedSize < offset then memset patchedSize 0 (offset - patchedSize)
    pure (if patchedSize < offset + size then offset + size else patchedSize)

/-- The rest of the loop's body, from the record's size on. -/
def ipsRecord (code maxSize patchedSize offset : ℕ) (r : PatchFileReader) :
    BufferM UInt8 (ℕ × PatchFileReader) :=
  match patchFileRead 0 2 r with
  | (true, [b0, b1], r) =>
    if be16 b0 b1 = 0 then
      match patchFileRead 0 3 r with
      | (true, [b0, b1, b2], r) => do
        let patchedSize ← ipsGrowToFit patchedSize maxSize offset (be16 b0 b1)
        memset offset b2 (be16 b0 b1)
        pure (patchedSize, r)
      | _ => fail
    else do
      let patchedSize ← ipsGrowToFit patchedSize maxSize offset (be16 b0 b1)
      -- What has been read is in the code also where the read fails.
      let (ok, data, r) := patchFileRead (code + offset) (be16 b0 b1) r
      write offset data
      if ok then pure (patchedSize, r) else fail
  | _ => fail

def readTrailer : ℕ → PatchFileReader → List UInt8
  | 0, _ => []
  | n + 1, r =>
    match patchFileRead 0 1 r with
    | (true, data, r) => data ++ readTrailer n r
    | (false, _, _) => []

/-- What follows the EOF marker. -/
def ipsTrailer (maxSize patchedSize : ℕ) (r : PatchFileReader) : BufferM UInt8 ℕ :=
  match readTrailer 4 r with
  | [] => pure patchedSize
  | [b0, b1, b2] =>
    if maxSize < be24 b0 b1 b2 then fail
    else do
      if be24 b0 b1 b2 < patchedSize then
        memset (be24 b0 b1 b2) 0 (patchedSize - be24 b0 b1 b2)
      else memset patchedSize 0 (be24 b0 b1 b2 - patchedSize)
      pure (be24 b0 b1 b2)
  | _ => fail

def ipsEof : List UInt8 := [0x45, 0x4F, 0x46]

def ipsRecords (code maxSize : ℕ) : ℕ → ℕ → PatchFileReader → BufferM UInt8 ℕ
  | 0, _, _ => fail
  | fuel + 1, patchedSize, r =>
    match patchFileRead 0 3 r with
    | (true, [b0, b1, b2], r) =>
      if [b0, b1, b2] = ipsEof then ipsTrailer maxSize patchedSize r
      else do
        let (patchedSize, r) ← ipsRecord code maxSize patchedSize (be24 b0 b1 b2) r
        ipsRecords code maxSize fuel patchedSize r
    | _ => fail

def ipsMagic : List UInt8 := [0x50, 0x41, 0x54, 0x43, 0x48]

def ipsPatch (code codeSize maxSize : ℕ) (content : List UInt8) : BufferM UInt8 ℕ :=
  let (ok, magic, r) := patchFileRead 0 5 (PatchFileReader.start content)
  if ok = false ∨ magic ≠ ipsMagic then fail
  else ipsRecords code maxSize content.length codeSize r

/-- What is returned, and the code size. The code is at `code`, and the file that of the title, where
there is one. -/
def applyCodeIpsPatch (code codeSize maxSize : ℕ) (file : Option (List UInt8)) :
    BufferM UInt8 (Bool × ℕ) :=
  match file with
  | none => pure (true, codeSize)
  | some content => do
    match ← attempt (ipsPatch code codeSize maxSize content) with
    | some patchedSize => pure (true, patchedSize)
    | none => pure (false, codeSize)

/-! ## The format -/

def be16Bytes (n : ℕ) : List UInt8 := [UInt8.ofNat (n / 2 ^ 8), UInt8.ofNat n]

def be24Bytes (n : ℕ) : List UInt8 :=
  [UInt8.ofNat (n / 2 ^ 16), UInt8.ofNat (n / 2 ^ 8), UInt8.ofNat n]

/-- A record's data, or a byte that is repeated. -/
inductive IpsContent where
  | data (bytes : List UInt8) (ne : bytes ≠ []) (lt : bytes.length < 2 ^ 16)
  | run (count : ℕ) (value : UInt8) (lt : count < 2 ^ 16)

namespace IpsContent

def expand : IpsContent → List UInt8
  | data bytes _ _ => bytes
  | run count value _ => List.replicate count value

/-- A repeated byte has the size `0` first. -/
def bytes : IpsContent → List UInt8
  | data bytes _ _ => be16Bytes bytes.length ++ bytes
  | run count value _ => be16Bytes 0 ++ (be16Bytes count ++ [value])

end IpsContent

/-- An offset that would be read as the marker is not one. -/
structure IpsRecord where
  offset : ℕ
  content : IpsContent
  offset_lt : offset < 2 ^ 24
  offset_ne : be24Bytes offset ≠ ipsEof

namespace IpsRecord

def bytes (record : IpsRecord) : List UInt8 := be24Bytes record.offset ++ record.content.bytes

def Within (maxSize : ℕ) (record : IpsRecord) : Prop :=
  record.offset + record.content.expand.length ≤ maxSize

def apply (image : List UInt8) (record : IpsRecord) : List UInt8 :=
  writeAt 0 image record.offset record.content.expand

end IpsRecord

structure IpsPatch where
  records : List IpsRecord
  size : Option {n : ℕ // n < 2 ^ 24}

namespace IpsPatch

def trailer (patch : IpsPatch) : List UInt8 :=
  match patch.size with
  | none => []
  | some n => be24Bytes n

/-- What follows the header. -/
def body (patch : IpsPatch) : List UInt8 :=
  patch.records.flatMap IpsRecord.bytes ++ (ipsEof ++ patch.trailer)

def bytes (patch : IpsPatch) : List UInt8 := ipsMagic ++ patch.body

def Within (maxSize : ℕ) (patch : IpsPatch) : Prop :=
  (∀ record ∈ patch.records, record.Within maxSize) ∧ ∀ n ∈ patch.size, n.val ≤ maxSize

/-- The records in their order, and then the image is cut off or filled. -/
def apply (patch : IpsPatch) (image : List UInt8) : List UInt8 :=
  match patch.size with
  | none => patch.records.foldl IpsRecord.apply image
  | some n => resize 0 (patch.records.foldl IpsRecord.apply image) n

end IpsPatch

/-! ## Numbers -/

theorem be16_eq (b0 b1 : UInt8) : be16 b0 b1 = b0.toNat * 2 ^ 8 + b1.toNat := by
  rw [be16, ← Nat.shiftLeft_add_eq_or_of_lt b1.toNat_lt, Nat.shiftLeft_eq]

theorem be24_eq (b0 b1 b2 : UInt8) :
    be24 b0 b1 b2 = b0.toNat * 2 ^ 16 + b1.toNat * 2 ^ 8 + b2.toNat := by
  have hlow : b1.toNat <<< 8 ||| b2.toNat < 2 ^ 16 := by
    rw [← be16, be16_eq]
    have := b1.toNat_lt
    have := b2.toNat_lt
    omega
  rw [be24, Nat.or_assoc, ← Nat.shiftLeft_add_eq_or_of_lt hlow, Nat.shiftLeft_eq, ← be16, be16_eq,
    Nat.add_assoc]

theorem be16_bytes {n : ℕ} (h : n < 2 ^ 16) : be16 (UInt8.ofNat (n / 2 ^ 8)) (UInt8.ofNat n) = n := by
  rw [be16_eq, UInt8.toNat_ofNat', UInt8.toNat_ofNat']
  omega

theorem be24_bytes {n : ℕ} (h : n < 2 ^ 24) :
    be24 (UInt8.ofNat (n / 2 ^ 16)) (UInt8.ofNat (n / 2 ^ 8)) (UInt8.ofNat n) = n := by
  rw [be24_eq, UInt8.toNat_ofNat', UInt8.toNat_ofNat', UInt8.toNat_ofNat']
  omega

theorem be16Bytes_be16 (b0 b1 : UInt8) : be16 b0 b1 < 2 ^ 16 ∧ be16Bytes (be16 b0 b1) = [b0, b1] := by
  have h0 := b0.toNat_lt
  have h1 := b1.toNat_lt
  rw [be16_eq]
  refine ⟨by omega, ?_⟩
  rw [be16Bytes, show (b0.toNat * 2 ^ 8 + b1.toNat) / 2 ^ 8 = b0.toNat by omega, UInt8.ofNat_toNat]
  congr 2
  rw [← UInt8.toNat_inj, UInt8.toNat_ofNat']
  omega

theorem be24Bytes_be24 (b0 b1 b2 : UInt8) :
    be24 b0 b1 b2 < 2 ^ 24 ∧ be24Bytes (be24 b0 b1 b2) = [b0, b1, b2] := by
  have h0 := b0.toNat_lt
  have h1 := b1.toNat_lt
  have h2 := b2.toNat_lt
  rw [be24_eq]
  refine ⟨by omega, ?_⟩
  rw [be24Bytes, show (b0.toNat * 2 ^ 16 + b1.toNat * 2 ^ 8 + b2.toNat) / 2 ^ 16 = b0.toNat by omega,
    UInt8.ofNat_toNat]
  congr 2
  · rw [← UInt8.toNat_inj, UInt8.toNat_ofNat']
    omega
  · congr 1
    rw [← UInt8.toNat_inj, UInt8.toNat_ofNat']
    omega

theorem IpsPatch.body_cons (record : IpsRecord) (records : List IpsRecord)
    (size : Option {n : ℕ // n < 2 ^ 24}) :
    (IpsPatch.mk (record :: records) size).body = record.bytes ++ (IpsPatch.mk records size).body :=
  List.append_assoc _ _ _

/-! ## Safety -/

variable {code maxSize patchedSize offset size : ℕ} {r : PatchFileReader}

theorem ipsGrowToFit_safe (hp : patchedSize ≤ maxSize) :
    Safe maxSize (ipsGrowToFit patchedSize maxSize offset size)
      fun n => n ≤ maxSize ∧ offset + size ≤ maxSize := by
  rw [ipsGrowToFit]
  by_cases hmax : maxSize < offset + size
  · rw [if_pos hmax]
    exact safe_fail
  rw [if_neg hmax]
  have hsize : (if patchedSize < offset + size then offset + size else patchedSize) ≤ maxSize := by
    split_ifs <;> omega
  generalize (if patchedSize < offset + size then offset + size else patchedSize) = n at hsize ⊢
  split_ifs
  · exact safe_pure ⟨hp, by omega⟩
  · exact (safe_memset (by omega)).bind fun _ _ => safe_pure ⟨hsize, by omega⟩
  · exact safe_pure ⟨hsize, by omega⟩

theorem ipsRecord_safe (hr : r.Valid) (hp : patchedSize ≤ maxSize) :
    Safe maxSize (ipsRecord code maxSize patchedSize offset r) fun res =>
      res.1 ≤ maxSize ∧ res.2.Valid ∧
        ∃ content : IpsContent, r.remaining = content.bytes ++ res.2.remaining := by
  rw [ipsRecord]
  obtain ⟨size, r₁, hread, hlen, hrem, hr₁⟩ | ⟨size, r₁, hread, -⟩ := patchFileRead_cases 0 2 hr
  · obtain ⟨b0, b1, rfl⟩ := List.length_eq_two.mp hlen
    rw [hread]
    dsimp only
    obtain ⟨hlt, hbytes⟩ := be16Bytes_be16 b0 b1
    by_cases hzero : be16 b0 b1 = 0
    · rw [if_pos hzero]
      obtain ⟨run, r₂, hread₂, hlen₂, hrem₂, hr₂⟩ | ⟨run, r₂, hread₂, -⟩ :=
        patchFileRead_cases 0 3 hr₁
      · obtain ⟨c0, c1, c2, rfl⟩ := List.length_eq_three.mp hlen₂
        rw [hread₂]
        dsimp only
        obtain ⟨hlt₂, hbytes₂⟩ := be16Bytes_be16 c0 c1
        refine (ipsGrowToFit_safe hp).bind fun n hn => (safe_memset hn.2).bind fun _ _ =>
          safe_pure ⟨hn.1, hr₂, .run _ c2 hlt₂, ?_⟩
        rw [IpsContent.bytes, ← hzero, hbytes, hbytes₂, hrem, hrem₂]
        rfl
      · rw [hread₂]
        exact safe_fail
    · rw [if_neg hzero]
      refine (ipsGrowToFit_safe hp).bind fun n hn => ?_
      obtain ⟨data, r₂, hread₂, hlen₂, hrem₂, hr₂⟩ | ⟨data, r₂, hread₂, hlen₂, -⟩ :=
        patchFileRead_cases (code + offset) (be16 b0 b1) hr₁
      · rw [hread₂]
        refine (safe_write (by rw [hlen₂]; exact hn.2)).bind fun _ _ => ?_
        have hne : data ≠ [] := List.ne_nil_of_length_pos (by omega)
        refine safe_pure ⟨hn.1, hr₂, .data data hne (hlen₂ ▸ hlt), ?_⟩
        rw [IpsContent.bytes, hlen₂, hbytes, hrem, hrem₂, List.append_assoc]
      · rw [hread₂]
        exact (safe_write ((Nat.add_le_add_left hlen₂ _).trans hn.2)).bind fun _ _ => safe_fail
  · rw [hread]
    exact safe_fail

theorem readTrailer_eq (n : ℕ) {r : PatchFileReader} (hr : r.Valid) :
    readTrailer n r = r.remaining.take n := by
  induction n generalizing r with
  | zero => rfl
  | succ n ih =>
    rw [readTrailer]
    obtain ⟨byte, r₁, hread, hlen, hrem, hr₁⟩ | ⟨byte, r₁, hread, hlen, hshort⟩ :=
      patchFileRead_cases 0 1 hr
    · obtain ⟨b0, rfl⟩ := List.length_eq_one_iff.mp hlen
      rw [hread, hrem]
      show [b0] ++ readTrailer n r₁ = b0 :: r₁.remaining.take n
      rw [ih hr₁]
      rfl
    · rw [hread, List.length_eq_zero_iff.mp (Nat.lt_one_iff.mp hshort), List.take_nil]

theorem ipsTrailer_safe (hr : r.Valid) (hp : patchedSize ≤ maxSize) :
    Safe maxSize (ipsTrailer maxSize patchedSize r) fun _ =>
      ∃ patch : IpsPatch, patch.records = [] ∧ r.remaining = patch.trailer := by
  rw [ipsTrailer, readTrailer_eq 4 hr]
  rcases hrem : r.remaining with _ | ⟨b0, _ | ⟨b1, _ | ⟨b2, _ | ⟨b3, rest⟩⟩⟩⟩
  · exact safe_pure ⟨⟨[], none⟩, rfl, rfl⟩
  · exact safe_fail
  · exact safe_fail
  · show Safe maxSize (if maxSize < be24 b0 b1 b2 then fail else _) _
    obtain ⟨hlt, hbytes⟩ := be24Bytes_be24 b0 b1 b2
    generalize be24 b0 b1 b2 = size at hlt hbytes ⊢
    have hpatch : ∃ patch : IpsPatch, patch.records = [] ∧ [b0, b1, b2] = patch.trailer :=
      ⟨⟨[], some ⟨size, hlt⟩⟩, rfl, hbytes.symm⟩
    split_ifs with hmax hcut
    · exact safe_fail
    · exact (safe_memset (by omega)).bind fun _ _ => safe_pure hpatch
    · exact (safe_memset (by omega)).bind fun _ _ => safe_pure hpatch
  · exact safe_fail

theorem ipsRecords_safe (fuel : ℕ) (hr : r.Valid) (hp : patchedSize ≤ maxSize) :
    Safe maxSize (ipsRecords code maxSize fuel patchedSize r) fun _ =>
      ∃ patch : IpsPatch, r.remaining = patch.body := by
  induction fuel generalizing patchedSize r with
  | zero => exact safe_fail
  | succ fuel ih =>
    rw [ipsRecords]
    obtain ⟨place, r₁, hread, hlen, hrem, hr₁⟩ | ⟨place, r₁, hread, -⟩ := patchFileRead_cases 0 3 hr
    · obtain ⟨b0, b1, b2, rfl⟩ := List.length_eq_three.mp hlen
      rw [hread]
      dsimp only
      obtain ⟨hlt, hbytes⟩ := be24Bytes_be24 b0 b1 b2
      split_ifs with heof
      · refine (ipsTrailer_safe hr₁ hp).mono fun _ ⟨patch, hnone, htrailer⟩ => ⟨patch, ?_⟩
        rw [IpsPatch.body, hnone, hrem, heof, htrailer]
        rfl
      · refine (ipsRecord_safe hr₁ hp).bind fun res ⟨hsize, hvalid, content, hcontent⟩ => ?_
        refine (ih hvalid hsize).mono fun _ ⟨patch, hbody⟩ => ?_
        have hne : be24Bytes (be24 b0 b1 b2) ≠ ipsEof := hbytes ▸ heof
        have hrecord : IpsRecord.bytes ⟨_, content, hlt, hne⟩ = [b0, b1, b2] ++ content.bytes :=
          congrArg (· ++ content.bytes) hbytes
        refine ⟨⟨⟨_, content, hlt, hne⟩ :: patch.records, patch.size⟩, ?_⟩
        rw [IpsPatch.body_cons, hrecord, hrem, hcontent, hbody, List.append_assoc]
    · rw [hread]
      exact safe_fail

theorem ipsPatch_safe {codeSize : ℕ} (content : List UInt8) (hsize : codeSize ≤ maxSize) :
    Safe maxSize (ipsPatch code codeSize maxSize content) fun _ =>
      ∃ patch : IpsPatch, content = patch.bytes := by
  have hr := PatchFileReader.start_valid content
  rw [ipsPatch]
  obtain ⟨magic, r, hread, hlen, hrem, hvalid⟩ | ⟨magic, r, hread, -⟩ := patchFileRead_cases 0 5 hr
  · rw [hread]
    by_cases hmagic : magic = ipsMagic
    · subst hmagic
      refine (ipsRecords_safe _ hvalid hsize).mono fun _ ⟨patch, hbody⟩ => ⟨patch, ?_⟩
      rw [← PatchFileReader.start_remaining content, hrem, hbody, IpsPatch.bytes]
    · show Safe maxSize (if true = false ∨ magic ≠ ipsMagic then fail else _) _
      rw [if_pos (Or.inr hmagic)]
      exact safe_fail
  · rw [hread]
    exact safe_fail

/-! ## What is applied -/

variable {b rest : List UInt8}

theorem ipsGrowToFit_over (h : maxSize < offset + size) :
    ipsGrowToFit patchedSize maxSize offset size = fail := if_pos h

theorem ipsGrowToFit_result {data : List UInt8} (hb : b.length = maxSize)
    (hp : patchedSize ≤ maxSize) (h : offset + data.length ≤ maxSize) :
    ∃ n b', result (ipsGrowToFit patchedSize maxSize offset data.length) b = (.ok n, b') ∧
      b'.length = maxSize ∧ n ≤ maxSize ∧
      (splice b' offset data).take n = writeAt 0 (b.take patchedSize) offset data := by
  subst hb
  rw [ipsGrowToFit, if_neg (Nat.not_lt.mpr h)]
  by_cases hzero : data = []
  · subst hzero
    refine ⟨patchedSize, b, rfl, rfl, hp, ?_⟩
    rw [splice_nil, writeAt, if_pos rfl]
  · rw [if_neg (fun hnil => hzero (List.length_eq_zero_iff.mp hnil))]
    have hsize : (if patchedSize < offset + data.length then offset + data.length else patchedSize) =
        max patchedSize (offset + data.length) := by
      rw [Nat.max_def]
      split_ifs <;> omega
    rw [hsize]
    have hgap : patchedSize + (List.replicate (offset - patchedSize) (0 : UInt8)).length ≤
        b.length := by
      rw [List.length_replicate]
      omega
    refine ⟨_, splice b patchedSize (List.replicate (offset - patchedSize) 0), ?_,
      length_splice hgap, Nat.max_le.mpr ⟨hp, h⟩, take_splice_grow hzero hp h⟩
    split_ifs with hlt
    · exact result_bind_ok (result_write hgap) _
    · rw [Nat.sub_eq_zero_of_le (Nat.not_lt.mp hlt), List.replicate_zero, splice_nil]
      rfl

theorem ipsRecord_eq (hr : r.Valid) (content : IpsContent)
    (hremaining : r.remaining = content.bytes ++ rest) :
    ∃ r' : PatchFileReader, r'.Valid ∧ r'.remaining = rest ∧
      ipsRecord code maxSize patchedSize offset r =
        (ipsGrowToFit patchedSize maxSize offset content.expand.length >>= fun n =>
          write offset content.expand >>= fun _ => pure (n, r')) := by
  rw [ipsRecord]
  cases content with
  | data bytes hne hlt =>
    rw [IpsContent.bytes, List.append_assoc] at hremaining
    obtain ⟨r₁, hread, hr₁, hrem₁⟩ := patchFileRead_append 0 hr hremaining
    obtain ⟨r₂, hread₂, hr₂, hrem₂⟩ := patchFileRead_append (code + offset) hr₁ hrem₁
    have hpos := List.length_pos_iff.mpr hne
    refine ⟨r₂, hr₂, hrem₂, ?_⟩
    rw [show patchFileRead 0 2 r = _ from hread, be16Bytes]
    dsimp only
    rw [be16_bytes hlt, if_neg hpos.ne', hread₂]
    rfl
  | run count value hlt =>
    rw [IpsContent.bytes, List.append_assoc] at hremaining
    obtain ⟨r₁, hread, hr₁, hrem₁⟩ := patchFileRead_append 0 hr hremaining
    obtain ⟨r₂, hread₂, hr₂, hrem₂⟩ := patchFileRead_append 0 hr₁ hrem₁
    refine ⟨r₂, hr₂, hrem₂, ?_⟩
    rw [show patchFileRead 0 2 r = _ from hread, be16Bytes]
    dsimp only
    rw [be16_bytes (by decide), if_pos rfl, show patchFileRead 0 3 r₁ = _ from hread₂, be16Bytes]
    dsimp only [List.cons_append, List.nil_append]
    rw [be16_bytes hlt, IpsContent.expand, List.length_replicate]
    rfl

theorem IpsPatch.within_cons {record : IpsRecord} {records : List IpsRecord}
    {size : Option {n : ℕ // n < 2 ^ 24}} : (IpsPatch.mk (record :: records) size).Within maxSize ↔
      record.Within maxSize ∧ (IpsPatch.mk records size).Within maxSize := by
  rw [Within, Within, List.forall_mem_cons, and_assoc]

theorem IpsPatch.apply_cons (record : IpsRecord) (records : List IpsRecord)
    (size : Option {n : ℕ // n < 2 ^ 24}) (image : List UInt8) :
    (IpsPatch.mk (record :: records) size).apply image =
      (IpsPatch.mk records size).apply (record.apply image) := by
  cases size <;> rfl

theorem ipsTrailer_result {size : Option {n : ℕ // n < 2 ^ 24}} (hr : r.Valid)
    (hb : b.length = maxSize) (hp : patchedSize ≤ maxSize)
    (hremaining : r.remaining = (IpsPatch.mk [] size).trailer) (h : ∀ n ∈ size, n.val ≤ maxSize) :
    ∃ n b', result (ipsTrailer maxSize patchedSize r) b = (.ok n, b') ∧ b'.length = maxSize ∧
      n ≤ maxSize ∧ b'.take n = (IpsPatch.mk [] size).apply (b.take patchedSize) := by
  subst hb
  rw [ipsTrailer, readTrailer_eq 4 hr]
  rcases size with _ | ⟨n, hn⟩
  · rw [show r.remaining = [] from hremaining]
    exact ⟨patchedSize, b, rfl, rfl, hp, rfl⟩
  · have hmax : n ≤ b.length := h _ rfl
    rw [show r.remaining = be24Bytes n from hremaining, be24Bytes]
    dsimp only [List.take]
    rw [be24_bytes hn, if_neg (Nat.not_lt.mpr hmax)]
    rw [show IpsPatch.apply _ (b.take patchedSize) = resize 0 (b.take patchedSize) n from rfl,
      resize, List.length_take_of_le hp, List.take_take]
    by_cases hcut : n < patchedSize
    · have hcount : n + (List.replicate (patchedSize - n) (0 : UInt8)).length ≤ b.length := by
        rw [List.length_replicate]
        omega
      rw [if_pos hcut, Nat.sub_eq_zero_of_le hcut.le, List.replicate_zero, List.append_nil,
        Nat.min_eq_left hcut.le]
      refine ⟨n, _, result_bind_ok (result_write hcount) _, length_splice hcount, hmax, ?_⟩
      rw [splice, List.append_assoc, List.take_left' (List.length_take_of_le hmax)]
    · have hle := Nat.not_lt.mp hcut
      have hcount : patchedSize + (List.replicate (n - patchedSize) (0 : UInt8)).length ≤ b.length := by
        rw [List.length_replicate]
        omega
      rw [if_neg hcut, Nat.min_eq_right hle, ← take_fill hp, Nat.max_eq_right hle]
      exact ⟨n, _, result_bind_ok (result_write hcount) _, length_splice hcount, hmax, rfl⟩

theorem ipsTrailer_over {n : {n : ℕ // n < 2 ^ 24}} (hr : r.Valid)
    (hremaining : r.remaining = (IpsPatch.mk [] (some n)).trailer) (h : maxSize < n.val) :
    ipsTrailer maxSize patchedSize r = fail := by
  rw [ipsTrailer, readTrailer_eq 4 hr, show r.remaining = be24Bytes n from hremaining, be24Bytes]
  dsimp only [List.take]
  rw [be24_bytes n.2, if_pos h]

theorem ipsRecords_nil (fuel : ℕ) {size : Option {n : ℕ // n < 2 ^ 24}} (hr : r.Valid)
    (hremaining : r.remaining = (IpsPatch.mk [] size).body) :
    ∃ r', r'.Valid ∧ r'.remaining = (IpsPatch.mk [] size).trailer ∧
      ipsRecords code maxSize (fuel + 1) patchedSize r = ipsTrailer maxSize patchedSize r' := by
  replace hremaining : r.remaining = ipsEof ++ (IpsPatch.mk [] size).trailer := hremaining
  obtain ⟨r₁, hread, hr₁, hrem₁⟩ := patchFileRead_append 0 hr hremaining
  refine ⟨r₁, hr₁, hrem₁, ?_⟩
  rw [ipsRecords, show patchFileRead 0 3 r = _ from hread, ipsEof]
  rfl

theorem ipsRecords_cons (fuel : ℕ) {record : IpsRecord} (hr : r.Valid)
    (hremaining : r.remaining = record.bytes ++ rest) :
    ∃ r', r'.Valid ∧ r'.remaining = record.content.bytes ++ rest ∧
      ipsRecords code maxSize (fuel + 1) patchedSize r =
        (ipsRecord code maxSize patchedSize record.offset r' >>= fun res =>
          ipsRecords code maxSize fuel res.1 res.2) := by
  rw [IpsRecord.bytes, List.append_assoc] at hremaining
  obtain ⟨r₁, hread, hr₁, hrem₁⟩ := patchFileRead_append 0 hr hremaining
  refine ⟨r₁, hr₁, hrem₁, ?_⟩
  rw [ipsRecords, show patchFileRead 0 3 r = _ from hread, be24Bytes]
  dsimp only
  rw [be24_bytes record.offset_lt]
  exact if_neg record.offset_ne

theorem ipsRecords_result {records : List IpsRecord} {size : Option {n : ℕ // n < 2 ^ 24}}
    {fuel : ℕ} (hfuel : records.length < fuel) (hr : r.Valid) (hb : b.length = maxSize)
    (hp : patchedSize ≤ maxSize) (hremaining : r.remaining = (IpsPatch.mk records size).body)
    (h : (IpsPatch.mk records size).Within maxSize) :
    ∃ n b', result (ipsRecords code maxSize fuel patchedSize r) b = (.ok n, b') ∧
      b'.length = maxSize ∧ n ≤ maxSize ∧
      b'.take n = (IpsPatch.mk records size).apply (b.take patchedSize) := by
  induction records generalizing fuel patchedSize r b with
  | nil =>
    obtain ⟨fuel, rfl⟩ := Nat.exists_eq_succ_of_ne_zero (Nat.ne_zero_of_lt hfuel)
    obtain ⟨r₁, hr₁, hrem₁, hrun⟩ := ipsRecords_nil fuel hr hremaining
    rw [hrun]
    exact ipsTrailer_result hr₁ hb hp hrem₁ h.2
  | cons record records ih =>
    obtain ⟨fuel, rfl⟩ := Nat.exists_eq_succ_of_ne_zero (Nat.ne_zero_of_lt hfuel)
    rw [IpsPatch.body_cons] at hremaining
    obtain ⟨hrecord, hrecords⟩ := IpsPatch.within_cons.mp h
    obtain ⟨r₁, hr₁, hrem₁, hrun⟩ := ipsRecords_cons fuel hr hremaining
    obtain ⟨r₂, hr₂, hrem₂, hstep⟩ := ipsRecord_eq hr₁ record.content hrem₁
    obtain ⟨n, b', hgrow, hb', hn, himage⟩ := ipsGrowToFit_result hb hp hrecord
    have hwrite := result_write (hb' ▸ hrecord)
    rw [hrun, hstep, IpsPatch.apply_cons, IpsRecord.apply, ← himage]
    rw [result_bind_ok ((result_bind_ok hgrow _).trans (result_bind_ok hwrite _))]
    exact ih (Nat.lt_of_succ_lt_succ hfuel) hr₂ ((length_splice (hb' ▸ hrecord)).trans hb') hn hrem₂
      hrecords

theorem ipsRecords_over {records : List IpsRecord} {size : Option {n : ℕ // n < 2 ^ 24}}
    (fuel : ℕ) (hr : r.Valid) (hb : b.length = maxSize)
    (hp : patchedSize ≤ maxSize) (hremaining : r.remaining = (IpsPatch.mk records size).body)
    (h : ¬ (IpsPatch.mk records size).Within maxSize) :
    (result (ipsRecords code maxSize fuel patchedSize r) b).1 = .error .failed := by
  induction records generalizing fuel patchedSize r b with
  | nil =>
    rcases fuel with _ | fuel
    · rfl
    obtain ⟨r₁, hr₁, hrem₁, hrun⟩ := ipsRecords_nil fuel hr hremaining
    rcases size with _ | n
    · exact absurd ⟨fun _ hmem => absurd hmem List.not_mem_nil, fun _ hmem => nomatch hmem⟩ h
    · have hover : maxSize < n.val := Nat.lt_of_not_le fun hle =>
        h ⟨fun _ hmem => absurd hmem List.not_mem_nil, fun _ hmem => Option.some.inj hmem ▸ hle⟩
      rw [hrun, ipsTrailer_over hr₁ hrem₁ hover, result_fail]
  | cons record records ih =>
    rcases fuel with _ | fuel
    · rfl
    rw [IpsPatch.body_cons] at hremaining
    obtain ⟨r₁, hr₁, hrem₁, hrun⟩ := ipsRecords_cons fuel hr hremaining
    obtain ⟨r₂, hr₂, hrem₂, hstep⟩ := ipsRecord_eq hr₁ record.content hrem₁
    rw [hrun, hstep]
    by_cases hrecord : record.Within maxSize
    · obtain ⟨n, b', hgrow, hb', hn, himage⟩ := ipsGrowToFit_result hb hp hrecord
      have hwrite := result_write (hb' ▸ hrecord)
      rw [result_bind_ok ((result_bind_ok hgrow _).trans (result_bind_ok hwrite _))]
      exact ih fuel hr₂ ((length_splice (hb' ▸ hrecord)).trans hb') hn hrem₂
        fun hrecords => h (IpsPatch.within_cons.mpr ⟨hrecord, hrecords⟩)
    · rw [ipsGrowToFit_over (Nat.lt_of_not_le hrecord)]
      rfl

theorem IpsPatch.records_length_lt (records : List IpsRecord)
    (size : Option {n : ℕ // n < 2 ^ 24}) :
    records.length < (IpsPatch.mk records size).body.length := by
  induction records with
  | nil => exact Nat.lt_of_lt_of_le (by decide : 0 < ipsEof.length) (by simp [body])
  | cons record records ih =>
    have hrecord : 0 < record.bytes.length := Nat.lt_of_lt_of_le (by decide : 0 < 3)
      (by simp [IpsRecord.bytes, be24Bytes])
    rw [body_cons, List.length_cons, List.length_append]
    omega

variable {codeSize : ℕ} {content : List UInt8}

theorem ipsPatch_eq {patch : IpsPatch} (hcontent : content = patch.bytes) :
    ∃ r, r.Valid ∧ r.remaining = patch.body ∧
      ipsPatch code codeSize maxSize content = ipsRecords code maxSize content.length codeSize r := by
  obtain ⟨r, hread, hr, hrem⟩ :=
    patchFileRead_append 0 (PatchFileReader.start_valid content) hcontent
  refine ⟨r, hr, hrem, ?_⟩
  rw [ipsPatch, show patchFileRead 0 5 _ = _ from hread]
  exact if_neg (by simp)

/-- The files that are patches are applied, the others are rejected with the code size as it was, and
no byte at the maximum size or beyond of it is written to. -/
theorem applyCodeIpsPatch_applies (code : ℕ) {codeSize maxSize : ℕ} (content : List UInt8)
    {b : List UInt8} (hb : b.length = maxSize) (hsize : codeSize ≤ maxSize) :
    ∃ ret newSize b', result (applyCodeIpsPatch code codeSize maxSize (some content)) b =
        (.ok (ret, newSize), b') ∧ b'.length = maxSize ∧
      (ret = true ↔ ∃ patch : IpsPatch, content = patch.bytes ∧ patch.Within maxSize) ∧
      (ret = false → newSize = codeSize) ∧
      (ret = true → ∀ patch : IpsPatch, content = patch.bytes →
        b'.take newSize = patch.apply (b.take codeSize) ∧
        newSize = (patch.apply (b.take codeSize)).length) := by
  have hpatch : Safe maxSize (ipsPatch code codeSize maxSize content) _ :=
    ipsPatch_safe content hsize
  obtain ⟨hlen, hsafe⟩ := hpatch b hb
  have hover : ∀ patch : IpsPatch, content = patch.bytes → ¬ patch.Within maxSize →
      (result (ipsPatch code codeSize maxSize content) b).1 = .error .failed := by
    intro patch hcontent hwithin
    obtain ⟨r, hr, hrem, hrun⟩ := ipsPatch_eq hcontent
    rw [hrun]
    exact ipsRecords_over _ hr hb hsize hrem hwithin
  have hgives : ∀ patch : IpsPatch, content = patch.bytes → patch.Within maxSize →
      ∃ n b', result (ipsPatch code codeSize maxSize content) b = (.ok n, b') ∧
        b'.length = maxSize ∧ n ≤ maxSize ∧ b'.take n = patch.apply (b.take codeSize) := by
    intro patch hcontent hwithin
    obtain ⟨r, hr, hrem, hrun⟩ := ipsPatch_eq hcontent
    have hfuel : patch.records.length < content.length := by
      rw [hcontent, IpsPatch.bytes, List.length_append]
      exact Nat.lt_of_lt_of_le (IpsPatch.records_length_lt _ patch.size) (Nat.le_add_left _ _)
    rw [hrun]
    exact ipsRecords_result hfuel hr hb hsize hrem hwithin
  rw [applyCodeIpsPatch, result_bind, result_attempt]
  rcases hresult : result (ipsPatch code codeSize maxSize content) b with ⟨e | n, b'⟩
  · rw [hresult] at hlen hsafe
    obtain rfl : e = .failed := hsafe
    refine ⟨false, codeSize, b', rfl, hlen, ?_, fun _ => rfl, fun h => absurd h Bool.false_ne_true⟩
    refine ⟨fun h => absurd h Bool.false_ne_true, fun ⟨patch, hcontent, hwithin⟩ => ?_⟩
    obtain ⟨n, b'', hrun, -⟩ := hgives patch hcontent hwithin
    rw [hresult] at hrun
    exact absurd (congrArg Prod.fst hrun) (by simp)
  · rw [hresult] at hlen hsafe
    have hwithin : ∀ patch : IpsPatch, content = patch.bytes → patch.Within maxSize := by
      intro patch hcontent
      by_contra hnot
      have := hover patch hcontent hnot
      rw [hresult] at this
      exact absurd this (by simp)
    refine ⟨true, n, b', rfl, hlen, ⟨fun _ => ?_, fun _ => rfl⟩,
      fun h => absurd h Bool.true_eq_false_eq_False, fun _ patch hcontent => ?_⟩
    · obtain ⟨patch, hcontent⟩ := hsafe
      exact ⟨patch, hcontent, hwithin patch hcontent⟩
    · obtain ⟨m, b'', hrun, hb'', hm, himage⟩ := hgives patch hcontent (hwithin patch hcontent)
      rw [hresult] at hrun
      obtain ⟨hn, rfl⟩ := Prod.mk.inj hrun
      obtain rfl := Except.ok.inj hn
      exact ⟨himage, himage ▸ (List.length_take_of_le (hb''.symm ▸ hm)).symm⟩

/-- A record beyond of the end: the gap is filled. -/
theorem applyCodeIpsPatch_applies_gap : ∃ ret newSize b',
    result (applyCodeIpsPatch 0 1 4 (some ([0x50, 0x41, 0x54, 0x43, 0x48] ++
      [0x00, 0x00, 0x02, 0x00, 0x01, 0xAA] ++ [0x45, 0x4F, 0x46]))) [7, 7, 7, 7] =
        (.ok (ret, newSize), b') ∧ b'.length = 4 ∧ (ret = false → newSize = 1) := by
  obtain ⟨ret, newSize, b', hrun, hlen, -, hfail, -⟩ := applyCodeIpsPatch_applies 0
    ([0x50, 0x41, 0x54, 0x43, 0x48] ++ [0x00, 0x00, 0x02, 0x00, 0x01, 0xAA] ++ [0x45, 0x4F, 0x46])
    (show [7, 7, 7, 7].length = 4 from rfl) (by decide : 1 ≤ 4)
  exact ⟨ret, newSize, b', hrun, hlen, hfail⟩

end Presence3DS.Loader
