import Mathlib.Algebra.Order.Ring.Int
import Mathlib.Algebra.Order.Ring.Nat
import Mathlib.Data.List.TakeWhile
import Mathlib.Order.Fin.Basic

/-! The debugger's stub answers `qXfer` requests (`xfer.c`, `net.c`): a stream is sent in chunks,
and two of the streams are kept in a cache from the first chunk to the last. -/

namespace Presence3DS.Gdb.Xfer

/-! ## One chunk -/

/-- What a `u32` can count; a cache that is not valid has the empty text. -/
structure Text where
  bytes : List UInt8
  fits : bytes.length < 0x100000000

def Text.size (t : Text) : UInt32 := UInt32.ofNat t.bytes.length

def Text.none : Text := ⟨[], Nat.zero_lt_succ _⟩

/-- `GDB_BUF_LEN` -/
def bufLen : UInt32 := 1024

/-- The data of a packet, behind `l` or `m`, and where it has been copied from. -/
structure Reply where
  last : Bool
  offset : UInt32
  length : UInt32
  bytes : List UInt8

/-- An address that is not in the data is given by its distance from their start. -/
def byteAt (outside : UInt32 → UInt8) (t : Text) (i : UInt32) : UInt8 :=
  t.bytes[i.toNat]?.getD (outside i)

def copied (outside : UInt32 → UInt8) (last : Bool) (t : Text) (offset length : UInt32) : Reply :=
  ⟨last, offset, length,
    (List.range length.toNat).map fun i => byteAt outside t (offset + UInt32.ofNat i)⟩

def clamped (length : UInt32) : UInt32 := if bufLen - 1 < length then bufLen - 1 else length

/-- `GDB_SendStreamData` -/
def sendStreamData (outside : UInt32 → UInt8) (streamData : Text) (offset length : UInt32)
    (forceEmptyLast : Bool) : Reply :=
  let totalSize := streamData.size
  if forceEmptyLast = true ∧ totalSize ≤ offset ∨
      forceEmptyLast = false ∧ totalSize ≤ offset + clamped length then
    copied outside true streamData offset (if totalSize ≤ offset then 0 else totalSize - offset)
  else copied outside false streamData offset (clamped length)

/-! ## The handlers -/

inductive Stream where
  | targetXml
  | osDataXml
  | cfwVersion
  | memory
  | processes
  deriving DecidableEq

/-- What does not change while the stub runs. -/
structure Documents where
  targetXml : Text
  osDataXml : Text
  cfwVersionXml : Text

/-- `memoryOsInfoXmlData`, `processesOsInfoXmlData` -/
structure Caches where
  memory : Text
  processes : Text

/-- A request, and what would be written into the caches at its time. -/
structure Request where
  stream : Stream
  write : Bool
  offset : UInt32
  length : UInt32
  memoryXml : Text
  processesXml : Text

inductive Answer where
  | empty
  | unsupported
  | data (reply : Reply)

/-- What the handlers of the two cached streams have in common. -/
def sendCached (outside : UInt32 → UInt8) (cache current : Text) (offset length : UInt32) :
    Reply × Text :=
  let data := if cache.bytes = [] then current else cache
  (sendStreamData outside data offset length false,
    if data.size ≤ offset + length then Text.none else data)

section
variable (docs : Documents) (outside : UInt32 → UInt8)

/-- `GDB_XFER_HANDLER(Features)` for `target.xml` -/
def features (write : Bool) (offset length : UInt32) : Answer :=
  if write then .empty else .data (sendStreamData outside docs.targetXml offset length false)

/-- `GDB_XFER_HANDLER(OsData)` without an annex -/
def osData (write : Bool) (offset length : UInt32) : Answer :=
  if write then .unsupported else .data (sendStreamData outside docs.osDataXml offset length false)

/-- `GDB_XFER_OSDATA_HANDLER(CfwVersion)` -/
def osDataCfwVersion (write : Bool) (offset length : UInt32) : Answer :=
  if write then .unsupported
  else .data (sendStreamData outside docs.cfwVersionXml offset length false)

/-- `GDB_XFER_OSDATA_HANDLER(Memory)` -/
def osDataMemory (c : Caches) (r : Request) : Answer × Caches :=
  if r.write then (.unsupported, c)
  else
    let (reply, cache) := sendCached outside c.memory r.memoryXml r.offset r.length
    (.data reply, { c with memory := cache })

/-- `GDB_XFER_OSDATA_HANDLER(Processes)` -/
def osDataProcesses (c : Caches) (r : Request) : Answer × Caches :=
  if r.write then (.unsupported, c)
  else
    let (reply, cache) := sendCached outside c.processes r.processesXml r.offset r.length
    (.data reply, { c with processes := cache })

/-- `GDB_HandleQueryXfer`, once the request has been parsed. -/
def queryXfer (c : Caches) (r : Request) : Answer × Caches :=
  match r.stream with
  | .targetXml => (features docs outside r.write r.offset r.length, c)
  | .osDataXml => (osData docs outside r.write r.offset r.length, c)
  | .cfwVersion => (osDataCfwVersion docs outside r.write r.offset r.length, c)
  | .memory => osDataMemory outside c r
  | .processes => osDataProcesses outside c r

end

/-! ## What is sent of a stream -/

/-- The content of a stream before a request: of a document, or of a valid cache. -/
def content (docs : Documents) (c : Caches) : Stream → Text
  | .targetXml => docs.targetXml
  | .osDataXml => docs.osDataXml
  | .cfwVersion => docs.cfwVersionXml
  | .memory => c.memory
  | .processes => c.processes

def Stream.cached : Stream → Bool
  | .memory => true
  | .processes => true
  | _ => false

/-- What the stream holds at the time of the request. -/
def current (docs : Documents) (k : Stream) (r : Request) : Text :=
  match k with
  | .targetXml => docs.targetXml
  | .osDataXml => docs.osDataXml
  | .cfwVersion => docs.cfwVersionXml
  | .memory => r.memoryXml
  | .processes => r.processesXml

/-- The text that the request is answered from. -/
def working (docs : Documents) (c : Caches) (r : Request) : Text :=
  if (content docs c r.stream).bytes = [] then current docs r.stream r else content docs c r.stream

/-- The reply has the bytes from the offset on, as many as were asked for and a packet can hold, it
is the last one exactly where they reach the end, and nothing else has been read. -/
structure Serves (t : Text) (offset length : UInt32) (reply : Reply) : Prop where
  bytes : reply.bytes = (t.bytes.drop offset.toNat).take (clamped length).toNat
  last : reply.last = true ↔ t.bytes.length ≤ offset.toNat + (clamped length).toNat
  inside : reply.length = 0 ∨ reply.offset.toNat + reply.length.toNat ≤ t.bytes.length

/-! A transfer sends one snapshot of its stream, as long as no sum of an offset and a length wraps
into the data and no cache is dropped before its end has been sent. -/

/-! ## One chunk -/

section
variable {t : Text} {outside : UInt32 → UInt8} {offset length : UInt32} {last : Bool}

@[simp] theorem Text.toNat_size (t : Text) : t.size.toNat = t.bytes.length := by
  rw [Text.size, UInt32.toNat_ofNat']
  exact Nat.mod_eq_of_lt t.fits

theorem size_le_iff {i : UInt32} : t.size ≤ i ↔ t.bytes.length ≤ i.toNat := by
  rw [UInt32.le_iff_toNat_le, Text.toNat_size]

theorem toNat_clamped (length : UInt32) : (clamped length).toNat = min length.toNat 1023 := by
  have hmax : (bufLen - 1).toNat = 1023 := by decide
  unfold clamped
  split_ifs with h
  · rw [UInt32.lt_iff_toNat_lt, hmax] at h
    rw [hmax]
    omega
  · rw [UInt32.lt_iff_toNat_lt, hmax] at h
    omega

theorem copied_bytes (h : offset.toNat + length.toNat ≤ t.bytes.length) :
    (copied outside last t offset length).bytes =
      (t.bytes.drop offset.toNat).take length.toNat := by
  have hfits := t.fits
  have hbytes : (copied outside last t offset length).bytes =
      (List.range length.toNat).map fun i => byteAt outside t (offset + UInt32.ofNat i) := rfl
  rw [hbytes]
  apply List.ext_getElem
  · rw [List.length_map, List.length_range, List.length_take, List.length_drop]
    omega
  · intro i hi hi'
    rw [List.length_map, List.length_range] at hi
    have haddr : (offset + UInt32.ofNat i).toNat = offset.toNat + i := by
      rw [UInt32.toNat_add, UInt32.toNat_ofNat']
      omega
    rw [List.getElem_map, List.getElem_range, List.getElem_take, List.getElem_drop, byteAt, haddr,
      List.getElem?_eq_getElem (by omega), Option.getD_some]

/-- The sum does not wrap, or wraps to one that is not in the data. -/
def NoWrap (t : Text) (offset length : UInt32) : Prop :=
  offset.toNat + (clamped length).toNat < 0x100000000 ∨ t.size ≤ offset + clamped length

theorem sendStreamData_serves_iff : Serves t offset length
    (sendStreamData outside t offset length false) ↔ NoWrap t offset length := by
  have hfits := t.fits
  have hoffset := offset.toNat_lt
  have hclamp : (clamped length).toNat ≤ 1023 := toNat_clamped length ▸ Nat.min_le_right _ _
  have hsum : t.size ≤ offset + clamped length ↔
      t.bytes.length ≤ (offset.toNat + (clamped length).toNat) % 0x100000000 := by
    rw [size_le_iff, UInt32.toNat_add]
  unfold sendStreamData NoWrap
  simp only [Bool.false_eq_true, false_and, true_and, false_or]
  split_ifs with hlast hpast
  · -- The offset is not in the data.
    have hlen := size_le_iff.mp hpast
    refine iff_of_true ⟨?_, iff_of_true rfl (by omega), Or.inl rfl⟩ (Or.inr hlast)
    rw [List.drop_eq_nil_of_le hlen, List.take_nil]
    rfl
  · have hlen := hsum.mp hlast
    have hin : offset.toNat < t.bytes.length := Nat.lt_of_not_le fun h => hpast (size_le_iff.mpr h)
    have hrest : (t.size - offset).toNat = t.bytes.length - offset.toNat := by
      rw [UInt32.toNat_sub_of_le, Text.toNat_size]
      rw [UInt32.le_iff_toNat_le, Text.toNat_size]
      exact hin.le
    refine iff_of_true ⟨?_, iff_of_true rfl (by omega), Or.inr ?_⟩ (Or.inr hlast)
    · rw [copied_bytes (by omega), hrest, List.take_of_length_le, List.take_of_length_le]
      · rw [List.length_drop]
        omega
      · rw [List.length_drop]
    · show offset.toNat + (t.size - offset).toNat ≤ _
      omega
  · have hlen : ¬ t.bytes.length ≤ _ := fun h => hlast (hsum.mpr h)
    rcases Nat.lt_or_ge (offset.toNat + (clamped length).toNat) 0x100000000 with hlt | hge
    · have hin : offset.toNat + (clamped length).toNat ≤ t.bytes.length := by omega
      refine iff_of_true ⟨copied_bytes hin, ?_, Or.inr hin⟩ (Or.inl hlt)
      exact iff_of_false Bool.false_ne_true (by omega)
    · refine iff_of_false (fun h => ?_) fun h => h.elim (Nat.not_lt.mpr hge) hlast
      have hread : (clamped length).toNat = 0 ∨
          offset.toNat + (clamped length).toNat ≤ t.bytes.length :=
        h.inside.imp_left (congrArg UInt32.toNat)
      omega

end

/-! ## Requests -/

section
variable (docs : Documents) (outside : UInt32 → UInt8)

/-- Whatever the length asked for, the cache is dropped with the last chunk only. -/
def Meets (c : Caches) (r : Request) : Prop :=
  r.write = false → NoWrap (working docs c r) r.offset r.length ∧
    (r.stream.cached = true → (working docs c r).size ≤ r.offset + r.length →
      (working docs c r).size ≤ r.offset + clamped r.length)

def AllMeet : Caches → List Request → Prop
  | _, [] => True
  | c, r :: rs => Meets docs c r ∧ AllMeet (queryXfer docs outside c r).2 rs

/-- The requests for a stream with their replies, up to the one with the end marker. -/
def replies (k : Stream) : Caches → List Request → List (Request × Reply)
  | _, [] => []
  | c, r :: rs =>
    let rest := replies k (queryXfer docs outside c r).2 rs
    match (queryXfer docs outside c r).1 with
    | .data reply =>
      if r.stream = k then (r, reply) :: (if reply.last then [] else rest) else rest
    | _ => rest

end

section
variable {docs : Documents} {outside : UInt32 → UInt8} {c : Caches} {r : Request} {k : Stream}

theorem current_of_static (h : k.cached = false) (r : Request) :
    current docs k r = content docs c k := by
  cases k with
  | targetXml => rfl
  | osDataXml => rfl
  | cfwVersion => rfl
  | memory => cases h
  | processes => cases h

theorem working_of_static (h : r.stream.cached = false) :
    working docs c r = content docs c r.stream := by
  rw [working, current_of_static (c := c) h r, ite_self]

theorem queryXfer_read (h : r.write = false) : (queryXfer docs outside c r).1 =
    .data (sendStreamData outside (working docs c r) r.offset r.length false) := by
  obtain ⟨stream, write, offset, length, memoryXml, processesXml⟩ := r
  cases (show write = false from h)
  cases stream with
  | targetXml => rw [working_of_static rfl]; rfl
  | osDataXml => rw [working_of_static rfl]; rfl
  | cfwVersion => rw [working_of_static rfl]; rfl
  | memory => rfl
  | processes => rfl

theorem queryXfer_write (h : r.write = true) : (queryXfer docs outside c r).2 = c ∧
    ∀ reply, (queryXfer docs outside c r).1 ≠ .data reply := by
  obtain ⟨stream, write, offset, length, memoryXml, processesXml⟩ := r
  cases (show write = true from h)
  cases stream with
  | targetXml => exact ⟨rfl, fun _ => Answer.noConfusion⟩
  | osDataXml => exact ⟨rfl, fun _ => Answer.noConfusion⟩
  | cfwVersion => exact ⟨rfl, fun _ => Answer.noConfusion⟩
  | memory => exact ⟨rfl, fun _ => Answer.noConfusion⟩
  | processes => exact ⟨rfl, fun _ => Answer.noConfusion⟩

theorem content_other (h : r.stream ≠ k) :
    content docs (queryXfer docs outside c r).2 k = content docs c k := by
  obtain ⟨stream, _ | _, offset, length, memoryXml, processesXml⟩ := r
  all_goals
    cases stream
    all_goals
      cases k
      all_goals first | rfl | exact absurd rfl h

theorem content_read (h : r.write = false) (hcached : r.stream.cached = true) :
    content docs (queryXfer docs outside c r).2 r.stream =
      if (working docs c r).size ≤ r.offset + r.length then Text.none else working docs c r := by
  obtain ⟨stream, write, offset, length, memoryXml, processesXml⟩ := r
  cases (show write = false from h)
  cases stream with
  | memory => rfl
  | processes => rfl
  | targetXml => cases hcached
  | osDataXml => cases hcached
  | cfwVersion => cases hcached

theorem content_static (h : k.cached = false) :
    content docs (queryXfer docs outside c r).2 k = content docs c k := by
  rw [← current_of_static (c := c) h r, ← current_of_static h r]

theorem content_unread (h : ¬ (r.stream = k ∧ r.write = false)) :
    content docs (queryXfer docs outside c r).2 k = content docs c k := by
  by_cases hstream : r.stream = k
  · have hwrite : r.write = true := Bool.not_eq_false _ ▸ fun hread => h ⟨hstream, hread⟩
    rw [(queryXfer_write hwrite).1]
  · exact content_other hstream

/-! ## Transfers -/

theorem Meets.serves (h : Meets docs c r) (hread : r.write = false) :
    Serves (working docs c r) r.offset r.length
      (sendStreamData outside (working docs c r) r.offset r.length false) :=
  sendStreamData_serves_iff.mpr (h hread).1

theorem Meets.content_eq (h : Meets docs c r) (hread : r.write = false)
    (hlast : (sendStreamData outside (working docs c r) r.offset r.length false).last = false) :
    content docs (queryXfer docs outside c r).2 r.stream = working docs c r := by
  cases hcached : r.stream.cached with
  | false => rw [content_static hcached, working_of_static hcached]
  | true =>
    rw [content_read hread hcached, if_neg]
    intro hsize
    have hend := size_le_iff.mp ((h hread).2 hcached hsize)
    rw [UInt32.toNat_add] at hend
    have hle := hend.trans (Nat.mod_le _ _)
    rw [(h.serves hread).last.mpr hle] at hlast
    cases hlast

theorem replies_cons (r : Request) (rs : List Request) : replies docs outside k c (r :: rs) =
    if r.stream = k ∧ r.write = false then
      (r, sendStreamData outside (working docs c r) r.offset r.length false) ::
        if (sendStreamData outside (working docs c r) r.offset r.length false).last then []
        else replies docs outside k (queryXfer docs outside c r).2 rs
    else replies docs outside k (queryXfer docs outside c r).2 rs := by
  rw [replies]
  cases hwrite : r.write with
  | false =>
    rw [queryXfer_read hwrite]
    simp only [and_true]
  | true =>
    rw [if_neg fun h => Bool.false_ne_true h.2.symm]
    have hanswer : ∀ reply, (queryXfer docs outside c r).1 ≠ .data reply :=
      (queryXfer_write hwrite).2
    cases hdata : (queryXfer docs outside c r).1 with
    | data reply => exact absurd hdata (hanswer reply)
    | empty => rfl
    | unsupported => rfl

theorem replies_of_valid {rs : List Request} (h : AllMeet docs outside c rs)
    (hvalid : k.cached = true → (content docs c k).bytes ≠ []) :
    ∀ p ∈ replies docs outside k c rs, Serves (content docs c k) p.1.offset p.1.length p.2 := by
  induction rs generalizing c with
  | nil => exact fun p hp => absurd hp List.not_mem_nil
  | cons r rs ih =>
    obtain ⟨hmeets, hrest⟩ := h
    rw [replies_cons]
    by_cases hread : r.stream = k ∧ r.write = false
    · obtain ⟨rfl, hwrite⟩ := hread
      have hworking : working docs c r = content docs c r.stream := by
        cases hcached : r.stream.cached with
        | false => exact working_of_static hcached
        | true => exact if_neg (hvalid hcached)
      rw [if_pos ⟨rfl, hwrite⟩]
      refine List.forall_mem_cons.mpr ⟨hworking ▸ hmeets.serves hwrite, ?_⟩
      split_ifs with hlast
      · exact fun p hp => absurd hp List.not_mem_nil
      · have hkept : content docs (queryXfer docs outside c r).2 r.stream = working docs c r :=
          hmeets.content_eq hwrite (Bool.eq_false_iff.mpr hlast)
        rw [hworking] at hkept
        have hlater := ih hrest fun hcached => hkept ▸ hvalid hcached
        rwa [hkept] at hlater
    · rw [if_neg hread]
      have hsame : content docs (queryXfer docs outside c r).2 k = content docs c k :=
        content_unread hread
      have hlater := ih hrest fun hcached => hsame ▸ hvalid hcached
      rwa [hsame] at hlater

/-- The replies up to the end marker are all from the document, from what the cache has held, or
from what the stream has been at one of the requests. -/
theorem replies_of_snapshot {rs : List Request} (h : AllMeet docs outside c rs) :
    ∃ S : Text, (S = content docs c k ∨ ∃ r ∈ rs, S = current docs k r) ∧
      ∀ p ∈ replies docs outside k c rs, Serves S p.1.offset p.1.length p.2 := by
  by_cases hvalid : k.cached = true → (content docs c k).bytes ≠ []
  · exact ⟨_, Or.inl rfl, replies_of_valid h hvalid⟩
  obtain ⟨hcached, hempty⟩ := Classical.not_imp.mp hvalid
  rw [not_not] at hempty
  induction rs generalizing c with
  | nil => exact ⟨_, Or.inl rfl, fun p hp => absurd hp List.not_mem_nil⟩
  | cons r rs ih =>
    obtain ⟨hmeets, hrest⟩ := h
    by_cases hread : r.stream = k ∧ r.write = false
    · -- The first chunk fills the cache.
      obtain ⟨rfl, hwrite⟩ := hread
      have hworking : working docs c r = current docs r.stream r := if_pos hempty
      refine ⟨_, Or.inr ⟨r, List.mem_cons_self, rfl⟩, ?_⟩
      rw [replies_cons, if_pos ⟨rfl, hwrite⟩]
      refine List.forall_mem_cons.mpr ⟨hworking ▸ hmeets.serves hwrite, ?_⟩
      split_ifs with hlast
      · exact fun p hp => absurd hp List.not_mem_nil
      · have hkept : content docs (queryXfer docs outside c r).2 r.stream = working docs c r :=
          hmeets.content_eq hwrite (Bool.eq_false_iff.mpr hlast)
        rw [hworking] at hkept
        have hfilled : (current docs r.stream r).bytes ≠ [] := by
          intro hnil
          refine hlast ((hmeets.serves hwrite).last.mpr ?_)
          rw [hworking, hnil]
          exact Nat.zero_le _
        have hlater := replies_of_valid hrest fun _ => hkept ▸ hfilled
        rwa [hkept] at hlater
    · have hsame : content docs (queryXfer docs outside c r).2 k = content docs c k :=
        content_unread hread
      rw [← hsame] at hempty
      obtain ⟨S, hS, hserves⟩ := ih hrest (fun h => h hcached hempty) hempty
      refine ⟨S, ?_, ?_⟩
      · rw [← hsame]
        exact hS.imp_right fun ⟨r', hr', heq⟩ => ⟨r', List.mem_cons_of_mem r hr', heq⟩
      · rwa [replies_cons, if_neg hread]

end

/-- Each request goes on where the data of the last reply have ended. -/
def Follows : ℕ → List (Request × Reply) → Prop
  | _, [] => True
  | o, p :: ps => p.1.offset.toNat = o ∧ Follows (o + p.2.bytes.length) ps

def chunks (ps : List (Request × Reply)) : List UInt8 := ps.flatMap fun p => p.2.bytes

theorem chunks_eq {S : Text} {ps : List (Request × Reply)} {o : ℕ}
    (hserves : ∀ p ∈ ps, Serves S p.1.offset p.1.length p.2) (hfollows : Follows o ps) :
    chunks ps = (S.bytes.drop o).take (chunks ps).length ∧
      ((∃ p ∈ ps, p.2.last = true) → chunks ps = S.bytes.drop o) := by
  induction ps generalizing o with
  | nil =>
    refine ⟨rfl, ?_⟩
    rintro ⟨p, hp, -⟩
    exact absurd hp List.not_mem_nil
  | cons p ps ih =>
    obtain ⟨hp, hps⟩ := List.forall_mem_cons.mp hserves
    obtain ⟨rfl, hrest⟩ := hfollows
    obtain ⟨hpart, hwhole⟩ := ih hps hrest
    have hcons : chunks (p :: ps) = p.2.bytes ++ chunks ps := List.flatMap_cons
    have hhead : p.2.bytes = (S.bytes.drop p.1.offset.toNat).take p.2.bytes.length := by
      rw [hp.bytes, List.length_take, ← List.take_eq_take_min]
    have hsplit := List.take_append_drop p.2.bytes.length (S.bytes.drop p.1.offset.toNat)
    rw [← hhead, List.drop_drop] at hsplit
    rw [hcons]
    constructor
    · rw [List.length_append, List.take_add, ← hhead, List.drop_drop, ← hpart]
    · rintro ⟨q, hq, hlast⟩
      rcases List.mem_cons.mp hq with rfl | hq
      · -- Behind the end nothing is left.
        have hend : S.bytes.drop (q.1.offset.toNat + q.2.bytes.length) = [] := by
          rw [List.drop_eq_nil_iff, hp.bytes, List.length_take, List.length_drop]
          have := hp.last.mp hlast
          omega
        rw [hend, List.take_nil] at hpart
        rw [hend] at hsplit
        rw [hpart]
        exact hsplit
      · rw [hwhole ⟨q, hq, hlast⟩]
        exact hsplit

/-- Every reply up to the end marker is from one snapshot and reads nothing else, and chunks that go
on from each other make up the snapshot, with the end marker at its end. -/
theorem xfer_transfers (docs : Documents) (outside : UInt32 → UInt8) (k : Stream) {c : Caches}
    {rs : List Request} (h : AllMeet docs outside c rs) :
    ∃ S : Text, (S = content docs c k ∨ ∃ r ∈ rs, S = current docs k r) ∧
      (∀ p ∈ replies docs outside k c rs, Serves S p.1.offset p.1.length p.2) ∧
      (Follows 0 (replies docs outside k c rs) →
        chunks (replies docs outside k c rs) =
          S.bytes.take (chunks (replies docs outside k c rs)).length ∧
        ((∃ p ∈ replies docs outside k c rs, p.2.last = true) →
          chunks (replies docs outside k c rs) = S.bytes)) := by
  obtain ⟨S, hS, hserves⟩ := replies_of_snapshot (k := k) h
  exact ⟨S, hS, hserves, fun hfollows => chunks_eq hserves hfollows⟩

def letters (n : ℕ) (letter : UInt8) (h : n < 0x100000000) : Text :=
  ⟨List.replicate n letter, by rwa [List.length_replicate]⟩

def noDocuments : Documents := ⟨Text.none, Text.none, Text.none⟩

/-- A read of the list of processes, which is made of one letter at the time. -/
def readProcesses (offset length : UInt32) (letter : UInt8) : Request :=
  ⟨.processes, false, offset, length, Text.none, letters 1500 letter (by decide)⟩

/-- Two chunks, with a list that has changed in between. -/
theorem xfer_transfers_processes : ∃ S : Text,
    (S = Text.none ∨ ∃ r ∈ [readProcesses 0 1000 97, readProcesses 1000 1000 98],
      S = r.processesXml) ∧
    ∀ p ∈ replies noDocuments (fun _ => 0) .processes ⟨Text.none, Text.none⟩
        [readProcesses 0 1000 97, readProcesses 1000 1000 98],
      Serves S p.1.offset p.1.length p.2 := by
  have hmeet : AllMeet noDocuments (fun _ => 0) ⟨Text.none, Text.none⟩
      [readProcesses 0 1000 97, readProcesses 1000 1000 98] := by
    refine ⟨fun _ => ⟨Or.inl (by decide), fun _ => ?_⟩, fun _ => ⟨Or.inl (by decide), fun _ => ?_⟩,
      trivial⟩
    · decide +kernel
    · decide +kernel
  obtain ⟨S, hS, hserves, -⟩ := xfer_transfers noDocuments (fun _ => 0) .processes hmeet
  exact ⟨S, hS, hserves⟩

theorem Serves.first {t : Text} {offset length : UInt32} {reply : Reply} {b : UInt8}
    (h : Serves t offset length reply) (hb : reply.bytes.head? = some b) :
    t.bytes[offset.toNat]? = some b := by
  rw [h.bytes] at hb
  rcases hn : (clamped length).toNat with _ | n
  · rw [hn, List.take_zero] at hb
    cases hb
  · rwa [hn, List.head?_take, if_neg (Nat.succ_ne_zero n), List.head?_drop] at hb

/-- The first packet holds 1023 of the 1500 bytes, but more are asked for, and the cache is dropped;
and an offset and a length that wrap make the stub read in front of the data. -/
theorem xfer_dropped :
    (¬ ∀ (docs : Documents) (outside : UInt32 → UInt8) (k : Stream) (c : Caches)
      (rs : List Request), ∃ S : Text, (S = content docs c k ∨ ∃ r ∈ rs, S = current docs k r) ∧
        ∀ p ∈ replies docs outside k c rs, Serves S p.1.offset p.1.length p.2) ∧
    ¬ ∀ (outside : UInt32 → UInt8) (t : Text) (offset length : UInt32),
      (sendStreamData outside t offset length false).length = 0 ∨
        (sendStreamData outside t offset length false).offset.toNat +
          (sendStreamData outside t offset length false).length.toNat ≤ t.bytes.length := by
  constructor
  · intro h
    obtain ⟨S, hS, hserves⟩ := h noDocuments (fun _ => 0) .processes ⟨Text.none, Text.none⟩
      [readProcesses 0 0x1000 97, readProcesses 1023 0x1000 98]
    have hreplies : (replies noDocuments (fun _ => 0) .processes ⟨Text.none, Text.none⟩
        [readProcesses 0 0x1000 97, readProcesses 1023 0x1000 98]).map
          (fun p => (p.1.offset.toNat, p.2.bytes.head?)) = [(0, some 97), (1023, some 98)] := by
      decide +kernel
    generalize replies noDocuments (fun _ => 0) .processes ⟨Text.none, Text.none⟩
      [readProcesses 0 0x1000 97, readProcesses 1023 0x1000 98] = ps at hserves hreplies
    have hfirst (i : ℕ) (b : UInt8) (hmem : (i, some b) ∈ [(0, some 97), (1023, some 98)]) :
        S.bytes[i]? = some b := by
      rw [← hreplies] at hmem
      obtain ⟨p, hp, heq⟩ := List.mem_map.mp hmem
      obtain ⟨hoffset, hbytes⟩ := Prod.mk.inj heq
      exact hoffset ▸ (hserves p hp).first hbytes
    have h₀ := hfirst 0 97 List.mem_cons_self
    have h₁ := hfirst 1023 98 (List.mem_cons_of_mem _ List.mem_cons_self)
    rcases hS with rfl | ⟨r, hr, rfl⟩
    · cases h₀
    · rcases List.mem_cons.mp hr with rfl | hr
      · exact absurd h₁ (by decide +kernel)
      · cases List.mem_singleton.mp hr
        exact absurd h₀ (by decide +kernel)
  · intro h
    exact absurd (h (fun _ => 0) (letters 10 97 (by decide)) 0xFFFFFFFF 1) (by decide +kernel)

end Presence3DS.Gdb.Xfer
