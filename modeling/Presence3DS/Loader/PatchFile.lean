import Presence3DS.Lib.Buffer

/-! The reader of patch files (`patcher.c`): it buffers two sectors, and reads whole sectors directly
where the destination allows it. The file system gives what the file holds. -/

namespace Presence3DS.Loader

/-- An open file. -/
structure IFile where
  content : List UInt8
  pos : ℕ

/-- `IFile_Read`, whose `total` is the number of the bytes. -/
def IFile.read (file : IFile) (len : ℕ) : List UInt8 × IFile :=
  let data := (file.content.drop file.pos).take len
  (data, { file with pos := file.pos + data.length })

def IFile.unread (file : IFile) : List UInt8 := file.content.drop file.pos

theorem IFile.read_eq (file : IFile) (len : ℕ) :
    (file.read len).1 = file.unread.take len ∧ (file.read len).2.unread = file.unread.drop len := by
  refine ⟨rfl, ?_⟩
  show file.content.drop (file.pos + (file.unread.take len).length) = _
  rw [← List.drop_drop, List.length_take]
  show file.unread.drop (min len file.unread.length) = _
  rcases Nat.le_total len file.unread.length with hle | hle
  · rw [Nat.min_eq_left hle]
  · rw [Nat.min_eq_right hle, List.drop_length, List.drop_eq_nil_of_le hle]

/-- Of the buffer, the `len` bytes that have been read. -/
structure PatchFileReader where
  file : IFile
  buf : List UInt8
  pos : ℕ
  eof : Bool

def patchSectorSize : ℕ := 0x200

def patchBufferSize : ℕ := 2 * patchSectorSize

namespace PatchFileReader

def start (content : List UInt8) : PatchFileReader := ⟨⟨content, 0⟩, [], 0, false⟩

/-- `patchFileReaderFill` -/
def fill (r : PatchFileReader) : Bool × PatchFileReader :=
  if r.eof then (false, { r with buf := [], pos := 0 })
  else
    let (data, file) := r.file.read patchBufferSize
    (data ≠ [], ⟨file, data, 0, data.length ≠ patchBufferSize⟩)

/-- The loop of `patchFileRead`: whether it has succeeded, and the bytes that have been written from
the address `out` on, also where it has not. -/
def readLoop : ℕ → ℕ → ℕ → PatchFileReader → Bool × List UInt8 × PatchFileReader
  | 0, _, len, r => (len = 0, [], r)
  | fuel + 1, out, len, r =>
    if len = 0 then (true, [], r)
    else if r.pos = r.buf.length ∧ r.eof = false ∧ patchSectorSize ≤ len ∧ out % 4 = 0 then
      let directLen := len / patchSectorSize * patchSectorSize
      let (data, file) := r.file.read directLen
      if data.length ≠ directLen then (false, data, { r with file := file })
      else
        let (ok, more, r) := readLoop fuel (out + directLen) (len - directLen) { r with file := file }
        (ok, data ++ more, r)
    else
      let (filled, r) := if r.pos = r.buf.length then r.fill else (true, r)
      if filled = false then (false, [], r)
      else
        let chunk := (r.buf.drop r.pos).take len
        let (ok, more, r) := readLoop fuel (out + chunk.length) (len - chunk.length)
          { r with pos := r.pos + chunk.length }
        (ok, chunk ++ more, r)

end PatchFileReader

def patchFileRead (out len : ℕ) (r : PatchFileReader) : Bool × List UInt8 × PatchFileReader :=
  r.readLoop len out len

namespace PatchFileReader

/-! ## What is read -/

/-- The bytes of the file that have not been used. -/
def remaining (r : PatchFileReader) : List UInt8 :=
  r.buf.drop r.pos ++ r.file.unread

structure Valid (r : PatchFileReader) : Prop where
  pos_le : r.pos ≤ r.buf.length
  eof : r.eof = true → r.file.unread = []

/-- A read gives the next bytes where there are enough of them, and fails otherwise. -/
structure Reads (len : ℕ) (r : PatchFileReader) (res : Bool × List UInt8 × PatchFileReader) :
    Prop where
  valid : res.2.2.Valid
  enough : len ≤ r.remaining.length → res.1 = true ∧ res.2.1 = r.remaining.take len ∧
    res.2.2.remaining = r.remaining.drop len
  short : r.remaining.length < len → res.1 = false ∧ res.2.1.length ≤ len

theorem start_valid (content : List UInt8) : (start content).Valid :=
  ⟨le_rfl, fun h => absurd h Bool.false_ne_true⟩

@[simp] theorem start_remaining (content : List UInt8) : (start content).remaining = content := rfl

variable {r r' : PatchFileReader} {len : ℕ}

theorem Reads.append {piece : List UInt8} {res : Bool × List UInt8 × PatchFileReader}
    (hpiece : piece = r.remaining.take piece.length) (hlen : piece.length ≤ len)
    (hrest : r'.remaining = r.remaining.drop piece.length)
    (h : Reads (len - piece.length) r' res) : Reads len r (res.1, piece ++ res.2.1, res.2.2) := by
  have hle : piece.length ≤ r.remaining.length := by
    rw [hpiece, List.length_take]
    exact Nat.min_le_right _ _
  have hlength : r'.remaining.length = r.remaining.length - piece.length := by
    rw [hrest, List.length_drop]
  refine ⟨h.valid, fun henough => ?_, fun hshort => ?_⟩
  · obtain ⟨hok, hdata, hremaining⟩ := h.enough (by omega)
    refine ⟨hok, ?_, ?_⟩
    · show piece ++ res.2.1 = _
      conv_lhs => rw [hdata, hrest, hpiece]
      rw [List.length_take, Nat.min_eq_left hle, ← List.take_add]
      congr 1
      omega
    · rw [hremaining, hrest, List.drop_drop]
      congr 1
      omega
  · obtain ⟨hok, hdata⟩ := h.short (by omega)
    refine ⟨hok, ?_⟩
    show (piece ++ res.2.1).length ≤ _
    rw [List.length_append]
    omega

theorem fill_spec (hr : r.Valid) (hdrained : r.pos = r.buf.length) :
    r.fill.2.Valid ∧ r.fill.2.remaining = r.remaining ∧
      if r.fill.1 then r.fill.2.pos < r.fill.2.buf.length else r.remaining = [] := by
  have hremaining : r.remaining = r.file.unread := by
    rw [remaining, hdrained, List.drop_length, List.nil_append]
  unfold fill
  cases heof : r.eof
  · obtain ⟨hdata, hunread⟩ := r.file.read_eq patchBufferSize
    rw [if_neg Bool.false_ne_true]
    generalize r.file.read patchBufferSize = res at hdata hunread ⊢
    obtain ⟨data, file⟩ := res
    simp only at hdata hunread ⊢
    refine ⟨⟨Nat.zero_le _, fun h => ?_⟩, ?_, ?_⟩
    · have hshort : data.length ≠ patchBufferSize := of_decide_eq_true h
      rw [hdata, List.length_take] at hshort
      rw [hunread, List.drop_eq_nil_iff]
      omega
    · show data.drop 0 ++ file.unread = _
      rw [List.drop_zero, hdata, hunread, List.take_append_drop, hremaining]
    · split_ifs with hempty
      · exact List.length_pos_iff.mpr (of_decide_eq_true hempty)
      · rw [decide_eq_true_eq, not_not] at hempty
        rw [hremaining]
        rw [hempty] at hdata
        exact (List.take_eq_nil_iff.mp hdata.symm).resolve_left (by decide)
  · rw [if_pos rfl]
    have hunread := hr.eof heof
    refine ⟨⟨le_rfl, fun _ => hunread⟩, ?_, ?_⟩
    · show [] ++ r.file.unread = _
      rw [hremaining, List.nil_append]
    · rw [if_neg Bool.false_ne_true, hremaining, hunread]

theorem length_chunk (r : PatchFileReader) (len : ℕ) :
    ((r.buf.drop r.pos).take len).length = min len (r.buf.length - r.pos) := by
  rw [List.length_take, List.length_drop]

theorem pos_chunk_le (hr : r.Valid) :
    r.pos + ((r.buf.drop r.pos).take len).length ≤ r.buf.length := by
  have := hr.pos_le
  rw [length_chunk]
  omega

theorem Reads.chunk {r₁ : PatchFileReader} {res : Bool × List UInt8 × PatchFileReader}
    (hremaining : r₁.remaining = r.remaining)
    (h : Reads (len - ((r₁.buf.drop r₁.pos).take len).length)
      { r₁ with pos := r₁.pos + ((r₁.buf.drop r₁.pos).take len).length } res) :
    Reads len r (res.1, (r₁.buf.drop r₁.pos).take len ++ res.2.1, res.2.2) := by
  have hprefix : ((r₁.buf.drop r₁.pos).take len).length ≤ (r₁.buf.drop r₁.pos).length :=
    List.length_take_le' _ _
  refine h.append ?_ (List.length_take_le _ _) ?_
  · rw [← hremaining, remaining, List.take_append_of_le_length hprefix, length_chunk,
      ← List.length_drop, ← List.take_eq_take_min]
  · rw [← hremaining, remaining, remaining, List.drop_append_of_le_length hprefix, List.drop_drop]

theorem readLoop_reads (fuel out : ℕ) {len : ℕ} (hfuel : len ≤ fuel) (hr : r.Valid) :
    Reads len r (r.readLoop fuel out len) := by
  induction fuel generalizing out len r with
  | zero =>
    obtain rfl := Nat.le_zero.mp hfuel
    exact ⟨hr, fun _ => ⟨rfl, rfl, rfl⟩, fun h => absurd h (Nat.not_lt_zero _)⟩
  | succ fuel ih =>
    rw [readLoop]
    by_cases hzero : len = 0
    · subst hzero
      rw [if_pos rfl]
      exact ⟨hr, fun _ => ⟨rfl, rfl, rfl⟩, fun h => absurd h (Nat.not_lt_zero _)⟩
    rw [if_neg hzero]
    by_cases hdirect : r.pos = r.buf.length ∧ r.eof = false ∧ patchSectorSize ≤ len ∧ out % 4 = 0
    · rw [if_pos hdirect]
      dsimp only
      -- Whole sectors are read directly.
      have hremaining : r.remaining = r.file.unread := by
        rw [remaining, hdirect.1, List.drop_length, List.nil_append]
      have hsectors : 0 < len / patchSectorSize * patchSectorSize ∧
          len / patchSectorSize * patchSectorSize ≤ len :=
        ⟨Nat.mul_pos (Nat.div_pos hdirect.2.2.1 (by decide)) (by decide), Nat.div_mul_le_self _ _⟩
      obtain ⟨hdata, hunread⟩ := r.file.read_eq (len / patchSectorSize * patchSectorSize)
      generalize len / patchSectorSize * patchSectorSize = directLen at hsectors hdata hunread ⊢
      generalize r.file.read directLen = res at hdata hunread ⊢
      obtain ⟨data, file⟩ := res
      replace hdata : data = r.file.unread.take directLen := hdata
      replace hunread : file.unread = r.file.unread.drop directLen := hunread
      have hvalid : Valid { r with file := file } :=
        ⟨hr.pos_le, fun h => absurd h (Bool.eq_false_iff.mp hdirect.2.1)⟩
      have hlength : data.length = min directLen r.remaining.length := by
        rw [hdata, List.length_take, hremaining]
      split_ifs with hshort
      · replace hshort : data.length ≠ directLen := hshort
        exact ⟨hvalid, fun h => absurd hlength (by omega),
          fun _ => ⟨rfl, show data.length ≤ len by omega⟩⟩
      · rw [not_not] at hshort
        subst hshort
        refine (ih (out + data.length) (by omega) hvalid).append ?_ hsectors.2 ?_
        · rw [hremaining]
          exact hdata
        · show r.buf.drop r.pos ++ file.unread = _
          rw [hdirect.1, List.drop_length, List.nil_append, hunread, hremaining]
    · rw [if_neg hdirect]
      by_cases hdrained : r.pos = r.buf.length
      · -- The buffer is filled, and then read from.
        rw [if_pos hdrained]
        obtain ⟨hvalid, hremaining, hfilled⟩ := fill_spec hr hdrained
        generalize r.fill = res at hvalid hremaining hfilled ⊢
        obtain ⟨_ | _, r₁⟩ := res
        · have hnone : r.remaining = [] := by simpa using hfilled
          refine ⟨hvalid, fun h => ?_, fun _ => ⟨rfl, Nat.zero_le _⟩⟩
          rw [hnone] at h
          exact absurd (Nat.le_zero.mp h) hzero
        · have hpos : r₁.pos < r₁.buf.length := by simpa using hfilled
          refine Reads.chunk hremaining (ih _ ?_ ⟨?_, hvalid.eof⟩)
          · rw [length_chunk]
            omega
          · exact pos_chunk_le hvalid
      · rw [if_neg hdrained]
        have hpos : r.pos < r.buf.length := Nat.lt_of_le_of_ne hr.pos_le hdrained
        refine Reads.chunk rfl (ih _ ?_ ⟨?_, hr.eof⟩)
        · rw [length_chunk]
          omega
        · exact pos_chunk_le hr

end PatchFileReader

open PatchFileReader

theorem patchFileRead_reads (out len : ℕ) {r : PatchFileReader} (hr : r.Valid) :
    Reads len r (patchFileRead out len r) := readLoop_reads len out le_rfl hr

theorem patchFileRead_cases (out len : ℕ) {r : PatchFileReader} (hr : r.Valid) :
    (∃ data r', patchFileRead out len r = (true, data, r') ∧ data.length = len ∧
      r.remaining = data ++ r'.remaining ∧ r'.Valid) ∨
    (∃ data r', patchFileRead out len r = (false, data, r') ∧ data.length ≤ len ∧
      r.remaining.length < len) := by
  obtain ⟨hvalid, henough, hshort⟩ := patchFileRead_reads out len hr
  generalize patchFileRead out len r = res at hvalid henough hshort ⊢
  obtain ⟨ok, data, r'⟩ := res
  rcases Nat.lt_or_ge r.remaining.length len with hlt | hge
  · obtain ⟨rfl, hdata⟩ := hshort hlt
    exact Or.inr ⟨data, r', rfl, hdata, hlt⟩
  · obtain ⟨rfl, rfl, hremaining⟩ := henough hge
    refine Or.inl ⟨_, r', rfl, List.length_take_of_le hge, ?_, hvalid⟩
    rw [show r'.remaining = _ from hremaining, List.take_append_drop]

theorem patchFileRead_append (out : ℕ) {data rest : List UInt8} {r : PatchFileReader}
    (hr : r.Valid) (hremaining : r.remaining = data ++ rest) :
    ∃ r', patchFileRead out data.length r = (true, data, r') ∧ r'.Valid ∧ r'.remaining = rest := by
  obtain ⟨hvalid, henough, -⟩ := patchFileRead_reads out data.length hr
  rw [hremaining] at henough
  obtain ⟨hok, hdata, hrest⟩ := henough (by rw [List.length_append]; exact Nat.le_add_right _ _)
  rw [List.take_left] at hdata
  rw [List.drop_left] at hrest
  exact ⟨_, Prod.ext hok (Prod.ext hdata rfl), hvalid, hrest⟩

end Presence3DS.Loader
