import Presence3DS.Loader.PatchFile

/-! Where in the file the reader of patch files reads. Its functions are given again with the
positions that `FSFILE_Read` is called with noted, and do the same. -/

namespace Presence3DS.Loader

/-! ## The reads with their positions -/

/-- `FSFILE_Read` at the position of the file. -/
def IFile.fsRead (file : IFile) (left : ℕ) : List UInt8 × IFile :=
  let data := (file.content.drop file.pos).take left
  (data, { file with pos := file.pos + data.length })

/-- The loop of `IFile_Read`, which goes on after a short read. -/
def IFile.readLoopNoted : ℕ → ℕ → IFile → (List UInt8 × IFile) × List ℕ
  | 0, _, file => (([], file), [])
  | fuel + 1, left, file =>
    let (data, file') := file.fsRead left
    if data = [] then (([], file), [file.pos])
    else if data.length = left then ((data, file'), [file.pos])
    else
      let ((more, file''), positions) := readLoopNoted fuel (left - data.length) file'
      ((data ++ more, file''), file.pos :: positions)

/-- `IFile_Read` -/
def IFile.readNoted (file : IFile) (len : ℕ) : (List UInt8 × IFile) × List ℕ :=
  if len = 0 then (([], file), []) else file.readLoopNoted len len

namespace PatchFileReader

/-- `patchFileReaderFill` -/
def fillNoted (r : PatchFileReader) : (Bool × PatchFileReader) × List ℕ :=
  if r.eof then ((false, { r with buf := [], pos := 0 }), [])
  else
    let ((data, file), positions) := r.file.readNoted patchBufferSize
    ((data ≠ [], ⟨file, data, 0, data.length ≠ patchBufferSize⟩), positions)

/-- The loop of `patchFileRead`. -/
def readLoopNoted : ℕ → ℕ → ℕ → PatchFileReader → (Bool × List UInt8 × PatchFileReader) × List ℕ
  | 0, _, len, r => ((len = 0, [], r), [])
  | fuel + 1, out, len, r =>
    if len = 0 then ((true, [], r), [])
    else if r.pos = r.buf.length ∧ r.eof = false ∧ patchSectorSize ≤ len ∧ out % 4 = 0 then
      let directLen := len / patchSectorSize * patchSectorSize
      let ((data, file), positions) := r.file.readNoted directLen
      if data.length ≠ directLen then ((false, data, { r with file := file }), positions)
      else
        let ((ok, more, r), rest) :=
          readLoopNoted fuel (out + directLen) (len - directLen) { r with file := file }
        ((ok, data ++ more, r), positions ++ rest)
    else
      let ((filled, r), positions) :=
        if r.pos = r.buf.length then r.fillNoted else ((true, r), [])
      if filled = false then ((false, [], r), positions)
      else
        let chunk := (r.buf.drop r.pos).take len
        let ((ok, more, r), rest) := readLoopNoted fuel (out + chunk.length) (len - chunk.length)
          { r with pos := r.pos + chunk.length }
        ((ok, chunk ++ more, r), positions ++ rest)

end PatchFileReader

def patchFileReadNoted (out len : ℕ) (r : PatchFileReader) :
    (Bool × List UInt8 × PatchFileReader) × List ℕ :=
  r.readLoopNoted len out len

/-- A request for some bytes, to an address. -/
structure PatchRequest where
  out : ℕ
  len : ℕ

/-- Some requests in their order: the bytes that each has delivered, if it has succeeded, and the
positions of the reads of the file. -/
def patchRequestsNoted : List PatchRequest → PatchFileReader → List (Option (List UInt8)) × List ℕ
  | [], _ => ([], [])
  | q :: qs, r =>
    let ((ok, data, r), positions) := patchFileReadNoted q.out q.len r
    let (rest, more) := patchRequestsNoted qs r
    ((if ok then some data else none) :: rest, positions ++ more)

/-! ## What is asked of them -/

/-- The next bytes of the file, for requests of such lengths, as far as there are enough of them; a
request for more uses up the file. -/
def served : List UInt8 → List ℕ → List (Option (List UInt8))
  | _, [] => []
  | rest, len :: lens =>
    if len ≤ rest.length then some (rest.take len) :: served (rest.drop len) lens
    else none :: served [] lens

/-- The requests are served from the file, and it is only ever read at the start of a sector. -/
structure ReadsSectors (content : List UInt8) (requests : List PatchRequest) : Prop where
  served : (patchRequestsNoted requests (.start content)).1 =
    served content (requests.map PatchRequest.len)
  aligned : ∀ p ∈ (patchRequestsNoted requests (.start content)).2, patchSectorSize ∣ p

/-- The bytes that a request asks of the file, with so many in the buffer: whole sectors where the
destination is aligned, and whole buffers otherwise. -/
def bytesAsked (buffered : ℕ) (q : PatchRequest) : ℕ :=
  let len := q.len - buffered
  if (q.out + buffered) % 4 = 0 then
    len / patchSectorSize * patchSectorSize +
      if len % patchSectorSize = 0 then 0 else patchBufferSize
  else (len + (patchBufferSize - 1)) / patchBufferSize * patchBufferSize

def totalAsked : ℕ → List PatchRequest → ℕ
  | _, [] => 0
  | buffered, q :: qs =>
    bytesAsked buffered q + totalAsked (buffered + bytesAsked buffered q - q.len) qs

/-! ## The notes change nothing -/

theorem IFile.readLoopNoted_spec {fuel left : ℕ} (file : IFile) (hleft : 0 < left)
    (hfuel : left ≤ fuel) :
    (file.readLoopNoted fuel left).1 = file.read left ∧
      (file.readLoopNoted fuel left).2 =
        if file.unread = [] ∨ left ≤ file.unread.length then [file.pos]
        else [file.pos, file.pos + file.unread.length] := by
  obtain ⟨fuel, rfl⟩ := Nat.exists_eq_succ_of_ne_zero (hleft.trans_le hfuel).ne'
  have hfs : file.fsRead left = file.read left := rfl
  have hread : file.read left = (file.unread.take left,
    { file with pos := file.pos + (file.unread.take left).length }) := rfl
  rw [readLoopNoted, hfs, hread]
  simp only
  by_cases hnone : file.unread = []
  · rw [hnone, List.take_nil, if_pos rfl, if_pos (.inl rfl)]
    exact ⟨rfl, rfl⟩
  have hpos := List.length_pos_iff.mpr hnone
  by_cases hwhole : left ≤ file.unread.length
  · have hlength : (file.unread.take left).length = left := List.length_take_of_le hwhole
    rw [if_neg (List.ne_nil_of_length_pos (hlength.symm ▸ hleft)), if_pos hlength,
      if_pos (.inr hwhole)]
    exact ⟨rfl, rfl⟩
  · have htake : file.unread.take left = file.unread := List.take_of_length_le (by omega)
    rw [htake, if_neg hnone, if_neg (show ¬file.unread.length = left by omega),
      if_neg (not_or.mpr ⟨hnone, hwhole⟩)]
    obtain ⟨fuel, rfl⟩ := Nat.exists_eq_succ_of_ne_zero (show fuel ≠ 0 by omega)
    have hend : ({ file with pos := file.pos + file.unread.length } : IFile).fsRead
        (left - file.unread.length) =
          ([], { file with pos := file.pos + file.unread.length }) := by
      have hnone : file.content.drop (file.pos + file.unread.length) = [] := by
        rw [← List.drop_drop]
        exact List.drop_length
      show (((file.content.drop (file.pos + file.unread.length)).take _, _) : _ × IFile) = _
      rw [hnone, List.take_nil]
      rfl
    rw [readLoopNoted, hend]
    simp

theorem IFile.readNoted_fst (file : IFile) (len : ℕ) : (file.readNoted len).1 = file.read len := by
  unfold readNoted
  split_ifs with hzero
  · subst hzero
    rfl
  · exact (file.readLoopNoted_spec (Nat.pos_of_ne_zero hzero) le_rfl).1

namespace PatchFileReader

theorem fillNoted_fst (r : PatchFileReader) : r.fillNoted.1 = r.fill := by
  unfold fillNoted fill
  rw [← r.file.readNoted_fst]
  split_ifs
  · rfl
  · rfl

theorem readLoopNoted_fst (fuel out len : ℕ) (r : PatchFileReader) :
    (r.readLoopNoted fuel out len).1 = r.readLoop fuel out len := by
  induction fuel generalizing out len r with
  | zero => rfl
  | succ fuel ih =>
    rw [readLoopNoted, readLoop]
    simp only [← ih, ← fillNoted_fst, ← IFile.readNoted_fst]
    split_ifs <;> rfl

end PatchFileReader

theorem patchFileReadNoted_fst (out len : ℕ) (r : PatchFileReader) :
    (patchFileReadNoted out len r).1 = patchFileRead out len r := r.readLoopNoted_fst len out len

/-! ## What the requests are served -/

namespace PatchFileReader

theorem readLoop_failed (fuel out : ℕ) {len : ℕ} {r : PatchFileReader} (hfuel : len ≤ fuel)
    (hr : r.Valid) (h : (r.readLoop fuel out len).1 = false) :
    (r.readLoop fuel out len).2.2.remaining = [] := by
  induction fuel generalizing out len r with
  | zero => exact absurd (Nat.le_zero.mp hfuel) (of_decide_eq_false h)
  | succ fuel ih =>
    rw [readLoop] at h ⊢
    by_cases hzero : len = 0
    · rw [if_pos hzero] at h
      cases h
    rw [if_neg hzero] at h ⊢
    by_cases hdirect : r.pos = r.buf.length ∧ r.eof = false ∧ patchSectorSize ≤ len ∧ out % 4 = 0
    · rw [if_pos hdirect] at h ⊢
      have hsectors : 0 < len / patchSectorSize * patchSectorSize :=
        Nat.mul_pos (Nat.div_pos hdirect.2.2.1 (by decide)) (by decide)
      obtain ⟨hdata, hunread⟩ := r.file.read_eq (len / patchSectorSize * patchSectorSize)
      generalize len / patchSectorSize * patchSectorSize = directLen at *
      dsimp only at h ⊢
      split_ifs at h ⊢ with hshort
      · -- The file has less than was asked of it.
        rw [hdata, List.length_take] at hshort
        show r.buf.drop r.pos ++ (r.file.read directLen).2.unread = []
        rw [hdirect.1, List.drop_length, List.nil_append, hunread, List.drop_eq_nil_iff]
        omega
      · refine ih (out + directLen) (by omega) ?_ h
        exact ⟨hr.pos_le, fun h => absurd h (Bool.eq_false_iff.mp hdirect.2.1)⟩
    · rw [if_neg hdirect] at h ⊢
      by_cases hdrained : r.pos = r.buf.length
      · rw [if_pos hdrained] at h ⊢
        obtain ⟨hvalid, hremaining, hfilled⟩ := fill_spec hr hdrained
        generalize r.fill = res at *
        obtain ⟨_ | _, r₁⟩ := res
        · simp only at hremaining hfilled ⊢
          exact hremaining.trans (by simpa using hfilled)
        · have hpos : r₁.pos < r₁.buf.length := by simpa using hfilled
          refine ih _ ?_ ⟨pos_chunk_le hvalid, hvalid.eof⟩ h
          rw [length_chunk]
          omega
      · rw [if_neg hdrained] at h ⊢
        have hpos : r.pos < r.buf.length := Nat.lt_of_le_of_ne hr.pos_le hdrained
        refine ih _ ?_ ⟨pos_chunk_le hr, hr.eof⟩ h
        rw [length_chunk]
        omega

end PatchFileReader

open PatchFileReader

theorem patchRequestsNoted_served (qs : List PatchRequest) {r : PatchFileReader} (hr : r.Valid) :
    (patchRequestsNoted qs r).1 = served r.remaining (qs.map PatchRequest.len) := by
  induction qs generalizing r with
  | nil => rfl
  | cons q qs ih =>
    obtain ⟨hvalid, henough, hshort⟩ := patchFileRead_reads q.out q.len hr
    have hfailed := readLoop_failed q.len q.out le_rfl hr
    change (patchFileRead q.out q.len r).1 = false →
      (patchFileRead q.out q.len r).2.2.remaining = [] at hfailed
    rw [patchRequestsNoted, List.map_cons, served]
    rw [← patchFileReadNoted_fst] at hvalid henough hshort hfailed
    generalize patchFileReadNoted q.out q.len r = res at hvalid henough hshort hfailed ⊢
    obtain ⟨⟨ok, data, r'⟩, positions⟩ := res
    have hrest := ih (r := r') hvalid
    by_cases hlen : q.len ≤ r.remaining.length
    · obtain ⟨hok, hdata, hremaining⟩ := henough hlen
      simp only at hok hdata hremaining
      simp only [hok, hdata, if_pos hlen, if_true]
      rw [hrest, hremaining]
    · obtain ⟨hok, -⟩ := hshort (Nat.lt_of_not_le hlen)
      simp only at hok
      simp only [hok, if_neg hlen, Bool.false_eq_true, if_false]
      rw [hrest, show r'.remaining = [] from hfailed hok]

/-! ## Where the file is read -/

/-- The file is at the start of a sector, or at its end. -/
structure InSectors (content : List UInt8) (r : PatchFileReader) : Prop where
  same : r.file.content = content
  sector : patchSectorSize ∣ r.file.pos
  inside : r.file.pos ≤ content.length

/-- Reads at these positions ask `asked` bytes of the file, and lead from `r` to `r'`. They are at
sectors where the file ends with one or there are that many bytes yet; otherwise the file is also
read at its end. -/
structure Asks (content : List UInt8) (asked : ℕ) (r r' : PatchFileReader)
    (positions : List ℕ) : Prop where
  whole : patchSectorSize ∣ content.length → InSectors content r →
    (∀ p ∈ positions, patchSectorSize ∣ p) ∧ InSectors content r'
  inside : InSectors content r → r.eof = false → r.file.pos + asked ≤ content.length →
    (∀ p ∈ positions, patchSectorSize ∣ p) ∧ InSectors content r' ∧ r'.eof = false ∧
      r'.file.pos = r.file.pos + asked
  outside : InSectors content r → r.eof = false → content.length < r.file.pos + asked →
    ¬patchSectorSize ∣ content.length → content.length ∈ positions

variable {content : List UInt8} {a b d : ℕ} {r r₁ r₂ : PatchFileReader} {ps qs : List ℕ}

theorem Asks.none (hfile : r₁.file = r.file) (heof : r₁.eof = r.eof) :
    Asks content 0 r r₁ [] where
  whole _ h := ⟨fun p hp => absurd hp List.not_mem_nil, by rw [hfile]; exact h.same,
    by rw [hfile]; exact h.sector, by rw [hfile]; exact h.inside⟩
  inside h h' _ := ⟨fun p hp => absurd hp List.not_mem_nil, ⟨by rw [hfile]; exact h.same,
    by rw [hfile]; exact h.sector, by rw [hfile]; exact h.inside⟩, heof.trans h',
    congrArg IFile.pos hfile⟩
  outside h _ hlt := absurd h.inside (Nat.not_le.mpr hlt)

theorem aligned_append (hps : ∀ p ∈ ps, patchSectorSize ∣ p) (hqs : ∀ p ∈ qs, patchSectorSize ∣ p) :
    ∀ p ∈ ps ++ qs, patchSectorSize ∣ p :=
  fun p hp => (List.mem_append.mp hp).elim (hps p) (hqs p)

theorem Asks.trans (h : Asks content a r r₁ ps) (h' : Asks content b r₁ r₂ qs) :
    Asks content (a + b) r r₂ (ps ++ qs) where
  whole hend hr := by
    obtain ⟨hps, hr₁⟩ := h.whole hend hr
    obtain ⟨hqs, hr₂⟩ := h'.whole hend hr₁
    exact ⟨aligned_append hps hqs, hr₂⟩
  inside hr heof hle := by
    obtain ⟨hps, hr₁, heof₁, hpos₁⟩ := h.inside hr heof (by omega)
    obtain ⟨hqs, hr₂, heof₂, hpos₂⟩ := h'.inside hr₁ heof₁ (by omega)
    exact ⟨aligned_append hps hqs, hr₂, heof₂, by omega⟩
  outside hr heof hlt hend := by
    by_cases hfirst : content.length < r.file.pos + a
    · exact List.mem_append_left _ (h.outside hr heof hfirst hend)
    · obtain ⟨-, hr₁, heof₁, hpos₁⟩ := h.inside hr heof (Nat.le_of_not_lt hfirst)
      exact List.mem_append_right _ (h'.outside hr₁ heof₁ (by omega) hend)

theorem Asks.trans_short (h : Asks content a r r₁ ps) (h' : Asks content b r₁ r₂ qs)
    (hshort : InSectors content r → r.eof = false → content.length < r.file.pos + a)
    (hle : a ≤ d) : Asks content d r r₂ (ps ++ qs) where
  whole := (h.trans h').whole
  inside hr heof hd := absurd (hshort hr heof) (by omega)
  outside hr heof _ hend := List.mem_append_left _ (h.outside hr heof (hshort hr heof) hend)

theorem Asks.short (h : Asks content a r r₁ ps)
    (hshort : InSectors content r → r.eof = false → content.length < r.file.pos + a)
    (hle : a ≤ d) : Asks content d r r₁ ps where
  whole := h.whole
  inside hr heof hd := absurd (hshort hr heof) (by omega)
  outside hr heof _ hend := h.outside hr heof (hshort hr heof) hend

theorem asks_read {len : ℕ} (hlen : patchSectorSize ∣ len) (hpos : 0 < len)
    (hfile : r₁.file = (r.file.read len).2)
    (heof : InSectors content r → r.eof = false → r.file.pos + len ≤ content.length →
      r₁.eof = false) :
    Asks content len r r₁ (r.file.readNoted len).2 := by
  have hnoted : (r.file.readNoted len).2 =
      if r.file.unread = [] ∨ len ≤ r.file.unread.length then [r.file.pos]
      else [r.file.pos, r.file.pos + r.file.unread.length] := by
    rw [IFile.readNoted, if_neg hpos.ne']
    exact (r.file.readLoopNoted_spec hpos le_rfl).2
  have hnext : r₁.file.content = r.file.content ∧
      r₁.file.pos = r.file.pos + min len r.file.unread.length := by
    rw [hfile]
    exact ⟨rfl, congrArg (r.file.pos + ·) List.length_take⟩
  have hunread : InSectors content r → r.file.unread.length = content.length - r.file.pos := by
    intro hr
    rw [IFile.unread, List.length_drop, hr.same]
  have hone : ∀ p : ℕ, patchSectorSize ∣ p → ∀ q ∈ [p], patchSectorSize ∣ q := by
    intro p hp q hq
    exact List.mem_singleton.mp hq ▸ hp
  refine ⟨fun hend hr => ?_, fun hr heof' hle => ?_, fun hr heof' hlt hend => ?_⟩
  · have hlast : patchSectorSize ∣ r.file.unread.length := by
      rw [hunread hr]
      exact Nat.dvd_sub hend hr.sector
    have hinside := hr.inside
    have hlength := hunread hr
    refine ⟨?_, hnext.1.trans hr.same, ?_, by omega⟩
    · rw [hnoted]
      split_ifs
      · exact hone _ hr.sector
      · exact aligned_append (hone _ hr.sector) (hone _ (Nat.dvd_add hr.sector hlast))
    · rw [hnext.2]
      refine Nat.dvd_add hr.sector ?_
      rcases Nat.le_total len r.file.unread.length with h | h
      · rwa [Nat.min_eq_left h]
      · rwa [Nat.min_eq_right h]
  · have hlength := hunread hr
    have hpos₁ : r₁.file.pos = r.file.pos + len := by omega
    refine ⟨?_, ⟨hnext.1.trans hr.same, ?_, hpos₁.trans_le hle⟩, heof hr heof' hle, hpos₁⟩
    · rw [hnoted, if_pos (.inr (by omega))]
      exact hone _ hr.sector
    · rw [hpos₁]
      exact Nat.dvd_add hr.sector hlen
  · have hlength := hunread hr
    have hinside := hr.inside
    -- The position is at a sector, and the end of the file is not.
    have hne : r.file.pos ≠ content.length := fun h => hend (h ▸ hr.sector)
    have hsome : ¬(r.file.unread = [] ∨ len ≤ r.file.unread.length) := by
      rintro (h | h)
      · rw [h] at hlength
        exact hne (by simp at hlength; omega)
      · omega
    rw [hnoted, if_neg hsome, hlength, Nat.add_sub_cancel' hinside]
    exact List.mem_cons_of_mem _ List.mem_cons_self

/-! ## What a request asks of the file -/

theorem bytesAsked_aligned {buffered out : ℕ} (h : (out + buffered) % 4 = 0) (len : ℕ) :
    bytesAsked buffered ⟨out, len⟩ =
      (len - buffered) / 512 * 512 + if (len - buffered) % 512 = 0 then 0 else 1024 := if_pos h

theorem bytesAsked_unaligned {buffered out : ℕ} (h : (out + buffered) % 4 ≠ 0) (len : ℕ) :
    bytesAsked buffered ⟨out, len⟩ = (len - buffered + 1023) / 1024 * 1024 := if_neg h

theorem bytesAsked_buffered {buffered out len : ℕ} (h : len ≤ buffered) :
    bytesAsked buffered ⟨out, len⟩ = 0 := by
  by_cases hout : (out + buffered) % 4 = 0
  · rw [bytesAsked_aligned hout, Nat.sub_eq_zero_of_le h]
    rfl
  · rw [bytesAsked_unaligned hout, Nat.sub_eq_zero_of_le h]

theorem bytesAsked_chunk {buffered out len n : ℕ} (hn : n = min buffered len) :
    bytesAsked buffered ⟨out, len⟩ = bytesAsked (buffered - n) ⟨out + n, len - n⟩ := by
  rcases Nat.le_total buffered len with h | h
  · obtain rfl : n = buffered := hn.trans (Nat.min_eq_left h)
    simp only [bytesAsked, Nat.sub_self, Nat.add_zero, Nat.sub_zero]
  · obtain rfl : n = len := hn.trans (Nat.min_eq_right h)
    rw [bytesAsked_buffered h, bytesAsked_buffered (by omega)]

theorem bytesAsked_direct {out : ℕ} (hout : out % 4 = 0) (len : ℕ) :
    bytesAsked 0 ⟨out, len⟩ = len / patchSectorSize * patchSectorSize +
      bytesAsked 0 ⟨out + len / patchSectorSize * patchSectorSize,
        len - len / patchSectorSize * patchSectorSize⟩ := by
  show _ = len / 512 * 512 + bytesAsked 0 ⟨out + len / 512 * 512, len - len / 512 * 512⟩
  rw [bytesAsked_aligned hout, bytesAsked_aligned (by omega)]
  split_ifs
  · omega
  · omega
  · omega
  · omega

theorem bytesAsked_fill {out len : ℕ} (hzero : len ≠ 0)
    (hdirect : ¬(patchSectorSize ≤ len ∧ out % 4 = 0)) :
    bytesAsked 0 ⟨out, len⟩ = patchBufferSize + bytesAsked patchBufferSize ⟨out, len⟩ := by
  change ¬(512 ≤ len ∧ out % 4 = 0) at hdirect
  show _ = 1024 + bytesAsked 1024 ⟨out, len⟩
  by_cases hout : out % 4 = 0
  · have hfew : ¬len % 512 = 0 := by omega
    rw [bytesAsked_aligned hout, Nat.sub_zero, if_neg hfew, bytesAsked_buffered (by omega)]
    omega
  · rw [bytesAsked_unaligned hout, bytesAsked_unaligned (by omega)]
    omega

theorem le_bytesAsked (buffered out len : ℕ) : len ≤ buffered + bytesAsked buffered ⟨out, len⟩ := by
  by_cases hout : (out + buffered) % 4 = 0
  · rw [bytesAsked_aligned hout]
    split_ifs
    · omega
    · omega
  · rw [bytesAsked_unaligned hout]
    omega

/-! ## A request -/

theorem length_read_short (content : List UInt8) (r : PatchFileReader) (len : ℕ)
    (h : (r.file.read len).1.length ≠ len) (hr : InSectors content r) :
    content.length < r.file.pos + len := by
  have hinside := hr.inside
  rw [(r.file.read_eq len).1, List.length_take, IFile.unread, List.length_drop, hr.same] at h
  omega

theorem fillNoted_eof (heof : r.eof = true) :
    r.fillNoted = ((false, { r with buf := [], pos := 0 }), []) := by
  rw [fillNoted, if_pos heof]

theorem fillNoted_asks (content : List UInt8) (heof : r.eof = false) :
    Asks content patchBufferSize r r.fillNoted.1.2 r.fillNoted.2 ∧
      ((r.fillNoted.1.1 = true ∧ r.fillNoted.1.2.pos = 0 ∧
          r.fillNoted.1.2.buf.length = patchBufferSize) ∨
        (InSectors content r → content.length < r.file.pos + patchBufferSize)) := by
  have hfill : r.fillNoted = ((decide ((r.file.read patchBufferSize).1 ≠ []),
      ⟨(r.file.read patchBufferSize).2, (r.file.read patchBufferSize).1, 0,
        decide ((r.file.read patchBufferSize).1.length ≠ patchBufferSize)⟩),
      (r.file.readNoted patchBufferSize).2) := by
    rw [fillNoted, heof, if_neg Bool.false_ne_true, ← IFile.readNoted_fst]
  rw [hfill]
  refine ⟨asks_read ⟨2, rfl⟩ (by decide) rfl ?_, ?_⟩
  · intro hr _ hle
    rw [decide_eq_false_iff_not, not_not]
    by_contra hshort
    exact absurd (length_read_short content r _ hshort hr) (Nat.not_lt.mpr hle)
  · by_cases hfull : (r.file.read patchBufferSize).1.length = patchBufferSize
    · refine .inl ⟨decide_eq_true ?_, rfl, hfull⟩
      exact List.ne_nil_of_length_pos (hfull.symm ▸ by decide)
    · exact .inr fun hr => length_read_short content r _ hfull hr

theorem Asks.chunk {out len : ℕ}
    (h : Asks content (bytesAsked (r.buf.length - (r.pos + ((r.buf.drop r.pos).take len).length))
        ⟨out + ((r.buf.drop r.pos).take len).length, len - ((r.buf.drop r.pos).take len).length⟩)
      { r with pos := r.pos + ((r.buf.drop r.pos).take len).length } r₁ ps) :
    Asks content (bytesAsked (r.buf.length - r.pos) ⟨out, len⟩) r r₁ ps := by
  have hn := length_chunk r len
  rw [Nat.min_comm] at hn
  rw [bytesAsked_chunk hn, Nat.sub_sub, ← Nat.zero_add (bytesAsked _ _), ← List.nil_append ps]
  have hquiet : Asks content 0 r
      { r with pos := r.pos + ((r.buf.drop r.pos).take len).length } [] := .none rfl rfl
  exact hquiet.trans h

theorem readLoopNoted_asks (content : List UInt8) (fuel out : ℕ) {len : ℕ}
    {r : PatchFileReader} (hfuel : len ≤ fuel) (hr : r.Valid) :
    Asks content (bytesAsked (r.buf.length - r.pos) ⟨out, len⟩) r
      (r.readLoopNoted fuel out len).1.2.2 (r.readLoopNoted fuel out len).2 := by
  induction fuel generalizing out len r with
  | zero =>
    obtain rfl := Nat.le_zero.mp hfuel
    rw [bytesAsked_buffered (Nat.zero_le _)]
    exact Asks.none rfl rfl
  | succ fuel ih =>
    rw [readLoopNoted]
    by_cases hzero : len = 0
    · rw [if_pos hzero, hzero, bytesAsked_buffered (Nat.zero_le _)]
      exact Asks.none rfl rfl
    rw [if_neg hzero]
    by_cases hdirect : r.pos = r.buf.length ∧ r.eof = false ∧ patchSectorSize ≤ len ∧ out % 4 = 0
    · rw [if_pos hdirect]
      dsimp only
      obtain ⟨hdrained, heof, hlen, hout⟩ := hdirect
      have hdvd : patchSectorSize ∣ len / patchSectorSize * patchSectorSize :=
        Nat.dvd_mul_left _ _
      have hsectors : 0 < len / patchSectorSize * patchSectorSize :=
        Nat.mul_pos (Nat.div_pos hlen (by decide)) (by decide)
      have hasked := bytesAsked_direct hout len
      rw [← hdrained, Nat.sub_self, hasked]
      generalize len / patchSectorSize * patchSectorSize = directLen at *
      have hread : Asks content directLen r { r with file := (r.file.read directLen).2 }
          (r.file.readNoted directLen).2 :=
        asks_read hdvd hsectors rfl fun _ h _ => h
      have hshort := length_read_short content r directLen
      rw [← IFile.readNoted_fst] at hread hshort
      generalize r.file.readNoted directLen = res at hread hshort ⊢
      obtain ⟨⟨data, file⟩, positions⟩ := res
      dsimp only at hread hshort ⊢
      split_ifs with hlength
      · exact hread.short (fun hr' _ => hshort hlength hr') (Nat.le_add_right _ _)
      · have hrest := @ih (out + directLen) (len - directLen) { r with file := file }
          (by omega) ⟨hr.pos_le, fun h => absurd h (Bool.eq_false_iff.mp heof)⟩
        dsimp only at hrest
        rw [← hdrained, Nat.sub_self] at hrest
        exact hread.trans hrest
    · rw [if_neg hdirect]
      by_cases hdrained : r.pos = r.buf.length
      · -- The buffer is filled, and then read from.
        rw [if_pos hdrained]
        rw [← hdrained, Nat.sub_self]
        cases heof : r.eof with
        | true =>
          rw [fillNoted_eof heof]
          exact Asks.short (.none rfl rfl) (fun _ h => by rw [heof] at h; cases h) (Nat.zero_le _)
        | false =>
          obtain ⟨hvalid, -, hfilled⟩ := fill_spec hr hdrained
          obtain ⟨hfill, hcases⟩ := fillNoted_asks content heof
          have hasked := bytesAsked_fill hzero fun h => hdirect ⟨hdrained, heof, h.1, h.2⟩
          rw [← fillNoted_fst] at hvalid hfilled
          generalize r.fillNoted = res at hvalid hfilled hfill hcases ⊢
          obtain ⟨⟨filled, r₁⟩, positions⟩ := res
          dsimp only at hvalid hfilled hfill hcases ⊢
          rw [hasked]
          cases filled with
          | false =>
            refine hfill.short (fun hr' _ => hcases.resolve_left ?_ hr') (Nat.le_add_right _ _)
            exact fun h => absurd h.1 Bool.false_ne_true
          | true =>
            have hpos : r₁.pos < r₁.buf.length := by simpa using hfilled
            have hrest := @ih (out + ((r₁.buf.drop r₁.pos).take len).length)
              (len - ((r₁.buf.drop r₁.pos).take len).length)
              { r₁ with pos := r₁.pos + ((r₁.buf.drop r₁.pos).take len).length }
              (by rw [length_chunk]; omega) ⟨pos_chunk_le hvalid, hvalid.eof⟩
            rcases hcases with ⟨-, hzero', hfull⟩ | hshort
            · have hall : r₁.buf.length - r₁.pos = patchBufferSize := by
                rw [hzero', hfull, Nat.sub_zero]
              have hchunk := hrest.chunk
              rw [hall] at hchunk
              exact hfill.trans hchunk
            · exact hfill.trans_short hrest.chunk (fun hr' _ => hshort hr') (Nat.le_add_right _ _)
      · rw [if_neg hdrained]
        have hpos : r.pos < r.buf.length := Nat.lt_of_le_of_ne hr.pos_le hdrained
        have hrest := @ih (out + ((r.buf.drop r.pos).take len).length)
          (len - ((r.buf.drop r.pos).take len).length)
          { r with pos := r.pos + ((r.buf.drop r.pos).take len).length }
          (by rw [length_chunk]; omega) ⟨pos_chunk_le hr, hr.eof⟩
        exact hrest.chunk

/-! ## The requests -/

theorem length_remaining (hin : InSectors content r) :
    r.remaining.length = r.buf.length - r.pos + (content.length - r.file.pos) := by
  rw [remaining, IFile.unread, List.length_append, List.length_drop, List.length_drop, hin.same]

theorem patchRequestsNoted_asks (content : List UInt8) (qs : List PatchRequest)
    {r : PatchFileReader} (hr : r.Valid) :
    ∃ r', Asks content (totalAsked (r.buf.length - r.pos) qs) r r'
      (patchRequestsNoted qs r).2 := by
  induction qs generalizing r with
  | nil => exact ⟨r, Asks.none rfl rfl⟩
  | cons q qs ih =>
    have hasks := readLoopNoted_asks content q.len q.out le_rfl hr
    obtain ⟨hvalid, henough, -⟩ := patchFileRead_reads q.out q.len hr
    rw [← patchFileReadNoted_fst] at hvalid henough
    rw [patchRequestsNoted, totalAsked]
    change Asks content (bytesAsked (r.buf.length - r.pos) q) r
      (patchFileReadNoted q.out q.len r).1.2.2 (patchFileReadNoted q.out q.len r).2 at hasks
    generalize patchFileReadNoted q.out q.len r = res at hvalid henough hasks ⊢
    obtain ⟨⟨ok, data, r₁⟩, positions⟩ := res
    obtain ⟨r', hrest⟩ := ih (r := r₁) hvalid
    refine ⟨r', ?_⟩
    have hle := le_bytesAsked (r.buf.length - r.pos) q.out q.len
    generalize bytesAsked (r.buf.length - r.pos) q = a at hasks hle ⊢
    by_cases hin : InSectors content r ∧ r.eof = false ∧ r.file.pos + a ≤ content.length
    · -- The request is served, and leaves this many bytes in the buffer.
      obtain ⟨hr', heof, hfits⟩ := hin
      obtain ⟨-, hr₁, -, hpos₁⟩ := hasks.inside hr' heof hfits
      have hlength := length_remaining hr'
      have hremaining := (henough (by omega)).2.2
      have hlength₁ := length_remaining hr₁
      dsimp only at hr₁ hpos₁ hremaining hlength₁
      rw [hremaining, List.length_drop, hlength] at hlength₁
      have hbuffered : r₁.buf.length - r₁.pos = r.buf.length - r.pos + a - q.len := by omega
      rw [← hbuffered]
      exact hasks.trans hrest
    · refine hasks.trans_short hrest (fun hr' heof => ?_) (Nat.le_add_right _ _)
      exact Nat.lt_of_not_le fun h => hin ⟨hr', heof, h⟩

/-- Any requests are served from the file; it is read at the starts of sectors only, exactly where
its size is a multiple of a sector or all that the requests ask of it is inside of the file. -/
theorem readsSectors_iff (content : List UInt8) (requests : List PatchRequest) :
    ReadsSectors content requests ↔
      patchSectorSize ∣ content.length ∨ totalAsked 0 requests ≤ content.length := by
  have hvalid := start_valid content
  obtain ⟨r', hasks⟩ := patchRequestsNoted_asks content requests hvalid
  have hstart : InSectors content (.start content) := ⟨rfl, Nat.dvd_zero _, Nat.zero_le _⟩
  constructor
  · intro h
    by_contra hnot
    obtain ⟨hend, hmore⟩ := not_or.mp hnot
    have hlt : content.length < 0 + totalAsked 0 requests := by omega
    exact hend (h.aligned _ (hasks.outside hstart rfl hlt hend))
  · intro h
    refine ⟨patchRequestsNoted_served requests hvalid, ?_⟩
    rcases h with hend | hfits
    · exact (hasks.whole hend hstart).1
    · exact (hasks.inside hstart rfl ((Nat.zero_add _).trans_le hfits)).1

/-- The magic number of an IPS patch which has nothing else: after the short read of the buffer the
file is read at its end. -/
theorem short_file_read_at_its_end : ¬ReadsSectors [0x50, 0x41, 0x54, 0x43, 0x48] [⟨0, 5⟩] := by
  intro h
  have hpositions : (patchRequestsNoted [⟨0, 5⟩]
      (.start [0x50, 0x41, 0x54, 0x43, 0x48])).2 = [0, 5] := by decide +kernel
  have hend := h.aligned 5 (by rw [hpositions]; decide)
  exact absurd hend (by decide)

end Presence3DS.Loader
