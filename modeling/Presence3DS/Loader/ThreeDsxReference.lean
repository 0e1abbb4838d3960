import Presence3DS.Loader.ThreeDsxSizes

/-! The relocation of a 3DSX file as the format states it, on the tables as the file has them, and
the loader's patches, which are those of the reference. -/

namespace Presence3DS.Loader.ThreeDsx

open NotedRuns NotedM RawMemory

/-! ## The reference -/

/-- The entries of a table that begins at an offset: how many words to skip, and how many to
patch. -/
def entries (file : List UInt8) (off n : ℕ) : List (ℕ × ℕ) :=
  (List.range n).map fun k =>
    (leValue (held file 2 (off + 4 * k)), leValue (held file 2 (off + 4 * k + 2)))

/-- The words of a segment that the entries patch, from one on. -/
def patchedWords : List (ℕ × ℕ) → ℕ → List ℕ
  | [], _ => []
  | (skip, n) :: es, w => List.range' (w + skip) n ++ patchedWords es (w + skip + n)

/-- A word of the segment is replaced by what it leads to; words behind the segment there are
none. -/
def patchWord (d : LoadInfo) (kind : ℕ) (segment : Segment) (mem : Memory) (w : ℕ) :
    Option Memory :=
  if segment.size ≤ 4 * w then some mem
  else
    (relocated d kind (u32 (segment.addr + 4 * w)) (leValue (read mem (segment.ptr + 4 * w) 4))).map
      fun v => write mem (segment.ptr + 4 * w) (leBytes 4 v)

/-- A table whose kind is known is in the file as a whole; either way, what is read next is behind
it. -/
def referenceTable (job : Job) (s : State) (t : Table) : Option State :=
  let n := relocCount job.file t.i t.j
  if 2 ≤ t.j then some ⟨s.mem, s.readOffset + 4 * n⟩
  else if (held job.file (4 * n) s.readOffset).length = 4 * n then
    ((patchedWords (entries job.file s.readOffset n) 0).foldlM
      (patchWord (loadInfo job) t.j t.segment) s.mem).map fun mem => ⟨mem, s.readOffset + 4 * n⟩
  else none

/-- A segment is read. -/
def referencePart (file : List UInt8) (s : State) (p : ℕ × ℕ) : Option State :=
  let bytes := held file p.2 s.readOffset
  if bytes.length = p.2 then some ⟨write s.mem p.1 bytes, s.readOffset + p.2⟩ else none

/-- The segments, in order, with how much of each is in the file. -/
def segmentParts (job : Job) : List (ℕ × ℕ) :=
  let hdr := header job.file
  let d := loadInfo job
  [(d.code.ptr, hdr.codeSegSize), (d.rodata.ptr, hdr.rodataSegSize),
    (d.data.ptr, dataLoadSegSize hdr)]

/-- The segments of a file of less than 4 GiB whose sizes agree, as they are relocated. -/
def reference (job : Job) (mem : Memory) : Option State :=
  let hdr := header job.file
  if job.file.length < 0x100000000 ∧ hdr.bssSize ≤ hdr.dataSegSize ∧
      pageUp hdr.codeSegSize + pageUp hdr.rodataSegSize + pageUp hdr.dataSegSize + 0x1000 <
        0x100000000 then
    ((segmentParts job).foldlM (referencePart job.file)
      ⟨mem, hdr.headerSize + 3 * hdr.relocHdrSize⟩).bind fun s =>
        (tables job).foldlM (referenceTable job) s
  else none

/-! ## What is to hold of the loading -/

/-- The pages lie in user memory, and `s_relocBuf` elsewhere. -/
structure Placed (job : Job) (size : ℕ) : Prop where
  pages : job.codePages + size ≤ userEnd
  buf : job.relocBuf + relocBufBytes ≤ 0x100000000
  apart : job.relocBuf + relocBufBytes ≤ job.codePages ∨ job.codePages + size ≤ job.relocBuf

/-- The two memories are the same in the segments. -/
def SameSegments (job : Job) (size : ℕ) (m m' : Memory) : Prop :=
  ∀ a, job.codePages ≤ a → a < job.codePages + (size - 0x1000) → m a = m' a

/-- In a run of the loader, the tables of unknown kinds are skipped as they are in the file. -/
def SkipsUnknown (job : Job) (mem : Memory) : Prop :=
  ∀ pre t post s₀ s s', tables job = pre ++ t :: post → 2 ≤ t.j →
    (each (readPart job) (parts job)).Ends (start job mem) () s₀ →
    (each (relocTable job) pre).Ends s₀ () s → (relocTable job t).Ends s () s' →
    s'.readOffset = s.readOffset + 4 * relocCount job.file t.i t.j

/-- The segments of the code set are those of the reference, with the `_prm` structure filled as
well, and the unknown tables are skipped. -/
def FollowsReference (job : Job) (size : ℕ) (mem : Memory) : Prop :=
  (∃ s, reference job mem = some s ∧
    SameSegments job size (codesetFrom3dsx job (start job mem)).2.1.mem (fillPrm job s).2.1.mem) ∧
  SkipsUnknown job mem

/-! ## The reference in pieces -/

section
variable {d : LoadInfo} {kind : ℕ} {segment : Segment} {m m' : Memory} {w : ℕ}

theorem entries_add (file : List UInt8) (off k n : ℕ) :
    entries file off (k + n) = entries file off k ++ entries file (off + 4 * k) n := by
  unfold entries
  rw [List.range_add, List.map_append, List.map_map]
  refine congrArg _ (List.map_congr_left fun i _ => ?_)
  show (leValue (held file 2 (off + 4 * (k + i))), leValue (held file 2 (off + 4 * (k + i) + 2))) =
    _
  rw [Nat.mul_add, ← Nat.add_assoc]

/-- Where the words behind the entries begin. -/
def wordsEnd : List (ℕ × ℕ) → ℕ → ℕ
  | [], w => w
  | (skip, n) :: es, w => wordsEnd es (w + skip + n)

theorem le_wordsEnd (es : List (ℕ × ℕ)) (w : ℕ) : w ≤ wordsEnd es w := by
  induction es generalizing w with
  | nil => exact le_rfl
  | cons e es ih =>
    have hle := ih (w + e.1 + e.2)
    exact (Nat.le_add_right _ _).trans ((Nat.le_add_right _ _).trans hle)

theorem patchedWords_append (es es' : List (ℕ × ℕ)) (w : ℕ) :
    patchedWords (es ++ es') w = patchedWords es w ++ patchedWords es' (wordsEnd es w) := by
  induction es generalizing w with
  | nil => rfl
  | cons e es ih =>
    show List.range' (w + e.1) e.2 ++ patchedWords (es ++ es') (w + e.1 + e.2) = _
    rw [ih, ← List.append_assoc]
    rfl

theorem le_of_mem_patchedWords {es : List (ℕ × ℕ)} {x : ℕ} (h : x ∈ patchedWords es w) : w ≤ x := by
  induction es generalizing w with
  | nil => exact absurd h List.not_mem_nil
  | cons e es ih =>
    rcases List.mem_append.mp h with hx | hx
    · exact (Nat.le_add_right _ _).trans (List.mem_range'_1.mp hx).1
    · exact (Nat.le_add_right _ _).trans ((Nat.le_add_right _ _).trans (ih hx))

theorem foldlM_behind {ws : List ℕ} (h : ∀ x ∈ ws, segment.size ≤ 4 * x) :
    ws.foldlM (patchWord d kind segment) m = some m := by
  induction ws with
  | nil => rfl
  | cons x ws ih =>
    obtain ⟨hx, hws⟩ := List.forall_mem_cons.mp h
    rw [List.foldlM_cons]
    unfold patchWord
    rw [if_pos hx]
    exact ih hws

theorem patchedWords_behind {es : List (ℕ × ℕ)} (h : segment.size ≤ 4 * w) :
    (patchedWords es w).foldlM (patchWord d kind segment) m = some m := by
  refine foldlM_behind fun x hx => h.trans ?_
  exact Nat.mul_le_mul_left 4 (le_of_mem_patchedWords hx)

end

/-! ## The loader's patches are those of the reference -/

section
variable {job : Job} {size : ℕ} {segment : Segment} {kind w : ℕ} {m m' : Memory} {s s' : State}

theorem SameSegments.write (h : SameSegments job size m m') (a : ℕ) (bs : List UInt8) :
    SameSegments job size (write m a bs) (write m' a bs) := by
  intro x hlo hhi
  unfold RawMemory.write
  rw [h x hlo hhi]

theorem SameSegments.read (h : SameSegments job size m m') {a n : ℕ} (hlo : job.codePages ≤ a)
    (hhi : a + n ≤ job.codePages + (size - 0x1000)) : read m a n = read m' a n :=
  read_congr fun i hi => h (a + i) (by omega) (by omega)

/-- A segment in the pages, with the address that belongs to it. -/
structure Spot (job : Job) (size : ℕ) (segment : Segment) : Prop where
  lo : job.codePages ≤ segment.ptr
  hi : segment.ptr + segment.size ≤ job.codePages + (size - 0x1000)
  words : segment.size % 4 = 0
  addr : u32 segment.addr = u32 (job.baseAddr + (segment.ptr - job.codePages))

/-- The position of the loader is the word of the reference, or both are behind the segment. -/
def Tracks (segment : Segment) (pos w : ℕ) : Prop :=
  pos = segment.ptr + 4 * w ∨ segment.ptr + segment.size ≤ pos ∧ segment.size ≤ 4 * w

/-- `s_relocBuf` is left as it is. -/
def BufKept (job : Job) (s s' : State) : Prop :=
  ∀ a, job.relocBuf ≤ a → a < job.relocBuf + relocBufBytes → s'.mem a = s.mem a

/-- What the patches of the loader lead to: the reference has done the same to its memory. -/
structure Follows (job : Job) (size : ℕ) (segment : Segment) (s s' : State) (pos w : ℕ)
    (m' : Memory) : Prop where
  same : SameSegments job size s'.mem m'
  tracks : Tracks segment pos w
  readOffset : s'.readOffset = s.readOffset
  buf : BufKept job s s'

theorem Follows.trans {t : State} {pos pos' w w' : ℕ} (h : Follows job size segment s t pos w m)
    (h' : Follows job size segment t s' pos' w' m') : Follows job size segment s s' pos' w' m' :=
  ⟨h'.same, h'.tracks, h'.readOffset.trans h.readOffset,
    fun a hlo hhi => (h'.buf a hlo hhi).trans (h.buf a hlo hhi)⟩

theorem bufKept_write (hplaced : Placed job size) (s : State) {a : ℕ} (bs : List UInt8)
    (hlo : job.codePages ≤ a) (hhi : a + bs.length ≤ job.codePages + size) :
    BufKept job s { s with mem := write s.mem a bs } := by
  intro x hx hx'
  have hapart := hplaced.apart
  exact write_outside (by omega)

/-- The entries in `s_relocBuf` from the one numbered `k` on. -/
def bufEntries (m : Memory) (relocBuf k n : ℕ) : List (ℕ × ℕ) :=
  (List.range' k n).map fun i =>
    (leValue (read m (relocBuf + 4 * i) 2), leValue (read m (relocBuf + 4 * i + 2) 2))

theorem bufEntries_congr {k n : ℕ} (h : BufKept job s s') (hk : k + n ≤ maxRelocs) :
    bufEntries s'.mem job.relocBuf k n = bufEntries s.mem job.relocBuf k n := by
  have hbytes : relocBufBytes = 4 * maxRelocs := rfl
  refine List.map_congr_left fun i hi => ?_
  obtain ⟨-, hi⟩ := List.mem_range'_1.mp hi
  refine Prod.ext (congrArg leValue (read_congr fun x hx => ?_))
    (congrArg leValue (read_congr fun x hx => ?_))
  · exact h _ (by omega) (by omega)
  · exact h _ (by omega) (by omega)

theorem held_whole_iff {file : List UInt8} {size off : ℕ} :
    (held file size off).length = size ↔ size = 0 ∨ off + size ≤ file.length := by
  rw [held, List.length_take, List.length_drop]
  omega

theorem bufEntries_held {file : List UInt8} {off n : ℕ} (m : Memory) (relocBuf : ℕ)
    (h : (held file (4 * n) off).length = 4 * n) :
    bufEntries (write m relocBuf (held file (4 * n) off)) relocBuf 0 n = entries file off n := by
  unfold bufEntries entries
  rw [List.range_eq_range']
  refine List.map_congr_left fun i hi => ?_
  obtain ⟨-, hi⟩ := List.mem_range'_1.mp hi
  have hpart {k : ℕ} (hk : k + 2 ≤ 4 * n) :
      read (write m relocBuf (held file (4 * n) off)) (relocBuf + k) 2 = held file 2 (off + k) := by
    rw [read_write_part (by rwa [h]), held, List.drop_take, List.take_take, List.drop_drop,
      Nat.min_eq_left (by omega)]
    rfl
  rw [hpart (by omega), Nat.add_assoc, hpart (by omega)]
  rfl

theorem SameSegments.buf (hplaced : Placed job size) (h : SameSegments job size m m')
    {bs : List UInt8} (hlen : bs.length ≤ relocBufBytes) :
    SameSegments job size (RawMemory.write m job.relocBuf bs) m' := by
  intro x hlo hhi
  have hapart := hplaced.apart
  rw [write_outside (by omega)]
  exact h x hlo hhi

variable (hplaced : Placed job size) (hspot : Spot job size segment)
include hplaced hspot

theorem patchWords_follows {left pos pos' : ℕ} (hsame : SameSegments job size s.mem m)
    (htracks : Tracks segment pos w)
    (h : (patchWords job kind (segment.ptr + segment.size) left pos).Ends s pos' s') :
    ∃ m', (List.range' w left).foldlM (patchWord (loadInfo job) kind segment) m = some m' ∧
      Follows job size segment s s' pos' (w + left) m' := by
  have hpages := hplaced.pages
  unfold userEnd at hpages
  obtain ⟨hlo, hhi, hwords, haddr⟩ := hspot
  induction left generalizing pos w m s with
  | zero =>
    obtain ⟨rfl, rfl⟩ := ends_pure_iff.mp h
    exact ⟨m, rfl, hsame, htracks, rfl, fun _ _ _ => rfl⟩
  | succ left ih =>
    rw [patchWords] at h
    split_ifs at h with hlt
    · -- the word is one of the segment
      obtain rfl : pos = segment.ptr + 4 * w := htracks.resolve_right (by omega)
      obtain ⟨origData, t, hload, h⟩ := ends_bind_iff.mp h
      obtain ⟨rfl, rfl⟩ := ends_gets_iff.mp hload
      obtain ⟨data, t, hofOption, h⟩ := ends_bind_iff.mp h
      obtain ⟨hdata, rfl⟩ := ends_ofOption_iff.mp hofOption
      obtain ⟨_, t, hstore, h⟩ := ends_bind_iff.mp h
      obtain ⟨-, rfl⟩ := hstore
      have hfits : segment.ptr + 4 * w + 4 ≤ segment.ptr + segment.size := by omega
      have hread := hsame.read (a := segment.ptr + 4 * w) (n := 4) (by omega) (by omega)
      have hin : u32 (job.baseAddr + (segment.ptr + 4 * w + 0x100000000 - job.codePages)) =
          u32 (segment.addr + 4 * w) := by
        unfold u32 at haddr ⊢
        omega
      rw [hin, hread] at hdata
      have hnext : Tracks segment (u32 (segment.ptr + 4 * w + 4)) (w + 1) := by
        refine .inl ?_
        unfold u32
        omega
      obtain ⟨m', hfold, hfollows⟩ :=
        ih (hsame.write (segment.ptr + 4 * w) (leBytes 4 data)) hnext h
      refine ⟨m', ?_, ?_⟩
      · rw [List.range'_succ, List.foldlM_cons]
        unfold patchWord
        rw [if_neg (by omega), hdata]
        exact hfold
      · have hw : w + 1 + left = w + (left + 1) := by omega
        have hkept := bufKept_write hplaced s (a := segment.ptr + 4 * w) (leBytes 4 data)
          (by omega) (by rw [length_leBytes]; omega)
        rw [hw] at hfollows
        exact ⟨hfollows.same, hfollows.tracks, hfollows.readOffset,
          fun a hlo hhi => (hfollows.buf a hlo hhi).trans (hkept a hlo hhi)⟩
    · have hbehind : segment.size ≤ 4 * w := by
        rcases htracks with rfl | ⟨-, hw⟩
        · omega
        · exact hw
      obtain ⟨rfl, rfl⟩ := ends_pure_iff.mp h
      refine ⟨m, foldlM_behind fun x hx => ?_, hsame, .inr ⟨Nat.not_lt.mp hlt, ?_⟩, rfl,
        fun _ _ _ => rfl⟩
      · exact hbehind.trans (Nat.mul_le_mul_left 4 (List.mem_range'_1.mp hx).1)
      · exact hbehind.trans (Nat.mul_le_mul_left 4 (Nat.le_add_right w _))

theorem applyRelocs_follows {left k pos pos' : ℕ} (hk : k + left ≤ maxRelocs)
    (hsame : SameSegments job size s.mem m) (htracks : Tracks segment pos w)
    (h : (applyRelocs job kind (segment.ptr + segment.size) left k pos).Ends s pos' s') :
    ∃ m', (patchedWords (bufEntries s.mem job.relocBuf k left) w).foldlM
        (patchWord (loadInfo job) kind segment) m = some m' ∧
      Follows job size segment s s' pos'
        (wordsEnd (bufEntries s.mem job.relocBuf k left) w) m' := by
  have hbuf := hplaced.buf
  have hpages := hplaced.pages
  have hbytes : relocBufBytes = 4 * maxRelocs := rfl
  unfold userEnd at hpages
  have hhi := hspot.hi
  induction left generalizing k pos w m s with
  | zero =>
    obtain ⟨rfl, rfl⟩ := ends_pure_iff.mp h
    exact ⟨m, rfl, hsame, htracks, rfl, fun _ _ _ => rfl⟩
  | succ left ih =>
    rw [applyRelocs] at h
    split_ifs at h with hlt
    · obtain rfl : pos = segment.ptr + 4 * w := htracks.resolve_right (by omega)
      obtain ⟨skip, t, hloadSkip, h⟩ := ends_bind_iff.mp h
      obtain ⟨hskip, rfl⟩ := ends_gets_iff.mp hloadSkip
      obtain ⟨nPatches, t, hloadPatches, h⟩ := ends_bind_iff.mp h
      obtain ⟨hpatches, rfl⟩ := ends_gets_iff.mp hloadPatches
      obtain ⟨pos₁, t, hwords, h⟩ := ends_bind_iff.mp h
      have haddr : u32 (job.relocBuf + 4 * k) = job.relocBuf + 4 * k := Nat.mod_eq_of_lt (by omega)
      have haddr' : u32 (job.relocBuf + 4 * k + 2) = job.relocBuf + 4 * k + 2 :=
        Nat.mod_eq_of_lt (by omega)
      have hhalf := half_lt s.mem (job.relocBuf + 4 * k)
      rw [haddr] at hskip
      rw [haddr'] at hpatches
      have hentries : bufEntries s.mem job.relocBuf k (left + 1) =
          (skip, nPatches) :: bufEntries s.mem job.relocBuf (k + 1) left := by
        rw [bufEntries, List.range'_succ, List.map_cons, hskip, hpatches]
        rfl
      have hstart : Tracks segment (u32 (segment.ptr + 4 * w + 4 * skip)) (w + skip) := by
        refine .inl ?_
        unfold u32
        omega
      obtain ⟨m₁, hfold, hfirst⟩ := patchWords_follows hplaced hspot hsame hstart hwords
      obtain ⟨m₂, hrest, hlast⟩ := ih (by omega) hfirst.same hfirst.tracks h
      rw [bufEntries_congr hfirst.buf (by omega)] at hrest hlast
      refine ⟨m₂, ?_, ?_⟩
      · rw [hentries]
        show (List.range' (w + skip) nPatches ++
          patchedWords _ (w + skip + nPatches)).foldlM _ m = _
        rw [List.foldlM_append, hfold]
        exact hrest
      · rw [hentries]
        exact hfirst.trans hlast
    · have hbehind : segment.size ≤ 4 * w := by
        rcases htracks with rfl | ⟨-, hw⟩
        · omega
        · exact hw
      obtain ⟨rfl, rfl⟩ := ends_pure_iff.mp h
      refine ⟨m, patchedWords_behind hbehind, hsame, .inr ⟨Nat.not_lt.mp hlt, ?_⟩, rfl,
        fun _ _ _ => rfl⟩
      exact hbehind.trans (Nat.mul_le_mul_left 4 (le_wordsEnd _ w))

theorem relocate_follows (hfile : job.file.length < 0x100000000) {n pos : ℕ} (hn : n < 0x80000000)
    (hoff : s.readOffset < 0x100000000) (hsame : SameSegments job size s.mem m)
    (htracks : Tracks segment pos w)
    (h : (relocate job kind (segment.ptr + segment.size) n pos).Ends s () s') :
    (held job.file (4 * n) s.readOffset).length = 4 * n ∧
    s'.readOffset = s.readOffset + 4 * n ∧
    ∃ m', (patchedWords (entries job.file s.readOffset n) w).foldlM
        (patchWord (loadInfo job) kind segment) m = some m' ∧
      SameSegments job size s'.mem m' := by
  induction n using Nat.strong_induction_on generalizing pos w m s with
  | _ n ih =>
    rw [relocate] at h
    split_ifs at h with hzero
    · obtain ⟨-, rfl⟩ := ends_pure_iff.mp h
      subst hzero
      exact ⟨held_whole_iff.mpr (.inl rfl), rfl, m, rfl, hsame⟩
    · have hpos := toDo_pos hzero
      have hle := toDo_le n
      have hpiece : toDo n ≤ maxRelocs := by
        unfold toDo
        split_ifs with hmany
        · exact le_rfl
        · omega
      have hmax : maxRelocs = 512 := rfl
      generalize toDo n = c at h hpos hle hpiece
      have hsize : u32 (4 * c) = 4 * c := Nat.mod_eq_of_lt (by omega)
      obtain ⟨_, t, hread, h⟩ := ends_bind_iff.mp h
      obtain ⟨hlen, rfl⟩ := readNext_ends hread
      rw [hsize] at hlen h
      have hheld := (held_whole_iff.mp hlen).resolve_left (by omega)
      obtain ⟨pos₁, t, happly, h⟩ := ends_bind_iff.mp h
      have hbuf : (held job.file (4 * c) s.readOffset).length ≤ relocBufBytes := by
        rw [hlen]
        exact Nat.mul_le_mul_left 4 hpiece
      obtain ⟨m₁, hfold, hfollows⟩ := applyRelocs_follows hplaced hspot (by omega)
        (hsame.buf hplaced hbuf) htracks happly
      have hentries := bufEntries_held s.mem job.relocBuf hlen
      rw [hentries] at hfold hfollows
      have hnext : t.readOffset = s.readOffset + 4 * c := by
        rw [hfollows.readOffset]
        exact Nat.mod_eq_of_lt (by omega)
      obtain ⟨hrestLen, hend, m₂, hrest, hlast⟩ := ih (n - c) (by omega) (by omega) (by omega)
        hfollows.same hfollows.tracks h
      rw [hnext] at hrestLen hend hrest
      refine ⟨?_, by omega, m₂, ?_, hlast⟩
      · rw [held_whole_iff] at hrestLen ⊢
        omega
      · have hsum : n = c + (n - c) := (Nat.add_sub_cancel' hle).symm
        rw [hsum, entries_add, patchedWords_append, List.foldlM_append, hfold]
        exact hrest

end

end Presence3DS.Loader.ThreeDsx
