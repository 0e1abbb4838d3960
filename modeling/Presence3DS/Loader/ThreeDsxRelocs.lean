import Presence3DS.Loader.ThreeDsxReference

/-! The files whose loading agrees with the reference: the tables in step with it, one after the
other. -/

namespace Presence3DS.Loader.ThreeDsx

open NotedRuns NotedM RawMemory

/-! ## Tables and segments -/

section
variable {job : Job} {size : ℕ} {s s' r : State} {m : Memory}
  (hsized : Sized (header job.file) size) (hplaced : Placed job size) (hno : NoOverflow job.file)

include hsized hno in
theorem room_eq : size - 0x1000 = pageUp (header job.file).codeSegSize +
    pageUp (header job.file).rodataSegSize + pageUp (header job.file).dataSegSize := by
  have hsize := size_eq hsized hno
  omega

include hsized hplaced hno in
theorem extraPage_room : (loadInfo job).extraPage = job.codePages + (size - 0x1000) := by
  have hsize := size_eq hsized hno
  have hextra := extraPage_add hsized hplaced.pages (by omega)
  omega

include hsized hplaced hno in
theorem segment_ptrs : (loadInfo job).rodata.ptr =
      job.codePages + pageUp (header job.file).codeSegSize ∧
    (loadInfo job).data.ptr = job.codePages + pageUp (header job.file).codeSegSize +
      pageUp (header job.file).rodataSegSize := by
  have hroom := room_eq hsized hno
  have hpages := hplaced.pages
  unfold userEnd at hpages
  constructor
  · show u32 (job.codePages + pageUp _) = _
    exact Nat.mod_eq_of_lt (by omega)
  · show u32 (u32 (job.codePages + pageUp _) + pageUp _) = _
    unfold u32
    omega

theorem Placed.spot {segment : Segment} (hplaced : Placed job size) (i j : ℕ)
    (hlo : job.codePages ≤ segment.ptr)
    (hhi : segment.ptr + segment.size ≤ job.codePages + (size - 0x1000))
    (hwords : segment.size % 4 = 0)
    (haddr : u32 segment.addr = u32 (job.baseAddr + (segment.ptr - job.codePages))) :
    Spot job size segment ∧ endPos ⟨i, segment, j⟩ = segment.ptr + segment.size ∧
      endPos ⟨i, segment, j⟩ ≤ job.codePages + (size - 0x1000) := by
  have hpages := hplaced.pages
  unfold userEnd at hpages
  have hend : u32 (segment.ptr + segment.size) = segment.ptr + segment.size :=
    Nat.mod_eq_of_lt (by omega)
  exact ⟨⟨hlo, hhi, hwords, haddr⟩, hend, hend.trans_le hhi⟩

include hsized hplaced hno in
theorem spot_of_table {t : Table} (ht : t ∈ tables job) :
    Spot job size t.segment ∧ endPos t = t.segment.ptr + t.segment.size ∧
      endPos t ≤ (loadInfo job).extraPage := by
  have hroom := room_eq hsized hno
  have hcode := (pageUp_spec (header job.file).codeSegSize).1
  have hrodata := (pageUp_spec (header job.file).rodataSegSize).1
  have hdata := (pageUp_spec (header job.file).dataSegSize).1
  obtain ⟨hrodataPtr, hdataPtr⟩ := segment_ptrs hsized hplaced hno
  rw [extraPage_room hsized hplaced hno]
  obtain ⟨⟨i, segment⟩, hsegment, ht⟩ := List.mem_flatMap.mp ht
  obtain ⟨j, hj, rfl⟩ := List.mem_map.mp ht
  simp only [List.mem_cons, Prod.mk.injEq, List.not_mem_nil, or_false] at hsegment
  rcases hsegment with ⟨-, rfl⟩ | ⟨-, rfl⟩ | ⟨-, rfl⟩
  · refine hplaced.spot i j le_rfl ?_ ?_ ?_
    · show job.codePages + pageUp _ ≤ _
      omega
    · show pageUp _ % 4 = 0
      omega
    · show u32 job.baseAddr = u32 (job.baseAddr + (job.codePages - job.codePages))
      rw [Nat.sub_self, Nat.add_zero]
  · refine hplaced.spot i j ?_ ?_ ?_ ?_
    · exact hrodataPtr ▸ Nat.le_add_right _ _
    · rw [hrodataPtr]
      show job.codePages + _ + pageUp _ ≤ _
      omega
    · show pageUp _ % 4 = 0
      omega
    · rw [hrodataPtr, Nat.add_sub_cancel_left]
      exact Nat.mod_mod _ _
  · refine hplaced.spot i j ?_ ?_ ?_ ?_
    · rw [hdataPtr, Nat.add_assoc]
      exact Nat.le_add_right _ _
    · rw [hdataPtr]
      show job.codePages + _ + _ + pageUp _ ≤ _
      omega
    · show pageUp _ % 4 = 0
      omega
    · rw [hdataPtr, Nat.add_assoc, Nat.add_sub_cancel_left]
      show u32 (u32 (u32 (job.baseAddr + pageUp _) + pageUp _)) = _
      unfold u32
      omega

/-- The tables of unknown kinds are empty. -/
def UnknownEmpty (file : List UInt8) : Prop :=
  ∀ i < 3, ∀ j < nRelocTables (header file), 2 ≤ j → relocCount file i j = 0

/-- The loader and the reference have come to the same offset and the same segments. -/
structure InStep (job : Job) (size : ℕ) (s r : State) : Prop where
  readOffset : s.readOffset = r.readOffset
  offset_lt : s.readOffset < 0x100000000
  same : SameSegments job size s.mem r.mem

include hsized hplaced hno in
theorem relocTable_inStep (hfile : job.file.length < 0x100000000) (hempty : UnknownEmpty job.file)
    {t : Table} (ht : t ∈ tables job) (hcounts : CountsKept job s) (hin : InStep job size s r)
    (h : (relocTable job t).Ends s () s') :
    ∃ r', referenceTable job r t = some r' ∧ InStep job size s' r' := by
  obtain ⟨hi, hj⟩ := mem_tables ht
  obtain ⟨hoff, hlt, hsame⟩ := hin
  obtain ⟨n, _, hload, h⟩ := ends_bind_iff.mp h
  obtain ⟨hn, rfl⟩ := ends_gets_iff.mp hload
  rw [hcounts t ht] at hn
  unfold referenceTable
  rw [hn]
  rcases Nat.lt_or_ge t.j 2 with hused | hunused
  · obtain ⟨hspot, hend, hle⟩ := spot_of_table hsized hplaced hno ht
    rw [if_neg (Nat.not_le.mpr hused), if_neg (not_not_intro hle), hend] at h
    have hcount := hno.counts t.i hi t.j hused hj
    rw [hn] at hcount
    obtain ⟨hlen, hnext, m', hfold, hsame'⟩ :=
      relocate_follows hplaced hspot hfile hcount hlt hsame (.inl rfl : Tracks _ _ 0) h
    rw [hoff] at hlen hnext hfold
    have hheld := held_whole_iff.mp hlen
    refine ⟨⟨m', r.readOffset + 4 * n⟩, ?_, hnext, by omega, hsame'⟩
    dsimp only
    rw [if_neg (Nat.not_le.mpr hused), if_pos hlen, hfold]
    rfl
  · have hzero : n = 0 := hn.symm.trans (hempty t.i hi t.j hj hunused)
    subst hzero
    rw [if_pos hunused] at h
    have hs' := ends_modify_iff.mp h
    have hkeep : u32 (s.readOffset + 0) = s.readOffset := Nat.mod_eq_of_lt hlt
    rw [hkeep] at hs'
    subst hs'
    exact ⟨⟨r.mem, r.readOffset + 4 * 0⟩, if_pos hunused, hoff, hlt, hsame⟩

include hsized hplaced hno in
theorem countsKept_each (htables : 3 * 4 * nRelocTables (header job.file) ≤ 0x1000)
    {ts : List Table} (hts : ∀ t ∈ ts, t ∈ tables job) (hcounts : CountsKept job s)
    (h : (each (relocTable job) ts).Ends s () s') : CountsKept job s' := by
  induction ts generalizing s with
  | nil =>
    obtain ⟨-, rfl⟩ := ends_pure_iff.mp h
    exact hcounts
  | cons t ts ih =>
    obtain ⟨ht, hts⟩ := List.forall_mem_cons.mp hts
    obtain ⟨_, u, hfirst, hrest⟩ := ends_bind_iff.mp h
    exact ih hts (hcounts.relocTable hsized hplaced.pages hno htables hplaced.apart ht hfirst) hrest

include hsized hplaced hno in
theorem relocTables_inStep (htables : 3 * 4 * nRelocTables (header job.file) ≤ 0x1000)
    (hfile : job.file.length < 0x100000000) (hempty : UnknownEmpty job.file) {ts : List Table}
    (hts : ∀ t ∈ ts, t ∈ tables job) (hcounts : CountsKept job s) (hin : InStep job size s r)
    (h : (each (relocTable job) ts).Ends s () s') :
    ∃ r', ts.foldlM (referenceTable job) r = some r' ∧ InStep job size s' r' := by
  induction ts generalizing s r with
  | nil =>
    obtain ⟨-, rfl⟩ := ends_pure_iff.mp h
    exact ⟨r, rfl, hin⟩
  | cons t ts ih =>
    obtain ⟨ht, hts⟩ := List.forall_mem_cons.mp hts
    obtain ⟨_, u, hfirst, hrest⟩ := ends_bind_iff.mp h
    obtain ⟨r₁, hr₁, hin₁⟩ :=
      relocTable_inStep hsized hplaced hno hfile hempty ht hcounts hin hfirst
    have hcounts₁ :=
      hcounts.relocTable hsized hplaced.pages hno htables hplaced.apart ht hfirst
    obtain ⟨r', hr', hin'⟩ := ih hts hcounts₁ hin₁ hrest
    refine ⟨r', ?_, hin'⟩
    rw [List.foldlM_cons, hr₁]
    exact hr'

/-! ## The parts -/

theorem readPart_inStep (hfile : job.file.length < 0x100000000) {p : ℕ × ℕ}
    (hin : InStep job size s r) (h : (readPart job p).Ends s () s') :
    ∃ r', referencePart job.file r p = some r' ∧ InStep job size s' r' := by
  obtain ⟨hoff, hlt, hsame⟩ := hin
  obtain ⟨hlen, rfl⟩ := readNext_ends h
  have hheld := held_whole_iff.mp hlen
  have hnext : u32 (s.readOffset + p.2) = s.readOffset + p.2 := Nat.mod_eq_of_lt (by omega)
  unfold referencePart
  rw [← hoff, hnext]
  have hlt' : s.readOffset + p.2 < 0x100000000 := by omega
  exact ⟨⟨write r.mem p.1 (held job.file p.2 s.readOffset), s.readOffset + p.2⟩, if_pos hlen, rfl,
    hlt', hsame.write _ _⟩

theorem readParts_inStep (hfile : job.file.length < 0x100000000) {ps : List (ℕ × ℕ)}
    (hin : InStep job size s r) (h : (each (readPart job) ps).Ends s () s') :
    ∃ r', ps.foldlM (referencePart job.file) r = some r' ∧ InStep job size s' r' := by
  induction ps generalizing s r with
  | nil =>
    obtain ⟨-, rfl⟩ := ends_pure_iff.mp h
    exact ⟨r, rfl, hin⟩
  | cons p ps ih =>
    obtain ⟨_, u, hfirst, hrest⟩ := ends_bind_iff.mp h
    obtain ⟨r₁, hr₁, hin₁⟩ := readPart_inStep hfile hin hfirst
    obtain ⟨r', hr', hin'⟩ := ih hin₁ hrest
    refine ⟨r', ?_, hin'⟩
    rw [List.foldlM_cons, hr₁]
    exact hr'

theorem SameSegments.behind (h : SameSegments job size s.mem m) {a : ℕ} (bs : List UInt8)
    (ha : job.codePages + (size - 0x1000) ≤ a) :
    SameSegments job size (RawMemory.write s.mem a bs) m := by
  intro x hlo hhi
  rw [write_outside (by omega)]
  exact h x hlo hhi

include hsized hplaced hno in
theorem readHeader_same (htables : 3 * 4 * nRelocTables (header job.file) ≤ 0x1000) {i off : ℕ}
    (hi : i < 3) (hsame : SameSegments job size s.mem m) (hoff : s.readOffset = off)
    (hlt : off + (header job.file).relocHdrSize < 0x100000000)
    (h : (readPart job (u32 ((loadInfo job).extraPage + 4 * (i * nRelocTables (header job.file))),
      (header job.file).relocHdrSize)).Ends s () s') :
    SameSegments job size s'.mem m ∧ s'.readOffset = off + (header job.file).relocHdrSize := by
  have hpages := hplaced.pages
  have hextra := extraPage_room hsized hplaced hno
  have hin : i * nRelocTables (header job.file) ≤ 2 * nRelocTables (header job.file) :=
    Nat.mul_le_mul_right _ (Nat.le_of_lt_succ hi)
  unfold userEnd at hpages
  obtain ⟨-, rfl⟩ := readNext_ends h
  refine ⟨hsame.behind _ ?_, ?_⟩
  · unfold u32
    omega
  · rw [hoff]
    exact Nat.mod_eq_of_lt hlt

include hsized hplaced hno in
theorem parts_inStep (htables : 3 * 4 * nRelocTables (header job.file) ≤ 0x1000)
    (hfile : job.file.length < 0x100000000)
    (h : (each (readPart job) (parts job)).Ends (start job m) () s) :
    ∃ r, (segmentParts job).foldlM (referencePart job.file)
        ⟨m, (header job.file).headerSize + 3 * (header job.file).relocHdrSize⟩ = some r ∧
      InStep job size s r := by
  have hhdr : (header job.file).headerSize < 0x10000 := halfField_lt job.file 4
  have hreloc : (header job.file).relocHdrSize < 0x10000 := halfField_lt job.file 6
  obtain ⟨_, s₀, h₀, h⟩ := ends_bind_iff.mp h
  obtain ⟨_, s₁, h₁, h⟩ := ends_bind_iff.mp h
  obtain ⟨_, s₂, h₂, h⟩ := ends_bind_iff.mp h
  have hstart : (start job m).readOffset = (header job.file).headerSize := rfl
  obtain ⟨hsame₀, hoff₀⟩ := readHeader_same hsized hplaced hno htables (Nat.zero_lt_succ 2)
    (fun _ _ _ => rfl : SameSegments job size (start job m).mem m) hstart (by omega) h₀
  obtain ⟨hsame₁, hoff₁⟩ := readHeader_same hsized hplaced hno htables (by decide) hsame₀ hoff₀
    (by omega) h₁
  obtain ⟨hsame₂, hoff₂⟩ := readHeader_same hsized hplaced hno htables (by decide) hsame₁ hoff₁
    (by omega) h₂
  have hoff : s₂.readOffset =
      (header job.file).headerSize + 3 * (header job.file).relocHdrSize := by
    omega
  exact readParts_inStep hfile ⟨hoff, by omega, hsame₂⟩ h

/-! ## The `_prm` structure -/

/-- The memory behind the filling of the `_prm` structure. -/
def prmFilled (job : Job) (m : Memory) : Memory :=
  let d := loadInfo job
  let m := write m d.extraPage (List.replicate 0x1000 0)
  let m := write m d.extraPage (read m job.argvBuf argvBufSize)
  let m := write m (prmAddr job 4) (leBytes 4 (d.extraPageAddr + 0xFFC))
  let m := write m (prmAddr job 20) (leBytes 4 d.extraPageAddr)
  let runFlags := leValue (read m (prmAddr job 24) 4)
  let m := write m (prmAddr job 24) (leBytes 4 (runFlags ||| runFlagAptChainload))
  let m := write m (prmAddr job 12)
    (leBytes 4 (if job.isN3DS then 48 * 1024 * 1024 else 24 * 1024 * 1024))
  write m (prmAddr job 16) (leBytes 4 (if job.isN3DS then 64 * 1024 * 1024 else 32 * 1024 * 1024))

theorem fillPrm_mem (s : State) : (fillPrm job s).2.1.mem =
    if leValue (read s.mem (prmAddr job 0) 4) = prmMagic then prmFilled job s.mem else s.mem := by
  show ((if leValue (read s.mem (prmAddr job 0) 4) = prmMagic then _ else pure () :
    LoaderM Unit) s).2.1.mem = _
  unfold prmFilled
  split_ifs
  · rfl
  · rfl
  · rfl

include hsized hplaced hno in
theorem fillPrm_same (hsame : SameSegments job size s.mem r.mem) :
    SameSegments job size (fillPrm job s).2.1.mem (fillPrm job r).2.1.mem := by
  rcases Nat.eq_zero_or_pos (size - 0x1000) with hzero | hpos
  · intro a hlo hhi
    omega
  have hpages := hplaced.pages
  have hpage := hsized.page
  unfold userEnd at hpages
  have hextra := extraPage_room hsized hplaced hno
  have hfield {field : ℕ} (h : field ≤ 24) {m m' : Memory} (hm : SameSegments job size m m') :
      leValue (read m (prmAddr job field) 4) = leValue (read m' (prmAddr job field) 4) := by
    have haddr : prmAddr job field = job.codePages + 4 + field := Nat.mod_eq_of_lt (by omega)
    exact congrArg leValue (hm.read (by omega) (by omega))
  have hbehind {m m' : Memory} (hm : SameSegments job size m m') (bs bs' : List UInt8) :
      SameSegments job size (write m (loadInfo job).extraPage bs)
        (write m' (loadInfo job).extraPage bs') := by
    intro x hlo hhi
    rw [write_outside (by omega), write_outside (by omega)]
    exact hm x hlo hhi
  rw [fillPrm_mem, fillPrm_mem, hfield (by decide) hsame]
  split_ifs
  · unfold prmFilled
    dsimp only
    have hcleared := hbehind hsame (List.replicate 0x1000 0) (List.replicate 0x1000 0)
    have hargv := hbehind hcleared
      (read (write s.mem (loadInfo job).extraPage (List.replicate 0x1000 0)) job.argvBuf
        argvBufSize)
      (read (write r.mem (loadInfo job).extraPage (List.replicate 0x1000 0)) job.argvBuf
        argvBufSize)
    have hpointers := (hargv.write (prmAddr job 4)
      (leBytes 4 ((loadInfo job).extraPageAddr + 0xFFC))).write (prmAddr job 20)
      (leBytes 4 (loadInfo job).extraPageAddr)
    rw [hfield le_rfl hpointers]
    exact ((hpointers.write _ _).write _ _).write _ _
  · exact hsame

end

/-! ## The whole -/

section
variable {job : Job} {size : ℕ} {mem : Memory}

theorem accepted_ends (h : Accepted job mem) :
    3 * 4 * nRelocTables (header job.file) ≤ 0x1000 ∧
    ∃ s₀ s₁, (each (readPart job) (parts job)).Ends (start job mem) () s₀ ∧
      (each (relocTable job) (tables job)).Ends s₀ () s₁ ∧
      (codesetFrom3dsx job (start job mem)).2.1 = (fillPrm job s₁).2.1 := by
  obtain ⟨c, hc⟩ := Option.isSome_iff_exists.mp h
  have hends : (codesetFrom3dsx job).Ends (start job mem) c
      (codesetFrom3dsx job (start job mem)).2.1 := ⟨hc, rfl⟩
  generalize (codesetFrom3dsx job (start job mem)).2.1 = s' at hends ⊢
  unfold codesetFrom3dsx at hends
  split_ifs at hends with htables
  · refine ⟨htables, ?_⟩
    obtain ⟨_, s₀, hparts, hends⟩ := ends_bind_iff.mp hends
    obtain ⟨_, s₁, htabs, hends⟩ := ends_bind_iff.mp hends
    obtain ⟨_, s₂, hprm, hends⟩ := ends_bind_iff.mp hends
    obtain ⟨-, rfl⟩ := ends_pure_iff.mp hends
    exact ⟨s₀, s₁, hparts, htabs, hprm.2.symm⟩
  · exact absurd hends not_ends_fail

theorem ends_each_append {ts ts' : List Table} {s s' : State}
    (h : (each (relocTable job) (ts ++ ts')).Ends s () s') :
    ∃ t, (each (relocTable job) ts).Ends s () t ∧ (each (relocTable job) ts').Ends t () s' := by
  induction ts generalizing s with
  | nil => exact ⟨s, ⟨rfl, rfl⟩, h⟩
  | cons t ts ih =>
    obtain ⟨_, u, hfirst, hrest⟩ := ends_bind_iff.mp h
    obtain ⟨v, hv, hrest⟩ := ih hrest
    exact ⟨v, ends_bind_iff.mpr ⟨(), u, hfirst, hv⟩, hrest⟩

theorem exists_table (job : Job) {i j : ℕ} (hi : i < 3) (hj : j < nRelocTables (header job.file)) :
    ∃ t ∈ tables job, t.i = i ∧ t.j = j := by
  have hsegment : ∃ segment, (i, segment) ∈
      [(0, (loadInfo job).code), (1, (loadInfo job).rodata), (2, (loadInfo job).data)] := by
    rcases (by omega : i = 0 ∨ i = 1 ∨ i = 2) with rfl | rfl | rfl
    · exact ⟨_, List.mem_cons_self⟩
    · exact ⟨_, List.mem_cons_of_mem _ List.mem_cons_self⟩
    · exact ⟨_, List.mem_cons_of_mem _ (List.mem_cons_of_mem _ List.mem_cons_self)⟩
  obtain ⟨segment, hsegment⟩ := hsegment
  exact ⟨⟨i, segment, j⟩, List.mem_flatMap.mpr ⟨_, hsegment, List.mem_map.mpr
    ⟨j, List.mem_range.mpr hj, rfl⟩⟩, rfl, rfl⟩

theorem referenceTable_of_foldlM {ts : List Table} {s r : State}
    (h : ts.foldlM (referenceTable job) s = some r) {t : Table} (ht : t ∈ ts) :
    ∃ u r', referenceTable job u t = some r' := by
  induction ts generalizing s with
  | nil => exact absurd ht List.not_mem_nil
  | cons t' ts ih =>
    rw [List.foldlM_cons] at h
    obtain ⟨u, hu, h⟩ := Option.bind_eq_some_iff.mp h
    rcases List.mem_cons.mp ht with rfl | ht
    · exact ⟨s, u, hu⟩
    · exact ih h ht

theorem noOverflow_of_reference {r : State} (h : reference job mem = some r) :
    job.file.length < 0x100000000 ∧ NoOverflow job.file := by
  unfold reference at h
  dsimp only at h
  split_ifs at h with hsizes
  obtain ⟨hfile, hbss, hsum⟩ := hsizes
  refine ⟨hfile, hsum, hbss, fun i hi j hj hlt => ?_⟩
  obtain ⟨t, ht, rfl, rfl⟩ := exists_table job hi hlt
  obtain ⟨s, -, h⟩ := Option.bind_eq_some_iff.mp h
  obtain ⟨u, r', htable⟩ := referenceTable_of_foldlM h ht
  unfold referenceTable at htable
  dsimp only at htable
  rw [if_neg (Nat.not_le.mpr hj)] at htable
  split_ifs at htable with hlen
  have hheld := held_whole_iff.mp hlen
  omega

theorem readOffset_unknown {t : Table} {s s' : State} (ht : 2 ≤ t.j)
    (h : (relocTable job t).Ends s () s') :
    s'.readOffset = u32 (s.readOffset + leValue (read s.mem (countAddr job t) 4)) := by
  obtain ⟨n, _, hload, h⟩ := ends_bind_iff.mp h
  obtain ⟨rfl, rfl⟩ := ends_gets_iff.mp hload
  rw [if_pos ht] at h
  rw [← ends_modify_iff.mp h]

theorem unknownEmpty_of_follows (hsize : get3dsxSize job.file = some size)
    (hplaced : Placed job size) (haccepted : Accepted job mem)
    (h : FollowsReference job size mem) :
    job.file.length < 0x100000000 ∧ NoOverflow job.file ∧ UnknownEmpty job.file := by
  have hsized := get3dsxSize_sized hsize
  obtain ⟨htables, s₀, s₁, hparts, htabs, -⟩ := accepted_ends haccepted
  obtain ⟨⟨r, hr, -⟩, hskips⟩ := h
  obtain ⟨hfile, hno⟩ := noOverflow_of_reference hr
  refine ⟨hfile, hno, fun i hi j hj hunknown => ?_⟩
  obtain ⟨t, ht, rfl, rfl⟩ := exists_table job hi hj
  obtain ⟨pre, post, hsplit⟩ := List.append_of_mem ht
  rw [hsplit] at htabs
  obtain ⟨s, hpre, hrest⟩ := ends_each_append htabs
  obtain ⟨_, s', hthis, -⟩ := ends_bind_iff.mp hrest
  have hskip := hskips pre t post s₀ s s' hsplit hunknown hparts hpre hthis
  have hcounts := countsKept_each hsized hplaced hno htables
    (fun t' ht' => hsplit ▸ List.mem_append_left _ ht')
    (countsKept_of_ends hsized hplaced.pages hno htables hparts) hpre
  have hread := readOffset_unknown hunknown hthis
  rw [hcounts t ht] at hread
  -- the cursor has moved by the number of the entries at most
  have hle : s'.readOffset ≤ s.readOffset + relocCount job.file t.i t.j :=
    hread.trans_le (Nat.mod_le _ _)
  omega

/-- The segments of an accepted file are relocated as the format states it, and its unknown tables
are skipped, exactly where nothing overflows and there are no entries to skip. -/
theorem relocations_iff (hsize : get3dsxSize job.file = some size) (hplaced : Placed job size)
    (haccepted : Accepted job mem) : FollowsReference job size mem ↔
      job.file.length < 0x100000000 ∧ NoOverflow job.file ∧ UnknownEmpty job.file := by
  have hsized := get3dsxSize_sized hsize
  obtain ⟨htables, s₀, s₁, hparts, htabs, hfinal⟩ := accepted_ends haccepted
  constructor
  · exact unknownEmpty_of_follows hsize hplaced haccepted
  · rintro ⟨hfile, hno, hempty⟩
    obtain ⟨r₀, hr₀, hin₀⟩ := parts_inStep hsized hplaced hno htables hfile hparts
    have hcounts := countsKept_of_ends hsized hplaced.pages hno htables hparts
    constructor
    · obtain ⟨r₁, hr₁, hin₁⟩ := relocTables_inStep hsized hplaced hno htables hfile hempty
        (fun _ ht => ht) hcounts hin₀ htabs
      refine ⟨r₁, ?_, ?_⟩
      · unfold reference
        dsimp only
        rw [if_pos ⟨hfile, hno.bss, hno.sum⟩, hr₀]
        exact hr₁
      · rw [hfinal]
        exact fillPrm_same hsized hplaced hno hin₁.same
    · intro pre t post u s s' hsplit hunknown hu hpre hthis
      obtain ⟨-, rfl⟩ := ends_unique hparts hu
      have ht : t ∈ tables job := hsplit ▸ List.mem_append_right _ List.mem_cons_self
      have hpres : ∀ t' ∈ pre, t' ∈ tables job := fun t' ht' =>
        hsplit ▸ List.mem_append_left _ ht'
      obtain ⟨r, -, hin⟩ := relocTables_inStep hsized hplaced hno htables hfile hempty hpres hcounts
        hin₀ hpre
      obtain ⟨hi, hj⟩ := mem_tables ht
      have hread := readOffset_unknown hunknown hthis
      rw [countsKept_each hsized hplaced hno htables hpres hcounts hpre t ht,
        hempty t.i hi t.j hj hunknown] at hread
      rw [hempty t.i hi t.j hj hunknown, hread]
      exact Nat.mod_eq_of_lt hin.offset_lt

end

/-- A word of code, 1, and an absolute relocation of it. -/
def relocatedFile : List UInt8 :=
  [0x33, 0x44, 0x53, 0x58, 32, 0, 8, 0] ++ List.replicate 8 0 ++ [4, 0, 0, 0] ++
    List.replicate 12 0 ++ [1, 0, 0, 0] ++ List.replicate 20 0 ++ [1, 0, 0, 0] ++ [0, 0, 1, 0]

theorem relocatedFile_follows :
    FollowsReference (jobOf relocatedFile) 0x2000 fun _ => 0 := by
  have haccepted : Accepted (jobOf relocatedFile) fun _ => 0 := by
    show Option.isSome _ = true
    decide +kernel
  have hempty : UnknownEmpty relocatedFile := by
    unfold UnknownEmpty
    decide +kernel
  refine (relocations_iff (by decide +kernel) ⟨by decide, by decide, .inr (by decide)⟩
    haccepted).mpr ⟨by decide +kernel, ⟨?_, ?_, ?_⟩, hempty⟩
  · decide +kernel
  · decide +kernel
  · decide +kernel

/-- A table of an unknown kind, with one entry, to be skipped. -/
def unknownTableFile : List UInt8 :=
  [0x33, 0x44, 0x53, 0x58, 32, 0, 12, 0] ++ List.replicate 32 0 ++ [1, 0, 0, 0] ++
    List.replicate 28 0

theorem unknown_table_is_misread : ¬∀ (job : Job) (size : ℕ) (mem : Memory),
    get3dsxSize job.file = some size → Placed job size → Accepted job mem →
      FollowsReference job size mem := by
  intro h
  have hsize : get3dsxSize (jobOf unknownTableFile).file = some 0x1000 := by decide +kernel
  have hplaced : Placed (jobOf unknownTableFile) 0x1000 :=
    ⟨by decide, by decide, .inr (by decide)⟩
  have haccepted : Accepted (jobOf unknownTableFile) fun _ => 0 := by
    show Option.isSome _ = true
    decide +kernel
  obtain ⟨-, -, hempty⟩ := unknownEmpty_of_follows hsize hplaced haccepted
    (h _ 0x1000 (fun _ => 0) hsize hplaced haccepted)
  have hone : relocCount (jobOf unknownTableFile).file 0 2 = 0 :=
    hempty 0 (by decide) 2 (by decide +kernel) (by decide)
  exact absurd hone (by decide +kernel)

end Presence3DS.Loader.ThreeDsx
