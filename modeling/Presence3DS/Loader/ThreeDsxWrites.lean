import Presence3DS.Loader.ThreeDsx

/-! What a 3DSX file has to meet for all the writes of its loading to stay in the memory whose size
has been computed from it: the sizes are added and subtracted in 32 bits, and a count of relocations
is taken for a signed number. -/

namespace Presence3DS.Loader.ThreeDsx

open NotedRuns NotedM RawMemory

/-- `len` bytes at an offset in a memory of `size` bytes. -/
def Fits (size off len : ℕ) : Prop := len = 0 ∨ off + len ≤ size

/-- The parts with the offsets they are read to, as sums of 32 bits. -/
def partOffsets (hdr : Header) : List (ℕ × ℕ) :=
  let extra := pageUp hdr.codeSegSize + pageUp hdr.rodataSegSize + pageUp hdr.dataSegSize
  let table (i : ℕ) := (u32 (extra + 4 * (i * nRelocTables hdr)), hdr.relocHdrSize)
  [table 0, table 1, table 2, (0, hdr.codeSegSize), (pageUp hdr.codeSegSize, hdr.rodataSegSize),
    (u32 (pageUp hdr.codeSegSize + pageUp hdr.rodataSegSize), dataLoadSegSize hdr)]

/-- As far as the file holds them, the parts fit. Nothing is read behind one that it does not
hold. -/
def PartsFit (file : List UInt8) (size : ℕ) : ℕ → List (ℕ × ℕ) → Prop
  | _, [] => True
  | readOffset, (off, len) :: rest =>
    Fits size off (held file len readOffset).length ∧
      ((held file len readOffset).length = len →
        PartsFit file size (u32 (readOffset + len)) rest)

/-- Of a table with a count that is a negative `int`, no more is read than `s_relocBuf` can hold. -/
def TableFits (job : Job) (t : Table) (s : State) : Prop :=
  2 ≤ t.j ∨ (loadInfo job).extraPage < endPos t ∨
    leValue (read s.mem (countAddr job t) 4) < 0x80000000 ∨
    (held job.file (u32 (4 * leValue (read s.mem (countAddr job t) 4))) s.readOffset).length ≤
      relocBufBytes

def HasPrm (job : Job) (s : State) : Prop := leValue (read s.mem (prmAddr job 0) 4) = prmMagic

/-- The parts fit, and so do the relocation tables that are come to. -/
def Covered (job : Job) (size : ℕ) (mem : Memory) : Prop :=
  3 * 4 * nRelocTables (header job.file) ≤ 0x1000 →
    PartsFit job.file size (header job.file).headerSize (partOffsets (header job.file)) ∧
    ∀ s, (each (readPart job) (parts job)).Ends (start job mem) () s →
      EachMeets (TableFits job) (relocTable job) (tables job) s ∧
      ∀ s', (each (relocTable job) (tables job)).Ends s () s' → size = 0 → ¬ HasPrm job s'

/-- User memory ends here. -/
def userEnd : ℕ := 0x40000000

/-! ## Sizes -/

theorem pageUp_spec (n : ℕ) : pageUp n % 0x1000 = 0 ∧ pageUp n < 0x100000000 ∧
    (n ≤ pageUp n → pageUp n < n + 0x1000) := by
  unfold pageUp u32
  omega

theorem field_lt (file : List UInt8) (off : ℕ) :
    leValue ((file.drop off).take 4) < 0x100000000 := by
  calc leValue ((file.drop off).take 4)
    _ < 256 ^ ((file.drop off).take 4).length := leValue_lt _
    _ ≤ 256 ^ 4 := Nat.pow_le_pow_right (by decide) (List.length_take_le 4 _)

theorem half_lt (m : Memory) (addr : ℕ) : leValue (read m addr 2) < 0x10000 := by
  have hlt := leValue_lt (read m addr 2)
  rwa [length_read] at hlt

/-- What the size pass has checked. -/
structure Sized (hdr : Header) (size : ℕ) : Prop where
  code : hdr.codeSegSize ≤ pageUp hdr.codeSegSize
  rodata : hdr.rodataSegSize ≤ pageUp hdr.rodataSegSize
  data : hdr.dataSegSize ≤ pageUp hdr.dataSegSize
  size : size = u32 (pageUp hdr.codeSegSize + pageUp hdr.rodataSegSize + pageUp hdr.dataSegSize +
    0x1000)

theorem get3dsxSize_sized {file : List UInt8} {size : ℕ} (h : get3dsxSize file = some size) :
    Sized (header file) size := by
  simp only [get3dsxSize, Option.ite_none_left_eq_some, Option.some.injEq, not_not] at h
  obtain ⟨-, -, hcode, hrodata, hdata, hsize⟩ := h
  exact ⟨hcode, hrodata, hdata, hsize.symm⟩

theorem Sized.page {hdr : Header} {size : ℕ} (h : Sized hdr size) : size % 0x1000 = 0 := by
  have hcode := (pageUp_spec hdr.codeSegSize).1
  have hrodata := (pageUp_spec hdr.rodataSegSize).1
  have hdata := (pageUp_spec hdr.dataSegSize).1
  rw [h.size]
  unfold u32
  omega

section
variable {job : Job} {size : ℕ} (hsized : Sized (header job.file) size)
  (hmem : job.codePages + size ≤ userEnd)

/-! ## Places in the memory -/

def place (job : Job) (p : ℕ × ℕ) : ℕ × ℕ := (u32 (job.codePages + p.1), p.2)

include hmem in
theorem within_place_iff {off len : ℕ} (hoff : off < 0x100000000) :
    (⟨.pages, u32 (job.codePages + off), len⟩ : Store).Within job size ↔ Fits size off len := by
  show len = 0 ∨ job.codePages ≤ u32 (job.codePages + off) ∧
    u32 (job.codePages + off) + len ≤ job.codePages + size ↔ len = 0 ∨ off + len ≤ size
  unfold u32
  unfold userEnd at hmem
  omega

theorem within_relocBuf_iff {len : ℕ} :
    (⟨.relocs, job.relocBuf, len⟩ : Store).Within job size ↔ len ≤ relocBufBytes := by
  show len = 0 ∨ job.relocBuf ≤ job.relocBuf ∧ job.relocBuf + len ≤ job.relocBuf + relocBufBytes ↔ _
  omega

theorem extraPage_eq : (loadInfo job).extraPage = u32 (job.codePages +
    (pageUp (header job.file).codeSegSize + pageUp (header job.file).rodataSegSize +
      pageUp (header job.file).dataSegSize)) := by
  show u32 (u32 (u32 (job.codePages + pageUp _) + pageUp _) + pageUp _) = _
  unfold u32
  omega

include hmem in
theorem parts_eq : parts job = (partOffsets (header job.file)).map (place job) := by
  have htable (i : ℕ) : u32 ((loadInfo job).extraPage + 4 * (i * nRelocTables (header job.file))) =
      u32 (job.codePages + u32 (pageUp (header job.file).codeSegSize +
        pageUp (header job.file).rodataSegSize + pageUp (header job.file).dataSegSize +
        4 * (i * nRelocTables (header job.file)))) := by
    rw [extraPage_eq]
    unfold u32
    omega
  have hcode : job.codePages = u32 (job.codePages + 0) := by
    unfold u32
    unfold userEnd at hmem
    omega
  have hdata : (loadInfo job).data.ptr = u32 (job.codePages +
      u32 (pageUp (header job.file).codeSegSize + pageUp (header job.file).rodataSegSize)) := by
    show u32 (u32 (job.codePages + pageUp _) + pageUp _) = _
    unfold u32
    omega
  show [_, _, _, _, _, _] = [_, _, _, _, _, _]
  dsimp only
  rw [htable, htable, htable, hdata]
  unfold place
  rw [← hcode]
  rfl

theorem partOffsets_lt {p : ℕ × ℕ} (hp : p ∈ partOffsets (header job.file)) :
    p.1 < 0x100000000 := by
  have hu32 (n : ℕ) : u32 n < 0x100000000 := Nat.mod_lt _ (by decide)
  simp only [partOffsets, List.mem_cons, List.not_mem_nil, or_false] at hp
  rcases hp with rfl | rfl | rfl | rfl | rfl | rfl
  · exact hu32 _
  · exact hu32 _
  · exact hu32 _
  · exact Nat.zero_lt_succ _
  · exact (pageUp_spec _).2.1
  · exact hu32 _

end

/-! ## The parts -/

section
variable {job : Job} {size : ℕ} {s s' : State}

theorem wp_store {good : Store → Prop} {Q : Unit → State → Prop} {target : Target} {addr : ℕ}
    {bytes : List UInt8} : wp good (store target addr bytes) Q s ↔
      good ⟨target, addr, bytes.length⟩ ∧ Q () { s with mem := write s.mem addr bytes } :=
  wp_bind.trans (wp_note.trans (and_congr_right fun _ => wp_modify))

theorem wp_readNext {good : Store → Prop} {Q : Unit → State → Prop} {file : List UInt8}
    {target : Target} {buf len : ℕ} : wp good (readNext file target buf len) Q s ↔
      good ⟨target, buf, (held file len s.readOffset).length⟩ ∧
        ((held file len s.readOffset).length = len →
          Q () ⟨write s.mem buf (held file len s.readOffset), u32 (s.readOffset + len)⟩) := by
  refine wp_bind.trans (wp_gets.trans (wp_bind.trans (wp_store.trans ?_)))
  refine and_congr_right fun _ => ?_
  rw [wp_ite]
  split_ifs with hshort
  · exact ⟨fun _ h => absurd h hshort, fun _ => wp_fail⟩
  · rw [wp_modify]
    exact ⟨fun h _ => h, fun h => h (not_not.mp hshort)⟩

theorem clean_readNext {good : Store → Prop} {file : List UInt8} {target : Target} {buf len : ℕ} :
    Clean good (readNext file target buf len) s ↔
      good ⟨target, buf, (held file len s.readOffset).length⟩ :=
  clean_iff_wp.trans (wp_readNext.trans ⟨And.left, fun h => ⟨h, fun _ => trivial⟩⟩)

theorem readNext_ends {file : List UInt8} {target : Target} {buf len : ℕ}
    (h : (readNext file target buf len).Ends s () s') :
    (held file len s.readOffset).length = len ∧
      s' = ⟨write s.mem buf (held file len s.readOffset), u32 (s.readOffset + len)⟩ := by
  have hwp : wp (fun _ => True) (readNext file target buf len) (fun _ t =>
      (held file len s.readOffset).length = len ∧
        t = ⟨write s.mem buf (held file len s.readOffset), u32 (s.readOffset + len)⟩) s :=
    wp_readNext.mpr ⟨trivial, fun hlen => ⟨hlen, rfl⟩⟩
  exact hwp.2 () s' h

theorem clean_parts (hmem : job.codePages + size ≤ userEnd) {ps : List (ℕ × ℕ)}
    (hps : ∀ p ∈ ps, p.1 < 0x100000000) :
    Clean (Store.Within job size) (each (readPart job) (ps.map (place job))) s ↔
      PartsFit job.file size s.readOffset ps := by
  rw [clean_iff_wp]
  induction ps generalizing s with
  | nil => exact ⟨fun _ => trivial, fun _ => wp_pure.mpr trivial⟩
  | cons p ps ih =>
    obtain ⟨hp, hrest⟩ := List.forall_mem_cons.mp hps
    refine wp_bind.trans (wp_readNext.trans (and_congr (within_place_iff hmem hp) ?_))
    exact forall_congr' fun _ => ih hrest

theorem fits_of_ends {ps : List (ℕ × ℕ)} (hfit : PartsFit job.file size s.readOffset ps)
    (h : (each (readPart job) (ps.map (place job))).Ends s () s') :
    ∀ p ∈ ps, Fits size p.1 p.2 := by
  induction ps generalizing s with
  | nil => exact fun _ hp => absurd hp List.not_mem_nil
  | cons p ps ih =>
    obtain ⟨_, t, hhead, htail⟩ := ends_bind_iff.mp h
    obtain ⟨hlen, rfl⟩ := readNext_ends hhead
    have hlen : (held job.file p.2 s.readOffset).length = p.2 := hlen
    refine List.forall_mem_cons.mpr ⟨?_, ih (hfit.2 hlen) htail⟩
    have hfits := hfit.1
    rwa [hlen] at hfits

/-! ## The relocations -/

/-- A position that the patches may come to. -/
structure Inward (job : Job) (pos : ℕ) : Prop where
  codePages_le : job.codePages ≤ pos
  aligned : pos % 4 = job.codePages % 4

/-- What holds of the tables that are come to. -/
structure Inside (job : Job) (t : Table) : Prop where
  start : Inward job t.segment.ptr
  end_aligned : endPos t % 4 = job.codePages % 4

section
variable {room e kind : ℕ} (hmem : job.codePages + room ≤ userEnd) (he : e ≤ job.codePages + room)
  (haligned : e % 4 = job.codePages % 4)
include hmem he haligned

theorem wp_patchWords (left : ℕ) {pos : ℕ} (hpos : Inward job pos) :
    wp (Store.Within job room) (patchWords job kind e left pos)
      (fun pos' _ => Inward job pos') s := by
  unfold userEnd at hmem
  induction left generalizing pos s with
  | zero => exact wp_pure.mpr hpos
  | succ left ih =>
    rw [patchWords, wp_ite]
    split_ifs with hlt
    · obtain ⟨hle, hword⟩ := hpos
      refine wp_bind.mpr (wp_gets.mpr (wp_bind.mpr (wp_ofOption.mpr fun data _ => ?_)))
      refine wp_bind.mpr (wp_store.mpr ⟨Or.inr ⟨hle, ?_⟩, ih ⟨?_, ?_⟩⟩)
      · rw [length_leBytes]
        show pos + 4 ≤ _
        omega
      · unfold u32
        omega
      · unfold u32
        omega
    · exact wp_pure.mpr hpos

theorem wp_applyRelocs (left k : ℕ) {pos : ℕ} (hpos : Inward job pos) :
    wp (Store.Within job room) (applyRelocs job kind e left k pos)
      (fun pos' _ => Inward job pos') s := by
  induction left generalizing k pos s with
  | zero => exact wp_pure.mpr hpos
  | succ left ih =>
    rw [applyRelocs, wp_ite]
    split_ifs with hlt
    · refine wp_bind.mpr (wp_gets.mpr (wp_bind.mpr (wp_gets.mpr (wp_bind.mpr ?_))))
      have hskip := half_lt s.mem (u32 (job.relocBuf + 4 * k))
      refine wp_mono (fun pos' s' hpos' => ih (k + 1) hpos') (wp_patchWords hmem he haligned _ ?_)
      obtain ⟨hle, hword⟩ := hpos
      unfold userEnd at hmem
      generalize leValue (read s.mem (u32 (job.relocBuf + 4 * k)) 2) = skip at hskip ⊢
      refine ⟨?_, ?_⟩
      · unfold u32
        omega
      · unfold u32
        omega
    · exact wp_pure.mpr hpos

theorem wp_relocate {nRelocs : ℕ} (hn : nRelocs < 0x80000000) {pos : ℕ} (hpos : Inward job pos) :
    wp (Store.Within job room) (relocate job kind e nRelocs pos) (fun _ _ => True) s := by
  induction nRelocs using Nat.strong_induction_on generalizing pos s with
  | _ nRelocs ih =>
    rw [relocate]
    split_ifs with hzero
    · exact wp_pure.mpr trivial
    · have hpiece : toDo nRelocs ≤ maxRelocs := by
        unfold toDo
        split_ifs with hmany
        · exact le_rfl
        · omega
      refine wp_bind.mpr (wp_readNext.mpr ⟨within_relocBuf_iff.mpr ?_, fun _ => ?_⟩)
      · unfold relocBufBytes
        calc (held job.file (u32 (4 * toDo nRelocs)) s.readOffset).length
          _ ≤ u32 (4 * toDo nRelocs) := List.length_take_le _ _
          _ ≤ 4 * toDo nRelocs := Nat.mod_le _ _
          _ ≤ 4 * maxRelocs := Nat.mul_le_mul_left 4 hpiece
      · have hless := Nat.sub_lt (Nat.pos_of_ne_zero hzero) (toDo_pos hzero)
        refine wp_bind.mpr ?_
        refine wp_mono (fun pos' s' hpos' => ?_) (wp_applyRelocs hmem he haligned _ 0 hpos)
        exact ih _ hless (hless.trans hn) hpos'

theorem clean_relocate {nRelocs : ℕ} {pos : ℕ} (hpos : Inward job pos) :
    Clean (Store.Within job room) (relocate job kind e nRelocs pos) s ↔
      nRelocs < 0x80000000 ∨
        (held job.file (u32 (4 * nRelocs)) s.readOffset).length ≤ relocBufBytes := by
  rcases Nat.lt_or_ge nRelocs 0x80000000 with hlt | hge
  · exact iff_of_true (clean_iff_wp.mpr (wp_relocate hmem he haligned hlt hpos)) (Or.inl hlt)
  · have hwhole : toDo nRelocs = nRelocs := if_neg fun h => absurd h.1 (Nat.not_lt.mpr hge)
    rw [relocate, dif_neg (Nat.pos_iff_ne_zero.mp ((Nat.zero_lt_succ _).trans_le hge))]
    rw [clean_bind, clean_readNext, within_relocBuf_iff, hwhole, Nat.sub_self]
    constructor
    · intro h
      exact Or.inr h.1
    · intro h
      refine ⟨h.resolve_left (Nat.not_lt.mpr hge), fun _ s' _ => clean_bind.mpr ⟨?_, ?_⟩⟩
      · exact (wp_applyRelocs hmem he haligned _ 0 hpos).1
      · intro pos' t _
        rw [relocate, dif_pos rfl]
        exact clean_iff_wp.mpr (wp_pure.mpr trivial)

end

theorem clean_relocTable {room : ℕ} (hmem : job.codePages + room ≤ userEnd)
    (hextra : (loadInfo job).extraPage ≤ job.codePages + room) {t : Table} (ht : Inside job t) :
    Clean (Store.Within job room) (relocTable job t) s ↔ TableFits job t s := by
  rw [relocTable, clean_iff_wp, wp_bind]
  refine wp_gets.trans ?_
  rw [wp_ite, wp_ite, TableFits]
  split_ifs with hj hpast
  · exact iff_of_true (wp_modify.mpr trivial) (Or.inl hj)
  · rw [or_iff_right hj, or_iff_right (Nat.not_lt.mpr hpast), ← clean_iff_wp]
    exact clean_relocate hmem (hpast.trans hextra) ht.end_aligned ht.start
  · exact iff_of_true wp_fail (Or.inr (Or.inl (Nat.lt_of_not_le hpast)))

/-! ## The whole -/

section
variable (hsized : Sized (header job.file) size) (hmem : job.codePages + size ≤ userEnd)
include hsized hmem

theorem extraPage_add (hpos : 0 < size) :
    (loadInfo job).extraPage + 0x1000 = job.codePages + size := by
  have hsize := hsized.size
  have hpage := hsized.page
  rw [extraPage_eq]
  unfold u32 at hsize ⊢
  unfold userEnd at hmem
  omega

theorem inside_of_fits (hfits : ∀ p ∈ partOffsets (header job.file), Fits size p.1 p.2) {t : Table}
    (ht : t ∈ tables job) : 0 < size ∧ Inside job t := by
  obtain ⟨⟨i, segment⟩, hsegment, ht⟩ := List.mem_flatMap.mp ht
  obtain ⟨j, hj, rfl⟩ := List.mem_map.mp ht
  have hhdr : Fits size _ (header job.file).relocHdrSize := hfits _ (List.mem_cons_self ..)
  have hcode := hfits (0, (header job.file).codeSegSize) (by simp [partOffsets])
  have hrodata := hfits (pageUp (header job.file).codeSegSize, (header job.file).rodataSegSize)
    (by simp [partOffsets])
  have hn := List.mem_range.mp hj
  obtain ⟨hcodePage, -, hcodeUp⟩ := pageUp_spec (header job.file).codeSegSize
  obtain ⟨hrodataPage, -, hrodataUp⟩ := pageUp_spec (header job.file).rodataSegSize
  have hdataPage := (pageUp_spec (header job.file).dataSegSize).1
  have hcodeUp := hcodeUp hsized.code
  have hrodataUp := hrodataUp hsized.rodata
  have hpage := hsized.page
  unfold nRelocTables at hn
  unfold Fits at hhdr hcode hrodata
  have hends : pageUp (header job.file).codeSegSize + pageUp (header job.file).rodataSegSize ≤
      size := by omega
  unfold userEnd at hmem
  refine ⟨by omega, ?_⟩
  simp only [List.mem_cons, Prod.mk.injEq, List.not_mem_nil, or_false] at hsegment
  rcases hsegment with ⟨-, rfl⟩ | ⟨-, rfl⟩ | ⟨-, rfl⟩
  · refine ⟨⟨le_rfl, rfl⟩, ?_⟩
    show u32 (job.codePages + pageUp _) % 4 = _
    unfold u32
    omega
  · have hptr : (loadInfo job).rodata.ptr =
        job.codePages + pageUp (header job.file).codeSegSize := by
      show u32 (job.codePages + pageUp _) = _
      unfold u32
      omega
    refine ⟨⟨?_, ?_⟩, ?_⟩
    · show _ ≤ (loadInfo job).rodata.ptr
      omega
    · show (loadInfo job).rodata.ptr % 4 = _
      omega
    · show u32 ((loadInfo job).rodata.ptr + pageUp _) % 4 = _
      unfold u32
      omega
  · have hptr : (loadInfo job).data.ptr = job.codePages + pageUp (header job.file).codeSegSize +
        pageUp (header job.file).rodataSegSize := by
      show u32 (u32 (job.codePages + pageUp _) + pageUp _) = _
      unfold u32
      omega
    refine ⟨⟨?_, ?_⟩, ?_⟩
    · show _ ≤ (loadInfo job).data.ptr
      omega
    · show (loadInfo job).data.ptr % 4 = _
      omega
    · show u32 ((loadInfo job).data.ptr + pageUp _) % 4 = _
      unfold u32
      omega

theorem clean_fillPrm :
    Clean (Store.Within job size) (fillPrm job) s ↔ (size = 0 → ¬ HasPrm job s) := by
  rw [fillPrm, clean_iff_wp]
  refine wp_bind.trans (wp_gets.trans ?_)
  rw [wp_ite]
  by_cases hprm : HasPrm job s
  · rw [if_pos (show leValue (read s.mem (prmAddr job 0) 4) = prmMagic from hprm)]
    rcases Nat.eq_zero_or_pos size with hzero | hpos
    · refine iff_of_false (fun h => ?_) fun h => h hzero hprm
      have hwithin := (wp_store.mp (wp_bind.mp h)).1
      rw [List.length_replicate] at hwithin
      have hwithin : 0x1000 = 0 ∨ job.codePages ≤ (loadInfo job).extraPage ∧
        (loadInfo job).extraPage + 0x1000 ≤ job.codePages + size := hwithin
      omega
    · refine iff_of_true ?_ fun hzero => absurd hzero hpos.ne'
      have hadd := extraPage_add hsized hmem hpos
      have hpage := hsized.page
      have hextra {n : ℕ} (hn : n ≤ 0x1000) :
          (⟨.pages, (loadInfo job).extraPage, n⟩ : Store).Within job size := by
        refine Or.inr (⟨?_, ?_⟩ : job.codePages ≤ (loadInfo job).extraPage ∧
          (loadInfo job).extraPage + n ≤ job.codePages + size)
        · omega
        · omega
      have hfield {field v : ℕ} (hfield : field ≤ 24) :
          (⟨.pages, prmAddr job field, (leBytes 4 v).length⟩ : Store).Within job size := by
        unfold userEnd at hmem
        rw [length_leBytes]
        refine Or.inr (⟨?_, ?_⟩ : job.codePages ≤ u32 (job.codePages + 4 + field) ∧
          u32 (job.codePages + 4 + field) + 4 ≤ job.codePages + size)
        · unfold u32
          omega
        · unfold u32
          omega
      refine wp_bind.mpr (wp_store.mpr ⟨hextra ?_, wp_bind.mpr (wp_gets.mpr ?_)⟩)
      · rw [List.length_replicate]
      refine wp_bind.mpr (wp_store.mpr ⟨hextra ?_, ?_⟩)
      · rw [length_read]
        decide
      refine wp_bind.mpr (wp_store.mpr ⟨hfield (by decide), ?_⟩)
      refine wp_bind.mpr (wp_store.mpr ⟨hfield (by decide), wp_bind.mpr (wp_gets.mpr ?_)⟩)
      refine wp_bind.mpr (wp_store.mpr ⟨hfield (by decide), ?_⟩)
      refine wp_bind.mpr (wp_store.mpr ⟨hfield (by decide), ?_⟩)
      exact wp_store.mpr ⟨hfield (by decide), trivial⟩
  · rw [if_neg (show ¬ leValue (read s.mem (prmAddr job 0) 4) = prmMagic from hprm)]
    exact iff_of_true (wp_pure.mpr trivial) fun _ => hprm

theorem clean_relocTables {mem : Memory}
    (hfit : PartsFit job.file size (header job.file).headerSize (partOffsets (header job.file)))
    (hs : (each (readPart job) (parts job)).Ends (start job mem) () s) :
    Clean (Store.Within job size) (each (relocTable job) (tables job)) s ↔
      EachMeets (TableFits job) (relocTable job) (tables job) s := by
  rw [parts_eq hmem] at hs
  refine clean_each fun t ht s => ?_
  obtain ⟨hpos, hinside⟩ := inside_of_fits hsized hmem (fits_of_ends hfit hs) ht
  exact clean_relocTable hmem (Nat.le_of_add_right_le (extraPage_add hsized hmem hpos).le) hinside

theorem clean_codesetFrom3dsx (mem : Memory) :
    Clean (Store.Within job size) (codesetFrom3dsx job) (start job mem) ↔ Covered job size mem := by
  rw [codesetFrom3dsx, Covered, clean_iff_wp, wp_ite]
  split_ifs with htables
  · refine Iff.trans ?_ (forall_prop_of_true htables).symm
    have hparts := clean_parts (s := start job mem) hmem
      fun p (hp : p ∈ partOffsets (header job.file)) => partOffsets_lt hp
    rw [← parts_eq hmem] at hparts
    rw [← clean_iff_wp, clean_bind, hparts]
    refine and_congr_right fun hfit => ?_
    constructor
    · intro h s hs
      have hrest := clean_bind.mp (h () s hs)
      refine ⟨(clean_relocTables hsized hmem hfit hs).mp hrest.1, fun s' hs' => ?_⟩
      exact (clean_fillPrm hsized hmem).mp (clean_bind.mp (hrest.2 () s' hs')).1
    · intro h _ s hs
      obtain ⟨hmeets, hprm⟩ := h s hs
      refine clean_bind.mpr ⟨(clean_relocTables hsized hmem hfit hs).mpr hmeets, ?_⟩
      intro _ s' hs'
      refine clean_bind.mpr ⟨(clean_fillPrm hsized hmem).mpr (hprm s' hs'), fun _ _ _ => ?_⟩
      exact clean_iff_wp.mpr (wp_pure.mpr trivial)
  · exact iff_of_true wp_fail fun h => absurd h htables

end

end

/-- The writes stay in the memory exactly where the parts fit, and the negative counts do. -/
theorem stores_within_iff {job : Job} {size : ℕ} (hsize : get3dsxSize job.file = some size)
    (hmem : job.codePages + size ≤ userEnd) (mem : Memory) :
    (∀ w ∈ stores job mem, w.Within job size) ↔ Covered job size mem :=
  clean_codesetFrom3dsx (get3dsxSize_sized hsize) hmem mem

/-- A header alone: no segment, no relocation header. -/
def emptyFile : List UInt8 :=
  [0x33, 0x44, 0x53, 0x58, 32, 0, 0, 0] ++ List.replicate 24 0

def jobOf (file : List UInt8) : Job :=
  ⟨[], 0x10000000, 0x100000, file, 0, 0x14010000, 0x14010800, false⟩

theorem stores_within_iff_empty : get3dsxSize (jobOf emptyFile).file = some 0x1000 ∧
    ((∀ w ∈ stores (jobOf emptyFile) fun _ => 0, w.Within (jobOf emptyFile) 0x1000) ↔
      Covered (jobOf emptyFile) 0x1000 fun _ => 0) := by
  have hsize : get3dsxSize (jobOf emptyFile).file = some 0x1000 := by decide +kernel
  exact ⟨hsize, stores_within_iff hsize (by decide) _⟩

/-- The size of the BSS section is larger than that of the data segment, whose loaded part has
0x1001 bytes then. -/
def overfullFile : List UInt8 :=
  [0x33, 0x44, 0x53, 0x58, 32, 0, 0, 0] ++ List.replicate 20 0 ++ [0xFF, 0xEF, 0xFF, 0xFF] ++
    List.replicate 0x1001 0

/-- The file is accepted, and a byte is written behind the memory. -/
theorem stores_overfull : ¬ ∀ (job : Job) (size : ℕ) (mem : Memory),
    get3dsxSize job.file = some size → job.codePages + size ≤ userEnd →
      (∀ w ∈ stores job mem, w.Within job size) ∨ ¬ Accepted job mem := by
  intro h
  have hsize : get3dsxSize overfullFile = some 0x1000 := by decide +kernel
  have hstored : ⟨.pages, 0x10000000, 0x1001⟩ ∈ stores (jobOf overfullFile) fun _ => 0 := by
    decide +kernel
  have haccepted : Accepted (jobOf overfullFile) fun _ => 0 := by
    show Option.isSome _ = true
    decide +kernel
  rcases h (jobOf overfullFile) 0x1000 (fun _ => 0) hsize (by decide) with hall | hnot
  · have hwithin : 0x1001 = 0 ∨ 0x10000000 ≤ 0x10000000 ∧
      0x10000000 + 0x1001 ≤ 0x10000000 + 0x1000 := hall _ hstored
    exact absurd hwithin (by decide)
  · exact hnot haccepted

end Presence3DS.Loader.ThreeDsx
