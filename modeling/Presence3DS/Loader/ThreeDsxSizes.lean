import Presence3DS.Loader.ThreeDsxWrites

/-! Files that are loaded safely: nothing overflows in 32 bits, and no count is negative. -/

namespace Presence3DS.Loader.ThreeDsx

open NotedRuns NotedM RawMemory

/-- A count of a relocation header as the file has it. -/
def relocCount (file : List UInt8) (i j : ℕ) : ℕ :=
  leValue ((file.drop ((header file).headerSize + i * (header file).relocHdrSize + 4 * j)).take 4)

/-- The computed size is the sum as such, and so is the size of the loaded part of the data. -/
structure NoOverflow (file : List UInt8) : Prop where
  sum : pageUp (header file).codeSegSize + pageUp (header file).rodataSegSize +
    pageUp (header file).dataSegSize + 0x1000 < 0x100000000
  bss : (header file).bssSize ≤ (header file).dataSegSize
  counts : ∀ i < 3, ∀ j < 2, j < nRelocTables (header file) → relocCount file i j < 0x80000000

/-! ## Memory behind the writes -/

/-- It leaves alone what its stores do not cover. -/
def Keeps {α : Type} (x : LoaderM α) : Prop :=
  ∀ s a, (∀ w ∈ (x s).2.2, a < w.addr ∨ w.addr + w.len ≤ a) → (x s).2.1.mem a = s.mem a

section
variable {α β : Type} {x : LoaderM α} {f : α → LoaderM β}

theorem keeps_pure (a : α) : Keeps (pure a : LoaderM α) := fun _ _ _ => rfl

theorem keeps_fail : Keeps (fail : LoaderM α) := fun _ _ _ => rfl

theorem keeps_gets (g : State → α) : Keeps (gets g : LoaderM α) := fun _ _ _ => rfl

theorem keeps_ofOption (o : Option α) : Keeps (ofOption o : LoaderM α) := by
  cases o with
  | none => exact keeps_fail
  | some a => exact keeps_pure a

theorem keeps_store (target : Target) (addr : ℕ) (bytes : List UInt8) :
    Keeps (store target addr bytes) := by
  intro s a h
  exact write_outside (h ⟨target, addr, bytes.length⟩ (List.mem_singleton_self _))

theorem keeps_readOffset (g : State → ℕ) :
    Keeps (modify fun s => { s with readOffset := g s } : LoaderM Unit) := fun _ _ _ => rfl

theorem keeps_bind (hx : Keeps x) (hf : ∀ a, Keeps (f a)) : Keeps (x >>= f) := by
  intro s a
  have hxs := hx s a
  show (∀ w ∈ (NotedM.bind x f s).2.2, _) → (NotedM.bind x f s).2.1.mem a = _
  unfold NotedM.bind
  rcases hrun : x s with ⟨_ | b, t, noted⟩
  · rw [hrun] at hxs
    exact hxs
  · rw [hrun] at hxs
    intro h
    have hft := hf b t a fun w hw => h w (List.mem_append_right _ hw)
    exact hft.trans (hxs fun w hw => h w (List.mem_append_left _ hw))

theorem keeps_ite {p : Prop} [Decidable p] {y : LoaderM α} (hx : Keeps x) (hy : Keeps y) :
    Keeps (if p then x else y) := by
  split_ifs
  · exact hx
  · exact hy

end

section
variable {job : Job}

theorem keeps_readNext (file : List UInt8) (target : Target) (buf size : ℕ) :
    Keeps (readNext file target buf size) :=
  keeps_bind (keeps_gets _) fun data => keeps_bind (keeps_store target buf data) fun _ =>
    keeps_ite keeps_fail (keeps_readOffset _)

theorem keeps_patchWords (kind e left pos : ℕ) : Keeps (patchWords job kind e left pos) := by
  induction left generalizing pos with
  | zero => exact keeps_pure pos
  | succ left ih =>
    refine keeps_ite (keeps_bind (keeps_gets _) fun origData => ?_) (keeps_pure pos)
    exact keeps_bind (keeps_ofOption _) fun data => keeps_bind (keeps_store _ _ _) fun _ => ih _

theorem keeps_applyRelocs (kind e left k pos : ℕ) :
    Keeps (applyRelocs job kind e left k pos) := by
  induction left generalizing k pos with
  | zero => exact keeps_pure pos
  | succ left ih =>
    refine keeps_ite (keeps_bind (keeps_gets _) fun skip => ?_) (keeps_pure pos)
    exact keeps_bind (keeps_gets _) fun nPatches =>
      keeps_bind (keeps_patchWords kind e nPatches _) fun pos => ih (k + 1) pos

theorem keeps_relocate (kind e nRelocs pos : ℕ) : Keeps (relocate job kind e nRelocs pos) := by
  induction nRelocs using Nat.strong_induction_on generalizing pos with
  | _ nRelocs ih =>
    rw [relocate]
    split_ifs with hzero
    · exact keeps_pure ()
    · have hless := Nat.sub_lt (Nat.pos_of_ne_zero hzero) (toDo_pos hzero)
      exact keeps_bind (keeps_readNext _ _ _ _) fun _ =>
        keeps_bind (keeps_applyRelocs kind e _ 0 pos) fun pos => ih _ hless pos

theorem keeps_relocTable (t : Table) : Keeps (relocTable job t) :=
  keeps_bind (keeps_gets _) fun nRelocs => keeps_ite (keeps_readOffset _)
    (keeps_ite keeps_fail (keeps_relocate t.j (endPos t) nRelocs t.segment.ptr))

end

/-! ## The parts -/

theorem length_held_le (file : List UInt8) (size off : ℕ) : (held file size off).length ≤ size :=
  List.length_take_le _ _

theorem halfField_lt (file : List UInt8) (off : ℕ) :
    leValue ((file.drop off).take 2) < 0x10000 := by
  calc leValue ((file.drop off).take 2)
    _ < 256 ^ ((file.drop off).take 2).length := leValue_lt _
    _ ≤ 256 ^ 2 := Nat.pow_le_pow_right (by decide) (List.length_take_le 2 _)

theorem drop_held {file : List UInt8} {size off k : ℕ} (h : k + 4 ≤ size) :
    ((held file size off).drop k).take 4 = (file.drop (off + k)).take 4 := by
  rw [held, List.drop_take, List.take_take, List.drop_drop, Nat.min_eq_left (by omega)]

section
variable {job : Job} {size : ℕ} {mem : Memory} {s s' : State}
  (hsized : Sized (header job.file) size) (hmem : job.codePages + size ≤ userEnd)
  (hno : NoOverflow job.file) (htables : 3 * 4 * nRelocTables (header job.file) ≤ 0x1000)

include hsized hno in
theorem size_eq : size = pageUp (header job.file).codeSegSize +
    pageUp (header job.file).rodataSegSize + pageUp (header job.file).dataSegSize + 0x1000 :=
  hsized.size.trans (Nat.mod_eq_of_lt hno.sum)

include hno in
theorem dataLoadSegSize_le : dataLoadSegSize (header job.file) ≤ (header job.file).dataSegSize := by
  have hbss := hno.bss
  have hdata : (header job.file).dataSegSize < 0x100000000 := field_lt job.file 24
  unfold dataLoadSegSize u32
  omega

include hsized hno htables in
theorem fits_partOffsets : ∀ p ∈ partOffsets (header job.file), Fits size p.1 p.2 := by
  have hsize := size_eq hsized hno
  have hsum := hno.sum
  have hload := dataLoadSegSize_le hno
  have hcode := hsized.code
  have hrodata := hsized.rodata
  have hdata := hsized.data
  have htable {i : ℕ} (hi : i < 3) : Fits size (u32 (pageUp (header job.file).codeSegSize +
      pageUp (header job.file).rodataSegSize + pageUp (header job.file).dataSegSize +
      4 * (i * nRelocTables (header job.file)))) (header job.file).relocHdrSize := by
    have hin : i * nRelocTables (header job.file) ≤ 2 * nRelocTables (header job.file) :=
      Nat.mul_le_mul_right _ (Nat.le_of_lt_succ hi)
    generalize i * nRelocTables (header job.file) = k at hin ⊢
    unfold nRelocTables at hin htables
    unfold Fits u32
    omega
  intro p hp
  simp only [partOffsets, List.mem_cons, List.not_mem_nil, or_false] at hp
  rcases hp with rfl | rfl | rfl | rfl | rfl | rfl
  · exact htable (Nat.zero_lt_succ 2)
  · exact htable (by decide)
  · exact htable (by decide)
  · exact Or.inr (by omega)
  · exact Or.inr (by omega)
  · refine Or.inr ?_
    show u32 _ + dataLoadSegSize _ ≤ size
    unfold u32
    omega

theorem part_ends {p : ℕ × ℕ} {ps : List (ℕ × ℕ)}
    (h : (each (readPart job) (p :: ps)).Ends s () s') :
    (held job.file p.2 s.readOffset).length = p.2 ∧
      (each (readPart job) ps).Ends ⟨write s.mem p.1 (held job.file p.2 s.readOffset),
        u32 (s.readOffset + p.2)⟩ () s' := by
  obtain ⟨_, t, hhead, htail⟩ := ends_bind_iff.mp h
  obtain ⟨hlen, rfl⟩ := readNext_ends hhead
  exact ⟨hlen, htail⟩

theorem read_headers {m : Memory} {base n len : ℕ} {b₀ b₁ b₂ : List UInt8} (hn : len / 4 = n)
    (h₀ : b₀.length = len) (h₁ : b₁.length = len) (h₂ : b₂.length = len) {i j : ℕ} (hi : i < 3)
    (hj : j < n) :
    read (write (write (write m base b₀) (base + 4 * n) b₁) (base + 4 * (2 * n)) b₂)
      (base + 4 * (i * n + j)) 4 = (([b₀, b₁, b₂].getD i []).drop (4 * j)).take 4 := by
  rcases (by omega : i = 0 ∨ i = 1 ∨ i = 2) with rfl | rfl | rfl
  · rw [read_write_of_disjoint (Or.inl (by omega)), read_write_of_disjoint (Or.inl (by omega)),
      Nat.zero_mul, Nat.zero_add, read_write_part (by omega)]
    rfl
  · rw [read_write_of_disjoint (Or.inl (by omega)), Nat.one_mul, Nat.mul_add, ← Nat.add_assoc,
      read_write_part (by omega)]
    rfl
  · rw [Nat.mul_add, ← Nat.add_assoc, read_write_part (by omega)]
    rfl

include hsized hmem hno htables in
theorem counts_of_ends (h : (each (readPart job) (parts job)).Ends (start job mem) () s) {i j : ℕ}
    (hi : i < 3) (hj : j < nRelocTables (header job.file)) :
    leValue (read s.mem (u32 ((loadInfo job).extraPage +
      4 * (i * nRelocTables (header job.file) + j))) 4) = relocCount job.file i j := by
  have hsize := size_eq hsized hno
  have hload := dataLoadSegSize_le hno
  have hcode := hsized.code
  have hrodata := hsized.rodata
  have hdata := hsized.data
  have hextra := extraPage_add hsized hmem (by omega : 0 < size)
  unfold userEnd at hmem
  have hin : i * nRelocTables (header job.file) ≤ 2 * nRelocTables (header job.file) :=
    Nat.mul_le_mul_right _ (Nat.le_of_lt_succ hi)
  obtain ⟨h₀, h⟩ := part_ends h
  obtain ⟨h₁, h⟩ := part_ends h
  obtain ⟨h₂, h⟩ := part_ends h
  obtain ⟨h₃, h⟩ := part_ends h
  obtain ⟨h₄, h⟩ := part_ends h
  obtain ⟨h₅, -, rfl⟩ := part_ends h
  have hhdr : (header job.file).headerSize < 0x10000 := halfField_lt job.file 4
  have hreloc : (header job.file).relocHdrSize < 0x10000 := halfField_lt job.file 6
  have hrodataPtr : (loadInfo job).rodata.ptr = job.codePages +
      pageUp (header job.file).codeSegSize := by
    show u32 (job.codePages + pageUp _) = _
    unfold u32
    omega
  have hdataPtr : (loadInfo job).data.ptr = job.codePages + pageUp (header job.file).codeSegSize +
      pageUp (header job.file).rodataSegSize := by
    show u32 (u32 (job.codePages + pageUp _) + pageUp _) = _
    unfold u32
    omega
  have haddr {k : ℕ} (hk : k < 0x400) :
      u32 ((loadInfo job).extraPage + 4 * k) = (loadInfo job).extraPage + 4 * k :=
    Nat.mod_eq_of_lt (by omega)
  have hread₁ : u32 ((header job.file).headerSize + (header job.file).relocHdrSize) =
      (header job.file).headerSize + (header job.file).relocHdrSize := Nat.mod_eq_of_lt (by omega)
  have hread₂ : u32 ((header job.file).headerSize + (header job.file).relocHdrSize +
      (header job.file).relocHdrSize) = (header job.file).headerSize +
        2 * (header job.file).relocHdrSize := by
    unfold u32
    omega
  replace h₀ : (held job.file (header job.file).relocHdrSize
    (header job.file).headerSize).length = (header job.file).relocHdrSize := h₀
  replace h₁ : (held job.file (header job.file).relocHdrSize
    (u32 ((header job.file).headerSize + _))).length = (header job.file).relocHdrSize := h₁
  replace h₂ : (held job.file (header job.file).relocHdrSize
    (u32 (u32 ((header job.file).headerSize + _) + _))).length =
      (header job.file).relocHdrSize := h₂
  rw [haddr (by omega)]
  show leValue (read (write (write (write (write (write (write mem
    (u32 ((loadInfo job).extraPage + 4 * (0 * nRelocTables (header job.file))))
      (held job.file (header job.file).relocHdrSize (header job.file).headerSize))
    (u32 ((loadInfo job).extraPage + 4 * (1 * nRelocTables (header job.file))))
      (held job.file (header job.file).relocHdrSize (u32 ((header job.file).headerSize + _))))
    (u32 ((loadInfo job).extraPage + 4 * (2 * nRelocTables (header job.file))))
      (held job.file (header job.file).relocHdrSize
        (u32 (u32 ((header job.file).headerSize + _) + _))))
    job.codePages _) (loadInfo job).rodata.ptr _) (loadInfo job).data.ptr _) _ 4) = _
  have hn : (header job.file).relocHdrSize / 4 = nRelocTables (header job.file) := rfl
  rw [hread₁, hread₂] at h₂ ⊢
  rw [hread₁] at h₁
  rw [haddr (by omega), haddr (by omega), haddr (by omega), Nat.zero_mul, Nat.mul_zero,
    Nat.add_zero, Nat.one_mul, read_write_of_disjoint (Or.inr ?_), read_write_of_disjoint (Or.inr ?_),
    read_write_of_disjoint (Or.inr ?_), read_headers hn h₀ h₁ h₂ hi hj]
  · refine congrArg leValue ?_
    have hword : 4 * j + 4 ≤ (header job.file).relocHdrSize := by
      unfold nRelocTables at hj
      omega
    rcases (by omega : i = 0 ∨ i = 1 ∨ i = 2) with rfl | rfl | rfl
    · rw [Nat.zero_mul, Nat.add_zero]
      exact drop_held hword
    · rw [Nat.one_mul]
      exact drop_held hword
    · exact drop_held hword
  · refine (Nat.add_le_add_left (length_held_le _ _ _) _).trans ?_
    show job.codePages + (header job.file).codeSegSize ≤ _
    omega
  · refine (Nat.add_le_add_left (length_held_le _ _ _) _).trans ?_
    show (loadInfo job).rodata.ptr + (header job.file).rodataSegSize ≤ _
    omega
  · refine (Nat.add_le_add_left (length_held_le _ _ _) _).trans ?_
    show (loadInfo job).data.ptr + dataLoadSegSize (header job.file) ≤ _
    omega

theorem mem_tables {t : Table} (ht : t ∈ tables job) :
    t.i < 3 ∧ t.j < nRelocTables (header job.file) := by
  obtain ⟨⟨i, segment⟩, hsegment, ht⟩ := List.mem_flatMap.mp ht
  obtain ⟨j, hj, rfl⟩ := List.mem_map.mp ht
  refine ⟨?_, List.mem_range.mp hj⟩
  simp only [List.mem_cons, Prod.mk.injEq, List.not_mem_nil, or_false] at hsegment
  show i < 3
  omega

include hsized hmem hno htables in
theorem countAddr_spec {t : Table} (ht : t ∈ tables job) :
    (loadInfo job).extraPage ≤ countAddr job t ∧
      countAddr job t + 4 ≤ (loadInfo job).extraPage + 0x1000 := by
  obtain ⟨hi, hj⟩ := mem_tables ht
  have hsize := size_eq hsized hno
  have hextra := extraPage_add hsized hmem (by omega : 0 < size)
  have hin : t.i * nRelocTables (header job.file) ≤ 2 * nRelocTables (header job.file) :=
    Nat.mul_le_mul_right _ (Nat.le_of_lt_succ hi)
  have haddr : countAddr job t =
      (loadInfo job).extraPage + 4 * (t.i * nRelocTables (header job.file) + t.j) := by
    unfold userEnd at hmem
    exact Nat.mod_eq_of_lt (by omega)
  omega

/-- The counts that the loader comes to are those of the file. -/
def CountsKept (job : Job) (s : State) : Prop :=
  ∀ t ∈ tables job, leValue (read s.mem (countAddr job t) 4) = relocCount job.file t.i t.j

include hsized hmem hno htables in
theorem relocTable_extra (hbuf : job.relocBuf + relocBufBytes ≤ job.codePages ∨
      job.codePages + size ≤ job.relocBuf) {t : Table} (ht : t ∈ tables job)
    (hfit : TableFits job t s) (h : (relocTable job t).Ends s () s') {a : ℕ}
    (ha : (loadInfo job).extraPage ≤ a ∧ a < (loadInfo job).extraPage + 0x1000) :
    s'.mem a = s.mem a := by
  obtain ⟨hpos, hinside⟩ := inside_of_fits hsized hmem (fits_partOffsets hsized hno htables) ht
  have hextra := extraPage_add hsized hmem hpos
  have hroom : (loadInfo job).extraPage = job.codePages + (size - 0x1000) := by
    have hsize := size_eq hsized hno
    omega
  have hclean := (clean_relocTable (by omega) hroom.le hinside).mpr hfit
  rw [← h.2]
  refine keeps_relocTable t s a fun w hw => ?_
  have hwithin := hclean w hw
  obtain ⟨_ | _, addr, len⟩ := w
  · have hwithin : len = 0 ∨ job.codePages ≤ addr ∧
      addr + len ≤ job.codePages + (size - 0x1000) := hwithin
    show a < addr ∨ addr + len ≤ a
    omega
  · have hwithin : len = 0 ∨ job.relocBuf ≤ addr ∧
      addr + len ≤ job.relocBuf + relocBufBytes := hwithin
    show a < addr ∨ addr + len ≤ a
    omega

include hno in
theorem tableFits_of_counts {t : Table} (ht : t ∈ tables job) (hcounts : CountsKept job s) :
    TableFits job t s := by
  obtain ⟨hi, hj⟩ := mem_tables ht
  rw [TableFits, hcounts t ht]
  rcases Nat.lt_or_ge t.j 2 with hused | hunused
  · exact Or.inr (Or.inr (Or.inl (hno.counts t.i hi t.j hused hj)))
  · exact Or.inl hunused

include hsized hmem hno htables in
theorem countsKept_of_ends (h : (each (readPart job) (parts job)).Ends (start job mem) () s) :
    CountsKept job s := by
  intro t ht
  obtain ⟨hi, hj⟩ := mem_tables ht
  exact counts_of_ends hsized hmem hno htables h hi hj

include hsized hmem hno htables in
theorem CountsKept.relocTable (hbuf : job.relocBuf + relocBufBytes ≤ job.codePages ∨
      job.codePages + size ≤ job.relocBuf) {t : Table} (ht : t ∈ tables job)
    (hcounts : CountsKept job s) (h : (relocTable job t).Ends s () s') : CountsKept job s' := by
  intro t' ht'
  rw [← hcounts t' ht']
  refine congrArg leValue (read_congr fun k hk => ?_)
  refine relocTable_extra hsized hmem hno htables hbuf ht (tableFits_of_counts hno ht hcounts) h ?_
  have haddr := countAddr_spec hsized hmem hno htables ht'
  omega

include hsized hmem hno in
end

end Presence3DS.Loader.ThreeDsx
