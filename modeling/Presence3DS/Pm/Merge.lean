import Mathlib.Data.List.Count
import Presence3DS.Pm.ProcessLists

/-! `listMergeUniqueDependencies`: the entries of the flattened dependencies as functions of their
titles, and the references that each autoloaded module gets from them. -/

namespace Presence3DS.Pm

open ProcessList

variable {l l' : ProcessList} {p : ProcessData}

/-! ## References -/

/-- The autoloaded modules get as many references as `n` says of their ids. -/
def credited (n : ℕ → ℕ) (p : ProcessData) : ProcessData :=
  if p.autoloaded then { p with refcount := p.refcount + UInt8.ofNat (n p.pid) } else p

theorem keeps_credited (n : ℕ → ℕ) : Keeps (credited n) := by
  constructor <;> intro p <;> rw [credited] <;> split <;> first | rfl | exact id

theorem credited_terminationStatus (n : ℕ → ℕ) :
    (credited n p).terminationStatus = p.terminationStatus := by
  rw [credited]
  split <;> rfl

/-- No count of a module runs over. -/
def Fits (n : ℕ → ℕ) (l : ProcessList) : Prop :=
  ∀ p ∈ l.processes, p.autoloaded = true → p.refcount.toNat + n p.pid < 256

theorem credited_autoloaded (n : ℕ → ℕ) : (credited n p).autoloaded = p.autoloaded := by
  rw [credited]
  split <;> rfl

theorem Fits.toNat {n : ℕ → ℕ} (h : Fits n l) (hp : p ∈ l.processes) (hauto : p.autoloaded = true) :
    (credited n p).refcount.toNat = p.refcount.toNat + n p.pid := by
  have hlt := h p hp hauto
  rw [credited, if_pos hauto]
  show (p.refcount + UInt8.ofNat (n p.pid)).toNat = _
  rw [UInt8.toNat_add, UInt8.toNat_ofNat', Nat.mod_eq_of_lt ((Nat.le_add_left _ _).trans_lt hlt),
    Nat.mod_eq_of_lt hlt]

theorem credited_zero {n : ℕ → ℕ} (h : n p.pid = 0) : credited n p = p := by
  rw [credited, h]
  split
  · show { p with refcount := p.refcount + 0 } = p
    rw [UInt8.add_zero]
  · rfl

theorem credited_credited (n m : ℕ → ℕ) :
    credited m (credited n p) = credited (fun pid => n pid + m pid) p := by
  cases hauto : p.autoloaded with
  | false => simp [credited, hauto]
  | true =>
    simp only [credited, hauto, if_true]
    rw [UInt8.ofNat_add, UInt8.add_assoc]

theorem incref_eq {pid amount : ℕ} (h : l.Well) (hincref : l.incref pid amount = some l') :
    l' = l.map (credited fun q => if q = pid then amount else 0) ∧
      Fits (fun q => if q = pid then amount else 0) l := by
  have hother : ∀ {q : ProcessData}, q.pid ≠ pid →
      credited (fun q => if q = pid then amount else 0) q = q ∧
        q.refcount.toNat + (if q.pid = pid then amount else 0) < 256 := by
    intro q hq
    refine ⟨credited_zero (if_neg hq), ?_⟩
    rw [if_neg hq]
    exact q.refcount.toNat_lt
  rw [incref] at hincref
  cases hfind : l.findProcessById pid with
  | none =>
    have hne : ∀ q ∈ l.processes, q.pid ≠ pid := by
      intro q hq
      simpa using List.find?_eq_none.mp hfind q hq
    rw [hfind] at hincref
    obtain rfl : l = l' := Option.some.inj hincref
    exact ⟨(map_eq_self fun q hq => (hother (hne q hq)).1).symm,
      fun q hq _ => (hother (hne q hq)).2⟩
  | some p =>
    have hp : p ∈ l.processes := List.mem_of_find?_eq_some hfind
    have hpid : p.pid = pid := by simpa using List.find?_some hfind
    have hsame : ∀ q ∈ l.processes, q.pid = pid → q = p :=
      fun q hq hq' => h.eq_of_pid hq hp (hq'.trans hpid.symm)
    rw [hfind] at hincref
    cases hauto : p.autoloaded with
    | false =>
      simp only [hauto, Bool.false_eq_true, if_false] at hincref
      obtain rfl : l = l' := Option.some.inj hincref
      constructor
      · symm
        apply map_eq_self
        intro q hq
        by_cases hq' : q.pid = pid
        · simp [hsame q hq hq', credited, hauto]
        · exact (hother hq').1
      · intro q hq hqauto
        apply (hother _).2
        intro hq'
        rw [hsame q hq hq', hauto] at hqauto
        exact Bool.false_ne_true hqauto
    | true =>
      simp only [hauto, if_true] at hincref
      split at hincref
      · exact absurd hincref (by rintro ⟨⟩)
      · next hle =>
        obtain rfl := Option.some.inj hincref
        constructor
        · rw [update_eq_map]
          apply map_congr_left
          intro q hq
          rw [only]
          split
          · next hq' => rw [credited, hsame q hq hq', if_pos hauto, hpid, if_pos rfl]
          · next hq' => exact (hother hq').1.symm
        · intro q hq _
          by_cases hq' : q.pid = pid
          · simp only [hsame q hq hq', hpid, if_true]
            omega
          · exact (hother hq').2

/-- The references that the entries give to the process with the id. -/
def gain (deps : List Dependency) (pid : ℕ) : ℕ :=
  ((deps.filter fun d => d.proc = some pid).map (·.newrefcount)).sum

theorem gain_cons_none {d : Dependency} (deps : List Dependency) (hproc : d.proc = none) :
    gain (d :: deps) = gain deps := by
  funext pid
  rw [gain, List.filter_cons_of_neg (by simp [hproc])]
  rfl

theorem gain_cons_some {d : Dependency} {pid : ℕ} (deps : List Dependency)
    (hproc : d.proc = some pid) :
    gain (d :: deps) = fun q => (if q = pid then d.newrefcount else 0) + gain deps q := by
  funext q
  rw [gain, gain]
  by_cases hq : q = pid
  · rw [List.filter_cons_of_pos (by simp [hproc, hq]), List.map_cons, List.sum_cons, if_pos hq]
  · rw [List.filter_cons_of_neg (by simpa [hproc] using fun h => hq h.symm), if_neg hq,
      Nat.zero_add]

theorem Fits.add {n m : ℕ → ℕ} (hn : Fits n l) (hm : Fits m (l.map (credited n))) :
    Fits (fun pid => n pid + m pid) l := by
  intro p hp hauto
  have hlt := hm (credited n p) (mem_map.mpr ⟨p, hp, rfl⟩) (by rw [credited_autoloaded, hauto])
  rw [hn.toNat hp hauto, (keeps_credited n).pid] at hlt
  show _ + (n p.pid + m p.pid) < 256
  omega

theorem applyRefcounts_eq {deps : List Dependency} (h : l.Well)
    (happly : applyRefcounts l deps = some l') :
    l' = l.map (credited (gain deps)) ∧ Fits (gain deps) l := by
  induction deps generalizing l with
  | nil =>
    obtain rfl : l = l' := Option.some.inj happly
    exact ⟨(map_eq_self fun p _ => credited_zero rfl).symm, fun p _ _ => p.refcount.toNat_lt⟩
  | cons d deps ih =>
    rw [applyRefcounts, List.foldlM_cons] at happly
    cases hproc : d.proc with
    | none =>
      rw [gain_cons_none deps hproc]
      simp only [hproc] at happly
      exact ih h happly
    | some pid =>
      simp only [hproc] at happly
      obtain ⟨l₁, hincref, happly⟩ := Option.bind_eq_some_iff.mp happly
      obtain ⟨rfl, hfits⟩ := incref_eq h hincref
      obtain ⟨rfl, hfits'⟩ := ih (h.map (keeps_credited _)) happly
      rw [gain_cons_some deps hproc]
      refine ⟨?_, hfits.add hfits'⟩
      rw [ProcessList.map, ProcessList.map, ProcessList.map, List.map_map]
      congr 2
      funext p
      exact credited_credited _ _

/-! ## Entries -/

/-- The entries for the titles, with the references that wait for a process and the new ones. -/
def entries (l : ProcessList) (rem new : UInt64 → ℕ) (titles : List UInt64) : List Dependency :=
  titles.map fun t => ⟨t, (l.findProcessByTitleId t).map (·.pid), rem t, new t⟩

variable {rem new : UInt64 → ℕ} {titles : List UInt64}

theorem entries_map {f : ProcessData → ProcessData} (hf : Keeps f) :
    entries (l.map f) rem new titles = entries l rem new titles := by
  apply List.map_congr_left
  intro t _
  rw [findProcessByTitleId_map hf, Option.map_map, show (fun p : ProcessData => p.pid) ∘ f =
    fun p => p.pid from funext hf.pid]

theorem addDependency_entries {t : UInt64} {deps : List Dependency}
    (habsent : t ∉ titles → rem t = 0 ∧ new t = 0)
    (hadd : addDependency l (entries l rem new titles) t = some deps) :
    deps = entries l rem (fun u => new u + [t].count u)
      (if t ∈ titles then titles else titles ++ [t]) := by
  have hany : ((entries l rem new titles).any fun d => d.titleId = t) = decide (t ∈ titles) := by
    rw [entries, List.any_map]
    simp [List.any_eq]
  rw [addDependency, hany] at hadd
  by_cases ht : t ∈ titles
  · rw [if_pos (decide_eq_true ht)] at hadd
    rw [if_pos ht, ← Option.some.inj hadd, entries, entries, List.map_map]
    apply List.map_congr_left
    intro u _
    by_cases hu : u = t
    · simp [hu]
    · simp [hu, Ne.symm hu]
  · rw [if_neg (by simpa using ht)] at hadd
    split at hadd
    · exact absurd hadd (by rintro ⟨⟩)
    · rw [if_neg ht, ← Option.some.inj hadd, entries, entries, List.map_append, List.map_singleton,
        (habsent ht).1, (habsent ht).2]
      congr 1
      · apply List.map_congr_left
        intro u hu
        have hne : t ≠ u := fun h => ht (h ▸ hu)
        simp [hne]
      · simp

theorem addDependencies_entries {ts : List UInt64} {deps : List Dependency}
    (hnodup : titles.Nodup) (habsent : ∀ t, t ∉ titles → rem t = 0 ∧ new t = 0)
    (hadd : ts.foldlM (addDependency l) (entries l rem new titles) = some deps) :
    ∃ titles', deps = entries l rem (fun u => new u + ts.count u) titles' ∧ titles'.Nodup ∧
      ∀ t, t ∈ titles' ↔ t ∈ titles ∨ t ∈ ts := by
  induction ts generalizing titles new with
  | nil => exact ⟨titles, (Option.some.inj hadd).symm, hnodup, by simp⟩
  | cons t ts ih =>
    rw [List.foldlM_cons] at hadd
    obtain ⟨deps₁, hstep, hadd⟩ := Option.bind_eq_some_iff.mp hadd
    obtain rfl := addDependency_entries (habsent t) hstep
    have hmem : ∀ u, u ∈ (if t ∈ titles then titles else titles ++ [t]) ↔ u ∈ titles ∨ u = t := by
      intro u
      by_cases ht : t ∈ titles
      · rw [if_pos ht]
        exact ⟨Or.inl, fun h => h.elim id fun h => h ▸ ht⟩
      · rw [if_neg ht, List.mem_append, List.mem_singleton]
    obtain ⟨titles', rfl, hnodup', hmem'⟩ := ih (by
        by_cases ht : t ∈ titles
        · rw [if_pos ht]
          exact hnodup
        · rw [if_neg ht]
          exact hnodup.append (List.nodup_singleton t) (List.disjoint_singleton.mpr ht))
      (by
        intro u hu
        rw [hmem, not_or] at hu
        refine ⟨(habsent u hu.1).1, ?_⟩
        rw [(habsent u hu.1).2, List.count_singleton, if_neg]
        simpa using Ne.symm hu.2) hadd
    refine ⟨titles', ?_, hnodup', ?_⟩
    · congr 1
      funext u
      rw [Nat.add_assoc, ← List.count_append]
      rfl
    · intro u
      rw [hmem', hmem, List.mem_cons, or_assoc]

theorem settle_entries :
    (entries l rem new titles).map Dependency.settle =
      entries l (fun t => if (l.findProcessByTitleId t).isSome then rem t else rem t + new t)
        (fun _ => 0) titles := by
  rw [entries, entries, List.map_map]
  apply List.map_congr_left
  intro t _
  rw [Function.comp_apply, Dependency.settle]
  simp only [Option.isSome_map]

/-- Each autoloaded module gets the new references of its title, provided that the entries that find
it are the one of its title. -/
theorem gain_entries (h : l.Well) (hp : p ∈ l.processes) (hauto : p.autoloaded = true)
    (hnodup : titles.Nodup)
    (hexact : ∀ t ∈ titles, l.findProcessByTitleId t = some p → p.titleId = t)
    (habsent : p.titleId ∉ titles → new p.titleId = 0) :
    gain (entries l rem new titles) p.pid = new p.titleId := by
  have hproc : ∀ t ∈ titles, ((l.findProcessByTitleId t).map (·.pid) = some p.pid ↔
      t = p.titleId) := by
    intro t ht
    constructor
    · intro hmap
      obtain ⟨q, hfind, hpid⟩ := Option.map_eq_some_iff.mp hmap
      have hq : q = p := h.eq_of_pid (mem_of_find hfind).1 hp hpid
      exact (hexact t ht (hq ▸ hfind)).symm
    · rintro rfl
      rw [h.found p hp hauto]
      rfl
  have hfilter : (titles.filter fun t => (l.findProcessByTitleId t).map (·.pid) = some p.pid) =
      List.replicate (titles.count p.titleId) p.titleId := by
    rw [← List.filter_eq]
    apply List.filter_congr
    intro t ht
    exact decide_eq_decide.mpr (hproc t ht)
  have hsum : gain (entries l rem new titles) p.pid =
      titles.count p.titleId * new p.titleId := by
    rw [gain, entries, List.filter_map, List.map_map]
    show List.sum (((titles.filter fun t => (l.findProcessByTitleId t).map (·.pid) =
      some p.pid)).map new) = _
    rw [hfilter, List.map_replicate, List.sum_replicate_nat]
  by_cases hmem : p.titleId ∈ titles
  · rw [hsum, List.count_eq_one_of_mem hnodup hmem, Nat.one_mul]
  · rw [hsum, habsent hmem, Nat.mul_zero]

theorem listMergeUniqueDependencies_entries {isN3ds : Bool} {exheader : ExHeader}
    {deps : List Dependency} (h : l.Well) (hnodup : titles.Nodup)
    (habsent : ∀ t, t ∉ titles → rem t = 0)
    (hmerge : listMergeUniqueDependencies isN3ds l (entries l rem (fun _ => 0) titles) exheader =
      some (l', deps)) :
    ∃ titles', titles'.Nodup ∧
      (∀ t, t ∈ titles' ↔ t ∈ titles ∨ t ∈ listDependencies isN3ds exheader) ∧
      deps = entries l' (fun t => if (l.findProcessByTitleId t).isSome then rem t
        else rem t + (listDependencies isN3ds exheader).count t) (fun _ => 0) titles' ∧
      l' = l.map (credited (gain (entries l rem
        (fun t => (listDependencies isN3ds exheader).count t) titles'))) ∧
      Fits (gain (entries l rem
        (fun t => (listDependencies isN3ds exheader).count t) titles')) l := by
  obtain ⟨deps₁, hadd, hmerge⟩ := Option.bind_eq_some_iff.mp hmerge
  obtain ⟨l₁, happly, hmerge⟩ := Option.bind_eq_some_iff.mp hmerge
  obtain ⟨rfl, rfl⟩ := Prod.mk.inj (Option.some.inj hmerge)
  obtain ⟨titles', rfl, hnodup', hmem⟩ :=
    addDependencies_entries hnodup (fun t ht => ⟨habsent t ht, rfl⟩) hadd
  simp only [Nat.zero_add] at happly ⊢
  obtain ⟨rfl, hfits⟩ := applyRefcounts_eq h happly
  refine ⟨titles', hnodup', hmem, ?_, rfl, hfits⟩
  rw [settle_entries, entries_map (keeps_credited _)]

end Presence3DS.Pm
