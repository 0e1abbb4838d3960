import Presence3DS.Lib.Runs
import Presence3DS.Pm.Merge

/-! The reference counts of the modules that `pm` loads for their dependents. -/

namespace Presence3DS.Pm

open ProcessList

/-- The process has loaded its dependencies and not given them back, and lists the title. -/
def uses (isN3ds : Bool) (titleId : UInt64) (p : ProcessData) : Bool :=
  p.dependenciesLoaded && decide (p.terminationStatus ≠ .terminated) &&
    decide (titleId ∈ listDependencies isN3ds p.exheader)

/-- How many live processes that were launched with their dependencies list the title. -/
def users (isN3ds : Bool) (l : ProcessList) (titleId : UInt64) : ℕ :=
  l.processes.countP (uses isN3ds titleId)

/-- The count of each autoloaded module is the number of its users, and one without users has been
told to terminate. -/
def CountsUsers (isN3ds : Bool) (l : ProcessList) : Prop :=
  ∀ p ∈ l.processes, p.autoloaded = true → p.terminationStatus = .running →
    p.refcount.toNat = users isN3ds l p.titleId ∧ 0 < users isN3ds l p.titleId

instance (isN3ds : Bool) (l : ProcessList) : Decidable (CountsUsers isN3ds l) :=
  inferInstanceAs (Decidable (∀ p ∈ l.processes, _))

/-- The processes that an action is for. -/
def asked (l : ProcessList) : Action → List ℕ
  | .terminate target _ _ => target.matches l
  | .exit pid _ _ => [pid]
  | .unregister titleId =>
    ((l.findProcessByTitleId (titleId &&& ~~~n3dsTidMask)).map (·.pid)).toList
  | _ => []

/-- A module that an action is not for stays, and is told to terminate exactly when it has no users
left. -/
def TerminatesUnused (isN3ds : Bool) (l : ProcessList) (a : Action) (l' : ProcessList) : Prop :=
  ∀ p ∈ l.processes, p.autoloaded = true → p.terminationStatus = .running → p.pid ∉ asked l a →
    ∃ p' ∈ l'.processes, p'.pid = p.pid ∧ p'.titleId = p.titleId ∧ (p'.autoloaded = true →
      (p'.terminationStatus ≠ .running ↔ users isN3ds l' p.titleId = 0))

/-! ## What a launch reads -/

/-- The launch loads the program for a dependency that has no process. -/
def Loads (fake : Bool) (programs : UInt64 → Program) (l : ProcessList) (titleId : UInt64)
    (e : ExHeader) : Prop :=
  fake = false ∧ l.findProcessByTitleId titleId = none ∧ programs titleId = .started e

/-- The headers whose dependencies a launch merges: that of the title itself, and those of the
programs that it loads. -/
inductive Reached (isN3ds fake : Bool) (programs : UInt64 → Program) (l : ProcessList)
    (exheader : ExHeader) : ExHeader → Prop
  | main : Reached isN3ds fake programs l exheader exheader
  | dependency {e e' : ExHeader} {titleId : UInt64}
    (he : Reached isN3ds fake programs l exheader e)
    (hlisted : titleId ∈ listDependencies isN3ds e) (hloads : Loads fake programs l titleId e') :
    Reached isN3ds fake programs l exheader e'

/-- A title that one of these headers lists. -/
def Listed (isN3ds fake : Bool) (programs : UInt64 → Program) (l : ProcessList)
    (exheader : ExHeader) (titleId : UInt64) : Prop :=
  ∃ e, Reached isN3ds fake programs l exheader e ∧ titleId ∈ listDependencies isN3ds e

/-- The references to the title are counted: its module is autoloaded, or the launch loads it. -/
def Counted (fake : Bool) (programs : UInt64 → Program) (l : ProcessList) (titleId : UInt64) :
    Prop :=
  (∃ p, l.findProcessByTitleId titleId = some p ∧ p.autoloaded = true) ∨
    ∃ e, Loads fake programs l titleId e

/-- What is asked of a launch with dependencies: no header lists a title twice whose references are
counted; an autoloaded module that is found for a listed title has that title, and so has a program
that is loaded for it; two titles that differ only in the part that is not compared are not listed
where one of them is loaded; and a module that is loaded is not listed by a live process that was
launched without it. -/
structure LaunchInScope (isN3ds fake : Bool) (programs : UInt64 → Program) (l : ProcessList)
    (exheader : ExHeader) : Prop where
  once : ∀ e t, Reached isN3ds fake programs l exheader e → Counted fake programs l t →
    (listDependencies isN3ds e).count t ≤ 1
  same : ∀ t p, Listed isN3ds fake programs l exheader t → l.findProcessByTitleId t = some p →
    p.autoloaded = true → p.titleId = t
  title : ∀ t e, Listed isN3ds fake programs l exheader t → Loads fake programs l t e →
    e.titleId = t
  apart : ∀ t e t', Listed isN3ds fake programs l exheader t → Loads fake programs l t e →
    Listed isN3ds fake programs l exheader t' → t' &&& ~~~0xFF = t &&& ~~~0xFF → t' = t
  unused : ∀ t e, Listed isN3ds fake programs l exheader t → Loads fake programs l t e →
    users isN3ds l t = 0

/-- The condition on a launch, if it comes to load a program. -/
def ProgramInScope (isN3ds : Bool) (info : LaunchInfo) (programs : UInt64 → Program)
    (l : ProcessList) : Program → Prop
  | .started exheader => info.loadDependencies = true →
    LaunchInScope isN3ds info.fakeDependencyLoading programs (l.new exheader) exheader
  | _ => True

/-- A process that holds its dependencies is not told to terminate once it has exited, its header
can be read when it exits, and it is not unregistered before. -/
def InScope (isN3ds : Bool) (l : ProcessList) : Action → Prop
  | .launchTitle info titleId programs => l.findProcessByTitleId titleId = none →
    ProgramInScope isN3ds info programs l (programs titleId)
  | .launchTitleUpdate info program programs => ProgramInScope isN3ds info programs l program
  | .terminate target _ _ => ∀ p ∈ l.processes, p.pid ∈ target.matches l →
    p.dependenciesLoaded = true → p.terminationStatus ≠ .terminated
  | .exit pid readable _ => ∀ p, l.findProcessById pid = some p →
    p.terminationStatus ≠ .terminated → p.dependenciesLoaded = true → readable pid = true
  | .unregister titleId => ∀ p, l.findProcessByTitleId (titleId &&& ~~~n3dsTidMask) = some p →
    p.dependenciesLoaded = true → p.terminationStatus = .terminated

/-! ## Users -/

section Users
variable {isN3ds : Bool} {l l' : ProcessList} {p : ProcessData} {t : UInt64}

theorem uses_of_live (hflag : p.dependenciesLoaded = true)
    (hlive : p.terminationStatus ≠ .terminated) :
    uses isN3ds t p = decide (t ∈ listDependencies isN3ds p.exheader) := by
  rw [uses, hflag, decide_eq_true hlive]
  rfl

theorem uses_of_unflagged (hflag : p.dependenciesLoaded = false) : uses isN3ds t p = false := by
  rw [uses, hflag]
  rfl

theorem uses_of_terminated (h : p.terminationStatus = .terminated) : uses isN3ds t p = false := by
  rw [uses, h]
  simp

theorem users_map {f : ProcessData → ProcessData}
    (hf : ∀ p, uses isN3ds t (f p) = uses isN3ds t p) :
    users isN3ds (l.map f) t = users isN3ds l t := by
  rw [users, users, ProcessList.map, List.countP_map]
  congr 1
  funext p
  exact hf p

theorem uses_credited (n : ℕ → ℕ) (p : ProcessData) :
    uses isN3ds t (credited n p) = uses isN3ds t p := by
  rw [credited]
  split <;> rfl

theorem users_append :
    users isN3ds (l.append p) t = users isN3ds l t + (uses isN3ds t p).toNat := by
  rw [users, users, append, List.countP_append, List.countP_singleton]
  cases uses isN3ds t p <;> rfl

theorem users_update (h : l.Well) (hp : p ∈ l.processes) (f : ProcessData → ProcessData) :
    users isN3ds (l.update p.pid f) t + (uses isN3ds t p).toNat =
      users isN3ds l t + (uses isN3ds t (f p)).toNat :=
  KeyedList.countP_update h.nodup hp f _

theorem users_delete (h : l.Well) (hp : p ∈ l.processes) :
    users isN3ds (l.delete p.pid) t + (uses isN3ds t p).toNat = users isN3ds l t :=
  KeyedList.countP_delete h.nodup hp _

theorem CountsUsers.append (h : CountsUsers isN3ds l) (hflag : p.dependenciesLoaded = false)
    (hauto : p.autoloaded = false) : CountsUsers isN3ds (l.append p) := by
  intro q hq hqauto hrunning
  rw [users_append, uses_of_unflagged hflag]
  rcases mem_append.mp hq with hq | rfl
  · exact h q hq hqauto hrunning
  · exact absurd (hauto.symm.trans hqauto) Bool.false_ne_true

end Users

/-! ## Launches -/

/-- The processes of a list stay, with their status. -/
def Survives (l l' : ProcessList) : Prop :=
  ∀ p ∈ l.processes, ∃ p' ∈ l'.processes, p'.pid = p.pid ∧ p'.titleId = p.titleId ∧
    p'.terminationStatus = p.terminationStatus

namespace Survives
variable {l l' l'' : ProcessList}

theorem refl (l : ProcessList) : Survives l l := fun p hp => ⟨p, hp, rfl, rfl, rfl⟩

theorem trans (h : Survives l l') (h' : Survives l' l'') : Survives l l'' := by
  intro p hp
  obtain ⟨p', hp', hpid, htitle, hstatus⟩ := h p hp
  obtain ⟨p'', hp'', hpid', htitle', hstatus'⟩ := h' p' hp'
  exact ⟨p'', hp'', hpid'.trans hpid, htitle'.trans htitle, hstatus'.trans hstatus⟩

protected theorem map {f : ProcessData → ProcessData} (hf : Keeps f)
    (hstatus : ∀ p, (f p).terminationStatus = p.terminationStatus) : Survives l (l.map f) :=
  fun p hp => ⟨f p, mem_map.mpr ⟨p, hp, rfl⟩, hf.pid p, hf.titleId p, hstatus p⟩

protected theorem append (l : ProcessList) (q : ProcessData) : Survives l (l.append q) :=
  fun p hp => ⟨p, mem_append.mpr (Or.inl hp), rfl, rfl, rfl⟩

end Survives

section Launch
variable {isN3ds fake : Bool} {programs : UInt64 → Program} {l₀ l l' : ProcessList}
  {e₀ e : ExHeader} {count rem : UInt64 → ℕ} {titles : List UInt64} {t : UInt64}

/-- The state of a launch that began with the list `l₀`: the modules that are there are counted as
`count` says, and the entries of those that are still to be loaded hold their references. -/
structure Counts (isN3ds fake : Bool) (programs : UInt64 → Program) (l₀ : ProcessList)
    (e₀ : ExHeader) (count rem : UInt64 → ℕ) (titles : List UInt64) (l : ProcessList) : Prop where
  well : l.Well
  nodup : titles.Nodup
  listed : ∀ t ∈ titles, Listed isN3ds fake programs l₀ e₀ t
  absent : ∀ t, t ∉ titles → rem t = 0
  refs : ∀ p ∈ l.processes, p.autoloaded = true → p.terminationStatus = .running →
    p.refcount.toNat = count p.titleId ∧ 0 < count p.titleId
  counted : ∀ p ∈ l.processes, p.autoloaded = true → Counted fake programs l₀ p.titleId
  same : ∀ t p, Listed isN3ds fake programs l₀ e₀ t → l.findProcessByTitleId t = some p →
    p.autoloaded = true → p.titleId = t
  found : ∀ t, l.findProcessByTitleId t = none → l₀.findProcessByTitleId t = none
  waiting : ∀ t e, Listed isN3ds fake programs l₀ e₀ t → Loads fake programs l₀ t e →
    l.findProcessByTitleId t = none → rem t = count t
  positive : ∀ t ∈ titles, l.findProcessByTitleId t = none → 0 < rem t

theorem Counts.init (hwell : l₀.Well) (hcounts : CountsUsers isN3ds l₀)
    (hscope : LaunchInScope isN3ds fake programs l₀ e₀) :
    Counts isN3ds fake programs l₀ e₀ (users isN3ds l₀) (fun _ => 0) [] l₀ where
  well := hwell
  nodup := List.nodup_nil
  listed _ ht := absurd ht List.not_mem_nil
  absent _ _ := rfl
  refs := hcounts
  counted p hp hauto := Or.inl ⟨p, hwell.found p hp hauto, hauto⟩
  same := hscope.same
  found _ h := h
  waiting t e hlisted hloads _ := (hscope.unused t e hlisted hloads).symm
  positive _ ht := absurd ht List.not_mem_nil

theorem Counts.map {f : ProcessData → ProcessData} (hf : Keeps f)
    (hstatus : ∀ p, (f p).terminationStatus = p.terminationStatus)
    (hrefcount : ∀ p, (f p).refcount = p.refcount)
    (h : Counts isN3ds fake programs l₀ e₀ count rem titles l) :
    Counts isN3ds fake programs l₀ e₀ count rem titles (l.map f) := by
  have hfind : ∀ {t}, (l.map f).findProcessByTitleId t = none →
      l.findProcessByTitleId t = none := by
    intro t ht
    rw [findProcessByTitleId_map hf] at ht
    exact Option.map_eq_none_iff.mp ht
  refine ⟨h.well.map hf, h.nodup, h.listed, h.absent, ?_, ?_, ?_, fun t ht => h.found t (hfind ht),
    fun t e ht hloads hnone => h.waiting t e ht hloads (hfind hnone),
    fun t ht hnone => h.positive t ht (hfind hnone)⟩
  · intro q hq hauto hrunning
    obtain ⟨p, hp, rfl⟩ := mem_map.mp hq
    rw [hf.titleId, hrefcount]
    exact h.refs p hp (hf.autoloaded p hauto) (hstatus p ▸ hrunning)
  · intro q hq hauto
    obtain ⟨p, hp, rfl⟩ := mem_map.mp hq
    rw [hf.titleId]
    exact h.counted p hp (hf.autoloaded p hauto)
  · intro t q ht hq hauto
    rw [findProcessByTitleId_map hf] at hq
    obtain ⟨p, hp, rfl⟩ := Option.map_eq_some_iff.mp hq
    rw [hf.titleId]
    exact h.same t p ht hp (hf.autoloaded p hauto)

theorem Counts.merged {deps : List Dependency}
    (hscope : LaunchInScope isN3ds fake programs l₀ e₀)
    (h : Counts isN3ds fake programs l₀ e₀ count rem titles l)
    (he : Reached isN3ds fake programs l₀ e₀ e)
    (hmerge : listMergeUniqueDependencies isN3ds l (entries l rem (fun _ => 0) titles) e =
      some (l', deps)) :
    ∃ rem' titles' n, deps = entries l' rem' (fun _ => 0) titles' ∧ l' = l.map (credited n) ∧
      (∀ t ∈ listDependencies isN3ds e, t ∈ titles') ∧
      Counts isN3ds fake programs l₀ e₀
        (fun t => count t + (decide (t ∈ listDependencies isN3ds e)).toNat) rem' titles' l' := by
  obtain ⟨titles', hnodup, hmem, rfl, rfl, hfits⟩ :=
    listMergeUniqueDependencies_entries h.well h.nodup h.absent hmerge
  have hlisted : ∀ t ∈ titles', Listed isN3ds fake programs l₀ e₀ t := by
    intro t ht
    rcases (hmem t).mp ht with ht | ht
    · exact h.listed t ht
    · exact ⟨e, he, ht⟩
  have honce : ∀ t, Counted fake programs l₀ t → (listDependencies isN3ds e).count t =
      (decide (t ∈ listDependencies isN3ds e)).toNat := by
    intro t ht
    by_cases hdep : t ∈ listDependencies isN3ds e
    · rw [decide_eq_true hdep]
      exact Nat.le_antisymm (hscope.once e t he ht) (List.count_pos_iff.mpr hdep)
    · rw [decide_eq_false hdep, List.count_eq_zero_of_not_mem hdep]
      rfl
  have hkeeps := keeps_credited (gain (entries l rem
    (fun t => (listDependencies isN3ds e).count t) titles'))
  have hfind : ∀ {t}, (l.map (credited (gain (entries l rem
      (fun t => (listDependencies isN3ds e).count t) titles')))).findProcessByTitleId t = none →
      l.findProcessByTitleId t = none := by
    intro t ht
    rw [findProcessByTitleId_map hkeeps] at ht
    exact Option.map_eq_none_iff.mp ht
  refine ⟨_, titles', _, rfl, rfl, fun t ht => (hmem t).mpr (Or.inr ht), ?_⟩
  refine ⟨h.well.map hkeeps, hnodup, hlisted, ?_, ?_, ?_, ?_, ?_, ?_, ?_⟩
  · intro t ht
    rw [hmem, not_or] at ht
    rw [h.absent t ht.1, List.count_eq_zero_of_not_mem ht.2]
    exact ite_self _
  · intro q hq hauto hrunning
    obtain ⟨p, hp, rfl⟩ := mem_map.mp hq
    rw [credited_autoloaded] at hauto
    rw [credited_terminationStatus] at hrunning
    obtain ⟨hcount, hpos⟩ := h.refs p hp hauto hrunning
    have hgain : gain (entries l rem (fun t => (listDependencies isN3ds e).count t) titles') p.pid =
        (listDependencies isN3ds e).count p.titleId :=
      gain_entries h.well hp hauto hnodup
        (fun t ht hfind => h.same t p (hlisted t ht) hfind hauto)
        (fun ht => List.count_eq_zero_of_not_mem fun hdep => ht ((hmem _).mpr (Or.inr hdep)))
    rw [hfits.toNat hp hauto, hgain, hkeeps.titleId, hcount, honce _ (h.counted p hp hauto)]
    exact ⟨rfl, Nat.add_pos_left hpos _⟩
  · intro q hq hauto
    obtain ⟨p, hp, rfl⟩ := mem_map.mp hq
    rw [hkeeps.titleId]
    exact h.counted p hp (hkeeps.autoloaded p hauto)
  · intro t q ht hq hauto
    rw [findProcessByTitleId_map hkeeps] at hq
    obtain ⟨p, hp, rfl⟩ := Option.map_eq_some_iff.mp hq
    rw [hkeeps.titleId]
    exact h.same t p ht hp (hkeeps.autoloaded p hauto)
  · exact fun t ht => h.found t (hfind ht)
  · intro t e' ht hloads hnone
    rw [hfind hnone, ← honce t (Or.inr ⟨e', hloads⟩), h.waiting t e' ht hloads (hfind hnone)]
    rfl
  · intro t ht hnone
    rw [hfind hnone]
    rcases (hmem t).mp ht with ht | ht
    · exact Nat.add_pos_left (h.positive t ht (hfind hnone)) _
    · exact Nat.add_pos_right _ (List.count_pos_iff.mpr ht)

/-- The module as it is in the list when its dependencies are merged. -/
def loadedModule (l : ProcessList) (e : ExHeader) (refcount : UInt8) : ProcessData :=
  { ProcessData.new l.nextPid e with
    autoloaded := true, dependenciesLoaded := true, refcount := refcount }

theorem LaunchInScope.find_loaded (hscope : LaunchInScope isN3ds fake programs l₀ e₀)
    (hlisted : Listed isN3ds fake programs l₀ e₀ t) (hloads : Loads fake programs l₀ t e)
    (hnone : l.findProcessByTitleId t = none) (c : UInt8) {u : UInt64}
    (hu : Listed isN3ds fake programs l₀ e₀ u) :
    (l.append (loadedModule l e c)).findProcessByTitleId u =
      if u = t then some (loadedModule l e c) else l.findProcessByTitleId u := by
  have htitle : (loadedModule l e c).titleId = t := hscope.title t e hlisted hloads
  rw [find_append, htitle]
  by_cases hut : u = t
  · rw [hut, if_pos rfl, if_pos rfl, hnone, Option.none_or]
  · rw [if_neg hut, if_neg, Option.or_none]
    exact fun hmask => hut (hscope.apart t e u hlisted hloads hu hmask.symm)

theorem Counts.loaded (hscope : LaunchInScope isN3ds fake programs l₀ e₀)
    (h : Counts isN3ds fake programs l₀ e₀ count rem titles l) (ht : t ∈ titles)
    (hloads : Loads fake programs l₀ t e) (hnone : l.findProcessByTitleId t = none) {c : UInt8}
    (hc : c.toNat = rem t) :
    Counts isN3ds fake programs l₀ e₀ count (Function.update rem t 0) titles
      (l.append (loadedModule l e c)) := by
  have hlisted := h.listed t ht
  have htitle : (loadedModule l e c).titleId = t := hscope.title t e hlisted hloads
  have hfind := fun {u} => hscope.find_loaded hlisted hloads hnone c (u := u)
  have hold : ∀ {u}, Listed isN3ds fake programs l₀ e₀ u →
      (l.append (loadedModule l e c)).findProcessByTitleId u = none →
      u ≠ t ∧ l.findProcessByTitleId u = none := by
    intro u hu hu'
    rw [hfind hu] at hu'
    split at hu'
    · exact absurd hu' (by rintro ⟨⟩)
    · next hne => exact ⟨hne, hu'⟩
  refine ⟨h.well.append rfl fun _ => htitle ▸ hnone, h.nodup, h.listed, ?_, ?_, ?_, ?_, ?_, ?_, ?_⟩
  · intro u hu
    have hne : u ≠ t := fun hut => hu (hut ▸ ht)
    rw [Function.update_of_ne hne, h.absent u hu]
  · intro q hq hauto hrunning
    rcases mem_append.mp hq with hq | rfl
    · exact h.refs q hq hauto hrunning
    · rw [htitle, ← h.waiting t e hlisted hloads hnone]
      exact ⟨hc, h.positive t ht hnone⟩
  · intro q hq hauto
    rcases mem_append.mp hq with hq | rfl
    · exact h.counted q hq hauto
    · exact htitle ▸ Or.inr ⟨e, hloads⟩
  · intro u q hu hq hauto
    rw [hfind hu] at hq
    split at hq
    · next hut => rw [← Option.some.inj hq, htitle, hut]
    · exact h.same u q hu hq hauto
  · intro u hu
    rw [find_append, Option.or_eq_none_iff] at hu
    exact h.found u hu.1
  · intro u e' hu hloads' hu'
    obtain ⟨hne, hu'⟩ := hold hu hu'
    rw [Function.update_of_ne hne]
    exact h.waiting u e' hu hloads' hu'
  · intro u hu hu'
    obtain ⟨hne, hu'⟩ := hold (h.listed u hu) hu'
    rw [Function.update_of_ne hne]
    exact h.positive u hu hu'

theorem incref_append {amount : ℕ} (h : l.Well) (hnone : l.findProcessByTitleId e.titleId = none)
    (hincref : (l.append (loadedModule l e 1)).incref l.nextPid amount = some l') :
    ∃ c : UInt8, c.toNat = 1 + amount ∧ l' = l.append (loadedModule l e c) := by
  have hwell : (l.append (loadedModule l e 1)).Well := h.append rfl fun _ => hnone
  have hfind := hwell.findProcessById (mem_append.mpr (Or.inr rfl))
  change (l.append (loadedModule l e 1)).findProcessById l.nextPid = _ at hfind
  rw [incref, hfind] at hincref
  simp only [show (loadedModule l e 1).autoloaded = true from rfl, if_true,
    show (loadedModule l e 1).refcount = 1 from rfl] at hincref
  split at hincref
  · exact absurd hincref (by rintro ⟨⟩)
  · next hle =>
    have hlt : 1 + amount < 256 := by
      have hone : (1 : UInt8).toNat = 1 := rfl
      omega
    refine ⟨1 + UInt8.ofNat amount, ?_, ?_⟩
    · rw [UInt8.toNat_add, UInt8.toNat_ofNat']
      show (1 + amount % 256) % 256 = 1 + amount
      omega
    · rw [h.update_append rfl] at hincref
      exact (Option.some.inj hincref).symm

theorem getElem?_entries {new : UInt64 → ℕ} {i : ℕ} {d : Dependency}
    (h : (entries l rem new titles)[i]? = some d) : ∃ t, titles[i]? = some t ∧
      d = ⟨t, (l.findProcessByTitleId t).map (·.pid), rem t, new t⟩ := by
  rw [entries, List.getElem?_map] at h
  obtain ⟨t, ht, rfl⟩ := Option.map_eq_some_iff.mp h
  exact ⟨t, ht, rfl⟩

theorem set_entries {new : UInt64 → ℕ} {i : ℕ} {d : Dependency} {pid : ℕ} (hnodup : titles.Nodup)
    (ht : titles[i]? = some t) (hd : d = ⟨t, some pid, 0, new t⟩)
    (hfound : (l'.findProcessByTitleId t).map (·.pid) = some pid)
    (hother : ∀ u ∈ titles, u ≠ t → l'.findProcessByTitleId u = l.findProcessByTitleId u) :
    (entries l rem new titles).set i d = entries l' (Function.update rem t 0) new titles := by
  apply List.ext_getElem?
  intro j
  rw [List.getElem?_set, entries, entries, List.length_map, List.getElem?_map, List.getElem?_map]
  obtain ⟨hi, hti⟩ := List.getElem?_eq_some_iff.mp ht
  by_cases hij : i = j
  · rw [if_pos hij, ← hij, if_pos hi, ht, Option.map_some, hfound, Function.update_self, hd]
  · rw [if_neg hij]
    cases hu : titles[j]? with
    | none => rfl
    | some u =>
      obtain ⟨hj, huj⟩ := List.getElem?_eq_some_iff.mp hu
      have hne : u ≠ t := by
        rintro rfl
        exact hij (hnodup.getElem_inj_iff.mp (hti.trans huj.symm))
      rw [Option.map_some, Option.map_some, hother u (List.mem_of_getElem? hu) hne,
        Function.update_of_ne hne]

theorem Counts.loadDependencies (hscope : LaunchInScope isN3ds fake programs l₀ e₀)
    (hfake : fake = false) {fuel i : ℕ} {ok ok' : Bool}
    (h : Counts isN3ds fake programs l₀ e₀ (users isN3ds l) rem titles l)
    (hload : loadDependencies isN3ds programs fuel i l (entries l rem (fun _ => 0) titles) ok =
      some (l', ok')) :
    l'.Well ∧ CountsUsers isN3ds l' ∧ Survives l l' := by
  induction fuel generalizing i l rem titles ok with
  | zero =>
    obtain ⟨rfl, rfl⟩ := Prod.mk.inj (Option.some.inj hload)
    exact ⟨h.well, h.refs, Survives.refl l⟩
  | succ fuel ih =>
    rw [Pm.loadDependencies] at hload
    cases hd : (entries l rem (fun _ => 0) titles)[i]? with
    | none =>
      rw [hd] at hload
      obtain ⟨rfl, rfl⟩ := Prod.mk.inj (Option.some.inj hload)
      exact ⟨h.well, h.refs, Survives.refl l⟩
    | some d =>
      obtain ⟨t, ht, rfl⟩ := getElem?_entries hd
      simp only [hd, Option.isSome_map] at hload
      have hmem : t ∈ titles := List.mem_of_getElem? ht
      cases hnone : l.findProcessByTitleId t with
      | some p =>
        rw [hnone] at hload
        exact ih h hload
      | none =>
        simp only [hnone, Option.isSome_none, Bool.false_eq_true, if_false] at hload
        cases hprogram : programs t with
        | missing =>
          rw [hprogram] at hload
          exact ih h hload
        | prevented =>
          rw [hprogram] at hload
          exact absurd hload (by rintro ⟨⟩)
        | broken e =>
          rw [hprogram] at hload
          obtain ⟨rfl, rfl⟩ := Prod.mk.inj (Option.some.inj hload)
          exact ⟨h.well.append rfl fun hauto => absurd hauto Bool.false_ne_true,
            CountsUsers.append h.refs rfl rfl, Survives.append l _⟩
        | started e =>
          rw [hprogram] at hload
          have hloads : Loads fake programs l₀ t e := ⟨hfake, h.found t hnone, hprogram⟩
          have hlisted := h.listed t hmem
          have htitle : e.titleId = t := hscope.title t e hlisted hloads
          obtain ⟨e', he', hdep⟩ := hlisted
          have he : Reached isN3ds fake programs l₀ e₀ e := Reached.dependency he' hdep hloads
          obtain ⟨l₁, hincref, hload⟩ := Option.bind_eq_some_iff.mp hload
          rw [new_eq_append, h.well.update_append rfl] at hincref
          obtain ⟨c, hc, rfl⟩ := incref_append h.well (htitle.symm ▸ hnone) hincref
          have hpos := h.positive t hmem hnone
          have hc' : c.toNat = rem t := by
            rw [hc]
            exact Nat.add_sub_of_le hpos
          have hfind := fun {u} => hscope.find_loaded (h.listed t hmem) hloads hnone c (u := u)
          obtain ⟨⟨l₂, deps⟩, hmerge, hload⟩ := Option.bind_eq_some_iff.mp hload
          rw [set_entries h.nodup ht rfl (by rw [hfind (h.listed t hmem), if_pos rfl]; rfl)
            fun u hu hne => by rw [hfind (h.listed u hu), if_neg hne]] at hmerge
          obtain ⟨rem', titles', n, rfl, rfl, -, hcounts⟩ :=
            (h.loaded hscope hmem hloads hnone hc').merged hscope he hmerge
          have husers : (fun u => users isN3ds l u +
              (decide (u ∈ listDependencies isN3ds e)).toNat) =
              users isN3ds ((l.append (loadedModule l e c)).map (credited n)) := by
            funext u
            rw [users_map (uses_credited n), users_append,
              uses_of_live rfl TerminationStatus.noConfusion]
            rfl
          rw [husers] at hcounts
          obtain ⟨hwell, hcount, hsurvives⟩ := ih hcounts hload
          exact ⟨hwell, hcount, (Survives.append l _).trans ((Survives.map (keeps_credited n)
            fun _ => credited_terminationStatus n).trans hsurvives)⟩

/-- The process is marked as one that has loaded its dependencies. -/
def marked (p : ProcessData) : ProcessData := { p with dependenciesLoaded := true }

theorem keeps_marked (pid : ℕ) : Keeps (only pid marked) := by
  have hkeeps : Keeps marked := ⟨fun _ => rfl, fun _ => rfl, fun _ => id⟩
  exact hkeeps.only pid

theorem only_marked_eq (pid : ℕ) (p : ProcessData) :
    (only pid marked p).terminationStatus = p.terminationStatus ∧
      (only pid marked p).refcount = p.refcount := by
  rw [only]
  split <;> exact ⟨rfl, rfl⟩

theorem Counts.marked {p : ProcessData} (hp : p ∈ l.processes)
    (hflag : p.dependenciesLoaded = false)
    (hlive : p.terminationStatus ≠ .terminated)
    (h : Counts isN3ds fake programs l₀ e₀ (fun t => users isN3ds l t +
      (decide (t ∈ listDependencies isN3ds p.exheader)).toNat) rem titles l) :
    Counts isN3ds fake programs l₀ e₀ (users isN3ds (l.update p.pid marked)) rem titles
      (l.update p.pid marked) := by
  have husers : (fun t => users isN3ds l t +
      (decide (t ∈ listDependencies isN3ds p.exheader)).toNat) =
      users isN3ds (l.update p.pid Pm.marked) := by
    funext t
    have hupdate : users isN3ds (l.update p.pid Pm.marked) t + (uses isN3ds t p).toNat =
      users isN3ds l t + (uses isN3ds t (Pm.marked p)).toNat := users_update h.well hp Pm.marked
    have hmarked : uses isN3ds t (Pm.marked p) =
        decide (t ∈ listDependencies isN3ds p.exheader) := uses_of_live rfl hlive
    rw [uses_of_unflagged hflag, hmarked] at hupdate
    exact hupdate.symm
  rw [← husers]
  exact h.map (keeps_marked _) (fun q => (only_marked_eq _ q).1) fun q => (only_marked_eq _ q).2

theorem loadWithDependencies_counts {ok : Bool} (hwell : l.Well) (hcounts : CountsUsers isN3ds l)
    (hscope : LaunchInScope isN3ds fake programs (l.new e₀) e₀)
    (hload : loadWithDependencies isN3ds fake programs (l.new e₀) l.nextPid e₀ = some (l', ok)) :
    l'.Well ∧ CountsUsers isN3ds l' ∧ Survives (l.new e₀) l' := by
  have hwell₀ : (l.new e₀).Well := hwell.append rfl fun hauto => absurd hauto Bool.false_ne_true
  have hinit := Counts.init hwell₀ (CountsUsers.append hcounts rfl rfl) hscope
  obtain ⟨⟨l₁, deps⟩, hmerge, hload⟩ := Option.bind_eq_some_iff.mp hload
  obtain ⟨rem, titles, n, rfl, hl₁, hall, hmerged⟩ := hinit.merged hscope Reached.main hmerge
  have husers : ∀ t, users isN3ds l₁ t = users isN3ds (l.new e₀) t := fun t =>
    hl₁ ▸ users_map (uses_credited n)
  have hmain : ProcessData.new l.nextPid e₀ ∈ l₁.processes :=
    hl₁ ▸ mem_map.mpr ⟨_, mem_append.mpr (Or.inr rfl), rfl⟩
  have hsurvives : Survives (l.new e₀) l₁ :=
    hl₁ ▸ Survives.map (keeps_credited n) fun _ => credited_terminationStatus n
  simp only [← husers] at hmerged
  -- the list from which the loop starts
  have hstart : ∃ l₂, (if (entries l₁ rem (fun _ => 0) titles).length = 0 then l₁
        else l₁.update l.nextPid marked) = l₂ ∧
      entries l₁ rem (fun _ => 0) titles = entries l₂ rem (fun _ => 0) titles ∧
      Survives (l.new e₀) l₂ ∧
      Counts isN3ds fake programs (l.new e₀) e₀ (users isN3ds l₂) rem titles l₂ := by
    split
    · next hlength =>
      have hnil : titles = [] := List.length_eq_zero_iff.mp (by simpa [entries] using hlength)
      have hnot : ∀ t, t ∉ listDependencies isN3ds e₀ := by
        intro t ht
        have hmem := hall t ht
        rw [hnil] at hmem
        exact List.not_mem_nil hmem
      refine ⟨l₁, rfl, rfl, hsurvives, ?_⟩
      simpa only [decide_eq_false (hnot _), Bool.toNat_false, Nat.add_zero] using hmerged
    · exact ⟨_, rfl, (entries_map (keeps_marked _)).symm,
        hsurvives.trans (Survives.map (keeps_marked _) fun q => (only_marked_eq _ q).1),
        hmerged.marked hmain rfl TerminationStatus.noConfusion⟩
  obtain ⟨l₂, heq, hentries, hsurvives₂, hcounts₂⟩ := hstart
  change (if fake then some ((if (entries l₁ rem (fun _ => 0) titles).length = 0 then l₁
    else l₁.update l.nextPid marked), true) else _) = _ at hload
  cases hfake : fake with
  | true =>
    rw [if_pos hfake, heq] at hload
    obtain ⟨rfl, rfl⟩ := Prod.mk.inj (Option.some.inj hload)
    exact ⟨hcounts₂.well, hcounts₂.refs, hsurvives₂⟩
  | false =>
    rw [if_neg (by rw [hfake]; exact Bool.false_ne_true)] at hload
    change loadDependencies isN3ds programs maxDependencies 0
      (if (entries l₁ rem (fun _ => 0) titles).length = 0 then l₁
        else l₁.update l.nextPid marked) (entries l₁ rem (fun _ => 0) titles) true = _ at hload
    rw [heq, hentries] at hload
    obtain ⟨hwell', hcounts', hsurvives'⟩ := hcounts₂.loadDependencies hscope hfake hload
    exact ⟨hwell', hcounts', hsurvives₂.trans hsurvives'⟩

end Launch

end Presence3DS.Pm
