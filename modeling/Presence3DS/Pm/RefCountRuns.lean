import Presence3DS.Pm.RefCounts

/-! The reference counts of modules over the launches, terminations and exits of a whole run. -/

namespace Presence3DS.Pm

open ProcessList

section LaunchStep
variable {isN3ds : Bool} {programs : UInt64 → Program} {l l' : ProcessList} {info : LaunchInfo}

/-- A change of flags that are not about dependencies. -/
structure Calm (f : ProcessData → ProcessData) : Prop extends Keeps f where
  terminationStatus : ∀ p, (f p).terminationStatus = p.terminationStatus
  refcount : ∀ p, (f p).refcount = p.refcount
  dependenciesLoaded : ∀ p, (f p).dependenciesLoaded = p.dependenciesLoaded

theorem Calm.only {f : ProcessData → ProcessData} (hf : Calm f) (pid : ℕ) : Calm (only pid f) := by
  refine ⟨hf.toKeeps.only pid, fun p => ?_, fun p => ?_, fun p => ?_⟩ <;> rw [ProcessList.only] <;>
    split
  · exact hf.terminationStatus p
  · rfl
  · exact hf.refcount p
  · rfl
  · exact hf.dependenciesLoaded p
  · rfl

theorem Calm.uses {f : ProcessData → ProcessData} (hf : Calm f) (t : UInt64) (p : ProcessData) :
    uses isN3ds t (f p) = uses isN3ds t p := by
  rw [Pm.uses, Pm.uses, hf.dependenciesLoaded, hf.terminationStatus, hf.exheader]

theorem CountsUsers.map {f : ProcessData → ProcessData} (h : CountsUsers isN3ds l) (hf : Calm f) :
    CountsUsers isN3ds (l.map f) := by
  intro q hq hauto hrunning
  obtain ⟨p, hp, rfl⟩ := mem_map.mp hq
  rw [hf.titleId, hf.refcount, users_map (hf.uses _)]
  exact h p hp (hf.autoloaded p hauto) (hf.terminationStatus p ▸ hrunning)

theorem launchTitleImpl_counts {program : Program} (hwell : l.Well) (hcounts : CountsUsers isN3ds l)
    (hscope : ProgramInScope isN3ds info programs l program)
    (hlaunch : launchTitleImpl isN3ds programs info l program = some l') :
    l'.Well ∧ CountsUsers isN3ds l' ∧ Survives l l' := by
  have hnew : ∀ e, (l.new e).Well ∧ CountsUsers isN3ds (l.new e) ∧ Survives l (l.new e) := fun e =>
    ⟨hwell.append rfl fun hauto => absurd hauto Bool.false_ne_true, hcounts.append rfl rfl,
      Survives.append l _⟩
  cases program with
  | missing =>
    obtain rfl : l = l' := Option.some.inj hlaunch
    exact ⟨hwell, hcounts, Survives.refl l⟩
  | prevented =>
    obtain rfl : l = l' := Option.some.inj hlaunch
    exact ⟨hwell, hcounts, Survives.refl l⟩
  | broken e =>
    obtain rfl : l.new e = l' := Option.some.inj hlaunch
    exact hnew e
  | started e =>
    have hloaded : ∃ l₁ ok, (l₁.Well ∧ CountsUsers isN3ds l₁ ∧ Survives l l₁) ∧
        some (if ok = true ∧ info.runs = true ∧ info.notifyTermination = true then
          l₁.update l.nextPid fun p => { p with notifyTermination := true } else l₁) = some l' := by
      unfold launchTitleImpl at hlaunch
      dsimp only at hlaunch
      split at hlaunch
      · next hdeps =>
        obtain ⟨⟨l₁, ok⟩, hload, hlaunch⟩ := Option.bind_eq_some_iff.mp hlaunch
        obtain ⟨hwell₁, hcounts₁, hsurvives⟩ :=
          loadWithDependencies_counts hwell hcounts (hscope hdeps) hload
        exact ⟨l₁, ok, ⟨hwell₁, hcounts₁, (Survives.append l _).trans hsurvives⟩, hlaunch⟩
      · exact ⟨l.new e, true, hnew e, hlaunch⟩
    obtain ⟨l₁, ok, ⟨hwell₁, hcounts₁, hsurvives⟩, hlaunch⟩ := hloaded
    have hcalm : Calm fun p => { p with notifyTermination := true } :=
      ⟨⟨fun _ => rfl, fun _ => rfl, fun _ => id⟩, fun _ => rfl, fun _ => rfl, fun _ => rfl⟩
    have hcalm := hcalm.only l.nextPid
    have hlaunch := Option.some.inj hlaunch
    split at hlaunch
    · rw [← hlaunch, update_eq_map]
      exact ⟨hwell₁.map hcalm.toKeeps, hcounts₁.map hcalm,
        hsurvives.trans (Survives.map hcalm.toKeeps hcalm.terminationStatus)⟩
    · exact hlaunch ▸ ⟨hwell₁, hcounts₁, hsurvives⟩

theorem launchTitle_counts {titleId : UInt64} (hwell : l.Well) (hcounts : CountsUsers isN3ds l)
    (hscope : InScope isN3ds l (.launchTitle info titleId programs))
    (hlaunch : launchTitle isN3ds programs info l titleId = some l') :
    l'.Well ∧ CountsUsers isN3ds l' ∧ Survives l l' := by
  rw [launchTitle] at hlaunch
  cases hfind : l.findProcessByTitleId titleId with
  | none =>
    rw [hfind] at hlaunch
    exact launchTitleImpl_counts hwell hcounts (hscope hfind) hlaunch
  | some p =>
    rw [hfind] at hlaunch
    have hcalm : Calm fun p => { p with autoloaded := false } :=
      ⟨⟨fun _ => rfl, fun _ => rfl, fun _ hauto => absurd hauto Bool.false_ne_true⟩, fun _ => rfl,
        fun _ => rfl, fun _ => rfl⟩
    have hcalm := hcalm.only p.pid
    rw [← Option.some.inj hlaunch, update_eq_map]
    exact ⟨hwell.map hcalm.toKeeps, hcounts.map hcalm,
      Survives.map hcalm.toKeeps hcalm.terminationStatus⟩

end LaunchStep

/-! ## Terminations -/

section Termination
variable {isN3ds : Bool} {l l' l'' : ProcessList} {p : ProcessData} {ds : List UInt64}
  {asked : List ℕ}
  {readable notified : ℕ → Bool}

/-- The counts where each of the titles still has the reference of a process that is gone. -/
def CountsBut (isN3ds : Bool) (ds : List UInt64) (l : ProcessList) : Prop :=
  ∀ p ∈ l.processes, p.autoloaded = true → p.terminationStatus = .running →
    p.refcount.toNat = users isN3ds l p.titleId + (decide (p.titleId ∈ ds)).toNat ∧
      0 < users isN3ds l p.titleId + (decide (p.titleId ∈ ds)).toNat

theorem CountsBut.nil (h : CountsBut isN3ds [] l) : CountsUsers isN3ds l := h

/-- The modules that are not among `asked` stay, and those that run or have no users go on to. -/
def Spares (isN3ds : Bool) (asked : List ℕ) (l l' : ProcessList) : Prop :=
  ∀ p ∈ l.processes, p.pid ∉ asked → p.autoloaded = true →
    (p.terminationStatus = .running ∨ users isN3ds l p.titleId = 0) →
    ∃ p' ∈ l'.processes, p'.pid = p.pid ∧ p'.titleId = p.titleId ∧ p'.autoloaded = true ∧
      (p'.terminationStatus = .running ∨ users isN3ds l' p'.titleId = 0)

theorem Spares.refl (asked : List ℕ) (l : ProcessList) : Spares isN3ds asked l l :=
  fun p hp _ hauto hstatus => ⟨p, hp, rfl, rfl, hauto, hstatus⟩

theorem Spares.trans (h : Spares isN3ds asked l l')
    (h' : Spares isN3ds asked l' l'') : Spares isN3ds asked l l'' := by
  intro p hp hasked hauto hstatus
  obtain ⟨p', hp', hpid, htitle, hauto', hstatus'⟩ := h p hp hasked hauto hstatus
  obtain ⟨p'', hp'', hpid', htitle', hauto'', hstatus''⟩ :=
    h' p' hp' (hpid ▸ hasked) hauto' hstatus'
  exact ⟨p'', hp'', hpid'.trans hpid, htitle'.trans htitle, hauto'', hstatus''⟩

/-- A reference is taken from a running module that is listed, which is told to terminate where it
was the last one. -/
theorem releaseDependency_cases (notified : ℕ → Bool) (ds : List UInt64) (p : ProcessData) :
    (releaseDependency notified ds p = p ∧
      (p.terminationStatus = .running → p.autoloaded = true → p.titleId ∉ ds)) ∨
    (p.terminationStatus = .running ∧ p.autoloaded = true ∧ p.titleId ∈ ds ∧
      ∃ status : TerminationStatus, status ≠ .terminated ∧
        (status = .running ↔ p.refcount - 1 ≠ 0) ∧
        releaseDependency notified ds p =
          { p with refcount := p.refcount - 1, terminationStatus := status }) := by
  rw [releaseDependency]
  split
  · next hnot =>
    refine Or.inl ⟨rfl, fun hrunning hauto hmem => ?_⟩
    rcases hnot with h | h | h
    · exact h hrunning
    · exact absurd (h.symm.trans hauto) Bool.false_ne_true
    · exact h hmem
  · next hcond =>
    rw [not_or, not_or, not_not, not_not, Bool.not_eq_false] at hcond
    refine Or.inr ⟨hcond.1, hcond.2.1, hcond.2.2, ?_⟩
    dsimp only
    split
    · next hpos =>
      refine ⟨.running, TerminationStatus.noConfusion, ⟨fun _ h => ?_, fun _ => rfl⟩, ?_⟩
      · rw [h] at hpos
        exact absurd hpos (by decide)
      · rw [← hcond.1]
    · next hzero =>
      refine ⟨if notified p.pid then .notificationSent else .notificationFailed, ?_, ⟨?_, ?_⟩, rfl⟩
      · split <;> exact TerminationStatus.noConfusion
      · split <;> exact TerminationStatus.noConfusion
      · intro hne
        exact absurd (UInt8.pos_iff_ne_zero.mpr hne) hzero

theorem keeps_releaseDependency (notified : ℕ → Bool) (ds : List UInt64) :
    Keeps (releaseDependency notified ds) := by
  constructor <;> intro p <;>
    obtain ⟨h, -⟩ | ⟨-, -, -, status, -, -, h⟩ := releaseDependency_cases notified ds p <;>
    rw [h]
  all_goals first | rfl | exact id

theorem uses_releaseDependency (t : UInt64) (p : ProcessData) :
    uses isN3ds t (releaseDependency notified ds p) = uses isN3ds t p := by
  obtain ⟨h, -⟩ | ⟨hrunning, -, -, status, hstatus, -, h⟩ := releaseDependency_cases notified ds p
  · rw [h]
  · rw [h, uses, uses, decide_eq_true hstatus, hrunning]
    rfl

/-- The references that are left over are taken back, and the modules that have no users then are
told to terminate. -/
theorem CountsBut.release (h : CountsBut isN3ds ds l) :
    CountsUsers isN3ds (terminateUnusedDependencies notified l ds) ∧
      Spares isN3ds asked l (terminateUnusedDependencies notified l ds) := by
  have husers : ∀ t, users isN3ds (terminateUnusedDependencies notified l ds) t =
      users isN3ds l t := fun t => users_map (uses_releaseDependency t)
  have hkeeps := keeps_releaseDependency notified ds
  have hlast : ∀ p ∈ l.processes, p.autoloaded = true → p.terminationStatus = .running →
      p.titleId ∈ ds → (p.refcount - 1).toNat = users isN3ds l p.titleId := by
    intro p hp hauto hrunning hmem
    obtain ⟨hcount, -⟩ := h p hp hauto hrunning
    rw [decide_eq_true hmem, Bool.toNat_true] at hcount
    have hle : 1 ≤ p.refcount := UInt8.le_iff_toNat_le.mpr (hcount ▸ Nat.le_add_left 1 _)
    rw [UInt8.toNat_sub_of_le _ _ hle, hcount]
    rfl
  constructor
  · intro q hq hauto hrunning
    obtain ⟨p, hp, rfl⟩ := mem_map.mp hq
    rw [husers, hkeeps.titleId]
    obtain ⟨hsame, hnot⟩ | ⟨hrunning', hauto', hmem, status, -, hiff, hchanged⟩ :=
      releaseDependency_cases notified ds p
    · rw [hsame] at hauto hrunning ⊢
      have hcount := h p hp hauto hrunning
      rwa [decide_eq_false (hnot hrunning hauto)] at hcount
    · rw [hchanged] at hrunning ⊢
      have hcount := hlast p hp hauto' hrunning' hmem
      refine ⟨hcount, hcount ▸ Nat.pos_of_ne_zero fun hzero => hiff.mp hrunning ?_⟩
      exact UInt8.toNat_inj.mp hzero
  · intro p hp _ hauto hstatus
    refine ⟨_, mem_map.mpr ⟨p, hp, rfl⟩, hkeeps.pid p, hkeeps.titleId p, ?_, ?_⟩
    · obtain ⟨hsame, -⟩ | ⟨-, -, -, status, -, -, hchanged⟩ := releaseDependency_cases notified ds p
      · rw [hsame, hauto]
      · rw [hchanged, ← hauto]
    · rw [hkeeps.titleId, husers]
      rcases hstatus with hrunning | hzero
      · obtain ⟨hsame, -⟩ | ⟨-, -, hmem, status, -, hiff, hchanged⟩ :=
          releaseDependency_cases notified ds p
        · exact Or.inl (hsame.symm ▸ hrunning)
        · rw [hchanged]
          by_cases hne : p.refcount - 1 = 0
          · refine Or.inr ?_
            rw [← hlast p hp hauto hrunning hmem, hne]
            rfl
          · exact Or.inl (hiff.mpr hne)
      · exact Or.inr hzero

theorem CountsUsers.gone (h : CountsUsers isN3ds l)
    (hrest : ∀ q ∈ l'.processes, q.terminationStatus = .running → q ∈ l.processes)
    (husers : ∀ t, users isN3ds l' t + (decide (t ∈ ds)).toNat = users isN3ds l t) :
    CountsBut isN3ds ds l' := by
  intro q hq hauto hrunning
  rw [husers]
  exact h q (hrest q hq hrunning) hauto hrunning

theorem Spares.gone (hstay : ∀ q ∈ l.processes, q.pid ∉ asked → q ∈ l'.processes)
    (husers : ∀ t, users isN3ds l' t + (decide (t ∈ ds)).toNat = users isN3ds l t) :
    Spares isN3ds asked l l' := by
  intro q hq hasked hauto hstatus
  refine ⟨q, hstay q hq hasked, rfl, rfl, hauto, hstatus.imp id fun hzero => ?_⟩
  have hsum := husers q.titleId
  rw [hzero] at hsum
  exact Nat.eq_zero_of_add_eq_zero_right hsum

theorem update_gone {f : ProcessData → ProcessData} (hwell : l.Well) (hp : p ∈ l.processes)
    (hasked : p.pid ∈ asked) (hstatus : (f p).terminationStatus ≠ .running)
    (huses : ∀ t, uses isN3ds t p = decide (t ∈ ds)) (hnot : ∀ t, uses isN3ds t (f p) = false)
    (h : CountsUsers isN3ds l) :
    CountsBut isN3ds ds (l.update p.pid f) ∧ Spares isN3ds asked l (l.update p.pid f) := by
  have husers : ∀ t, users isN3ds (l.update p.pid f) t + (decide (t ∈ ds)).toNat =
      users isN3ds l t := by
    intro t
    have hupdate : users isN3ds (l.update p.pid f) t + (uses isN3ds t p).toNat =
      users isN3ds l t + (uses isN3ds t (f p)).toNat := users_update hwell hp f
    rwa [huses, hnot, Bool.toNat_false, Nat.add_zero] at hupdate
  constructor
  · apply h.gone _ husers
    intro q hq hrunning
    obtain ⟨q₀, hq₀, rfl⟩ := mem_map.mp hq
    by_cases hpid : q₀.pid = p.pid
    · rw [if_pos hpid, hwell.eq_of_pid hq₀ hp hpid] at hrunning
      exact absurd hrunning hstatus
    · rwa [if_neg hpid]
  · apply Spares.gone _ husers
    intro q hq hnasked
    have hpid : q.pid ≠ p.pid := fun hpid => hnasked (hpid ▸ hasked)
    exact mem_map.mpr ⟨q, hq, if_neg hpid⟩

theorem delete_gone (hwell : l.Well) (hp : p ∈ l.processes) (hasked : p.pid ∈ asked)
    (huses : ∀ t, uses isN3ds t p = decide (t ∈ ds)) (h : CountsUsers isN3ds l) :
    CountsBut isN3ds ds (l.delete p.pid) ∧ Spares isN3ds asked l (l.delete p.pid) := by
  have husers : ∀ t, users isN3ds (l.delete p.pid) t + (decide (t ∈ ds)).toNat =
      users isN3ds l t := fun t => huses t ▸ users_delete hwell hp
  constructor
  · exact h.gone (fun q hq _ => List.mem_of_mem_filter hq) husers
  · apply Spares.gone _ husers
    intro q hq hnasked
    have hpid : q.pid ≠ p.pid := fun hpid => hnasked (hpid ▸ hasked)
    exact List.mem_filter.mpr ⟨hq, decide_eq_true hpid⟩

/-- None of the processes holds its dependencies once it has exited. -/
def NoneHolds (asked : List ℕ) (l : ProcessList) : Prop :=
  ∀ p ∈ l.processes, p.pid ∈ asked → p.dependenciesLoaded = true →
    p.terminationStatus ≠ .terminated

theorem NoneHolds.map {f : ProcessData → ProcessData} (h : NoneHolds asked l) (hf : Keeps f)
    (hflag : ∀ p, (f p).dependenciesLoaded = true → p.dependenciesLoaded = true)
    (hstatus : ∀ p, (f p).terminationStatus = .terminated → p.terminationStatus = .terminated) :
    NoneHolds asked (l.map f) := by
  intro q hq hasked hflagged hterminated
  obtain ⟨p, hp, rfl⟩ := mem_map.mp hq
  exact h p hp (hf.pid p ▸ hasked) (hflag p hflagged) (hstatus p hterminated)

theorem NoneHolds.update {f : ProcessData → ProcessData} {pid : ℕ} (h : NoneHolds asked l)
    (hstatus : ∀ p, (f p).terminationStatus ≠ .terminated) : NoneHolds asked (l.update pid f) := by
  intro q hq hasked hflagged
  obtain ⟨p, hp, rfl⟩ := mem_map.mp hq
  split at hflagged
  · next hpid =>
    rw [if_pos hpid]
    exact hstatus p
  · next hpid =>
    rw [if_neg hpid] at hasked ⊢
    exact h p hp hasked hflagged

theorem NoneHolds.release (h : NoneHolds asked l) :
    NoneHolds asked (terminateUnusedDependencies notified l ds) := by
  apply h.map (keeps_releaseDependency notified ds) <;> intro p <;>
    obtain ⟨hsame, -⟩ | ⟨-, -, -, status, hne, -, hchanged⟩ :=
      releaseDependency_cases notified ds p
  · rw [hsame]
    exact id
  · rw [hchanged]
    exact id
  · rw [hsame]
    exact id
  · rw [hchanged]
    exact fun hterminated => absurd hterminated hne

/-- The process is told to terminate, and gives back its dependencies. -/
def dismissed (notified : ℕ → Bool) (p : ProcessData) : ProcessData :=
  { p with dependenciesLoaded := false }.sendTerminationNotification notified

theorem sendTerminationNotification_status (notified : ℕ → Bool) (p : ProcessData) :
    (p.sendTerminationNotification notified).terminationStatus ≠ .running ∧
      (p.sendTerminationNotification notified).terminationStatus ≠ .terminated := by
  show (if _ then _ else _) ≠ _ ∧ (if _ then _ else _) ≠ _
  split <;> exact ⟨TerminationStatus.noConfusion, TerminationStatus.noConfusion⟩

/-- What a request to terminate preserves for each of its processes. -/
structure Terminates (isN3ds : Bool) (asked : List ℕ) (l l' : ProcessList) : Prop where
  well : l'.Well
  counts : CountsUsers isN3ds l'
  spares : Spares isN3ds asked l l'
  noneHolds : NoneHolds asked l'

theorem Terminates.of_calm {f : ProcessData → ProcessData} (hwell : l.Well)
    (hcounts : CountsUsers isN3ds l) (hnone : NoneHolds asked l) (hf : Calm f)
    (hauto : ∀ p, (f p).autoloaded = p.autoloaded) : Terminates isN3ds asked l (l.map f) where
  well := hwell.map hf.toKeeps
  counts := hcounts.map hf
  spares := by
    intro p hp _ hp' hstatus
    refine ⟨f p, mem_map.mpr ⟨p, hp, rfl⟩, hf.pid p, hf.titleId p, (hauto p).trans hp', ?_⟩
    rw [hf.terminationStatus, hf.titleId, users_map (hf.uses _)]
    exact hstatus
  noneHolds := hnone.map hf.toKeeps (fun p => hf.dependenciesLoaded p ▸ id)
    fun p => hf.terminationStatus p ▸ id

theorem Terminates.trans (h : Terminates isN3ds asked l l') (h' : Terminates isN3ds asked l' l'') :
    Terminates isN3ds asked l l'' :=
  ⟨h'.well, h'.counts, h.spares.trans h'.spares, h'.noneHolds⟩

theorem terminateProcessImpl_terminates (hwell : l.Well) (hcounts : CountsUsers isN3ds l)
    (hnone : NoneHolds asked l) (hp : p ∈ l.processes) (hasked : p.pid ∈ asked) :
    Terminates isN3ds asked l (terminateProcessImpl isN3ds readable notified l p) := by
  have hstatus := sendTerminationNotification_status notified
  rw [terminateProcessImpl]
  split
  · next hflag =>
    split
    · have hkeeps : Keeps (dismissed notified) := ⟨fun _ => rfl, fun _ => rfl, fun _ => id⟩
      have huses : ∀ t, uses isN3ds t p = decide (t ∈ listDependencies isN3ds p.exheader) :=
        fun t => uses_of_live hflag (hnone p hp hasked hflag)
      obtain ⟨hbut, hspares⟩ : _ ∧ Spares isN3ds asked l (l.update p.pid (dismissed notified)) :=
        update_gone hwell hp hasked (hstatus _).1 huses (fun _ => uses_of_unflagged rfl) hcounts
      obtain ⟨hcounts', hspares'⟩ : _ ∧ Spares isN3ds asked _ (terminateUnusedDependencies notified
        (l.update p.pid (dismissed notified)) (listDependencies isN3ds p.exheader)) := hbut.release
      exact ⟨(hwell.update hkeeps _).map (keeps_releaseDependency notified _), hcounts',
        hspares.trans hspares', (hnone.update fun q => (hstatus _).2).release⟩
    · exact ⟨hwell, hcounts, Spares.refl asked l, hnone⟩
  · next hflag =>
    have hflag : p.dependenciesLoaded = false := Bool.eq_false_iff.mpr hflag
    have hkeeps : Keeps (ProcessData.sendTerminationNotification notified) :=
      ⟨fun _ => rfl, fun _ => rfl, fun _ => id⟩
    have huses : ∀ t, uses isN3ds t p = decide (t ∈ ([] : List UInt64)) :=
      fun t => uses_of_unflagged hflag
    obtain ⟨hbut, hspares⟩ : _ ∧ Spares isN3ds asked l
      (l.update p.pid (ProcessData.sendTerminationNotification notified)) :=
      update_gone hwell hp hasked (hstatus p).1 huses (fun _ => uses_of_unflagged hflag) hcounts
    exact ⟨hwell.update hkeeps _, hbut.nil, hspares, hnone.update fun q => (hstatus q).2⟩

theorem terminateOne_terminates {pid : ℕ} (hwell : l.Well) (hcounts : CountsUsers isN3ds l)
    (hnone : NoneHolds asked l) (hasked : pid ∈ asked) :
    Terminates isN3ds asked l (terminateOne isN3ds readable notified l pid) := by
  have hcalm : Calm fun p => if p.notifyTermination then
      { p with notifyTermination := false, notifyTerminationTerminated := true } else p := by
    refine ⟨⟨fun p => ?_, fun p => ?_, fun p => ?_⟩, fun p => ?_, fun p => ?_, fun p => ?_⟩ <;>
      split <;> first | rfl | exact id
  have hmarked := Terminates.of_calm hwell hcounts hnone (hcalm.only pid) fun p => by
    rw [only]
    split
    · split <;> rfl
    · rfl
  rw [terminateOne, update_eq_map]
  cases hfind : (l.map (only pid fun p => if p.notifyTermination then
      { p with notifyTermination := false, notifyTerminationTerminated := true }
      else p)).findProcessById pid with
  | none => exact hmarked
  | some p =>
    have hp := List.mem_of_find?_eq_some hfind
    have hpid : p.pid = pid := by simpa using List.find?_some hfind
    exact hmarked.trans (terminateProcessImpl_terminates hmarked.well hmarked.counts
      hmarked.noneHolds hp (hpid ▸ hasked))

theorem terminateAll_terminates {pids : List ℕ} (hwell : l.Well) (hcounts : CountsUsers isN3ds l)
    (hnone : NoneHolds asked l) (hasked : ∀ pid ∈ pids, pid ∈ asked) :
    Terminates isN3ds asked l (pids.foldl (terminateOne isN3ds readable notified) l) := by
  induction pids generalizing l with
  | nil => exact ⟨hwell, hcounts, Spares.refl asked l, hnone⟩
  | cons pid pids ih =>
    have hone : Terminates isN3ds asked l (terminateOne isN3ds readable notified l pid) :=
      terminateOne_terminates hwell hcounts hnone (hasked pid List.mem_cons_self)
    exact hone.trans (ih hone.well hone.counts hone.noneHolds fun q hq =>
      hasked q (List.mem_cons_of_mem pid hq))

theorem terminate_terminates {target : Target} (hwell : l.Well) (hcounts : CountsUsers isN3ds l)
    (hnone : NoneHolds (target.matches l) l) :
    Terminates isN3ds (target.matches l) l (terminate isN3ds readable notified l target) := by
  cases target with
  | application pid =>
    rw [terminate]
    cases hfind : l.findProcessById pid with
    | none => exact ⟨hwell, hcounts, Spares.refl _ l, hnone⟩
    | some p =>
      have hp : p ∈ l.processes := List.mem_of_find?_eq_some hfind
      refine terminateProcessImpl_terminates hwell hcounts hnone hp ?_
      rw [Target.matches, hfind]
      exact List.mem_singleton.mpr rfl
  | process pid => exact terminateAll_terminates hwell hcounts hnone fun _ hq => hq
  | title id => exact terminateAll_terminates hwell hcounts hnone fun _ hq => hq

theorem processExit_counts {pid : ℕ} (hwell : l.Well) (hcounts : CountsUsers isN3ds l)
    (hread : InScope isN3ds l (.exit pid readable notified)) :
    (processExit isN3ds readable notified l pid).Well ∧
      CountsUsers isN3ds (processExit isN3ds readable notified l pid) ∧
      Spares isN3ds [pid] l (processExit isN3ds readable notified l pid) := by
  rw [processExit]
  cases hfind : l.findProcessById pid with
  | none => exact ⟨hwell, hcounts, Spares.refl _ l⟩
  | some p =>
    have hp : p ∈ l.processes := List.mem_of_find?_eq_some hfind
    obtain rfl : p.pid = pid := by simpa using List.find?_some hfind
    dsimp only
    split
    · exact ⟨hwell, hcounts, Spares.refl _ l⟩
    · next hlive =>
      have hasked : p.pid ∈ [p.pid] := List.mem_singleton.mpr rfl
      -- what the process used, it uses no longer, whether it stays in the list or not
      have hgone : ∀ ds, (∀ t, uses isN3ds t p = decide (t ∈ ds)) → ∃ l₁,
          (if p.notifyTerminationTerminated || p.notifyTermination then
            l.update p.pid fun p =>
              { p with terminationStatus := .terminated, notifyTerminationTerminated := true }
          else l.delete p.pid) = l₁ ∧ l₁.Well ∧ CountsBut isN3ds ds l₁ ∧
            Spares isN3ds [p.pid] l l₁ := by
        intro ds huses
        split
        · have hkeeps : Keeps fun p : ProcessData =>
              { p with terminationStatus := .terminated, notifyTerminationTerminated := true } :=
            ⟨fun _ => rfl, fun _ => rfl, fun _ => id⟩
          exact ⟨_, rfl, hwell.update hkeeps _, update_gone hwell hp hasked
            TerminationStatus.noConfusion huses (fun _ => uses_of_terminated rfl) hcounts⟩
        · exact ⟨_, rfl, hwell.delete _, delete_gone hwell hp hasked huses hcounts⟩
      split
      · next hflag =>
        obtain ⟨l₁, heq, hwell₁, hbut, hspares⟩ := hgone (listDependencies isN3ds p.exheader)
          fun t => uses_of_live hflag.1 hlive
        rw [heq]
        obtain ⟨hcounts', hspares'⟩ : _ ∧ Spares isN3ds [p.pid] _ (terminateUnusedDependencies
          notified l₁ (listDependencies isN3ds p.exheader)) := hbut.release
        exact ⟨hwell₁.map (keeps_releaseDependency notified _), hcounts', hspares.trans hspares'⟩
      · next hflag =>
        have hflag : p.dependenciesLoaded = false := by
          rw [Bool.eq_false_iff]
          exact fun hflagged => hflag ⟨hflagged, hread p hfind hlive hflagged⟩
        obtain ⟨l₁, heq, hwell₁, hbut, hspares⟩ := hgone [] fun t => uses_of_unflagged hflag
        rw [heq]
        exact ⟨hwell₁, hbut.nil, hspares⟩

theorem unregisterProcess_counts {titleId : UInt64} (hwell : l.Well)
    (hcounts : CountsUsers isN3ds l)
    (hscope : InScope isN3ds l (.unregister titleId)) :
    (unregisterProcess l titleId).Well ∧ CountsUsers isN3ds (unregisterProcess l titleId) ∧
      Spares isN3ds (Pm.asked l (.unregister titleId)) l (unregisterProcess l titleId) := by
  rw [unregisterProcess, Pm.asked]
  cases hfind : l.findProcessByTitleId (titleId &&& ~~~n3dsTidMask) with
  | none => exact ⟨hwell, hcounts, Spares.refl _ l⟩
  | some p =>
    have huses : ∀ t, uses isN3ds t p = decide (t ∈ ([] : List UInt64)) := by
      intro t
      cases hflag : p.dependenciesLoaded with
      | false => exact uses_of_unflagged hflag
      | true => exact uses_of_terminated (hscope p hfind hflag)
    obtain ⟨hbut, hspares⟩ := delete_gone hwell (mem_of_find hfind).1
      (List.mem_singleton.mpr rfl) huses hcounts
    exact ⟨hwell.delete _, hbut.nil, hspares⟩

end Termination
/-! ## Runs -/

section Steps
variable {isN3ds : Bool} {l l' : ProcessList} {a : Action}

theorem TerminatesUnused.of_spares (hcounts : CountsUsers isN3ds l')
    (h : Spares isN3ds (asked l a) l l') : TerminatesUnused isN3ds l a l' := by
  intro p hp hauto hrunning hasked
  obtain ⟨p', hp', hpid, htitle, hauto', hstatus⟩ := h p hp hasked hauto (Or.inl hrunning)
  rw [htitle] at hstatus
  refine ⟨p', hp', hpid, htitle, fun _ => ⟨fun hnot => hstatus.resolve_left hnot, ?_⟩⟩
  intro hzero hrunning'
  have hpos := (hcounts p' hp' hauto' hrunning').2
  rw [htitle, hzero] at hpos
  exact Nat.lt_irrefl 0 hpos

theorem TerminatesUnused.of_survives (hcounts : CountsUsers isN3ds l') (h : Survives l l') :
    TerminatesUnused isN3ds l a l' := by
  intro p hp _ hrunning _
  obtain ⟨p', hp', hpid, htitle, hstatus⟩ := h p hp
  have hrunning' : p'.terminationStatus = .running := hstatus.trans hrunning
  refine ⟨p', hp', hpid, htitle, fun hauto' => ⟨fun hnot => absurd hrunning' hnot, ?_⟩⟩
  intro hzero
  have hpos := (hcounts p' hp' hauto' hrunning').2
  rw [htitle, hzero] at hpos
  exact absurd hpos (Nat.lt_irrefl 0)

theorem step_counts (hwell : l.Well) (hcounts : CountsUsers isN3ds l) (hscope : InScope isN3ds l a)
    (hstep : step isN3ds l a = some l') :
    l'.Well ∧ CountsUsers isN3ds l' ∧ TerminatesUnused isN3ds l a l' := by
  cases a with
  | launchTitle info titleId programs =>
    obtain ⟨hwell', hcounts', hsurvives⟩ := launchTitle_counts hwell hcounts hscope hstep
    exact ⟨hwell', hcounts', TerminatesUnused.of_survives hcounts' hsurvives⟩
  | launchTitleUpdate info program programs =>
    obtain ⟨hwell', hcounts', hsurvives⟩ := launchTitleImpl_counts hwell hcounts hscope hstep
    exact ⟨hwell', hcounts', TerminatesUnused.of_survives hcounts' hsurvives⟩
  | terminate target readable notified =>
    obtain rfl := Option.some.inj hstep
    have h : Terminates isN3ds (target.matches l) l (terminate isN3ds readable notified l target) :=
      terminate_terminates hwell hcounts hscope
    exact ⟨h.well, h.counts, TerminatesUnused.of_spares h.counts h.spares⟩
  | exit pid readable notified =>
    obtain rfl := Option.some.inj hstep
    obtain ⟨hwell', hcounts', hspares⟩ := processExit_counts hwell hcounts hscope
    exact ⟨hwell', hcounts', TerminatesUnused.of_spares hcounts' hspares⟩
  | unregister titleId =>
    obtain rfl := Option.some.inj hstep
    obtain ⟨hwell', hcounts', hspares⟩ := unregisterProcess_counts hwell hcounts hscope
    exact ⟨hwell', hcounts', TerminatesUnused.of_spares hcounts' hspares⟩

theorem registerKips_well (numKips : ℕ) : (registerKips numKips).Well := by
  have hnew : ∀ p ∈ (registerKips numKips).processes, ∃ pid < numKips,
      ProcessData.new pid ⟨0x0004000100001000, []⟩ = p := by
    intro p hp
    obtain ⟨pid, hpid, rfl⟩ := List.mem_map.mp hp
    exact ⟨pid, List.mem_range.mp hpid, rfl⟩
  constructor
  · rw [registerKips, List.map_map]
    show ((List.range numKips).map id).Nodup
    rw [List.map_id]
    exact List.nodup_range
  · intro p hp
    obtain ⟨pid, hpid, rfl⟩ := hnew p hp
    exact hpid
  · intro p hp hauto
    obtain ⟨pid, -, rfl⟩ := hnew p hp
    exact absurd hauto Bool.false_ne_true

theorem registerKips_countsUsers (numKips : ℕ) : CountsUsers isN3ds (registerKips numKips) := by
  intro p hp hauto
  obtain ⟨pid, -, rfl⟩ := List.mem_map.mp hp
  exact absurd hauto Bool.false_ne_true

/-- In every run whose steps are in scope, the count of each autoloaded module is the number of its
users, and it is told to terminate exactly when there are none left. -/
theorem refcounts_countUsers {numKips : ℕ} {as : List Action}
    (h : Runs.Guarded (step isN3ds) (InScope isN3ds) (registerKips numKips) as) :
    Runs.AllSteps (step isN3ds)
      (fun l a l' => CountsUsers isN3ds l' ∧ TerminatesUnused isN3ds l a l') (registerKips numKips)
      as :=
  Runs.allSteps_of_guarded (I := fun l => l.Well ∧ CountsUsers isN3ds l)
    (fun _ _ _ hinv hscope hstep =>
      have ⟨hwell, hcounts, hterminates⟩ := step_counts hinv.1 hinv.2 hscope hstep
      ⟨⟨hwell, hcounts⟩, hcounts, hterminates⟩)
    ⟨registerKips_well numKips, registerKips_countsUsers numKips⟩ h

end Steps

/-! ## An application with one module -/

def moduleTitle : UInt64 := 0x0004013000001502

def moduleHeader : ExHeader := ⟨moduleTitle, []⟩

def oneModule (titleId : UInt64) : Program :=
  if titleId = moduleTitle then .started moduleHeader else .missing

def applicationHeader (dependencies : List UInt64) : ExHeader := ⟨0x0004000000033500, dependencies⟩

/-- The launch of an application with these dependencies. -/
def launchApplication (dependencies : List UInt64) : Action :=
  .launchTitleUpdate ⟨true, false, false, true⟩ (.started (applicationHeader dependencies))
    oneModule

def moduleProcess (refcount : UInt8) (status : TerminationStatus) : ProcessData :=
  ⟨1, moduleHeader, false, true, true, false, status, refcount⟩

/-- The exit of the application. -/
def exitApplication : Action := .exit 0 (fun _ => true) fun _ => true

def applicationProcess (dependencies : List UInt64) : ProcessData :=
  ⟨0, applicationHeader dependencies, false, true, false, false, .running, 1⟩

theorem launchApplication_step : step true (registerKips 0) (launchApplication [moduleTitle]) =
    some ⟨[applicationProcess [moduleTitle], moduleProcess 1 .running], 2⟩ := by decide

theorem launchApplication_inScope :
    InScope true (registerKips 0) (launchApplication [moduleTitle]) := by
  intro _
  have hnone : ((registerKips 0).new (applicationHeader [moduleTitle])).findProcessByTitleId
      moduleTitle = none := by decide
  have hstarted : ∀ {e}, oneModule moduleTitle = .started e → e = moduleHeader := by
    intro e he
    exact (Program.started.inj he).symm
  have happ : listDependencies true (applicationHeader [moduleTitle]) = [moduleTitle] := by
    decide
  have hmodule : listDependencies true moduleHeader = [] := rfl
  have hreached : ∀ e, Reached true false oneModule ((registerKips 0).new
      (applicationHeader [moduleTitle])) (applicationHeader [moduleTitle]) e →
      e = applicationHeader [moduleTitle] ∨ e = moduleHeader := by
    intro e he
    induction he with
    | main => exact Or.inl rfl
    | dependency he hlisted hloads ih =>
      rcases ih with rfl | rfl
      · rw [happ, List.mem_singleton] at hlisted
        exact Or.inr (hstarted (hlisted ▸ hloads.2.2))
      · rw [hmodule] at hlisted
        exact absurd hlisted List.not_mem_nil
  have hlisted : ∀ t, Listed true false oneModule ((registerKips 0).new
      (applicationHeader [moduleTitle])) (applicationHeader [moduleTitle]) t → t = moduleTitle := by
    rintro t ⟨e, he, ht⟩
    rcases hreached e he with rfl | rfl
    · rw [happ, List.mem_singleton] at ht
      exact ht
    · rw [hmodule] at ht
      exact absurd ht List.not_mem_nil
  constructor
  · intro e t he _
    rcases hreached e he with rfl | rfl
    · rw [happ]
      exact List.count_le_length
    · rw [hmodule]
      exact Nat.zero_le 1
  · intro t p ht hp
    rw [hlisted t ht, hnone] at hp
    exact absurd hp (by rintro ⟨⟩)
  · intro t e ht hloads
    obtain rfl := hlisted t ht
    rw [hstarted hloads.2.2]
    rfl
  · intro t _ t' ht _ ht' _
    rw [hlisted t ht, hlisted t' ht']
  · intro t _ ht _
    rw [hlisted t ht]
    decide

theorem refcounts_countUsers_oneModule : Runs.AllSteps (step true)
    (fun l a l' => CountsUsers true l' ∧ TerminatesUnused true l a l') (registerKips 0)
    [launchApplication [moduleTitle], exitApplication] :=
  refcounts_countUsers (Runs.Guarded.cons launchApplication_step launchApplication_inScope
    (fun _ _ => ⟨fun _ _ _ _ => rfl, trivial⟩))

/-- A module that is listed twice is counted twice, and has one user. -/
theorem refcounts_listedTwice :
    ¬ ∀ l, step true (registerKips 0) (launchApplication [moduleTitle, moduleTitle]) = some l →
      CountsUsers true l := by
  intro h
  have hstep : step true (registerKips 0) (launchApplication [moduleTitle, moduleTitle]) =
      some ⟨[applicationProcess [moduleTitle, moduleTitle], moduleProcess 2 .running], 2⟩ := by
    decide +kernel
  exact absurd (h _ hstep) (by decide +kernel)

end Presence3DS.Pm
