import Presence3DS.Pm.LaunchOutcomes

/-! The lock of the process list is given back as often as it is taken, unless a process cannot be
loaded. -/

namespace Presence3DS.Pm.LaunchCalls

open NotedRuns NotedM Brackets

def lockMark : Event → Mark
  | .lock => .takes
  | .unlock => .gives
  | _ => .neither

/-- The process could not be loaded, which is where the launch jumps past the lock. -/
def Outcome.FailsToLoad (o : Outcome) : Prop := o = .unloaded ∨ o = .broken

instance (o : Outcome) : Decidable o.FailsToLoad := inferInstanceAs (Decidable (_ ∨ _))

variable {isN3ds : Bool} {numKips : ℕ} {calls : UInt64 → Calls} {titleId : UInt64}
  {flags : LaunchFlags} {s : Manager} {fuel i : ℕ} {deps : List Dependency} {res b : Bool}

/-- The launch of each of the titles gets past the loading of its process. -/
def AllLoad (numKips : ℕ) (calls : UInt64 → Calls) (ts : List UInt64) : Prop :=
  ∀ t ∈ ts, ¬(outcome numKips (calls t) t).FailsToLoad

-- The search over the list is named, since every number there is could be tried as well.
instance (ts : List UInt64) : Decidable (AllLoad numKips calls ts) :=
  List.decidableBAll (fun t => ¬(outcome numKips (calls t) t).FailsToLoad) ts

/-- The result of the last of the launches. -/
def lastResult (numKips : ℕ) (calls : UInt64 → Calls) (res : Bool) (ts : List UInt64) : Bool :=
  ts.foldl (fun _ t => decide (outcome numKips (calls t) t = .started)) res

theorem exact_noting {α : Type} {es : List Event} {r : Option α × Manager × List Event}
    {p : Prop} (hes : Balanced lockMark es) (h : Exact lockMark r.2.2 p) :
    Exact lockMark (noting es r).2.2 p :=
  ((exact_of_balanced hes).append h).congr (iff_of_eq (true_and p))

theorem allLoad_cons (t : UInt64) (ts : List UInt64) : AllLoad numKips calls (t :: ts) ↔
    ¬(outcome numKips (calls t) t).FailsToLoad ∧ AllLoad numKips calls ts :=
  List.forall_mem_cons

theorem lastResult_cons (t : UInt64) (ts : List UInt64) :
    lastResult numKips calls res (t :: ts) =
      lastResult numKips calls (decide (outcome numKips (calls t) t = .started)) ts := rfl

theorem LoopRun.locks {ts : List UInt64} {r : Option Bool × Manager × List Event}
    (hrun : LoopRun isN3ds numKips calls s ts res r) (h : r.1 = some b) :
    Exact lockMark r.2.2 (AllLoad numKips calls ts) ∧ b = lastResult numKips calls res ts := by
  induction hrun with
  | ended s res =>
    refine ⟨(exact_of_balanced balanced_nil).congr ?_, (Option.some.inj h).symm⟩
    exact ⟨fun _ _ ht => absurd ht List.not_mem_nil, fun _ => trivial⟩
  | panics hnone hpanic => exact absurd (h.symm.trans hnone) (Option.some_ne_none b)
  | prevented ho => exact absurd h (Option.some_ne_none b).symm
  | @unregistered _ t _ _ _ ho hrest ih =>
    obtain ⟨hlocks, hres⟩ := ih h
    rw [allLoad_cons, lastResult_cons, ho]
    have hnone : Balanced lockMark [.launched t false] := rfl
    exact ⟨(exact_noting hnone hlocks).congr (by simp [Outcome.FailsToLoad]), hres⟩
  | @unloaded _ t _ _ _ ho hrest ih =>
    obtain ⟨hlocks, hres⟩ := ih h
    rw [allLoad_cons, lastResult_cons, ho]
    have hfails : Exact lockMark [.unlock, .launched t false] False := exact_of_fails rfl
    exact ⟨(hfails.append hlocks).congr (by simp [Outcome.FailsToLoad]), hres⟩
  | broken ho =>
    rw [allLoad_cons, lastResult_cons, ho]
    refine ⟨(exact_of_fails rfl).congr (by simp [Outcome.FailsToLoad]), ?_⟩
    exact (Option.some.inj h).symm
  | @notRun _ t _ ho =>
    rw [allLoad_cons, lastResult_cons, ho]
    refine ⟨?_, (Option.some.inj h).symm⟩
    have hlocks : Balanced lockMark [.lock, .unlock, .lock, .unlock, .launched t false] := rfl
    exact (exact_of_balanced hlocks).congr (by simp [Outcome.FailsToLoad, AllLoad])
  | @started _ t _ _ _ _ _ _ _ _ ho hadopt hrest ih =>
    obtain ⟨hlocks, hres⟩ := ih h
    rw [allLoad_cons, lastResult_cons, ho]
    have hall : Balanced lockMark [.lock, .unlock, .lock, .unlock, .launched t true,
      .lock, .unlock] := rfl
    exact ⟨(exact_noting hall hlocks).congr (by simp [Outcome.FailsToLoad]), hres⟩

/-! ## The whole launch -/

variable {c : Calls} {proc : Option ℕ}

theorem loadWithoutDependencies_locks {r : Option ℕ × Bool}
    (h : (loadWithoutDependencies c titleId flags s).1 = some r) :
    Balanced lockMark (loadWithoutDependencies c titleId flags s).2.2 ∧
      (r.2 = true ↔ loadOutcome c titleId flags = .loaded) ∧ (r.2 = true → r.1.isSome = true) := by
  rw [loadWithoutDependencies_eq] at h ⊢
  cases hload : loadOutcome c titleId flags with
  | noProcess =>
    rw [hload] at h
    obtain rfl := Option.some.inj h
    exact ⟨rfl, by decide, by decide⟩
  | panics =>
    rw [hload] at h
    exact absurd h (Option.some_ne_none r).symm
  | broken =>
    rw [hload] at h
    obtain rfl := Option.some.inj h
    exact ⟨rfl, by simp, fun _ => rfl⟩
  | loaded =>
    rw [hload] at h
    obtain rfl := Option.some.inj h
    exact ⟨rfl, by simp, fun _ => rfl⟩

/-- The dependencies of a title load without fault and the last of them starts. -/
def DependenciesLoad (isN3ds : Bool) (numKips : ℕ) (calls : UInt64 → Calls) (c : Calls)
    (flags : LaunchFlags) (l : ProcessList) : Prop :=
  AllLoad numKips calls (triedFor isN3ds numKips calls c flags l) ∧
    lastResult numKips calls true (triedFor isN3ds numKips calls c flags l) = true

theorem loadWithDependencies_locks {r : Option ℕ × Bool}
    (h : (loadWithDependencies isN3ds numKips calls c titleId flags s).1 = some r) :
    Exact lockMark (loadWithDependencies isN3ds numKips calls c titleId flags s).2.2
      (loadOutcome c titleId flags = .loaded →
        AllLoad numKips calls (triedFor isN3ds numKips calls c flags s.processList)) ∧
    (r.2 = true ↔ loadOutcome c titleId flags = .loaded ∧
      lastResult numKips calls true (triedFor isN3ds numKips calls c flags s.processList)) ∧
    (r.2 = true → r.1.isSome = true) := by
  by_cases hload : loadOutcome c titleId flags = .loaded
  · cases hlisted : listed isN3ds c s.processList with
    | none =>
      rw [(loadWithDependencies_unlisted hload hlisted).1] at h
      exact absurd h (Option.some_ne_none r).symm
    | some next =>
    obtain ⟨l, deps⟩ := next
    have hlocked : Balanced lockMark [.lock, .unlock, .lock, .unlock] := rfl
    cases hfake : flags.fakeDependencyLoading with
    | true =>
      obtain ⟨htried, hrun⟩ := loadWithDependencies_fake numKips calls hload hlisted hfake
      rw [hrun] at h ⊢
      obtain rfl := Option.some.inj h
      rw [htried]
      refine ⟨(exact_of_balanced hlocked).congr ?_, ?_, fun _ => rfl⟩
      · exact ⟨fun _ _ _ ht => absurd ht List.not_mem_nil, fun _ => trivial⟩
      · exact ⟨fun _ => ⟨hload, rfl⟩, fun _ => rfl⟩
    | false =>
      obtain ⟨run, hloop, hrun⟩ := loadWithDependencies_loop hload hlisted hfake
      rw [hrun] at h ⊢
      obtain ⟨res, hres, rfl⟩ := Option.map_eq_some_iff.mp h
      obtain ⟨hlocks, hlast⟩ := hloop.locks hres
      refine ⟨(exact_noting hlocked hlocks).congr ?_, ?_, fun _ => rfl⟩
      · exact ⟨fun hall _ => hall, fun hall => hall hload⟩
      · rw [hlast]
        exact ⟨fun hres => ⟨hload, hres⟩, And.right⟩
  · rw [loadWithDependencies_failed hload] at h ⊢
    obtain ⟨hlocks, hres, hproc⟩ := loadWithoutDependencies_locks h
    refine ⟨(exact_of_balanced hlocks).congr ?_, ?_, hproc⟩
    · exact ⟨fun _ hloaded => absurd hloaded hload, fun _ => trivial⟩
    · rw [hres]
      exact ⟨fun hloaded => absurd hloaded hload, And.left⟩

theorem runOrQueue_eq (c : Calls) (flags : LaunchFlags) (pid : ℕ) (s : Manager) :
    ∃ b s', runOrQueue c flags (some pid) s = (some b, s', []) := by
  unfold runOrQueue
  rcases hqueue : flags.queueDebugApplication with _ | _
  · rcases hrun : c.run && flags.normalApplication with _ | _
    · exact ⟨_, _, rfl⟩
    · exact ⟨_, _, rfl⟩
  · show ∃ b s', (gets Manager.debugData >>= _ : PmM Bool) s = _
    rw [run_bind]
    dsimp only [gets]
    rcases s.debugData with _ | _
    · exact ⟨true, _, rfl⟩
    · exact ⟨false, _, rfl⟩

theorem cleanup_eq (flags : LaunchFlags) (proc : Option ℕ) (b : Bool) (s : Manager) :
    ∃ s', cleanup flags proc b s = (some (proc, b), s', [.unlock]) := by
  unfold cleanup
  rcases proc with _ | pid
  · exact ⟨_, rfl⟩
  · rcases hnotify : b && flags.notifyTermination with _ | _
    · exact ⟨_, rfl⟩
    · exact ⟨_, rfl⟩

theorem launchTitleWith_locks {load : PmM (Option ℕ × Bool)} {p : Prop} {r : Option ℕ × Bool}
    (hprevented : isTitleLaunchPrevented numKips titleId = false)
    (hregister : c.registerProgram = true) (hinfo : c.getProgramInfo = true)
    (hload : (load s).1 = some r) (hlocks : Exact lockMark (load s).2.2 p)
    (hproc : r.2 = true → r.1.isSome = true) :
    Exact lockMark (launchTitleWith load numKips c titleId flags s).2.2 (p ∧ r.2 = true) := by
  obtain ⟨proc, loaded⟩ := r
  unfold launchTitleWith
  rw [hprevented, hregister, hinfo]
  show Exact lockMark ((load >>= _) s).2.2 _
  rw [run_bind]
  rcases hrun : load s with ⟨o, s', es⟩
  rw [hrun] at hload hlocks
  obtain rfl : o = some (proc, loaded) := hload
  cases loaded with
  | false =>
    obtain ⟨s'', hcleanup⟩ := cleanup_eq flags proc false s'
    show Exact lockMark (es ++ (cleanup flags proc false s').2.2) _
    rw [hcleanup]
    exact (hlocks.append (exact_of_fails rfl)).congr (by simp)
  | true =>
    obtain ⟨pid, rfl⟩ := Option.isSome_iff_exists.mp (hproc rfl)
    obtain ⟨b, t, hqueue⟩ := runOrQueue_eq c flags pid s'
    obtain ⟨u, hcleanup⟩ := cleanup_eq flags (some pid) b t
    have hsection : (note .lock >>= fun _ => runOrQueue c flags (some pid) >>=
        fun b => cleanup flags (some pid) b : PmM _) s' =
        (some (some pid, b), u, [.lock, .unlock]) := by
      rw [run_bind]
      show noting [.lock] ((runOrQueue c flags (some pid) >>= _) s') = _
      rw [run_bind, hqueue]
      dsimp only
      rw [hcleanup]
      rfl
    have hpair : Balanced lockMark [.lock, .unlock] := rfl
    show Exact lockMark (es ++ ((note .lock >>= _ : PmM _) s').2.2) _
    rw [hsection]
    exact (hlocks.append (exact_of_balanced hpair)).congr (by simp)

/-- The launch ends before anything is loaded. -/
def EndsBeforeLoad (numKips : ℕ) (c : Calls) (titleId : UInt64) : Prop :=
  isTitleLaunchPrevented numKips titleId = true ∨ c.registerProgram = false ∨
    c.getProgramInfo = false

theorem launchTitleWith_ended {load : PmM (Option ℕ × Bool)}
    (h : EndsBeforeLoad numKips c titleId) :
    (launchTitleWith load numKips c titleId flags s).2.2 = [] := by
  unfold launchTitleWith
  cases hprevented : isTitleLaunchPrevented numKips titleId with
  | true => rfl
  | false =>
  cases hregister : c.registerProgram with
  | false => rfl
  | true =>
  cases hinfo : c.getProgramInfo with
  | false => rfl
  | true =>
    rcases h with h | h | h
    · exact absurd (hprevented.symm.trans h) Bool.false_ne_true
    · exact absurd (h.symm.trans hregister) Bool.false_ne_true
    · exact absurd (h.symm.trans hinfo) Bool.false_ne_true

theorem load_returns {load : PmM (Option ℕ × Bool)} {r : Option ℕ × Bool}
    (hprevented : isTitleLaunchPrevented numKips titleId = false)
    (hregister : c.registerProgram = true) (hinfo : c.getProgramInfo = true)
    (h : (launchTitleWith load numKips c titleId flags s).1 = some r) :
    ∃ r', (load s).1 = some r' := by
  unfold launchTitleWith at h
  rw [hprevented, hregister, hinfo] at h
  change ((load >>= _) s).1 = some r at h
  rw [run_bind] at h
  rcases hrun : load s with ⟨_ | r', s', es⟩
  · rw [hrun] at h
    exact absurd h (Option.some_ne_none r).symm
  · exact ⟨r', rfl⟩

/-- All that a launch has to load can be loaded, and the last of the dependencies starts. -/
def LoadsAll (isN3ds : Bool) (numKips : ℕ) (calls : UInt64 → Calls) (titleId : UInt64)
    (flags : LaunchFlags) (l : ProcessList) : Prop :=
  loadOutcome (calls titleId) titleId flags = .loaded ∧
    ((flags.normalApplication || flags.loadDependencies) = true →
      AllLoad numKips calls (triedFor isN3ds numKips calls (calls titleId) flags l) ∧
      lastResult numKips calls true
        (triedFor isN3ds numKips calls (calls titleId) flags l) = true)

/-- A launch that returns leaves the lock as it was exactly where nothing fails to load. -/
theorem launchTitleImpl_balanced_iff {r : Option ℕ × Bool}
    (h : (launchTitleImpl isN3ds numKips calls titleId flags s).1 = some r) :
    Balanced lockMark (launchTitleImpl isN3ds numKips calls titleId flags s).2.2 ↔
      EndsBeforeLoad numKips (calls titleId) titleId ∨
        LoadsAll isN3ds numKips calls titleId flags s.processList := by
  unfold launchTitleImpl at h ⊢
  by_cases hends : EndsBeforeLoad numKips (calls titleId) titleId
  · rw [launchTitleWith_ended hends]
    exact iff_of_true balanced_nil (.inl hends)
  have hprevented : isTitleLaunchPrevented numKips titleId = false :=
    Bool.eq_false_iff.mpr fun hp => hends (.inl hp)
  have hregister : (calls titleId).registerProgram = true :=
    Bool.ne_false_iff.mp fun hr => hends (.inr (.inl hr))
  have hinfo : (calls titleId).getProgramInfo = true :=
    Bool.ne_false_iff.mp fun hi => hends (.inr (.inr hi))
  rw [or_iff_right hends]
  obtain ⟨r', hload⟩ := load_returns hprevented hregister hinfo h
  unfold LoadsAll
  cases hdeps : flags.normalApplication || flags.loadDependencies with
  | false =>
    rw [hdeps] at hload
    obtain ⟨hlocks, hres, hproc⟩ := loadWithoutDependencies_locks hload
    refine (launchTitleWith_locks hprevented hregister hinfo hload (exact_of_balanced hlocks)
      hproc).balanced_iff.trans ?_
    rw [hres]
    exact ⟨fun hr => ⟨hr.2, fun hd => absurd hd Bool.false_ne_true⟩, fun hr => ⟨trivial, hr.1⟩⟩
  | true =>
    rw [hdeps] at hload
    obtain ⟨hlocks, hres, hproc⟩ := loadWithDependencies_locks hload
    refine (launchTitleWith_locks hprevented hregister hinfo hload hlocks
      hproc).balanced_iff.trans ?_
    rw [hres]
    constructor
    · rintro ⟨hall, hloaded, hlast⟩
      exact ⟨hloaded, fun _ => ⟨hall hloaded, hlast⟩⟩
    · rintro ⟨hloaded, hall⟩
      exact ⟨fun _ => (hall rfl).1, hloaded, (hall rfl).2⟩

/-- The calls of a launch in which everything succeeds. -/
def succeeding (titleId : UInt64) (dependencies : List UInt64) : Calls :=
  ⟨true, true, ⟨titleId, dependencies⟩, true, true, true, true, true, true, true, true, true, true,
    true⟩

/-- An application with one dependency; anything else has none. -/
def oneDependency (titleId : UInt64) : Calls :=
  if titleId = 0x0004000000033500 then succeeding titleId [0x0004013000001502]
  else succeeding titleId []

def noManager : Manager := ⟨⟨[], 0⟩, none, none⟩

def applicationFlags : LaunchFlags := ⟨true, false, false, true, false, false⟩

theorem launchTitleImpl_balanced_application :
    Balanced lockMark
      (launchTitleImpl true 6 oneDependency 0x0004000000033500 applicationFlags noManager).2.2 :=
  (launchTitleImpl_balanced_iff (r := (some 0, true)) (by decide +kernel)).mpr
    (.inr ⟨by decide +kernel, fun _ => ⟨by decide +kernel, by decide +kernel⟩⟩)

/-- Where the loader cannot load the process, the lock is given back without having been taken. -/
theorem unlocks_without_lock :
    (launchTitleImpl true 6 (fun t => { succeeding t [] with loadProcess := false })
      0x0004000000033500 noFlags noManager) = (some (none, false), noManager, [.unlock]) ∧
    ¬Balanced lockMark [.unlock] := by
  refine ⟨?_, by decide⟩
  decide +kernel

end Presence3DS.Pm.LaunchCalls
