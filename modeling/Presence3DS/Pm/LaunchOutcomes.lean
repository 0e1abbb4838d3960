import Presence3DS.Lib.Brackets
import Presence3DS.Pm.LaunchCalls

/-! What becomes of each launch that `loadWithDependencies` makes. -/

namespace Presence3DS.Pm.LaunchCalls

open NotedRuns NotedM

/-! ## Outcomes -/

inductive LoadOutcome where
  | noProcess
  | panics
  | broken
  | loaded
deriving DecidableEq

/-- Loading fails before there is a process, panics without a free one, fails with the process in
the list, or succeeds. -/
def loadOutcome (c : Calls) (titleId : UInt64) (flags : LaunchFlags) : LoadOutcome :=
  if requireBatchUpdate titleId then .noProcess
  else if !c.loadProcess then .noProcess
  else if !c.getProcessId then .noProcess
  else if !c.freeProcess then .panics
  else if !c.registers then .broken
  else if flags.outDebug && !c.debugActiveProcess then .broken
  else .loaded

inductive Outcome where
  | prevented
  | unregistered
  | unloaded
  | panics
  | broken
  | notRun
  | started
deriving DecidableEq

/-- What becomes of the launch of a dependency. -/
def outcome (numKips : ℕ) (c : Calls) (titleId : UInt64) : Outcome :=
  if isTitleLaunchPrevented numKips titleId then .prevented
  else if !c.registerProgram then .unregistered
  else if !c.getProgramInfo then .unregistered
  else match loadOutcome c titleId noFlags with
    | .noProcess => .unloaded
    | .panics => .panics
    | .broken => .broken
    | .loaded => if c.run then .started else .notRun

def Manager.enter (s : Manager) (exheader : ExHeader) : Manager :=
  { s with processList := s.processList.new exheader }

/-- What is noted first, before a run. -/
def noting {α : Type} (es : List Event) (r : Option α × Manager × List Event) :
    Option α × Manager × List Event := (r.1, r.2.1, es ++ r.2.2)

variable {isN3ds : Bool} {numKips : ℕ} {c : Calls} {titleId : UInt64} {flags : LaunchFlags}
  {s : Manager}

theorem loadWithoutDependencies_eq : loadWithoutDependencies c titleId flags s =
    match loadOutcome c titleId flags with
    | .noProcess => (some (none, false), s, [])
    | .panics => (none, s, [.lock, .panic])
    | .broken => (some (some s.processList.nextPid, false), s.enter c.exheader, [.lock, .unlock])
    | .loaded =>
      (some (some s.processList.nextPid, true), s.enter c.exheader, [.lock, .unlock]) := by
  unfold loadWithoutDependencies loadOutcome
  cases requireBatchUpdate titleId with
  | true => rfl
  | false =>
  cases c.loadProcess with
  | false => rfl
  | true =>
  cases c.getProcessId with
  | false => rfl
  | true =>
  cases c.freeProcess with
  | false => rfl
  | true =>
  cases c.registers with
  | false => rfl
  | true =>
  cases flags.outDebug && !c.debugActiveProcess with
  | true => rfl
  | false => rfl

theorem launchDependency_eq : launchDependency numKips c titleId s =
    match outcome numKips c titleId with
    | .prevented => (some (none, true), s, [])
    | .unregistered => (some (none, false), s, [])
    | .unloaded => (some (none, false), s, [.unlock])
    | .panics => (none, s, [.lock, .panic])
    | .broken => (some (some s.processList.nextPid, false), s.enter c.exheader,
        [.lock, .unlock, .unlock])
    | .notRun => (some (some s.processList.nextPid, false), s.enter c.exheader,
        [.lock, .unlock, .lock, .unlock])
    | .started => (some (some s.processList.nextPid, true), s.enter c.exheader,
        [.lock, .unlock, .lock, .unlock]) := by
  unfold launchDependency launchTitleWith outcome
  cases isTitleLaunchPrevented numKips titleId with
  | true => rfl
  | false =>
  cases c.registerProgram with
  | false => rfl
  | true =>
  cases c.getProgramInfo with
  | false => rfl
  | true =>
  show (loadWithoutDependencies c titleId noFlags >>= _) s = _
  rw [run_bind, loadWithoutDependencies_eq]
  cases loadOutcome c titleId noFlags with
  | noProcess => rfl
  | panics => rfl
  | broken => rfl
  | loaded =>
    cases hrun : c.run with
    | false =>
      simp only [runOrQueue, noFlags, hrun]
      rfl
    | true =>
      simp only [runOrQueue, noFlags, hrun]
      rfl

/-! ## The modules that are started -/

/-- What is done with the process of a module that has been started. -/
def adopted (isN3ds : Bool) (exheader : ExHeader) (l : ProcessList)
    (deps : List Dependency) (i : ℕ) (d : Dependency) :
    Option (ProcessList × List Dependency) := do
  let pid := l.nextPid
  let l := (l.new exheader).update pid fun p =>
    { p with autoloaded := true, dependenciesLoaded := true }
  let l ← l.incref pid (d.remrefcount - 1)
  listMergeUniqueDependencies isN3ds l (deps.set i { d with proc := some pid, remrefcount := 0 })
    exheader

variable {calls : UInt64 → Calls} {fuel i : ℕ} {deps : List Dependency} {res : Bool}
  {d : Dependency}

theorem changeList_eq {α : Type} (f : ProcessList → Option (ProcessList × α)) (s : Manager) :
    changeList f s = match f s.processList with
      | some (l, a) => (some a, { s with processList := l }, [])
      | none => (none, s, [.panic]) := by
  show (match f s.processList with | some (l, a) => _ | none => _ : PmM α) s = _
  rcases f s.processList with _ | ⟨l, a⟩
  · rfl
  · rfl

theorem mergeDependencies_eq (exheader : ExHeader) (s : Manager) :
    mergeDependencies isN3ds deps exheader s =
      match listMergeUniqueDependencies isN3ds s.processList deps exheader with
      | some (l, deps) => (some deps, { s with processList := l }, [.lock, .unlock])
      | none => (none, s, [.lock, .panic]) := by
  show (note .lock >>= fun _ => changeList _ >>= fun _ => _) s = _
  rw [run_bind]
  show noting [.lock] ((changeList _ >>= fun _ => _) s) = _
  rw [run_bind, changeList_eq]
  rcases listMergeUniqueDependencies isN3ds s.processList deps exheader with _ | ⟨l, deps⟩
  · rfl
  · rfl

theorem adopt_of_some {exheader : ExHeader} {l : ProcessList} {deps' : List Dependency}
    (h : adopted isN3ds exheader s.processList deps i d = some (l, deps')) :
    adopt isN3ds exheader deps i d s.processList.nextPid (s.enter exheader) =
      (some deps', { s with processList := l }, [.lock, .unlock]) := by
  obtain ⟨l₁, hincref, hmerge⟩ := Option.bind_eq_some_iff.mp h
  show noting [] ((changeList _ >>= fun _ => mergeDependencies _ _ _) ⟨_, _, _⟩) = _
  rw [run_bind, changeList_eq]
  dsimp only [Manager.enter]
  rw [hincref]
  dsimp only [Option.map_some]
  rw [mergeDependencies_eq]
  dsimp only
  rw [hmerge]
  rfl

theorem adopt_of_none {exheader : ExHeader}
    (h : adopted isN3ds exheader s.processList deps i d = none) :
    (adopt isN3ds exheader deps i d s.processList.nextPid (s.enter exheader)).1 = none ∧
      .panic ∈ (adopt isN3ds exheader deps i d s.processList.nextPid (s.enter exheader)).2.2 := by
  have hrun : adopt isN3ds exheader deps i d s.processList.nextPid (s.enter exheader) =
    noting [] ((changeList _ >>= fun _ => mergeDependencies _ _ _) ⟨_, _, _⟩) := rfl
  rw [hrun, run_bind, changeList_eq]
  unfold adopted at h
  dsimp only [Manager.enter]
  cases hincref : ((s.processList.new exheader).update s.processList.nextPid fun p =>
      { p with autoloaded := true, dependenciesLoaded := true }).incref s.processList.nextPid
      (d.remrefcount - 1) with
  | none => exact ⟨rfl, List.mem_singleton_self _⟩
  | some l =>
    simp only [hincref, Option.bind_eq_bind, Option.bind_some] at h
    dsimp only [Option.map_some]
    rw [mergeDependencies_eq]
    dsimp only
    rw [h]
    exact ⟨rfl, List.mem_cons_of_mem _ (List.mem_singleton_self _)⟩

theorem loadDependencies_launch (hget : deps[i]? = some d) (hproc : d.proc = none) :
    loadDependencies isN3ds numKips calls (fuel + 1) i deps res s =
      match outcome numKips (calls d.titleId) d.titleId with
      | .prevented => (none, s, [.launched d.titleId false, .nullDereference])
      | .unregistered => noting [.launched d.titleId false]
          (loadDependencies isN3ds numKips calls fuel (i + 1) deps false s)
      | .unloaded => noting [.unlock, .launched d.titleId false]
          (loadDependencies isN3ds numKips calls fuel (i + 1) deps false s)
      | .panics => (none, s, [.lock, .panic])
      | .broken => (some false, s.enter (calls d.titleId).exheader,
          [.lock, .unlock, .unlock, .launched d.titleId false])
      | .notRun => (some false, s.enter (calls d.titleId).exheader,
          [.lock, .unlock, .lock, .unlock, .launched d.titleId false])
      | .started => noting [.lock, .unlock, .lock, .unlock, .launched d.titleId true]
          ((adopt isN3ds (calls d.titleId).exheader deps i d s.processList.nextPid >>= fun deps =>
            loadDependencies isN3ds numKips calls fuel (i + 1) deps true)
              (s.enter (calls d.titleId).exheader)) := by
  rw [loadDependencies, hget]
  dsimp only
  rw [hproc]
  show (launchDependency numKips (calls d.titleId) d.titleId >>= _) s = _
  rw [run_bind, launchDependency_eq]
  cases outcome numKips (calls d.titleId) d.titleId with
  | prevented => rfl
  | unregistered => rfl
  | unloaded => rfl
  | panics => rfl
  | broken => rfl
  | notRun => rfl
  | started =>
    show noting _ (noting [.launched d.titleId true] _) = _
    rfl

/-! ## The launches that are made -/

/-- The dependencies from the `i`th on whose launch is tried, in their order: those without a
process, as far as the loop comes. -/
def tried (isN3ds : Bool) (numKips : ℕ) (calls : UInt64 → Calls) :
    ℕ → ℕ → ProcessList → List Dependency → List UInt64
  | 0, _, _, _ => []
  | fuel + 1, i, l, deps =>
    match deps[i]? with
    | none => []
    | some d =>
      if d.proc.isSome then tried isN3ds numKips calls fuel (i + 1) l deps
      else d.titleId ::
        match outcome numKips (calls d.titleId) d.titleId with
        | .unregistered | .unloaded => tried isN3ds numKips calls fuel (i + 1) l deps
        | .started =>
          match adopted isN3ds (calls d.titleId).exheader l deps i d with
          | some (l, deps) => tried isN3ds numKips calls fuel (i + 1) l deps
          | none => []
        | _ => []

theorem loadDependencies_skip (hget : deps[i]? = some d) (hproc : d.proc.isSome = true) :
    loadDependencies isN3ds numKips calls (fuel + 1) i deps res s =
      loadDependencies isN3ds numKips calls fuel (i + 1) deps res s := by
  rw [loadDependencies, hget]
  exact congrFun (if_pos hproc) s

theorem loadDependencies_end (hget : deps[i]? = none) :
    loadDependencies isN3ds numKips calls (fuel + 1) i deps res s = (some res, s, []) := by
  rw [loadDependencies, hget]
  rfl

variable {l : ProcessList}

theorem tried_skip (hget : deps[i]? = some d) (hproc : d.proc.isSome = true) :
    tried isN3ds numKips calls (fuel + 1) i l deps =
      tried isN3ds numKips calls fuel (i + 1) l deps := by
  rw [tried, hget]
  exact if_pos hproc

theorem tried_launch (hget : deps[i]? = some d) (hproc : d.proc = none) :
    tried isN3ds numKips calls (fuel + 1) i l deps = d.titleId ::
      match outcome numKips (calls d.titleId) d.titleId with
      | .unregistered | .unloaded => tried isN3ds numKips calls fuel (i + 1) l deps
      | .started =>
        match adopted isN3ds (calls d.titleId).exheader l deps i d with
        | some (l, deps) => tried isN3ds numKips calls fuel (i + 1) l deps
        | none => []
      | _ => [] := by
  rw [tried, hget]
  dsimp only
  rw [hproc]
  rfl

theorem tried_end (hget : deps[i]? = none) :
    tried isN3ds numKips calls (fuel + 1) i l deps = [] := by
  rw [tried, hget]

theorem loadDependencies_started (hget : deps[i]? = some d) (hproc : d.proc = none)
    (hstarted : outcome numKips (calls d.titleId) d.titleId = .started) {deps' : List Dependency}
    (hadopt : adopted isN3ds (calls d.titleId).exheader s.processList deps i d =
      some (l, deps')) :
    loadDependencies isN3ds numKips calls (fuel + 1) i deps res s =
      noting [.lock, .unlock, .lock, .unlock, .launched d.titleId true, .lock, .unlock]
        (loadDependencies isN3ds numKips calls fuel (i + 1) deps' true
          { s with processList := l }) := by
  rw [loadDependencies_launch hget hproc, hstarted]
  dsimp only
  rw [run_bind, adopt_of_some hadopt]
  rfl

theorem loadDependencies_stuck (hget : deps[i]? = some d) (hproc : d.proc = none)
    (hstarted : outcome numKips (calls d.titleId) d.titleId = .started)
    (hadopt : adopted isN3ds (calls d.titleId).exheader s.processList deps i d = none) :
    (loadDependencies isN3ds numKips calls (fuel + 1) i deps res s).1 = none ∧
      .panic ∈ (loadDependencies isN3ds numKips calls (fuel + 1) i deps res s).2.2 := by
  obtain ⟨hnone, hpanic⟩ := adopt_of_none hadopt
  rw [loadDependencies_launch hget hproc, hstarted]
  dsimp only
  rw [run_bind]
  rcases hrun : adopt isN3ds (calls d.titleId).exheader deps i d s.processList.nextPid
    (s.enter (calls d.titleId).exheader) with ⟨_ | a, t, noted⟩
  · rw [hrun] at hpanic
    exact ⟨rfl, List.mem_append_right _ hpanic⟩
  · rw [hrun] at hnone
    exact absurd hnone (Option.some_ne_none a)

/-! ## The whole load -/

/-- The process of a title that lists dependencies is marked. -/
def markLoaded (pid : ℕ) (deps : List Dependency) (l : ProcessList) : ProcessList :=
  if deps.length ≠ 0 then l.update pid fun p => { p with dependenciesLoaded := true } else l

/-- The dependencies of a title as they are listed before the first of them is launched, with the
list of processes. -/
def listed (isN3ds : Bool) (c : Calls) (l : ProcessList) :
    Option (ProcessList × List Dependency) :=
  (listMergeUniqueDependencies isN3ds (l.new c.exheader) [] c.exheader).map fun (l', deps) =>
    (markLoaded l.nextPid deps l', deps)

theorem loadWithDependencies_failed (hload : loadOutcome c titleId flags ≠ .loaded) :
    loadWithDependencies isN3ds numKips calls c titleId flags s =
      loadWithoutDependencies c titleId flags s := by
  unfold loadWithDependencies
  rw [run_bind, loadWithoutDependencies_eq]
  cases hload' : loadOutcome c titleId flags with
  | noProcess => rfl
  | panics => rfl
  | broken => rfl
  | loaded => exact absurd hload' hload

theorem loadWithDependencies_loaded (hload : loadOutcome c titleId flags = .loaded) :
    loadWithDependencies isN3ds numKips calls c titleId flags s =
      noting [.lock, .unlock] ((mergeDependencies isN3ds [] c.exheader >>= fun deps => do
        if deps.length ≠ 0 then
          modifyList fun l => l.update s.processList.nextPid fun p =>
            { p with dependenciesLoaded := true }
        if flags.fakeDependencyLoading then return (some s.processList.nextPid, true)
        let res ← loadDependencies isN3ds numKips calls maxDependencies 0 deps true
        return (some s.processList.nextPid, res)) (s.enter c.exheader)) := by
  unfold loadWithDependencies
  rw [run_bind, loadWithoutDependencies_eq, hload]
  rfl

theorem loadWithDependencies_listed (hload : loadOutcome c titleId flags = .loaded)
    (hlisted : listed isN3ds c s.processList = some (l, deps)) :
    loadWithDependencies isN3ds numKips calls c titleId flags s =
      noting [.lock, .unlock, .lock, .unlock]
        ((if flags.fakeDependencyLoading then return (some s.processList.nextPid, true)
          else do
            let res ← loadDependencies isN3ds numKips calls maxDependencies 0 deps true
            return (some s.processList.nextPid, res) : PmM _) { s with processList := l }) := by
  obtain ⟨⟨l', deps'⟩, hmerge, hmark⟩ := Option.map_eq_some_iff.mp hlisted
  obtain ⟨rfl, rfl⟩ := Prod.mk.inj hmark
  rw [loadWithDependencies_loaded hload, run_bind, mergeDependencies_eq]
  dsimp only [Manager.enter]
  rw [hmerge]
  dsimp only [markLoaded]
  by_cases hdeps : deps'.length ≠ 0
  · rw [if_pos hdeps, if_pos hdeps]
    rfl
  · rw [if_neg hdeps, if_neg hdeps]
    rfl

theorem loadWithDependencies_unlisted (hload : loadOutcome c titleId flags = .loaded)
    (hlisted : listed isN3ds c s.processList = none) :
    (loadWithDependencies isN3ds numKips calls c titleId flags s).1 = none ∧
      .panic ∈ (loadWithDependencies isN3ds numKips calls c titleId flags s).2.2 := by
  rw [loadWithDependencies_loaded hload, run_bind, mergeDependencies_eq]
  dsimp only [Manager.enter]
  rw [Option.map_eq_none_iff.mp hlisted]
  exact ⟨rfl, by simp [noting]⟩

/-- The titles whose launch is tried for the dependencies of a title whose process is loaded. -/
def triedFor (isN3ds : Bool) (numKips : ℕ) (calls : UInt64 → Calls) (c : Calls)
    (flags : LaunchFlags) (l : ProcessList) : List UInt64 :=
  match listed isN3ds c l with
  | some (l, deps) =>
    if flags.fakeDependencyLoading then []
    else tried isN3ds numKips calls maxDependencies 0 l deps
  | none => []

/-! ## Runs of the loop -/

/-- A run of the loop by the launches that it tries: what it starts from, what it ends with and what
it does, one case for each outcome. -/
inductive LoopRun (isN3ds : Bool) (numKips : ℕ) (calls : UInt64 → Calls) :
    Manager → List UInt64 → Bool → Option Bool × Manager × List Event → Prop where
  | ended (s : Manager) (res : Bool) :
    LoopRun isN3ds numKips calls s [] res (some res, s, [])
  | panics {s : Manager} {ts : List UInt64} {res : Bool}
      {r : Option Bool × Manager × List Event} (hnone : r.1 = none) (hpanic : .panic ∈ r.2.2) :
    LoopRun isN3ds numKips calls s ts res r
  | prevented {s : Manager} {t : UInt64} {res : Bool}
      (ho : outcome numKips (calls t) t = .prevented) :
    LoopRun isN3ds numKips calls s [t] res (none, s, [.launched t false, .nullDereference])
  | unregistered {s : Manager} {t : UInt64} {ts : List UInt64} {res : Bool}
      {r : Option Bool × Manager × List Event}
      (ho : outcome numKips (calls t) t = .unregistered)
      (hrest : LoopRun isN3ds numKips calls s ts false r) :
    LoopRun isN3ds numKips calls s (t :: ts) res (noting [.launched t false] r)
  | unloaded {s : Manager} {t : UInt64} {ts : List UInt64} {res : Bool}
      {r : Option Bool × Manager × List Event}
      (ho : outcome numKips (calls t) t = .unloaded)
      (hrest : LoopRun isN3ds numKips calls s ts false r) :
    LoopRun isN3ds numKips calls s (t :: ts) res (noting [.unlock, .launched t false] r)
  | broken {s : Manager} {t : UInt64} {res : Bool}
      (ho : outcome numKips (calls t) t = .broken) :
    LoopRun isN3ds numKips calls s [t] res (some false, s.enter (calls t).exheader,
      [.lock, .unlock, .unlock, .launched t false])
  | notRun {s : Manager} {t : UInt64} {res : Bool}
      (ho : outcome numKips (calls t) t = .notRun) :
    LoopRun isN3ds numKips calls s [t] res (some false, s.enter (calls t).exheader,
      [.lock, .unlock, .lock, .unlock, .launched t false])
  | started {s : Manager} {t : UInt64} {ts : List UInt64} {res : Bool}
      {r : Option Bool × Manager × List Event} {deps deps' : List Dependency} {i : ℕ}
      {d : Dependency} {l : ProcessList}
      (ho : outcome numKips (calls t) t = .started)
      (hadopt : adopted isN3ds (calls t).exheader s.processList deps i d = some (l, deps'))
      (hrest : LoopRun isN3ds numKips calls { s with processList := l } ts true r) :
    LoopRun isN3ds numKips calls s (t :: ts) res
      (noting [.lock, .unlock, .lock, .unlock, .launched t true, .lock, .unlock] r)

theorem loopRun (isN3ds : Bool) (numKips : ℕ) (calls : UInt64 → Calls) (fuel i : ℕ)
    (deps : List Dependency) (res : Bool) (s : Manager) :
    LoopRun isN3ds numKips calls s (tried isN3ds numKips calls fuel i s.processList deps) res
      (loadDependencies isN3ds numKips calls fuel i deps res s) := by
  induction fuel generalizing i deps res s with
  | zero => exact .ended s res
  | succ fuel ih =>
  cases hget : deps[i]? with
  | none =>
    rw [loadDependencies_end hget, tried_end hget]
    exact .ended s res
  | some d =>
  cases hproc : d.proc with
  | some pid =>
    have hsome : d.proc.isSome = true := by rw [hproc]; rfl
    rw [loadDependencies_skip hget hsome, tried_skip hget hsome]
    exact ih ..
  | none =>
    rw [tried_launch hget hproc]
    cases ho : outcome numKips (calls d.titleId) d.titleId with
    | prevented =>
      rw [loadDependencies_launch hget hproc, ho]
      exact .prevented ho
    | unregistered =>
      rw [loadDependencies_launch hget hproc, ho]
      exact .unregistered ho (ih ..)
    | unloaded =>
      rw [loadDependencies_launch hget hproc, ho]
      exact .unloaded ho (ih ..)
    | panics =>
      rw [loadDependencies_launch hget hproc, ho]
      exact .panics rfl (List.mem_cons_of_mem _ (List.mem_singleton_self _))
    | broken =>
      rw [loadDependencies_launch hget hproc, ho]
      exact .broken ho
    | notRun =>
      rw [loadDependencies_launch hget hproc, ho]
      exact .notRun ho
    | started =>
      cases hadopt : adopted isN3ds (calls d.titleId).exheader s.processList deps i d with
      | none =>
        obtain ⟨hnone, hpanic⟩ := loadDependencies_stuck hget hproc ho hadopt
        exact .panics hnone hpanic
      | some next =>
        rw [loadDependencies_started hget hproc ho hadopt]
        exact .started ho hadopt (ih ..)

/-! ## The dependencies of a title whose process is loaded -/

theorem loadWithDependencies_fake (numKips : ℕ) (calls : UInt64 → Calls)
    (hload : loadOutcome c titleId flags = .loaded)
    (hlisted : listed isN3ds c s.processList = some (l, deps))
    (hfake : flags.fakeDependencyLoading = true) :
    triedFor isN3ds numKips calls c flags s.processList = [] ∧
    loadWithDependencies isN3ds numKips calls c titleId flags s =
      (some (some s.processList.nextPid, true), { s with processList := l },
        [.lock, .unlock, .lock, .unlock]) := by
  constructor
  · unfold triedFor
    rw [hlisted]
    exact if_pos hfake
  · rw [loadWithDependencies_listed hload hlisted, hfake]
    rfl

theorem loadWithDependencies_loop (hload : loadOutcome c titleId flags = .loaded)
    (hlisted : listed isN3ds c s.processList = some (l, deps))
    (hfake : flags.fakeDependencyLoading = false) :
    ∃ r, LoopRun isN3ds numKips calls { s with processList := l }
        (triedFor isN3ds numKips calls c flags s.processList) true r ∧
      loadWithDependencies isN3ds numKips calls c titleId flags s =
        (r.1.map fun res => (some s.processList.nextPid, res), r.2.1,
          [.lock, .unlock, .lock, .unlock] ++ r.2.2) := by
  have htried : triedFor isN3ds numKips calls c flags s.processList =
      tried isN3ds numKips calls maxDependencies 0 l deps := by
    unfold triedFor
    rw [hlisted]
    exact if_neg (by rw [hfake]; exact Bool.false_ne_true)
  rw [htried, loadWithDependencies_listed hload hlisted, hfake]
  refine ⟨_, loopRun .., ?_⟩
  show noting _ ((loadDependencies _ _ _ _ _ _ _ >>= fun res => pure (_, res) : PmM _) _) = _
  unfold noting
  rw [run_bind_pure]

/-! ## The launches without their calls -/

/-- What becomes of a launch as far as the references are concerned. -/
def program (numKips : ℕ) (calls : UInt64 → Calls) (t : UInt64) : Program :=
  match outcome numKips (calls t) t with
  | .prevented => .prevented
  | .unregistered | .unloaded | .panics => .missing
  | .broken | .notRun => .broken (calls t).exheader
  | .started => .started (calls t).exheader

end Presence3DS.Pm.LaunchCalls
