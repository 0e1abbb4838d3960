import Presence3DS.Discord.RpcThread
import Presence3DS.Lib.Runs

/-! At most one thread of Discord RPC: what the state that `DiscordRPC_Start` tests has to say of
the threads and the other callers. -/

namespace Presence3DS.Discord
open Runs

/-- The thread has set the state to stopped, but has not returned yet. -/
def Pc.announced : Pc → Bool
  | .safeSocExit announced | .leaving announced => announced
  | _ => false

/-- The caller has passed the test of the state, and has not changed the state yet. -/
def CallerPc.checked : CallerPc → Bool
  | .startClearStop | .startClearStopping | .startClearEvent | .startAnnounce => true
  | _ => false

/-- The caller has announced the start, and has neither created the thread nor given up. -/
def CallerPc.creating : CallerPc → Bool
  | .startEvent | .startThread | .startFailed => true
  | _ => false

def Lifecycle.Running (s : Lifecycle) (i : ThreadId) : Prop := (s.thread i).pc ≠ .returned

/-- At most one thread runs, and one is created when the others have returned. -/
structure OneThread (s t : Lifecycle) : Prop where
  one : ∀ i j, t.Running i → t.Running j → i = j
  created : t.created ≠ s.created → ∀ i, ¬s.Running i

/-- A start passes its test after the threads before it have returned and no other start has
passed, and a stop sets the state when no thread works and no start is under way. -/
def WellTimed (s : Lifecycle) : LifecycleAction → Prop
  | .caller c answer =>
    match s.caller c with
    | .startCheck => s.globals.state = .stopped ∧ answer = true →
      (∀ i, (s.thread i).pc.announced = false) ∧ ∀ d, (s.caller d).checked = false
    | .stopAnnounce => (∀ i, s.Running i → (s.thread i).pc.announced = true) ∧
      ∀ d, (s.caller d).creating = false
    | _ => True
  | _ => True

/-- Who has a claim to be the running thread. -/
inductive Holder where
  | thread (i : ThreadId)
  | caller (c : Caller)

def Lifecycle.Holds (s : Lifecycle) : Holder → Prop
  | .thread i => s.Running i
  | .caller c => (s.caller c).checked = true ∨ (s.caller c).creating = true

/-- The holders that the state other than stopped stands for. -/
def Lifecycle.Shown (s : Lifecycle) : Holder → Prop
  | .thread i => s.Running i ∧ (s.thread i).pc.announced = false
  | .caller c => (s.caller c).creating = true

structure SingleInv (s : Lifecycle) : Prop where
  fresh : ∀ i, s.created ≤ i → ¬s.Running i
  exclusive : ∀ x y, s.Holds x → s.Holds y → x = y
  shown : ∀ x, s.Shown x → s.globals.state ≠ .stopped

/-! ## Steps of a thread -/

/-- What a step of a thread does to the state. -/
structure StateStep (g : Globals) (l : Local) (g' : Globals) (l' : Local) : Prop where
  running : l.pc ≠ .returned
  state : l'.pc ≠ .returned → l'.pc.announced = false →
    l.pc.announced = false ∧ (g'.state = g.state ∨ g'.state ≠ .stopped)

section Thread
variable {crypto : Crypto} {w : Answers} {reply : Option CString.Bytes} {g g' : Globals}
  {l l' : Local}

theorem waitReturns_state {pc : Pc} {entry ready : Bool} (hpc : l.pc = pc)
    (hrunning : pc ≠ .returned) (hannounced : pc.announced = false)
    (h : some (waitReturns g l entry ready) = some (g', l')) : StateStep g l g' l' := by
  subst hpc
  have hstate : (waitReturns g l entry ready).1.state = g.state := by
    cases entry <;> cases ready <;> rfl
  rw [Option.some.inj h] at hstate
  exact ⟨hrunning, fun _ _ => ⟨hannounced, .inl hstate⟩⟩

theorem threadStep_state (h : threadStep crypto w reply g l = some (g', l')) :
    StateStep g l g' l' := by
  unfold threadStep at h
  cases hpc : l.pc <;> simp only [hpc] at h
  case waitCheck | waitRecheck =>
    split_ifs at h
    · exact waitReturns_state hpc nofun rfl h
    · exact waitReturns_state hpc nofun rfl h
    · cases h
      exact ⟨hpc ▸ nofun, fun _ _ => ⟨hpc ▸ rfl, .inl rfl⟩⟩
  case waitEvents =>
    split_ifs at h
    · exact waitReturns_state hpc nofun rfl h
    · cases h
      exact ⟨hpc ▸ nofun, fun _ _ => ⟨hpc ▸ rfl, .inl rfl⟩⟩
  case returned => cases h
  case waitAborted | setStopped =>
    cases h
    exact ⟨hpc ▸ nofun, nofun⟩
  case leaving =>
    cases h
    exact ⟨hpc ▸ nofun, fun hreturned => absurd rfl hreturned⟩
  case safeSocExit =>
    cases h
    exact ⟨hpc ▸ nofun, fun _ hannounced => ⟨hpc ▸ hannounced, .inl rfl⟩⟩
  case waitAnnounce | networkFailed | loginBegin | loginRefused | verifyBegin | activityBegin =>
    cases h
    exact ⟨hpc ▸ nofun, fun _ _ => ⟨hpc ▸ rfl, .inr nofun⟩⟩
  case attemptFailed | activityFailed =>
    split_ifs at h <;> cases h
    all_goals exact ⟨hpc ▸ nofun, fun _ _ => ⟨hpc ▸ rfl, .inr nofun⟩⟩
  -- The other steps, those that send a request among them, do not set the state.
  case begin | loginCheck | loginPost | activityCheck | cleanup | logoutPost =>
    (try split_ifs at h) <;> cases h
    all_goals exact ⟨hpc ▸ nofun, fun _ _ => ⟨hpc ▸ rfl, .inl rfl⟩⟩
  all_goals
    split_ifs at h <;> cases h
    all_goals exact ⟨hpc ▸ nofun, fun _ _ => ⟨hpc ▸ rfl, .inl rfl⟩⟩

end Thread

/-! ## The invariant -/

section Invariant
variable {crypto : Crypto} {s t : Lifecycle} {c : Caller} {pc : CallerPc}

theorem SingleInv.of_fewer (hs : SingleInv s) (hfresh : ∀ i, t.created ≤ i → ¬t.Running i)
    (hfewer : ∀ x, t.Holds x → s.Holds x) (hshown : ∀ x, t.Shown x → t.globals.state ≠ .stopped) :
    SingleInv t where
  fresh := hfresh
  exclusive x y hx hy := hs.exclusive x y (hfewer x hx) (hfewer y hy)
  shown := hshown

theorem Shown.holds {x : Holder} (h : s.Shown x) : s.Holds x := by
  cases x with
  | thread i => exact h.1
  | caller c => exact .inr h

/-- What the steps of a caller leave alone but for the caller itself. -/
structure CallerStep (s t : Lifecycle) (c : Caller) (pc : CallerPc) : Prop where
  created : t.created = s.created
  thread : t.thread = s.thread
  caller : t.caller = Function.update s.caller c pc

theorem CallerStep.holds (h : CallerStep s t c pc) {x : Holder} (hx : t.Holds x) :
    s.Holds x ∨ x = .caller c ∧ (pc.checked = true ∨ pc.creating = true) := by
  cases x with
  | thread i =>
    have hrunning : t.Running i := hx
    rw [Lifecycle.Running, h.thread] at hrunning
    exact .inl hrunning
  | caller d =>
    have hcaller : (t.caller d).checked = true ∨ (t.caller d).creating = true := hx
    rw [h.caller] at hcaller
    by_cases hd : d = c
    · subst hd
      rw [Function.update_self] at hcaller
      exact .inr ⟨rfl, hcaller⟩
    · rw [Function.update_of_ne hd] at hcaller
      exact .inl hcaller

theorem CallerStep.shown (h : CallerStep s t c pc) {x : Holder} (hx : t.Shown x) :
    s.Shown x ∨ x = .caller c ∧ pc.creating = true := by
  cases x with
  | thread i =>
    have hrunning : t.Running i ∧ (t.thread i).pc.announced = false := hx
    rw [Lifecycle.Running, h.thread] at hrunning
    exact .inl hrunning
  | caller d =>
    have hcaller : (t.caller d).creating = true := hx
    rw [h.caller] at hcaller
    by_cases hd : d = c
    · subst hd
      rw [Function.update_self] at hcaller
      exact .inr ⟨rfl, hcaller⟩
    · rw [Function.update_of_ne hd] at hcaller
      exact .inl hcaller

theorem CallerStep.fresh (h : CallerStep s t c pc) (hs : SingleInv s) (i : ThreadId)
    (hi : t.created ≤ i) : ¬t.Running i := by
  rw [h.created] at hi
  rw [Lifecycle.Running, h.thread]
  exact hs.fresh i hi

theorem CallerStep.inv (h : CallerStep s t c pc) (hs : SingleInv s)
    (hstate : t.globals.state = s.globals.state)
    (hchecked : pc.checked = true → (s.caller c).checked = true)
    (hcreating : pc.creating = true → (s.caller c).creating = true) : SingleInv t := by
  refine hs.of_fewer (h.fresh hs) ?_ ?_
  · intro x hx
    rcases h.holds hx with hx | ⟨rfl, hpc | hpc⟩
    · exact hx
    · exact .inl (hchecked hpc)
    · exact .inr (hcreating hpc)
  · intro x hx
    rw [hstate]
    rcases h.shown hx with hx | ⟨rfl, hpc⟩
    · exact hs.shown x hx
    · exact hs.shown (.caller c) (hcreating hpc)

theorem CallerStep.idle (h : CallerStep s t c pc) (hs : SingleInv s)
    (hstate : t.globals.state = s.globals.state) (hchecked : pc.checked = false)
    (hcreating : pc.creating = false) : SingleInv t := by
  refine h.inv hs hstate ?_ ?_
  · intro hpc
    cases hchecked.symm.trans hpc
  · intro hpc
    cases hcreating.symm.trans hpc

theorem CallerStep.passes (h : CallerStep s t c pc) (hs : SingleInv s)
    (hstopped : s.globals.state = .stopped)
    (hthreads : ∀ i, (s.thread i).pc.announced = false)
    (hcallers : ∀ d, (s.caller d).checked = false) (hcreating : pc.creating = false) :
    SingleInv t := by
  have hnone : ∀ x, ¬s.Holds x := by
    intro x hx
    cases x with
    | thread i => exact hs.shown (.thread i) ⟨hx, hthreads i⟩ hstopped
    | caller d =>
      rcases hx with hx | hx
      · cases (hcallers d).symm.trans hx
      · exact hs.shown (.caller d) hx hstopped
  have honly : ∀ x, t.Holds x → x = .caller c := by
    intro x hx
    rcases h.holds hx with hx | ⟨rfl, -⟩
    · exact absurd hx (hnone x)
    · rfl
  refine ⟨h.fresh hs, ?_, ?_⟩
  · intro x y hx hy
    rw [honly x hx, honly y hy]
  · intro x hx
    rcases h.shown hx with hx | ⟨-, hpc⟩
    · exact absurd (Shown.holds hx) (hnone x)
    · cases hcreating.symm.trans hpc

theorem CallerStep.announces (h : CallerStep s t c pc) (hs : SingleInv s)
    (hclaim : (s.caller c).checked = true) (hstate : t.globals.state ≠ .stopped) :
    SingleInv t := by
  refine hs.of_fewer (h.fresh hs) ?_ fun _ _ => hstate
  intro x hx
  rcases h.holds hx with hx | ⟨rfl, -⟩
  · exact hx
  · exact .inl hclaim

theorem CallerStep.fails (h : CallerStep s t c pc) (hs : SingleInv s)
    (hclaim : (s.caller c).creating = true) (hchecked : pc.checked = false)
    (hcreating : pc.creating = false) : SingleInv t := by
  have hnone : ∀ x, ¬t.Holds x := by
    intro x hx
    rcases h.holds hx with hxs | ⟨-, hpc | hpc⟩
    · have hsame := hs.exclusive x (.caller c) hxs (.inr hclaim)
      subst hsame
      have hcaller : (t.caller c).checked = true ∨ (t.caller c).creating = true := hx
      rw [h.caller, Function.update_self, hchecked, hcreating] at hcaller
      rcases hcaller with h | h <;> cases h
    · cases hchecked.symm.trans hpc
    · cases hcreating.symm.trans hpc
  exact ⟨h.fresh hs, fun x _ hx => absurd hx (hnone x),
    fun x hx => absurd (Shown.holds hx) (hnone x)⟩

theorem CallerStep.stops (h : CallerStep s t c pc) (hs : SingleInv s)
    (hthreads : ∀ i, s.Running i → (s.thread i).pc.announced = true)
    (hcallers : ∀ d, (s.caller d).creating = false) (hchecked : pc.checked = false)
    (hcreating : pc.creating = false) : SingleInv t := by
  refine hs.of_fewer (h.fresh hs) ?_ ?_
  · intro x hx
    rcases h.holds hx with hx | ⟨-, hpc | hpc⟩
    · exact hx
    · cases hchecked.symm.trans hpc
    · cases hcreating.symm.trans hpc
  · intro x hx
    rcases h.shown hx with hx | ⟨-, hpc⟩
    · cases x with
      | thread i => cases (hthreads i hx.1).symm.trans hx.2
      | caller d => cases (hcallers d).symm.trans hx
    · cases hcreating.symm.trans hpc

theorem createThread_inv (hs : SingleInv s) (hclaim : (s.caller c).creating = true) :
    SingleInv (s.createThread.goto c .startWait) ∧ ∀ i, ¬s.Running i := by
  have hnone : ∀ i, ¬s.Running i := by
    intro i hi
    cases hs.exclusive (.thread i) (.caller c) hi (.inr hclaim)
  have honly : ∀ x, (s.createThread.goto c .startWait).Holds x → x = .thread s.created := by
    intro x hx
    cases x with
    | thread i =>
      by_cases hi : i = s.created
      · rw [hi]
      · have hrunning : (Function.update s.thread s.created ⟨.begin, false, []⟩ i).pc ≠
            .returned := hx
        rw [Function.update_of_ne hi] at hrunning
        exact absurd hrunning (hnone i)
    | caller d =>
      have hcaller : (Function.update s.caller c .startWait d).checked = true ∨
        (Function.update s.caller c .startWait d).creating = true := hx
      by_cases hd : d = c
      · subst hd
        rw [Function.update_self] at hcaller
        rcases hcaller with h | h <;> cases h
      · rw [Function.update_of_ne hd] at hcaller
        have hsame := hs.exclusive (.caller d) (.caller c) hcaller (.inr hclaim)
        exact absurd (Holder.caller.inj hsame) hd
  refine ⟨⟨?_, ?_, ?_⟩, hnone⟩
  · intro i hi
    have hgt : s.created + 1 ≤ i := hi
    have hne : i ≠ s.created := by omega
    change (Function.update s.thread s.created ⟨.begin, false, []⟩ i).pc ≠ .returned → False
    rw [Function.update_of_ne hne]
    exact hnone i
  · intro x y hx hy
    rw [honly x hx, honly y hy]
  · intro _ _
    exact hs.shown (.caller c) hclaim

/-! ## Steps and runs -/

theorem goto_step (s u : Lifecycle) (c : Caller) (pc : CallerPc) (hcreated : u.created = s.created)
    (hthread : u.thread = s.thread) (hcaller : u.caller = s.caller) :
    CallerStep s (u.goto c pc) c pc :=
  ⟨hcreated, hthread, by rw [← hcaller]; rfl⟩

theorem callerStep_inv {answer : Bool} (hs : SingleInv s) (htimed : WellTimed s (.caller c answer))
    (h : callerStep s c answer = some t) :
    SingleInv t ∧ (t.created ≠ s.created → ∀ i, ¬s.Running i) := by
  have hsame : s.created ≠ s.created → ∀ i, ¬s.Running i := fun hne => absurd rfl hne
  have hgoto : ∀ pc, CallerStep s (s.goto c pc) c pc := fun pc => goto_step s s c pc rfl rfl rfl
  unfold callerStep at h
  simp only [WellTimed] at htimed
  cases hpc : s.caller c <;> simp only [hpc] at h htimed
  case idle => cases h
  case startCheck =>
    split_ifs at h with hcheck
    · cases h
      exact ⟨(hgoto _).idle hs rfl rfl rfl, hsame⟩
    · obtain ⟨hstopped, hanswer⟩ := not_or.mp hcheck
      obtain ⟨hthreads, hcallers⟩ :=
        htimed ⟨not_not.mp hstopped, Bool.eq_true_of_not_eq_false hanswer⟩
      cases h
      exact ⟨(hgoto _).passes hs (not_not.mp hstopped) hthreads hcallers rfl, hsame⟩
  case startClearStop =>
    cases h
    have hstep := goto_step s (s.setShouldStop false) c .startClearStopping rfl rfl rfl
    exact ⟨hstep.inv hs rfl (fun _ => hpc ▸ rfl) nofun, hsame⟩
  case startClearStopping =>
    cases h
    have hstep := goto_step s (s.setRpcStopping false) c .startClearEvent rfl rfl rfl
    exact ⟨hstep.inv hs rfl (fun _ => hpc ▸ rfl) nofun, hsame⟩
  case startClearEvent =>
    cases h
    have hstep := goto_step s (s.setStopEvent false) c .startAnnounce rfl rfl rfl
    exact ⟨hstep.inv hs rfl (fun _ => hpc ▸ rfl) nofun, hsame⟩
  case startAnnounce =>
    cases h
    have hstep := goto_step s (s.setState .login) c .startEvent rfl rfl rfl
    exact ⟨hstep.announces hs (hpc ▸ rfl) nofun, hsame⟩
  case startEvent =>
    cases h
    refine ⟨(hgoto _).inv hs rfl ?_ fun _ => hpc ▸ rfl, hsame⟩
    cases answer <;> exact nofun
  case startThread =>
    cases answer with
    | true =>
      cases h
      obtain ⟨hinv, hnone⟩ := createThread_inv hs (c := c) (hpc ▸ rfl)
      exact ⟨hinv, fun _ => hnone⟩
    | false =>
      cases h
      exact ⟨(hgoto _).inv hs rfl nofun fun _ => hpc ▸ rfl, hsame⟩
  case startFailed =>
    cases h
    have hstep := goto_step s (s.setState .stopped) c .idle rfl rfl rfl
    exact ⟨hstep.fails hs (hpc ▸ rfl) rfl rfl, hsame⟩
  -- The other steps have no claim before or after.
  case startWait | stopJoin =>
    cases h
    exact ⟨(hgoto _).idle hs rfl rfl rfl, hsame⟩
  case stopCheck =>
    cases h
    refine ⟨(hgoto _).idle hs rfl ?_ ?_, hsame⟩
    all_goals cases s.rpcStopping <;> rfl
  case stopMark sleep =>
    cases h
    have hstep := goto_step s (s.setRpcStopping true) c (.stopRequest sleep) rfl rfl rfl
    exact ⟨hstep.idle hs rfl rfl rfl, hsame⟩
  case stopRequest sleep =>
    cases h
    have hstep := goto_step s (s.setShouldStop true) c (.stopSleep sleep) rfl rfl rfl
    exact ⟨hstep.idle hs rfl rfl rfl, hsame⟩
  case stopSleep sleep =>
    cases h
    have hstep := goto_step s (s.setStopSleep sleep) c .stopSignal rfl rfl rfl
    exact ⟨hstep.idle hs rfl rfl rfl, hsame⟩
  case stopSignal =>
    cases h
    have hstep := goto_step s (s.setStopEvent true) c .stopJoin rfl rfl rfl
    exact ⟨hstep.idle hs rfl rfl rfl, hsame⟩
  case stopWait handle =>
    cases h
    refine ⟨(hgoto _).idle hs rfl ?_ ?_, hsame⟩
    all_goals cases answer && s.hasReturned handle <;> rfl
  case stopClose =>
    cases h
    have hstep := goto_step s { s with handle := none } c .stopAnnounce rfl rfl rfl
    exact ⟨hstep.idle hs rfl rfl rfl, hsame⟩
  case stopAnnounce =>
    cases h
    have hstep := goto_step s (s.setState .stopped) c .idle rfl rfl rfl
    exact ⟨hstep.stops hs htimed.1 htimed.2 rfl rfl, hsame⟩

theorem threadTurn_inv {i : ThreadId} {w : Answers} {reply : Option CString.Bytes}
    (hs : SingleInv s) (h : lifecycleStep crypto s (.thread i w reply) = some t) :
    SingleInv t ∧ t.created = s.created := by
  obtain ⟨⟨g', l'⟩, hstep, heq⟩ := Option.map_eq_some_iff.mp h
  obtain ⟨hrunning, hstate⟩ := threadStep_state hstep
  subst heq
  have hfewer : ∀ x, ({ s with globals := g', thread := Function.update s.thread i l' } :
      Lifecycle).Holds x → s.Holds x := by
    intro x hx
    cases x with
    | thread j =>
      by_cases hj : j = i
      · rw [hj]
        exact hrunning
      · have hother : (Function.update s.thread i l' j).pc ≠ .returned := hx
        rw [Function.update_of_ne hj] at hother
        exact hother
    | caller d => exact hx
  refine ⟨hs.of_fewer ?_ hfewer ?_, rfl⟩
  · intro j hj
    have hne : j ≠ i := by
      rintro rfl
      exact hs.fresh j hj hrunning
    change (Function.update s.thread i l' j).pc ≠ .returned → False
    rw [Function.update_of_ne hne]
    exact hs.fresh j hj
  · intro x hx
    -- The thread has the only claim, so it is the one that is shown.
    have hself := hs.exclusive x (.thread i) (hfewer x (Shown.holds hx)) hrunning
    subst hself
    have hshown : (Function.update s.thread i l' i).pc ≠ .returned ∧
      (Function.update s.thread i l' i).pc.announced = false := hx
    rw [Function.update_self] at hshown
    obtain ⟨hworks, hkept | hset⟩ := hstate hshown.1 hshown.2
    · have hbefore := hs.shown (.thread i) ⟨hrunning, hworks⟩
      rw [← hkept] at hbefore
      exact hbefore
    · exact hset

theorem lifecycleStep_inv {action : LifecycleAction} (hs : SingleInv s)
    (htimed : WellTimed s action) (h : lifecycleStep crypto s action = some t) :
    SingleInv t ∧ OneThread s t := by
  have hone : ∀ {u : Lifecycle}, SingleInv u → ∀ i j, u.Running i → u.Running j → i = j := by
    intro u hu i j hi hj
    exact Holder.thread.inj (hu.exclusive (.thread i) (.thread j) hi hj)
  cases action with
  | call c start =>
    have hinv : ∀ pc : CallerPc, pc.checked = false → pc.creating = false →
        SingleInv (s.goto c pc) := fun pc => (goto_step s s c pc rfl rfl rfl).idle hs rfl
    simp only [lifecycleStep] at h
    split_ifs at h <;> cases h
    · exact ⟨hinv _ rfl rfl, hone (hinv _ rfl rfl), fun hne => absurd rfl hne⟩
    · exact ⟨hinv _ rfl rfl, hone (hinv _ rfl rfl), fun hne => absurd rfl hne⟩
  | caller c answer =>
    obtain ⟨hinv, hcreated⟩ := callerStep_inv hs htimed h
    exact ⟨hinv, hone hinv, hcreated⟩
  | thread i w reply =>
    obtain ⟨hinv, hsame⟩ := threadTurn_inv hs h
    exact ⟨hinv, hone hinv, fun hne => absurd hsame hne⟩

theorem boot_single (stopEvent : Option Bool) : SingleInv (Lifecycle.boot stopEvent) := by
  have hnone : ∀ x, ¬(Lifecycle.boot stopEvent).Holds x := by
    intro x hx
    cases x with
    | thread i => exact hx rfl
    | caller d => rcases hx with h | h <;> cases h
  exact ⟨fun i _ hi => hnone (.thread i) hi, fun x _ hx => absurd hx (hnone x),
    fun x hx => absurd (Shown.holds hx) (hnone x)⟩

end Invariant

/-- In a run whose starts and stops are well timed, at most one thread runs at any moment, and a
thread is created only when those before it have returned. -/
theorem well_timed_runs_have_one_thread (crypto : Crypto) (stopEvent : Option Bool)
    (actions : List LifecycleAction)
    (h : Guarded (lifecycleStep crypto) WellTimed (Lifecycle.boot stopEvent) actions) :
    AllSteps (lifecycleStep crypto) (fun s _ t => OneThread s t) (Lifecycle.boot stopEvent)
      actions := by
  have hstep : ∀ s action t, SingleInv s → WellTimed s action →
      lifecycleStep crypto s action = some t → SingleInv t ∧ OneThread s t :=
    fun _ _ _ hs htimed ht => lifecycleStep_inv hs htimed ht
  exact allSteps_of_guarded hstep (boot_single stopEvent) h

def silentCrypto : Crypto := ⟨fun _ => [1], fun _ _ => []⟩

/-- The network is up and no game asks for the radio. -/
def online : Answers :=
  ⟨false, false, false, true, false, false, true, 0, false, false, [], false⟩

/-- A game has asked for the radio. -/
def yielding : Answers := { online with yieldWantsExit := true, ndmYieldIsActive := true }

/-- A caller starts Discord RPC, and creates a thread. -/
def startRun (c : Caller) : List LifecycleAction :=
  .call c true :: List.replicate 7 (.caller c true)

/-- The thread notices a game once the network is up, and announces that it has stopped. -/
def yieldRun : List LifecycleAction :=
  List.replicate 3 (.thread 0 online none) ++ List.replicate 3 (.thread 0 yielding none)

/-- The thread leaves the network and returns. -/
def leaveRun : List LifecycleAction := List.replicate 2 (.thread 0 yielding none)

theorem restart_well_timed : Guarded (lifecycleStep silentCrypto) WellTimed
    (Lifecycle.boot (some false))
    (startRun .taskRunner ++ yieldRun ++ leaveRun ++ startRun .ndmYield) := by
  refine .cons rfl trivial (.cons rfl ?_ (.cons rfl trivial (.cons rfl trivial ?_)))
  · exact fun _ => ⟨fun _ => rfl, fun d => by cases d <;> rfl⟩
  refine .cons rfl trivial (.cons rfl trivial (.cons rfl trivial (.cons rfl trivial ?_)))
  refine .cons rfl trivial (.cons rfl trivial (.cons rfl trivial (.cons rfl trivial ?_)))
  refine .cons rfl trivial (.cons rfl trivial (.cons rfl trivial (.cons rfl trivial ?_)))
  refine .cons rfl trivial (.cons rfl ?_ (.cons rfl trivial (.cons rfl trivial ?_)))
  · refine fun _ => ⟨fun i => ?_, fun d => by cases d <;> rfl⟩
    cases i <;> rfl
  exact .cons rfl trivial (.cons rfl trivial (.cons rfl trivial (.cons rfl trivial trivial)))

theorem restart_has_one_thread :
    AllSteps (lifecycleStep silentCrypto) (fun s _ t => OneThread s t)
      (Lifecycle.boot (some false))
      (startRun .taskRunner ++ yieldRun ++ leaveRun ++ startRun .ndmYield) ∧
      (run (lifecycleStep silentCrypto) (Lifecycle.boot (some false))
        (startRun .taskRunner ++ yieldRun ++ leaveRun ++ startRun .ndmYield)).map
          (fun t => ((t.thread 0).pc, (t.thread 1).pc)) = some (.returned, .begin) :=
  ⟨well_timed_runs_have_one_thread silentCrypto (some false) _ restart_well_timed,
    by decide +kernel⟩

/-- The game is over before the thread has left the network, so a second one joins it. -/
theorem early_restart_runs_two : ¬∀ crypto stopEvent actions,
    AllSteps (lifecycleStep crypto) (fun s _ t => OneThread s t) (Lifecycle.boot stopEvent)
      actions := by
  intro h
  have hend : (run (lifecycleStep silentCrypto) (Lifecycle.boot (some false))
      (startRun .taskRunner ++ yieldRun ++ startRun .ndmYield)).map
        (fun t => ((t.thread 0).pc, (t.thread 1).pc)) =
      some (.safeSocExit true, .begin) := by decide +kernel
  obtain ⟨t, ht, hpcs⟩ := Option.map_eq_some_iff.mp hend
  obtain ⟨hpc0, hpc1⟩ := Prod.mk.inj hpcs
  have hone : AllSteps (lifecycleStep silentCrypto)
      (fun _ _ u => ∀ i j, u.Running i → u.Running j → i = j) (Lifecycle.boot (some false))
      (startRun .taskRunner ++ yieldRun ++ startRun .ndmYield) :=
    (h silentCrypto (some false) _).imp fun _ _ _ hstep => hstep.one
  have hboot : ∀ i j, (Lifecycle.boot (some false)).Running i →
      (Lifecycle.boot (some false)).Running j → i = j := fun i _ hi => absurd rfl hi
  have hlast := hone.run (Q := fun u => ∀ i j, u.Running i → u.Running j → i = j) hboot ht
  have h01 : (0 : ThreadId) = 1 := by
    apply hlast
    · rw [Lifecycle.Running, hpc0]
      exact nofun
    · rw [Lifecycle.Running, hpc1]
      exact nofun
  cases h01

/-! What the state says when a thread of Discord RPC returns. The thread of the yield waits until
it says stopped, and `DiscordRPC_Start` requires it. -/

open CString

/-- A step of the thread, or a write of another one to what they share. -/
inductive RpcEvent where
  | thread (w : Answers) (reply : Option Bytes)
  | others (state : DiscordState) (shouldStop stopSleep : Bool) (stopEvent : Option Bool)

def rpcStep (crypto : Crypto) (s : Globals × Local) : RpcEvent → Option (Globals × Local)
  | .thread w reply => threadStep crypto w reply s.1 s.2
  | .others state shouldStop stopSleep stopEvent =>
    some ({ s.1 with
      state := state
      shouldStop := shouldStop
      stopSleep := stopSleep
      stopEvent := stopEvent }, s.2)

/-- `DiscordRPC_ThreadMain` is entered, whatever is left of an earlier run. -/
def rpcBegin (globals : Globals) (prevHash : Bytes) : Globals × Local :=
  (globals, ⟨.begin, false, prevHash⟩)

/-- The step is not one that returns with another state than stopped. -/
def ReturnsStopped (s t : Globals × Local) : Prop :=
  s.2.pc ≠ .returned → t.2.pc = .returned → t.1.state = .stopped

/-- `network_init` succeeds, and nobody starts Discord RPC again between the announcement of the
thread that it has stopped and its return. -/
def StopsInOrder (s : Globals × Local) : RpcEvent → Prop
  | .thread w _ => s.2.pc = .networkInit → w.networkInit = true
  | .others state _ _ _ => s.2.pc.announced = true → state = .stopped

/-- The thread only leaves once the state says stopped. -/
structure Orderly (s : Globals × Local) : Prop where
  connected : s.2.pc ≠ .networkFailed
  exits : s.2.pc ≠ .safeSocExit false
  leaves : s.2.pc ≠ .leaving false
  stopped : s.2.pc.announced = true → s.1.state = .stopped

section Steps
variable {crypto : Crypto} {w : Answers} {reply : Option Bytes} {g g' : Globals} {l l' : Local}

/-- A place that is not on the way out. -/
def Pc.working (pc : Pc) : Prop :=
  pc ≠ .networkFailed ∧ (∀ b, pc ≠ .safeSocExit b) ∧ (∀ b, pc ≠ .leaving b) ∧ pc ≠ .returned

theorem Orderly.of_working {s : Globals × Local} (h : s.2.pc.working) : Orderly s := by
  obtain ⟨hfailed, hexit, hleaving, -⟩ := h
  refine ⟨hfailed, hexit false, hleaving false, fun hannounced => ?_⟩
  unfold Pc.announced at hannounced
  split at hannounced
  · exact absurd ‹_› (hexit _)
  · exact absurd ‹_› (hleaving _)
  · cases hannounced

theorem waitReturns_working (g : Globals) (l : Local) (entry ready : Bool) :
    (waitReturns g l entry ready).2.pc.working := by
  cases entry <;> cases ready <;> exact ⟨nofun, nofun, nofun, nofun⟩

theorem threadStep_orderly (hs : Orderly (g, l))
    (hinit : l.pc = .networkInit → w.networkInit = true)
    (h : threadStep crypto w reply g l = some (g', l')) :
    Orderly (g', l') ∧ ReturnsStopped (g, l) (g', l') := by
  -- A step to a place that is not on the way out does not return.
  have hworking (hto : l'.pc.working) : Orderly (g', l') ∧ ReturnsStopped (g, l) (g', l') :=
    ⟨.of_working hto, fun _ hreturned => absurd hreturned hto.2.2.2⟩
  unfold threadStep at h
  cases hpc : l.pc <;> simp only [hpc] at h
  case returned => cases h
  case networkFailed => exact absurd hpc hs.connected
  case waitAborted | setStopped =>
    cases h
    exact ⟨⟨nofun, nofun, nofun, fun _ => rfl⟩, nofun⟩
  case safeSocExit announced =>
    cases h
    cases announced
    · exact absurd hpc hs.exits
    · exact ⟨⟨nofun, nofun, nofun, fun _ => hs.stopped (congrArg Pc.announced hpc)⟩, nofun⟩
  case leaving announced =>
    cases h
    cases announced
    · exact absurd hpc hs.leaves
    · exact ⟨⟨nofun, nofun, nofun, nofun⟩,
        fun _ _ => hs.stopped (congrArg Pc.announced hpc)⟩
  case networkInit =>
    rw [if_pos (hinit hpc)] at h
    cases h
    exact hworking ⟨nofun, nofun, nofun, nofun⟩
  case waitCheck | waitEvents | waitRecheck =>
    split_ifs at h
    all_goals
      apply hworking
      rw [← congrArg (fun t => t.2.pc) (Option.some.inj h)]
      first
        | exact waitReturns_working ..
        | exact ⟨nofun, nofun, nofun, nofun⟩
  all_goals
    apply hworking
    (try split_ifs at h) <;> cases h <;> (try split_ifs) <;> exact ⟨nofun, nofun, nofun, nofun⟩

end Steps

/-- In a run whose network comes up, and which nobody overlaps, the state says stopped when
`DiscordRPC_ThreadMain` returns. -/
theorem returns_stopped (crypto : Crypto) (globals : Globals) (prevHash : Bytes)
    (events : List RpcEvent)
    (h : Guarded (rpcStep crypto) StopsInOrder (rpcBegin globals prevHash) events) :
    AllSteps (rpcStep crypto) (fun s _ t => ReturnsStopped s t) (rpcBegin globals prevHash)
      events := by
  have hstep : ∀ s event t, Orderly s → StopsInOrder s event → rpcStep crypto s event = some t →
      Orderly t ∧ ReturnsStopped s t := by
    intro s event t hs horder ht
    cases event with
    | thread w reply => exact threadStep_orderly hs horder ht
    | others state shouldStop stopSleep stopEvent =>
      cases ht
      exact ⟨⟨hs.connected, hs.exits, hs.leaves, horder⟩, fun hrunning hreturned =>
        absurd hreturned hrunning⟩
  have hbegin : Orderly (rpcBegin globals prevHash) := .of_working ⟨nofun, nofun, nofun, nofun⟩
  exact allSteps_of_guarded hstep hbegin h

/-- A thread that nothing is left of, and nobody has told to stop. -/
def rpcFresh : Globals × Local := rpcBegin ⟨.login, false, false, none, ⟨0, false⟩, none⟩ []

/-- The network comes up, then a game asks for the radio. -/
def lentRun : List RpcEvent :=
  (List.replicate 3 (.thread online none)) ++ List.replicate 5 (.thread yielding none)

theorem lentRun_returns_stopped :
    AllSteps (rpcStep silentCrypto) (fun s _ t => ReturnsStopped s t) rpcFresh lentRun ∧
      (run (rpcStep silentCrypto) rpcFresh lentRun).map (fun t => (t.1.state, t.2.pc)) =
        some (.stopped, .returned) := by
  refine ⟨returns_stopped silentCrypto _ [] lentRun ?_, by decide +kernel⟩
  refine .cons rfl nofun (.cons rfl nofun (.cons rfl (fun _ => rfl) (.cons rfl nofun ?_)))
  exact .cons rfl nofun (.cons rfl nofun (.cons rfl nofun (.cons rfl nofun trivial)))

/-- The network is there, but `network_init` fails. -/
def noSocket : Answers := { online with networkInit := false }

theorem failed_init_returns_in_error : ¬∀ crypto globals prevHash events,
    AllSteps (rpcStep crypto) (fun s _ t => ReturnsStopped s t) (rpcBegin globals prevHash)
      events := by
  intro h
  have hend : (run (rpcStep silentCrypto) rpcFresh (List.replicate 5 (.thread noSocket none))).map
      (fun t => (t.1.state, t.2.pc)) = some (.error, .leaving false) := by decide +kernel
  obtain ⟨t, ht, hends⟩ := Option.map_eq_some_iff.mp hend
  obtain ⟨hstate, hpc⟩ := Prod.mk.inj hends
  have hlast : rpcStep silentCrypto t (.thread noSocket none) =
      some (t.1, t.2.goto .returned) := by
    simp only [rpcStep, threadStep, hpc]
  have hreturns := (h silentCrypto _ [] _).last ht hlast
  have hstopped : t.1.state = .stopped := hreturns (hpc ▸ nofun) rfl
  cases hstate.symm.trans hstopped

end Presence3DS.Discord
