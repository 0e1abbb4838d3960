import Presence3DS.Gdb.DebugHandles

/-! The invariant of the handshake between the monitor and the server, and the steps of the
monitor. -/

namespace Presence3DS.Gdb.Monitor
open RecursiveLock Runs

/-! ## The invariant -/

/-- The monitor will not wait for a debug handle of context `k`, as the context stands. -/
def Debugger.Unwatched (s : Debugger) (k : Nat) : Prop :=
  ∀ h, (s.ctxs k).eventToWaitFor ≠ .debug h

/-- The monitor answers the status update that was asked for without another lock, or has left. -/
def Debugger.Attentive (s : Debugger) : Prop :=
  match s.monitor with
  | .unlockAll _ _ | .waitEntry _ => s.statusUpdated = true
  | .updated | .leaving | .stopped => True
  | _ => False

/-- The handshake over context `k`, at `pc`. -/
structure Agreed (s : Debugger) (pc : HandshakePc) (k : Nat) (purpose : Purpose) : Prop where
  unwatched : pc.marked = true → s.Unwatched k
  cleared : pc ∈ [.signal, .unlock, .check, .await] → s.statusUpdateReceived = true → s.Cleared k
  parted : pc ∈ [.relock, .finish] → s.Cleared k
  attended : purpose ≠ .close → pc ∈ [.unlock, .await] →
    s.statusUpdateReceived = true ∨ s.Attentive
  direct : purpose ≠ .close → pc ≠ .check

structure Inv (s : Debugger) : Prop where
  locks : Records s.locks s.levels
  owned : Owned s
  connected : Connected s
  packet : ∀ k command, s.server = .packet k command → (s.ctxs k).used = true
  agreed : ∀ pc k purpose, s.server = .handshake pc k purpose → Agreed s pc k purpose

theorem ServerPc.levels_handshake (pc : HandshakePc) (k : Nat) (purpose : Purpose) :
    (ServerPc.handshake pc k purpose).levels k = purpose.base + if pc.locked then 1 else 0 := by
  exact (levels_of_context rfl k).trans (if_pos rfl)

theorem Purpose.base_pos (purpose : Purpose) (h : purpose ≠ .close) : 0 < purpose.base := by
  cases purpose with
  | close => exact absurd rfl h
  | detach after continuing =>
    cases after with
    | failedLaunch => exact Nat.two_pos
    | _ => exact Nat.one_pos

theorem Inv.monitor_away {s : Debugger} (hs : Inv s) {pc : HandshakePc} {k : Nat}
    {purpose : Purpose} (hpc : s.server = .handshake pc k purpose) (hpurpose : purpose ≠ .close) :
    s.monitor.levels k = 0 := by
  apply hs.locks.exclusive (p := .server) (q := .monitor) _ nofun
  show 0 < s.server.levels k
  rw [hpc, ServerPc.levels_handshake]
  exact Nat.lt_add_right _ (purpose.base_pos hpurpose)

/-! ## What the steps of the monitor and the events do -/

/-- The monitor is about to take the debug handle of context `i` for the one to wait for. -/
def Debugger.TurnsToDebug (s : Debugger) (i : Nat) : Prop :=
  s.monitor = .handling i ∧ s.live i = true ∧ (s.ctxs i).eventToWaitFor = .continued

structure Effect (s t : Debugger) : Prop where
  server : t.server = s.server
  owned : Owned s → Owned t
  connected : Connected s → Connected t
  used : ∀ i, (t.ctxs i).used = (s.ctxs i).used
  event : ∀ i h, (t.ctxs i).eventToWaitFor = .debug h →
    (s.ctxs i).eventToWaitFor = .debug h ∨ s.TurnsToDebug i
  handles : ∀ handles, t.monitor.handles = some handles → s.monitor.handles = some handles ∨
    handles = fun j => (s.ctxs j).eventToWaitFor
  received : t.statusUpdateReceived = s.statusUpdateReceived ∨
    t.statusUpdateReceived = true ∧ t.monitor.handles = none
  attentive : s.Attentive → t.statusUpdateReceived = true ∨ t.Attentive

/-- The monitor turns to no debug handle whose context is being closed. -/
def Debugger.Spared (s : Debugger) : Prop := ∀ i, s.TurnsToDebug i → s.server.closing i = false

theorem Inv.effect {s t : Debugger} (hs : Inv s) (h : Effect s t)
    (hlocks : Records t.locks t.levels) (hspared : s.Spared) : Inv t where
  locks := hlocks
  owned := h.owned hs.owned
  connected := h.connected hs.connected
  packet k command hpc := (h.used k).trans (hs.packet k command (h.server ▸ hpc))
  agreed pc k purpose hpc := by
    rw [h.server] at hpc
    have hagreed := hs.agreed pc k purpose hpc
    have hclear : s.Unwatched k → s.Cleared k → t.Cleared k := by
      intro hunwatched hcleared handles hhandles event
      rcases h.handles handles hhandles with hold | rfl
      · exact hcleared handles hold event
      · exact hunwatched event
    constructor
    case unwatched =>
      intro hmarked event hevent
      rcases h.event k event hevent with hold | hturns
      · exact hagreed.unwatched hmarked event hold
      · by_cases hpurpose : purpose = .close
        · have hnot := hspared k hturns
          rw [hpc, hpurpose] at hnot
          simp [ServerPc.closing, hmarked] at hnot
        · have haway := hs.monitor_away hpc hpurpose
          rw [hturns.1] at haway
          simp [MonitorPc.levels] at haway
    case cleared =>
      intro hmem hreceived
      have hmarked : pc.marked = true := by
        revert hmem
        cases pc <;> simp [HandshakePc.marked]
      rcases h.received with hsame | ⟨-, hnone⟩
      · exact hclear (hagreed.unwatched hmarked) (hagreed.cleared hmem (hsame ▸ hreceived))
      · intro handles hsome
        exact absurd (hnone.symm.trans hsome) nofun
    case parted =>
      intro hmem
      have hmarked : pc.marked = true := by
        revert hmem
        cases pc <;> simp [HandshakePc.marked]
      exact hclear (hagreed.unwatched hmarked) (hagreed.parted hmem)
    case attended =>
      intro hpurpose hmem
      rcases hagreed.attended hpurpose hmem with hreceived | hattentive
      · exact .inl (h.received.elim (fun hsame => hsame.trans hreceived) And.left)
      · exact h.attentive hattentive
    case direct => exact hagreed.direct

theorem Effect.of_ctxs {s t : Debugger} (hserver : t.server = s.server) (hctxs : t.ctxs = s.ctxs)
    (hclosed : t.closed = s.closed) (hnext : t.nextHandle = s.nextHandle)
    (hhandles : ∀ handles, t.monitor.handles = some handles →
      s.monitor.handles = some handles ∨ handles = fun j => (s.ctxs j).eventToWaitFor)
    (hreceived : t.statusUpdateReceived = s.statusUpdateReceived ∨
      t.statusUpdateReceived = true ∧ t.monitor.handles = none)
    (hattentive : s.Attentive → t.statusUpdateReceived = true ∨ t.Attentive) : Effect s t where
  server := hserver
  owned hs := by
    apply hs.of_fewer hclosed hnext
    · intro i h hi
      exact hctxs ▸ hi
    · rintro i h (hi | ⟨handles, hsome, hi⟩)
      · exact .inl (.inl (hctxs ▸ hi))
      · rcases hhandles handles hsome with hold | rfl
        · exact .inl (.inr ⟨handles, hold, hi⟩)
        · exact .inl (.inl hi)
  connected hs := by
    intro i
    rw [hctxs]
    exact hs i
  used i := by rw [hctxs]
  event i h hi := .inl (hctxs ▸ hi)
  handles := hhandles
  received := hreceived
  attentive := hattentive

theorem Woken.effect {s t : Debugger} (h : Woken s t)
    (hattentive : s.Attentive → t.statusUpdateReceived = true ∨ t.Attentive) : Effect s t where
  server := h.work.server
  owned := h.work.owned
  connected := h.work.connected
  used := h.used
  event i _ hi := .inl (h.event i ▸ hi)
  handles _ hsome := absurd (h.monitor.symm.trans hsome) nofun
  received := .inl h.received
  attentive := hattentive

theorem records_of_same {s t : Debugger} (hs : Records s.locks s.levels)
    (hlocks : t.locks = s.locks) (hmonitor : t.monitor.levels = s.monitor.levels)
    (hserver : t.server.levels = s.server.levels) : Records t.locks t.levels := by
  intro p k
  rw [hlocks, hs p k]
  cases p with
  | monitor => exact (congrFun hmonitor k).symm
  | server => exact (congrFun hserver k).symm

theorem Work.records {s t : Debugger} (h : Work s t) (hs : Records s.locks s.levels) :
    Records t.locks t.levels :=
  records_of_same hs h.locks h.monitor (congrArg ServerPc.levels h.server)

theorem Inv.notify {s : Debugger} (hs : Inv s) : Inv s.notify := by
  rcases s.notify_eq with hsame | ⟨handles, w, hpc, -, hwake⟩
  · exact hsame.symm ▸ hs
  · have hwoken := Debugger.wake_woken (s := s) (hpc ▸ rfl) handles w
    rw [hwake]
    apply hs.effect (hwoken.effect _) (hwoken.work.records hs.locks)
    · intro i hturns
      exact absurd (hpc.symm.trans hturns.1) nofun
    · intro hattentive
      simp [Debugger.Attentive, hpc] at hattentive

/-! ## The steps of the monitor -/

theorem Debugger.handleDebugEvents_eq (s : Debugger) (i : Nat) (event : EventResult) :
    ∃ pending ctxs, (s.handleDebugEvents i event).1 = { s with pending, ctxs } ∧
      ∀ j, ∃ processContinuing, ctxs j = { s.ctxs j with processContinuing } := by
  have hsame : ∃ pending ctxs, s = { s with pending, ctxs } ∧
      ∀ j, ∃ processContinuing, ctxs j = { s.ctxs j with processContinuing } :=
    ⟨s.pending, s.ctxs, rfl, fun j => ⟨_, rfl⟩⟩
  simp only [handleDebugEvents]
  split_ifs
  · exact hsame
  cases hdebug : (s.ctxs i).debug with
  | none => exact hsame
  | some h =>
    dsimp only
    split_ifs
    · exact hsame
    cases event with
    | stopped sent =>
      refine ⟨_, _, rfl, fun j => ?_⟩
      rcases eq_or_ne j i with rfl | hji
      · rw [← hdebug]
        exact ⟨false, Function.update_self ..⟩
      · exact ⟨(s.ctxs j).processContinuing, Function.update_of_ne hji ..⟩
    | _ => exact ⟨_, s.ctxs, rfl, fun j => ⟨_, rfl⟩⟩

/-- A step that takes no lock and gives none back. -/
structure Stays (s t : Debugger) : Prop extends Effect s t where
  locks : t.locks = s.locks
  levels : t.monitor.levels = s.monitor.levels

theorem Stays.of_handling {s t : Debugger} (i : Nat) (hpc : s.monitor.fetches = some i)
    (h : Work s t) (pc : MonitorPc) (hgone : pc.handles = none)
    (hlevels : pc.levels = s.monitor.levels)
    (hused : ∀ j, (t.ctxs j).used = (s.ctxs j).used)
    (hreceived : t.statusUpdateReceived = s.statusUpdateReceived)
    (hevent : ∀ j h, (t.ctxs j).eventToWaitFor = .debug h →
      (s.ctxs j).eventToWaitFor = .debug h ∨ s.TurnsToDebug j) :
    Stays s (t.gotoMonitor pc) where
  server := h.server
  locks := h.locks
  levels := hlevels
  owned hs := by
    refine (h.owned hs).of_fewer (t := t.gotoMonitor pc) rfl rfl (fun _ _ hi => hi) ?_
    rintro j h (hi | ⟨_, hsome, _⟩)
    · exact .inl (.inl hi)
    · exact absurd (hgone.symm.trans hsome) nofun
  connected := h.connected
  used := hused
  event := hevent
  handles _ hsome := absurd (hgone.symm.trans hsome) nofun
  received := .inl hreceived
  attentive hattentive := by
    unfold Debugger.Attentive at hattentive
    revert hpc hattentive
    cases s.monitor <;> simp [MonitorPc.fetches]

theorem Debugger.setEvent_event (s : Debugger) (i j : Nat) (event : Event) :
    ((s.setEvent i event).ctxs j).eventToWaitFor =
      if j = i then event else (s.ctxs j).eventToWaitFor := by
  rcases eq_or_ne j i with rfl | hji
  · simp [setEvent, setCtx]
  · simp [setEvent, setCtx, hji]

theorem Debugger.setEvent_used (s : Debugger) (i j : Nat) (event : Event) :
    ((s.setEvent i event).ctxs j).used = (s.ctxs j).used := by
  rcases eq_or_ne j i with rfl | hji
  · simp [setEvent, setCtx]
  · simp [setEvent, setCtx, hji]

theorem Debugger.setEvent_work (s : Debugger) (i : Nat) {event : Event}
    (hevent : ∀ h, event = .debug (some h) → (s.ctxs i).debug = some h) :
    Work s (s.setEvent i event) :=
  s.setCtx_work i _ (fun _ h => h) (fun h hh => .inr (hevent h hh)) fun h => .inr ⟨h, rfl⟩

/-- Only the events fetched and the flag of a context change. -/
structure Fetched (s t : Debugger) : Prop where
  work : Work s t
  received : t.statusUpdateReceived = s.statusUpdateReceived
  used : ∀ j, (t.ctxs j).used = (s.ctxs j).used
  event : ∀ j, (t.ctxs j).eventToWaitFor = (s.ctxs j).eventToWaitFor
  debug : ∀ j, (t.ctxs j).debug = (s.ctxs j).debug
  monitor : t.monitor = s.monitor
  updated : t.statusUpdated = s.statusUpdated

theorem Debugger.handleDebugEvents_fetched (s : Debugger) (i : Nat) (event : EventResult) :
    Fetched s (s.handleDebugEvents i event).1 := by
  obtain ⟨pending, ctxs, hsame, hctxs⟩ := s.handleDebugEvents_eq i event
  rw [hsame]
  choose continuing hcontinuing using hctxs
  rcases funext hcontinuing
  have hwork : Work s { s with pending, ctxs := fun j =>
      { s.ctxs j with processContinuing := continuing j } } :=
    ⟨rfl, rfl, rfl, fun hs => hs.of_fewer rfl rfl (fun _ _ hi => hi) fun _ _ hi => .inl hi, id⟩
  exact ⟨hwork, rfl, fun _ => rfl, fun _ => rfl, fun _ => rfl, rfl, rfl⟩

theorem Event.processAttached_ne (h : Option Nat) : processAttached ≠ debug h := Event.noConfusion

theorem Event.continued_ne (h : Option Nat) : continued ≠ debug h := Event.noConfusion

theorem Debugger.handleSignaled_stays {s : Debugger} {i : Nat} (hpc : s.monitor = .handling i)
    (event : EventResult) : Stays s (s.handleSignaled i event) := by
  have hfetches : s.monitor.fetches = some i := hpc ▸ rfl
  unfold handleSignaled
  split
  case isFalse =>
    refine .of_handling i hfetches (s.setCtx_work i _ ?_ ?_ ?_) _ rfl (hpc ▸ rfl) ?_ rfl ?_
    · exact fun _ hh => hh
    · exact fun h hh => absurd hh (Event.processAttached_ne (some h))
    · exact fun hh => .inr ⟨hh, rfl⟩
    · intro j
      rcases eq_or_ne j i with rfl | hji
      · simp [setCtx]
      · simp [setCtx, hji]
    · intro j h hj
      rcases eq_or_ne j i with rfl | hji
      · simp [setCtx] at hj
      · exact .inl (by simpa [setCtx, hji] using hj)
  case isTrue hlive =>
    have hset : ∀ (t : Debugger) (e : Event), Fetched s t →
        (∀ h, e = .debug (some h) → (s.ctxs i).debug = some h) →
        (∀ h, e = .debug h → s.TurnsToDebug i) →
        Stays s ((t.setEvent i e).gotoMonitor (.unlockOne i)) := by
      intro t e ht hheld hturns
      apply Stays.of_handling i hfetches (ht.work.trans (t.setEvent_work i _)) _ rfl (hpc ▸ rfl) _
        ht.received
      · intro j h hj
        rw [setEvent_event] at hj
        split_ifs at hj with hji
        · exact .inr (hji ▸ hturns h hj)
        · exact .inl (ht.event j ▸ hj)
      · intro h hh
        exact (ht.debug i).trans (hheld h hh)
      · intro j
        exact (t.setEvent_used i j e).trans (ht.used j)
    have hself : Fetched s s :=
      ⟨.refl s, rfl, fun _ => rfl, fun _ => rfl, fun _ => rfl, rfl, rfl⟩
    cases hwait : (s.ctxs i).eventToWaitFor with
    | processAttached =>
      exact hset s .continued hself (fun h hh => absurd hh (Event.continued_ne (some h)))
        fun h hh => absurd hh (Event.continued_ne h)
    | continued =>
      apply hset s _ hself
      · intro h hh
        exact Event.debug.inj hh
      · exact fun _ _ => ⟨hpc, hlive, hwait⟩
    | debug handle =>
      have hfetched := s.handleDebugEvents_fetched i event
      have hgo : ∀ pc : MonitorPc, pc.handles = none → pc.levels = s.monitor.levels →
          Stays s ((s.handleDebugEvents i event).1.gotoMonitor pc) := fun pc hgone hlevels =>
        .of_handling i hfetches hfetched.work pc hgone hlevels hfetched.used hfetched.received
          fun j h hj => .inl (hfetched.event j ▸ hj)
      dsimp only
      split
      · exact hset _ .continued hfetched (fun h hh => absurd hh (Event.continued_ne (some h)))
          fun h hh => absurd hh (Event.continued_ne h)
      · exact hgo _ rfl (hpc ▸ rfl)
      · exact hgo _ rfl (hpc ▸ rfl)

/-- No debug handle is waited for that was not before, and the monitor stays where it is. -/
structure Calm (s t : Debugger) : Prop where
  work : Work s t
  received : t.statusUpdateReceived = s.statusUpdateReceived
  used : ∀ j, (t.ctxs j).used = (s.ctxs j).used
  event : ∀ j h, (t.ctxs j).eventToWaitFor = .debug h → (s.ctxs j).eventToWaitFor = .debug h
  monitor : t.monitor = s.monitor
  updated : t.statusUpdated = s.statusUpdated

theorem Fetched.calm {s t : Debugger} (h : Fetched s t) : Calm s t :=
  ⟨h.work, h.received, h.used, fun j _ hj => h.event j ▸ hj, h.monitor, h.updated⟩

theorem Calm.refl (s : Debugger) : Calm s s :=
  ⟨.refl s, rfl, fun _ => rfl, fun _ _ hj => hj, rfl, rfl⟩

theorem Calm.trans {s t u : Debugger} (h : Calm s t) (h' : Calm t u) : Calm s u where
  work := h.work.trans h'.work
  received := h'.received.trans h.received
  used j := (h'.used j).trans (h.used j)
  event j event hj := h.event j event (h'.event j event hj)
  monitor := h'.monitor.trans h.monitor
  updated := h'.updated.trans h.updated

theorem Debugger.setCtx_calm (s : Debugger) (k : Nat) (ctx : Context)
    (hdebug : ∀ h, ctx.debug = some h → (s.ctxs k).debug = some h)
    (hevent : ∀ h, ctx.eventToWaitFor = .debug h → (s.ctxs k).eventToWaitFor = .debug h)
    (hused : ctx.used = (s.ctxs k).used)
    (hstate : ctx.state ≠ .disconnected ∨ ctx.state = (s.ctxs k).state) :
    Calm s (s.setCtx k ctx) where
  work := by
    apply s.setCtx_work k ctx hdebug
    · exact fun h hh => .inl (hevent _ hh)
    · exact fun hu => hstate.imp_right fun hsame => ⟨hused ▸ hu, hsame⟩
  received := rfl
  used j := by
    rcases eq_or_ne j k with rfl | hjk
    · simpa [setCtx] using hused
    · simp [setCtx, hjk]
  event j h hj := by
    rcases eq_or_ne j k with rfl | hjk
    · exact hevent h (by simpa [setCtx] using hj)
    · simpa [setCtx, hjk] using hj
  monitor := rfl
  updated := rfl

theorem Debugger.detachFromProcess_calm {s : Debugger} {k : Nat} (hclear : s.Cleared k) :
    Calm s (s.detachFromProcess k) where
  work := by
    refine ⟨rfl, rfl, rfl, fun hs => hs.detachFromProcess hclear, fun hs j hj => ?_⟩
    rcases eq_or_ne j k with rfl | hjk
    · simpa [detachFromProcess, setCtx] using
        hs j (by simpa [detachFromProcess, setCtx] using hj)
    · simpa [detachFromProcess, setCtx, hjk] using
        hs j (by simpa [detachFromProcess, setCtx, hjk] using hj)
  received := rfl
  used j := by
    rcases eq_or_ne j k with rfl | hjk
    · simp [detachFromProcess, setCtx]
    · simp [detachFromProcess, setCtx, hjk]
  event j h hj := by
    rcases eq_or_ne j k with rfl | hjk
    · simp [detachFromProcess, setCtx] at hj
    · simpa [detachFromProcess, setCtx, hjk] using hj
  monitor := rfl
  updated := rfl

theorem Debugger.restartFlags_calm (s : Debugger) (k : Nat) :
    Calm s (s.setCtx k (s.ctxs k).restartFlags) :=
  s.setCtx_calm k _ (fun _ h => h) (fun _ h => h) rfl (.inr rfl)

theorem Debugger.resetAttached_calm (s : Debugger) (k : Nat) : Calm s (s.resetAttached k) :=
  s.setCtx_calm k _ (fun _ h => h) nofun rfl (.inr rfl)

theorem Debugger.setState_calm (s : Debugger) (k : Nat) (state : GdbState)
    (hstate : state ≠ .disconnected) :
    Calm s (s.setCtx k { s.ctxs k with state }) :=
  s.setCtx_calm k _ (fun _ h => h) (fun _ h => h) rfl (.inl hstate)

theorem Debugger.Cleared.of_monitor {s t : Debugger} {k : Nat} (hs : s.Cleared k)
    (hsame : t.monitor = s.monitor) : t.Cleared k :=
  fun handles hhandles => hs handles (hsame ▸ hhandles)

theorem Debugger.drain_stays {s : Debugger} {i : Nat} (hpc : s.monitor = .draining i)
    (event : EventResult) : Stays s (s.drain i event) := by
  have hfetched := (s.handleDebugEvents_fetched i event).calm
  have hcalm : ∀ (t : Debugger) (pc : MonitorPc), Calm s t → pc.handles = none →
      pc.levels = s.monitor.levels → Stays s (t.gotoMonitor pc) := fun t pc ht hgone hlevels =>
    .of_handling i (hpc ▸ rfl) ht.work pc hgone hlevels ht.used ht.received
      fun j h hj => .inl (ht.event j h hj)
  have hclear : s.Cleared i := fun _ hsome => absurd hsome (hpc ▸ nofun)
  unfold drain
  dsimp only
  generalize (s.handleDebugEvents i event).1 = t at hfetched
  have hended : Calm s ((if (t.ctxs i).extendedRemote then
      (((t.setCtx i { t.ctxs i with state := .detaching }).detachFromProcess i).setCtx i
        (((t.setCtx i { t.ctxs i with state := .detaching }).detachFromProcess i).ctxs
          i).restartFlags)
      else t).resetAttached i) := by
    apply (hfetched.trans _).trans (resetAttached_calm _ i)
    split_ifs
    · have hstate := t.setState_calm i .detaching nofun
      apply (hstate.trans (detachFromProcess_calm _)).trans (restartFlags_calm _ i)
      exact hclear.of_monitor (hstate.monitor.trans hfetched.monitor)
    · exact .refl t
  split
  · exact hcalm _ (.unlockOne i) hended rfl (hpc ▸ rfl)
  · exact hcalm _ (.unlockOne i) hended rfl (hpc ▸ rfl)
  · have hstay : t.gotoMonitor (.draining i) = t := by
      rw [← hpc, ← hfetched.monitor]
      rfl
    exact hstay ▸ hcalm t (.draining i) hfetched rfl (hpc ▸ rfl)

/-! ## A step of the monitor -/

theorem MonitorPc.levels_lockAll_zero (k : Nat) : (lockAll 0).levels k = 0 := by
  simp [levels]

theorem MonitorPc.levels_lockAll (i : Nat) (k : Nat) :
    (lockAll (i + 1)).levels k = (lockAll i).levels k + if k = i then 1 else 0 := by
  simp only [levels]
  split_ifs <;> omega

theorem MonitorPc.levels_unlockAll (i : Nat) (handles : Handles) (k : Nat) :
    (unlockAll i handles).levels k =
      (unlockAll (i + 1) handles).levels k - if k = i then 1 else 0 := by
  simp only [levels]
  split_ifs <;> omega

theorem Debugger.lock_eq_some {s t : Debugger} {p : Thread} {k : Nat} (h : s.lock p k = some t) :
    ∃ locks, lockAt p k s.locks = some locks ∧ t = { s with locks } := by
  obtain ⟨locks, hlocks, rfl⟩ := Option.map_eq_some_iff.mp h
  exact ⟨locks, hlocks, rfl⟩

theorem Debugger.endLoop_eq (s : Debugger) :
    ∃ pc : MonitorPc, s.endLoop = s.gotoMonitor pc ∧ pc.handles = none ∧
      pc.levels = fun _ => 0 := by
  refine ⟨_, rfl, ?_⟩
  split_ifs
  · exact ⟨rfl, rfl⟩
  · exact ⟨rfl, funext MonitorPc.levels_lockAll_zero⟩

section Monitor
variable {s t : Debugger} {event : EventResult}

theorem Inv.gotoMonitor (hs : Inv s) (hspared : s.Spared) (pc : MonitorPc)
    {locks : Nat → RecursiveLock Thread} {received : Bool}
    (hlocks : Records locks { s with monitor := pc }.levels)
    (hhandles : ∀ handles, pc.handles = some handles →
      s.monitor.handles = some handles ∨ handles = fun j => (s.ctxs j).eventToWaitFor)
    (hreceived : received = s.statusUpdateReceived ∨ received = true ∧ pc.handles = none)
    (hattentive : s.Attentive → received = true ∨ { s with monitor := pc }.Attentive) :
    Inv ({ s with locks, statusUpdateReceived := received }.gotoMonitor pc) :=
  hs.effect (.of_ctxs rfl rfl rfl rfl hhandles hreceived hattentive) hlocks hspared

theorem Inv.stays (hs : Inv s) (h : Stays s t) (hspared : s.Spared) : Inv t :=
  hs.effect h.toEffect
    (records_of_same hs.locks h.locks h.levels (congrArg ServerPc.levels h.server)) hspared

theorem Debugger.firstSignaled_updated (hupdated : s.statusUpdated = true) (handles : Handles) :
    s.firstSignaled handles = some .terminate ∨ s.firstSignaled handles = some .update := by
  unfold firstSignaled
  cases s.terminating
  · exact .inr (by simp [hupdated])
  · exact .inl rfl

theorem Debugger.wake_attentive {w : Wake} (handles : Handles)
    (h : some w = some .terminate ∨ some w = some .update) : (s.wake handles w).Attentive := by
  rcases h with h | h <;> cases h <;> trivial

theorem Inv.enterWait (hs : Inv s) (hspared : s.Spared) {handles : Handles}
    (hpc : s.monitor = .waitEntry handles) : Inv (s.enterWait handles) := by
  unfold Debugger.enterWait
  cases hw : s.firstSignaled handles with
  | some w =>
    have hwoken := Debugger.wake_woken (s := s) (hpc ▸ rfl) handles w
    apply hs.effect (hwoken.effect _) (hwoken.work.records hs.locks) hspared
    intro hattentive
    have hupdated : s.statusUpdated = true := by simpa [Debugger.Attentive, hpc] using hattentive
    exact .inr (s.wake_attentive handles (hw ▸ s.firstSignaled_updated hupdated handles))
  | none =>
    apply hs.gotoMonitor hspared (.waiting handles)
      (records_of_same hs.locks rfl (hpc ▸ rfl) rfl) _ (.inl rfl)
    · intro hattentive
      have hupdated : s.statusUpdated = true := by simpa [Debugger.Attentive, hpc] using hattentive
      have hfirst := s.firstSignaled_updated hupdated handles
      simp [hw] at hfirst
    · exact fun _ hsome => .inl (hpc ▸ hsome)

theorem Inv.monitorStep (hs : Inv s) (hspared : s.Spared) (h : s.monitorStep event = some t) :
    Inv t := by
  unfold Debugger.monitorStep at h
  cases hpc : s.monitor <;> simp only [hpc] at h
  case notStarted =>
    rcases Option.some.inj h with rfl
    apply hs.gotoMonitor hspared (.lockAll 0) (records_of_same hs.locks rfl _ rfl) nofun (.inl rfl)
    · simp [Debugger.Attentive, hpc]
    · rw [hpc]
      exact funext MonitorPc.levels_lockAll_zero
  case lockAll i =>
    split_ifs at h with hi
    · rcases Option.some.inj h with rfl
      apply hs.gotoMonitor hspared (.unlockAll maxDebug _) (records_of_same hs.locks rfl _ rfl) _
        (.inl rfl)
      · simp [Debugger.Attentive, hpc]
      · rw [hpc, hi]
        rfl
      · exact fun _ hsome => .inr (Option.some.inj hsome).symm
    · obtain ⟨u, hlock, rfl⟩ := Option.map_eq_some_iff.mp h
      obtain ⟨locks, hlocks, rfl⟩ := Debugger.lock_eq_some hlock
      apply hs.gotoMonitor hspared (.lockAll (i + 1)) (hs.locks.lockAt hlocks _) nofun (.inl rfl)
      · simp [Debugger.Attentive, hpc]
      · intro q j
        cases q with
        | monitor => simpa [Debugger.levels, hpc] using MonitorPc.levels_lockAll i j
        | server => simp [Debugger.levels]
  case unlockAll i handles =>
    have hcopied : ∀ copied, some handles = some copied →
        s.monitor.handles = some copied ∨ copied = fun j => (s.ctxs j).eventToWaitFor :=
      fun _ hsome => .inl (hpc ▸ hsome)
    cases i with
    | zero =>
      rcases Option.some.inj h with rfl
      apply hs.gotoMonitor hspared (.waitEntry handles) (records_of_same hs.locks rfl _ rfl) hcopied
        (.inl rfl)
      · intro hattentive
        exact .inr (by simpa [Debugger.Attentive, hpc] using hattentive)
      · rw [hpc]
        exact (funext MonitorPc.levels_lockAll_zero).symm
    | succ i =>
      rcases Option.some.inj h with rfl
      apply hs.gotoMonitor hspared (.unlockAll i handles)
        (hs.locks.unlockAt (p := .monitor) _ _) hcopied (.inl rfl)
      · intro hattentive
        exact .inr (by simpa [Debugger.Attentive, hpc] using hattentive)
      · show 0 < s.monitor.levels i
        rw [hpc]
        simp [MonitorPc.levels]
      · intro q j
        cases q with
        | monitor => simpa [Debugger.levels, hpc] using MonitorPc.levels_unlockAll i handles j
        | server => simp [Debugger.levels]
  case waitEntry handles =>
    split_ifs at h
    · exact Option.some.inj h ▸ hs.enterWait hspared hpc
    · rcases Option.some.inj h with rfl
      apply hs.gotoMonitor hspared .leaving (records_of_same hs.locks rfl (hpc ▸ rfl) rfl) nofun
        (.inl rfl)
      exact fun _ => .inr trivial
  case waiting => cases h
  case updated =>
    rcases Option.some.inj h with rfl
    obtain ⟨pc, hend, hgone, hlevels⟩ :=
      { s with statusUpdateReceived := true, monitor := .updated }.endLoop_eq
    rw [hend]
    apply hs.gotoMonitor hspared pc (records_of_same hs.locks rfl _ rfl) _ (.inr ⟨rfl, hgone⟩)
    · exact fun _ => .inl rfl
    · exact hpc ▸ hlevels
    · exact fun _ hsome => absurd (hgone.symm.trans hsome) nofun
  case lockOne i =>
    obtain ⟨u, hlock, rfl⟩ := Option.map_eq_some_iff.mp h
    obtain ⟨locks, hlocks, rfl⟩ := Debugger.lock_eq_some hlock
    apply hs.gotoMonitor hspared (.handling i) (hs.locks.lockAt hlocks _) nofun (.inl rfl)
    · simp [Debugger.Attentive, hpc]
    · intro q j
      cases q with
      | monitor => simp [Debugger.levels, MonitorPc.levels, hpc]
      | server => simp [Debugger.levels]
  case handling i => exact Option.some.inj h ▸ hs.stays (s.handleSignaled_stays hpc event) hspared
  case draining i => exact Option.some.inj h ▸ hs.stays (s.drain_stays hpc event) hspared
  case unlockOne i =>
    rcases Option.some.inj h with rfl
    obtain ⟨pc, hend, hgone, hlevels⟩ := (s.unlock i).endLoop_eq
    rw [hend]
    apply hs.gotoMonitor hspared pc (hs.locks.unlockAt (p := .monitor) _ _) _ (.inl rfl)
    · simp [Debugger.Attentive, hpc]
    · show 0 < s.monitor.levels i
      rw [hpc]
      simp [MonitorPc.levels]
    · intro q j
      cases q with
      | monitor =>
        show pc.levels j = s.monitor.levels j - _
        rw [hlevels, hpc]
        simp [MonitorPc.levels]
      | server => simp [Debugger.levels]
    · exact fun _ hsome => absurd (hgone.symm.trans hsome) nofun
  case leaving =>
    rcases Option.some.inj h with rfl
    apply hs.gotoMonitor hspared .stopped (records_of_same hs.locks rfl (hpc ▸ rfl) rfl) nofun
      (.inl rfl)
    exact fun _ => .inr trivial
  case stopped => cases h

end Monitor

end Presence3DS.Gdb.Monitor
