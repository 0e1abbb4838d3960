import Presence3DS.Gdb.Monitor

/-! Who holds which lock and which debug handle while the monitor and the server run, and what the
operations on a context keep of it. -/

namespace Presence3DS.Gdb.Monitor
open RecursiveLock Runs

/-! ## What is claimed of a state -/

/-- The handles that the monitor has copied and still uses. -/
def MonitorPc.handles : MonitorPc → Option Handles
  | .unlockAll _ handles | .waitEntry handles | .waiting handles => some handles
  | _ => none

/-- The handles that the monitor waits for, or is about to. -/
def MonitorPc.waits : MonitorPc → Option Handles
  | .waitEntry handles | .waiting handles => some handles
  | _ => none

/-- The context whose debug events the monitor is about to fetch. -/
def MonitorPc.fetches : MonitorPc → Option Nat
  | .handling i | .draining i => some i
  | _ => none

/-- The context whose lock is the next thing that the monitor needs. -/
def MonitorPc.wants : MonitorPc → Option Nat
  | .lockAll i => if i = maxDebug then none else some i
  | .lockOne i => some i
  | _ => none

/-- The server waits for the monitor, and holds the lock of context `k`. -/
def Debugger.AwaitsHolding (s : Debugger) (k : Nat) : Prop :=
  (∃ j purpose, s.server = .handshake .await j purpose) ∧ s.statusUpdateReceived = false ∧
    0 < (s.locks k).depth .server

/-- The two threads do not wait for each other, and the monitor uses no closed debug handle. -/
structure Sound (s : Debugger) : Prop where
  noDeadlock : ∀ k, s.AwaitsHolding k → s.monitor.wants ≠ some k
  openWaits : ∀ handles, s.monitor.waits = some handles → ∀ i h,
    handles i = .debug (some h) → h ∉ s.closed
  openFetches : ∀ i, s.monitor.fetches = some i → ∀ h, (s.ctxs i).debug = some h → h ∉ s.closed

/-! ## When a step is well timed -/

/-- The monitor answers a status update without taking a lock before, or takes no more of them. -/
def MonitorPc.attends : MonitorPc → Bool
  | .unlockAll _ _ | .waitEntry _ | .waiting _ | .updated | .leaving | .stopped => true
  | _ => false

/-- From `eventToWaitFor` having been reset to the process having been detached from. -/
def HandshakePc.marked : HandshakePc → Bool
  | .lock | .mark | .leave => false
  | _ => true

/-- `GDB_CloseClient` is at work on the context. -/
def ServerPc.closing (i : Nat) : ServerPc → Bool
  | .handshake pc k .close => pc.marked && k == i
  | _ => false

/-- A handler that asks for a status update with its context locked finds the monitor where it
answers, and the monitor does not turn to a debug handle that is about to be closed. -/
def wellTimed (s : Debugger) : Action → Bool
  | .server _ =>
    match s.server with
    | .handshake .signal _ (.detach _ _) => s.statusUpdateReceived || s.monitor.attends
    | _ => true
  | .monitor _ =>
    match s.monitor with
    | .handling i =>
      !(s.server.closing i && s.live i && (s.ctxs i).eventToWaitFor = .continued)
    | _ => true
  | _ => true

/-! ## The locks -/

def MonitorPc.levels : MonitorPc → Nat → Nat
  | .lockAll i, k | .unlockAll i _, k => if k < i then 1 else 0
  | .handling i, k | .draining i, k | .unlockOne i, k => if k = i then 1 else 0
  | _, _ => 0

def HandshakePc.locked : HandshakePc → Bool
  | .mark | .clear | .signal | .unlock | .finish | .leave => true
  | _ => false

/-- The levels that the caller holds through the handshake. -/
def Purpose.base : Purpose → Nat
  | .detach .failedLaunch _ => 2
  | .detach _ _ => 1
  | .close => 0

def ServerPc.context : ServerPc → Option (Nat × Nat)
  | .idle | .packet _ _ => none
  | .handle k _ _ | .launch k _ _ | .endPacket k _ | .leavePacket k _ => some (k, 1)
  | .launching k _ _ | .launched k _ => some (k, 2)
  | .handshake pc k purpose => some (k, purpose.base + if pc.locked then 1 else 0)

def ServerPc.levels (pc : ServerPc) (k : Nat) : Nat :=
  match pc.context with
  | some (j, n) => if k = j then n else 0
  | none => 0

def Debugger.levels (s : Debugger) : Thread → Nat → Nat
  | .monitor => s.monitor.levels
  | .server => s.server.levels

theorem ServerPc.levels_of_context {pc : ServerPc} {k n : Nat} (h : pc.context = some (k, n))
    (j : Nat) : pc.levels j = if j = k then n else 0 := by
  simp only [levels, h]

/-! ## The debug handles -/

/-- The monitor waits for the handle in the place of context `i`, or will. -/
def Debugger.Uses (s : Debugger) (i h : Nat) : Prop :=
  (s.ctxs i).eventToWaitFor = .debug (some h) ∨
    ∃ handles, s.monitor.handles = some handles ∧ handles i = .debug (some h)

/-- A debug handle that is held or used is open, and used for the context that holds it only. -/
structure Owned (s : Debugger) : Prop where
  held : ∀ i h, (s.ctxs i).debug = some h → h < s.nextHandle ∧ h ∉ s.closed
  used : ∀ i h, s.Uses i h → h < s.nextHandle ∧ h ∉ s.closed
  owner : ∀ i j h, (s.ctxs i).debug = some h → (s.ctxs j).debug = some h ∨ s.Uses j h → i = j
  closed : ∀ h, h ∈ s.closed → h < s.nextHandle

/-- A client is served in a connected state only. -/
def Connected (s : Debugger) : Prop :=
  ∀ k, (s.ctxs k).used = true → (s.ctxs k).state ≠ .disconnected

theorem Owned.of_fewer {s t : Debugger} (hs : Owned s) (hclosed : t.closed = s.closed)
    (hnext : t.nextHandle = s.nextHandle)
    (hheld : ∀ i h, (t.ctxs i).debug = some h → (s.ctxs i).debug = some h)
    (hused : ∀ i h, t.Uses i h → s.Uses i h ∨ (s.ctxs i).debug = some h) : Owned t where
  held i h hi := hclosed ▸ hnext ▸ hs.held i h (hheld i h hi)
  used i h hi := by
    rw [hclosed, hnext]
    rcases hused i h hi with hi | hi
    · exact hs.used i h hi
    · exact hs.held i h hi
  owner i j h hi hj := by
    apply hs.owner i j h (hheld i h hi)
    rcases hj with hj | hj
    · exact .inl (hheld j h hj)
    · exact (hused j h hj).symm
  closed h hh := hnext ▸ hs.closed h (hclosed ▸ hh)

theorem Owned.openDebug {s : Debugger} (hs : Owned s) (k : Nat) : Owned (s.openDebug k) := by
  have hfresh : s.nextHandle ∉ s.closed := fun hh => lt_irrefl _ (hs.closed _ hh)
  have hheld : ∀ i h, ((s.openDebug k).ctxs i).debug = some h →
      i = k ∧ h = s.nextHandle ∨ (s.ctxs i).debug = some h := by
    intro i h hi
    rcases eq_or_ne i k with rfl | hik
    · exact .inl ⟨rfl, by simpa [Debugger.openDebug, Debugger.setCtx, eq_comm] using hi⟩
    · exact .inr (by simpa [Debugger.openDebug, Debugger.setCtx, hik] using hi)
  have hused : ∀ i h, (s.openDebug k).Uses i h → s.Uses i h := by
    intro i h hi
    apply hi.imp_left
    intro hi
    rcases eq_or_ne i k with rfl | hik
    · simpa [Debugger.openDebug, Debugger.setCtx] using hi
    · simpa [Debugger.openDebug, Debugger.setCtx, hik] using hi
  constructor
  case held =>
    intro i h hi
    rcases hheld i h hi with ⟨-, rfl⟩ | hi
    · exact ⟨Nat.lt_succ_self _, hfresh⟩
    · exact ⟨Nat.lt_succ_of_lt (hs.held i h hi).1, (hs.held i h hi).2⟩
  case used =>
    intro i h hi
    have hi := hs.used i h (hused i h hi)
    exact ⟨Nat.lt_succ_of_lt hi.1, hi.2⟩
  case owner =>
    intro i j h hi hj
    have hold : (s.ctxs j).debug = some h ∨ s.Uses j h → h < s.nextHandle :=
      Or.rec (fun hj => (hs.held j h hj).1) fun hj => (hs.used j h hj).1
    rcases hheld i h hi with ⟨rfl, rfl⟩ | hi
    · rcases hj with hj | hj
      · rcases hheld j _ hj with ⟨rfl, -⟩ | hj
        · rfl
        · exact absurd (hold (.inl hj)) (lt_irrefl _)
      · exact absurd (hold (.inr (hused j _ hj))) (lt_irrefl _)
    · rcases hj with hj | hj
      · rcases hheld j h hj with ⟨-, rfl⟩ | hj
        · exact absurd (hs.held i _ hi).1 (lt_irrefl _)
        · exact hs.owner i j h hi (.inl hj)
      · exact hs.owner i j h hi (.inr (hused j h hj))
  case closed =>
    intro h hh
    exact Nat.lt_succ_of_lt (hs.closed h hh)

/-- The monitor has not copied a debug handle for context `k`. -/
def Debugger.Cleared (s : Debugger) (k : Nat) : Prop :=
  ∀ handles, s.monitor.handles = some handles → ∀ h, handles k ≠ .debug h

theorem Owned.detachFromProcess {s : Debugger} (hs : Owned s) {k : Nat} (hclear : s.Cleared k) :
    Owned (s.detachFromProcess k) := by
  have hheld : ∀ i h, ((s.detachFromProcess k).ctxs i).debug = some h →
      i ≠ k ∧ (s.ctxs i).debug = some h := by
    intro i h hi
    rcases eq_or_ne i k with rfl | hik
    · simp [Debugger.detachFromProcess, Debugger.setCtx] at hi
    · exact ⟨hik, by simpa [Debugger.detachFromProcess, Debugger.setCtx, hik] using hi⟩
  have hused : ∀ i h, (s.detachFromProcess k).Uses i h → i ≠ k ∧ s.Uses i h := by
    intro i h hi
    rcases eq_or_ne i k with rfl | hik
    · rcases hi with hi | ⟨handles, hhandles, hi⟩
      · simp [Debugger.detachFromProcess, Debugger.setCtx] at hi
      · exact absurd hi (hclear handles hhandles _)
    · refine ⟨hik, hi.imp_left fun hi => ?_⟩
      simpa [Debugger.detachFromProcess, Debugger.setCtx, hik] using hi
  have hclosed : ∀ h, h ∈ (s.detachFromProcess k).closed ↔
      (s.ctxs k).debug = some h ∨ h ∈ s.closed := by
    intro h
    simp [Debugger.detachFromProcess]
  constructor
  case held =>
    intro i h hi
    obtain ⟨hik, hi⟩ := hheld i h hi
    refine ⟨(hs.held i h hi).1, fun hh => ?_⟩
    rcases (hclosed h).mp hh with hk | hh
    · exact hik (hs.owner k i h hk (.inl hi)).symm
    · exact (hs.held i h hi).2 hh
  case used =>
    intro i h hi
    obtain ⟨hik, hi⟩ := hused i h hi
    refine ⟨(hs.used i h hi).1, fun hh => ?_⟩
    rcases (hclosed h).mp hh with hk | hh
    · exact hik (hs.owner k i h hk (.inr hi)).symm
    · exact (hs.used i h hi).2 hh
  case owner =>
    intro i j h hi hj
    exact hs.owner i j h (hheld i h hi).2
      (hj.imp (fun hj => (hheld j h hj).2) fun hj => (hused j h hj).2)
  case closed =>
    intro h hh
    rcases (hclosed h).mp hh with hk | hh
    · exact (hs.held k h hk).1
    · exact hs.closed h hh

/-! ## Operations that leave the locks alone -/

/-- A change of the contexts, at most with the monitor woken. -/
structure Work (s t : Debugger) : Prop where
  locks : t.locks = s.locks
  server : t.server = s.server
  monitor : t.monitor.levels = s.monitor.levels
  owned : Owned s → Owned t
  connected : Connected s → Connected t

theorem Work.refl (s : Debugger) : Work s s := ⟨rfl, rfl, rfl, id, id⟩

theorem Work.trans {s t u : Debugger} (h : Work s t) (h' : Work t u) : Work s u where
  locks := h'.locks.trans h.locks
  server := h'.server.trans h.server
  monitor := h'.monitor.trans h.monitor
  owned hs := h'.owned (h.owned hs)
  connected hs := h'.connected (h.connected hs)

theorem Debugger.setCtx_work (s : Debugger) (k : Nat) (ctx : Context)
    (hdebug : ∀ h, ctx.debug = some h → (s.ctxs k).debug = some h)
    (hevent : ∀ h, ctx.eventToWaitFor = .debug (some h) →
      (s.ctxs k).eventToWaitFor = .debug (some h) ∨ (s.ctxs k).debug = some h)
    (hused : ctx.used = true → ctx.state ≠ .disconnected ∨
      (s.ctxs k).used = true ∧ ctx.state = (s.ctxs k).state) :
    Work s (s.setCtx k ctx) where
  locks := rfl
  server := rfl
  monitor := rfl
  owned hs := by
    refine hs.of_fewer (t := s.setCtx k ctx) rfl rfl ?_ ?_
    · intro i h hi
      rcases eq_or_ne i k with rfl | hik
      · exact hdebug h (by simpa [setCtx] using hi)
      · simpa [setCtx, hik] using hi
    · intro i h hi
      rcases hi with hi | hi
      · rcases eq_or_ne i k with rfl | hik
        · exact (hevent h (by simpa [setCtx] using hi)).imp_left .inl
        · exact .inl (.inl (by simpa [setCtx, hik] using hi))
      · exact .inl (.inr hi)
  connected hs i hi := by
    rcases eq_or_ne i k with rfl | hik
    · rw [show (s.setCtx i ctx).ctxs i = ctx from Function.update_self ..] at hi ⊢
      rcases hused hi with hlive | ⟨hwas, hsame⟩
      · exact hlive
      · exact hsame ▸ hs i hwas
    · rw [show (s.setCtx k ctx).ctxs i = s.ctxs i from Function.update_of_ne hik ..] at hi ⊢
      exact hs i hi

theorem Debugger.openDebug_work (s : Debugger) (k : Nat) : Work s (s.openDebug k) where
  locks := rfl
  server := rfl
  monitor := rfl
  owned hs := hs.openDebug k
  connected hs i hi := by
    rcases eq_or_ne i k with rfl | hik
    · simpa [openDebug, setCtx] using hs i (by simpa [openDebug, setCtx] using hi)
    · simpa [openDebug, setCtx, hik] using hs i (by simpa [openDebug, setCtx, hik] using hi)

/-! ## Waking the monitor -/

/-- The wait of the monitor ends. -/
structure Woken (s t : Debugger) : Prop where
  work : Work s t
  received : t.statusUpdateReceived = s.statusUpdateReceived
  event : ∀ i, (t.ctxs i).eventToWaitFor = (s.ctxs i).eventToWaitFor
  used : ∀ i, (t.ctxs i).used = (s.ctxs i).used
  monitor : t.monitor.handles = none

theorem Woken.of_ctx {s t : Debugger} (hlocks : t.locks = s.locks) (hserver : t.server = s.server)
    (hlevels : t.monitor.levels = s.monitor.levels) (hclosed : t.closed = s.closed)
    (hnext : t.nextHandle = s.nextHandle)
    (hreceived : t.statusUpdateReceived = s.statusUpdateReceived)
    (hctx : ∀ i, ∃ continued, t.ctxs i = { s.ctxs i with continued })
    (hmonitor : t.monitor.handles = none) : Woken s t where
  work := by
    refine ⟨hlocks, hserver, hlevels, fun hs => hs.of_fewer hclosed hnext ?_ ?_, ?_⟩
    · intro i h hi
      obtain ⟨_, hti⟩ := hctx i
      rwa [hti] at hi
    · rintro i h (hi | ⟨_, hsome, _⟩)
      · obtain ⟨_, hti⟩ := hctx i
        rw [hti] at hi
        exact .inl (.inl hi)
      · exact absurd (hmonitor.symm.trans hsome) nofun
    · intro hs i hi
      obtain ⟨_, hti⟩ := hctx i
      rw [hti] at hi ⊢
      exact hs i hi
  received := hreceived
  event i := by
    obtain ⟨_, hti⟩ := hctx i
    rw [hti]
  used i := by
    obtain ⟨_, hti⟩ := hctx i
    rw [hti]
  monitor := hmonitor

theorem Debugger.wake_woken {s : Debugger} (hpc : s.monitor.levels = fun _ => 0)
    (handles : Handles) (w : Wake) : Woken s (s.wake handles w) := by
  cases w with
  | terminate => exact Woken.of_ctx rfl rfl hpc.symm rfl rfl rfl (fun i => ⟨_, rfl⟩) rfl
  | update => exact Woken.of_ctx rfl rfl hpc.symm rfl rfl rfl (fun i => ⟨_, rfl⟩) rfl
  | context j =>
    refine Woken.of_ctx (t := s.wake handles (.context j)) rfl rfl hpc.symm rfl rfl rfl
      (fun i => ?_) rfl
    rcases eq_or_ne i j with rfl | hij
    · exact ⟨_, Function.update_self ..⟩
    · exact ⟨(s.ctxs i).continued, Function.update_of_ne hij ..⟩

theorem Debugger.notify_eq (s : Debugger) : s.notify = s ∨
    ∃ handles w, s.monitor = .waiting handles ∧ s.firstSignaled handles = some w ∧
      s.notify = s.wake handles w := by
  cases hpc : s.monitor with
  | waiting handles =>
    cases hw : s.firstSignaled handles with
    | none =>
      left
      simp only [notify, hpc, enterWait, hw, gotoMonitor]
      rw [← hpc]
    | some w => exact .inr ⟨handles, w, rfl, hw, by simp only [notify, hpc, enterWait, hw]⟩
  | _ => exact .inl (by simp only [notify, hpc])

theorem Debugger.notify_work (s : Debugger) : Work s s.notify := by
  rcases s.notify_eq with hsame | ⟨handles, w, hpc, -, hwake⟩
  · rw [hsame]
    exact .refl s
  · rw [hwake]
    exact (wake_woken (hpc ▸ rfl) handles w).work

/-! ## Attaching and launching -/

theorem Debugger.attachToProcess_work (s : Debugger) (k : Nat) (ok : Bool) :
    Work s (s.attachToProcess k ok).1 := by
  have hopen : Work s (if (s.ctxs k).attachedAtStart then s
      else if ok then s.openDebug k else s.setCtx k { s.ctxs k with debug := none }) := by
    split_ifs
    · exact .refl s
    · exact s.openDebug_work k
    · exact s.setCtx_work k _ nofun (fun h hh => .inl hh) (fun h => .inr ⟨h, rfl⟩)
  cases ok with
  | false => exact hopen
  | true =>
    apply (hopen.trans _).trans (notify_work _)
    exact setCtx_work _ k _ (fun h hh => hh) (fun h hh => .inl hh) (fun _ => .inl nofun)

theorem Debugger.createProcess_work (s : Debugger) (k : Nat) (w : Answers) :
    Work s (s.createProcess k w).1 := by
  have hleft : Work s (s.setCtx k { s.ctxs k with debug := none }) :=
    s.setCtx_work k _ nofun (fun h hh => .inl hh) (fun h => .inr ⟨h, rfl⟩)
  unfold createProcess
  split
  · apply hleft.trans
    apply ((setCtx_work _ k _ _ _ _).trans (openDebug_work _ k)).trans
      (attachToProcess_work _ k w.attached)
    · exact fun h hh => hh
    · exact fun h hh => .inl hh
    · exact fun h => .inr ⟨h, rfl⟩
  · exact hleft

end Presence3DS.Gdb.Monitor
