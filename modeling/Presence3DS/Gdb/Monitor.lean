import Presence3DS.Lib.RecursiveLock
import Presence3DS.Lib.Runs

/-! The monitor thread of the debugger beside the server thread: `GDB_RunMonitor`, `GDB_DoPacket`
with the commands that detach and launch, `GDB_CloseClient`, and the debug events between them.
A step of a thread is one operation on what the threads share. -/

namespace Presence3DS.Gdb.Monitor

/-- `MAX_DEBUG` -/
def maxDebug : Nat := 3

inductive Thread where
  | monitor
  | server
deriving DecidableEq

inductive GdbState where
  | disconnected
  | connected
  | attached
  | detaching
deriving DecidableEq

/-- What `eventToWaitFor` holds: one of the two events of the context, or a debug handle. -/
inductive Event where
  | processAttached
  | continued
  | debug (handle : Option Nat)
deriving DecidableEq

structure Context where
  state : GdbState
  used : Bool
  selected : Bool
  extendedRemote : Bool
  attachedAtStart : Bool
  created : Bool
  processContinuing : Bool
  /-- The handle 0 is `none`. -/
  debug : Option Nat
  eventToWaitFor : Event
  /-- Whether `processAttachedEvent`, a sticky event, is signaled. -/
  processAttached : Bool
  /-- Whether `continuedEvent`, a one-shot event, is signaled. -/
  continued : Bool

/-- `flags &= GDB_FLAG_PROC_RESTART_MASK` -/
def Context.restartFlags (ctx : Context) : Context :=
  { ctx with
    selected := false
    attachedAtStart := false
    created := false
    processContinuing := false }

/-- The handles of the contexts that the monitor copied under their locks. -/
abbrev Handles := Nat → Event

inductive MonitorPc where
  | notStarted
  | lockAll (i : Nat)
  | unlockAll (i : Nat) (handles : Handles)
  | waitEntry (handles : Handles)
  | waiting (handles : Handles)
  /-- Woken by `statusUpdated`. -/
  | updated
  | lockOne (i : Nat)
  | handling (i : Nat)
  /-- The process of the context has ended: its remaining events are fetched. -/
  | draining (i : Nat)
  | unlockOne (i : Nat)
  /-- Out of the loop, the reference of the monitor not given back. -/
  | leaving
  | stopped

/-- A command that its own checks refuse is `other`, as is one that never detaches or launches. -/
inductive Command where
  | detach
  | kill
  | verboseKill
  | restart
  | run
  | attach
  | enableExtendedMode
  /-- `continuing` is the flag as the command leaves it. -/
  | other (continuing : Bool)
deriving DecidableEq

/-- What the caller of `GDB_DetachImmediatelyExtended` does next. -/
inductive AfterDetach where
  | reply
  | restart
  /-- The caller has locked the context once more, for a launch that failed. -/
  | failedLaunch
deriving DecidableEq

/-- What the threads exchange `statusUpdated` and `statusUpdateReceived` for. -/
inductive Purpose where
  /-- `continuing` is the flag before the packet. -/
  | detach (after : AfterDetach) (continuing : Bool)
  | close
deriving DecidableEq

inductive HandshakePc where
  | lock
  | mark
  | clear
  | signal
  | unlock
  | check
  | await
  | relock
  | finish
  | leave
deriving DecidableEq

inductive ServerPc where
  | idle
  | packet (k : Nat) (command : Command)
  | handle (k : Nat) (command : Command) (continuing : Bool)
  | handshake (pc : HandshakePc) (k : Nat) (purpose : Purpose)
  | launch (k : Nat) (command : Command) (continuing : Bool)
  | launching (k : Nat) (command : Command) (continuing : Bool)
  | launched (k : Nat) (continuing : Bool)
  | endPacket (k : Nat) (continuing : Bool)
  | leavePacket (k : Nat) (close : Bool)

structure Debugger where
  ctxs : Nat → Context
  locks : Nat → RecursiveLock Thread
  /-- Whether `statusUpdated`, a one-shot event, is signaled. -/
  statusUpdated : Bool
  /-- Whether `statusUpdateReceived`, a sticky event, is signaled. -/
  statusUpdateReceived : Bool
  /-- Whether one of the two events that end the threads is signaled. -/
  terminating : Bool
  /-- Whether the condition of the loop of the monitor is false. -/
  halted : Bool
  nextHandle : Nat
  closed : List Nat
  /-- The debug events that nobody has fetched yet. -/
  pending : Nat → Nat
  monitor : MonitorPc
  server : ServerPc

/-- What becomes of a debug event in `GDB_HandleDebugEvents`: the stop is reported (the reply was
sent, or not), the process has ended, or the process continues by itself. -/
inductive EventResult where
  | stopped (sent : Bool)
  | ended
  | continued
deriving DecidableEq

/-- What the process manager, the kernel and the socket answer in a step of the server. -/
structure Answers where
  launched : Bool
  attached : Bool
  broken : Bool
  /-- The handler returned -1. -/
  failed : Bool

inductive Wake where
  | terminate
  | update
  | context (i : Nat)

namespace Debugger

def setCtx (s : Debugger) (k : Nat) (ctx : Context) : Debugger :=
  { s with ctxs := Function.update s.ctxs k ctx }

def lock (s : Debugger) (p : Thread) (k : Nat) : Option Debugger :=
  (RecursiveLock.lockAt p k s.locks).map fun locks => { s with locks }

def unlock (s : Debugger) (k : Nat) : Debugger :=
  { s with locks := RecursiveLock.unlockAt k s.locks }

def gotoMonitor (s : Debugger) (pc : MonitorPc) : Debugger := { s with monitor := pc }

def gotoServer (s : Debugger) (pc : ServerPc) : Debugger := { s with server := pc }

/-! ## The wait of the monitor -/

def signaled (s : Debugger) (i : Nat) : Event → Bool
  | .processAttached => (s.ctxs i).processAttached
  | .continued => (s.ctxs i).continued
  | .debug handle => handle.any fun h => 0 < s.pending h

/-- The first of the objects that is signaled, in their order in the array. -/
def firstSignaled (s : Debugger) (handles : Handles) : Option Wake :=
  if s.terminating then some .terminate
  else if s.statusUpdated then some .update
  else ((List.range maxDebug).find? fun i => s.signaled i (handles i)).map .context

/-- The wait ends, and takes the signal of a one-shot event. -/
def wake (s : Debugger) (handles : Handles) : Wake → Debugger
  | .terminate => s.gotoMonitor .leaving
  | .update => { s with statusUpdated := false, monitor := .updated }
  | .context i =>
    let ctx := s.ctxs i
    (s.setCtx i { ctx with continued := ctx.continued && handles i ≠ .continued }).gotoMonitor
      (.lockOne i)

def enterWait (s : Debugger) (handles : Handles) : Debugger :=
  match s.firstSignaled handles with
  | some w => s.wake handles w
  | none => s.gotoMonitor (.waiting handles)

/-- An object was signaled: the kernel wakes the monitor if it waits for it. -/
def notify (s : Debugger) : Debugger :=
  match s.monitor with
  | .waiting handles => s.enterWait handles
  | _ => s

/-- The kernel refuses to wait when one of the handles is none or closed. -/
def validHandles (s : Debugger) (handles : Handles) : Bool :=
  (List.range maxDebug).all fun i =>
    match handles i with
    | .debug handle => handle.any fun h => h ∉ s.closed
    | _ => true

/-! ## Processes -/

/-- `GDB_DetachFromProcess` -/
def detachFromProcess (s : Debugger) (k : Nat) : Debugger :=
  let ctx := s.ctxs k
  { s.setCtx k { ctx with debug := none, eventToWaitFor := .processAttached } with
    closed := ctx.debug.toList ++ s.closed }

def openDebug (s : Debugger) (k : Nat) : Debugger :=
  { s.setCtx k { s.ctxs k with debug := some s.nextHandle } with
    nextHandle := s.nextHandle + 1 }

/-- `GDB_AttachToProcess`; a failing `svcDebugActiveProcess` leaves no handle. -/
def attachToProcess (s : Debugger) (k : Nat) (ok : Bool) : Debugger × Bool :=
  let t :=
    if (s.ctxs k).attachedAtStart then s
    else if ok then s.openDebug k
    else s.setCtx k { s.ctxs k with debug := none }
  if ok then
    ((t.setCtx k { t.ctxs k with processAttached := true, state := .attached }).notify, true)
  else (t, false)

/-- `GDB_CreateProcess` -/
def createProcess (s : Debugger) (k : Nat) (w : Answers) : Debugger × Bool :=
  let t := s.setCtx k { s.ctxs k with debug := none }
  if w.launched then
    let u := t.setCtx k { t.ctxs k with created := true, attachedAtStart := true }
    (u.openDebug k).attachToProcess k w.attached
  else (t, false)

/-- `GDB_HandleDebugEvents`; `none` where it fetches no event. -/
def handleDebugEvents (s : Debugger) (i : Nat) (event : EventResult) :
    Debugger × Option EventResult :=
  let ctx := s.ctxs i
  if ctx.state = .detaching then (s, none)
  else match ctx.debug with
    | none => (s, none)
    | some h =>
      if s.pending h = 0 then (s, none)
      else
        let t := { s with pending := Function.update s.pending h (s.pending h - 1) }
        match event with
        | .stopped sent =>
          (t.setCtx i { ctx with processContinuing := false }, some (.stopped sent))
        | _ => (t, some event)

/-! ## `GDB_RunMonitor` -/

/-- The condition of the loop, where an iteration ends. -/
def endLoop (s : Debugger) : Debugger := s.gotoMonitor (if s.halted then .leaving else .lockAll 0)

def setEvent (s : Debugger) (i : Nat) (event : Event) : Debugger :=
  s.setCtx i { s.ctxs i with eventToWaitFor := event }

/-- The event is cleared, and waited for from now on. -/
def resetAttached (s : Debugger) (i : Nat) : Debugger :=
  s.setCtx i { s.ctxs i with processAttached := false, eventToWaitFor := .processAttached }

/-- The context is neither disconnected nor detaching. -/
def live (s : Debugger) (i : Nat) : Bool :=
  (s.ctxs i).state ≠ .disconnected && (s.ctxs i).state ≠ .detaching

/-- What the monitor does with the context whose event woke it. -/
def handleSignaled (s : Debugger) (i : Nat) (event : EventResult) : Debugger :=
  if s.live i then
    match (s.ctxs i).eventToWaitFor with
    | .processAttached => (s.setEvent i .continued).gotoMonitor (.unlockOne i)
    | .continued => (s.setEvent i (.debug (s.ctxs i).debug)).gotoMonitor (.unlockOne i)
    | .debug _ =>
      let (t, result) := s.handleDebugEvents i event
      match result with
      | some (.stopped true) => (t.setEvent i .continued).gotoMonitor (.unlockOne i)
      | some .ended => t.gotoMonitor (.draining i)
      | _ => t.gotoMonitor (.unlockOne i)
  else (s.resetAttached i).gotoMonitor (.unlockOne i)

/-- Fetches one of the remaining events of a process that has ended, or finds that none is left;
in extended mode the process is then detached from. -/
def drain (s : Debugger) (i : Nat) (event : EventResult) : Debugger :=
  let (t, result) := s.handleDebugEvents i event
  match result with
  | none | some (.stopped false) =>
    let u :=
      if (t.ctxs i).extendedRemote then
        let v := (t.setCtx i { t.ctxs i with state := .detaching }).detachFromProcess i
        v.setCtx i (v.ctxs i).restartFlags
      else t
    (u.resetAttached i).gotoMonitor (.unlockOne i)
  | _ => t

def monitorStep (s : Debugger) (event : EventResult) : Option Debugger :=
  match s.monitor with
  | .notStarted => some (s.gotoMonitor (.lockAll 0))
  | .lockAll i =>
    if i = maxDebug then
      some (s.gotoMonitor (.unlockAll maxDebug fun j => (s.ctxs j).eventToWaitFor))
    else (s.lock .monitor i).map fun t => t.gotoMonitor (.lockAll (i + 1))
  | .unlockAll 0 handles => some (s.gotoMonitor (.waitEntry handles))
  | .unlockAll (i + 1) handles => some ((s.unlock i).gotoMonitor (.unlockAll i handles))
  | .waitEntry handles =>
    if s.validHandles handles then some (s.enterWait handles) else some (s.gotoMonitor .leaving)
  | .waiting _ => none
  | .updated => some { s with statusUpdateReceived := true }.endLoop
  | .lockOne i => (s.lock .monitor i).map fun t => t.gotoMonitor (.handling i)
  | .handling i => some (s.handleSignaled i event)
  | .draining i => some (s.drain i event)
  | .unlockOne i => some (s.unlock i).endLoop
  | .leaving => some (s.gotoMonitor .stopped)
  | .stopped => none

/-! ## `GDB_DetachImmediatelyExtended` and `GDB_CloseClient` -/

/-- `referenceCount ≥ 2`: the server's own reference and that of a running monitor. -/
def monitorCounted (s : Debugger) : Bool :=
  match s.monitor with
  | .notStarted | .stopped => false
  | _ => true

/-- The second locked section, where the process is detached from. -/
def finish (s : Debugger) (k : Nat) : Purpose → Debugger
  | .detach _ _ =>
    let t := s.detachFromProcess k
    t.setCtx k (t.ctxs k).restartFlags
  | .close =>
    let ctx := s.ctxs k
    let t :=
      if ctx.state = .attached ∨ ctx.state = .detaching ∨ ctx.debug ≠ none then
        s.detachFromProcess k
      else s
    t.setCtx k { (t.ctxs k).restartFlags with
      used := false
      extendedRemote := false
      state := .disconnected }

/-- Where the server goes on after the handshake. -/
def afterHandshake (k : Nat) : Purpose → ServerPc
  | .detach .reply continuing => .endPacket k continuing
  | .detach .restart continuing => .launch k .restart continuing
  | .detach .failedLaunch continuing => .launched k continuing
  | .close => .idle

def handshakeStep (s : Debugger) (pc : HandshakePc) (k : Nat) (purpose : Purpose) :
    Option Debugger :=
  let next (t : Debugger) (pc : HandshakePc) : Debugger := t.gotoServer (.handshake pc k purpose)
  match pc with
  | .lock => (s.lock .server k).map fun t => next t .mark
  | .mark =>
    let ctx := s.ctxs k
    let state := if purpose = .close then ctx.state else .detaching
    some (next ((s.setCtx k { ctx with state }).resetAttached k) .clear)
  | .clear => some (next { s with statusUpdateReceived := false } .signal)
  | .signal => some (next { s with statusUpdated := true }.notify .unlock)
  | .unlock => some (next (s.unlock k) (if purpose = .close then .check else .await))
  | .check => some (next s (if s.monitorCounted then .await else .relock))
  | .await => if s.statusUpdateReceived then some (next s .relock) else none
  | .relock => (s.lock .server k).map fun t => next t .finish
  | .finish => some (next (s.finish k purpose) .leave)
  | .leave => some ((s.unlock k).gotoServer (afterHandshake k purpose))

/-! ## `GDB_DoPacket` -/

/-- The handler of the command, before it takes the lock again. -/
def handleCommand (s : Debugger) (k : Nat) (command : Command) (continuing : Bool) : Debugger :=
  let ctx := s.ctxs k
  match command with
  | .detach | .kill | .verboseKill =>
    let t := s.setCtx k { ctx with state := .detaching }
    if ctx.extendedRemote then t.gotoServer (.handshake .lock k (.detach .reply continuing))
    else t.gotoServer (.endPacket k continuing)
  | .restart =>
    if ctx.extendedRemote ∧ ctx.created then
      s.gotoServer (.handshake .lock k (.detach .restart continuing))
    else s.gotoServer (.endPacket k continuing)
  | .run | .attach =>
    if ctx.extendedRemote then s.gotoServer (.launch k command continuing)
    else s.gotoServer (.endPacket k continuing)
  | .enableExtendedMode =>
    (s.setCtx k { ctx with extendedRemote := true }).gotoServer (.endPacket k continuing)
  | .other processContinuing =>
    (s.setCtx k { ctx with processContinuing }).gotoServer (.endPacket k continuing)

/-- The launch or the attach of a handler; a failing attach is always detached from, a failing
launch when it left a debug handle. -/
def launchStep (s : Debugger) (k : Nat) (command : Command) (continuing : Bool) (w : Answers) :
    Debugger :=
  let (t, ok) :=
    if command = .attach then s.attachToProcess k w.attached else s.createProcess k w
  if ok ∨ (command ≠ .attach ∧ (t.ctxs k).debug = none) then t.gotoServer (.launched k continuing)
  else t.gotoServer (.handshake .lock k (.detach .failedLaunch continuing))

/-- The end of a packet; `continuing` is the flag before it. -/
def endPacket (s : Debugger) (k : Nat) (continuing : Bool) (w : Answers) : Debugger :=
  let ctx := s.ctxs k
  if ctx.state = .detaching then
    if ctx.extendedRemote then
      (s.setCtx k { ctx with state := .connected }).gotoServer (.leavePacket k w.failed)
    else s.gotoServer (.leavePacket k true)
  else if continuing && !ctx.processContinuing then
    -- a process that could not be stopped continues
    (s.setCtx k { ctx with processContinuing := !w.broken }).gotoServer (.leavePacket k w.failed)
  else if !continuing && ctx.processContinuing then
    (s.setCtx k { ctx with continued := true }).notify.gotoServer (.leavePacket k w.failed)
  else s.gotoServer (.leavePacket k w.failed)

def serverStep (s : Debugger) (w : Answers) : Option Debugger :=
  match s.server with
  | .idle => none
  | .packet k command =>
    (s.lock .server k).map fun t =>
      -- the early return leaves the context locked
      if (s.ctxs k).state = .disconnected then t.gotoServer (.handshake .lock k .close)
      else t.gotoServer (.handle k command (s.ctxs k).processContinuing)
  | .handle k command continuing => some (s.handleCommand k command continuing)
  | .handshake pc k purpose => s.handshakeStep pc k purpose
  | .launch k command continuing =>
    (s.lock .server k).map fun t => t.gotoServer (.launching k command continuing)
  | .launching k command continuing => some (s.launchStep k command continuing w)
  | .launched k continuing => some ((s.unlock k).gotoServer (.endPacket k continuing))
  | .endPacket k continuing => some (s.endPacket k continuing w)
  | .leavePacket k close =>
    some ((s.unlock k).gotoServer (if close then .handshake .lock k .close else .idle))

def serverIdle (s : Debugger) : Bool :=
  match s.server with
  | .idle => true
  | _ => false

/-- Nobody holds the lock of a context, so all of them can be taken at once. -/
def allFree (s : Debugger) : Bool := (List.range maxDebug).all fun i => (s.locks i).isFree

/-- `GDB_GetClient` and `GDB_AcceptClient`, which hold the locks they take until they are through
and wait for nobody. -/
def acceptClient (s : Debugger) (k : Nat) (ok : Bool) : Debugger :=
  let ctx := s.ctxs k
  let t := s.setCtx k { ctx with used := true, state := .connected }
  if ctx.selected then
    let (u, attached) := t.attachToProcess k ok
    if attached then u else u.gotoServer (.handshake .lock k .close)
  else t

/-- The menus select a process, or the next application with the debug handle of its launch. -/
def select (s : Debugger) (k : Nat) (launched : Bool) : Debugger :=
  let t := s.setCtx k { s.ctxs k with selected := true }
  if launched then (t.setCtx k { t.ctxs k with attachedAtStart := true }).openDebug k else t

end Debugger

inductive Action where
  | monitor (event : EventResult)
  | server (w : Answers)
  | accept (k : Nat) (attached : Bool)
  | receive (k : Nat) (command : Command)
  /-- The connection is lost, or is to be closed. -/
  | hangUp (k : Nat)
  | select (k : Nat) (launched : Bool)
  | debugEvent (handle : Nat)
  | terminate
  | halt

def step (s : Debugger) : Action → Option Debugger
  | .monitor event => s.monitorStep event
  | .server w => s.serverStep w
  | .accept k attached =>
    if s.serverIdle ∧ s.allFree ∧ k < maxDebug ∧ (s.ctxs k).used = false then
      some (s.acceptClient k attached)
    else none
  | .receive k command =>
    if s.serverIdle ∧ (s.ctxs k).used then some (s.gotoServer (.packet k command)) else none
  | .hangUp k =>
    if s.serverIdle ∧ (s.ctxs k).used then some (s.gotoServer (.handshake .lock k .close))
    else none
  | .select k launched =>
    if s.allFree ∧ k < maxDebug ∧ (s.ctxs k).used = false ∧ (s.ctxs k).selected = false then
      some (s.select k launched)
    else none
  | .debugEvent h =>
    if h < s.nextHandle ∧ h ∉ s.closed then
      some { s with pending := Function.update s.pending h (s.pending h + 1) }.notify
    else none
  | .terminate => some { s with terminating := true }.notify
  | .halt => some { s with halted := true }

/-- `GDB_InitializeContext` -/
def initialContext : Context where
  state := .disconnected
  used := false
  selected := false
  extendedRemote := false
  attachedAtStart := false
  created := false
  processContinuing := false
  debug := none
  eventToWaitFor := .processAttached
  processAttached := false
  continued := false

/-- `GDB_InitializeServer`, before the two threads have started. -/
def initial : Debugger where
  ctxs _ := initialContext
  locks _ := .free
  statusUpdated := false
  statusUpdateReceived := false
  terminating := false
  halted := false
  nextHandle := 1
  closed := []
  pending _ := 0
  monitor := .notStarted
  server := .idle

end Presence3DS.Gdb.Monitor
