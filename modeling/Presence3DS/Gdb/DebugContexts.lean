import Presence3DS.Gdb.Monitor

/-! The contexts of the debug server (`server.c`, `gdb.c`, `debug.c`): how they are selected,
attached, served and closed, and what becomes of their flags and of their locks. -/

namespace Presence3DS.Gdb.DebugContexts
open Monitor (GdbState maxDebug)
open RecursiveLock Runs

inductive Party where
  | server
  | menu
deriving DecidableEq

abbrev flagSelected : UInt32 := 1
abbrev flagUsed : UInt32 := 2
abbrev flagAllocatedMask : UInt32 := flagSelected ||| flagUsed
abbrev flagExtendedRemote : UInt32 := 4
abbrev flagNoAck : UInt32 := 8
abbrev flagProcRestartMask : UInt32 := flagNoAck ||| flagExtendedRemote ||| flagUsed
abbrev flagProcessContinuing : UInt32 := 16
abbrev flagTerminateProcess : UInt32 := 32
abbrev flagAttachedAtStart : UInt32 := 64
abbrev flagCreated : UInt32 := 128

abbrev gdbPortBase : UInt16 := 4000

abbrev Index := Fin maxDebug

structure GdbContext where
  flags : UInt32
  state : GdbState
  localPort : UInt16
  debug : UInt32
  noAckSent : Bool

namespace GdbContext

def has (ctx : GdbContext) (flag : UInt32) : Bool := ctx.flags &&& flag ≠ 0

def set (ctx : GdbContext) (flag : UInt32) : GdbContext :=
  { ctx with flags := ctx.flags ||| flag }

def clear (ctx : GdbContext) (flag : UInt32) : GdbContext :=
  { ctx with flags := ctx.flags &&& ~~~flag }

def isAllocated (ctx : GdbContext) : Bool := ctx.has flagAllocatedMask

end GdbContext

structure GdbServer where
  ctxs : Index → GdbContext
  locks : Index → RecursiveLock Party

/-- A step that has to wait for a lock has no result. -/
abbrev ServerM := StateT GdbServer Option

def lock (p : Party) (k : Index) : ServerM Unit :=
  fun s => (lockAt p k s.locks).map fun locks => ((), { s with locks })

def unlock (k : Index) : ServerM Unit :=
  fun s => some ((), { s with locks := unlockAt k s.locks })

def lockAllContexts (p : Party) : ServerM Unit :=
  fun s => (lockAllAt p (List.finRange maxDebug) s.locks).map fun locks => ((), { s with locks })

def unlockAllContexts : ServerM Unit :=
  fun s => some ((), { s with locks := unlockAllAt (List.finRange maxDebug) s.locks })

def getCtx (k : Index) : ServerM GdbContext := fun s => some (s.ctxs k, s)

def modifyCtx (k : Index) (f : GdbContext → GdbContext) : ServerM Unit :=
  fun s => some ((), { s with ctxs := Function.update s.ctxs k (f (s.ctxs k)) })

def onlyIf (c : Bool) (x : ServerM Unit) : ServerM Unit := if c then x else pure ()

/-! ## Selecting a context -/

def freeContext (s : GdbServer) : Option Index :=
  (List.finRange maxDebug).find? fun id => !(s.ctxs id).isAllocated

def portUsed (s : GdbServer) (port : UInt16) : Bool :=
  (List.finRange maxDebug).any fun id => (s.ctxs id).isAllocated && (s.ctxs id).localPort = port

def ports (minPort maxPort : UInt16) : List UInt16 :=
  (List.range (maxPort.toNat - minPort.toNat)).map fun i => minPort + UInt16.ofNat i

def freePort (s : GdbServer) (minPort maxPort : UInt16) : Option UInt16 :=
  (ports minPort maxPort).find? fun port => !portUsed s port

def selectAvailableContext (p : Party) (minPort maxPort : UInt16) : ServerM (Option Index) := do
  lockAllContexts p
  let s ← get
  match freeContext s with
  | none =>
    unlockAllContexts
    return none
  | some id =>
    match freePort s minPort maxPort with
    | none =>
      modifyCtx id fun ctx => { ctx with flags := ~~~flagSelected }
      unlockAllContexts
      return none
    | some port =>
      modifyCtx id fun ctx => { ctx.set flagSelected with localPort := port }
      unlockAllContexts
      return some id

/-- The context for a connection to a port; the wait for the next application is left out. -/
def getClient (p : Party) (port : UInt16) : ServerM (Option Index) := do
  lockAllContexts p
  let s ← get
  match (List.finRange maxDebug).find? fun id => (s.ctxs id).localPort = port with
  | some id =>
    if (s.ctxs id).has flagUsed then
      unlockAllContexts
      return none
    else
      modifyCtx id fun ctx => { ctx.set flagUsed with state := .connected }
      unlockAllContexts
      return some id
  | none =>
    if port ≥ gdbPortBase ∧ port < gdbPortBase + UInt16.ofNat maxDebug then
      match freeContext s with
      | none =>
        unlockAllContexts
        return none
      | some id =>
        modifyCtx id fun ctx => { ctx.set flagUsed with localPort := port, state := .connected }
        unlockAllContexts
        return some id
    else
      unlockAllContexts
      return none

/-! ## Attaching -/

/-- What the kernel answers: the debug handle, the events of a process that was started attached,
and the signal. -/
structure AttachAnswers where
  debug : Option UInt32
  events : Bool
  signaled : Bool

def debugActiveProcess (k : Index) (a : AttachAnswers) : ServerM Bool := do
  let ctx ← getCtx k
  if ctx.has flagAttachedAtStart then return a.events
  else match a.debug with
    | none =>
      modifyCtx k fun ctx => { ctx with debug := 0 }
      return false
    | some debug =>
      modifyCtx k fun ctx => { ctx with debug }
      return true

def attachToProcess (k : Index) (a : AttachAnswers) : ServerM Bool := do
  let started ← debugActiveProcess k a
  onlyIf (started && a.signaled) (modifyCtx k fun ctx => { ctx with state := .attached })
  return started && a.signaled

structure LaunchAnswers where
  launched : Option UInt32
  attach : AttachAnswers

def createProcess (k : Index) (a : LaunchAnswers) : ServerM Bool := do
  modifyCtx k fun ctx => { ctx with debug := 0 }
  match a.launched with
  | none => return false
  | some debug =>
    modifyCtx k fun ctx => { ctx.set (flagCreated ||| flagAttachedAtStart) with debug }
    attachToProcess k a.attach

def detachFromProcess (k : Index) : ServerM Unit := modifyCtx k fun ctx => { ctx with debug := 0 }

/-- The lock is given back while the monitor is waited for. -/
def detachImmediatelyExtended (p : Party) (k : Index) : ServerM Unit := do
  lock p k
  modifyCtx k fun ctx => { ctx with state := .detaching }
  unlock k
  lock p k
  detachFromProcess k
  modifyCtx k fun ctx => { ctx with flags := ctx.flags &&& flagProcRestartMask }
  unlock k

def attachIfSelected (k : Index) (a : AttachAnswers) : ServerM Bool := do
  let ctx ← getCtx k
  if ctx.has flagSelected then attachToProcess k a else return true

def acceptClient (p : Party) (k : Index) (a : AttachAnswers) : ServerM Int := do
  lock p k
  modifyCtx k fun ctx => { ctx with state := .connected }
  let attached ← attachIfSelected k a
  unlock k
  return if attached then 0 else -1

/-- The second section of `GDB_CloseClient`; the first one leaves all this alone. -/
def closeClient (p : Party) (k : Index) : ServerM Unit := do
  lock p k
  let ctx ← getCtx k
  onlyIf (ctx.state = .attached || ctx.state = .detaching || ctx.debug ≠ 0) (detachFromProcess k)
  modifyCtx k fun ctx => { ctx with localPort := 0, flags := 0, state := .disconnected }
  unlock k

/-- The process list takes back its selection. -/
def deselect (p : Party) (k : Index) : ServerM Unit := do
  lock p k
  modifyCtx k fun ctx => { ctx.clear flagSelected with localPort := 0 }
  unlock k

/-! ## Packets -/

/-- The commands, with what their own checks and what others answer. -/
inductive Command where
  | run (parsed : Bool) (answers : LaunchAnswers)
  | restart (answers : LaunchAnswers)
  | attach (parsed : Bool) (answers : AttachAnswers)
  | detach (pidMatches : Bool)
  | kill
  | verboseKill (pidMatches : Bool)
  | enableExtendedMode
  | startNoAckMode
  | continues
  | other

/-- `-` and a packet that is refused are `ignored`; `none` has no bytes. -/
inductive Received where
  | failed
  | ignored
  | none
  | interrupt
  | command (command : Command)
  | unknown

def detachIfExtended (p : Party) (k : Index) : ServerM Unit := do
  let ctx ← getCtx k
  onlyIf (ctx.has flagExtendedRemote) (detachImmediatelyExtended p k)

/-- A process that is launched and that cannot be attached to is let go again. -/
def launch (p : Party) (k : Index) (answers : LaunchAnswers) : ServerM Unit := do
  let launched ← createProcess k answers
  let ctx ← getCtx k
  onlyIf (!launched && ctx.debug ≠ 0) (detachImmediatelyExtended p k)

/-- A handler, of which the replies come back with `sent`. -/
def handle (p : Party) (k : Index) (sent : Int) : Command → ServerM Int
  | .run parsed answers => do
    let ctx ← getCtx k
    if ctx.has flagExtendedRemote && parsed then
      lock p k
      launch p k answers
      unlock k
      return sent
    else return sent
  | .restart answers => do
    let ctx ← getCtx k
    if ctx.has flagExtendedRemote && ctx.has flagCreated then
      modifyCtx k fun ctx => ctx.set flagTerminateProcess
      detachIfExtended p k
      lock p k
      launch p k answers
      unlock k
      return 0
    else return sent
  | .attach parsed answers => do
    let ctx ← getCtx k
    if ctx.has flagExtendedRemote && parsed then
      lock p k
      let attached ← attachToProcess k answers
      onlyIf (!attached) (detachImmediatelyExtended p k)
      unlock k
      return sent
    else return sent
  | .detach pidMatches => do
    if pidMatches then
      modifyCtx k fun ctx => { ctx with state := .detaching }
      detachIfExtended p k
      return sent
    else return sent
  | .kill => do
    modifyCtx k fun ctx => { ctx.set flagTerminateProcess with state := .detaching }
    detachIfExtended p k
    return 0
  | .verboseKill pidMatches => do
    if pidMatches then
      modifyCtx k fun ctx => { ctx.set flagTerminateProcess with state := .detaching }
      detachIfExtended p k
      return sent
    else return sent
  | .enableExtendedMode => do
    let ctx ← getCtx k
    onlyIf (ctx.localPort ≥ gdbPortBase && ctx.localPort < gdbPortBase + UInt16.ofNat maxDebug)
      (modifyCtx k fun ctx => ctx.set flagExtendedRemote)
    return sent
  | .startNoAckMode => do
    modifyCtx k fun ctx => { ctx with noAckSent := true }
    return sent
  | .continues => do
    modifyCtx k fun ctx => ctx.set flagProcessContinuing
    return 0
  | .other => pure sent

def handleBreak (k : Index) : ServerM Unit :=
  modifyCtx k fun ctx => ctx.clear flagProcessContinuing

/-- What is acknowledged may be the last that is. -/
def acknowledge (k : Index) : ServerM Unit :=
  modifyCtx k fun ctx =>
    if ctx.noAckSent then { ctx.set flagNoAck with noAckSent := false } else ctx

def receive (p : Party) (k : Index) (sent : Int) : Received → ServerM Int
  | .failed => pure (-1)
  | .ignored => pure 0
  | .none => do
    acknowledge k
    return 0
  | .interrupt => do
    acknowledge k
    handleBreak k
    return 0
  | .command command => do
    acknowledge k
    handle p k sent command
  | .unknown => do
    acknowledge k
    return 0

def endPacket (k : Index) (oldFlags : UInt32) (ret : Int) (broken : Bool) : ServerM Int := do
  let ctx ← getCtx k
  if ctx.state = .detaching then
    if ctx.has flagExtendedRemote then
      modifyCtx k fun ctx => { ctx with state := .connected }
      unlock k
      return ret
    else
      unlock k
      return -1
  else
    onlyIf (oldFlags &&& flagProcessContinuing ≠ 0 && !ctx.has flagProcessContinuing && !broken)
      (modifyCtx k fun ctx => ctx.set flagProcessContinuing)
    unlock k
    return ret

def doPacket (p : Party) (k : Index) (received : Received) (sent : Int) (broken : Bool) :
    ServerM Int := do
  lock p k
  let ctx ← getCtx k
  if ctx.state = .disconnected then return -1
  else
    let ret ← receive p k sent received
    endPacket k ctx.flags ret broken

/-! ## Runs -/

inductive Op where
  | select (minPort maxPort : UInt16)
  | connect (port : UInt16)
  | accept (k : Index) (answers : AttachAnswers)
  | packet (k : Index) (received : Received) (sent : Int) (broken : Bool)
  | close (k : Index)
  | deselect (k : Index)

/-- One operation of a party, which is not taken while the party has to wait for a lock. -/
def step (s : GdbServer) : Party × Op → Option GdbServer
  | (p, .select minPort maxPort) => (selectAvailableContext p minPort maxPort s).map Prod.snd
  | (p, .connect port) => (getClient p port s).map Prod.snd
  | (p, .accept k answers) => (acceptClient p k answers s).map Prod.snd
  | (p, .packet k received sent broken) => (doPacket p k received sent broken s).map Prod.snd
  | (p, .close k) => (closeClient p k s).map Prod.snd
  | (p, .deselect k) => (deselect p k s).map Prod.snd

/-- The locks are left as they were found, and a selection that fails leaves the flags. -/
def LeftAsFound (s : GdbServer) : Party × Op → GdbServer → Prop
  | (p, .select minPort maxPort), t =>
    t.locks = s.locks ∧ (selectAvailableContext p minPort maxPort s = some (none, t) →
      ∀ k, (t.ctxs k).flags = (s.ctxs k).flags)
  | _, t => t.locks = s.locks

/-- No context runs out of ports, and no packet comes from a context that is disconnected. -/
def Orderly (s : GdbServer) : Party × Op → Prop
  | (_, .select minPort maxPort) =>
    (freeContext s).isSome → (freePort s minPort maxPort).isSome
  | (_, .packet k _ _ _) => (s.ctxs k).state ≠ .disconnected
  | _ => True

/-! ## What becomes of the locks -/

abbrev Locks := Index → RecursiveLock Party

/-- A computation that is started with certain locks ends with certain locks. -/
def LocksFrom {α : Type} (ls ls' : Locks) (x : ServerM α) : Prop :=
  ∀ s a t, s.locks = ls → x s = some (a, t) → t.locks = ls'

namespace LocksFrom

variable {α β : Type} {x : ServerM α} {p : Party} {k : Index} {ls ls' ls'' : Locks}

theorem pure (a : α) : LocksFrom ls ls (Pure.pure a : ServerM α) := by
  intro s b t hs h
  obtain ⟨-, rfl⟩ := Prod.mk.inj (Option.some.inj h)
  exact hs

theorem bind {f : α → ServerM β} (hx : LocksFrom ls ls' x)
    (hf : ∀ a, LocksFrom ls' ls'' (f a)) : LocksFrom ls ls'' (x >>= f) := by
  intro s b t hs h
  obtain ⟨⟨a, u⟩, hu, ht⟩ := Option.bind_eq_some_iff.mp h
  exact hf a u b t (hx s a u hs hu) ht

theorem getCtx (k : Index) : LocksFrom ls ls (getCtx k) := by
  intro s b t hs h
  obtain ⟨-, rfl⟩ := Prod.mk.inj (Option.some.inj h)
  exact hs

theorem modifyCtx (k : Index) (f : GdbContext → GdbContext) :
    LocksFrom ls ls (modifyCtx k f) := by
  intro s b t hs h
  obtain ⟨-, rfl⟩ := Prod.mk.inj (Option.some.inj h)
  exact hs

theorem lock {f : Unit → ServerM β}
    (hf : ∀ ls', lockAt p k ls = some ls' → LocksFrom ls' ls'' (f ())) :
    LocksFrom ls ls'' (lock p k >>= f) := by
  intro s b t hs h
  obtain ⟨⟨w, u⟩, hu, ht⟩ := Option.bind_eq_some_iff.mp h
  obtain ⟨locks, hlocks, hlocked⟩ := Option.map_eq_some_iff.mp hu
  obtain ⟨-, rfl⟩ := Prod.mk.inj hlocked
  exact hf locks (hs ▸ hlocks) _ b t rfl ht

theorem unlock (h : lockAt p k ls = some ls') : LocksFrom ls' ls (unlock k) := by
  intro s b t hs hunlock
  obtain ⟨-, rfl⟩ := Prod.mk.inj (Option.some.inj hunlock)
  show unlockAt k s.locks = ls
  rw [hs, unlockAt_of_lockAt h]

theorem ite {c : Prop} [Decidable c] {x y : ServerM α} (hx : LocksFrom ls ls' x)
    (hy : LocksFrom ls ls' y) : LocksFrom ls ls' (if c then x else y) := by
  split_ifs
  · exact hx
  · exact hy

end LocksFrom

section

variable {p : Party} {k : Index} {ls ls' : Locks}

theorem detachImmediatelyExtended_locks (p : Party) (k : Index) :
    LocksFrom ls ls (detachImmediatelyExtended p k) := by
  refine .lock fun ls₁ h₁ => ?_
  refine .bind (.modifyCtx k _) fun _ => ?_
  refine .bind (.unlock h₁) fun _ => ?_
  refine .lock fun ls₂ h₂ => ?_
  refine .bind (.modifyCtx k _) fun _ => ?_
  refine .bind (.modifyCtx k _) fun _ => ?_
  exact .unlock h₂

theorem onlyIf_locks (c : Bool) {x : ServerM Unit} (hx : LocksFrom ls ls x) :
    LocksFrom ls ls (onlyIf c x) :=
  .ite hx (.pure ())

theorem attachToProcess_locks (k : Index) (a : AttachAnswers) :
    LocksFrom ls ls (attachToProcess k a) := by
  have hactive : LocksFrom ls ls (debugActiveProcess k a) := by
    refine .bind (.getCtx k) fun ctx => .ite (.pure _) ?_
    cases a.debug with
    | none => exact .bind (.modifyCtx k _) fun _ => .pure _
    | some debug => exact .bind (.modifyCtx k _) fun _ => .pure _
  refine .bind hactive fun started => ?_
  exact .bind (onlyIf_locks _ (.modifyCtx k _)) fun _ => .pure _

theorem launch_locks (p : Party) (k : Index) (answers : LaunchAnswers) :
    LocksFrom ls ls (launch p k answers) := by
  have hcreate : LocksFrom ls ls (createProcess k answers) := by
    refine .bind (.modifyCtx k _) fun _ => ?_
    cases answers.launched with
    | none => exact .pure _
    | some debug => exact .bind (.modifyCtx k _) fun _ => attachToProcess_locks k _
  refine .bind hcreate fun launched => .bind (.getCtx k) fun ctx => ?_
  exact onlyIf_locks _ (detachImmediatelyExtended_locks p k)

theorem detachIfExtended_locks (p : Party) (k : Index) :
    LocksFrom ls ls (detachIfExtended p k) :=
  .bind (.getCtx k) fun _ => onlyIf_locks _ (detachImmediatelyExtended_locks p k)

theorem handle_locks (p : Party) (k : Index) (sent : Int) (command : Command) :
    LocksFrom ls ls (handle p k sent command) := by
  cases command with
  | run parsed answers =>
    refine .bind (.getCtx k) fun ctx => .ite ?_ (.pure _)
    refine .lock fun ls₁ h₁ => .bind (launch_locks p k answers) fun _ => ?_
    exact .bind (.unlock h₁) fun _ => .pure _
  | restart answers =>
    refine .bind (.getCtx k) fun ctx => .ite ?_ (.pure _)
    refine .bind (.modifyCtx k _) fun _ => .bind (detachIfExtended_locks p k) fun _ => ?_
    refine .lock fun ls₁ h₁ => .bind (launch_locks p k answers) fun _ => ?_
    exact .bind (.unlock h₁) fun _ => .pure _
  | attach parsed answers =>
    refine .bind (.getCtx k) fun ctx => .ite ?_ (.pure _)
    refine .lock fun ls₁ h₁ => .bind (attachToProcess_locks k answers) fun attached => ?_
    refine .bind (onlyIf_locks _ (detachImmediatelyExtended_locks p k)) fun _ => ?_
    exact .bind (.unlock h₁) fun _ => .pure _
  | detach pidMatches =>
    refine .ite (.bind (.modifyCtx k _) fun _ => ?_) (.pure _)
    exact .bind (detachIfExtended_locks p k) fun _ => .pure _
  | kill =>
    refine .bind (.modifyCtx k _) fun _ => ?_
    exact .bind (detachIfExtended_locks p k) fun _ => .pure _
  | verboseKill pidMatches =>
    refine .ite (.bind (.modifyCtx k _) fun _ => ?_) (.pure _)
    exact .bind (detachIfExtended_locks p k) fun _ => .pure _
  | enableExtendedMode =>
    refine .bind (.getCtx k) fun ctx => ?_
    exact .bind (onlyIf_locks _ (.modifyCtx k _)) fun _ => .pure _
  | startNoAckMode => exact .bind (.modifyCtx k _) fun _ => .pure _
  | continues => exact .bind (.modifyCtx k _) fun _ => .pure _
  | other => exact .pure _

theorem receive_locks (p : Party) (k : Index) (sent : Int) (received : Received) :
    LocksFrom ls ls (receive p k sent received) := by
  have hack : LocksFrom ls ls (acknowledge k) := .modifyCtx k _
  cases received with
  | failed => exact .pure _
  | ignored => exact .pure _
  | none => exact .bind hack fun _ => .pure _
  | interrupt => exact .bind hack fun _ => .bind (.modifyCtx k _) fun _ => .pure _
  | command command => exact .bind hack fun _ => handle_locks p k sent command
  | unknown => exact .bind hack fun _ => .pure _

theorem endPacket_locks {p : Party} (h : lockAt p k ls = some ls') (oldFlags : UInt32) (ret : Int)
    (broken : Bool) : LocksFrom ls' ls (endPacket k oldFlags ret broken) := by
  have hunlock : ∀ ret : Int, LocksFrom ls' ls (unlock k >>= fun _ => pure ret) :=
    fun ret => .bind (.unlock h) fun _ => .pure ret
  refine .bind (.getCtx k) fun ctx => .ite (.ite ?_ (hunlock _)) ?_
  · exact .bind (.modifyCtx k _) fun _ => hunlock _
  · exact .bind (onlyIf_locks _ (.modifyCtx k _)) fun _ => hunlock _

theorem closeClient_locks (p : Party) (k : Index) : LocksFrom ls ls (closeClient p k) := by
  refine .lock fun ls₁ h₁ => .bind (.getCtx k) fun ctx => ?_
  refine .bind (onlyIf_locks _ (.modifyCtx k _)) fun _ => ?_
  exact .bind (.modifyCtx k _) fun _ => .unlock h₁

theorem deselect_locks (p : Party) (k : Index) : LocksFrom ls ls (deselect p k) := by
  refine .lock fun ls₁ h₁ => .bind (.modifyCtx k _) fun _ => ?_
  exact .unlock h₁

theorem acceptClient_locks (p : Party) (k : Index) (a : AttachAnswers) :
    LocksFrom ls ls (acceptClient p k a) := by
  refine .lock fun ls₁ h₁ => .bind (.modifyCtx k _) fun _ => ?_
  have hattach : LocksFrom ls₁ ls₁ (attachIfSelected k a) :=
    .bind (.getCtx k) fun ctx => .ite (attachToProcess_locks k a) (.pure _)
  exact .bind hattach fun attached => .bind (.unlock h₁) fun _ => .pure _

/-! ## Selections -/

theorem lockAll_locks {α : Type} {f : Unit → ServerM α} 
    (hf : ∀ ls', lockAllAt p (List.finRange maxDebug) ls = some ls' → LocksFrom ls' ls (f ())) :
    LocksFrom ls ls (lockAllContexts p >>= f) := by
  intro s b t hs h
  obtain ⟨⟨w, u⟩, hu, ht⟩ := Option.bind_eq_some_iff.mp h
  obtain ⟨locks, hlocks, hlocked⟩ := Option.map_eq_some_iff.mp hu
  obtain ⟨-, rfl⟩ := Prod.mk.inj hlocked
  exact hf locks (hs ▸ hlocks) _ b t rfl ht

theorem unlockAll_locks {α : Type} (h : lockAllAt p (List.finRange maxDebug) ls = some ls')
    (a : α) : LocksFrom ls' ls (unlockAllContexts >>= fun _ => pure a) := by
  intro s b t hs hunlock
  obtain ⟨-, rfl⟩ := Prod.mk.inj (Option.some.inj hunlock)
  show unlockAllAt _ s.locks = ls
  rw [hs, unlockAllAt_of_lockAllAt h]

theorem get_locks : LocksFrom ls ls (get : ServerM GdbServer) := by
  intro s b t hs h
  obtain ⟨-, rfl⟩ := Prod.mk.inj (Option.some.inj h)
  exact hs

theorem selectAvailableContext_locks (p : Party) (minPort maxPort : UInt16) :
    LocksFrom ls ls (selectAvailableContext p minPort maxPort) := by
  refine lockAll_locks fun ls' h => .bind get_locks fun s => ?_
  cases freeContext s with
  | none => exact unlockAll_locks h _
  | some id =>
    dsimp only
    cases freePort s minPort maxPort with
    | none => exact .bind (.modifyCtx id _) fun _ => unlockAll_locks h _
    | some port => exact .bind (.modifyCtx id _) fun _ => unlockAll_locks h _

theorem getClient_locks (p : Party) (port : UInt16) : LocksFrom ls ls (getClient p port) := by
  refine lockAll_locks fun ls' h => .bind get_locks fun s => ?_
  cases (List.finRange maxDebug).find? fun id => decide ((s.ctxs id).localPort = port) with
  | some id =>
    refine .ite (unlockAll_locks h _) ?_
    exact .bind (.modifyCtx id _) fun _ => unlockAll_locks h _
  | none =>
    refine .ite ?_ (unlockAll_locks h _)
    cases freeContext s with
    | none => exact unlockAll_locks h _
    | some id => exact .bind (.modifyCtx id _) fun _ => unlockAll_locks h _

theorem select_fails_iff {s t : GdbServer} {p : Party} {minPort maxPort : UInt16}
    {r : Option Index} (h : selectAvailableContext p minPort maxPort s = some (r, t)) :
    (r = none → ∀ k, (t.ctxs k).flags = (s.ctxs k).flags) ↔
      ((freeContext s).isSome → (freePort s minPort maxPort).isSome) := by
  obtain ⟨⟨w, u⟩, hu, h⟩ := Option.bind_eq_some_iff.mp h
  obtain ⟨locks, hlocks, hlocked⟩ := Option.map_eq_some_iff.mp hu
  obtain ⟨-, rfl⟩ := Prod.mk.inj hlocked
  clear hu hlocked
  have hcontext : freeContext { s with locks } = freeContext s := rfl
  have hport : freePort { s with locks } minPort maxPort = freePort s minPort maxPort := rfl
  simp only [bind, StateT.bind, get, getThe, MonadStateOf.get, StateT.get, pure,
    Option.bind_some, hcontext, hport] at h
  cases hfree : freeContext s with
  | none =>
    rw [hfree] at h
    obtain ⟨rfl, rfl⟩ := Prod.mk.inj (Option.some.inj h)
    exact iff_of_true (fun _ _ => rfl) fun hsome => absurd hsome (by decide)
  | some id =>
    rw [hfree] at h
    dsimp only at h
    cases hfreePort : freePort s minPort maxPort with
    | none =>
      rw [hfreePort] at h
      obtain ⟨rfl, rfl⟩ := Prod.mk.inj (Option.some.inj h)
      refine iff_of_false (fun hsame => ?_) fun hsome => absurd (hsome rfl) (by decide)
      have hflags : (Function.update s.ctxs id
          { s.ctxs id with flags := ~~~flagSelected } id).flags = (s.ctxs id).flags :=
        hsame rfl id
      rw [Function.update_self] at hflags
      -- the context that was free is now allocated
      have hunallocated := List.find?_some hfree
      rw [GdbContext.isAllocated, GdbContext.has, ← hflags] at hunallocated
      exact absurd hunallocated
        (show ¬(!decide (~~~flagSelected &&& flagAllocatedMask ≠ 0)) = true by decide)
    | some port =>
      rw [hfreePort] at h
      obtain ⟨rfl, rfl⟩ := Prod.mk.inj (Option.some.inj h)
      exact iff_of_true (fun hnone => absurd hnone (Option.some_ne_none id)) fun _ => rfl

theorem doPacket_iff {s t : GdbServer} {p : Party} {k : Index} {received : Received}
    {sent r : Int} {broken : Bool} (h : doPacket p k received sent broken s = some (r, t)) :
    t.locks = s.locks ↔ (s.ctxs k).state ≠ .disconnected := by
  obtain ⟨⟨w, u⟩, hu, h⟩ := Option.bind_eq_some_iff.mp h
  obtain ⟨locks, hlocks, hlocked⟩ := Option.map_eq_some_iff.mp hu
  obtain ⟨-, rfl⟩ := Prod.mk.inj hlocked
  change (if (s.ctxs k).state = .disconnected then pure (-1) else
    receive p k sent received >>= fun ret => endPacket k (s.ctxs k).flags ret broken)
      { s with locks } = some (r, t) at h
  by_cases hstate : (s.ctxs k).state = .disconnected
  · rw [if_pos hstate] at h
    obtain ⟨-, rfl⟩ := Prod.mk.inj (Option.some.inj h)
    exact iff_of_false (lockAt_ne hlocks) (not_not.mpr hstate)
  · rw [if_neg hstate] at h
    refine iff_of_true ?_ hstate
    have hrest : LocksFrom locks s.locks
        (receive p k sent received >>= fun ret => endPacket k (s.ctxs k).flags ret broken) :=
      .bind (receive_locks p k sent received) fun ret => endPacket_locks hlocks _ ret broken
    exact hrest _ _ _ rfl h

theorem step_iff (s : GdbServer) (op : Party × Op) (t : GdbServer) (h : step s op = some t) :
    LeftAsFound s op t ↔ Orderly s op := by
  have hkept : ∀ {α : Type} {x : ServerM α}, (∀ ls, LocksFrom ls ls x) →
      (x s).map Prod.snd = some t → t.locks = s.locks := by
    intro α x hx hstep
    obtain ⟨⟨a, t⟩, hrun, rfl⟩ := Option.map_eq_some_iff.mp hstep
    exact hx s.locks s a t rfl hrun
  obtain ⟨p, op⟩ := op
  cases op with
  | select minPort maxPort =>
    have hlocks := hkept (fun ls => selectAvailableContext_locks p minPort maxPort) h
    obtain ⟨⟨r, t⟩, hrun, rfl⟩ := Option.map_eq_some_iff.mp h
    refine Iff.trans ?_ (select_fails_iff hrun)
    refine (and_iff_right hlocks).trans
      ⟨fun hnone hr => hnone (hr ▸ hrun), fun hnone hrun' => ?_⟩
    exact hnone (Prod.mk.inj (Option.some.inj (hrun.symm.trans hrun'))).1
  | connect port => exact iff_of_true (hkept (fun ls => getClient_locks p port) h) trivial
  | accept k answers =>
    exact iff_of_true (hkept (fun ls => acceptClient_locks p k answers) h) trivial
  | close k => exact iff_of_true (hkept (fun ls => closeClient_locks p k) h) trivial
  | deselect k => exact iff_of_true (hkept (fun ls => deselect_locks p k) h) trivial
  | packet k received sent broken =>
    obtain ⟨⟨r, t⟩, hrun, rfl⟩ := Option.map_eq_some_iff.mp h
    exact doPacket_iff hrun

end

/-- Every step of a run leaves the locks, and the flags that it should, just if the run is
orderly. -/
theorem contexts_leftAsFound (s : GdbServer) (ops : List (Party × Op)) :
    AllSteps step LeftAsFound s ops ↔ Guarded step Orderly s ops :=
  allSteps_iff_guarded (fun s op t _ h => step_iff s op t h) (fun _ _ _ _ _ _ => trivial)
    trivial ops

/-- A server that has just been started. -/
def startedServer : GdbServer where
  ctxs _ := ⟨0, .disconnected, 0, 0, false⟩
  locks _ := .free

def firstContext : Index := ⟨0, by decide⟩

/-- The next application is selected twice, the second time without a port for it. And a context is
closed, and then a packet is taken from it. -/
theorem contexts_not_leftAsFound :
    ¬AllSteps step LeftAsFound startedServer
      [(.menu, .select 4003 4004), (.menu, .select 4003 4004)] ∧
    ¬AllSteps step LeftAsFound startedServer
      [(.server, .close firstContext), (.server, .packet firstContext .failed 0 false)] := by
  constructor
  · intro h
    obtain ⟨-, h⟩ := h _ rfl
    have hselect := (step_iff _ _ _ rfl).mp (h _ rfl).1
    exact absurd (hselect (by decide)) (by decide)
  · intro h
    obtain ⟨-, h⟩ := h _ rfl
    exact (step_iff _ _ _ rfl).mp (h _ rfl).1 rfl

end Presence3DS.Gdb.DebugContexts
