import Mathlib.Logic.Function.Basic
import Presence3DS.Lib.NotedRuns
import Presence3DS.Lib.Runs

/-! The plugin loader (`plgloader.c`, `memoryblock.c`): plugin loads, the events that the kernel
signals, and the task that cleans up behind an application. What the kernel holds for the loader
stands beside the loader's own context, and each step notes what it frees, unmaps, closes and
reads. -/

namespace Presence3DS.Rosalina.PluginLoader
open NotedRuns NotedM Runs

/-! ## The state -/

/-- `PLG_STRATEGY_NONE` and so on -/
inductive Strategy where
  | none
  | swap
  | mode3
  deriving DecidableEq

/-- `PLG_CFG_NONE` and so on, in the configuration memory -/
inductive Status where
  | none
  | running
  | inHome
  | exiting
  deriving DecidableEq

/-- The memory of a plugin is mapped in two parts. -/
inductive Part where
  | exe
  | heap
  deriving DecidableEq

/-- What `WaitForProcessTerminated` does next: it waits and then unmaps the memory, closes the
handle, resets the context. -/
inductive TaskPhase where
  | waiting
  | closing
  | resetting
  deriving DecidableEq

/-- Processes stand for the handles to them, and a block for the process it was allocated for. -/
structure State where
  isEnabled : Bool
  target : Option ℕ
  isReady : Bool
  memblock : Option (Option ℕ)
  pluginMemoryStrategy : Strategy
  eventsSelfManaged : Bool
  isSwapFunctionset : Bool
  pluginIsSwapped : Bool
  pluginIsHome : Bool
  status : Status
  homeEvent : Bool
  /-- The event, with the process whose exit has been signalled. -/
  exitEvent : Option ℕ
  /-- The tasks, each with the process whose exit has started it. -/
  tasks : List (TaskPhase × Option ℕ)
  /-- The application that has a plugin, from its load to the cleanup. -/
  plugin : Option ℕ
  /-- The blocks that are allocated. -/
  blocks : List (Option ℕ)
  mapped : Part → ℕ → Bool
  /-- The processes to which a handle is open. -/
  handles : List ℕ
  signalOnExit : ℕ → Bool
  rebooted : Bool

/-- The calls that may fail; `header` and `parse` are what is done with the file before the memory
block is ready, and behind that. -/
inductive Call where
  | openFile
  | header
  | alloc
  | parse
  | mapExe
  | mapHeap
  | mapGame
  | unmapExe
  | unmapHeap
  | free
  | swapSave
  | swapLoad
  deriving DecidableEq

/-- The answers to the calls, and what the file, the user's parameters and the plugin say. -/
structure Answers where
  fails : Call → Bool
  userStrategy : Option Strategy
  selfManaged : Bool
  swapNotNeeded : Bool
  embeddedSwap : Bool
  notifyHomeEvent : Bool

inductive Effect where
  | free (owner : Option ℕ)
  | unmap (process : ℕ)
  | close (process : ℕ)
  | readHeader (isReady : Bool)
  deriving DecidableEq

/-- A computation that fails reboots the console. -/
abbrev LoaderM := NotedM State Effect

/-! ## The memory block -/

/-- `MemoryBlock__Free` -/
def memoryBlockFree (a : Answers) : LoaderM Unit := do
  let s ← gets id
  match s.memblock with
  | none => pure ()
  | some owner =>
    if s.isReady then
      if a.fails .free then pure ()
      else do
        note (.free owner)
        modify fun s => { s with blocks := s.blocks.erase owner }
      modify fun s => { s with isReady := false, memblock := none }
    else pure ()

/-- `MemoryBlock__IsReady` -/
def memoryBlockIsReady (a : Answers) : LoaderM Unit := do
  let s ← gets id
  if s.isReady then pure ()
  else if a.fails .alloc then fail
  else modify fun s => { s with
    isReady := true, memblock := some s.target, blocks := s.target :: s.blocks }

def setMapped (part : Part) (process : ℕ) (b : Bool) : LoaderM Unit :=
  modify fun s => { s with
    mapped := Function.update s.mapped part (Function.update (s.mapped part) process b) }

/-- `MemoryBlock__MountInProcess`, and whether it succeeds -/
def mountInProcess (a : Answers) : LoaderM Bool := do
  let s ← gets id
  match s.target with
  | none => pure false
  | some process =>
    if a.fails .mapExe then pure false
    else do
      setMapped .exe process true
      if a.fails .mapHeap then pure false
      else do
        setMapped .heap process true
        pure true

def unmapPart (fails : Bool) (part : Part) : LoaderM Unit := do
  let s ← gets id
  match s.target with
  | none => pure ()
  | some process =>
    if fails then pure ()
    else do
      note (.unmap process)
      setMapped part process false

/-- `MemoryBlock__UnmountFromProcess` -/
def unmountFromProcess (a : Answers) : LoaderM Unit := do
  unmapPart (a.fails .unmapExe) .exe
  unmapPart (a.fails .unmapHeap) .heap

/-! ## The commands -/

/-- The label `exitFail` -/
def exitFail (a : Answers) : LoaderM Bool := do
  memoryBlockFree a
  pure false

/-- `TryToLoadPlugin` -/
def tryToLoadPlugin (a : Answers) : LoaderM Bool := do
  modify fun s => { s with
    pluginMemoryStrategy := a.userStrategy.getD s.pluginMemoryStrategy }
  if a.fails .openFile then pure false
  else if a.fails .header then exitFail a
  else do
    modify fun s => { s with
      eventsSelfManaged := a.selfManaged
      pluginMemoryStrategy :=
        if s.pluginMemoryStrategy = .swap ∧ a.swapNotNeeded = true then .none
        else s.pluginMemoryStrategy }
    let s ← gets id
    -- `MemoryBlock__SetSize`
    if s.isReady then exitFail a
    else do
      memoryBlockIsReady a
      modify fun s => { s with isSwapFunctionset := s.isSwapFunctionset || a.embeddedSwap }
      if a.fails .parse then exitFail a
      else do
        modify fun s => { s with
          signalOnExit := fun process => s.target = some process || s.signalOnExit process }
        let mounted ← mountInProcess a
        if mounted && !a.fails .mapGame then pure true else exitFail a

def closeTarget : LoaderM Unit := do
  let s ← gets id
  match s.target with
  | none => pure ()
  | some process => do
    note (.close process)
    modify fun s => { s with handles := s.handles.erase process }

/-- `PLG__SetConfigMemoryStatus`, which also clears the events -/
def setStatus (status : Status) : LoaderM Unit :=
  modify fun s => { s with status := status, homeEvent := false, exitEvent := none }

/-- `ctx->isEnabled && TryToLoadPlugin(...)` -/
def loadIfEnabled (a : Answers) : LoaderM Bool := do
  let s ← gets id
  if s.isEnabled then tryToLoadPlugin a else pure false

/-- The command that loads a plugin for a process -/
def loadPlugin (process : ℕ) (a : Answers) : LoaderM Unit := do
  modify fun s => { s with target := some process, handles := process :: s.handles }
  let loaded ← loadIfEnabled a
  if loaded then do
    setStatus .running
    modify fun s => { s with plugin := some process }
  else do
    closeTarget
    modify fun s => { s with target := none }

/-! ## The events -/

/-- `PLG__WaitForReply` reads the timeout in the header. -/
def waitForReply : LoaderM Unit := do
  let s ← gets id
  if s.eventsSelfManaged then pure () else note (.readHeader s.isReady)

def waitUnlessSwapped : LoaderM Unit := do
  let s ← gets id
  if s.pluginIsSwapped then pure () else waitForReply

def exitEvent (app : Option ℕ) : LoaderM Unit := do
  setStatus .exiting
  waitUnlessSwapped
  modify fun s => { s with tasks := s.tasks ++ [(.waiting, app)] }

/-- The HOME event of a plugin that is swapped: its memory is put into a file, or loaded again. -/
def swapEvent (a : Answers) : LoaderM Unit := do
  let s ← gets id
  if s.pluginIsSwapped then do
    memoryBlockIsReady a
    if a.fails .swapLoad then fail
    else do
      let _ ← mountInProcess a
      setStatus .running
      modify fun s => { s with pluginIsSwapped := false }
  else do
    waitForReply
    unmountFromProcess a
    if a.fails .swapSave || !s.isSwapFunctionset then fail
    else do
      memoryBlockFree a
      setStatus .inHome
      modify fun s => { s with pluginIsSwapped := true }

/-- The header says whether a plugin that is not swapped is told of a HOME event. -/
def notifyHome (a : Answers) : LoaderM Unit := do
  let s ← gets id
  if s.isReady then do
    note (.readHeader true)
    if a.notifyHomeEvent then waitForReply else pure ()
  else pure ()

def homeEvent (a : Answers) : LoaderM Unit := do
  notifyHome a
  let s ← gets id
  setStatus (if s.pluginIsHome then .running else .inHome)
  modify fun s => { s with pluginIsHome := !s.pluginIsHome }

/-- `PluginLoader__HandleKernelEvent` -/
def handleKernelEvent (isN3DS : Bool) (a : Answers) : LoaderM Unit := do
  let s ← gets id
  if s.status = .exiting then pure ()
  else if s.exitEvent.isSome && !s.homeEvent then exitEvent s.exitEvent
  else if s.homeEvent && s.exitEvent.isNone then
    if s.pluginMemoryStrategy = .swap ∧ isN3DS = false then swapEvent a else homeEvent a
  else pure ()

/-! ## The task -/

/-- The context as the task leaves it. -/
def resetContext (s : State) : State :=
  { s with
    pluginIsSwapped := false
    pluginIsHome := false
    target := none
    isSwapFunctionset := false
    pluginMemoryStrategy := .swap
    eventsSelfManaged := false }

/-- The memory of a plugin that is swapped is neither mapped nor allocated. -/
def releaseUnlessSwapped (a : Answers) : LoaderM Unit := do
  let s ← gets id
  if s.pluginIsSwapped then pure ()
  else do
    unmountFromProcess a
    memoryBlockFree a

/-- A part of `WaitForProcessTerminated`, which reads the context as it is then. -/
def taskStep (a : Answers) : LoaderM Unit := do
  let s ← gets id
  match s.tasks with
  | [] => pure ()
  | (.waiting, app) :: rest => do
    releaseUnlessSwapped a
    modify fun s => { s with plugin := none, tasks := (.closing, app) :: rest }
  | (.closing, app) :: rest => do
    closeTarget
    modify fun s => { s with tasks := (.resetting, app) :: rest }
  | (.resetting, _) :: rest => do
    setStatus .none
    modify resetContext
    modify fun s => { s with tasks := rest }

/-! ## Runs -/

/-- What may happen next. The kernel signals HOME events and exits of processes; `terminated` is for
one that is ended by `svcTerminateProcess`, which signals it once. -/
inductive Action where
  | setEnabled (b : Bool)
  | setSwapFunction (b : Bool)
  | load (process : ℕ) (a : Answers)
  | home
  | exit (process : ℕ) (terminated : Bool)
  | notification (a : Answers)
  | task (a : Answers)

/-- The statuses in which the kernel signals the exit of a process -/
def signalsExit (status : Status) (terminated : Bool) : Prop :=
  status = .running ∨ terminated = true ∧ status = .inHome

instance (status : Status) (terminated : Bool) : Decidable (signalsExit status terminated) :=
  inferInstanceAs (Decidable (_ ∨ _))

def perform (isN3DS : Bool) : Action → LoaderM Unit
  | .setEnabled b => modify fun s => { s with isEnabled := b }
  | .setSwapFunction b => modify fun s => { s with isSwapFunctionset := b }
  | .load process a => loadPlugin process a
  | .home => modify fun s =>
      if s.status = .running ∨ s.status = .inHome then { s with homeEvent := true } else s
  | .exit process terminated => modify fun s =>
      if s.signalOnExit process = true ∧ signalsExit s.status terminated then
        { s with
          exitEvent := some process
          signalOnExit := if terminated then Function.update s.signalOnExit process false
            else s.signalOnExit }
      else s
  | .notification a => handleKernelEvent isN3DS a
  | .task a => taskStep a

/-- After a reboot there are no more steps. -/
def step (isN3DS : Bool) (s : State) (act : Action) : Option State :=
  if s.rebooted then none
  else
    match perform isN3DS act s with
    | (some _, t, _) => some t
    | (none, t, _) => some { t with rebooted := true }

/-- What `PluginLoader__Init` leaves. -/
def initial (isEnabled : Bool) : State where
  isEnabled := isEnabled
  target := none
  isReady := false
  memblock := none
  pluginMemoryStrategy := .swap
  eventsSelfManaged := false
  isSwapFunctionset := false
  pluginIsSwapped := false
  pluginIsHome := false
  status := .none
  homeEvent := false
  exitEvent := none
  tasks := []
  plugin := none
  blocks := []
  mapped := fun _ _ => false
  handles := []
  signalOnExit := fun _ => false
  rebooted := false

/-! ## What is to hold -/

/-- The application for which a step is done: the one that is loaded, or the one behind which is
cleaned up. -/
def actor (s : State) : Action → Option ℕ
  | .load process _ => some process
  | .task _ => s.tasks.head?.bind Prod.snd
  | _ => none

/-- A load and a cleanup leave the other applications alone, and the header is read only while the
block is ready. -/
def Effect.Fine (actor : Option ℕ) : Effect → Prop
  | .free owner => ∀ app, actor = some app → owner = some app
  | .unmap process => ∀ app, actor = some app → process = app
  | .close process => ∀ app, actor = some app → process = app
  | .readHeader isReady => isReady = true

/-- The block is ready exactly while it is allocated, and mapped exactly while a plugin runs that is
not swapped. -/
structure Consistent (s : State) : Prop where
  ready : s.blocks = if s.isReady then s.memblock.toList else []
  allocated : s.isReady = true → s.memblock ≠ none
  mapped : ∀ part process, s.mapped part process = true ↔
    s.plugin = some process ∧ s.pluginIsSwapped = false
  target : ∀ process, s.plugin = some process → s.target = some process

/-- What is to hold of a step. -/
def StepSafe (isN3DS : Bool) (s : State) (act : Action) (t : State) : Prop :=
  (∀ e ∈ (perform isN3DS act s).2.2, e.Fine (actor s act)) ∧ (t.rebooted = false → Consistent t)

end Presence3DS.Rosalina.PluginLoader
