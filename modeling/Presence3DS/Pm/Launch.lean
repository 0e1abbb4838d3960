import Mathlib.Algebra.Order.Ring.Int
import Mathlib.Algebra.Order.Ring.Nat
import Mathlib.Data.List.TakeWhile
import Mathlib.Order.Fin.Basic

/-! The processes that `pm` launches, with the modules that they depend on (`info.c`, `launch.c`,
`termination.c`, `process_monitor.c`). -/

namespace Presence3DS.Pm

/-! ## Processes -/

/-- The title id of a program, and the dependencies that it lists. -/
structure ExHeader where
  titleId : UInt64
  dependencies : List UInt64
deriving DecidableEq

inductive TerminationStatus where
  | running
  | notificationSent
  | notificationFailed
  | terminated
deriving DecidableEq

/-- A process, with the extended header that its program handle stands for. -/
structure ProcessData where
  pid : ℕ
  exheader : ExHeader
  notifyTermination : Bool
  dependenciesLoaded : Bool
  autoloaded : Bool
  notifyTerminationTerminated : Bool
  terminationStatus : TerminationStatus
  refcount : UInt8
deriving DecidableEq

namespace ProcessData

def titleId (p : ProcessData) : UInt64 := p.exheader.titleId

/-- A process as it is entered into the list. -/
def new (pid : ℕ) (exheader : ExHeader) : ProcessData where
  pid := pid
  exheader := exheader
  notifyTermination := false
  dependenciesLoaded := false
  autoloaded := false
  notifyTerminationTerminated := false
  terminationStatus := .running
  refcount := 1

end ProcessData

def n3dsTidMask : UInt64 := 0xF0000000

/-- `listDependencies`; 0 ends the list of 48. -/
def listDependencies (isN3ds : Bool) (exheader : ExHeader) : List UInt64 :=
  (((exheader.dependencies.take 48).takeWhile (· ≠ 0)).filter fun titleId =>
    isN3ds || decide (titleId &&& n3dsTidMask = 0)).map fun titleId => titleId &&& ~~~n3dsTidMask

/-- The processes of the list in their order, and the next id that the kernel gives. -/
structure ProcessList where
  processes : List ProcessData
  nextPid : ℕ
deriving DecidableEq

namespace ProcessList

/-- `ProcessList_FindProcessByTitleId`: the low byte is not compared. -/
def findProcessByTitleId (l : ProcessList) (titleId : UInt64) : Option ProcessData :=
  l.processes.find? fun p => p.titleId &&& ~~~0xFF = titleId &&& ~~~0xFF

def findProcessById (l : ProcessList) (pid : ℕ) : Option ProcessData :=
  l.processes.find? fun p => p.pid = pid

/-- The process with the id becomes what `f` makes of it. -/
def update (l : ProcessList) (pid : ℕ) (f : ProcessData → ProcessData) : ProcessList :=
  { l with processes := l.processes.map fun p => if p.pid = pid then f p else p }

/-- `ProcessList_New` -/
def new (l : ProcessList) (exheader : ExHeader) : ProcessList :=
  ⟨l.processes ++ [ProcessData.new l.nextPid exheader], l.nextPid + 1⟩

def delete (l : ProcessList) (pid : ℕ) : ProcessList :=
  { l with processes := l.processes.filter fun p => p.pid ≠ pid }

/-- `ProcessData_Incref`; it panics where the count has no room. -/
def incref (l : ProcessList) (pid amount : ℕ) : Option ProcessList :=
  match l.findProcessById pid with
  | none => some l
  | some p =>
    if p.autoloaded then
      if 0xFF < p.refcount.toNat + amount then none
      else some (l.update pid fun p => { p with refcount := p.refcount + UInt8.ofNat amount })
    else some l

end ProcessList

/-! ## Dependencies -/

/-- An entry of the flattened dependencies of a launch: its process, if there is one, the
references that it gets when it is loaded, and those of the list that is being merged. -/
structure Dependency where
  titleId : UInt64
  proc : Option ℕ
  remrefcount : ℕ
  newrefcount : ℕ
deriving DecidableEq

def maxDependencies : ℕ := 48

/-- One step of the first loop of `listMergeUniqueDependencies`. -/
def addDependency (l : ProcessList) (deps : List Dependency) (titleId : UInt64) :
    Option (List Dependency) :=
  if deps.any fun d => d.titleId = titleId then
    some (deps.map fun d =>
      if d.titleId = titleId then { d with newrefcount := d.newrefcount + 1 } else d)
  else if maxDependencies ≤ deps.length then none
  else some (deps ++ [⟨titleId, (l.findProcessByTitleId titleId).map (·.pid), 0, 1⟩])

/-- The second loop: the references go to the process, or wait for it. -/
def applyRefcounts (l : ProcessList) (deps : List Dependency) : Option ProcessList :=
  deps.foldlM (fun l d =>
    match d.proc with
    | some pid => l.incref pid d.newrefcount
    | none => some l) l

def Dependency.settle (d : Dependency) : Dependency :=
  { d with
    remrefcount := if d.proc.isSome then d.remrefcount else d.remrefcount + d.newrefcount
    newrefcount := 0 }

def listMergeUniqueDependencies (isN3ds : Bool) (l : ProcessList) (deps : List Dependency)
    (exheader : ExHeader) : Option (ProcessList × List Dependency) := do
  let deps ← (listDependencies isN3ds exheader).foldlM (addDependency l) deps
  let l ← applyRefcounts l deps
  return (l, deps.map Dependency.settle)

/-! ## Launches -/

/-- What becomes of the launch of a title: nothing is loaded; its launch is prevented, which counts
as a success; its process is made, but a later call fails; or it starts. -/
inductive Program where
  | missing
  | prevented
  | broken (exheader : ExHeader)
  | started (exheader : ExHeader)
deriving DecidableEq

/-- The loop of `loadWithDependencies` over the dependencies from the `i`th on, and whether the last
launch succeeded. There is no result where it would write through a null pointer. -/
def loadDependencies (isN3ds : Bool) (programs : UInt64 → Program) :
    ℕ → ℕ → ProcessList → List Dependency → Bool → Option (ProcessList × Bool)
  | 0, _, l, _, ok => some (l, ok)
  | fuel + 1, i, l, deps, ok =>
    match deps[i]? with
    | none => some (l, ok)
    | some d =>
      if d.proc.isSome then loadDependencies isN3ds programs fuel (i + 1) l deps ok
      else
        match programs d.titleId with
        | .prevented => none
        | .missing => loadDependencies isN3ds programs fuel (i + 1) l deps false
        | .broken exheader => some (l.new exheader, false)
        | .started exheader => do
          let pid := l.nextPid
          let l := (l.new exheader).update pid fun p =>
            { p with autoloaded := true, dependenciesLoaded := true }
          let l ← l.incref pid (d.remrefcount - 1)
          let deps := deps.set i { d with proc := some pid, remrefcount := 0 }
          let (l, deps) ← listMergeUniqueDependencies isN3ds l deps exheader
          loadDependencies isN3ds programs fuel (i + 1) l deps true

/-- `loadWithDependencies`, once the process itself has been made. -/
def loadWithDependencies (isN3ds fake : Bool) (programs : UInt64 → Program) (l : ProcessList)
    (pid : ℕ) (exheader : ExHeader) : Option (ProcessList × Bool) := do
  let (l, deps) ← listMergeUniqueDependencies isN3ds l [] exheader
  let l :=
    if deps.length = 0 then l else l.update pid fun p => { p with dependenciesLoaded := true }
  if fake then return (l, true)
  loadDependencies isN3ds programs maxDependencies 0 l deps true

/-- The flags of a launch that matter here, and whether `svcRun` takes the process. -/
structure LaunchInfo where
  loadDependencies : Bool
  fakeDependencyLoading : Bool
  notifyTermination : Bool
  runs : Bool
deriving DecidableEq

/-- `launchTitleImpl` of a title that is asked for. -/
def launchTitleImpl (isN3ds : Bool) (programs : UInt64 → Program) (info : LaunchInfo)
    (l : ProcessList) (program : Program) : Option ProcessList :=
  match program with
  | .missing => some l
  | .prevented => some l
  | .broken exheader => some (l.new exheader)
  | .started exheader => do
    let pid := l.nextPid
    let (l, ok) ←
      if info.loadDependencies then
        loadWithDependencies isN3ds info.fakeDependencyLoading programs (l.new exheader) pid
          exheader
      else some (l.new exheader, true)
    return if ok ∧ info.runs ∧ info.notifyTermination then
      l.update pid fun p => { p with notifyTermination := true }
    else l

/-- `LaunchTitle`: a process of the title that is there is not autoloaded any longer. -/
def launchTitle (isN3ds : Bool) (programs : UInt64 → Program) (info : LaunchInfo) (l : ProcessList)
    (titleId : UInt64) : Option ProcessList :=
  match l.findProcessByTitleId titleId with
  | some p => some (l.update p.pid fun p => { p with autoloaded := false })
  | none => launchTitleImpl isN3ds programs info l (programs titleId)

/-! ## Terminations -/

/-- `ProcessData_SendTerminationNotification` -/
def ProcessData.sendTerminationNotification (notified : ℕ → Bool) (p : ProcessData) :
    ProcessData :=
  { p with terminationStatus := if notified p.pid then .notificationSent else .notificationFailed }

/-- A process that is a listed dependency loses a reference, and is told to terminate where it was
the last one. -/
def releaseDependency (notified : ℕ → Bool) (dependencies : List UInt64) (p : ProcessData) :
    ProcessData :=
  if p.terminationStatus ≠ .running ∨ p.autoloaded = false ∨ p.titleId ∉ dependencies then p
  else
    let p := { p with refcount := p.refcount - 1 }
    if 0 < p.refcount then p else p.sendTerminationNotification notified

def terminateUnusedDependencies (notified : ℕ → Bool) (l : ProcessList)
    (dependencies : List UInt64) : ProcessList :=
  { l with processes := l.processes.map (releaseDependency notified dependencies) }

/-- `terminateProcessImpl`; nothing happens where the header of a process with dependencies cannot
be read. -/
def terminateProcessImpl (isN3ds : Bool) (readable notified : ℕ → Bool) (l : ProcessList)
    (p : ProcessData) : ProcessList :=
  if p.dependenciesLoaded then
    if readable p.pid then
      let l := l.update p.pid fun p =>
        { p with dependenciesLoaded := false }.sendTerminationNotification notified
      terminateUnusedDependencies notified l (listDependencies isN3ds p.exheader)
    else l
  else l.update p.pid (ProcessData.sendTerminationNotification notified)

/-- One process of `TerminateProcessOrTitleAsync`. -/
def terminateOne (isN3ds : Bool) (readable notified : ℕ → Bool) (l : ProcessList) (pid : ℕ) :
    ProcessList :=
  let l := l.update pid fun p =>
    if p.notifyTermination then
      { p with notifyTermination := false, notifyTerminationTerminated := true }
    else p
  (l.findProcessById pid).elim l (terminateProcessImpl isN3ds readable notified l)

/-- What a request to terminate is for. -/
inductive Target where
  | application (pid : ℕ)
  | process (pid : ℕ)
  | title (id : UInt64)
deriving DecidableEq

def Target.matches (l : ProcessList) : Target → List ℕ
  | .application pid => (l.findProcessById pid).toList.map (·.pid)
  | .process pid => (l.findProcessById pid).toList.map (·.pid)
  | .title id =>
    (l.processes.filter fun p => p.titleId = id ∨ p.pid = id.toNat).map (·.pid)

def terminate (isN3ds : Bool) (readable notified : ℕ → Bool) (l : ProcessList) (target : Target) :
    ProcessList :=
  match target with
  | .application pid =>
    (l.findProcessById pid).elim l (terminateProcessImpl isN3ds readable notified l)
  | _ => (target.matches l).foldl (terminateOne isN3ds readable notified) l

/-- `processMonitor` for a process that has exited: it leaves the list unless its title is still to
be unregistered, and its dependencies are released. -/
def processExit (isN3ds : Bool) (readable notified : ℕ → Bool) (l : ProcessList) (pid : ℕ) :
    ProcessList :=
  match l.findProcessById pid with
  | none => l
  | some p =>
    if p.terminationStatus = .terminated then l
    else
      let kept := p.notifyTerminationTerminated || p.notifyTermination
      let l :=
        if kept then
          l.update pid fun p =>
            { p with terminationStatus := .terminated, notifyTerminationTerminated := true }
        else l.delete pid
      if p.dependenciesLoaded ∧ readable pid then
        terminateUnusedDependencies notified l (listDependencies isN3ds p.exheader)
      else l

/-- `UnregisterProcess` -/
def unregisterProcess (l : ProcessList) (titleId : UInt64) : ProcessList :=
  (l.findProcessByTitleId (titleId &&& ~~~n3dsTidMask)).elim l fun p => l.delete p.pid

/-! ## Runs -/

/-- The calls of the clients of `pm` and the exits of processes, each with what the rest of the
system answers in it. -/
inductive Action where
  | launchTitle (info : LaunchInfo) (titleId : UInt64) (programs : UInt64 → Program)
  | launchTitleUpdate (info : LaunchInfo) (program : Program) (programs : UInt64 → Program)
  | terminate (target : Target) (readable notified : ℕ → Bool)
  | exit (pid : ℕ) (readable notified : ℕ → Bool)
  | unregister (titleId : UInt64)

/-- There is no result where `pm` panics. -/
def step (isN3ds : Bool) (l : ProcessList) : Action → Option ProcessList
  | .launchTitle info titleId programs => launchTitle isN3ds programs info l titleId
  | .launchTitleUpdate info program programs => launchTitleImpl isN3ds programs info l program
  | .terminate target readable notified => some (terminate isN3ds readable notified l target)
  | .exit pid readable notified => some (processExit isN3ds readable notified l pid)
  | .unregister titleId => some (unregisterProcess l titleId)

/-- `Manager_RegisterKips`: the built-in processes have one title id. -/
def registerKips (numKips : ℕ) : ProcessList :=
  ⟨(List.range numKips).map fun pid => ProcessData.new pid ⟨0x0004000100001000, []⟩, numKips⟩

end Presence3DS.Pm
