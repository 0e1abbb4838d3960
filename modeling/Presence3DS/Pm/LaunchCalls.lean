import Presence3DS.Lib.NotedRuns
import Presence3DS.Pm.Launch

/-! The launch of a title call by call (`launch.c`), with the locks that it takes and the launches
of dependencies. -/

namespace Presence3DS.Pm.LaunchCalls

open NotedRuns NotedM

/-- The flags of a launch, and whether the caller wants a debug handle. -/
structure LaunchFlags where
  normalApplication : Bool
  loadDependencies : Bool
  queueDebugApplication : Bool
  notifyTermination : Bool
  fakeDependencyLoading : Bool
  outDebug : Bool
deriving DecidableEq

/-- The flags of the launch of a dependency. -/
def noFlags : LaunchFlags := ⟨false, false, false, false, false, false⟩

/-- Which calls succeed in the launch of a title, and the extended header that the loader gives for
it; the version of the core of its header is part of `getProgramInfo`. -/
structure Calls where
  registerProgram : Bool
  getProgramInfo : Bool
  exheader : ExHeader
  loadProcess : Bool
  getProcessId : Bool
  freeProcess : Bool
  fsregRegister : Bool
  srvpmRegisterProcess : Bool
  hasReslimitCategory : Bool
  setProcessResourceLimits : Bool
  setProcessAffinityMask : Bool
  setProcessIdealProcessor : Bool
  debugActiveProcess : Bool
  run : Bool
deriving DecidableEq

/-- What a launch does that others see. -/
inductive Event where
  | lock
  | unlock
  | launched (titleId : UInt64) (started : Bool)
  | nullDereference
  | panic
deriving DecidableEq

structure Manager where
  processList : ProcessList
  debugData : Option ℕ
  runningApplicationData : Option ℕ
deriving DecidableEq

abbrev PmM := NotedM Manager Event

/-- A panic ends everything. -/
def panicking {α : Type} : PmM α := do
  note .panic
  fail

def modifyList (f : ProcessList → ProcessList) : PmM Unit :=
  modify fun s => { s with processList := f s.processList }

/-- A change of the list that panics where it has no result. -/
def changeList {α : Type} (f : ProcessList → Option (ProcessList × α)) : PmM α := do
  match f (← gets Manager.processList) with
  | some (l, a) => do
    modifyList fun _ => l
    pure a
  | none => panicking

/-! ## Without dependencies -/

def requireBatchUpdate (titleId : UInt64) : Bool := decide (titleId &&& 0x800000000 ≠ 0)

/-- The calls from the entry into the list on, in their order. -/
def Calls.registers (c : Calls) : Bool :=
  c.fsregRegister && c.srvpmRegisterProcess &&
    (!c.hasReslimitCategory || c.setProcessResourceLimits) &&
    c.setProcessAffinityMask && c.setProcessIdealProcessor

/-- The process that is entered into the list, if it comes to that, and whether all calls succeed.
The limits of core 1 that an application gets are modelled apart. -/
def loadWithoutDependencies (c : Calls) (titleId : UInt64) (flags : LaunchFlags) :
    PmM (Option ℕ × Bool) := do
  if requireBatchUpdate titleId then return (none, false)
  if !c.loadProcess then return (none, false)
  if !c.getProcessId then return (none, false)
  note .lock
  if !c.freeProcess then panicking
  let pid ← gets fun s => s.processList.nextPid
  modifyList fun l => l.new c.exheader
  note .unlock
  if !c.registers then return (some pid, false)
  if flags.outDebug && !c.debugActiveProcess then return (some pid, false)
  return (some pid, true)

/-! ## The launch -/

/-- `isTitleLaunchPrevented`: ErrDisp, where there are six built-in modules. -/
def isTitleLaunchPrevented (numKips : ℕ) (titleId : UInt64) : Bool :=
  decide (6 ≤ numKips) && titleId &&& ~~~(n3dsTidMask ||| 1) == 0x0004003000008A02

/-- The label `cleanup`: a process is terminated after a failure, which it only shows when its exit
is handled. -/
def cleanup (flags : LaunchFlags) (proc : Option ℕ) (succeeded : Bool) :
    PmM (Option ℕ × Bool) := do
  match proc with
  | some pid =>
    if succeeded && flags.notifyTermination then
      modifyList fun l => l.update pid fun p => { p with notifyTermination := true }
  | none => pure ()
  note .unlock
  return (proc, succeeded)

/-- A debugged application is left to be run later, and anything else is run. -/
def runOrQueue (c : Calls) (flags : LaunchFlags) (proc : Option ℕ) : PmM Bool := do
  if flags.queueDebugApplication then
    if (← gets Manager.debugData).isSome then return false
    modify fun s => { s with debugData := proc }
    return true
  match proc with
  | none =>
    note .nullDereference
    fail
  | some pid =>
    if c.run && flags.normalApplication then
      modify fun s => { s with runningApplicationData := some pid }
    return c.run

/-- `launchTitleImpl` over the function that loads the process. A failure to load jumps to the
label `cleanup` past the lock. -/
def launchTitleWith (load : PmM (Option ℕ × Bool)) (numKips : ℕ) (c : Calls) (titleId : UInt64)
    (flags : LaunchFlags) : PmM (Option ℕ × Bool) := do
  if isTitleLaunchPrevented numKips titleId then return (none, true)
  if !c.registerProgram then return (none, false)
  if !c.getProgramInfo then return (none, false)
  let (proc, loaded) ← load
  if !loaded then cleanup flags proc false
  else
    note .lock
    let succeeded ← runOrQueue c flags proc
    cleanup flags proc succeeded

/-! ## With dependencies -/

def launchDependency (numKips : ℕ) (c : Calls) (titleId : UInt64) : PmM (Option ℕ × Bool) :=
  launchTitleWith (loadWithoutDependencies c titleId noFlags) numKips c titleId noFlags

/-- `listMergeUniqueDependencies` with its lock. -/
def mergeDependencies (isN3ds : Bool) (deps : List Dependency) (exheader : ExHeader) :
    PmM (List Dependency) := do
  note .lock
  let deps ← changeList fun l => listMergeUniqueDependencies isN3ds l deps exheader
  note .unlock
  return deps

/-- The process of a dependency gets its references, and its own dependencies join the list. -/
def adopt (isN3ds : Bool) (exheader : ExHeader) (deps : List Dependency) (i : ℕ) (d : Dependency)
    (pid : ℕ) : PmM (List Dependency) := do
  modifyList fun l => l.update pid fun p =>
    { p with autoloaded := true, dependenciesLoaded := true }
  changeList fun l => (l.incref pid (d.remrefcount - 1)).map (·, ())
  mergeDependencies isN3ds (deps.set i { d with proc := some pid, remrefcount := 0 }) exheader

/-- The loop over the dependencies from the `i`th on, with the result of the last launch. -/
def loadDependencies (isN3ds : Bool) (numKips : ℕ) (calls : UInt64 → Calls) :
    ℕ → ℕ → List Dependency → Bool → PmM Bool
  | 0, _, _, res => return res
  | fuel + 1, i, deps, res =>
    match deps[i]? with
    | none => return res
    | some d =>
      if d.proc.isSome then loadDependencies isN3ds numKips calls fuel (i + 1) deps res
      else do
        let c := calls d.titleId
        match ← launchDependency numKips c d.titleId with
        | (none, true) =>
          note (.launched d.titleId false)
          note .nullDereference
          fail
        | (some pid, true) =>
          note (.launched d.titleId true)
          let deps ← adopt isN3ds c.exheader deps i d pid
          loadDependencies isN3ds numKips calls fuel (i + 1) deps true
        | (some _, false) =>
          note (.launched d.titleId false)
          return false
        | (none, false) =>
          note (.launched d.titleId false)
          loadDependencies isN3ds numKips calls fuel (i + 1) deps false

def loadWithDependencies (isN3ds : Bool) (numKips : ℕ) (calls : UInt64 → Calls) (c : Calls)
    (titleId : UInt64) (flags : LaunchFlags) : PmM (Option ℕ × Bool) := do
  match ← loadWithoutDependencies c titleId flags with
  | (some pid, true) =>
    let deps ← mergeDependencies isN3ds [] c.exheader
    if deps.length ≠ 0 then
      modifyList fun l => l.update pid fun p => { p with dependenciesLoaded := true }
    if flags.fakeDependencyLoading then return (some pid, true)
    let res ← loadDependencies isN3ds numKips calls maxDependencies 0 deps true
    return (some pid, res)
  | (proc, _) => return (proc, false)

/-- `launchTitleImpl`; an application always has its dependencies loaded. -/
def launchTitleImpl (isN3ds : Bool) (numKips : ℕ) (calls : UInt64 → Calls) (titleId : UInt64)
    (flags : LaunchFlags) : PmM (Option ℕ × Bool) :=
  let flags := { flags with
    loadDependencies := flags.normalApplication || flags.loadDependencies }
  let c := calls titleId
  let load := if flags.loadDependencies then
      loadWithDependencies isN3ds numKips calls c titleId flags
    else loadWithoutDependencies c titleId flags
  launchTitleWith load numKips c titleId flags

end Presence3DS.Pm.LaunchCalls
