import Mathlib.Data.List.Forall2
import Mathlib.Logic.Function.Basic
import Presence3DS.Lib.Runs

/-! The task runner (`task_runner.c`). Its thread and the callers share one task slot, which two
one-shot events hand over. Every choice of the scheduler is an event of the run, and a thread whose
event is not signalled is not enabled. -/

namespace Presence3DS.Rosalina.TaskRunner
open Runs

/-- `u8 argStorage[0x40]` -/
def ArgStorage := { bytes : List UInt8 // bytes.length = 0x40 }

def ArgStorage.zero : ArgStorage := ⟨.replicate 0x40 0, List.length_replicate⟩

/-- The copy of the arguments, of which there are at most 0x40 bytes. -/
def ArgStorage.memcpy (storage : ArgStorage) (argdata : List UInt8) : ArgStorage :=
  ⟨argdata.take 0x40 ++ storage.val.drop (argdata.take 0x40).length, by
    rw [List.length_append, List.length_drop, storage.property, List.length_take]
    omega⟩

inductive Task (F : Type*) where
  | taskRunnerNoOpFunction
  | function (f : F)

/-- The parameters of a call of `TaskRunner_RunTask`: a task, and the bytes of its arguments. -/
structure Request (F : Type*) where
  task : Task F
  argdata : List UInt8

/-- What the thread of a caller does next. -/
inductive Caller (F : Type*) where
  | idle
  /-- `TaskRunner_RunTask`, in `LightEvent_Wait(&readyEvent)` -/
  | runTask (request : Request F)
  | setTask (request : Request F)
  | setArgs (request : Request F)
  | signalParametersSet (request : Request F)
  /-- `TaskRunner_WaitReady` -/
  | waitReady

/-- What the thread of the runner does next. -/
inductive Runner where
  | checkTerminate
  | signalReady
  | waitParametersSet
  | callTask
  | inTask
  | exited
deriving DecidableEq

/-- The runner with its threads, and what was accepted and executed so far. -/
structure State (τ F : Type*) where
  readyEvent : Bool
  parametersSetEvent : Bool
  task : Option (Task F)
  argStorage : ArgStorage
  shouldTerminate : Bool
  runner : Runner
  caller : τ → Caller F
  accepted : List (Request F)
  executed : List (Option (Task F) × ArgStorage)

def init {τ F : Type*} : State τ F where
  readyEvent := false
  parametersSetEvent := false
  task := none
  argStorage := .zero
  shouldTerminate := false
  runner := .checkTerminate
  caller _ := .idle
  accepted := []
  executed := []

inductive Event (τ F : Type*) where
  | runTask (t : τ) (request : Request F)
  | terminate (t : τ)
  | waitReady (t : τ)
  /-- A thread that called goes on. -/
  | caller (t : τ)
  | runner

namespace Caller
variable {F : Type*}

/-- In `TaskRunner_RunTask` or `TaskRunner_Terminate`, before the ready event. -/
def waits : Caller F → Bool
  | runTask _ => true
  | _ => false

/-- The request of a caller that took the ready event for it. -/
def hands : Caller F → Option (Request F)
  | setTask request | setArgs request | signalParametersSet request => some request
  | _ => none

end Caller

section Step
variable {τ F : Type*} [DecidableEq τ]

def State.goTo (s : State τ F) (t : τ) (pc : Caller F) : State τ F :=
  { s with caller := Function.update s.caller t pc }

/-- A call of a thread that is in no call. -/
def enter (s : State τ F) (t : τ) (pc : Caller F) : Option (State τ F) :=
  match s.caller t with
  | .idle => some (s.goTo t pc)
  | _ => none

def callerStep (s : State τ F) (t : τ) : Option (State τ F) :=
  match s.caller t with
  | .idle => none
  | .runTask request =>
    if s.readyEvent then
      some { s.goTo t (.setTask request) with
        readyEvent := false
        accepted := s.accepted ++ [request] }
    else none
  | .setTask request => some { s.goTo t (.setArgs request) with task := some request.task }
  | .setArgs request =>
    some { s.goTo t (.signalParametersSet request) with
      argStorage := s.argStorage.memcpy request.argdata }
  | .signalParametersSet _ => some { s.goTo t .idle with parametersSetEvent := true }
  | .waitReady => if s.readyEvent then some { s.goTo t .idle with readyEvent := false } else none

/-- What a task leaves in its arguments. -/
def Task.effect (effect : F → ArgStorage → ArgStorage) :
    Option (Task F) → ArgStorage → ArgStorage
  | some (.function f), storage => effect f storage
  | _, storage => storage

variable (effect : F → ArgStorage → ArgStorage)

/-- `TaskRunner_HandleTasks` -/
def runnerStep (s : State τ F) : Option (State τ F) :=
  match s.runner with
  | .checkTerminate =>
    some { s with runner := if s.shouldTerminate then .exited else .signalReady }
  | .signalReady => some { s with runner := .waitParametersSet, readyEvent := true }
  | .waitParametersSet =>
    if s.parametersSetEvent then
      some { s with runner := .callTask, parametersSetEvent := false }
    else none
  | .callTask =>
    some { s with
      runner := .inTask
      argStorage := Task.effect effect s.task s.argStorage
      executed := s.executed ++ [(s.task, s.argStorage)] }
  | .inTask => some { s with runner := .checkTerminate }
  | .exited => none

/-- `TaskRunner_Terminate` is called once. -/
def step (s : State τ F) : Event τ F → Option (State τ F)
  | .runTask t request => enter s t (.runTask request)
  | .terminate t =>
    if s.shouldTerminate then none
    else enter { s with shouldTerminate := true } t (.runTask ⟨.taskRunnerNoOpFunction, []⟩)
  | .waitReady t => enter s t .waitReady
  | .caller t => callerStep s t
  | .runner => runnerStep effect s

/-- The steps that are enabled in a state, each with the state it leads to. -/
inductive Moves (s : State τ F) : Event τ F → State τ F → Prop
  | runTask (t : τ) (request : Request F) (ht : s.caller t = .idle) :
    Moves s (.runTask t request) (s.goTo t (.runTask request))
  | terminate (t : τ) (ht : s.caller t = .idle) (hflag : s.shouldTerminate = false) :
    Moves s (.terminate t)
      { s.goTo t (.runTask ⟨.taskRunnerNoOpFunction, []⟩) with shouldTerminate := true }
  | waitReady (t : τ) (ht : s.caller t = .idle) : Moves s (.waitReady t) (s.goTo t .waitReady)
  | takeReady (t : τ) (request : Request F) (ht : s.caller t = .runTask request)
      (hready : s.readyEvent = true) :
    Moves s (.caller t) { s.goTo t (.setTask request) with
      readyEvent := false
      accepted := s.accepted ++ [request] }
  | setTask (t : τ) (request : Request F) (ht : s.caller t = .setTask request) :
    Moves s (.caller t) { s.goTo t (.setArgs request) with task := some request.task }
  | setArgs (t : τ) (request : Request F) (ht : s.caller t = .setArgs request) :
    Moves s (.caller t) { s.goTo t (.signalParametersSet request) with
      argStorage := s.argStorage.memcpy request.argdata }
  | signalParametersSet (t : τ) (request : Request F)
      (ht : s.caller t = .signalParametersSet request) :
    Moves s (.caller t) { s.goTo t .idle with parametersSetEvent := true }
  | dropReady (t : τ) (ht : s.caller t = .waitReady) (hready : s.readyEvent = true) :
    Moves s (.caller t) { s.goTo t .idle with readyEvent := false }
  | exit (hrunner : s.runner = .checkTerminate) (hflag : s.shouldTerminate = true) :
    Moves s .runner { s with runner := .exited }
  | stay (hrunner : s.runner = .checkTerminate) (hflag : s.shouldTerminate = false) :
    Moves s .runner { s with runner := .signalReady }
  | signalReady (hrunner : s.runner = .signalReady) :
    Moves s .runner { s with runner := .waitParametersSet, readyEvent := true }
  | takeParameters (hrunner : s.runner = .waitParametersSet)
      (hset : s.parametersSetEvent = true) :
    Moves s .runner { s with runner := .callTask, parametersSetEvent := false }
  | callTask (hrunner : s.runner = .callTask) :
    Moves s .runner { s with
      runner := .inTask
      argStorage := Task.effect effect s.task s.argStorage
      executed := s.executed ++ [(s.task, s.argStorage)] }
  | finishTask (hrunner : s.runner = .inTask) :
    Moves s .runner { s with runner := .checkTerminate }

theorem enter_eq_some {s s' : State τ F} {t : τ} {pc : Caller F} (h : enter s t pc = some s') :
    s.caller t = .idle ∧ s' = s.goTo t pc := by
  unfold enter at h
  split at h
  · next ht => exact ⟨ht, (Option.some.inj h).symm⟩
  · cases h

theorem callerStep_moves {s s' : State τ F} {t : τ} (h : callerStep s t = some s') :
    Moves effect s (.caller t) s' := by
  unfold callerStep at h
  split at h
  · cases h
  · next request ht =>
    split_ifs at h with hready
    cases h
    exact .takeReady t request ht hready
  · next request ht =>
    cases h
    exact .setTask t request ht
  · next request ht =>
    cases h
    exact .setArgs t request ht
  · next request ht =>
    cases h
    exact .signalParametersSet t request ht
  · next ht =>
    split_ifs at h with hready
    cases h
    exact .dropReady t ht hready

theorem runnerStep_moves {s s' : State τ F} (h : runnerStep effect s = some s') :
    Moves effect s .runner s' := by
  unfold runnerStep at h
  split at h
  · next hrunner =>
    split_ifs at h with hflag
    · cases h
      exact .exit hrunner hflag
    · cases h
      exact .stay hrunner (Bool.eq_false_iff.mpr hflag)
  · next hrunner =>
    cases h
    exact .signalReady hrunner
  · next hrunner =>
    split_ifs at h with hset
    cases h
    exact .takeParameters hrunner hset
  · next hrunner =>
    cases h
    exact .callTask hrunner
  · next hrunner =>
    cases h
    exact .finishTask hrunner
  · cases h

theorem step_moves {s s' : State τ F} {e : Event τ F} (h : step effect s e = some s') :
    Moves effect s e s' := by
  cases e with
  | runTask t request =>
    obtain ⟨ht, rfl⟩ := enter_eq_some h
    exact .runTask t request ht
  | terminate t =>
    rw [step] at h
    split_ifs at h with hflag
    obtain ⟨ht, rfl⟩ := enter_eq_some h
    exact .terminate t ht (Bool.eq_false_iff.mpr hflag)
  | waitReady t =>
    obtain ⟨ht, rfl⟩ := enter_eq_some h
    exact .waitReady t ht
  | caller t => exact callerStep_moves effect h
  | runner => exact runnerStep_moves effect h

end Step

/-! ## The slot -/

section Slot
variable {τ F : Type*}

/-- A call of a task with the arguments of the request, of which the storage holds 0x40 bytes. -/
def Request.Matches (request : Request F) (call : Option (Task F) × ArgStorage) : Prop :=
  call.1 = some request.task ∧ request.argdata.take 0x40 <+: call.2.val

/-- What a caller that took the ready event has set already. -/
def HasSet (task : Option (Task F)) (argStorage : ArgStorage) : Caller F → Prop
  | .setArgs request => task = some request.task
  | .signalParametersSet request => request.Matches (task, argStorage)
  | _ => True

/-- Nobody uses the slot. -/
structure Free (s : State τ F) : Prop where
  callers : ∀ t, (s.caller t).hands = none
  set : s.parametersSetEvent = false
  runner : s.runner ≠ .callTask
  ready : s.readyEvent = true → s.runner = .waitParametersSet
  calls : List.Forall₂ Request.Matches s.accepted s.executed

/-- A caller took the ready event, and fills the slot. -/
structure Held (s : State τ F) (t : τ) (request : Request F) : Prop where
  hands : (s.caller t).hands = some request
  others : ∀ u ≠ t, (s.caller u).hands = none
  set : s.parametersSetEvent = false
  ready : s.readyEvent = false
  runner : s.runner = .waitParametersSet
  calls : ∃ calls, s.accepted = calls ++ [request] ∧
    List.Forall₂ Request.Matches calls s.executed
  has : HasSet s.task s.argStorage (s.caller t)

/-- The slot is filled, and its task not called yet. -/
structure Filled (s : State τ F) (request : Request F) : Prop where
  callers : ∀ t, (s.caller t).hands = none
  set : s.runner = .waitParametersSet ∧ s.parametersSetEvent = true ∨
    s.runner = .callTask ∧ s.parametersSetEvent = false
  ready : s.readyEvent = false
  calls : ∃ calls, s.accepted = calls ++ [request] ∧
    List.Forall₂ Request.Matches calls s.executed
  isSet : request.Matches (s.task, s.argStorage)

inductive Slot (s : State τ F) : Prop
  | free (h : Free s)
  | held {t : τ} {request : Request F} (h : Held s t request)
  | filled {request : Request F} (h : Filled s request)

namespace Slot
variable {s : State τ F} {t : τ} {request : Request F}

theorem init : Slot (TaskRunner.init : State τ F) :=
  .free ⟨fun _ => rfl, rfl, fun h => Runner.noConfusion h, fun h => Bool.noConfusion h, .nil⟩

theorem free_of_ready (h : Slot s) (hready : s.readyEvent = true) : Free s := by
  cases h with
  | free h => exact h
  | held h => exact Bool.noConfusion (hready.symm.trans h.ready)
  | filled h => exact Bool.noConfusion (hready.symm.trans h.ready)

theorem free_of_runner (h : Slot s) (hwait : s.runner ≠ .waitParametersSet)
    (hcall : s.runner ≠ .callTask) : Free s := by
  cases h with
  | free h => exact h
  | held h => exact absurd h.runner hwait
  | filled h => exact (h.set.elim (fun h => hwait h.1) fun h => hcall h.1).elim

theorem not_ready (h : Slot s) (hwait : s.runner ≠ .waitParametersSet) :
    s.readyEvent = false := by
  by_contra hready
  have hready := Bool.eq_true_of_not_eq_false hready
  exact hwait ((h.free_of_ready hready).ready hready)

theorem held_of_hands (h : Slot s) (ht : (s.caller t).hands = some request) :
    Held s t request := by
  cases h with
  | free h => rw [h.callers t] at ht; cases ht
  | filled h => rw [h.callers t] at ht; cases ht
  | @held u request' h =>
    have hu : t = u := by
      by_contra hne
      rw [h.others t hne] at ht
      cases ht
    subst hu
    have hrequest : request' = request := Option.some.inj (h.hands.symm.trans ht)
    exact hrequest ▸ h

theorem filled_of_runner (h : Slot s) (hcall : s.runner = .callTask) :
    ∃ request, Filled s request := by
  cases h with
  | free h => exact absurd hcall h.runner
  | held h => rw [h.runner] at hcall; cases hcall
  | filled h => exact ⟨_, h⟩

theorem filled_of_set (h : Slot s) (hset : s.parametersSetEvent = true) :
    ∃ request, Filled s request := by
  cases h with
  | free h => exact Bool.noConfusion (hset.symm.trans h.set)
  | held h => exact Bool.noConfusion (hset.symm.trans h.set)
  | filled h => exact ⟨_, h⟩

end Slot

theorem Free.goTo {s : State τ F} {runner : Runner} {ready : Bool} (h : Free s)
    (hcall : runner ≠ .callTask) (hready : ready = true → runner = .waitParametersSet) :
    Free { s with runner, readyEvent := ready } :=
  { h with runner := hcall, ready := hready }

theorem Filled.call {s : State τ F} {request : Request F} {argStorage : ArgStorage}
    (h : Filled s request) (hrunner : s.runner = .callTask) :
    Free { s with
      runner := .inTask
      argStorage
      executed := s.executed ++ [(s.task, s.argStorage)] } := by
  obtain ⟨calls, haccepted, hcalls⟩ := h.calls
  refine ⟨h.callers, ?_, fun h => Runner.noConfusion h, fun hready => ?_, ?_⟩
  · obtain ⟨hwait, -⟩ | ⟨-, hset⟩ := h.set
    · rw [hrunner] at hwait
      cases hwait
    · exact hset
  · exact Bool.noConfusion (hready.symm.trans h.ready)
  · show List.Forall₂ Request.Matches s.accepted (s.executed ++ [_])
    rw [haccepted]
    exact List.rel_append hcalls (.cons h.isSet .nil)

end Slot

section Steps
variable {τ F : Type*} [DecidableEq τ]

theorem caller_update {α : Type*} (f : Caller F → α) {caller : τ → Caller F} {t : τ}
    {pc : Caller F} (h : f pc = f (caller t)) (u : τ) :
    f (Function.update caller t pc u) = f (caller u) := by
  by_cases hu : u = t
  · rw [hu, Function.update_self, h]
  · rw [Function.update_of_ne hu]

theorem Slot.enter {s : State τ F} {t : τ} {pc : Caller F} (h : Slot s)
    (ht : s.caller t = .idle) (hpc : pc.hands = none) (flag : Bool) :
    Slot { s.goTo t pc with shouldTerminate := flag } := by
  have hhands : ∀ u, (Function.update s.caller t pc u).hands = (s.caller u).hands :=
    caller_update Caller.hands (by rw [hpc, ht]; rfl)
  cases h with
  | free h => exact .free { h with callers := fun u => (hhands u).trans (h.callers u) }
  | filled h => exact .filled { h with callers := fun u => (hhands u).trans (h.callers u) }
  | @held u request h =>
    have hu : u ≠ t := by
      rintro rfl
      have hhands := h.hands
      rw [ht] at hhands
      cases hhands
    have hhas : HasSet s.task s.argStorage (Function.update s.caller t pc u) := by
      rw [Function.update_of_ne hu]
      exact h.has
    have hheld : Held { s.goTo t pc with shouldTerminate := flag } u request :=
      { h with
        hands := (hhands u).trans h.hands
        others := fun v hv => (hhands v).trans (h.others v hv)
        has := hhas }
    exact .held hheld

theorem Held.goTo {s : State τ F} {t : τ} {request : Request F} {pc : Caller F}
    {task : Option (Task F)} {argStorage : ArgStorage} (h : Held s t request)
    (hpc : pc.hands = some request) (hhas : HasSet task argStorage pc) :
    Held { s.goTo t pc with task, argStorage } t request := by
  have hhands : ∀ u, (Function.update s.caller t pc u).hands = (s.caller u).hands :=
    caller_update Caller.hands (hpc.trans h.hands.symm)
  refine { h with
    hands := (hhands t).trans h.hands
    others := fun u hu => (hhands u).trans (h.others u hu)
    has := ?_ }
  show HasSet task argStorage (Function.update s.caller t pc t)
  rw [Function.update_self]
  exact hhas

theorem Held.hands_release {s : State τ F} {t : τ} {request : Request F} (h : Held s t request)
    (u : τ) : (Function.update s.caller t .idle u).hands = none := by
  by_cases hu : u = t
  · rw [hu, Function.update_self]
    rfl
  · rw [Function.update_of_ne hu]
    exact h.others u hu

theorem Slot.step {effect : F → ArgStorage → ArgStorage} {s s' : State τ F} {e : Event τ F}
    (h : Slot s) (hmove : Moves effect s e s') : Slot s' := by
  cases hmove with
  | runTask t request ht => exact h.enter ht rfl s.shouldTerminate
  | terminate t ht hflag => exact h.enter ht rfl true
  | waitReady t ht => exact h.enter ht rfl s.shouldTerminate
  | takeReady t request ht hready =>
    have hfree := h.free_of_ready hready
    refine .held (show Held _ t request from
      ⟨?_, fun u hu => ?_, hfree.set, rfl, hfree.ready hready, ⟨_, rfl, hfree.calls⟩, ?_⟩)
    · show (Function.update s.caller t _ t).hands = _
      rw [Function.update_self]
      rfl
    · show (Function.update s.caller t _ u).hands = _
      rw [Function.update_of_ne hu]
      exact hfree.callers u
    · show HasSet _ _ (Function.update s.caller t _ t)
      rw [Function.update_self]
      trivial
  | setTask t request ht =>
    have hheld : Held s t request := h.held_of_hands (by rw [ht]; rfl)
    exact .held (hheld.goTo rfl rfl)
  | setArgs t request ht =>
    have hheld : Held s t request := h.held_of_hands (by rw [ht]; rfl)
    have htask : s.task = some request.task := by
      have hhas := hheld.has
      rwa [ht] at hhas
    exact .held (hheld.goTo rfl ⟨htask, List.prefix_append _ _⟩)
  | signalParametersSet t request ht =>
    have hheld : Held s t request := h.held_of_hands (by rw [ht]; rfl)
    have hmatches : request.Matches (s.task, s.argStorage) := by
      have hhas := hheld.has
      rwa [ht] at hhas
    exact .filled
      ⟨hheld.hands_release, .inl ⟨hheld.runner, rfl⟩, hheld.ready, hheld.calls, hmatches⟩
  | dropReady t ht hready =>
    have hfree := h.free_of_ready hready
    have hhands : ∀ u, (Function.update s.caller t .idle u).hands = (s.caller u).hands :=
      caller_update Caller.hands (by rw [ht]; rfl)
    exact .free ⟨fun u => (hhands u).trans (hfree.callers u), hfree.set, hfree.runner,
      fun h => Bool.noConfusion h, hfree.calls⟩
  | exit hrunner hflag | stay hrunner hflag | finishTask hrunner =>
    have hfree := h.free_of_runner (by rw [hrunner]; decide) (by rw [hrunner]; decide)
    refine .free (hfree.goTo (by decide) fun hready => ?_)
    rw [hfree.ready hready] at hrunner
    cases hrunner
  | signalReady hrunner =>
    have hfree := h.free_of_runner (by rw [hrunner]; decide) (by rw [hrunner]; decide)
    exact .free (hfree.goTo (by decide) fun _ => rfl)
  | takeParameters hrunner hset =>
    obtain ⟨request, hfilled⟩ := h.filled_of_set hset
    exact .filled { hfilled with set := .inr ⟨rfl, rfl⟩ }
  | callTask hrunner =>
    obtain ⟨request, hfilled⟩ := h.filled_of_runner hrunner
    exact .free (hfilled.call hrunner)

end Steps

/-! ## What is accepted is executed -/

section Laws
variable {τ F : Type*} [DecidableEq τ] (effect : F → ArgStorage → ArgStorage)

/-- The accepted tasks are called once each, in their order and with their arguments. The last may
be still to come, but not once all threads have stopped; and nobody sets the parameters of the
next task while one is in progress. -/
structure ExecutesAccepted (s : State τ F) : Prop where
  once : ∃ calls pending, s.accepted = calls ++ pending ∧ pending.length ≤ 1 ∧
    List.Forall₂ Request.Matches calls s.executed
  complete : runnerStep effect s = none → (∀ t, callerStep s t = none) →
    List.Forall₂ Request.Matches s.accepted s.executed
  oneAtATime : s.runner = .inTask → ∀ t, (s.caller t).hands = none

theorem Held.moves {s : State τ F} {t : τ} {request : Request F} (h : Held s t request) :
    callerStep s t ≠ none := by
  have hhands := h.hands
  unfold callerStep
  split
  · next ht => rw [ht] at hhands; cases hhands
  · next ht => rw [ht] at hhands; cases hhands
  · exact Option.some_ne_none _
  · exact Option.some_ne_none _
  · exact Option.some_ne_none _
  · next ht => rw [ht] at hhands; cases hhands

omit [DecidableEq τ] in
theorem Filled.moves {s : State τ F} {request : Request F} (h : Filled s request) :
    runnerStep effect s ≠ none := by
  obtain ⟨hrunner, hset⟩ | ⟨hrunner, hset⟩ := h.set
  · simp [runnerStep, hrunner, hset]
  · simp [runnerStep, hrunner]

theorem Slot.executesAccepted {s : State τ F} (h : Slot s) : ExecutesAccepted effect s := by
  refine ⟨?_, fun hrunner hcallers => ?_, fun hrunner => ?_⟩
  · cases h with
    | free h => exact ⟨_, [], (List.append_nil _).symm, Nat.zero_le _, h.calls⟩
    | held h | filled h =>
      obtain ⟨calls, haccepted, hcalls⟩ := h.calls
      exact ⟨calls, _, haccepted, le_rfl, hcalls⟩
  · cases h with
    | free h => exact h.calls
    | held h => exact absurd (hcallers _) h.moves
    | filled h => exact absurd hrunner (h.moves effect)
  · exact (h.free_of_runner (by rw [hrunner]; decide) (by rw [hrunner]; decide)).callers

end Laws

/-! ## Nobody waits for ever -/

section Orderly
variable {τ F : Type*}

/-- A caller that waits for the ready event does not wait for a runner that has exited, or that
waits itself for parameters which nobody is about to set. -/
def NobodyStranded (s : State τ F) : Prop :=
  ∀ t, (s.caller t).waits = true → s.readyEvent = false → s.runner ≠ .exited ∧
    (s.runner = .waitParametersSet →
      s.parametersSetEvent = true ∨ ∃ u request, (s.caller u).hands = some request)

/-- The ready event went to a call of `TaskRunner_WaitReady`. -/
structure ReadyLost (s : State τ F) : Prop where
  runner : s.runner = .waitParametersSet
  ready : s.readyEvent = false
  set : s.parametersSetEvent = false
  callers : ∀ t, (s.caller t).hands = none

/-- `TaskRunner_Terminate` is called while the runner is ready, or about to signal that it is, and
no other thread waits for it; `TaskRunner_RunTask` is not called after that. A
`TaskRunner_WaitReady` returns only while no thread waits to run a task, and then none is run. -/
def Timely (s : State τ F) : Event τ F → Prop
  | .runTask _ _ => s.shouldTerminate = false ∧ ¬ReadyLost s
  | .terminate _ => (s.runner = .signalReady ∨ s.readyEvent = true) ∧
      ∀ u, (s.caller u).waits = false
  | .waitReady _ => True
  | .caller t => s.caller t = .waitReady → ∀ u, (s.caller u).waits = false
  | .runner => True

structure Orderly (s : State τ F) : Prop where
  slot : Slot s
  lost : ReadyLost s → ∀ t, (s.caller t).waits = false
  before : s.shouldTerminate = false → s.runner ≠ .exited
  after : s.shouldTerminate = true → ∀ t, (s.caller t).waits = true →
    (s.runner = .signalReady ∨ s.readyEvent = true) ∧ ∀ u, (s.caller u).waits = true → u = t

namespace Orderly
variable {s : State τ F}

theorem nobodyStranded (h : Orderly s) : NobodyStranded s := by
  intro t ht hready
  cases hflag : s.shouldTerminate with
  | true =>
    obtain ⟨hsignal | hsignal, -⟩ := h.after hflag t ht
    · rw [hsignal]
      exact ⟨by decide, fun h => Runner.noConfusion h⟩
    · exact Bool.noConfusion (hsignal.symm.trans hready)
  | false =>
    refine ⟨h.before hflag, fun hrunner => ?_⟩
    by_contra hnone
    obtain ⟨hset, hcallers⟩ := not_or.mp hnone
    have hlost : ReadyLost s := ⟨hrunner, hready, Bool.eq_false_iff.mpr hset, fun u =>
      Option.eq_none_iff_forall_ne_some.mpr fun request hu => hcallers ⟨u, request, hu⟩⟩
    exact Bool.noConfusion (ht.symm.trans (h.lost hlost t))

/-- Once it is to terminate, the thread of the runner that is past its signal is awaited by
nobody. -/
theorem nobody_waits (h : Orderly s) (hflag : s.shouldTerminate = true)
    (hsignal : s.runner ≠ .signalReady) (hready : s.readyEvent = false) (t : τ) :
    (s.caller t).waits = false := by
  by_contra ht
  obtain ⟨hrunner | hrunner, -⟩ := h.after hflag t (Bool.eq_true_of_not_eq_false ht)
  · exact hsignal hrunner
  · exact Bool.noConfusion (hrunner.symm.trans hready)

theorem init : Orderly (TaskRunner.init : State τ F) :=
  ⟨.init, fun _ _ => rfl, fun _ h => Runner.noConfusion h, fun h => Bool.noConfusion h⟩

theorem of_nobody (hslot : Slot s) (hnobody : ∀ t, (s.caller t).waits = false)
    (hbefore : s.shouldTerminate = false → s.runner ≠ .exited) : Orderly s :=
  ⟨hslot, fun _ => hnobody, hbefore, fun _ t ht => Bool.noConfusion (ht.symm.trans (hnobody t))⟩

theorem of_caller {s' : State τ F} (h : Orderly s) (hslot : Slot s')
    (hflag : s'.shouldTerminate = s.shouldTerminate) (hrunner : s'.runner = s.runner)
    (hready : s'.readyEvent = s.readyEvent)
    (hwaits : ∀ t, (s'.caller t).waits = (s.caller t).waits)
    (hlost : ReadyLost s' → ReadyLost s) : Orderly s' := by
  refine ⟨hslot, fun hlost' t => ?_, fun h' => ?_, fun h' t ht => ?_⟩
  · rw [hwaits]
    exact h.lost (hlost hlost') t
  · rw [hrunner]
    exact h.before (hflag.symm.trans h')
  · obtain ⟨hsignal, hlast⟩ := h.after (hflag.symm.trans h') t ((hwaits t).symm.trans ht)
    rw [hrunner, hready]
    exact ⟨hsignal, fun u hu => hlast u ((hwaits u).symm.trans hu)⟩

theorem of_runner {s' : State τ F} {next : Runner} (h : Orderly s) (hslot : Slot s')
    (hflag : s'.shouldTerminate = s.shouldTerminate) (hcaller : s'.caller = s.caller)
    (hnext : s'.runner = next) (hexited : next ≠ .exited) (hwait : next ≠ .waitParametersSet)
    (hsignal : s.shouldTerminate = true → s.runner ≠ .signalReady)
    (hready : s.readyEvent = false) : Orderly s' := by
  refine ⟨hslot, fun h => (hwait (hnext.symm.trans h.runner)).elim, fun _ => hnext ▸ hexited,
    fun h' t ht => ?_⟩
  have hnobody := h.nobody_waits (hflag.symm.trans h') (hsignal (hflag.symm.trans h')) hready t
  rw [hcaller] at ht
  exact Bool.noConfusion (ht.symm.trans hnobody)

end Orderly

variable [DecidableEq τ]

theorem waits_update {caller : τ → Caller F} {t : τ} {pc : Caller F}
    (hpc : pc.waits = false) {u : τ} (hu : (Function.update caller t pc u).waits = true) :
    u ≠ t ∧ (caller u).waits = true := by
  by_cases hut : u = t
  · rw [hut, Function.update_self, hpc] at hu
    cases hu
  · rw [Function.update_of_ne hut] at hu
    exact ⟨hut, hu⟩

theorem not_readyLost {s' : State τ F} {caller : τ → Caller F} {t : τ} (pc : Caller F)
    {request : Request F} (hcaller : s'.caller = Function.update caller t pc)
    (hpc : pc.hands = some request) : ¬ReadyLost s' := by
  intro hlost
  have hnone := hlost.callers t
  rw [hcaller, Function.update_self, hpc] at hnone
  cases hnone

theorem Orderly.step {effect : F → ArgStorage → ArgStorage} {s s' : State τ F} {e : Event τ F}
    (h : Orderly s) (hC : Timely s e) (hmove : Moves effect s e s') : Orderly s' := by
  have hslot := h.slot.step hmove
  cases hmove with
  | runTask t request ht =>
    obtain ⟨hflag, hlost⟩ := hC
    have hhands : ∀ u, (Function.update s.caller t (.runTask request) u).hands =
        (s.caller u).hands := caller_update Caller.hands (by rw [ht]; rfl)
    refine ⟨hslot, fun h => (hlost ?_).elim, h.before, fun h => ?_⟩
    · exact ⟨h.runner, h.ready, h.set, fun u => (hhands u).symm.trans (h.callers u)⟩
    · exact Bool.noConfusion (hflag.symm.trans h)
  | terminate t ht hflag =>
    obtain ⟨hsignal, hothers⟩ := hC
    have hlast : ∀ u, (Function.update s.caller t
        (.runTask ⟨.taskRunnerNoOpFunction, []⟩) u).waits = true → u = t := by
      intro u hu
      by_contra hut
      rw [Function.update_of_ne hut, hothers u] at hu
      cases hu
    refine ⟨hslot, fun hlost => ?_, fun h => Bool.noConfusion h,
      fun _ u hu => ⟨hsignal, fun v hv => (hlast v hv).trans (hlast u hu).symm⟩⟩
    obtain hsignal | hready := hsignal
    · exact Runner.noConfusion (hsignal.symm.trans hlost.runner)
    · exact Bool.noConfusion (hready.symm.trans hlost.ready)
  | waitReady t ht =>
    have hhands : ∀ u, (Function.update s.caller t .waitReady u).hands = (s.caller u).hands :=
      caller_update Caller.hands (by rw [ht]; rfl)
    exact h.of_caller hslot rfl rfl rfl (caller_update Caller.waits (by rw [ht]; rfl)) fun hlost =>
      ⟨hlost.runner, hlost.ready, hlost.set, fun u => (hhands u).symm.trans (hlost.callers u)⟩
  | takeReady t request ht hready =>
    refine ⟨hslot, fun hlost => ?_, h.before, fun hflag u hu => ?_⟩
    · exact (not_readyLost (.setTask request) rfl rfl hlost).elim
    · obtain ⟨hut, hu⟩ := waits_update rfl hu
      exact absurd ((h.after hflag t (by rw [ht]; rfl)).2 u hu) hut
  | setTask t request ht =>
    exact h.of_caller hslot rfl rfl rfl (caller_update Caller.waits (by rw [ht]; rfl))
      fun hlost => (not_readyLost (.setArgs request) rfl rfl hlost).elim
  | setArgs t request ht =>
    exact h.of_caller hslot rfl rfl rfl (caller_update Caller.waits (by rw [ht]; rfl))
      fun hlost => (not_readyLost (.signalParametersSet request) rfl rfl hlost).elim
  | signalParametersSet t request ht =>
    exact h.of_caller hslot rfl rfl rfl (caller_update Caller.waits (by rw [ht]; rfl))
      fun hlost => Bool.noConfusion hlost.set
  | dropReady t ht hready =>
    have hwaits : ∀ u, (Function.update s.caller t .idle u).waits = (s.caller u).waits :=
      caller_update Caller.waits (by rw [ht]; rfl)
    exact .of_nobody hslot (fun u => (hwaits u).trans (hC ht u)) h.before
  | exit hrunner hflag =>
    have hready := h.slot.not_ready (by rw [hrunner]; decide)
    exact .of_nobody hslot (h.nobody_waits hflag (by rw [hrunner]; decide) hready)
      fun h => Bool.noConfusion (hflag.symm.trans h)
  | stay hrunner hflag =>
    have hready := h.slot.not_ready (by rw [hrunner]; decide)
    exact h.of_runner hslot rfl rfl rfl (fun h => Runner.noConfusion h)
      (fun h => Runner.noConfusion h) (fun h => Bool.noConfusion (hflag.symm.trans h)) hready
  | signalReady hrunner =>
    exact ⟨hslot, fun hlost => Bool.noConfusion hlost.ready, fun _ h => Runner.noConfusion h,
      fun hflag t ht => ⟨.inr rfl, (h.after hflag t ht).2⟩⟩
  | takeParameters hrunner hset =>
    obtain ⟨request, hfilled⟩ := h.slot.filled_of_set hset
    exact h.of_runner hslot rfl rfl rfl (fun h => Runner.noConfusion h)
      (fun h => Runner.noConfusion h) (fun _ => by rw [hrunner]; decide) hfilled.ready
  | callTask hrunner | finishTask hrunner =>
    have hready := h.slot.not_ready (by rw [hrunner]; decide)
    exact h.of_runner hslot rfl rfl rfl (fun h => Runner.noConfusion h)
      (fun h => Runner.noConfusion h) (fun _ => by rw [hrunner]; decide) hready

/-- Every task that is accepted is executed, and while the calls are timely no caller waits for a
runner that waits for ever or is gone. -/
theorem tasks_executed_nobody_stranded (effect : F → ArgStorage → ArgStorage)
    (events : List (Event τ F)) (h : Guarded (TaskRunner.step effect) Timely init events) :
    AllSteps (TaskRunner.step effect) (fun _ _ s => ExecutesAccepted effect s ∧ NobodyStranded s)
      init events :=
  allSteps_of_guarded (fun _ _ _ horderly hC hstep =>
    have horderly := horderly.step hC (step_moves effect hstep)
    ⟨horderly, horderly.slot.executesAccepted effect, horderly.nobodyStranded⟩) Orderly.init h

/-- The thread waits for the signal of a runner that has exited. -/
structure Stranded (t : τ) (s : State τ F) : Prop where
  waits : (s.caller t).waits = true
  ready : s.readyEvent = false
  runner : s.runner = .exited

theorem Stranded.step {effect : F → ArgStorage → ArgStorage} {s s' : State τ F}
    {e : Event τ F} {t : τ} (h : Stranded t s) (hmove : Moves effect s e s') : Stranded t s' := by
  have hother : ∀ {u pc}, (s.caller u).waits = false →
      (Function.update s.caller u pc t).waits = true := by
    intro u pc hu
    have htu : t ≠ u := by
      rintro rfl
      exact Bool.noConfusion (hu.symm.trans h.waits)
    rw [Function.update_of_ne htu]
    exact h.waits
  cases hmove with
  | takeReady u request hu hready | dropReady u hu hready =>
    exact Bool.noConfusion (hready.symm.trans h.ready)
  | runTask u request hu | waitReady u hu | terminate u hu | setTask u request hu
    | setArgs u request hu | signalParametersSet u request hu =>
    exact ⟨hother (by rw [hu]; rfl), h.ready, h.runner⟩
  | exit hrunner | stay hrunner | signalReady hrunner | takeParameters hrunner | callTask hrunner
    | finishTask hrunner => exact Runner.noConfusion (hrunner.symm.trans h.runner)

/-- Nothing that any thread does lets go a thread that waits for a runner that has exited. -/
theorem stranded_for_ever {effect : F → ArgStorage → ArgStorage} {s s' : State τ F} {t : τ}
    {events : List (Event τ F)} (h : Stranded t s)
    (hrun : run (TaskRunner.step effect) s events = some s') : Stranded t s' :=
  AllSteps.run h (allSteps_of_invariant (fun _ _ _ h hstep =>
    have h := h.step (step_moves effect hstep)
    ⟨h, h⟩) h events) hrun

/-- Two callers, of which one runs a task and the other then terminates the runner. -/
def runThenTerminate : List (Event Bool Unit) :=
  [.runner, .runner, .runTask false ⟨.function (), [1, 2]⟩,
    .caller false, .caller false, .caller false, .caller false, .runner, .runner, .runner, .runner,
    .terminate true, .runner, .caller true, .caller true, .caller true, .caller true,
    .runner, .runner, .runner, .runner]

theorem runThenTerminate_timely :
    Guarded (TaskRunner.step fun _ storage => storage) Timely init runThenTerminate := by
  refine .cons rfl trivial <| .cons rfl trivial <|
    .cons rfl ⟨rfl, fun h => Bool.noConfusion h.ready⟩ ?_
  iterate 4 refine .cons rfl (fun h => by cases h) ?_
  iterate 4 refine .cons rfl trivial ?_
  refine .cons rfl ⟨.inl rfl, fun u => by cases u <;> rfl⟩ <| .cons rfl trivial ?_
  iterate 4 refine .cons rfl (fun h => by cases h) ?_
  iterate 4 refine .cons rfl trivial ?_
  trivial

theorem tasks_executed_then_terminated :
    AllSteps (TaskRunner.step fun _ storage => storage)
      (fun _ _ s => ExecutesAccepted (fun _ storage => storage) s ∧ NobodyStranded s) init
      runThenTerminate :=
  tasks_executed_nobody_stranded _ _ runThenTerminate_timely

/-- The runner is told to terminate in the middle of a task, and does not signal again. -/
theorem terminate_in_task_strands :
    ¬∀ events : List (Event Bool Unit), AllSteps (TaskRunner.step fun _ storage => storage)
      (fun _ _ s => ExecutesAccepted (fun _ storage => storage) s ∧ NobodyStranded s) init
      events := by
  intro h
  have hlast := (h ([.runner, .runner, .runTask false ⟨.function (), [1, 2]⟩, .caller false,
    .caller false, .caller false, .caller false, .runner, .runner, .terminate true, .runner] ++
      [.runner])).last rfl rfl
  exact (hlast.2 true rfl rfl).1 rfl

end Orderly

end Presence3DS.Rosalina.TaskRunner
