import Presence3DS.Rosalina.MiniSoc

/-! Lending the radio to a game (`ndm_yield.c`): release, restore, and the functions that
call them under the lock of the module. -/

namespace Presence3DS.Rosalina
open Kernel Runs

/-- Probe delay while a session runs. -/
inductive YieldMode where
  | none
  | running
  | leaveGrace
deriving DecidableEq

structure YieldState extends SocState where
  yieldActive : Bool
  yieldGeneration : BitVec 32
  yieldMode : YieldMode
  yieldLastEventTick : BitVec 64
  bitCleared : Bool
  wasActive : Bool
  wakeEvent : Bool
deriving DecidableEq

def YieldState.boot (autobootTwlTitleId : BitVec 64) : YieldState :=
  ⟨.boot autobootTwlTitleId, false, 0, .none, 0, false, false, false⟩

/-- Whether `out`, the answer to the query of type 0x10000, has bit 0x10 set. -/
def kernelBitIsSet (k : KernelState) : Bool := k.getSystemInfo 0x10000 0x10 &&& 0x10 ≠ 0

structure NetworkUsers where
  inputRedirectionEnabled : Bool
  gdbReferenceCount : Nat
  gdbRunning : Bool

def networkOwnedByOthers (u : NetworkUsers) : Bool :=
  u.inputRedirectionEnabled || (u.gdbReferenceCount ≠ 0 || u.gdbRunning)

/-- `NDM_EXCLUSIVE_STATE_NONE` is 0. -/
def ndmProbeFree (probe : Option Nat) : Bool := probe = some 0

def ticksMs (ms : BitVec 64) : BitVec 64 := ms * (268111856 / 1000)

def yieldWatchdogMs : BitVec 64 := 10 * 1000
def yieldStartGraceMs : BitVec 64 := 5 * 1000
def leaveGraceMs : BitVec 64 := 3 * 1000

/-! ## Release and restore, one system call at a time -/

namespace YieldState

def unlockSoc (e : UnlockAnswers) (s : YieldState) : YieldState :=
  { s with toSocState := miniSocUnlockState false e s.toSocState }

def lockSoc (e : LockAnswers) (s : YieldState) : YieldState :=
  { s with toSocState := miniSocLockState e s.toSocState }

def toggleBit (s : YieldState) : YieldState := { s with kernel := s.kernel.toggleNetworkBit }

def kernelSetState (s : YieldState) (type varg1 : BitVec 32) : YieldState :=
  { s with kernel := s.kernel.kernelSetState type varg1 }

def releaseBit (s : YieldState) : YieldState :=
  if !s.bitCleared && kernelBitIsSet s.kernel then { s.toggleBit with bitCleared := true } else s

def bumpGeneration (s : YieldState) : YieldState :=
  { s with yieldGeneration := s.yieldGeneration + 1 }

def ack (s : YieldState) : YieldState := s.kernelSetState 0x110001 0
def resetHandshake (s : YieldState) : YieldState := s.kernelSetState 0x110001 1
def refuse (s : YieldState) : YieldState := s.kernelSetState 0x110001 2

def endYield (s : YieldState) : YieldState := { s with yieldActive := false, yieldMode := .none }

def restoreBit (full : Bool) (s : YieldState) : YieldState :=
  if s.bitCleared then
    let s := if full && s.miniSocEnabled && !kernelBitIsSet s.kernel then s.toggleBit else s
    { s with bitCleared := false }
  else s

def startYield (wasActive : Bool) (tick : BitVec 64) (s : YieldState) : YieldState :=
  { s with
    wasActive := wasActive
    yieldActive := true
    yieldMode := .running
    yieldLastEventTick := tick }

/-- A Leave shortens the delay before the next probe. -/
def noteLeave (state : BitVec 32) (tick : BitVec 64) (s : YieldState) : YieldState :=
  if state &&& ndmuBitLeave ≠ 0 ∧ s.yieldMode ≠ .leaveGrace then
    { s with yieldMode := .leaveGrace, yieldLastEventTick := tick }
  else s

def probeDue (tick : BitVec 64) (s : YieldState) : Bool :=
  let intervalMs := if s.yieldMode = .leaveGrace then leaveGraceMs
    else yieldStartGraceMs + yieldWatchdogMs
  ticksMs intervalMs ≤ tick - s.yieldLastEventTick

def rearm (tick : BitVec 64) (s : YieldState) : YieldState := { s with yieldLastEventTick := tick }

/-- The restart of the presence once the lock is dropped. -/
def wakeAfter (ended : Bool) (s : YieldState) : YieldState :=
  if ended && s.wasActive then { s with wasActive := false, wakeEvent := true } else s

end YieldState

open YieldState

def doRelease (e : UnlockAnswers) (s : YieldState) : YieldState :=
  (((s.unlockSoc e).releaseBit).bumpGeneration).ack

/-- `ndmWaitGameStateGone` only waits, so it leaves no trace here. -/
def doRestore (full : Bool) (e : LockAnswers) (s : YieldState) : YieldState :=
  let s := s.endYield
  let s := if full then s.lockSoc e else s
  (s.restoreBit full).resetHandshake

structure ProcessAnswers where
  users : NetworkUsers
  discordStopped : Bool
  tick : BitVec 64
  tickDue : BitVec 64
  tickRearm : BitVec 64
  probe : Option Nat
  unlock : UnlockAnswers
  lock : LockAnswers

/-- No other user of the network, and a game that is done. -/
def processGrants : ProcessAnswers where
  users := ⟨false, 0, false⟩
  discordStopped := false
  tick := 0
  tickDue := 0
  tickRearm := 0
  probe := some 0
  unlock := ⟨0, 0⟩
  lock := ⟨true, 0, 0⟩

/-- What `ndmYieldProcess` does with a snapshot of the handshake. -/
inductive YieldDecision where
  | refuse
  | release
  | restore
  | rearm
  | keep
deriving DecidableEq

def yieldDecision (state : BitVec 32) (e : ProcessAnswers) (s : YieldState) : YieldDecision :=
  if state &&& ndmuBitAsk ≠ 0 ∧ state &&& ndmuBitAck = 0 ∧ s.yieldActive = false then
    if networkOwnedByOthers e.users then .refuse else .release
  else if s.yieldActive then
    if (s.noteLeave state e.tick).probeDue e.tickDue then
      if ndmProbeFree e.probe then .restore else .rearm
    else .keep
  else .keep

def ndmYieldSnapshot (k : KernelState) : BitVec 32 := (k.getSystemInfo 0x10005 0).setWidth 32

def ndmYieldPerform (state : BitVec 32) (e : ProcessAnswers) (s : YieldState) :
    YieldDecision → YieldState
  | .refuse => s.refuse
  | .release => doRelease e.unlock (s.startYield (!e.discordStopped) e.tick)
  | .restore => (doRestore true e.lock (s.noteLeave state e.tick)).wakeAfter true
  | .rearm => (s.noteLeave state e.tick).rearm e.tickRearm
  | .keep => if s.yieldActive then s.noteLeave state e.tick else s

def ndmYieldProcess (e : ProcessAnswers) (s : YieldState) : YieldState :=
  let state := ndmYieldSnapshot s.kernel
  ndmYieldPerform state e s (yieldDecision state e s)

def ndmYieldOnAppExit (e : LockAnswers) (s : YieldState) : YieldState :=
  if s.yieldActive then doRestore false e s else s

def ndmYieldIsActive (s : YieldState) : Bool := s.yieldActive

def ndmYieldGetGeneration (s : YieldState) : BitVec 32 := s.yieldGeneration

/-- The result, and the generation the caller remembers from then on. -/
def ndmYieldRpcShouldExit (gen : BitVec 32) (s : YieldState) : Bool × BitVec 32 :=
  (s.yieldActive || s.yieldGeneration ≠ gen, s.yieldGeneration)

def ndmYieldSafeSocExit (e : ExitAnswers) (s : YieldState) : YieldState :=
  let yielding := s.yieldActive
  let bitWasOff := yielding && !kernelBitIsSet s.kernel
  let s := { s with toSocState := (miniSocExit e s.toSocState).2 }
  if bitWasOff && kernelBitIsSet s.kernel then s.toggleBit else s

/-! ## What the operations leave alone -/

theorem ndmYieldSnapshot_eq (k : KernelState) : ndmYieldSnapshot k = k.ndmuYieldState := by
  have hinfo : k.getSystemInfo 0x10005 0 = k.ndmuYieldState.setWidth 64 := rfl
  rw [ndmYieldSnapshot, hinfo, BitVec.setWidth_setWidth_of_le _ (by decide), BitVec.setWidth_eq]

namespace YieldState
variable (s : YieldState)

@[simp] theorem kernel_unlockSoc (e : UnlockAnswers) : (s.unlockSoc e).kernel = s.kernel :=
  kernel_unlockState false e s.toSocState

@[simp] theorem kernel_lockSoc (e : LockAnswers) : (s.lockSoc e).kernel = s.kernel :=
  kernel_lockState e s.toSocState

@[simp] theorem kernel_ack : s.ack.kernel = s.kernel.ndmuYieldStateSetBits ndmuBitAck := rfl

@[simp] theorem kernel_refuse :
    s.refuse.kernel = s.kernel.ndmuYieldStateClearBits ndmuBitAsk := rfl

@[simp] theorem kernel_resetHandshake :
    s.resetHandshake.kernel = s.kernel.ndmuYieldStateReset := rfl

@[simp] theorem yieldActive_ack : s.ack.yieldActive = s.yieldActive := rfl

@[simp] theorem yieldActive_refuse : s.refuse.yieldActive = s.yieldActive := rfl

@[simp] theorem yieldActive_resetHandshake : s.resetHandshake.yieldActive = s.yieldActive := rfl

@[simp] theorem ndmuYieldState_releaseBit :
    s.releaseBit.kernel.ndmuYieldState = s.kernel.ndmuYieldState := by
  unfold releaseBit
  split_ifs <;> rfl

@[simp] theorem ackBit_releaseBit : s.releaseBit.kernel.ackBit = s.kernel.ackBit := by
  unfold releaseBit
  split_ifs <;> rfl

@[simp] theorem yieldActive_releaseBit : s.releaseBit.yieldActive = s.yieldActive := by
  unfold releaseBit
  split_ifs <;> rfl

@[simp] theorem ndmuYieldState_restoreBit (full : Bool) :
    (s.restoreBit full).kernel.ndmuYieldState = s.kernel.ndmuYieldState := by
  unfold restoreBit
  split_ifs <;> rfl

@[simp] theorem yieldActive_restoreBit (full : Bool) :
    (s.restoreBit full).yieldActive = s.yieldActive := by
  unfold restoreBit
  split_ifs <;> rfl

@[simp] theorem kernel_noteLeave (state : BitVec 32) (tick : BitVec 64) :
    (s.noteLeave state tick).kernel = s.kernel := by
  unfold noteLeave
  split_ifs <;> rfl

@[simp] theorem yieldActive_noteLeave (state : BitVec 32) (tick : BitVec 64) :
    (s.noteLeave state tick).yieldActive = s.yieldActive := by
  unfold noteLeave
  split_ifs <;> rfl

@[simp] theorem kernel_wakeAfter (ended : Bool) : (s.wakeAfter ended).kernel = s.kernel := by
  unfold wakeAfter
  split_ifs <;> rfl

@[simp] theorem yieldActive_wakeAfter (ended : Bool) :
    (s.wakeAfter ended).yieldActive = s.yieldActive := by
  unfold wakeAfter
  split_ifs <;> rfl

end YieldState

theorem safeSocExit_eq (e : ExitAnswers) (s : YieldState) :
    ndmYieldSafeSocExit e s = { s with toSocState := (miniSocExit e s.toSocState).2 } := by
  have hquery : kernelBitIsSet (miniSocExit e s.toSocState).2.kernel = kernelBitIsSet s.kernel := by
    rcases exit_kernel e s.toSocState with hk | hk <;> rw [hk]
    rfl
  have hcond : ¬((s.yieldActive && !kernelBitIsSet s.kernel) &&
      kernelBitIsSet (miniSocExit e s.toSocState).2.kernel) = true := by
    rw [hquery]
    cases s.yieldActive <;> cases kernelBitIsSet s.kernel <;> decide
  exact if_neg hcond

end Presence3DS.Rosalina
