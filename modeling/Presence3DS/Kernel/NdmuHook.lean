import Presence3DS.Kernel.State
import Presence3DS.Kernel.SessionInfo

/-! The `ndm:u` cases of `SendSyncRequestHook`: a game's request is let through, answered by
the hook itself, or held while Rosalina is asked to release the radio. -/

namespace Presence3DS.Kernel
open CString

inductive NdmuCommand where
  | enterExclusiveState (mode : BitVec 32)
  | leaveExclusiveState
deriving DecidableEq

/-- A request, and what the hook looks up about its sender. -/
structure NdmuRequest where
  info : Option SessionInfo
  pid : BitVec 32
  command : NdmuCommand
deriving DecidableEq

/-- The characters of `"ndm:u"`. -/
def ndmuName : Bytes := [110, 100, 109, 58, 117]

def isNdmu (info : Option SessionInfo) : Bool :=
  info.any fun info => str info.name = ndmuName

/-- Where the hook stands with a request. `asked` tells the outcomes after a wait for
Rosalina from the others. -/
inductive HookPc where
  | idle
  | clearAck
  | setAsk
  | waitForAck (iters : Nat)
  | withdraw
  | setLeave
  | passed (asked : Bool)
  | faked (asked : Bool)
deriving DecidableEq

/-- A request in the branch that asks Rosalina, not yet passed or faked. -/
def HookPc.pending : HookPc → Bool
  | .clearAck | .setAsk | .waitForAck _ | .withdraw => true
  | _ => false

/-- The request has cleared the ACK of earlier sessions. -/
def HookPc.asking : HookPc → Bool
  | .setAsk | .waitForAck _ | .withdraw => true
  | _ => false

/-- The request may still see an ACK. -/
def HookPc.waiting : HookPc → Bool
  | .setAsk | .waitForAck _ => true
  | _ => false

section Hook
variable (nbSection0Modules : BitVec 32) (k : KernelState)

def isNdmuWorkaround (info : Option SessionInfo) (pid : BitVec 32) : Bool :=
  isNdmu info && k.hasStartedRosalinaNetworkFuncs && decide (nbSection0Modules ≤ pid)

def isNdmuYieldLeave (info : Option SessionInfo) (pid : BitVec 32) : Bool :=
  isNdmu info && decide (nbSection0Modules ≤ pid) && k.ackBit

def hookEntry (r : NdmuRequest) : HookPc :=
  match r.command with
  | .enterExclusiveState mode =>
    if isNdmuWorkaround nbSection0Modules k r.info r.pid then
      if 2 ≤ mode then .clearAck
      else if mode = 1 then .faked false
      else .passed false
    else .passed false
  | .leaveExclusiveState =>
    if isNdmuYieldLeave nbSection0Modules k r.info r.pid then .setLeave
    else if isNdmuWorkaround nbSection0Modules k r.info r.pid then .faked false
    else .passed false

/-- One turn of the loop of `ndmuWaitForAck`, at most 101 of them. -/
def waitForAckTurn (iters : Nat) : HookPc :=
  if k.ackBit then .passed true
  else if !k.askBit || 100 ≤ iters then .withdraw
  else .waitForAck (iters + 1)

def hookStep : HookPc → Option (HookPc × KernelState)
  | .clearAck => some (.setAsk, k.ndmuYieldStateClearBits ndmuBitAck)
  | .setAsk => some (.waitForAck 0, k.ndmuYieldStateSetBits ndmuBitAsk)
  | .waitForAck iters => some (waitForAckTurn k iters, k)
  | .withdraw => some (.faked true, k.ndmuYieldStateClearBits ndmuBitAsk)
  | .setLeave => some (.passed false, k.ndmuYieldStateSetBits ndmuBitLeave)
  | .idle | .passed _ | .faked _ => none

theorem hookEntry_cases (r : NdmuRequest) :
    hookEntry nbSection0Modules k r = .clearAck ∨ hookEntry nbSection0Modules k r = .passed false ∨
      hookEntry nbSection0Modules k r = .faked false ∨ hookEntry nbSection0Modules k r = .setLeave := by
  unfold hookEntry
  cases r.command with
  | enterExclusiveState mode =>
    simp only
    split_ifs <;> simp
  | leaveExclusiveState =>
    simp only
    split_ifs <;> simp

end Hook

end Presence3DS.Kernel
