import Mathlib.Algebra.Order.Ring.Int
import Mathlib.Algebra.Order.Ring.Nat
import Mathlib.Data.List.TakeWhile
import Mathlib.Order.Fin.Basic

/-! The words of the kernel extension that Rosalina reads and writes through
`svcGetSystemInfo` and `svcKernelSetState`: the Rosalina state, the yield handshake of
`ndm:u`, and the boot configuration. -/

namespace Presence3DS.Kernel

abbrev Handle := BitVec 32

/-- A service or kernel result: 0 is success, negative is failure. -/
abbrev Result := Int

def rFailed (r : Result) : Bool := r < 0

/-- A value of a signed 32-bit integer, wrapped around. -/
def s32 (x : Int) : Int := (x + 2 ^ 31) % 2 ^ 32 - 2 ^ 31

def ndmuBitAsk : BitVec 32 := 1
def ndmuBitAck : BitVec 32 := 2
def ndmuBitLeave : BitVec 32 := 4

structure KernelState where
  rosalinaState : BitVec 32
  hasStartedRosalinaNetworkFuncs : Bool
  ndmuYieldState : BitVec 32
  /-- A field of the boot configuration, constant since boot. -/
  autobootTwlTitleId : BitVec 64
deriving DecidableEq

namespace KernelState

def boot (autobootTwlTitleId : BitVec 64) : KernelState := ⟨0, false, 0, autobootTwlTitleId⟩

def ndmuYieldStateSetBits (k : KernelState) (bits : BitVec 32) : KernelState :=
  { k with ndmuYieldState := k.ndmuYieldState ||| bits }

def ndmuYieldStateClearBits (k : KernelState) (bits : BitVec 32) : KernelState :=
  { k with ndmuYieldState := k.ndmuYieldState &&& ~~~bits }

def ndmuYieldStateReset (k : KernelState) : KernelState := { k with ndmuYieldState := 0 }

/-- The types Rosalina's network code uses; the thread locks of type 0x10000 concern bits 0 to 2. -/
def kernelSetState (k : KernelState) (type varg1 : BitVec 32) : KernelState :=
  if type = 0x10000 then
    let rosalinaState := k.rosalinaState ^^^ varg1
    { k with
      rosalinaState := rosalinaState
      hasStartedRosalinaNetworkFuncs := rosalinaState &&& 0x10 ≠ 0 }
  else if type = 0x110001 then
    if varg1 = 0 then k.ndmuYieldStateSetBits ndmuBitAck
    else if varg1 = 1 then k.ndmuYieldStateReset
    else if varg1 = 2 then k.ndmuYieldStateClearBits ndmuBitAsk
    else k
  else k

/-- The queries Rosalina's network code makes. -/
def getSystemInfo (k : KernelState) (type param : BitVec 32) : BitVec 64 :=
  if type = 0x10000 ∧ param = 0x10 then k.autobootTwlTitleId
  else if type = 0x10005 then k.ndmuYieldState.setWidth 64
  else 0

/-- Bit 0x10 of the Rosalina state: the kernel blocks the `ndm:u` calls of games. -/
def networkBit (k : KernelState) : Bool := k.rosalinaState.getLsbD 4

def askBit (k : KernelState) : Bool := k.ndmuYieldState &&& ndmuBitAsk ≠ 0

def ackBit (k : KernelState) : Bool := k.ndmuYieldState &&& ndmuBitAck ≠ 0

def toggleNetworkBit (k : KernelState) : KernelState := k.kernelSetState 0x10000 0x10

theorem and_twoPow_ne_zero {w : Nat} (x : BitVec w) {i : Nat} (hi : i < w) :
    decide (x &&& BitVec.twoPow w i ≠ 0) = x.getLsbD i := by
  have hpow : BitVec.twoPow w i ≠ 0 := by
    intro h
    have hbit := congrArg (fun y => y.getLsbD i) h
    simp [hi] at hbit
  rw [BitVec.and_twoPow]
  cases x.getLsbD i with
  | false => exact decide_eq_false fun h => h rfl
  | true => exact decide_eq_true hpow

theorem toggleNetworkBit_eq (k : KernelState) : k.toggleNetworkBit =
    { k with
      rosalinaState := k.rosalinaState ^^^ 0x10
      hasStartedRosalinaNetworkFuncs := (k.rosalinaState ^^^ 0x10).getLsbD 4 } := by
  rw [← and_twoPow_ne_zero _ (by decide : 4 < 32)]
  rfl

@[simp] theorem networkBit_toggle (k : KernelState) :
    k.toggleNetworkBit.networkBit = !k.networkBit := by
  simp only [toggleNetworkBit_eq, networkBit, BitVec.getLsbD_xor]
  cases k.rosalinaState.getLsbD 4 <;> rfl

@[simp] theorem hasStarted_toggle (k : KernelState) :
    k.toggleNetworkBit.hasStartedRosalinaNetworkFuncs = k.toggleNetworkBit.networkBit := by
  rw [toggleNetworkBit_eq]
  rfl

@[simp] theorem ndmuYieldState_toggle (k : KernelState) :
    k.toggleNetworkBit.ndmuYieldState = k.ndmuYieldState := rfl

@[simp] theorem autobootTwlTitleId_toggle (k : KernelState) :
    k.toggleNetworkBit.autobootTwlTitleId = k.autobootTwlTitleId := rfl

theorem askBit_eq (k : KernelState) : k.askBit = k.ndmuYieldState.getLsbD 0 :=
  and_twoPow_ne_zero k.ndmuYieldState (by decide : 0 < 32)

theorem ackBit_eq (k : KernelState) : k.ackBit = k.ndmuYieldState.getLsbD 1 :=
  and_twoPow_ne_zero k.ndmuYieldState (by decide : 1 < 32)

@[simp] theorem ask_zero : ndmuBitAsk[0] = true := by decide
@[simp] theorem ask_one : ndmuBitAsk[1] = false := by decide
@[simp] theorem ack_zero : ndmuBitAck[0] = false := by decide
@[simp] theorem ack_one : ndmuBitAck[1] = true := by decide
@[simp] theorem leave_zero : ndmuBitLeave[0] = false := by decide
@[simp] theorem leave_one : ndmuBitLeave[1] = false := by decide

section HandshakeBits
variable (k : KernelState) (bits : BitVec 32)

@[simp] theorem askBit_setBits : (k.ndmuYieldStateSetBits bits).askBit = (k.askBit || bits.getLsbD 0) := by
  rw [askBit_eq, askBit_eq]
  exact BitVec.getLsbD_or

@[simp] theorem ackBit_setBits : (k.ndmuYieldStateSetBits bits).ackBit = (k.ackBit || bits.getLsbD 1) := by
  rw [ackBit_eq, ackBit_eq]
  exact BitVec.getLsbD_or

@[simp] theorem askBit_clearBits :
    (k.ndmuYieldStateClearBits bits).askBit = (k.askBit && !bits.getLsbD 0) := by
  rw [askBit_eq, askBit_eq, ndmuYieldStateClearBits, BitVec.getLsbD_and, BitVec.getLsbD_not]
  rfl

@[simp] theorem ackBit_clearBits :
    (k.ndmuYieldStateClearBits bits).ackBit = (k.ackBit && !bits.getLsbD 1) := by
  rw [ackBit_eq, ackBit_eq, ndmuYieldStateClearBits, BitVec.getLsbD_and, BitVec.getLsbD_not]
  rfl

@[simp] theorem askBit_reset : k.ndmuYieldStateReset.askBit = false := by
  rw [askBit_eq]
  exact BitVec.getLsbD_zero

@[simp] theorem ackBit_reset : k.ndmuYieldStateReset.ackBit = false := by
  rw [ackBit_eq]
  exact BitVec.getLsbD_zero

end HandshakeBits

end KernelState
end Presence3DS.Kernel
