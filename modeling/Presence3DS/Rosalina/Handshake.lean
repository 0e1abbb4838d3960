import Presence3DS.Kernel.NdmuHook
import Presence3DS.Rosalina.Yield

/-! The yield handshake as a system: the requests of games in the kernel's hook, the menu
thread in `ndmYieldProcess`, the main thread in `ndmYieldOnAppExit`, and the threads that open
and close the socket service. A step is one access to shared state; what runs under the lock
of the module is open to the kernel's hook between any two of its system calls. -/

namespace Presence3DS.Rosalina
open Kernel Runs

/-- The menu thread in `ndmYieldProcess`. -/
inductive MenuPc where
  | idle
  | snapshot (state : BitVec 32)
  | refuse
  | releaseSoc
  | releaseBit
  | releaseGeneration
  | releaseAck
  | restoreSoc
  | restoreBit
  | restoreReset
  | unlock (ended : Bool)
deriving DecidableEq

/-- The main thread in `ndmYieldOnAppExit`. -/
inductive AppExitPc where
  | idle
  | restoreBit
  | restoreReset
  | unlock
deriving DecidableEq

def MenuPc.holdsLock : MenuPc → Bool
  | .idle | .snapshot _ => false
  | _ => true

def AppExitPc.holdsLock : AppExitPc → Bool
  | .idle => false
  | _ => true

/-- Which request set ASK last, which one the menu thread's snapshot shows, for which one the
radio was last lent and for which ones it was ever released. The code keeps none of it. -/
structure History where
  asker : Option Nat
  seen : Option Nat
  lentFor : Option Nat
  released : Nat → Bool

structure System where
  yield : YieldState
  hook : Nat → HookPc
  menu : MenuPc
  appExit : AppExitPc
  history : History

namespace System

def boot (autobootTwlTitleId : BitVec 64) : System where
  yield := .boot autobootTwlTitleId
  hook _ := .idle
  menu := .idle
  appExit := .idle
  history := ⟨none, none, none, fun _ => false⟩

def setKernel (s : System) (k : KernelState) : System :=
  { s with yield := { s.yield with kernel := k } }

def setHook (s : System) (r : Nat) (pc : HookPc) : System :=
  { s with hook := Function.update s.hook r pc }

def menuTo (s : System) (pc : MenuPc) (yield : YieldState) : System :=
  { s with menu := pc, yield := yield }

def appExitTo (s : System) (pc : AppExitPc) (yield : YieldState) : System :=
  { s with appExit := pc, yield := yield }

end System

def hookTurn (s : System) (r : Nat) : Option System :=
  (hookStep s.yield.kernel (s.hook r)).map fun (pc, k) =>
    let s' := (s.setKernel k).setHook r pc
    if s.hook r = .clearAck then { s' with history := { s'.history with asker := some r } } else s'

def arrive (nbSection0Modules : BitVec 32) (s : System) (r : Nat) (request : NdmuRequest) :
    Option System :=
  if s.hook r = .idle then
    some (s.setHook r (hookEntry nbSection0Modules s.yield.kernel request))
  else none

/-- The menu thread takes the lock and decides what the snapshot calls for. -/
def menuDecide (e : ProcessAnswers) (state : BitVec 32) (s : System) : System :=
  match yieldDecision state e s.yield with
  | .refuse => s.menuTo .refuse s.yield
  | .release =>
    { s.menuTo .releaseSoc (s.yield.startYield (!e.discordStopped) e.tick) with
      history := { s.history with lentFor := s.history.seen } }
  | .restore =>
    s.menuTo .restoreSoc (s.yield.noteLeave state e.tick).endYield
  | .rearm => s.menuTo (.unlock false) ((s.yield.noteLeave state e.tick).rearm e.tickRearm)
  | .keep => s.menuTo (.unlock false)
      (if s.yield.yieldActive then s.yield.noteLeave state e.tick else s.yield)

def menuTurn (e : ProcessAnswers) (s : System) : Option System :=
  match s.menu with
  | .idle =>
    some { s.menuTo (.snapshot (ndmYieldSnapshot s.yield.kernel)) s.yield with
      history := { s.history with seen := s.history.asker } }
  | .snapshot state => if s.appExit.holdsLock then none else some (menuDecide e state s)
  | .refuse => some (s.menuTo (.unlock false) s.yield.refuse)
  | .releaseSoc => some (s.menuTo .releaseBit (s.yield.unlockSoc e.unlock))
  | .releaseBit => some (s.menuTo .releaseGeneration s.yield.releaseBit)
  | .releaseGeneration =>
    some { s.menuTo .releaseAck s.yield.bumpGeneration with
      history := { s.history with
        released := fun r => s.history.seen = some r || s.history.released r } }
  | .releaseAck =>
    some (s.menuTo (.unlock false) s.yield.ack)
  | .restoreSoc => some (s.menuTo .restoreBit (s.yield.lockSoc e.lock))
  | .restoreBit => some (s.menuTo .restoreReset (s.yield.restoreBit true))
  | .restoreReset => some (s.menuTo (.unlock true) s.yield.resetHandshake)
  | .unlock ended => some (s.menuTo .idle (s.yield.wakeAfter ended))

def appExitTurn (s : System) : Option System :=
  match s.appExit with
  | .idle =>
    if s.menu.holdsLock then none
    else if s.yield.yieldActive then some (s.appExitTo .restoreBit s.yield.endYield)
    else some (s.appExitTo .unlock s.yield)
  | .restoreBit => some (s.appExitTo .restoreReset (s.yield.restoreBit false))
  | .restoreReset => some (s.appExitTo .unlock s.yield.resetHandshake)
  | .unlock => some (s.appExitTo .idle s.yield)

inductive SystemAction where
  | arrive (r : Nat) (request : NdmuRequest)
  | hook (r : Nat)
  | menu (e : ProcessAnswers)
  | appExit
  | soc (c : SocCall)
  | safeSocExit (e : ExitAnswers)

def systemStep (nbSection0Modules : BitVec 32) (s : System) : SystemAction → Option System
  | .arrive r request => arrive nbSection0Modules s r request
  | .hook r => hookTurn s r
  | .menu e => menuTurn e s
  | .appExit => appExitTurn s
  | .soc c => (socStep s.yield.toSocState c).map fun soc =>
      { s with yield := { s.yield with toSocState := soc } }
  | .safeSocExit e =>
    if s.menu.holdsLock || s.appExit.holdsLock then none
    else some { s with yield := ndmYieldSafeSocExit e s.yield }

end Presence3DS.Rosalina
