import Presence3DS.Rosalina.Agreement

/-! The life of the ACK bit: from the acknowledgement of a release until the end of the
session, so that the calls of the application pass straight through. -/

namespace Presence3DS.Rosalina
open Kernel Runs

/-- A session is running and its release has been acknowledged. -/
def System.acked (s : System) : Bool := s.yield.yieldActive && !s.menu.phase.releasing

/-- The request goes to `ndm:u` as it came. -/
def straightThrough : HookPc → Bool
  | .passed false | .setLeave => true
  | _ => false

/-- The ACK bit is set while an acknowledged session runs, and what arrives then passes. -/
def AckLaw (s : System) (a : SystemAction) (t : System) : Prop :=
  (t.acked = true → t.yield.kernel.ackBit = true) ∧
  match a with
  | .arrive r _ => s.acked = true → straightThrough (t.hook r) = true
  | _ => True

/-- While an acknowledged session runs, no Enter of a mode finds Rosalina's network started, and
none that arrived before clears the ACK. -/
def AckInScope (nbSection0Modules : BitVec 32) (s : System) : SystemAction → Prop
  | .arrive _ request => s.acked = true → ∀ mode, request.command = .enterExclusiveState mode →
      isNdmuWorkaround nbSection0Modules s.yield.kernel request.info request.pid = true → mode = 0
  | .hook r => s.hook r = .clearAck → s.acked = false
  | _ => True

structure AckInv (s : System) : Prop where
  bit : s.acked = true → s.yield.kernel.ackBit = true
  menu : s.menu = .restoreSoc ∨ s.menu = .restoreBit ∨ s.menu = .restoreReset →
    s.yield.yieldActive = false
  appExit : s.appExit = .restoreBit ∨ s.appExit = .restoreReset → s.yield.yieldActive = false

section Steps
variable {nbSection0Modules : BitVec 32} {s t : System}

theorem straightThrough_iff (hack : s.yield.kernel.ackBit = true) (request : NdmuRequest) :
    straightThrough (hookEntry nbSection0Modules s.yield.kernel request) = true ↔
      ∀ mode, request.command = .enterExclusiveState mode →
        isNdmuWorkaround nbSection0Modules s.yield.kernel request.info request.pid = true →
          mode = 0 := by
  unfold hookEntry
  cases request.command with
  | enterExclusiveState mode =>
    have hcommand : (∀ m, NdmuCommand.enterExclusiveState mode = .enterExclusiveState m →
        isNdmuWorkaround nbSection0Modules s.yield.kernel request.info request.pid = true → m = 0) ↔
        (isNdmuWorkaround nbSection0Modules s.yield.kernel request.info request.pid = true →
          mode = 0) :=
      ⟨fun h hwork => h mode rfl hwork, fun h m hm => by cases hm; exact h⟩
    rw [hcommand]
    simp only
    split_ifs with hwork htwo hone
    · have hzero : mode ≠ 0 := by rintro rfl; exact absurd htwo (by decide)
      exact ⟨fun h => absurd h Bool.false_ne_true, fun h => absurd (h hwork) hzero⟩
    · simp [hwork, straightThrough, hone]
    · have hzero : mode = 0 := by bv_omega
      simp [straightThrough, hzero]
    · simp [hwork, straightThrough]
  | leaveExclusiveState =>
    have hleave : isNdmuWorkaround nbSection0Modules s.yield.kernel request.info request.pid = true →
        isNdmuYieldLeave nbSection0Modules s.yield.kernel request.info request.pid = true := by
      unfold isNdmuWorkaround isNdmuYieldLeave
      rw [hack]
      simp only [Bool.and_eq_true]
      exact fun h => ⟨⟨h.1.1, h.2⟩, trivial⟩
    simp only
    split_ifs <;> simp_all [straightThrough]

theorem acked_of_hookTurn {r : Nat} (h : hookTurn s r = some t) :
    t.acked = s.acked ∧ t.yield.yieldActive = s.yield.yieldActive ∧ t.menu = s.menu ∧
      t.appExit = s.appExit := by
  obtain ⟨⟨pc, k⟩, -, rfl⟩ := Option.map_eq_some_iff.mp h
  simp only
  split_ifs <;> exact ⟨rfl, rfl, rfl, rfl⟩

theorem ackBit_of_hookTurn {r : Nat} (h : hookTurn s r = some t) :
    t.yield.kernel.ackBit = (s.yield.kernel.ackBit && !decide (s.hook r = .clearAck)) := by
  unfold hookTurn at h
  cases hpc : s.hook r with
  | idle | passed _ | faked _ => rw [hpc] at h; cases h
  | clearAck | setAsk | waitForAck _ | withdraw | setLeave =>
    rw [hpc] at h
    cases h
    simp [System.setKernel, System.setHook]

theorem hookTurn_law_iff (hs : AckInv s) {r : Nat} (h : hookTurn s r = some t) :
    (t.acked = true → t.yield.kernel.ackBit = true) ↔ (s.hook r = .clearAck → s.acked = false) := by
  rw [(acked_of_hookTurn h).1, ackBit_of_hookTurn h]
  have hbit := hs.bit
  cases hacked : s.acked with
  | false => simp only [Bool.false_eq_true, false_implies, implies_true]
  | true => simp [hbit hacked]

theorem AckInv.of_frame (hs : AckInv s) (hlaw : t.acked = true → t.yield.kernel.ackBit = true)
    (hlent : t.yield.yieldActive = s.yield.yieldActive) (hmenu : t.menu = s.menu)
    (hexit : t.appExit = s.appExit) : AckInv t where
  bit := hlaw
  menu := by rw [hmenu, hlent]; exact hs.menu
  appExit := by rw [hexit, hlent]; exact hs.appExit

theorem menuDecide_ack (hs : AckInv s) {state : BitVec 32} (hmenu : s.menu = .snapshot state)
    (hexit : s.appExit.holdsLock = false) (e : ProcessAnswers) : AckInv (menuDecide e state s) := by
  have hidle : s.appExit = .idle := by cases hpc : s.appExit <;> simp_all [AppExitPc.holdsLock]
  have hphase : s.menu.phase.releasing = false := by
    rw [hmenu, MenuPc.phase]
    split_ifs <;> rfl
  have hacked : s.acked = s.yield.yieldActive := by rw [System.acked, hphase]; exact Bool.and_true _
  have hbit := hs.bit
  rw [hacked] at hbit
  have hkeep : ∀ y : YieldState, y.kernel = s.yield.kernel → y.yieldActive = s.yield.yieldActive →
      ∀ pc, pc = .refuse ∨ pc = .unlock false → AckInv (s.menuTo pc y) := by
    intro y hkernel hlent pc hpc
    have hack : y.yieldActive = true → y.kernel.ackBit = true := by rw [hkernel, hlent]; exact hbit
    rcases hpc with rfl | rfl <;> constructor <;>
      simp [System.menuTo, System.acked, MenuPc.phase, Phase.releasing, hidle] <;> exact hack
  unfold menuDecide
  cases hd : yieldDecision state e s.yield with
  | refuse => exact hkeep s.yield rfl rfl _ (.inl rfl)
  | release =>
    constructor <;> simp [System.menuTo, System.acked, MenuPc.phase, Phase.releasing, hidle]
  | restore =>
    constructor <;> simp [System.menuTo, System.acked, YieldState.endYield]
  | rearm =>
    exact hkeep ((s.yield.noteLeave state e.tick).rearm e.tickRearm)
      (YieldState.kernel_noteLeave s.yield state e.tick)
      (YieldState.yieldActive_noteLeave s.yield state e.tick) _ (.inr rfl)
  | keep =>
    refine hkeep _ ?_ ?_ _ (.inr rfl) <;> split_ifs <;> simp

theorem menuTurn_ack (hs : AckInv s) {e : ProcessAnswers} (h : menuTurn e s = some t) :
    AckInv t := by
  obtain ⟨hbit, hmenus, hexits⟩ := hs
  unfold menuTurn at h
  cases hmenu : s.menu with
  | snapshot state =>
    rw [hmenu] at h
    simp only at h
    split_ifs at h with hlock
    cases h
    exact menuDecide_ack ⟨hbit, hmenus, hexits⟩ hmenu (Bool.eq_false_iff.mpr hlock) e
  | idle | refuse | releaseSoc | releaseBit | releaseGeneration | releaseAck | unlock ended =>
    rw [hmenu] at h
    cases h
    constructor <;> simp_all [System.menuTo, System.acked, MenuPc.phase, Phase.releasing,
      YieldState.unlockSoc, YieldState.bumpGeneration]
  | restoreSoc | restoreBit | restoreReset =>
    have hoff : s.yield.yieldActive = false := hmenus (by simp [hmenu])
    rw [hmenu] at h
    cases h
    constructor <;> simp [System.menuTo, System.acked, hoff, YieldState.lockSoc]

theorem appExitTurn_ack (hs : AckInv s) (h : appExitTurn s = some t) : AckInv t := by
  obtain ⟨hbit, hmenus, hexits⟩ := hs
  unfold appExitTurn at h
  cases hexit : s.appExit with
  | idle =>
    rw [hexit] at h
    simp only at h
    split_ifs at h with hlock hlent
    · cases h
      constructor <;> simp [System.appExitTo, System.acked, YieldState.endYield]
    · cases h
      exact ⟨hbit, hmenus, by simp [System.appExitTo]⟩
  | restoreBit | restoreReset =>
    have hoff : s.yield.yieldActive = false := hexits (by simp [hexit])
    rw [hexit] at h
    cases h
    constructor <;> simp [System.appExitTo, System.acked, hoff]
  | unlock =>
    rw [hexit] at h
    cases h
    exact ⟨hbit, hmenus, by simp [System.appExitTo]⟩

theorem soc_ack (hs : AckInv s) {soc : SocState}
    (hword : soc.kernel.ndmuYieldState = s.yield.kernel.ndmuYieldState) :
    AckInv { s with yield := { s.yield with toSocState := soc } } := by
  have hbit : s.acked = true → soc.kernel.ackBit = true := by
    unfold KernelState.ackBit
    rw [hword]
    exact hs.bit
  exact hs.of_frame hbit rfl rfl rfl

theorem ackLaw_iff (hs : AckInv s) (a : SystemAction)
    (h : systemStep nbSection0Modules s a = some t) :
    AckLaw s a t ↔ AckInScope nbSection0Modules s a := by
  cases a with
  | arrive r request =>
    unfold systemStep arrive at h
    simp only at h
    split_ifs at h
    cases h
    have hpc : (s.setHook r (hookEntry nbSection0Modules s.yield.kernel request)).hook r =
        hookEntry nbSection0Modules s.yield.kernel request := Function.update_self ..
    simp only [AckLaw, AckInScope, hpc]
    constructor
    · rintro ⟨-, hthrough⟩ hacked
      exact (straightThrough_iff (hs.bit hacked) request).mp (hthrough hacked)
    · refine fun hc => ⟨hs.bit, fun hacked => ?_⟩
      exact (straightThrough_iff (hs.bit hacked) request).mpr (hc hacked)
  | hook r =>
    simp only [AckLaw, AckInScope, and_true]
    exact hookTurn_law_iff hs h
  | menu e => exact ⟨fun _ => trivial, fun _ => ⟨(menuTurn_ack hs h).bit, trivial⟩⟩
  | appExit => exact ⟨fun _ => trivial, fun _ => ⟨(appExitTurn_ack hs h).bit, trivial⟩⟩
  | soc c =>
    obtain ⟨soc, hsoc, rfl⟩ := Option.map_eq_some_iff.mp h
    exact ⟨fun _ => trivial, fun _ => ⟨(soc_ack hs (socStep_ndmuYieldState hsoc)).bit, trivial⟩⟩
  | safeSocExit e =>
    unfold systemStep at h
    simp only at h
    split_ifs at h
    cases h
    have hword := socStep_ndmuYieldState (rfl : socStep s.yield.toSocState (.exit e) = _)
    rw [safeSocExit_eq]
    exact ⟨fun _ => trivial, fun _ => ⟨(soc_ack hs hword).bit, trivial⟩⟩

theorem systemStep_ack (hs : AckInv s) (a : SystemAction)
    (h : systemStep nbSection0Modules s a = some t) (hl : AckLaw s a t) : AckInv t := by
  cases a with
  | arrive r request =>
    unfold systemStep arrive at h
    simp only at h
    split_ifs at h
    cases h
    exact hs.of_frame hs.bit rfl rfl rfl
  | hook r =>
    obtain ⟨-, hlent, hmenu, hexit⟩ := acked_of_hookTurn h
    exact hs.of_frame hl.1 hlent hmenu hexit
  | menu e => exact menuTurn_ack hs h
  | appExit => exact appExitTurn_ack hs h
  | soc c =>
    obtain ⟨soc, hsoc, rfl⟩ := Option.map_eq_some_iff.mp h
    exact soc_ack hs (socStep_ndmuYieldState hsoc)
  | safeSocExit e =>
    unfold systemStep at h
    simp only at h
    split_ifs at h
    cases h
    have hword := socStep_ndmuYieldState (rfl : socStep s.yield.toSocState (.exit e) = _)
    rw [safeSocExit_eq]
    exact soc_ack hs hword

end Steps

theorem boot_ack (q : BitVec 64) : AckInv (System.boot q) where
  bit h := absurd h Bool.false_ne_true
  menu _ := rfl
  appExit _ := rfl

/-- A run keeps the life of the ACK bit throughout exactly when each of its steps is in scope. -/
theorem ack_runs_iff (nbSection0Modules : BitVec 32) (q : BitVec 64) (as : List SystemAction) :
    AllSteps (systemStep nbSection0Modules) AckLaw (System.boot q) as ↔
      Guarded (systemStep nbSection0Modules) (AckInScope nbSection0Modules) (System.boot q) as :=
  allSteps_iff_guarded (fun _ a _ hs h => ackLaw_iff hs a h)
    (fun _ a _ hs h hl => systemStep_ack hs a h hl) (boot_ack q) as

/-- The application asks again in the session it was granted. -/
def secondEnterRun : List SystemAction :=
  grantedRun ++ [.arrive 1 enterLocal, .hook 1]

theorem second_enter_clears_ack : ¬∀ nbSection0Modules q as,
    AllSteps (systemStep nbSection0Modules) AckLaw (System.boot q) as := by
  intro h
  have hend : (run (systemStep 0) (System.boot 0) secondEnterRun).map
      (fun t => (t.acked, t.yield.kernel.ackBit)) = some (true, false) := by decide +kernel
  obtain ⟨t, ht, hpair⟩ := Option.map_eq_some_iff.mp hend
  obtain ⟨hacked, hack⟩ := Prod.mk.inj hpair
  have hbits := (h 0 0 secondEnterRun).imp fun _ _ _ hlaw => hlaw.1
  have hset := hbits.run (boot_ack 0).bit ht hacked
  exact Bool.false_ne_true (hack.symm.trans hset)

end Presence3DS.Rosalina
