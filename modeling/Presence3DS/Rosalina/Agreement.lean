import Presence3DS.Rosalina.Handshake
import Presence3DS.Rosalina.Board

/-! Agreement between the kernel's hook and Rosalina on the requests the radio is released
for, in the runs whose steps are timely. -/

namespace Presence3DS.Rosalina
open Kernel Runs

def asksRelease (state : BitVec 32) : Bool := state &&& ndmuBitAsk ≠ 0 ∧ state &&& ndmuBitAck = 0

def MenuPc.phase : MenuPc → Phase
  | .snapshot state => if asksRelease state then .saw else .away
  | .refuse => .refuse
  | .releaseSoc | .releaseBit | .releaseGeneration => .release
  | .releaseAck => .releaseAck
  | .idle | .restoreSoc | .restoreBit | .restoreReset | .unlock _ => .away

def System.board (s : System) : Board where
  ask := s.yield.kernel.askBit
  ack := s.yield.kernel.ackBit
  lent := s.yield.yieldActive
  hook := s.hook
  phase := s.menu.phase
  asker := s.history.asker
  seen := s.history.seen
  lentFor := s.history.lentFor
  released := s.history.released

/-- When a step is timely: requests that ask come one at a time and while no session is running;
none gives up, or is still to withdraw its ASK, while Rosalina is answering that ASK; and a
session is ended only once the request it was for has seen its answer. -/
def Timely (nbSection0Modules : BitVec 32) (s : System) : SystemAction → Prop
  | .arrive _ request => hookEntry nbSection0Modules s.yield.kernel request = .clearAck →
      s.yield.yieldActive = false ∧ ∀ r, (s.hook r).pending = false
  | .hook r => match s.hook r with
    | .waitForAck iters =>
      waitForAckTurn s.yield.kernel iters = .withdraw → s.menu.phase.engaged = false
    | _ => True
  | .menu _ => match s.menu with
    | .idle => s.yield.kernel.askBit = true → s.yield.kernel.ackBit = false →
        ∀ r, s.history.asker = some r → s.hook r ≠ .withdraw
    | .restoreReset => ∀ r, s.history.lentFor = some r → (s.hook r).pending = false
    | _ => True
  | .appExit => match s.appExit with
    | .restoreReset => ∀ r, s.history.lentFor = some r → (s.hook r).pending = false
    | _ => True
  | .soc _ | .safeSocExit _ => True

/-- The hook lets a request through after its wait exactly when Rosalina has released the radio
for it, and none that was faked, or is about to be, has the radio lent to it. -/
structure Agreement (s : System) : Prop where
  answer : ∀ r, s.hook r = .passed true ∨ s.hook r = .faked true →
    (s.hook r = .passed true ↔ s.history.released r = true)
  withdrawn : ∀ r, s.hook r = .withdraw →
    s.history.released r = false ∧ s.yield.yieldActive = false
  lent : s.yield.yieldActive = true → ∃ r, s.history.lentFor = some r ∧
    s.hook r ≠ .withdraw ∧ s.hook r ≠ .faked true

theorem agreement_of_inv {s : System} (hs : s.board.Inv) : Agreement s where
  answer r h := by
    rcases h with h | h
    · exact ⟨fun _ => hs.passed r h, fun _ => h⟩
    · have hnot : s.history.released r = false := hs.faked r h
      rw [h, hnot]
      simp only [reduceCtorEq, Bool.false_eq_true]
  withdrawn r h := by
    have hnot : s.history.released r = false := hs.withdrawn r h
    have hpend : (s.hook r).pending = true := h ▸ rfl
    refine ⟨hnot, Bool.eq_false_iff.mpr fun hlent => ?_⟩
    rcases hs.lentPending r hpend hlent with hp | hrel
    · obtain ⟨r₀, -, hwait, honly⟩ := hs.seen_pending (engaged_of_releasing hp)
      have hwaiting : (s.hook r).waiting = true := honly r hpend ▸ hwait
      rw [h] at hwaiting
      cases hwaiting
    · exact Bool.false_ne_true (hnot.symm.trans hrel)
  lent h := by
    obtain ⟨r, hfor, hrel⟩ := hs.lentTo h
    refine ⟨r, hfor, ?_⟩
    rcases hrel with ⟨hp, hseen⟩ | hrel
    · obtain ⟨r₀, hr₀, hwait, -⟩ := hs.seen_pending (engaged_of_releasing hp)
      have hsame : r₀ = r := Option.some.inj (hr₀.symm.trans hseen)
      have hwaiting : (s.hook r).waiting = true := hsame ▸ hwait
      constructor <;> intro hpc <;> rw [hpc] at hwaiting <;> cases hwaiting
    · constructor <;> intro hpc
      · exact Bool.false_ne_true ((hs.withdrawn r hpc).symm.trans hrel)
      · exact Bool.false_ne_true ((hs.faked r hpc).symm.trans hrel)

/-! ## Every step of the system is a move -/

theorem asksRelease_iff (k : KernelState) :
    asksRelease k.ndmuYieldState = (k.askBit && !k.ackBit) := by
  unfold asksRelease KernelState.askBit KernelState.ackBit
  by_cases hask : k.ndmuYieldState &&& ndmuBitAsk = 0 <;>
    by_cases hack : k.ndmuYieldState &&& ndmuBitAck = 0 <;> simp [hask, hack]

theorem asksRelease_of_decision {state : BitVec 32} {e : ProcessAnswers} {s : YieldState}
    (h : yieldDecision state e s = .refuse ∨ yieldDecision state e s = .release) :
    asksRelease state = true := by
  unfold yieldDecision at h
  split_ifs at h with hask <;> simp_all [asksRelease]

theorem board_frame {s t : System}
    (hword : t.yield.kernel.ndmuYieldState = s.yield.kernel.ndmuYieldState)
    (hlent : t.yield.yieldActive = s.yield.yieldActive) (hhook : t.hook = s.hook)
    (hphase : t.menu.phase = s.menu.phase) (hhistory : t.history = s.history) :
    t.board = s.board := by
  simp only [System.board, KernelState.askBit, KernelState.ackBit, hword, hlent, hhook, hphase,
    hhistory]

theorem inv_of_frame {s t : System} (hs : s.board.Inv)
    (hword : t.yield.kernel.ndmuYieldState = s.yield.kernel.ndmuYieldState)
    (hlent : t.yield.yieldActive = s.yield.yieldActive) (hhook : t.hook = s.hook)
    (hphase : t.menu.phase = s.menu.phase) (hhistory : t.history = s.history) : t.board.Inv := by
  have hboard := board_frame hword hlent hhook hphase hhistory
  exact hboard ▸ hs

section Moves
variable {nbSection0Modules : BitVec 32} {s t : System}

theorem arrive_inv (hs : s.board.Inv) {r : Nat} {request : NdmuRequest}
    (hc : Timely nbSection0Modules s (.arrive r request))
    (h : arrive nbSection0Modules s r request = some t) : t.board.Inv := by
  unfold arrive at h
  split_ifs at h with hidle
  cases h
  have hset : (s.setHook r (hookEntry nbSection0Modules s.yield.kernel request)).board =
      s.board.set r (hookEntry nbSection0Modules s.yield.kernel request) := rfl
  rw [hset]
  rcases hookEntry_cases nbSection0Modules s.yield.kernel request with hask | hother
  · rw [hask]
    exact hs.arrive hidle (hc hask).1 (hc hask).2
  · exact hs.bypass (.inl hidle) hother

theorem hookTurn_inv (hs : s.board.Inv) {r : Nat} (hc : Timely nbSection0Modules s (.hook r))
    (h : hookTurn s r = some t) : t.board.Inv := by
  unfold hookTurn at h
  cases hpc : s.hook r with
  | idle | passed _ | faked _ => rw [hpc] at h; cases h
  | clearAck =>
    rw [hpc] at h
    cases h
    have hmove := hs.clearAck hpc
    simpa [System.board, System.setKernel, System.setHook, Board.set] using hmove
  | setAsk =>
    rw [hpc] at h
    cases h
    have hmove := hs.setAsk hpc
    simpa [System.board, System.setKernel, System.setHook, Board.set] using hmove
  | waitForAck i =>
    simp only [Timely, hpc] at hc
    rw [hpc] at h
    cases h
    have hboard : (s.setHook r (waitForAckTurn s.yield.kernel i)).board =
        s.board.set r (waitForAckTurn s.yield.kernel i) := rfl
    simp only [reduceCtorEq, if_false]
    refine hboard ▸ ?_
    unfold waitForAckTurn at hc ⊢
    cases hack : s.yield.kernel.ackBit with
    | true => exact hs.pass hpc hack
    | false =>
      by_cases hgive : (!s.yield.kernel.askBit || decide (100 ≤ i)) = true
      · simp only [hack, hgive, Bool.false_eq_true, if_false, if_true, true_implies] at hc ⊢
        exact hs.giveUp hpc hack hc
      · simp only [hgive, Bool.false_eq_true, if_false]
        exact hs.wait hpc (i + 1)
  | withdraw =>
    rw [hpc] at h
    cases h
    have hmove := hs.withdraw hpc
    simpa [System.board, System.setKernel, System.setHook, Board.set] using hmove
  | setLeave =>
    rw [hpc] at h
    cases h
    have hmove := hs.bypass (.inr hpc) (.inl rfl)
    simpa [System.board, System.setKernel, System.setHook, Board.set] using hmove

theorem menuDecide_inv (hs : s.board.Inv) {state : BitVec 32} (hmenu : s.menu = .snapshot state)
    (e : ProcessAnswers) : (menuDecide e state s).board.Inv := by
  have hphase : s.menu.phase = if asksRelease state then .saw else .away := by rw [hmenu]; rfl
  have haway := hs.turnAway (by
    by_cases h : asksRelease state = true <;> simp [System.board, hphase, h])
  have hsaw : asksRelease state = true → s.board.phase = .saw := by
    intro h
    rw [System.board, hphase, h]
    rfl
  unfold menuDecide
  cases hd : yieldDecision state e s.yield with
  | refuse => exact hs.refuse (hsaw (asksRelease_of_decision (.inl hd)))
  | release => exact hs.release (hsaw (asksRelease_of_decision (.inr hd)))
  | restore =>
    simpa [System.board, System.menuTo, MenuPc.phase, YieldState.endYield] using haway.endYield
  | rearm =>
    simpa [System.board, System.menuTo, MenuPc.phase, YieldState.rearm] using haway
  | keep =>
    cases hlent : s.yield.yieldActive with
    | false => simpa [System.board, System.menuTo, MenuPc.phase, hlent] using haway
    | true => simpa [System.board, System.menuTo, MenuPc.phase, hlent] using haway

theorem menuTurn_inv (hs : s.board.Inv) {e : ProcessAnswers}
    (hc : Timely nbSection0Modules s (.menu e)) (h : menuTurn e s = some t) : t.board.Inv := by
  unfold menuTurn at h
  have hphase : s.board.phase = s.menu.phase := rfl
  cases hmenu : s.menu with
  | idle =>
    simp only [Timely, hmenu] at hc
    rw [hmenu] at h hphase
    cases h
    have hmove := hs.look hphase hc
    simpa [System.board, System.menuTo, MenuPc.phase, ndmYieldSnapshot_eq, asksRelease_iff]
      using hmove
  | snapshot state =>
    rw [hmenu] at h
    simp only at h
    split_ifs at h
    cases h
    exact menuDecide_inv hs hmenu e
  | refuse =>
    rw [hmenu] at h hphase
    cases h
    have hmove := hs.refused hphase
    simpa [System.board, System.menuTo, MenuPc.phase] using hmove
  | releaseGeneration =>
    rw [hmenu] at h hphase
    cases h
    exact hs.markReleased hphase
  | releaseAck =>
    rw [hmenu] at h hphase
    cases h
    have hmove := hs.ack hphase
    simpa [System.board, System.menuTo, MenuPc.phase] using hmove
  | restoreReset =>
    simp only [Timely, hmenu] at hc
    rw [hmenu] at h
    cases h
    have hmove := hs.reset hc
    simpa [System.board, System.menuTo, MenuPc.phase, hmenu] using hmove
  | releaseSoc | releaseBit | restoreSoc | restoreBit | unlock ended =>
    rw [hmenu] at h
    cases h
    refine inv_of_frame hs ?_ ?_ ?_ ?_ ?_ <;>
      simp [System.menuTo, hmenu, MenuPc.phase, YieldState.unlockSoc, YieldState.lockSoc]

theorem appExitTurn_inv (hs : s.board.Inv) (hc : Timely nbSection0Modules s .appExit)
    (h : appExitTurn s = some t) : t.board.Inv := by
  unfold appExitTurn at h
  cases hexit : s.appExit with
  | idle =>
    rw [hexit] at h
    simp only at h
    split_ifs at h
    · cases h
      exact hs.endYield
    · cases h
      exact hs
  | restoreReset =>
    simp only [Timely, hexit] at hc
    rw [hexit] at h
    cases h
    have hmove := hs.reset hc
    simpa [System.board, System.appExitTo] using hmove
  | restoreBit | unlock =>
    rw [hexit] at h
    cases h
    refine inv_of_frame hs ?_ ?_ ?_ ?_ ?_ <;> simp [System.appExitTo]

theorem systemStep_inv (hs : s.board.Inv) {a : SystemAction} (hc : Timely nbSection0Modules s a)
    (h : systemStep nbSection0Modules s a = some t) : t.board.Inv := by
  cases a with
  | arrive r request => exact arrive_inv hs hc h
  | hook r => exact hookTurn_inv hs hc h
  | menu e => exact menuTurn_inv hs hc h
  | appExit => exact appExitTurn_inv hs hc h
  | soc c =>
    obtain ⟨soc, hsoc, rfl⟩ := Option.map_eq_some_iff.mp h
    have hword := socStep_ndmuYieldState hsoc
    exact inv_of_frame hs hword rfl rfl rfl rfl
  | safeSocExit e =>
    unfold systemStep at h
    split_ifs at h
    cases h
    have hword := socStep_ndmuYieldState (rfl : socStep s.yield.toSocState (.exit e) = _)
    rw [safeSocExit_eq]
    exact inv_of_frame hs hword rfl rfl rfl rfl

end Moves

theorem boot_board_inv (q : BitVec 64) : (System.boot q).board.Inv := by
  have hask : (System.boot q).board.ask = false := KernelState.askBit_reset (.boot q)
  have hack : (System.boot q).board.ack = false := KernelState.ackBit_reset (.boot q)
  constructor <;> grind -ring -linarith [System.boot, System.board, HookPc.pending, HookPc.asking, HookPc.waiting,
    MenuPc.phase, Phase.engaged, Phase.releasing, YieldState.boot]

/-- In every run whose steps are timely, the hook and Rosalina agree in every state. -/
theorem timely_runs_agree (nbSection0Modules : BitVec 32) (q : BitVec 64)
    (as : List SystemAction)
    (h : Guarded (systemStep nbSection0Modules) (Timely nbSection0Modules) (System.boot q) as) :
    AllSteps (systemStep nbSection0Modules) (fun _ _ t => Agreement t) (System.boot q) as := by
  have hstep : ∀ s a t, s.board.Inv → Timely nbSection0Modules s a →
      systemStep nbSection0Modules s a = some t → t.board.Inv ∧ Agreement t := by
    intro s a t hs hc ht
    have hinv := systemStep_inv hs hc ht
    exact ⟨hinv, agreement_of_inv hinv⟩
  exact allSteps_of_guarded hstep (boot_board_inv q) h

/-! ## A granted request and a late acknowledgement -/

/-- A game asks for the mode of local communications. -/
def enterLocal : NdmuRequest :=
  ⟨some { SessionTable.zeroed with name := ndmuName }, 0, .enterExclusiveState 2⟩

def askRun : List SystemAction :=
  [.soc (.init initSucceeds), .arrive 0 enterLocal, .hook 0, .hook 0, .menu processGrants]

def grantedRun : List SystemAction :=
  askRun ++ List.replicate 5 (.menu processGrants) ++ [.hook 0]

/-- The request gives up between the snapshot and the release. -/
def lateRun : List SystemAction :=
  askRun ++ List.replicate 102 (.hook 0) ++ List.replicate 4 (.menu processGrants)

theorem grantedRun_timely : Guarded (systemStep 0) (Timely 0) (System.boot 0) grantedRun := by
  refine .cons rfl trivial ?_
  refine .cons rfl (fun _ => ⟨rfl, fun _ => rfl⟩) ?_
  refine .cons rfl trivial (.cons rfl trivial ?_)
  refine .cons rfl ?_ ?_
  · intro _ _ r hr
    cases hr
    decide
  refine .cons rfl trivial (.cons rfl trivial (.cons rfl trivial ?_))
  refine .cons rfl trivial (.cons rfl trivial ?_)
  exact .cons rfl (fun _ => rfl) trivial

theorem grantedRun_agrees :
    AllSteps (systemStep 0) (fun _ _ t => Agreement t) (System.boot 0) grantedRun ∧
      (run (systemStep 0) (System.boot 0) grantedRun).map (fun t => t.hook 0) =
        some (.passed true) :=
  ⟨timely_runs_agree 0 0 grantedRun grantedRun_timely, by decide +kernel⟩

theorem late_ack_disagrees : ¬∀ nbSection0Modules q as,
    AllSteps (systemStep nbSection0Modules) (fun _ _ t => Agreement t) (System.boot q) as := by
  intro h
  have hend : (run (systemStep 0) (System.boot 0) lateRun).map
      (fun t => (t.hook 0, t.history.released 0)) = some (.faked true, true) := by decide +kernel
  obtain ⟨t, ht, hpair⟩ := Option.map_eq_some_iff.mp hend
  obtain ⟨hhook, hreleased⟩ := Prod.mk.inj hpair
  have hagree := (h 0 0 lateRun).run (agreement_of_inv (boot_board_inv 0)) ht
  have hpassed := (hagree.answer 0 (.inr hhook)).mpr hreleased
  rw [hhook] at hpassed
  cases hpassed

end Presence3DS.Rosalina
