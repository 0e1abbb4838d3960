import Presence3DS.Lib.Runs
import Presence3DS.Pxi.Pending

/-! Suspending what is sent to Arm9 (`pxi:mc` command 5): which commands may be sent meanwhile. -/

namespace Presence3DS.Pxi
open Runs

/-- The commands pending are the counted ones in flight; while sending is disabled only the `pxi:mc`
command 5 is sent, which is not held back once no counted command is in flight. -/
structure SuspendLaw (s t : PxiState) : Prop where
  counts : t.manager.pendingArm9Commands.toNat = tally t.countedInFlight
  suspended : s.manager.sendingDisabled = true → ∀ i, s.state i = .receivedFromArm11 →
    t.state i = .sentToArm9 → i = 0 ∧ s.mc5Waits = true
  eligible : t.mc5Waits = true → (∀ i, t.countedInFlight i = false) → t.manager.maySend = true

/-- Moreover, enabling finds no command waiting. -/
def suspendInScope (s : Except PxiThread PxiState) (event : PxiEvent) : Bool :=
  pendingInScope s event &&
    match s, event with
    | .ok s, .sender _ =>
      match s.sender.pc with
      | .returned (.command i) => SessionManager.pxiMc5Val i s.sender.cmdbuf ≠ .enable ||
        (List.finRange 9).all fun j => s.state j ≠ .receivedFromArm11
      | _ => true
    | _, _ => true

structure SuspendInv (s : PxiState) : Prop where
  pending : PendingInv s
  alone : s.manager.latestPxiMc5Val ≠ .none → ∀ i, s.state i = .receivedFromArm11 →
    i = 0 ∧ s.mc5Waits = true
  uncounted : ∀ i, s.inFlight i = true → s.trail.counted i = false → i = 0

section Steps
variable {s t : PxiState} {event : PxiEvent}

theorem SuspendInv.frame (hs : SuspendInv s) (hpending : PendingInv t)
    (hlatest : t.manager.latestPxiMc5Val = s.manager.latestPxiMc5Val)
    (hflight : ∀ i, t.inFlight i = s.inFlight i)
    (hold : ∀ i, t.state i = .receivedFromArm11 ↔ s.state i = .receivedFromArm11)
    (hbuffer : s.state 0 = .receivedFromArm11 → t.buffer 0 = s.buffer 0)
    (hcounted : t.trail.counted = s.trail.counted) : SuspendInv t where
  pending := hpending
  alone hne i hi := by
    obtain ⟨hzero, hmc5⟩ := hs.alone (hlatest ▸ hne) i ((hold i).mp hi)
    obtain ⟨hstate, hword⟩ := mc5Waits_iff.mp hmc5
    exact ⟨hzero, mc5Waits_iff.mpr ⟨(hold 0).mpr hstate, (hbuffer hstate).symm ▸ hword⟩⟩
  uncounted i hi hnot := hs.uncounted i ((hflight i).symm.trans hi) (hcounted ▸ hnot)

theorem SuspendInv.sameStates (hs : SuspendInv s) (hpending : PendingInv t)
    (hlatest : t.manager.latestPxiMc5Val = s.manager.latestPxiMc5Val)
    (hstate : ∀ i, t.state i = s.state i) (hbuffer : t.buffer 0 = s.buffer 0)
    (hcounted : t.trail.counted = s.trail.counted) : SuspendInv t := by
  apply hs.frame hpending hlatest ?_ ?_ (fun _ => hbuffer) hcounted
  · intro i
    rw [PxiState.inFlight, PxiState.inFlight, hstate]
  · intro i
    rw [hstate]

theorem SuspendInv.sent (hs : SuspendInv s) {i : Service} (h : SendEffect s i t) :
    SuspendInv t where
  pending := hs.pending.sent h
  alone hne j hj := by
    obtain ⟨hji, hj⟩ := h.waited hj
    obtain ⟨rfl, hmc5⟩ := hs.alone (h.latest ▸ hne) j hj
    obtain ⟨hstate, hword⟩ := mc5Waits_iff.mp hmc5
    have hstate' : t.state 0 = .receivedFromArm11 := by
      rw [h.states, if_neg hji]
      exact hstate
    exact ⟨rfl, mc5Waits_iff.mpr ⟨hstate', (h.buffers 0).symm ▸ hword⟩⟩
  uncounted j hj hnot := by
    rw [h.counted, Function.update_apply] at hnot
    split_ifs at hnot with hji
    · -- What is sent while sending is disabled has been the last command received.
      have hoff : s.manager.sendingDisabled ≠ false := by
        intro hon
        rw [hon] at hnot
        cases hnot
      have hne := ((maySend_iff.mp h.maySend).resolve_left hoff).2
      rw [hji]
      exact (hs.alone hne i h.waits).1
    · exact hs.uncounted j ((inFlight_of_states h.states j hji).symm.trans hj) hnot

theorem not_inFlight_left {i j : Service} {state : SessionState}
    (hstates : ∀ j, t.state j = if j = i then state else s.state j)
    (hleft : state = .idle ∨ state = .receivedFromArm11) (hj : t.inFlight j = true) :
    j ≠ i ∧ s.inFlight j = true := by
  have hji : j ≠ i := by
    rintro rfl
    have hflight := inFlight_iff.mp hj
    rw [hstates, if_pos rfl] at hflight
    rcases hleft with h | h <;> rw [h] at hflight <;> rcases hflight with h | h <;> cases h
  exact ⟨hji, (inFlight_of_states hstates j hji).symm.trans hj⟩

theorem SuspendInv.command (hs : SuspendInv s) (hpending : PendingInv t) {i : Service} {b : Bool}
    (hscope : suspendInScope (.ok s) (.sender b) = true)
    (hpc : s.sender.pc = .returned (.command i))
    (hm : s.manager.CommandEffect i s.sender.cmdbuf t.manager)
    (htrail : t.trail.counted = s.trail.counted) : SuspendInv t where
  pending := hpending
  alone hne j hj := by
    rw [hm.latest] at hne
    have hi : i = 0 := (SessionManager.pxiMc5Val_ne_none_iff.mp hne).1
    have hji : j = i := by
      by_contra hji
      have hwaiting : s.state j = .receivedFromArm11 := by
        have hj' := (hm.states j).symm.trans hj
        rwa [if_neg hji] at hj'
      cases hval : SessionManager.pxiMc5Val i s.sender.cmdbuf with
      | none => exact hne hval
      | disable =>
        have hon := (gateAfter_eq hm.gate).2.1 hval
        have hpassed := hs.pending.passed (maySend_iff.mpr (.inl hon)) j hwaiting
        rw [hpc] at hpassed
        exact absurd j.isLt (not_lt.mpr hpassed)
      | enable =>
        simp only [suspendInScope, hpc, hval, Bool.and_eq_true, Bool.or_eq_true] at hscope
        rcases hscope.2 with hother | hnone
        · exact of_decide_eq_true hother rfl
        · exact of_decide_eq_true (List.all_eq_true.mp hnone j (List.mem_finRange j)) hwaiting
    exact ⟨hji.trans hi, (command_mc5Waits_self hm hi).mpr hne⟩
  uncounted j hj hnot := by
    rw [htrail] at hnot
    exact hs.uncounted j (not_inFlight_left hm.states (.inr rfl) hj).2 hnot

theorem SuspendInv.reply (hs : SuspendInv s) (hpending : PendingInv t) {i : Service}
    {cmdbuf : Cmdbuf} (hcounted : s.manager.latestPxiMc5Val = .none ↔ s.trail.counted i = true)
    (hm : s.manager.ReplyEffect i s.sender.cmdbuf t.manager cmdbuf)
    (htrail : t.trail.counted = s.trail.counted) : SuspendInv t where
  pending := hpending
  alone hne j hj := by
    rw [hm.latest] at hne
    obtain ⟨hji, hj⟩ := reply_waited hm hj
    have hi : i = 0 := by
      apply hs.uncounted i (inFlight_iff.mpr (.inr hm.received))
      rw [← Bool.not_eq_true, ← hcounted]
      exact hne
    exact absurd ((hs.alone hne j hj).1.trans hi.symm) hji
  uncounted j hj hnot := by
    rw [htrail] at hnot
    exact hs.uncounted j (not_inFlight_left hm.states (.inl rfl) hj).2 hnot

theorem SuspendInv.received {i : Service} {reply : Cmdbuf} (h : ReceiveEffect s i reply t)
    (hs : SuspendInv s) (hpending : PendingInv t) : SuspendInv t :=
  hs.frame hpending h.gate.1 h.inFlight h.waits h.buffer (by rw [h.trail])

theorem moves_suspendInv (hs : SuspendInv s) (hopen : SessionInv s)
    (hscope : suspendInScope (.ok s) event = true) (h : s.Moves event t) : SuspendInv t := by
  have hpendingScope : pendingInScope (.ok s) event = true := (Bool.and_eq_true_iff.mp hscope).1
  have ht := moves_pendingInv hs.pending hopen hpendingScope h
  cases h with
  | sent i hpc hsends => exact hs.sent (sent_effect hpc hsends)
  | replied hpc =>
    obtain ⟨hmanager, htrail⟩ := replying_same
    refine hs.sameStates ht (by rw [hmanager]) ?_ ?_ htrail
    · intro i
      rw [PxiState.state, hmanager]
      rfl
    · rw [PxiState.buffer, hmanager]
      rfl
  | closed i hpc hi =>
    exact hs.sameStates ht rfl (state_setHandle i none) (buffer_setHandle i none 0) rfl
  | command i m hpc hm =>
    exact hs.command ht hscope hpc (SessionManager.commandReceived_effect hm) rfl
  | reply i m cmdbuf hpc hm =>
    exact hs.reply ht (pendingInScope_reply hpc hpendingScope)
      (SessionManager.replyReceived_effect hm) rfl
  | received i hpc hfifo hstate hsize => 
    exact SuspendInv.received (received_effect _ hstate hsize) hs ht
  | accept i hfree hhandle =>
    exact hs.sameStates ht rfl (state_setHandle i (some s.accepted))
      (buffer_setHandle i (some s.accepted) 0) rfl
  | _ => exact hs.sameStates ht rfl (fun _ => rfl) rfl rfl

theorem moves_suspendLaw (hs : SuspendInv s) (hopen : SessionInv s)
    (hscope : suspendInScope (.ok s) event = true) (h : s.Moves event t) : SuspendLaw s t := by
  have ht := moves_suspendInv hs hopen hscope h
  refine ⟨ht.pending.counts, ?_, ht.pending.eligible⟩
  intro hoff i hi hsent
  obtain ⟨-, -, hmay⟩ := sends_open (sends_of_sent h hi hsent)
  have hon : s.manager.sendingDisabled ≠ false := by
    rw [hoff]
    exact nofun
  have hne := ((maySend_iff.mp hmay).resolve_left hon).2
  exact hs.alone hne i hi

end Steps

/-- What is asked of a step after which no thread has panicked. -/
def UnpanickedStep (P : PxiState → PxiState → Prop) (s : Except PxiThread PxiState) (_ : PxiEvent)
    (t : Except PxiThread PxiState) : Prop :=
  Unpanicked (fun s => Unpanicked (P s) t) s

theorem boot_suspendInv : SuspendInv .boot where
  pending := boot_pendingInv
  alone h := absurd rfl h
  uncounted _ h := by cases h

/-- The pending commands are counted, and sending is suspended and resumed in order, in a run whose
ordinary commands find no `pxi:mc` command 5 waiting, whose enabling commands find no command
waiting, and whose replies find that the last command received was ordinary exactly if their own
was counted. -/
theorem sending_suspended (events : List PxiEvent)
    (h : Guarded pxiStep (fun s event => suspendInScope s event = true) (.ok .boot) events) :
    AllSteps pxiStep (UnpanickedStep SuspendLaw) (.ok .boot) events := by
  have hstep : ∀ s event t, Unpanicked (fun s => SessionInv s ∧ SuspendInv s) s →
      suspendInScope s event = true → pxiStep s event = some t →
        Unpanicked (fun s => SessionInv s ∧ SuspendInv s) t ∧
          UnpanickedStep SuspendLaw s event t := by
    intro s event t hs hscope ht
    cases s with
    | error thread => cases ht
    | ok s =>
      cases t with
      | error thread => exact ⟨trivial, trivial⟩
      | ok t =>
        have hmoves := PxiState.step_moves ht
        exact ⟨⟨moves_sessionInv hs.1 hmoves, moves_suspendInv hs.2 hs.1 hscope hmoves⟩,
          moves_suspendLaw hs.2 hs.1 hscope hmoves⟩
  exact allSteps_of_guarded hstep ⟨boot_sessionInv, boot_suspendInv⟩ h

/-- Sending is disabled and enabled again, and the service `PxiFSR` goes on. -/
def suspendRun : List PxiEvent :=
  [.accept 0, .accept 4, .handler 0, .receiver] ++ round ++
    arrives 0 0x50040 1 ++ answered 0 ++ arrives 0 0x50040 0 ++ answered 0 ++
    arrives 4 0 0 ++ answered 4

theorem suspendRun_lawful : AllSteps pxiStep (UnpanickedStep SuspendLaw) (.ok .boot) suspendRun :=
  sending_suspended suspendRun (guarded_of_guards (by decide +kernel))

/-- Commands are pending, none of which is in flight. -/
def overcounts : Except PxiThread PxiState → Bool
  | .ok t => t.manager.pendingArm9Commands ≠ 0 && (List.finRange 9).all fun i =>
      !t.countedInFlight i
  | .error _ => false

/-- A command is in flight when sending is to be disabled. -/
def overtakenRun : List PxiEvent :=
  [.accept 0, .accept 4, .handler 0, .receiver] ++ round ++
    arrives 4 0 0 ++ arrives 0 0x50040 1 ++ answered 4

def goesOn : PxiEvent := .wake .sendAllBuffersToArm9 fun _ => 0

theorem overtaken_command_stays_pending : ¬∀ events,
    AllSteps pxiStep (UnpanickedStep SuspendLaw) (.ok .boot) events := by
  intro h
  have hbad : (run pxiStep (.ok .boot) overtakenRun).any (fun s => s.isOk &&
      (pxiStep s goesOn).any overcounts) = true := by decide +kernel
  obtain ⟨s, hrun, hbad⟩ := (Option.any_eq_true _ _).mp hbad
  obtain ⟨hok, hbad⟩ := Bool.and_eq_true_iff.mp hbad
  obtain ⟨t, hstep, hbad⟩ := (Option.any_eq_true _ _).mp hbad
  have hlaw := (h (overtakenRun ++ [goesOn])).last hrun hstep
  cases s with
  | error thread => cases hok
  | ok s =>
    cases t with
    | error thread => cases hbad
    | ok t =>
      have hcounts : t.manager.pendingArm9Commands.toNat = tally t.countedInFlight := hlaw.counts
      obtain ⟨hpending, hnone⟩ := Bool.and_eq_true_iff.mp hbad
      have hzero : tally t.countedInFlight = 0 := by
        apply Tally.eq_zero_iff.mpr
        intro i
        have hi := List.all_eq_true.mp hnone i (List.mem_finRange i)
        rwa [Bool.not_eq_true'] at hi
      exact of_decide_eq_true hpending (BitVec.eq_of_toNat_eq (hcounts.trans hzero))

end Presence3DS.Pxi
