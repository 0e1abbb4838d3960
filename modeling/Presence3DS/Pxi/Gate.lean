import Presence3DS.Pxi.Pending

/-! Whether sending is disabled, and what the clients of `pxi:mc` have asked for. -/

namespace Presence3DS.Pxi

structure GateInv (s : PxiState) : Prop where
  asked : s.trail.askedToDisable = true → s.manager.sendingDisabled = true
  disable : s.manager.latestPxiMc5Val = .disable → s.trail.askedToDisable = true
  enable : s.manager.latestPxiMc5Val = .enable →
    s.trail.askedToDisable = false ∧ s.manager.pendingArm9Commands = 0 ∧
      (s.manager.sendingDisabled = true ∨ ∀ i, s.state i ≠ .receivedFromArm11)
  /-- Until sending is enabled again, `pxi:mc` is busy with the command that asks for it. -/
  opening : s.manager.sendingDisabled = true → s.trail.askedToDisable = false →
    s.state 0 ≠ .idle ∧ s.countedInFlight 0 = false
  settled : s.manager.sendingDisabled = true →
    s.manager.pendingArm9Commands = 0 ∨ s.mc5Waits = true

section Gate
variable {s t : PxiState} {event : PxiEvent} {i : Service}

theorem GateInv.frame (hs : GateInv s)
    (hgate : t.manager.latestPxiMc5Val = s.manager.latestPxiMc5Val ∧
      t.manager.pendingArm9Commands = s.manager.pendingArm9Commands ∧
      t.manager.sendingDisabled = s.manager.sendingDisabled)
    (htrail : t.trail.askedToDisable = s.trail.askedToDisable ∧
      t.trail.counted = s.trail.counted)
    (hflight : t.inFlight 0 = s.inFlight 0) (hidle : t.state 0 = .idle → s.state 0 = .idle)
    (hold : ∀ i, t.state i = .receivedFromArm11 ↔ s.state i = .receivedFromArm11)
    (hbuffer : s.state 0 = .receivedFromArm11 → t.buffer 0 = s.buffer 0) : GateInv t := by
  obtain ⟨hlatest, hpending, hdisabled⟩ := hgate
  obtain ⟨hasked, hcounted⟩ := htrail
  constructor
  · rw [hasked, hdisabled]
    exact hs.asked
  · rw [hlatest, hasked]
    exact hs.disable
  · intro hval
    rw [hlatest] at hval
    obtain ⟨hnot, hzero, hheld⟩ := hs.enable hval
    rw [hasked, hpending, hdisabled]
    exact ⟨hnot, hzero, hheld.imp_right fun hnone i hi => hnone i ((hold i).mp hi)⟩
  · rw [hdisabled, hasked]
    intro hoff hnot
    obtain ⟨hbusy, hcount⟩ := hs.opening hoff hnot
    refine ⟨mt hidle hbusy, ?_⟩
    rw [PxiState.countedInFlight, hcounted, hflight]
    exact hcount
  · rw [hdisabled, hpending]
    intro hoff
    refine (hs.settled hoff).imp_right ?_
    intro hmc5
    obtain ⟨hstate, hword⟩ := mc5Waits_iff.mp hmc5
    exact mc5Waits_iff.mpr ⟨(hold 0).mpr hstate, (hbuffer hstate).symm ▸ hword⟩

theorem GateInv.sameStates (hs : GateInv s)
    (hgate : t.manager.latestPxiMc5Val = s.manager.latestPxiMc5Val ∧
      t.manager.pendingArm9Commands = s.manager.pendingArm9Commands ∧
      t.manager.sendingDisabled = s.manager.sendingDisabled)
    (htrail : t.trail.askedToDisable = s.trail.askedToDisable ∧
      t.trail.counted = s.trail.counted)
    (hstate : ∀ i, t.state i = s.state i) (hbuffer : t.buffer 0 = s.buffer 0) : GateInv t := by
  apply hs.frame hgate htrail ?_ (fun h => (hstate 0).symm.trans h) ?_ fun _ => hbuffer
  · rw [PxiState.inFlight, PxiState.inFlight, hstate]
  · intro i
    rw [hstate]

theorem GateInv.sent (hs : GateInv s) (h : SendEffect s i t)
    (hasked : t.trail.askedToDisable = s.trail.askedToDisable) : GateInv t := by
  constructor
  · rw [hasked, h.disabled]
    exact hs.asked
  · rw [h.latest, hasked]
    exact hs.disable
  · intro hval
    rw [h.latest] at hval
    obtain ⟨hnot, hzero, hheld⟩ := hs.enable hval
    have hoff := hheld.resolve_right fun hnone => hnone i h.waits
    rw [hasked, h.pending, h.disabled, if_pos hoff]
    exact ⟨hnot, hzero, .inl hoff⟩
  · rw [h.disabled, hasked]
    intro hoff hnot
    obtain ⟨hbusy, hcount⟩ := hs.opening hoff hnot
    by_cases hi : 0 = i
    · rw [h.states, if_pos hi, PxiState.countedInFlight, h.counted, hi, Function.update_self, hoff]
      exact ⟨SessionState.noConfusion, rfl⟩
    · rw [h.states, if_neg hi, PxiState.countedInFlight, h.counted, Function.update_of_ne hi,
        inFlight_of_states h.states 0 hi]
      exact ⟨hbusy, hcount⟩
  · intro hoff
    rw [h.disabled] at hoff
    have hon : s.manager.sendingDisabled ≠ false := by
      rw [hoff]
      exact Bool.noConfusion
    rw [h.pending, if_pos hoff]
    exact .inl ((maySend_iff.mp h.maySend).resolve_left hon).1

theorem GateInv.command {b : Bool} (hs : GateInv s)
    (hscope : pendingInScope (.ok s) (.sender b) = true)
    (hpc : s.sender.pc = .returned (.command i))
    (hm : s.manager.CommandEffect i s.sender.cmdbuf t.manager)
    (hcounted : t.trail.counted = s.trail.counted)
    (hasked : t.trail.askedToDisable = match SessionManager.pxiMc5Val i s.sender.cmdbuf with
      | .none => s.trail.askedToDisable
      | .disable => true
      | .enable => false) : GateInv t := by
  have hzero : SessionManager.pxiMc5Val i s.sender.cmdbuf ≠ .none → i = 0 :=
    fun hne => (SessionManager.pxiMc5Val_ne_none_iff.mp hne).1
  have hidle : s.state i = .idle := hm.idle
  have hbusy : t.state i = .receivedFromArm11 := (hm.states i).trans (if_pos rfl)
  have hgate := hm.gate
  cases hval : SessionManager.pxiMc5Val i s.sender.cmdbuf with
  | none =>
    rw [hval] at hasked hgate
    have hdisabled : t.manager.sendingDisabled = s.manager.sendingDisabled :=
      (Option.some.inj hgate).symm
    have hlatest : t.manager.latestPxiMc5Val = .none := hm.latest.trans hval
    constructor
    · rw [hasked, hdisabled]
      exact hs.asked
    · rw [hlatest]
      exact PxiMc5Val.noConfusion
    · rw [hlatest]
      exact PxiMc5Val.noConfusion
    · rw [hdisabled, hasked]
      intro hoff hnot
      obtain ⟨hstate, hcount⟩ := hs.opening hoff hnot
      have hi : 0 ≠ i := by
        rintro rfl
        exact hstate hidle
      refine ⟨?_, ?_⟩
      · exact ((hm.states 0).trans (if_neg hi)).trans_ne hstate
      · rw [PxiState.countedInFlight, hcounted, inFlight_of_states hm.states 0 hi]
        exact hcount
    · rw [hdisabled, hm.pending]
      intro hoff
      refine .inl ((hs.settled hoff).resolve_right ?_)
      simpa [pendingInScope, hpc, hval] using hscope
  | disable =>
    rw [hval] at hasked
    have hlatest : t.manager.latestPxiMc5Val = .disable := hm.latest.trans hval
    have hne : SessionManager.pxiMc5Val i s.sender.cmdbuf ≠ .none := by
      rw [hval]
      exact PxiMc5Val.noConfusion
    constructor
    · intro _
      exact (gateAfter_eq hm.gate).2.2 hne
    · intro _
      exact hasked
    · rw [hlatest]
      exact PxiMc5Val.noConfusion
    · rw [hasked]
      exact fun _ => Bool.noConfusion
    · intro _
      exact .inr ((command_mc5Waits_self hm (hzero hne)).mpr hne)
  | enable =>
    rw [hval] at hasked hgate
    have hlatest : t.manager.latestPxiMc5Val = .enable := hm.latest.trans hval
    have hne : SessionManager.pxiMc5Val i s.sender.cmdbuf ≠ .none := by
      rw [hval]
      exact PxiMc5Val.noConfusion
    have hoff : t.manager.sendingDisabled = true := (gateAfter_eq hm.gate).2.2 hne
    have hi := hzero hne
    have hpending : s.manager.pendingArm9Commands = 0 := by
      have hbefore : s.manager.sendingDisabled = true := by
        by_contra hon
        rw [Bool.not_eq_true] at hon
        rw [hon] at hgate
        cases hgate
      refine (hs.settled hbefore).resolve_right ?_
      intro hmc5
      have hstate := (mc5Waits_iff.mp hmc5).1
      rw [← hi, hidle] at hstate
      cases hstate
    constructor
    · rw [hasked]
      exact Bool.noConfusion
    · rw [hlatest]
      exact PxiMc5Val.noConfusion
    · intro _
      exact ⟨hasked, hm.pending.trans hpending, .inl hoff⟩
    · intro _ _
      subst hi
      exact ⟨by rw [hbusy]; exact SessionState.noConfusion, not_countedInFlight (.inr hbusy)⟩
    · intro _
      exact .inl (hm.pending.trans hpending)

theorem GateInv.reply {cmdbuf : Cmdbuf} (hs : GateInv s) (hpending : PendingInv s)
    (hcount : s.manager.latestPxiMc5Val = .none ↔ s.trail.counted i = true)
    (hpc : s.sender.pc = .replyFound i)
    (hm : s.manager.ReplyEffect i s.sender.cmdbuf t.manager cmdbuf)
    (hasked : t.trail.askedToDisable = s.trail.askedToDisable) : GateInv t := by
  have hflight : s.inFlight i = true := inFlight_iff.mpr (.inr hm.received)
  -- Where a counted command is answered while sending is disabled, another one would be pending.
  have hnone : s.manager.sendingDisabled = true → s.manager.latestPxiMc5Val ≠ .none := by
    intro hoff hval
    have hpos : 0 < tally s.countedInFlight := by
      apply Tally.pos_iff.mpr
      refine ⟨i, ?_⟩
      rw [PxiState.countedInFlight, hcount.mp hval, hflight]
      rfl
    rcases hs.settled hoff with hzero | hmc5
    · rw [← hpending.counts, hzero] at hpos
      exact absurd hpos (by decide)
    · exact hpending.kept hmc5 hval
  have hkept : t.manager.sendingDisabled = true → s.manager.sendingDisabled = true ∧
      s.manager.latestPxiMc5Val = .disable ∧
        t.manager.pendingArm9Commands = s.manager.pendingArm9Commands := by
    intro hoff
    rcases gateReply_eq hm.gate with ⟨hval, hsame, -⟩ | ⟨hval, hsame, hpend⟩ | ⟨hval, hon, -⟩
    · exact absurd hval (hnone (hsame ▸ hoff))
    · exact ⟨hsame ▸ hoff, hval, hpend⟩
    · rw [hon] at hoff
      cases hoff
  constructor
  · rw [hasked]
    intro hask
    rcases gateReply_eq hm.gate with ⟨-, hsame, -⟩ | ⟨-, hsame, -⟩ | ⟨hval, -⟩
    · exact hsame.trans (hs.asked hask)
    · exact hsame.trans (hs.asked hask)
    · exact absurd ((hs.enable hval).1.symm.trans hask) Bool.noConfusion
  · rw [hm.latest, hasked]
    exact hs.disable
  · intro hval
    rw [hm.latest] at hval
    obtain ⟨hnot, hzero, -⟩ := hs.enable hval
    have hmay : s.manager.maySend = true :=
      maySend_iff.mpr (.inr ⟨hzero, by rw [hval]; exact PxiMc5Val.noConfusion⟩)
    have hpend : t.manager.pendingArm9Commands = s.manager.pendingArm9Commands := by
      rcases gateReply_eq hm.gate with ⟨hval', -⟩ | ⟨hval', -⟩ | ⟨-, -, hpend, -⟩
      · exact absurd (hval.symm.trans hval') PxiMc5Val.noConfusion
      · exact absurd (hval.symm.trans hval') PxiMc5Val.noConfusion
      · exact hpend
    refine ⟨hasked.trans hnot, hpend.trans hzero, .inr ?_⟩
    intro j hj
    have hpassed := hpending.passed hmay j (reply_waited hm hj).2
    rw [hpc] at hpassed
    exact absurd j.isLt (not_lt.mpr hpassed)
  · intro hoff hnot
    obtain ⟨-, hval, -⟩ := hkept hoff
    have hask := hs.disable hval
    rw [hasked, hask] at hnot
    cases hnot
  · intro hoff
    obtain ⟨hbefore, -, hpend⟩ := hkept hoff
    rw [hpend]
    refine (hs.settled hbefore).imp_right ?_
    intro hmc5
    obtain ⟨hstate, hword⟩ := mc5Waits_iff.mp hmc5
    have hi : 0 ≠ i := by
      rintro rfl
      exact absurd (hstate.symm.trans hm.received) SessionState.noConfusion
    have hbuffer : t.buffer 0 = s.buffer 0 := hm.buffers 0
    refine mc5Waits_iff.mpr ⟨((hm.states 0).trans (if_neg hi)).trans hstate, ?_⟩
    rw [hbuffer]
    exact hword

theorem noteReceived_asked (l : Trail) (client : Option ClientSession) (filled : List ℕ)
    (cmdbuf : Cmdbuf) : (l.noteReceived i client filled cmdbuf).askedToDisable =
      match SessionManager.pxiMc5Val i cmdbuf with
      | .none => l.askedToDisable
      | .disable => true
      | .enable => false := rfl

theorem replying_asked {sessionId : Option Service} {b : Bool} :
    (s.replying sessionId b).trail.askedToDisable = s.trail.askedToDisable := by
  unfold PxiState.replying
  split
  · split_ifs <;> rfl
  · rfl

theorem moves_gateInv (hs : GateInv s) (hpending : PendingInv s)
    (hscope : pendingInScope (.ok s) event = true) (h : s.Moves event t) : GateInv t := by
  cases h with
  | sent i hpc hsends => exact hs.sent (sent_effect hpc hsends) rfl
  | replied hpc =>
    obtain ⟨hmanager, htrail⟩ := replying_same
    refine hs.sameStates ?_ ⟨replying_asked, htrail⟩ ?_ ?_
    · rw [hmanager]
      exact ⟨rfl, rfl, rfl⟩
    · intro i
      rw [PxiState.state, hmanager]
      rfl
    · rw [PxiState.buffer, hmanager]
      rfl
  | closed i hpc hi =>
    exact hs.sameStates ⟨rfl, rfl, rfl⟩ ⟨rfl, rfl⟩ (state_setHandle i none)
      (buffer_setHandle i none 0)
  | command i m hpc hm =>
    exact hs.command hscope hpc (SessionManager.commandReceived_effect hm) rfl
      (noteReceived_asked _ _ _ _)
  | reply i m cmdbuf hpc hm =>
    exact hs.reply hpending (pendingInScope_reply hpc hscope) hpc
      (SessionManager.replyReceived_effect hm) rfl
  | @received i reply fifo hpc hfifo hstate hsize =>
    have heffect := received_effect fifo hstate hsize
    exact hs.frame ⟨rfl, rfl, rfl⟩ ⟨rfl, rfl⟩ (heffect.inFlight 0) (heffect.idle 0) heffect.waits
      heffect.buffer
  | accept i hfree hhandle =>
    exact hs.sameStates ⟨rfl, rfl, rfl⟩ ⟨rfl, rfl⟩ (state_setHandle i (some s.accepted))
      (buffer_setHandle i (some s.accepted) 0)
  | _ => exact hs.sameStates ⟨rfl, rfl, rfl⟩ ⟨rfl, rfl⟩ (fun _ => rfl) rfl

end Gate

theorem boot_gateInv : GateInv .boot where
  asked h := by cases h
  disable h := by cases h
  enable h := by cases h
  opening h := by cases h
  settled h := by cases h

end Presence3DS.Pxi
