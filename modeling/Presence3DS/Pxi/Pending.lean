import Presence3DS.Lib.Tally
import Presence3DS.Pxi.Sessions

/-! The commands in flight that `pendingArm9Commands` counts, and the test of the send loop. -/

namespace Presence3DS.Pxi

/-- The first session that the send loop has still to look at. -/
def SenderPc.toVisit : SenderPc → ℕ
  | .sending i => i
  | _ => 9

namespace PxiState

/-- The reply to the command sent to Arm9 has not been processed. -/
def inFlight (s : PxiState) (i : Service) : Bool :=
  s.state i = .sentToArm9 || s.state i = .receivedFromArm9

def countedInFlight (s : PxiState) (i : Service) : Bool := s.trail.counted i && s.inFlight i

/-- A `pxi:mc` command 5 has been received, and not sent. -/
def mc5Waits (s : PxiState) : Bool :=
  s.state 0 = .receivedFromArm11 && SessionManager.pxiMc5Val 0 (s.buffer 0) ≠ .none

end PxiState

/-- An ordinary command finds no `pxi:mc` command 5 waiting, and a reply finds that the last command
received was ordinary exactly if its own was counted. -/
def pendingInScope : Except PxiThread PxiState → PxiEvent → Bool
  | .ok s, .sender _ =>
    match s.sender.pc with
    | .returned (.command i) =>
      SessionManager.pxiMc5Val i s.sender.cmdbuf ≠ .none || !s.mc5Waits
    | .replyFound i => (s.manager.latestPxiMc5Val = .none) == s.trail.counted i
    | _ => true
  | _, _ => true

structure PendingInv (s : PxiState) : Prop where
  counts : s.manager.pendingArm9Commands.toNat = tally s.countedInFlight
  passed : s.manager.maySend = true → ∀ i, s.state i = .receivedFromArm11 →
    s.sender.pc.toVisit ≤ i
  kept : s.mc5Waits = true → s.manager.latestPxiMc5Val ≠ .none

section Steps
variable {s t : PxiState} {event : PxiEvent}

theorem inFlight_iff {i : Service} : s.inFlight i = true ↔
    s.state i = .sentToArm9 ∨ s.state i = .receivedFromArm9 := by
  rw [PxiState.inFlight, Bool.or_eq_true, decide_eq_true_eq, decide_eq_true_eq]

theorem mc5Waits_iff : s.mc5Waits = true ↔
    s.state 0 = .receivedFromArm11 ∧ s.buffer 0 0 >>> 16 = 5 := by
  rw [PxiState.mc5Waits, Bool.and_eq_true, decide_eq_true_eq, decide_eq_true_eq,
    SessionManager.pxiMc5Val_ne_none_iff, eq_self_iff_true, true_and]

theorem maySend_congr {m m' : SessionManager}
    (hlatest : m'.latestPxiMc5Val = m.latestPxiMc5Val)
    (hpending : m'.pendingArm9Commands = m.pendingArm9Commands)
    (hdisabled : m'.sendingDisabled = m.sendingDisabled) : m'.maySend = m.maySend := by
  rw [SessionManager.maySend, SessionManager.maySend, hlatest, hpending, hdisabled]

theorem maySend_iff {m : SessionManager} : m.maySend = true ↔ m.sendingDisabled = false ∨
    m.pendingArm9Commands = 0 ∧ m.latestPxiMc5Val ≠ .none := by
  rw [SessionManager.maySend, Bool.or_eq_true, Bool.and_eq_true, Bool.not_eq_true',
    decide_eq_true_eq, decide_eq_true_eq]

/-- A step that sends nothing, and after which the send loop has yet to look at all that it has not
looked at. -/
theorem PendingInv.frame (hs : PendingInv s)
    (hlatest : t.manager.latestPxiMc5Val = s.manager.latestPxiMc5Val)
    (hpending : t.manager.pendingArm9Commands = s.manager.pendingArm9Commands)
    (hdisabled : t.manager.sendingDisabled = s.manager.sendingDisabled)
    (hflight : ∀ i, t.inFlight i = s.inFlight i)
    (hold : ∀ i, t.state i = .receivedFromArm11 ↔ s.state i = .receivedFromArm11)
    (hbuffer : s.state 0 = .receivedFromArm11 → t.buffer 0 = s.buffer 0)
    (hcounted : t.trail.counted = s.trail.counted)
    (hvisit : ∀ i : Service, s.manager.maySend = true → s.state i = .receivedFromArm11 →
      s.sender.pc.toVisit ≤ i → t.sender.pc.toVisit ≤ i) : PendingInv t := by
  constructor
  · rw [hpending, hs.counts]
    apply Tally.congr
    intro i
    rw [PxiState.countedInFlight, PxiState.countedInFlight, hcounted, hflight]
  · intro hmay i hi
    have hmay' := (maySend_congr hlatest hpending hdisabled).symm.trans hmay
    have hi' := (hold i).mp hi
    exact hvisit i hmay' hi' (hs.passed hmay' i hi')
  · intro hmc5
    obtain ⟨hstate, hword⟩ := mc5Waits_iff.mp hmc5
    have hstate' := (hold 0).mp hstate
    rw [hlatest]
    exact hs.kept (mc5Waits_iff.mpr ⟨hstate', hbuffer hstate' ▸ hword⟩)

theorem PendingInv.sameStates (hs : PendingInv s)
    (hlatest : t.manager.latestPxiMc5Val = s.manager.latestPxiMc5Val)
    (hpending : t.manager.pendingArm9Commands = s.manager.pendingArm9Commands)
    (hdisabled : t.manager.sendingDisabled = s.manager.sendingDisabled)
    (hstate : ∀ i, t.state i = s.state i) (hbuffer : t.buffer 0 = s.buffer 0)
    (hcounted : t.trail.counted = s.trail.counted)
    (hvisit : ∀ i : Service, s.manager.maySend = true → s.state i = .receivedFromArm11 →
      s.sender.pc.toVisit ≤ i → t.sender.pc.toVisit ≤ i) : PendingInv t := by
  apply hs.frame hlatest hpending hdisabled ?_ ?_ (fun _ => hbuffer) hcounted hvisit
  · intro i
    rw [PxiState.inFlight, PxiState.inFlight, hstate]
  · intro i
    rw [hstate]

theorem inFlight_of_states {i : Service} {state : SessionState}
    (hstate : ∀ j, t.state j = if j = i then state else s.state j) (j : Service) (hj : j ≠ i) :
    t.inFlight j = s.inFlight j := by
  rw [PxiState.inFlight, PxiState.inFlight, hstate, if_neg hj]

theorem counts_exchange {i : Service} {state : SessionState}
    (hstate : ∀ j, t.state j = if j = i then state else s.state j)
    (hcounted : ∀ j, j ≠ i → t.trail.counted j = s.trail.counted j) :
    tally t.countedInFlight + (s.countedInFlight i).toNat =
      tally s.countedInFlight + (t.countedInFlight i).toNat := by
  apply Tally.exchange
  intro j hj
  rw [PxiState.countedInFlight, PxiState.countedInFlight, inFlight_of_states hstate j hj,
    hcounted j hj]

theorem not_countedInFlight {i : Service}
    (h : s.state i = .idle ∨ s.state i = .receivedFromArm11) : s.countedInFlight i = false := by
  have hflight : s.inFlight i = false := by
    rw [PxiState.inFlight]
    rcases h with h | h <;> rw [h] <;> rfl
  rw [PxiState.countedInFlight, hflight, Bool.and_false]

theorem gateAfter_eq {disabled disabled' : Bool} {val : PxiMc5Val}
    (h : SessionManager.gateAfter disabled val = some disabled') :
    (val = .none → disabled' = disabled) ∧ (val = .disable → disabled = false) ∧
      (val ≠ .none → disabled' = true) := by
  cases val <;> cases disabled <;> cases h <;> exact ⟨by decide, by decide, by decide⟩

theorem gateReply_eq {m : SessionManager} {disabled : Bool} {pending : Word}
    (h : m.gateReply = some (disabled, pending)) :
    (m.latestPxiMc5Val = .none ∧ disabled = m.sendingDisabled ∧
        pending = m.pendingArm9Commands - 1) ∨
      (m.latestPxiMc5Val = .disable ∧ disabled = m.sendingDisabled ∧
        pending = m.pendingArm9Commands) ∨
      (m.latestPxiMc5Val = .enable ∧ disabled = false ∧ pending = m.pendingArm9Commands ∧
        m.pendingArm9Commands = 0) := by
  unfold SessionManager.gateReply at h
  split at h
  case h_1 hval =>
    split_ifs at h with hpending
    cases h
    exact .inr (.inr ⟨hval, rfl, rfl, not_not.mp hpending⟩)
  case h_2 hval =>
    cases h
    exact .inl ⟨hval, rfl, rfl⟩
  case h_3 hval =>
    cases h
    exact .inr (.inl ⟨hval, rfl, rfl⟩)

theorem state_setHandle (i : Service) (handle : Option ClientSession) (j : Service) :
    (s.manager.setSession i { s.manager.sessionData i with handle := handle }).state j =
      s.state j := by
  refine (SessionManager.state_setSession _ i _ j).trans ?_
  split_ifs with hji
  · rw [hji]
    rfl
  · rfl

theorem buffer_setHandle (i : Service) (handle : Option ClientSession) (j : Service) :
    ((s.manager.setSession i { s.manager.sessionData i with handle := handle }).sessionData
      j).buffer = s.buffer j := by
  refine (SessionManager.buffer_setSession _ i _ j).trans ?_
  split_ifs with hji
  · rw [hji]
    rfl
  · rfl

theorem sends_of_sent {i : Service} (h : s.Moves event t) (hi : s.state i = .receivedFromArm11)
    (hsent : t.state i = .sentToArm9) : s.manager.sends i = true := by
  have hkept : t.state i ≠ s.state i := by
    rw [hi, hsent]
    exact nofun
  cases h with
  | sent k hpc hsends =>
    have hstate := (s.manager.state_sendToArm9 k i).symm.trans hsent
    split_ifs at hstate with hik
    · exact hik ▸ hsends
    · exact absurd (hstate.symm.trans hi) nofun
  | command k m hpc hm =>
    have hstate := ((SessionManager.commandReceived_effect hm).states i).symm.trans hsent
    split_ifs at hstate
    exact absurd (hstate.symm.trans hi) nofun
  | reply k m cmdbuf hpc hm =>
    have hstate := ((SessionManager.replyReceived_effect hm).states i).symm.trans hsent
    split_ifs at hstate
    exact absurd (hstate.symm.trans hi) nofun
  | received k hpc hfifo hstate hsize =>
    have hstate := (SessionManager.state_setSession _ k _ i).symm.trans hsent
    split_ifs at hstate
    exact absurd (hstate.symm.trans hi) nofun
  | closed k hpc hk => exact absurd (state_setHandle k none i) hkept
  | accept k hfree hhandle => exact absurd (state_setHandle k (some s.accepted) i) hkept
  | @replied b sessionId hpc =>
    unfold PxiState.replying at hkept
    split at hkept
    · split_ifs at hkept <;> exact absurd rfl hkept
    · exact absurd rfl hkept
  | _ => exact absurd rfl hkept

/-- What the send loop changes where it sends a command. -/
structure SendEffect (s : PxiState) (i : Service) (t : PxiState) : Prop where
  waits : s.state i = .receivedFromArm11
  maySend : s.manager.maySend = true
  visits : s.sender.pc.toVisit = i
  states : ∀ j, t.state j = if j = i then .sentToArm9 else s.state j
  buffers : ∀ j, t.buffer j = s.buffer j
  counted : t.trail.counted = Function.update s.trail.counted i (!s.manager.sendingDisabled)
  latest : t.manager.latestPxiMc5Val = s.manager.latestPxiMc5Val
  disabled : t.manager.sendingDisabled = s.manager.sendingDisabled
  pending : t.manager.pendingArm9Commands = if s.manager.sendingDisabled then
    s.manager.pendingArm9Commands else s.manager.pendingArm9Commands + 1
  visited : t.sender.pc.toVisit = i + 1

theorem sent_effect {i : Service} (hpc : s.sender.pc = .sending i)
    (hsends : s.manager.sends i = true) :
    SendEffect s i ((s.sendToArm9 i).goto (.sending (i + 1))) where
  waits := (sends_open hsends).2.1
  maySend := (sends_open hsends).2.2
  visits := congrArg SenderPc.toVisit hpc
  states := s.manager.state_sendToArm9 i
  buffers := s.manager.buffer_sendToArm9 i
  counted := rfl
  latest := rfl
  disabled := rfl
  pending := rfl
  visited := rfl

section Send
variable {i : Service} (h : SendEffect s i t)
include h

theorem SendEffect.waited {j : Service} (hj : t.state j = .receivedFromArm11) :
    j ≠ i ∧ s.state j = .receivedFromArm11 := by
  rw [h.states] at hj
  split_ifs at hj with hji
  exact ⟨hji, hj⟩

theorem SendEffect.mc5Waits (hmc5 : t.mc5Waits = true) : 0 ≠ i ∧ s.mc5Waits = true := by
  obtain ⟨hstate, hword⟩ := mc5Waits_iff.mp hmc5
  obtain ⟨hne, hstate⟩ := h.waited hstate
  exact ⟨hne, mc5Waits_iff.mpr ⟨hstate, h.buffers 0 ▸ hword⟩⟩

end Send

theorem PendingInv.sent (hs : PendingInv s) {i : Service} (h : SendEffect s i t) :
    PendingInv t := by
  constructor
  · have hexchange := counts_exchange h.states fun j hj => by
      rw [h.counted, Function.update_of_ne hj]
    have hbefore : s.countedInFlight i = false := not_countedInFlight (.inr h.waits)
    have hafter : t.countedInFlight i = !s.manager.sendingDisabled := by
      rw [PxiState.countedInFlight, PxiState.inFlight, h.states, if_pos rfl, h.counted,
        Function.update_self]
      exact Bool.and_true _
    rw [hbefore, hafter, ← hs.counts] at hexchange
    have hle : tally t.countedInFlight ≤ 9 := Tally.le_card
    rw [h.pending]
    cases hoff : s.manager.sendingDisabled with
    | true =>
      rw [hoff] at hexchange
      exact hexchange.symm
    | false =>
      rw [hoff] at hexchange
      simp only [Bool.toNat_false, Bool.not_false, Bool.toNat_true] at hexchange
      rw [if_neg Bool.false_ne_true, BitVec.toNat_add, show BitVec.toNat (1 : Word) = 1 from rfl]
      omega
  · intro _ j hj
    obtain ⟨hji, hj⟩ := h.waited hj
    have hle := hs.passed h.maySend j hj
    rw [h.visits] at hle
    rw [h.visited]
    exact lt_of_le_of_ne hle fun heq => hji (Fin.ext heq.symm)
  · intro hmc5
    rw [h.latest]
    exact hs.kept (h.mc5Waits hmc5).2

section Command
variable {i : Service} (hm : s.manager.CommandEffect i s.sender.cmdbuf t.manager)
include hm

theorem command_mc5Waits_other (hi : i ≠ 0) : t.mc5Waits = s.mc5Waits := by
  have hstate : t.state 0 = s.state 0 := (hm.states 0).trans (if_neg hi.symm)
  have hbuffer : t.buffer 0 = s.buffer 0 := (hm.buffers 0).trans (if_neg hi.symm)
  rw [PxiState.mc5Waits, PxiState.mc5Waits, hstate, hbuffer]

theorem command_mc5Waits_self (hi : i = 0) : t.mc5Waits = true ↔
    SessionManager.pxiMc5Val i s.sender.cmdbuf ≠ .none := by
  subst hi
  have hstate : t.state 0 = .receivedFromArm11 := (hm.states 0).trans (if_pos rfl)
  have hword : t.buffer 0 0 = s.sender.cmdbuf 0 := by
    refine (congrFun ((hm.buffers 0).trans (if_pos rfl)) 0).trans ?_
    exact memcpy_head _ _
  rw [mc5Waits_iff, SessionManager.pxiMc5Val_ne_none_iff, hword]
  exact ⟨fun h => ⟨rfl, h.2⟩, fun h => ⟨hstate, h.2⟩⟩

theorem PendingInv.command (hs : PendingInv s) {b : Bool}
    (hscope : pendingInScope (.ok s) (.sender b) = true)
    (hpc : s.sender.pc = .returned (.command i)) (htrail : t.trail.counted = s.trail.counted)
    (hvisit : t.sender.pc.toVisit = 0) : PendingInv t := by
  constructor
  · have hexchange := counts_exchange (t := t) hm.states fun j _ => by rw [htrail]
    have hbefore : s.countedInFlight i = false := not_countedInFlight (.inl hm.idle)
    have hafter : t.countedInFlight i = false :=
      not_countedInFlight (.inr ((hm.states i).trans (if_pos rfl)))
    rw [hbefore, hafter] at hexchange
    rw [hm.pending, hs.counts]
    exact hexchange.symm
  · intro _ j _
    rw [hvisit]
    exact Nat.zero_le _
  · intro hwait
    rw [hm.latest]
    by_cases hi : i = 0
    · exact (command_mc5Waits_self hm hi).mp hwait
    · rw [command_mc5Waits_other hm hi] at hwait
      simpa [pendingInScope, hpc, hwait] using hscope

end Command

section Reply
variable {i : Service} {cmdbuf : Cmdbuf}
variable (hm : s.manager.ReplyEffect i s.sender.cmdbuf t.manager cmdbuf)
include hm

theorem reply_waited {j : Service} (hj : t.state j = .receivedFromArm11) :
    j ≠ i ∧ s.state j = .receivedFromArm11 := by
  have hj' := (hm.states j).symm.trans hj
  split_ifs at hj' with hji
  exact ⟨hji, hj'⟩

theorem reply_mc5Waits (hwait : t.mc5Waits = true) : s.mc5Waits = true := by
  obtain ⟨hstate, hword⟩ := mc5Waits_iff.mp hwait
  have hbuffer : t.buffer 0 = s.buffer 0 := hm.buffers 0
  exact mc5Waits_iff.mpr ⟨(reply_waited hm hstate).2, hbuffer ▸ hword⟩

theorem PendingInv.reply (hs : PendingInv s)
    (hcounted : s.manager.latestPxiMc5Val = .none ↔ s.trail.counted i = true)
    (hpc : s.sender.pc = .replyFound i) (htrail : t.trail.counted = s.trail.counted) :
    PendingInv t := by
  constructor
  · have hexchange := counts_exchange (t := t) hm.states fun j _ => by rw [htrail]
    have hbefore : s.countedInFlight i = s.trail.counted i := by
      rw [PxiState.countedInFlight, inFlight_iff.mpr (.inr hm.received), Bool.and_true]
    have hafter : t.countedInFlight i = false :=
      not_countedInFlight (.inl ((hm.states i).trans (if_pos rfl)))
    rw [hbefore, hafter, Bool.toNat_false, Nat.add_zero, ← hs.counts] at hexchange
    rcases gateReply_eq hm.gate with ⟨hval, -, hpending⟩ | ⟨hval, -, hpending⟩ |
      ⟨hval, -, hpending, -⟩
    · rw [hcounted.mp hval, Bool.toNat_true] at hexchange
      have hlt := s.manager.pendingArm9Commands.isLt
      rw [hpending, BitVec.toNat_sub, show BitVec.toNat (1 : Word) = 1 from rfl]
      omega
    all_goals
      have hnot : s.trail.counted i = false := by
        rw [← Bool.not_eq_true, ← hcounted, hval]
        exact nofun
      rw [hnot, Bool.toNat_false, Nat.add_zero] at hexchange
      rw [hpending]
      exact hexchange.symm
  · -- Where sending goes on now, it has gone on before, and no session has been left.
    intro hmay j hj
    have hmay' : s.manager.maySend = true := by
      rcases gateReply_eq hm.gate with ⟨hval, hoff, -⟩ | ⟨hval, hoff, hpending⟩ |
          ⟨hval, -, -, hpending⟩
      · rw [maySend_iff, hm.latest] at hmay
        rcases hmay with hon | ⟨-, hne⟩
        · exact maySend_iff.mpr (.inl (hoff ▸ hon))
        · exact absurd hval hne
      · exact (maySend_congr hm.latest hpending hoff).symm.trans hmay
      · exact maySend_iff.mpr (.inr ⟨hpending, by rw [hval]; exact nofun⟩)
    have hpassed := hs.passed hmay' j (reply_waited hm hj).2
    rw [hpc] at hpassed
    exact absurd j.isLt (not_lt.mpr hpassed)
  · intro hwait
    rw [hm.latest]
    exact hs.kept (reply_mc5Waits hm hwait)

end Reply

theorem PendingInv.eligible (hs : PendingInv s) (hmc5 : s.mc5Waits = true)
    (hnone : ∀ i, s.countedInFlight i = false) : s.manager.maySend = true := by
  have hpending : s.manager.pendingArm9Commands = 0 := by
    apply BitVec.eq_of_toNat_eq
    exact hs.counts.trans (Tally.eq_zero_iff.mpr hnone)
  rw [SessionManager.maySend, hpending]
  simp [hs.kept hmc5]

/-- What the receiver changes where it takes a reply. -/
structure ReceiveEffect (s : PxiState) (i : Service) (reply : Cmdbuf) (t : PxiState) : Prop where
  sent : s.state i = .sentToArm9
  fits : nbWords (reply 0) ≤ 0x40
  states : ∀ j, t.state j = if j = i then .receivedFromArm9 else s.state j
  buffers : ∀ j, t.buffer j =
    if j = i then memcpy (s.buffer i) reply (nbWords (reply 0)) else s.buffer j
  gate : t.manager.latestPxiMc5Val = s.manager.latestPxiMc5Val ∧
    t.manager.pendingArm9Commands = s.manager.pendingArm9Commands ∧
    t.manager.sendingDisabled = s.manager.sendingDisabled
  sender : t.sender = s.sender
  trail : t.trail = s.trail

theorem received_effect {i : Service} {reply : Cmdbuf} (fifo : List (ℕ × Cmdbuf))
    (hstate : s.state i = .sentToArm9) (hsize : nbWords (reply 0) ≤ 0x40) :
    ReceiveEffect s i reply { s.setManager (s.manager.setSession i { s.manager.sessionData i with
        buffer := memcpy (s.buffer i) reply (nbWords (reply 0))
        state := .receivedFromArm9 }) with
      fifo := fifo
      receiver := .received i } where
  sent := hstate
  fits := hsize
  states := SessionManager.state_setSession _ i _
  buffers := SessionManager.buffer_setSession _ i _
  gate := ⟨rfl, rfl, rfl⟩
  sender := rfl
  trail := rfl

section Receive
variable {i : Service} {reply : Cmdbuf} (h : ReceiveEffect s i reply t)
include h

theorem ReceiveEffect.inFlight (j : Service) : t.inFlight j = s.inFlight j := by
  by_cases hji : j = i
  · rw [hji, inFlight_iff.mpr (.inl h.sent),
      inFlight_iff.mpr (.inr ((h.states i).trans (if_pos rfl)))]
  · exact inFlight_of_states h.states j hji

theorem ReceiveEffect.idle (j : Service) (hj : t.state j = .idle) : s.state j = .idle := by
  have hj' := (h.states j).symm.trans hj
  split_ifs at hj'
  exact hj'

theorem ReceiveEffect.waits (j : Service) :
    t.state j = .receivedFromArm11 ↔ s.state j = .receivedFromArm11 := by
  rw [h.states]
  split_ifs with hji
  · rw [hji, h.sent]
    exact iff_of_false nofun nofun
  · exact Iff.rfl

theorem ReceiveEffect.buffer {j : Service} (hj : s.state j = .receivedFromArm11) :
    t.buffer j = s.buffer j := by
  have hne : j ≠ i := by
    rintro rfl
    cases hj.symm.trans h.sent
  exact (h.buffers j).trans (if_neg hne)

theorem PendingInv.received (hs : PendingInv s) : PendingInv t := by
  obtain ⟨hlatest, hpending, hdisabled⟩ := h.gate
  apply hs.frame hlatest hpending hdisabled h.inFlight h.waits h.buffer (by rw [h.trail])
  rw [h.sender]
  exact fun _ _ _ => id

end Receive

theorem pendingInScope_reply {i : Service} {b : Bool} (hpc : s.sender.pc = .replyFound i)
    (hscope : pendingInScope (.ok s) (.sender b) = true) :
    s.manager.latestPxiMc5Val = .none ↔ s.trail.counted i = true := by
  simp only [pendingInScope, hpc, beq_iff_eq] at hscope
  rw [← hscope, decide_eq_true_eq]

theorem replying_same {sessionId : Option Service} {b : Bool} :
    (s.replying sessionId b).manager = s.manager ∧
      (s.replying sessionId b).trail.counted = s.trail.counted := by
  unfold PxiState.replying
  split
  · split_ifs <;> exact ⟨rfl, rfl⟩
  · exact ⟨rfl, rfl⟩

theorem moves_pendingInv (hs : PendingInv s) (hopen : SessionInv s)
    (hscope : pendingInScope (.ok s) event = true) (h : s.Moves event t) : PendingInv t := by
  cases h with
  | begin hpc =>
    exact hs.sameStates rfl rfl rfl (fun _ => rfl) rfl rfl fun _ _ _ _ => Nat.zero_le _
  | sent i hpc hsends => exact hs.sent (sent_effect hpc hsends)
  | skipped i hpc hsends =>
    refine hs.sameStates rfl rfl rfl (fun _ => rfl) rfl rfl ?_
    intro j hmay hj hle
    rw [hpc] at hle
    have hji : (i : ℕ) ≠ j := by
      intro heq
      obtain rfl : i = j := Fin.ext heq
      have hhandle := hopen.busy_open (i := i) (by rw [hj]; exact nofun)
      have hpasses : s.manager.sends i = true := by
        rw [SessionManager.sends, hmay, Bool.and_true, Bool.and_eq_true]
        exact ⟨decide_eq_true hhandle, decide_eq_true hj⟩
      rw [hsends] at hpasses
      cases hpasses
    exact lt_of_le_of_ne hle hji
  | sentAll hpc hi =>
    refine hs.sameStates rfl rfl rfl (fun _ => rfl) rfl rfl ?_
    intro j _ _ hle
    rw [hpc] at hle
    exact absurd j.isLt (not_lt.mpr (hi.trans hle))
  | replied hpc =>
    obtain ⟨hmanager, htrail⟩ := replying_same
    refine hs.sameStates (by rw [hmanager]) (by rw [hmanager]) (by rw [hmanager]) ?_ ?_ htrail ?_
    · intro i
      rw [PxiState.state, hmanager]
      rfl
    · rw [PxiState.buffer, hmanager]
      rfl
    · intro j _ _ hle
      rw [hpc] at hle
      exact absurd j.isLt (not_lt.mpr hle)
  | closed i hpc hi =>
    exact hs.sameStates rfl rfl rfl (state_setHandle i none) (buffer_setHandle i none 0) rfl
      fun _ _ _ _ => Nat.zero_le _
  | woken hpc =>
    exact hs.sameStates rfl rfl rfl (fun _ => rfl) rfl rfl fun _ _ _ _ => Nat.zero_le _
  | scans hpc => exact hs.sameStates rfl rfl rfl (fun _ => rfl) rfl rfl (hpc ▸ fun _ _ _ => id)
  | command i m hpc hm =>
    exact PendingInv.command (SessionManager.commandReceived_effect hm) hs hscope hpc rfl rfl
  | scanned k hpc => exact hs.sameStates rfl rfl rfl (fun _ => rfl) rfl rfl (hpc ▸ fun _ _ _ => id)
  | found k hpc => exact hs.sameStates rfl rfl rfl (fun _ => rfl) rfl rfl (hpc ▸ fun _ _ _ => id)
  | reply i m cmdbuf hpc hm =>
    exact PendingInv.reply (SessionManager.replyReceived_effect hm) hs
      (pendingInScope_reply hpc hscope) hpc rfl
  | wakeClosed i hpc =>
    exact hs.sameStates rfl rfl rfl (fun _ => rfl) rfl rfl (hpc ▸ fun _ _ _ => id)
  | wakeSendAll hpc =>
    exact hs.sameStates rfl rfl rfl (fun _ => rfl) rfl rfl (hpc ▸ fun _ _ _ => id)
  | wakeReply hpc => exact hs.sameStates rfl rfl rfl (fun _ => rfl) rfl rfl (hpc ▸ fun _ _ _ => id)
  | wakeCommand i cmdbuf hpc =>
    exact hs.sameStates rfl rfl rfl (fun _ => rfl) rfl rfl (hpc ▸ fun _ _ _ => id)
  | received i hpc hfifo hstate hsize =>
    exact PendingInv.received (received_effect _ hstate hsize) hs
  | accept i hfree hhandle =>
    exact hs.sameStates rfl rfl rfl (state_setHandle i (some s.accepted))
      (buffer_setHandle i (some s.accepted) 0) rfl fun _ _ _ => id
  | _ => exact hs.sameStates rfl rfl rfl (fun _ => rfl) rfl rfl fun _ _ _ => id

end Steps

theorem boot_pendingInv : PendingInv .boot where
  counts := (Tally.eq_zero_iff.mpr fun _ => rfl).symm
  passed _ _ h := by cases h
  kept h := by cases h

end Presence3DS.Pxi
