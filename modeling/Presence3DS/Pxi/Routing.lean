import Presence3DS.Pxi.Gate
import Presence3DS.Pxi.Rounds
import Presence3DS.Pxi.Suspend

/-! Each command is sent once, its reply goes back once, and neither the sender nor the receiver
panics. -/

namespace Presence3DS.Pxi
open Runs

/-- The clients ask in turn to disable the sending and to enable it. -/
def usesMc5Properly (askedToDisable : Bool) : PxiMc5Val → Bool
  | .none => true
  | .disable => !askedToDisable
  | .enable => askedToDisable

/-- Moreover, the command fits its buffer, and `pxi:mc` command 5 is used properly. -/
def routingInScope (s : Except PxiThread PxiState) (event : PxiEvent) : Bool :=
  pendingInScope s event &&
    match s, event with
    | .ok s, .sender _ =>
      match s.sender.pc with
      | .returned (.command i) => nbWords (s.sender.cmdbuf 0) ≤ 0x40 &&
        usesMc5Properly s.trail.askedToDisable (SessionManager.pxiMc5Val i s.sender.cmdbuf)
      | _ => true
    | _, _ => true

/-- All that has happened to the commands of a service is complete rounds and its last command; the
semaphore counts the replies not picked up; a command only waits while sending is disabled, which
`pxi:mc` has asked for or is about to end, and `pxi:mc` command 5 only while counted commands are in
flight. -/
structure RoutingLaw (t : PxiState) : Prop where
  routed : ∀ i, t.Routes i
  released : tally t.answered = t.replySemaphore + t.receiver.held + t.sender.pc.held
  waits : ∀ idle, t.sender.pc = .waiting idle → ∀ i, t.state i = .receivedFromArm11 →
    t.manager.sendingDisabled = true ∧
      (i = 0 → t.mc5Waits = true → ∃ j, t.countedInFlight j = true)
  disabled : t.manager.sendingDisabled = true →
    t.trail.askedToDisable = true ∨ t.state 0 ≠ .idle

/-- Only the other threads panic. -/
def RoutedStep (_ : Except PxiThread PxiState) (_ : PxiEvent) : Except PxiThread PxiState → Prop
  | .error thread => thread ≠ .sender ∧ thread ≠ .receiver
  | .ok t => RoutingLaw t

structure RoutingInv (s : PxiState) : Prop where
  sessions : SessionInv s
  pending : PendingInv s
  gate : GateInv s
  channel : ChannelInv s
  routed : ∀ i, s.Routes i

section Steps
variable {s t : PxiState} {event : PxiEvent} {thread : PxiThread}

theorem RoutingInv.law (hs : RoutingInv s) : RoutingLaw s where
  routed := hs.routed
  released := hs.channel.released
  waits idle hpc i hi := by
    have hblocked : s.manager.maySend ≠ true := by
      intro hmay
      have hpassed := hs.pending.passed hmay i hi
      rw [hpc] at hpassed
      exact absurd i.isLt (not_lt.mpr hpassed)
    have hoff : s.manager.sendingDisabled = true :=
      Bool.eq_true_of_not_eq_false fun hon => hblocked (maySend_iff.mpr (.inl hon))
    refine ⟨hoff, ?_⟩
    intro _ hmc5
    by_contra hnone
    apply hblocked
    apply hs.pending.eligible hmc5
    intro j
    rw [← Bool.not_eq_true]
    exact fun hj => hnone ⟨j, hj⟩
  disabled hoff := by
    cases hasked : s.trail.askedToDisable with
    | true => exact .inl rfl
    | false => exact .inr (hs.gate.opening hoff hasked).1

theorem moves_routingInv (hs : RoutingInv s) (hscope : routingInScope (.ok s) event = true)
    (h : s.Moves event t) : RoutingInv t := by
  have hpending := (Bool.and_eq_true_iff.mp hscope).1
  exact ⟨moves_sessionInv hs.sessions h, moves_pendingInv hs.pending hs.sessions hpending h,
    moves_gateInv hs.gate hs.pending hpending h, moves_channelInv hs.channel h,
    moves_routes hs.routed hs.sessions hs.channel h⟩

/-! ## Panics -/

theorem error_of_orPanic {thread' : PxiThread} {next : Option PxiState}
    (h : some (PxiState.orPanic thread' next) = some (.error thread)) : next = none := by
  cases next with
  | none => rfl
  | some u => cases h

theorem command_isSome (hs : RoutingInv s) {b : Bool} {i : Service}
    (hscope : routingInScope (.ok s) (.sender b) = true)
    (hpc : s.sender.pc = .returned (.command i)) : s.commandReceived i ≠ none := by
  have hidles : s.manager.Idles i := by
    have hexpects := hs.sessions.expects
    unfold SessionManager.Expects at hexpects
    rwa [hpc] at hexpects
  have hproper := (Bool.and_eq_true_iff.mp hscope).2
  simp only [hpc, Bool.and_eq_true, decide_eq_true_eq] at hproper
  obtain ⟨hfits, hproper⟩ := hproper
  have hgate : SessionManager.gateAfter s.manager.sendingDisabled
      (SessionManager.pxiMc5Val i s.sender.cmdbuf) ≠ none := by
    cases hval : SessionManager.pxiMc5Val i s.sender.cmdbuf with
    | none => exact nofun
    | disable =>
      rw [hval] at hproper
      have hnot : s.trail.askedToDisable = false := (Bool.not_eq_true' _).mp hproper
      have hne : SessionManager.pxiMc5Val i s.sender.cmdbuf ≠ .none := by
        rw [hval]
        exact nofun
      have hi : i = 0 := (SessionManager.pxiMc5Val_ne_none_iff.mp hne).1
      have hon : s.manager.sendingDisabled = false := by
        rw [← Bool.not_eq_true]
        exact fun hoff => (hs.gate.opening hoff hnot).1 (hi ▸ hidles.1)
      rw [hon]
      exact nofun
    | enable =>
      rw [hval] at hproper
      rw [hs.gate.asked hproper]
      exact nofun
  have hsome := SessionManager.commandReceived_isSome hidles.1 hfits hgate
  obtain ⟨m, hm⟩ := Option.isSome_iff_exists.mp hsome
  rw [PxiState.commandReceived, hm]
  exact nofun

theorem reply_isSome (hs : RoutingInv s) {i : Service} (hpc : s.sender.pc = .replyFound i) :
    s.replyReceived i ≠ none := by
  have hstate : s.state i = .receivedFromArm9 := by
    have hexpects := hs.sessions.expects
    unfold SessionManager.Expects at hexpects
    rwa [hpc] at hexpects
  have hgate : s.manager.gateReply ≠ none := by
    unfold SessionManager.gateReply
    split
    case h_1 hval =>
      rw [(hs.gate.enable hval).2.1, if_neg (fun hne => hne rfl)]
      exact nofun
    case h_2 => exact nofun
    case h_3 => exact nofun
  have hsome : (s.manager.replyReceived i s.sender.cmdbuf).isSome = true :=
    SessionManager.replyReceived_isSome hstate (hs.channel.fits i hstate) hgate
  obtain ⟨m, hm⟩ := Option.isSome_iff_exists.mp hsome
  rw [PxiState.replyReceived, hm]
  exact nofun

theorem sender_ok (hs : RoutingInv s) {b : Bool}
    (hscope : routingInScope (.ok s) (.sender b) = true) :
    s.senderStep b ≠ some (.error thread) := by
  intro h
  unfold PxiState.senderStep at h
  cases hpc : s.sender.pc <;> simp only [hpc] at h
  case begin => cases h
  case sending i => cases h
  case replying sessionId => cases h
  case waiting idle => cases h
  case returned index =>
    have hnone := error_of_orPanic h
    cases index with
    | closed x =>
      cases x with
      | none =>
        have hexpects := hs.sessions.expects
        unfold SessionManager.Expects at hexpects
        rw [hpc] at hexpects
        obtain ⟨i, -, htarget⟩ := hexpects
        have hfind := List.find?_eq_none.mp (Option.map_eq_none_iff.mp hnone) i
          (List.mem_finRange i)
        exact hfind (decide_eq_true htarget)
      | some i => cases hnone
    | sendAllBuffersToArm9 => cases hnone
    | reply => cases hnone
    | command i => exact command_isSome hs hscope hpc hnone
  case scanning k =>
    have hnone := error_of_orPanic h
    obtain ⟨j, hkj, -⟩ := hs.channel.scans k hpc
    rw [PxiState.scanning, dif_pos (hkj.trans_lt j.isLt)] at hnone
    cases hnone
  case replyFound i => exact reply_isSome hs hpc (error_of_orPanic h)

theorem receive_isSome (hs : RoutingInv s) {serviceId : ℕ} {reply : Cmdbuf}
    {fifo : List (ℕ × Cmdbuf)} (hpc : s.receiver = .idle)
    (hfifo : s.fifo = (serviceId, reply) :: fifo) :
    { s with fifo := fifo }.receive serviceId reply ≠ none := by
  have hmem : (serviceId, reply) ∈ s.fifo := hfifo ▸ List.mem_cons_self
  obtain ⟨hid, hfits⟩ := hs.channel.known _ hmem
  have hnot : ¬0x40 < nbWords (reply 0) := not_lt.mpr hfits
  by_cases hlt : serviceId < 9
  · have hsent : s.state ⟨serviceId, hlt⟩ = .sentToArm9 := by
      apply (hs.channel.sent ⟨serviceId, hlt⟩).mp
      exact List.mem_append_right _ (mem_fifo_outstanding (i := ⟨serviceId, hlt⟩) hmem)
    have htest : ¬((s.manager.sessionData ⟨serviceId, hlt⟩).state ≠ .sentToArm9 ∨
        0x40 < nbWords (reply 0)) := not_or.mpr ⟨not_not.mpr hsent, hnot⟩
    rw [PxiState.receive, dif_pos hlt]
    simp only [if_neg htest]
    exact Option.some_ne_none _
  · have hnine : serviceId = 9 := le_antisymm hid (not_lt.mp hlt)
    have hsrv11 := hs.channel.srv11
    rw [hpc] at hsrv11
    have htest : ¬(serviceId ≠ 9 ∨ s.srv11.state ≠ .sentToArm9 ∨ 0x40 < nbWords (reply 0)) :=
      not_or.mpr ⟨not_not.mpr hnine, not_or.mpr ⟨not_not.mpr hsrv11.2.1, hnot⟩⟩
    rw [PxiState.receive, dif_neg hlt, if_neg htest]
    exact Option.some_ne_none _

theorem receiver_ok (hs : RoutingInv s) : s.receiverStep ≠ some (.error thread) := by
  intro h
  unfold PxiState.receiverStep at h
  cases hpc : s.receiver <;> simp only [hpc] at h
  case begin =>
    split_ifs at h
    cases h
  case idle =>
    cases hfifo : s.fifo with
    | nil =>
      rw [hfifo] at h
      cases h
    | cons head fifo =>
      rw [hfifo] at h
      exact receive_isSome hs hpc hfifo (error_of_orPanic h)
  case received serviceId =>
    split_ifs at h with hid hcount
    · cases h
    · -- The reply that is to be signalled is one of nine, and is not in the semaphore.
      have hreleased := hs.channel.released
      have hle : tally s.answered ≤ 9 := Tally.le_card
      rw [hpc, ReceiverPc.held, if_neg hid] at hreleased
      omega
    · cases h
  case awaitingReplySent =>
    have hsrv11 := hs.channel.srv11
    rw [hpc] at hsrv11
    obtain ⟨-, hstate, hreply⟩ := hsrv11
    by_cases hsent : s.srv11.replySent = false
    · rw [if_pos hsent] at h
      cases h
    · have hcommand : s.srv11.commandReceived = false := by
        cases hcommand : s.srv11.commandReceived with
        | false => rfl
        | true => exact absurd (hreply.trans (congrArg _ hcommand)) hsent
      rw [hcommand, if_neg Bool.false_ne_true] at hstate
      rw [if_neg hsent, if_neg (not_not.mpr hstate)] at h
      cases h

theorem handlerStep_error {published : Word}
    (h : s.handlerStep published = some (.error thread)) : thread = .handler := by
  unfold PxiState.handlerStep at h
  simp only at h
  split_ifs at h <;> cases h <;> rfl

theorem step_error (hs : RoutingInv s) (hscope : routingInScope (.ok s) event = true)
    (h : s.step event = some (.error thread)) : thread ≠ .sender ∧ thread ≠ .receiver := by
  cases event with
  | sender b => exact absurd h (sender_ok hs hscope)
  | wake index cmdbuf =>
    obtain ⟨u, -, heq⟩ := Option.map_eq_some_iff.mp h
    cases heq
  | receiver => exact absurd h (receiver_ok hs)
  | handler published =>
    rw [handlerStep_error h]
    exact ⟨PxiThread.noConfusion, PxiThread.noConfusion⟩
  | accept i =>
    simp only [PxiState.step, PxiState.accept] at h
    split_ifs at h <;> cases h
    exact ⟨PxiThread.noConfusion, PxiThread.noConfusion⟩
  | arm9Answers i reply =>
    obtain ⟨u, -, heq⟩ := Option.map_eq_some_iff.mp h
    cases heq
  | arm9Requests request => cases h

end Steps

/-- Every command is sent once and answered once, and neither the sender nor the receiver panics, in
a run whose commands fit their buffer, whose clients use `pxi:mc` command 5 properly, whose ordinary
commands find no `pxi:mc` command 5 waiting, and whose replies find that the last command received
was ordinary exactly if their own was counted. -/
theorem commands_routed (events : List PxiEvent)
    (h : Guarded pxiStep (fun s event => routingInScope s event = true) (.ok .boot) events) :
    AllSteps pxiStep RoutedStep (.ok .boot) events := by
  have hboot : RoutingInv .boot :=
    ⟨boot_sessionInv, boot_pendingInv, boot_gateInv, boot_channelInv, boot_routes⟩
  have hstep : ∀ s event t, Unpanicked RoutingInv s → routingInScope s event = true →
      pxiStep s event = some t → Unpanicked RoutingInv t ∧ RoutedStep s event t := by
    intro s event t hs hscope ht
    cases s with
    | error thread => cases ht
    | ok s =>
      cases t with
      | error thread => exact ⟨trivial, step_error hs hscope ht⟩
      | ok t =>
        have hinv := moves_routingInv hs hscope (PxiState.step_moves ht)
        exact ⟨hinv, hinv.law⟩
  exact allSteps_of_guarded hstep hboot h

/-- Commands wait while sending is disabled, and are sent when it is to be enabled. -/
def resumeRun : List PxiEvent :=
  [.accept 0, .accept 4, .handler 0, .receiver] ++ round ++
    arrives 0 0x50040 1 ++ answered 0 ++ arrives 4 0 0 ++
    arrives 0 0x50040 0 ++ answered 0 ++ answered 4

theorem resumeRun_routed : AllSteps pxiStep RoutedStep (.ok .boot) resumeRun :=
  commands_routed resumeRun (guarded_of_guards (by decide +kernel))

/-- A command arrives before sending is enabled again, and `pxi:mc` is asked to disable it. -/
def earlyRun : List PxiEvent :=
  [.accept 0, .accept 4, .handler 0, .receiver] ++ round ++
    arrives 0 0x50040 1 ++ answered 0 ++ arrives 0 0x50040 0 ++ arrives 4 0 0 ++ answered 0 ++
    [.wake (.command 0) fun k => if k = 0 then 0x50040 else 1]

/-- A thread has panicked. -/
def panicked (thread : PxiThread) : Except PxiThread PxiState → Bool
  | .ok _ => false
  | .error t => t = thread

theorem early_command_panics_sender : ¬∀ events,
    AllSteps pxiStep RoutedStep (.ok .boot) events := by
  intro h
  have hbad : (run pxiStep (.ok .boot) earlyRun).any (fun s =>
      (pxiStep s (.sender false)).any (panicked .sender)) = true := by decide +kernel
  obtain ⟨s, hrun, hbad⟩ := (Option.any_eq_true _ _).mp hbad
  obtain ⟨t, hstep, hbad⟩ := (Option.any_eq_true _ _).mp hbad
  have hlaw := (h (earlyRun ++ [.sender false])).last hrun hstep
  cases t with
  | ok t => cases hbad
  | error thread => exact hlaw.1 (of_decide_eq_true hbad)

end Presence3DS.Pxi
