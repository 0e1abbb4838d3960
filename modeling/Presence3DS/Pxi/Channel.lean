import Presence3DS.Pxi.Pending

/-! What is on its way to Arm9 and back, and what the receiver tells the sender. -/

namespace Presence3DS.Pxi

/-- The replies that the receiver has not yet told the sender of. -/
def ReceiverPc.held : ReceiverPc → ℕ
  | .received serviceId => if serviceId = 9 then 0 else 1
  | _ => 0

/-- The replies that the sender has been told of, and not taken. -/
def SenderPc.held : SenderPc → ℕ
  | .returned .reply => 1
  | .scanning _ => 1
  | .replyFound _ => 1
  | _ => 0

/-- `PXISRV11Handler` and the receiver take turns. -/
def Srv11.Fits (v : Srv11) : ReceiverPc → Prop
  | .begin => v.state = (if v.started then .sentToArm9 else .idle) ∧
    v.commandReceived = false ∧ v.replySent = v.started
  | .idle => v.started = true ∧ v.state = .sentToArm9 ∧ v.commandReceived = false ∧
    v.replySent = false
  | .received serviceId => v.started = true ∧
    v.state = (if serviceId = 9 then .receivedFromArm9 else .sentToArm9) ∧
      v.commandReceived = false ∧ v.replySent = false
  | .awaitingReplySent => v.started = true ∧
    v.state = (if v.commandReceived then .receivedFromArm9 else .sentToArm9) ∧
      v.replySent = !v.commandReceived

namespace PxiState

/-- The services whose commands Arm9 has, or whose replies are on their way. -/
def outstanding (s : PxiState) : List ℕ :=
  s.arm9.map Fin.val ++ (s.fifo.map Prod.fst).filter (· ≠ 9)

def answered (s : PxiState) (i : Service) : Bool := s.state i = .receivedFromArm9

end PxiState

structure ChannelInv (s : PxiState) : Prop where
  known : ∀ message ∈ s.fifo, message.1 ≤ 9 ∧ nbWords (message.2 0) ≤ 0x40
  nodup : s.outstanding.Nodup
  sent : ∀ i : Service, i.val ∈ s.outstanding ↔ s.state i = .sentToArm9
  fits : ∀ i, s.state i = .receivedFromArm9 → nbWords (s.buffer i 0) ≤ 0x40
  released : tally s.answered = s.replySemaphore + s.receiver.held + s.sender.pc.held
  scans : ∀ k, s.sender.pc = .scanning k → ∃ j : Service, k ≤ j ∧ s.state j = .receivedFromArm9
  srv11 : s.srv11.Fits s.receiver

section Channel
variable {s t : PxiState} {event : PxiEvent} {i : Service}

theorem filter_service (i : Service) (ids : List ℕ) :
    (i.val :: ids).filter (· ≠ 9) = i.val :: ids.filter (· ≠ 9) :=
  List.filter_cons_of_pos (decide_eq_true i.isLt.ne)

theorem answered_iff : s.answered i = true ↔ s.state i = .receivedFromArm9 := decide_eq_true_iff

theorem ChannelInv.frame (hs : ChannelInv s) (hfifo : t.fifo = s.fifo) (harm9 : t.arm9 = s.arm9)
    (hsent : ∀ i, t.state i = .sentToArm9 ↔ s.state i = .sentToArm9)
    (hanswered : ∀ i, t.state i = .receivedFromArm9 ↔ s.state i = .receivedFromArm9)
    (hbuffer : ∀ i, s.state i = .receivedFromArm9 → t.buffer i = s.buffer i)
    (hreleased : t.replySemaphore + t.receiver.held + t.sender.pc.held =
      s.replySemaphore + s.receiver.held + s.sender.pc.held)
    (hscans : ∀ k, t.sender.pc = .scanning k → ∃ j : Service, k ≤ j ∧
      s.state j = .receivedFromArm9)
    (hsrv11 : t.srv11.Fits t.receiver) : ChannelInv t where
  known := hfifo ▸ hs.known
  nodup := by
    rw [PxiState.outstanding, hfifo, harm9]
    exact hs.nodup
  sent i := by
    rw [PxiState.outstanding, hfifo, harm9, hsent]
    exact hs.sent i
  fits i hi := by
    have hi' := (hanswered i).mp hi
    rw [hbuffer i hi']
    exact hs.fits i hi'
  released := by
    rw [hreleased, ← hs.released]
    apply Tally.congr
    intro i
    rw [Bool.eq_iff_iff, answered_iff, answered_iff, hanswered]
  scans k hk := by
    obtain ⟨j, hkj, hj⟩ := hscans k hk
    exact ⟨j, hkj, (hanswered j).mpr hj⟩
  srv11 := hsrv11

theorem ChannelInv.sameStates (hs : ChannelInv s) (hfifo : t.fifo = s.fifo)
    (harm9 : t.arm9 = s.arm9) (hstate : ∀ i, t.state i = s.state i)
    (hbuffer : ∀ i, t.buffer i = s.buffer i)
    (hreleased : t.replySemaphore + t.receiver.held + t.sender.pc.held =
      s.replySemaphore + s.receiver.held + s.sender.pc.held)
    (hscans : ∀ k, t.sender.pc = .scanning k → ∃ j : Service, k ≤ j ∧
      s.state j = .receivedFromArm9)
    (hsrv11 : t.srv11.Fits t.receiver) : ChannelInv t :=
  hs.frame hfifo harm9 (fun i => by rw [hstate]) (fun i => by rw [hstate])
    (fun i _ => hbuffer i) hreleased hscans hsrv11

theorem ChannelInv.send (hs : ChannelInv s) (h : SendEffect s i t) (hfifo : t.fifo = s.fifo)
    (harm9 : t.arm9 = i :: s.arm9)
    (hreleased : t.replySemaphore + t.receiver.held + t.sender.pc.held =
      s.replySemaphore + s.receiver.held + s.sender.pc.held)
    (hscans : ∀ k, t.sender.pc ≠ .scanning k) (hsrv11 : t.srv11.Fits t.receiver) :
    ChannelInv t := by
  have hout : t.outstanding = i.val :: s.outstanding := by
    rw [PxiState.outstanding, hfifo, harm9]
    rfl
  have hanswered : ∀ j, t.state j = .receivedFromArm9 ↔ s.state j = .receivedFromArm9 := by
    intro j
    rw [h.states]
    split_ifs with hji
    · rw [hji, h.waits]
      exact iff_of_false nofun nofun
    · exact Iff.rfl
  constructor
  · exact hfifo ▸ hs.known
  · rw [hout]
    refine List.nodup_cons.mpr ⟨?_, hs.nodup⟩
    rw [hs.sent, h.waits]
    exact nofun
  · intro j
    rw [hout, List.mem_cons, hs.sent, h.states]
    split_ifs with hji
    · exact iff_of_true (.inl (congrArg Fin.val hji)) rfl
    · exact or_iff_right fun heq => hji (Fin.ext heq)
  · intro j hj
    rw [h.buffers]
    exact hs.fits j ((hanswered j).mp hj)
  · rw [hreleased, ← hs.released]
    apply Tally.congr
    intro j
    rw [Bool.eq_iff_iff, answered_iff, answered_iff, hanswered]
  · exact fun k hk => absurd hk (hscans k)
  · exact hsrv11

theorem ChannelInv.reply {cmdbuf : Cmdbuf} (hs : ChannelInv s)
    (hm : s.manager.ReplyEffect i s.sender.cmdbuf t.manager cmdbuf) (hfifo : t.fifo = s.fifo)
    (harm9 : t.arm9 = s.arm9) (hsemaphore : t.replySemaphore = s.replySemaphore)
    (hreceiver : t.receiver = s.receiver) (hheld : s.sender.pc.held = t.sender.pc.held + 1)
    (hscans : ∀ k, t.sender.pc ≠ .scanning k) (hsrv11 : t.srv11 = s.srv11) : ChannelInv t := by
  have hstates : ∀ j, t.state j = if j = i then .idle else s.state j := hm.states
  have hreceived : s.state i = .receivedFromArm9 := hm.received
  have hkept : ∀ j, t.state j = .receivedFromArm9 → s.state j = .receivedFromArm9 := by
    intro j hj
    rw [hstates] at hj
    split_ifs at hj
    exact hj
  constructor
  · exact hfifo ▸ hs.known
  · rw [PxiState.outstanding, hfifo, harm9]
    exact hs.nodup
  · intro j
    rw [PxiState.outstanding, hfifo, harm9, hstates]
    refine (hs.sent j).trans ?_
    split_ifs with hji
    · rw [hji, hreceived]
      exact iff_of_false nofun nofun
    · exact Iff.rfl
  · intro j hj
    rw [PxiState.buffer, hm.buffers]
    exact hs.fits j (hkept j hj)
  · have hexchange : tally t.answered + (s.answered i).toNat =
        tally s.answered + (t.answered i).toNat := by
      apply Tally.exchange
      intro j hj
      rw [PxiState.answered, PxiState.answered, hstates, if_neg hj]
    have hbefore : s.answered i = true := answered_iff.mpr hreceived
    have hafter : t.answered i = false := by
      rw [PxiState.answered, hstates, if_pos rfl]
      rfl
    rw [hbefore, hafter, hs.released, hheld, Bool.toNat_true, Bool.toNat_false] at hexchange
    rw [hsemaphore, hreceiver]
    omega
  · exact fun k hk => absurd hk (hscans k)
  · rw [hsrv11, hreceiver]
    exact hs.srv11

theorem ChannelInv.receive {reply : Cmdbuf} {fifo : List (ℕ × Cmdbuf)} (hs : ChannelInv s)
    (h : ReceiveEffect s i reply t) (hpc : s.receiver = .idle)
    (hfifo : s.fifo = (i.val, reply) :: fifo) (hfifo' : t.fifo = fifo)
    (harm9 : t.arm9 = s.arm9) (hsemaphore : t.replySemaphore = s.replySemaphore)
    (hreceiver : t.receiver = .received i) (hsrv11 : t.srv11 = s.srv11) : ChannelInv t := by
  have hnine : i.val ≠ 9 := i.isLt.ne
  have hbefore : s.outstanding =
      s.arm9.map Fin.val ++ i.val :: (fifo.map Prod.fst).filter (· ≠ 9) := by
    rw [PxiState.outstanding, hfifo, List.map_cons, filter_service]
  have hafter : t.outstanding = s.arm9.map Fin.val ++ (fifo.map Prod.fst).filter (· ≠ 9) := by
    rw [PxiState.outstanding, hfifo', harm9]
  have hnodup := List.nodup_cons.mp (List.nodup_middle.mp (hbefore ▸ hs.nodup))
  rw [← hafter] at hnodup
  have hmem : ∀ x, x ∈ s.outstanding ↔ x = i.val ∨ x ∈ t.outstanding := by
    intro x
    rw [hbefore, hafter, List.perm_middle.mem_iff, List.mem_cons]
  constructor
  · intro message hmessage
    rw [hfifo'] at hmessage
    exact hs.known message (hfifo ▸ List.mem_cons_of_mem _ hmessage)
  · exact hnodup.2
  · intro j
    have hj := hs.sent j
    rw [hmem] at hj
    rw [h.states]
    split_ifs with hji
    · rw [hji]
      exact iff_of_false hnodup.1 nofun
    · exact ((or_iff_right fun heq => hji (Fin.ext heq)).symm).trans hj
  · intro j hj
    rw [h.buffers]
    split_ifs with hji
    · rw [memcpy_head]
      exact h.fits
    · rw [h.states, if_neg hji] at hj
      exact hs.fits j hj
  · have hexchange : tally t.answered + (s.answered i).toNat =
        tally s.answered + (t.answered i).toNat := by
      apply Tally.exchange
      intro j hj
      rw [PxiState.answered, PxiState.answered, h.states, if_neg hj]
    have hwas : s.answered i = false := by
      rw [PxiState.answered, h.sent]
      rfl
    have his : t.answered i = true := answered_iff.mpr ((h.states i).trans (if_pos rfl))
    rw [hwas, his, hs.released, hpc, Bool.toNat_true, Bool.toNat_false] at hexchange
    rw [hsemaphore, hreceiver, h.sender, ReceiverPc.held, if_neg hnine]
    simp only [ReceiverPc.held] at hexchange
    omega
  · intro k hk
    rw [h.sender] at hk
    obtain ⟨j, hkj, hj⟩ := hs.scans k hk
    refine ⟨j, hkj, ?_⟩
    rw [h.states]
    split_ifs
    · rfl
    · exact hj
  · have hfits := hs.srv11
    rw [hpc] at hfits
    rw [hsrv11, hreceiver, Srv11.Fits, if_neg hnine]
    exact hfits

theorem ChannelInv.moveMessages (hs : ChannelInv s)
    (hperm : t.outstanding.Perm s.outstanding)
    (hknown : ∀ message ∈ t.fifo, message.1 ≤ 9 ∧ nbWords (message.2 0) ≤ 0x40)
    (hmanager : t.manager = s.manager) (hsemaphore : t.replySemaphore = s.replySemaphore)
    (hsender : t.sender = s.sender) (hheld : t.receiver.held = s.receiver.held)
    (hsrv11 : t.srv11.Fits t.receiver) : ChannelInv t := by
  have hstate : ∀ j, t.state j = s.state j := by
    intro j
    rw [PxiState.state, hmanager]
    rfl
  constructor
  · exact hknown
  · exact hperm.nodup_iff.mpr hs.nodup
  · intro j
    rw [hperm.mem_iff, hstate]
    exact hs.sent j
  · intro j hj
    rw [PxiState.buffer, hmanager]
    exact hs.fits j ((hstate j).symm.trans hj)
  · rw [hsemaphore, hsender, hheld, ← hs.released]
    apply Tally.congr
    intro j
    rw [PxiState.answered, PxiState.answered, hstate]
  · intro k hk
    rw [hsender] at hk
    obtain ⟨j, hkj, hj⟩ := hs.scans k hk
    exact ⟨j, hkj, (hstate j).trans hj⟩
  · exact hsrv11

theorem handlerStep_cases {published : Word} {srv11 : Srv11}
    (h : s.handlerStep published = some (.ok { s with srv11 := srv11 })) :
    (s.srv11.started = false ∧
        srv11 = { s.srv11 with started := true, state := .sentToArm9, replySent := true }) ∨
      (s.srv11.commandReceived = true ∧ ∃ buffer, srv11 = { s.srv11 with
        commandReceived := false, state := .sentToArm9, buffer := buffer, replySent := true }) := by
  have hsrv11 : ∀ {v w : Srv11}, some (Except.ok (ε := PxiThread) { s with srv11 := v }) =
      some (Except.ok { s with srv11 := w }) → w = v := by
    intro v w heq
    have hstates := Except.ok.inj (Option.some.inj heq)
    exact (congrArg PxiState.srv11 hstates).symm
  unfold PxiState.handlerStep at h
  simp only at h
  split_ifs at h with hstart hreceived hstate hpublished hcommand
  · exact .inl ⟨hstart, hsrv11 h⟩
  all_goals
    first
    | exact .inr ⟨Bool.eq_true_of_not_eq_false hreceived, _, hsrv11 h⟩
    | cases h

theorem Srv11.Fits.handled {v w : Srv11} {pc : ReceiverPc} (h : v.Fits pc)
    (hw : (v.started = false ∧
        w = { v with started := true, state := .sentToArm9, replySent := true }) ∨
      (v.commandReceived = true ∧ ∃ buffer, w = { v with
        commandReceived := false, state := .sentToArm9, buffer := buffer, replySent := true })) :
    w.Fits pc := by
  rcases hw with ⟨hstart, rfl⟩ | ⟨hcommand, buffer, rfl⟩
  · cases pc with
    | begin => exact ⟨rfl, h.2.1, rfl⟩
    | idle => exact absurd (hstart.symm.trans h.1) nofun
    | received serviceId => exact absurd (hstart.symm.trans h.1) nofun
    | awaitingReplySent => exact absurd (hstart.symm.trans h.1) nofun
  · cases pc with
    | begin => exact absurd (hcommand.symm.trans h.2.1) nofun
    | idle => exact absurd (hcommand.symm.trans h.2.2.1) nofun
    | received serviceId => exact absurd (hcommand.symm.trans h.2.2.1) nofun
    | awaitingReplySent => exact ⟨h.1, rfl, rfl⟩

theorem replying_channel {sessionId : Option Service} {b : Bool} :
    (s.replying sessionId b).fifo = s.fifo ∧ (s.replying sessionId b).arm9 = s.arm9 ∧
      (s.replying sessionId b).replySemaphore = s.replySemaphore ∧
      (s.replying sessionId b).receiver = s.receiver ∧
      (s.replying sessionId b).srv11 = s.srv11 ∧
      (s.replying sessionId b).sender.pc.held = 0 ∧
      ∀ k, (s.replying sessionId b).sender.pc ≠ .scanning k := by
  unfold PxiState.replying
  split
  · split_ifs
    · exact ⟨rfl, rfl, rfl, rfl, rfl, rfl, fun _ => nofun⟩
    · exact ⟨rfl, rfl, rfl, rfl, rfl, rfl, fun _ => nofun⟩
  · exact ⟨rfl, rfl, rfl, rfl, rfl, rfl, fun _ => nofun⟩

theorem moves_channelInv (hs : ChannelInv s) (h : s.Moves event t) : ChannelInv t := by
  cases h with
  | begin hpc =>
    exact hs.sameStates rfl rfl (fun _ => rfl) (fun _ => rfl) (by rw [hpc]; rfl)
      (fun _ => SenderPc.noConfusion) hs.srv11
  | sent i hpc hsends =>
    exact hs.send (sent_effect hpc hsends) rfl rfl (by rw [hpc]; rfl)
      (fun _ => SenderPc.noConfusion) hs.srv11
  | skipped i hpc =>
    exact hs.sameStates rfl rfl (fun _ => rfl) (fun _ => rfl) (by rw [hpc]; rfl)
      (fun _ => SenderPc.noConfusion) hs.srv11
  | sentAll hpc =>
    exact hs.sameStates rfl rfl (fun _ => rfl) (fun _ => rfl) (by rw [hpc]; rfl)
      (fun _ => SenderPc.noConfusion) hs.srv11
  | replied hpc =>
    obtain ⟨hmanager, -⟩ := replying_same
    obtain ⟨hfifo, harm9, hsemaphore, hreceiver, hsrv11, hheld, hscans⟩ := replying_channel
    refine hs.sameStates hfifo harm9 ?_ ?_ ?_ (fun k hk => absurd hk (hscans k)) ?_
    · intro i
      rw [PxiState.state, hmanager]
      rfl
    · intro i
      rw [PxiState.buffer, hmanager]
      rfl
    · rw [hsemaphore, hreceiver, hheld, hpc]
      rfl
    · rw [hsrv11, hreceiver]
      exact hs.srv11
  | closed i hpc hi =>
    exact hs.sameStates rfl rfl (state_setHandle i none) (buffer_setHandle i none)
      (by rw [hpc]; rfl) (fun _ => SenderPc.noConfusion) hs.srv11
  | woken hpc =>
    exact hs.sameStates rfl rfl (fun _ => rfl) (fun _ => rfl) (by rw [hpc]; rfl)
      (fun _ => SenderPc.noConfusion) hs.srv11
  | scans hpc =>
    refine hs.sameStates rfl rfl (fun _ => rfl) (fun _ => rfl) (by rw [hpc]; rfl) ?_ hs.srv11
    intro k hk
    cases hk
    -- The sender has been told of a reply, so some session has one.
    have hpos : 0 < tally s.answered := by
      rw [hs.released, hpc]
      exact Nat.succ_pos _
    obtain ⟨j, hj⟩ := Tally.pos_iff.mp hpos
    exact ⟨j, Nat.zero_le _, answered_iff.mp hj⟩
  | command i m hpc hm =>
    have heffect := SessionManager.commandReceived_effect hm
    have hbusy : s.state i = .idle := heffect.idle
    refine hs.frame rfl rfl ?_ ?_ ?_ (by rw [hpc]; rfl) (fun _ => SenderPc.noConfusion) hs.srv11
    · intro j
      refine (heffect.states j).congr_left.trans ?_
      split_ifs with hji
      · rw [hji, hbusy]
        exact iff_of_false not_false SessionState.noConfusion
      · exact Iff.rfl
    · intro j
      refine (heffect.states j).congr_left.trans ?_
      split_ifs with hji
      · rw [hji, hbusy]
        exact iff_of_false not_false SessionState.noConfusion
      · exact Iff.rfl
    · intro j hj
      have hji : j ≠ i := by
        rintro rfl
        cases hj.symm.trans hbusy
      exact (heffect.buffers j).trans (if_neg hji)
  | scanned k hpc hk =>
    refine hs.sameStates rfl rfl (fun _ => rfl) (fun _ => rfl) (by rw [hpc]; rfl) ?_ hs.srv11
    intro k' hk'
    cases hk'
    obtain ⟨j, hkj, hj⟩ := hs.scans k hpc
    have hne : (k : ℕ) ≠ j := by
      intro heq
      obtain rfl : k = j := Fin.ext heq
      exact hk hj
    exact ⟨j, lt_of_le_of_ne hkj hne, hj⟩
  | found k hpc =>
    exact hs.sameStates rfl rfl (fun _ => rfl) (fun _ => rfl) (by rw [hpc]; rfl)
      (fun _ => SenderPc.noConfusion) hs.srv11
  | reply i m cmdbuf hpc hm =>
    have hnext : ∀ c : Prop, [Decidable c] →
        (if c then SenderPc.sending 0 else .replying (some i)).held = 0 ∧
          ∀ k, (if c then SenderPc.sending 0 else .replying (some i)) ≠ .scanning k := by
      intro c _
      split_ifs <;> exact ⟨rfl, fun _ => SenderPc.noConfusion⟩
    exact hs.reply (SessionManager.replyReceived_effect hm) rfl rfl rfl rfl
      (by rw [hpc, (hnext _).1]; rfl) (hnext _).2 rfl
  | wakeClosed i hpc =>
    exact hs.sameStates rfl rfl (fun _ => rfl) (fun _ => rfl) (by rw [hpc]; rfl)
      (fun _ => SenderPc.noConfusion) hs.srv11
  | wakeSendAll hpc =>
    exact hs.sameStates rfl rfl (fun _ => rfl) (fun _ => rfl) (by rw [hpc]; rfl)
      (fun _ => SenderPc.noConfusion) hs.srv11
  | wakeReply hpc hcount =>
    refine hs.sameStates rfl rfl (fun _ => rfl) (fun _ => rfl) ?_
      (fun _ => SenderPc.noConfusion) hs.srv11
    rw [hpc]
    have hpos := Nat.pos_of_ne_zero hcount
    show s.replySemaphore - 1 + s.receiver.held + 1 = s.replySemaphore + s.receiver.held + 0
    omega
  | wakeCommand i cmdbuf hpc =>
    exact hs.sameStates rfl rfl (fun _ => rfl) (fun _ => rfl) (by rw [hpc]; rfl)
      (fun _ => SenderPc.noConfusion) hs.srv11
  | receiverStarts hpc hsent =>
    have hfits := hs.srv11
    rw [hpc] at hfits
    obtain ⟨hstate, hcommand, hstarted⟩ := hfits
    rw [hsent] at hstarted
    rw [← hstarted, if_pos rfl] at hstate
    exact hs.sameStates rfl rfl (fun _ => rfl) (fun _ => rfl) (by rw [hpc]; rfl) hs.scans
      ⟨hstarted.symm, hstate, hcommand, rfl⟩
  | received i hpc hfifo hstate hsize =>
    exact hs.receive (received_effect _ hstate hsize) hpc hfifo rfl rfl rfl rfl rfl
  | receivedSrv11 hpc hfifo hstate hsize =>
    have hfits := hs.srv11
    rw [hpc] at hfits
    have hfits' : Srv11.Fits { s.srv11 with state := .receivedFromArm9 } (.received 9) :=
      ⟨hfits.1, rfl, hfits.2.2.1, hfits.2.2.2⟩
    refine hs.moveMessages ?_ ?_ rfl rfl rfl (by rw [hpc]; rfl) hfits'
    · rw [PxiState.outstanding, PxiState.outstanding, hfifo]
      exact List.Perm.refl _
    · intro message hmessage
      exact hs.known message (hfifo ▸ List.mem_cons_of_mem _ hmessage)
  | signalled hpc =>
    have hfits := hs.srv11
    rw [hpc] at hfits
    exact hs.sameStates rfl rfl (fun _ => rfl) (fun _ => rfl) (by rw [hpc]; rfl) hs.scans
      ⟨hfits.1, hfits.2.1, hfits.2.2.2⟩
  | released hpc hid hcount =>
    have hfits := hs.srv11
    rw [hpc, Srv11.Fits, if_neg hid] at hfits
    refine hs.sameStates rfl rfl (fun _ => rfl) (fun _ => rfl) ?_ hs.scans hfits
    rw [hpc]
    show s.replySemaphore + 1 + 0 + s.sender.pc.held = _
    rw [ReceiverPc.held, if_neg hid]
  | resumed hpc hsent hstate =>
    have hfits := hs.srv11
    rw [hpc] at hfits
    obtain ⟨hstarted, -, hreply⟩ := hfits
    have hcommand : s.srv11.commandReceived = false := by
      rw [hsent] at hreply
      exact (Bool.not_eq_true' _).mp hreply.symm
    exact hs.sameStates rfl rfl (fun _ => rfl) (fun _ => rfl) (by rw [hpc]; rfl) hs.scans
      ⟨hstarted, hstate, hcommand, rfl⟩
  | handler h =>
    exact hs.sameStates rfl rfl (fun _ => rfl) (fun _ => rfl) rfl hs.scans
      (hs.srv11.handled (handlerStep_cases h))
  | accept i hfree hhandle =>
    exact hs.sameStates rfl rfl (state_setHandle i (some s.accepted))
      (buffer_setHandle i (some s.accepted)) rfl hs.scans hs.srv11
  | arm9Answers i reply hi =>
    refine hs.moveMessages ?_ ?_ rfl rfl rfl rfl hs.srv11
    · have herase : (s.arm9.map Fin.val).Perm (i.val :: (s.arm9.erase i).map Fin.val) :=
        (List.perm_cons_erase hi).map Fin.val
      have hlast : ((s.fifo ++ [(i.val, reply.1)]).map Prod.fst).filter (· ≠ 9) =
          (s.fifo.map Prod.fst).filter (· ≠ 9) ++ [i.val] := by
        rw [List.map_append, List.filter_append]
        exact congrArg _ (filter_service i [])
      rw [PxiState.outstanding, PxiState.outstanding, hlast, ← List.append_assoc]
      exact (List.perm_append_singleton _ _).trans (herase.symm.append_right _)
    · intro message hmessage
      rcases List.mem_append.mp hmessage with hold | hnew
      · exact hs.known message hold
      · rw [List.mem_singleton.mp hnew]
        exact ⟨i.isLt.le, reply.2⟩
  | arm9Requests request =>
    refine hs.moveMessages ?_ ?_ rfl rfl rfl rfl hs.srv11
    · rw [PxiState.outstanding, PxiState.outstanding, List.map_append, List.filter_append]
      exact List.Perm.of_eq (congrArg _ (List.append_nil _))
    · intro message hmessage
      rcases List.mem_append.mp hmessage with hold | hnew
      · exact hs.known message hold
      · rw [List.mem_singleton.mp hnew]
        exact ⟨le_refl 9, request.2⟩

end Channel

theorem boot_channelInv : ChannelInv .boot where
  known _ h := by cases h
  nodup := List.nodup_nil
  sent _ := iff_of_false List.not_mem_nil nofun
  fits _ h := by cases h
  released := Tally.eq_zero_iff.mpr fun _ => rfl
  scans _ h := by cases h
  srv11 := ⟨rfl, rfl, rfl⟩

end Presence3DS.Pxi
