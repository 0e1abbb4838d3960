import Presence3DS.Pxi.System

/-! What one step of the PXI module can be, and what it leaves alone. -/

namespace Presence3DS.Pxi
namespace PxiState

/-- The steps after which no thread has panicked. -/
inductive Moves (s : PxiState) : PxiEvent → PxiState → Prop
  | begin {b : Bool} (hpc : s.sender.pc = .begin) : Moves s (.sender b) s.begin
  | sent {b : Bool} (i : Service) (hpc : s.sender.pc = .sending i)
      (hsends : s.manager.sends i = true) :
      Moves s (.sender b) ((s.sendToArm9 i).goto (.sending (i + 1)))
  | skipped {b : Bool} (i : Service) (hpc : s.sender.pc = .sending i)
      (hsends : s.manager.sends i = false) : Moves s (.sender b) (s.goto (.sending (i + 1)))
  | sentAll {b : Bool} {i : ℕ} (hpc : s.sender.pc = .sending i) (hi : 9 ≤ i) :
      Moves s (.sender b) { s with sender := { s.sender with
        pc := .replying none
        cmdbuf := Function.update s.sender.cmdbuf 0 0xFFFF0000 } }
  | replied {b : Bool} {sessionId : Option Service} (hpc : s.sender.pc = .replying sessionId) :
      Moves s (.sender b) (s.replying sessionId b)
  | closed {b : Bool} {x : Option Service} (i : Service)
      (hpc : s.sender.pc = .returned (.closed x))
      (hi : x = some i ∨ x = none ∧ s.handle i = s.sender.replyTarget) :
      Moves s (.sender b) (s.closeSession i)
  | woken {b : Bool} (hpc : s.sender.pc = .returned .sendAllBuffersToArm9) :
      Moves s (.sender b) s.restart
  | scans {b : Bool} (hpc : s.sender.pc = .returned .reply) :
      Moves s (.sender b) (s.goto (.scanning 0))
  | command {b : Bool} (i : Service) (m : SessionManager)
      (hpc : s.sender.pc = .returned (.command i))
      (hm : s.manager.commandReceived i s.sender.cmdbuf = some m) :
      Moves s (.sender b) { s.setManager m with
        trail := s.trail.noteReceived i (s.handle i) (s.manager.staticBuffers.filledFor i)
          s.sender.cmdbuf }.restart
  | scanned {b : Bool} (k : Service) (hpc : s.sender.pc = .scanning k)
      (hk : s.state k ≠ .receivedFromArm9) : Moves s (.sender b) (s.goto (.scanning (k + 1)))
  | found {b : Bool} (k : Service) (hpc : s.sender.pc = .scanning k)
      (hk : s.state k = .receivedFromArm9) : Moves s (.sender b) (s.goto (.replyFound k))
  | reply {b : Bool} (i : Service) (m : SessionManager) (cmdbuf : Cmdbuf)
      (hpc : s.sender.pc = .replyFound i)
      (hm : s.manager.replyReceived i s.sender.cmdbuf = some (m, cmdbuf)) :
      Moves s (.sender b) { s.setManager m with sender :=
        { pc := if s.handle i = none then .sending 0 else .replying (some i)
          replyTarget := s.handle i
          cmdbuf := cmdbuf } }
  | wakeClosed {cmdbuf : Cmdbuf} {idle : List Service} (i : Service)
      (hpc : s.sender.pc = .waiting idle) (hi : i ∈ idle) :
      Moves s (.wake (.closed (some i)) cmdbuf) (s.goto (.returned (.closed (some i))))
  | wakeSendAll {cmdbuf : Cmdbuf} {idle : List Service} (hpc : s.sender.pc = .waiting idle)
      (hevent : s.sendAllBuffersToArm9Event = true) :
      Moves s (.wake .sendAllBuffersToArm9 cmdbuf)
        ({ s with sendAllBuffersToArm9Event := false }.goto (.returned .sendAllBuffersToArm9))
  | wakeReply {cmdbuf : Cmdbuf} {idle : List Service} (hpc : s.sender.pc = .waiting idle)
      (hcount : s.replySemaphore ≠ 0) :
      Moves s (.wake .reply cmdbuf)
        ({ s with replySemaphore := s.replySemaphore - 1 }.goto (.returned .reply))
  | wakeCommand {idle : List Service} (i : Service) (cmdbuf : Cmdbuf)
      (hpc : s.sender.pc = .waiting idle) (hi : i ∈ idle) :
      Moves s (.wake (.command i) cmdbuf)
        { s with sender := { s.sender with pc := .returned (.command i), cmdbuf := cmdbuf } }
  | receiverStarts (hpc : s.receiver = .begin) (hsent : s.srv11.replySent = true) :
      Moves s .receiver
        { s with srv11 := { s.srv11 with replySent := false }, receiver := .idle }
  | received (i : Service) {reply : Cmdbuf} {fifo : List (ℕ × Cmdbuf)} (hpc : s.receiver = .idle)
      (hfifo : s.fifo = (i.val, reply) :: fifo) (hstate : s.state i = .sentToArm9)
      (hsize : nbWords (reply 0) ≤ 0x40) :
      Moves s .receiver { s.setManager (s.manager.setSession i { s.manager.sessionData i with
          buffer := memcpy (s.buffer i) reply (nbWords (reply 0))
          state := .receivedFromArm9 }) with
        fifo := fifo
        receiver := .received i }
  | receivedSrv11 {reply : Cmdbuf} {fifo : List (ℕ × Cmdbuf)} (hpc : s.receiver = .idle)
      (hfifo : s.fifo = (9, reply) :: fifo) (hstate : s.srv11.state = .sentToArm9)
      (hsize : nbWords (reply 0) ≤ 0x40) :
      Moves s .receiver { s with
        fifo := fifo
        srv11 := { s.srv11 with
          buffer := memcpy s.srv11.buffer reply (nbWords (reply 0))
          state := .receivedFromArm9 }
        receiver := .received 9 }
  | signalled (hpc : s.receiver = .received 9) :
      Moves s .receiver { s with
        srv11 := { s.srv11 with commandReceived := true }, receiver := .awaitingReplySent }
  | released {serviceId : ℕ} (hpc : s.receiver = .received serviceId) (hid : serviceId ≠ 9)
      (hcount : s.replySemaphore < 9) :
      Moves s .receiver { s with replySemaphore := s.replySemaphore + 1, receiver := .idle }
  | resumed (hpc : s.receiver = .awaitingReplySent) (hsent : s.srv11.replySent = true)
      (hstate : s.srv11.state = .sentToArm9) :
      Moves s .receiver { s with srv11 := { s.srv11 with replySent := false }, receiver := .idle }
  | handler {published : Word} {srv11 : Srv11}
      (h : s.handlerStep published = some (.ok { s with srv11 := srv11 })) :
      Moves s (.handler published) { s with srv11 := srv11 }
  | accept (i : Service) (hfree : s.lockIsFree = true) (hhandle : s.handle i = none) :
      Moves s (.accept i) { s.setManager (s.manager.setSession i
          { s.manager.sessionData i with handle := some s.accepted }) with
        accepted := s.accepted + 1
        sendAllBuffersToArm9Event := true }
  | arm9Answers (i : Service) (reply : Arm9Message) (hi : i ∈ s.arm9) :
      Moves s (.arm9Answers i reply) { s with
        arm9 := s.arm9.erase i
        fifo := s.fifo ++ [(i.val, reply.1)]
        trail := s.trail.noteAnswered i reply.1 }
  | arm9Requests (request : Arm9Message) :
      Moves s (.arm9Requests request) { s with fifo := s.fifo ++ [(9, request.1)] }

variable {s t : PxiState} {event : PxiEvent}

theorem ok_of_orPanic {thread : PxiThread} {next : Option PxiState}
    (h : some (orPanic thread next) = some (.ok t)) : next = some t := by
  cases next with
  | none => cases h
  | some u =>
    cases h
    rfl

theorem senderStep_moves {b : Bool} (h : s.senderStep b = some (.ok t)) : Moves s (.sender b) t := by
  unfold senderStep at h
  cases hpc : s.sender.pc <;> simp only [hpc] at h
  case begin =>
    cases h
    exact .begin hpc
  case sending i =>
    cases h
    unfold sending
    split_ifs with hi hsends
    · exact .sent ⟨i, hi⟩ hpc hsends
    · exact .skipped ⟨i, hi⟩ hpc (Bool.eq_false_iff.mpr hsends)
    · exact .sentAll hpc (not_lt.mp hi)
  case replying sessionId =>
    cases h
    exact .replied hpc
  case waiting => cases h
  case returned index =>
    have hnext := ok_of_orPanic h
    cases index with
    | closed x =>
      cases x with
      | none =>
        obtain ⟨i, hfind, rfl⟩ := Option.map_eq_some_iff.mp hnext
        have hi := List.find?_some hfind
        exact .closed i hpc (.inr ⟨rfl, of_decide_eq_true hi⟩)
      | some i =>
        cases hnext
        exact .closed i hpc (.inl rfl)
    | sendAllBuffersToArm9 =>
      cases hnext
      exact .woken hpc
    | reply =>
      cases hnext
      exact .scans hpc
    | command i =>
      obtain ⟨m, hm, rfl⟩ := Option.map_eq_some_iff.mp hnext
      exact .command i m hpc hm
  case scanning k =>
    have hnext := ok_of_orPanic h
    unfold scanning at hnext
    split_ifs at hnext with hk hfound
    · cases hnext
      exact .found ⟨k, hk⟩ hpc hfound
    · cases hnext
      exact .scanned ⟨k, hk⟩ hpc hfound
  case replyFound i =>
    obtain ⟨⟨m, cmdbuf⟩, hm, rfl⟩ := Option.map_eq_some_iff.mp (ok_of_orPanic h)
    exact .reply i m cmdbuf hpc hm

theorem wake_moves {index : Returned} {cmdbuf : Cmdbuf} (h : s.wake index cmdbuf = some t) :
    Moves s (.wake index cmdbuf) t := by
  unfold wake at h
  split at h
  case h_1 idle i hpc =>
    split_ifs at h with hi
    cases h
    exact .wakeClosed i hpc hi
  case h_2 idle hpc =>
    split_ifs at h with hevent
    cases h
    exact .wakeSendAll hpc hevent
  case h_3 idle hpc =>
    split_ifs at h with hcount
    cases h
    exact .wakeReply hpc hcount
  case h_4 idle i hpc =>
    split_ifs at h with hi
    cases h
    exact .wakeCommand i cmdbuf hpc hi
  case h_5 => cases h

theorem receive_moves {serviceId : ℕ} {reply : Cmdbuf} {fifo : List (ℕ × Cmdbuf)}
    (hpc : s.receiver = .idle) (hfifo : s.fifo = (serviceId, reply) :: fifo)
    (h : { s with fifo := fifo }.receive serviceId reply = some t) : Moves s .receiver t := by
  unfold receive at h
  simp only at h
  split_ifs at h with hlt htest htest
  · obtain ⟨hstate, hsize⟩ := not_or.mp htest
    cases h
    exact .received ⟨serviceId, hlt⟩ hpc hfifo (not_not.mp hstate) (not_lt.mp hsize)
  · obtain ⟨hid, htest⟩ := not_or.mp htest
    obtain ⟨hstate, hsize⟩ := not_or.mp htest
    have hnine : serviceId = 9 := not_not.mp hid
    subst hnine
    cases h
    exact .receivedSrv11 hpc hfifo (not_not.mp hstate) (not_lt.mp hsize)

theorem receiverStep_moves (h : s.receiverStep = some (.ok t)) : Moves s .receiver t := by
  unfold receiverStep at h
  cases hpc : s.receiver <;> simp only [hpc] at h
  case begin =>
    split_ifs at h with hsent
    cases h
    exact .receiverStarts hpc hsent
  case idle =>
    cases hfifo : s.fifo with
    | nil =>
      rw [hfifo] at h
      cases h
    | cons head fifo =>
      rw [hfifo] at h
      exact receive_moves hpc hfifo (ok_of_orPanic h)
  case received serviceId =>
    split_ifs at h with hid hcount
    · subst hid
      cases h
      exact .signalled hpc
    · cases h
    · cases h
      exact .released hpc hid (not_le.mp hcount)
  case awaitingReplySent =>
    split_ifs at h with hsent hstate
    · cases h
    · cases h
      exact .resumed hpc (Bool.eq_true_of_not_eq_false hsent) (not_not.mp hstate)

theorem handlerStep_srv11 {published : Word} (h : s.handlerStep published = some (.ok t)) :
    ∃ srv11, t = { s with srv11 := srv11 } := by
  unfold handlerStep at h
  simp only at h
  split_ifs at h <;> cases h
  all_goals exact ⟨_, rfl⟩

theorem step_moves (h : s.step event = some (.ok t)) : Moves s event t := by
  cases event with
  | sender b => exact senderStep_moves h
  | wake index cmdbuf =>
    obtain ⟨u, hu, heq⟩ := Option.map_eq_some_iff.mp h
    cases heq
    exact wake_moves hu
  | receiver => exact receiverStep_moves h
  | handler published =>
    obtain ⟨srv11, rfl⟩ := handlerStep_srv11 h
    exact .handler h
  | accept i =>
    simp only [step, accept] at h
    split_ifs at h with hfree hhandle <;> cases h
    exact .accept i (Bool.eq_true_of_not_eq_false hfree) (not_not.mp hhandle)
  | arm9Answers i reply =>
    obtain ⟨u, hu, heq⟩ := Option.map_eq_some_iff.mp h
    cases heq
    unfold arm9Answers at hu
    split_ifs at hu with hi
    cases hu
    exact .arm9Answers i reply hi
  | arm9Requests request =>
    cases h
    exact .arm9Requests request

end PxiState
end Presence3DS.Pxi
