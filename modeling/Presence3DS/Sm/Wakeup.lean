import Presence3DS.Lib.Runs
import Presence3DS.Sm.Handled

/-! Parked requests: a session that waits for a name is woken by its registration, and its
request is replayed as it was sent. -/

namespace Presence3DS.Sm
open CString Kernel Runs NodeLists

/-- The name stops with a NUL after its declared size, or takes all eight bytes. -/
def NameEnds (c : ReplayBuf) : Prop := c.nameSize = 8 ∨ c.name.1.getD c.nameSize.toNat 0 = 0

/-- The request is for a service or port of this kind and name. -/
def WaitsFor (c : ReplayBuf) (isNamedPort : Bool) (name : Bytes) : Prop :=
  c.command = (if isNamedPort then 8 else 5) ∧ truncated c.name c.nameSize = name

/-- The words that a request for a service or a port is made of. -/
def CmdBuf.SameRequest (c c' : CmdBuf) : Prop := c.toReplayBuf = c'.toReplayBuf ∧ c.w4 = c'.w4

def SessionList.parked : SessionList → Bool
  | .inUse | .free => false
  | _ => true

/-- The request of the session is handled again as it was sent, with the table as it is. -/
def Replays (v : KernelVersion) (s : SmState) (e : Answers) (j : SessionId) (t : SmState) : Prop :=
  ∃ u, u.session j = s.session j ∧ u.servicesInfo = s.servicesInfo ∧
    u.cmdbuf.SameRequest (s.sent j) ∧ handleCommand v e u j = some t

/-- No step loses a wakeup: a waiting session waits until it is queued, which a registration of
its name does, and the queue is replayed in order. -/
structure WakeLaw (v : KernelVersion) (s : SmState) (event : SmEvent) (t : SmState) : Prop where
  waits : ∀ j, s.place j = .waitingForServiceOrPortRegister →
    t.place j = .waitingForServiceOrPortRegister ∨ t.place j = .toWakeUpAfterServiceOrPortRegister
  registered : s.servicesInfo.length < t.servicesInfo.length →
    ∃ i message e info, event = .request i message e ∧
      t.servicesInfo = s.servicesInfo ++ [info] ∧ info.name = storedName message.name ∧
      message.command = (if info.isNamedPort then 6 else 3) ∧
      ∀ j, s.place j = .waitingForServiceOrPortRegister →
        WaitsFor (s.sent j).toReplayBuf info.isNamedPort
          (truncated message.name message.nameSize) →
        t.place j = .toWakeUpAfterServiceOrPortRegister
  queued : (∀ e, event ≠ .resume e) → s.toWakeUp <+: t.toWakeUp
  resumed : ∀ e, event = .resume e →
    ∃ j rest, s.toWakeUp = j :: rest ∧ rest <+: t.toWakeUp ∧ Replays v s e j t
  counted : t.semaphore = t.toWakeUp.length

/-- A request for a name ends it, no port closes that a session waits for, and the fifth word in
the buffer, which is not saved, is that of the request to go on with. -/
def WakeInScope (s : SmState) : SmEvent → Prop
  | .request _ message _ => AsksFor message.toReplayBuf → NameEnds message.toReplayBuf
  | .portClosed port =>
    ∀ i, s.place i = .waitingPortReady → (s.session i).busyClientPortHandle ≠ port
  | .resume _ => ∀ j rest, s.toWakeUp = j :: rest → s.cmdbuf.w4 = (s.sent j).w4
  | _ => True

/-- What is saved for a parked session is the request it sent. -/
structure ParkedInv (s : SmState) : Prop where
  counted : s.semaphore = s.toWakeUp.length
  saved : ∀ i, (s.place i).parked = true →
    (s.session i).replayCmdbuf = (s.sent i).toReplayBuf ∧
      AsksFor (s.sent i).toReplayBuf ∧ NameEnds (s.sent i).toReplayBuf

/-! ## Names -/

theorem and_shiftLeft (w c : BitVec 32) (n : Nat) :
    w &&& (c <<< n) = ((w >>> n) &&& c) <<< n := by
  apply BitVec.eq_of_getLsbD_eq
  intro k hk
  rw [BitVec.getLsbD_and, BitVec.getLsbD_shiftLeft, BitVec.getLsbD_shiftLeft, BitVec.getLsbD_and,
    BitVec.getLsbD_ushiftRight]
  by_cases hn : k < n
  · simp [hn]
  · rw [Nat.add_sub_cancel' (Nat.le_of_not_lt hn), Bool.and_left_comm]

theorem header_of_command {c : ReplayBuf} {n : Nat} (h : c.command = n) :
    c.w0 &&& (0xF0000 : BitVec 32) = (BitVec.ofNat 32 n &&& 0xF) <<< 16 := by
  rw [← h, ReplayBuf.command, BitVec.ofNat_toNat, BitVec.setWidth_eq]
  exact and_shiftLeft c.w0 0xF 16

theorem wakesUp_of_waitsFor {data : SessionData} {message : ReplayBuf} {isNamedPort : Bool}
    (hchecked : Checked data.replayCmdbuf.name data.replayCmdbuf.nameSize)
    (hends : NameEnds data.replayCmdbuf) (hname : Checked message.name message.nameSize)
    (hwaits : WaitsFor data.replayCmdbuf isNamedPort (truncated message.name message.nameSize)) :
    wakesUp message.name isNamedPort data = true := by
  obtain ⟨hcommand, htruncated⟩ := hwaits
  have hsize : data.replayCmdbuf.nameSize = message.nameSize := by
    have hlen := congrArg List.length htruncated
    rw [hchecked.length_truncated, hname.length_truncated] at hlen
    have hpos := hchecked.pos
    have hpos' := hname.pos
    omega
  have hequal : areServiceNamesEqual data.replayCmdbuf.name message.name
      data.replayCmdbuf.nameSize = true := by
    rw [hsize, areServiceNamesEqual_iff hname, ← htruncated]
    exact (str_eq_truncated_iff hchecked).mpr hends
  have hheader := header_of_command hcommand
  unfold wakesUp
  rw [hequal, hheader, Bool.and_true, decide_eq_true_eq]
  cases isNamedPort <;> decide

/-! ## Moves between the lists -/

section Moves
variable {s t : SmState} {i : SessionId}

theorem place_move (s : SmState) (i : SessionId) (dst : SessionList) (back : Bool)
    (j : SessionId) : (s.move i dst back).place j = if j = i then dst else s.place j := by
  rw [SmState.place, SmState.move, parent_moveNode, Function.update_apply]

theorem toWakeUp_move {dst : SessionList} (back : Bool)
    (hsrc : s.place i ≠ .toWakeUpAfterServiceOrPortRegister)
    (hdst : dst ≠ .toWakeUpAfterServiceOrPortRegister) :
    (s.move i dst back).toWakeUp = s.toWakeUp := nodes_other s.lists hsrc (Ne.symm hdst) back

theorem ParkedInv.move {dst : SessionList} (back : Bool) (h : ParkedInv s)
    (hsrc : s.place i ≠ .toWakeUpAfterServiceOrPortRegister) (hdst : dst.parked = false) :
    ParkedInv (s.move i dst back) where
  counted := by
    rw [toWakeUp_move back hsrc (fun heq => by rw [heq] at hdst; cases hdst)]
    exact h.counted
  saved j hj := by
    rw [place_move] at hj
    split_ifs at hj
    · rw [hdst] at hj
      cases hj
    · exact h.saved j hj

/-- A session in use whose request is in the buffer. -/
structure Ready (s : SmState) (i : SessionId) : Prop where
  inv : ParkedInv s
  place : s.place i = .inUse
  request : s.cmdbuf.toReplayBuf = (s.sent i).toReplayBuf
  ends : AsksFor s.cmdbuf.toReplayBuf → NameEnds s.cmdbuf.toReplayBuf

theorem Handled.inv {res : SmResult} (h : Handled s i res t) (hs : ParkedInv s)
    (hplace : s.place i = .inUse) : ParkedInv t where
  counted := by
    have hcount := h.semaphore
    have hs := hs.counted
    omega
  saved j hj := by
    have hsource : (s.place j).parked = true := by
      rcases h.place j with hsame | ⟨hwait, -⟩
      · exact hsame ▸ hj
      · rw [hwait]
        rfl
    have hne : j ≠ i := by
      rintro rfl
      rw [hplace] at hsource
      cases hsource
    rw [h.others j hne, h.sent]
    exact hs.saved j hsource

theorem Handled.place_self {res : SmResult} (h : Handled s i res t) (hplace : s.place i = .inUse) :
    t.place i = .inUse := by
  rcases h.place i with hsame | ⟨hwait, -⟩
  · exact hsame.trans hplace
  · rw [hplace] at hwait
    cases hwait

theorem ParkedInv.park {dst : SessionList} (h : ParkedInv s) (hplace : s.place i = .inUse)
    (hdst : dst ≠ .toWakeUpAfterServiceOrPortRegister)
    (hsaved : (s.session i).replayCmdbuf = (s.sent i).toReplayBuf)
    (hasks : AsksFor (s.sent i).toReplayBuf) (hends : NameEnds (s.sent i).toReplayBuf) :
    ParkedInv (s.move i dst true) where
  counted := by
    rw [toWakeUp_move true (by rw [hplace]; decide) hdst]
    exact h.counted
  saved j hj := by
    by_cases hji : j = i
    · subst hji
      exact ⟨hsaved, hasks, hends⟩
    · rw [place_move, if_neg hji] at hj
      exact h.saved j hj

/-- What handling a request does to the waiting sessions. -/
structure Progress (s : SmState) (t : SmState) : Prop where
  inv : ParkedInv t
  waits : ∀ j, s.place j = .waitingForServiceOrPortRegister →
    t.place j = .waitingForServiceOrPortRegister ∨ t.place j = .toWakeUpAfterServiceOrPortRegister
  queue : s.toWakeUp <+: t.toWakeUp
  registered : s.servicesInfo.length < t.servicesInfo.length →
    ∃ info, t.servicesInfo = s.servicesInfo ++ [info] ∧ info.name = storedName s.cmdbuf.name ∧
      s.cmdbuf.command = (if info.isNamedPort then 6 else 3) ∧
      ∀ j, s.place j = .waitingForServiceOrPortRegister →
        WaitsFor (s.sent j).toReplayBuf info.isNamedPort
          (truncated s.cmdbuf.name s.cmdbuf.nameSize) →
        t.place j = .toWakeUpAfterServiceOrPortRegister

theorem Handled.progress {res : SmResult} (h : Handled s i res t) (hs : ParkedInv s)
    (hplace : s.place i = .inUse) : Progress s t where
  inv := h.inv hs hplace
  waits j hj := by
    rcases h.place j with hsame | ⟨-, hwoken⟩
    · exact .inl (hsame.trans hj)
    · exact .inr hwoken
  queue := h.queue
  registered hlen := by
    obtain ⟨isNamedPort, hcommand, hname, ⟨info, htable, hkind, hstored⟩, hwake⟩ :=
      h.registers hlen
    refine ⟨info, htable, hstored, hkind ▸ hcommand, ?_⟩
    intro j hj hwaits
    obtain ⟨hsaved, hasks, hends⟩ := hs.saved j (by rw [hj]; rfl)
    rw [← hsaved] at hwaits hends hasks
    rw [hkind] at hwaits
    exact hwake j hj (wakesUp_of_waitsFor hasks.2 hends hname hwaits)

theorem Progress.move {dst : SessionList} {u : SmState} (h : Progress s u)
    (hsrc : s.place i = .inUse) (hplace : u.place i = .inUse)
    (hdst : dst ≠ .toWakeUpAfterServiceOrPortRegister) (hinv : ParkedInv (u.move i dst true)) :
    Progress s (u.move i dst true) := by
  have hother : ∀ j, s.place j = .waitingForServiceOrPortRegister →
      (u.move i dst true).place j = u.place j := by
    intro j hj
    have hne : j ≠ i := by
      rintro rfl
      rw [hsrc] at hj
      cases hj
    rw [place_move, if_neg hne]
  exact {
    inv := hinv
    waits := by
      intro j hj
      rw [hother j hj]
      exact h.waits j hj
    queue := by
      rw [toWakeUp_move true (by rw [hplace]; decide) hdst]
      exact h.queue
    registered := by
      intro hlen
      obtain ⟨info, htable, hstored, hcommand, hwake⟩ := h.registered hlen
      refine ⟨info, htable, hstored, hcommand, ?_⟩
      intro j hj hwaits
      rw [hother j hj]
      exact hwake j hj hwaits }

theorem Ready.progress {v : KernelVersion} {e : Answers} (h : Ready s i)
    (hstep : handleCommand v e s i = some t) : Progress s t := by
  obtain ⟨res, u, hhandled, hpark⟩ := handleCommand_cases hstep
  have hprogress := hhandled.progress h.inv h.place
  have hplace := hhandled.place_self h.place
  rcases hpark with ⟨-, rfl⟩ | ⟨hblock, dst, hdst, rfl⟩
  · exact ⟨⟨hprogress.inv.counted, hprogress.inv.saved⟩, hprogress.waits, hprogress.queue,
      hprogress.registered⟩
  · obtain ⟨hsaved, hasks⟩ := hhandled.blocks hblock
    have hends := h.ends hasks
    have hother : dst ≠ .toWakeUpAfterServiceOrPortRegister := by
      rcases hdst with rfl | rfl <;> decide
    rw [h.request] at hsaved hasks hends
    rw [← hhandled.sent] at hsaved hasks hends
    exact hprogress.move h.place hplace hother
      (hprogress.inv.park hplace hother hsaved hasks hends)

end Moves

/-! ## The steps -/

section Steps
variable {v : KernelVersion} {s t : SmState} {i : SessionId} {e : Answers}

theorem WakeLaw.of_queue {event : SmEvent} (hresume : ∀ e, event ≠ .resume e) (ht : ParkedInv t)
    (hwaits : ∀ j, s.place j = .waitingForServiceOrPortRegister →
      t.place j = .waitingForServiceOrPortRegister)
    (hqueue : s.toWakeUp <+: t.toWakeUp) (htable : t.servicesInfo = s.servicesInfo) :
    WakeLaw v s event t where
  waits j hj := .inl (hwaits j hj)
  registered hlen := absurd hlen (by rw [htable]; exact Nat.lt_irrefl _)
  queued _ := hqueue
  resumed e he := absurd he (hresume e)
  counted := ht.counted

theorem request_wakes {message : CmdBuf} (hs : ParkedInv s)
    (hends : AsksFor message.toReplayBuf → NameEnds message.toReplayBuf)
    (h : receiveRequest v e s i message = some t) :
    ParkedInv t ∧ WakeLaw v s (.request i message e) t := by
  unfold receiveRequest at h
  split_ifs at h with hplace
  have hsent : ∀ j, s.place j ≠ .inUse → Function.update s.sent i message j = s.sent j := by
    intro j hj
    refine Function.update_of_ne ?_ _ _
    rintro rfl
    exact hj hplace
  have hready : Ready { s with cmdbuf := message, sent := Function.update s.sent i message } i := by
    refine ⟨⟨hs.counted, ?_⟩, hplace, ?_, hends⟩
    · intro j hj
      have hparked : (s.place j).parked = true := hj
      have hne : s.place j ≠ .inUse := by
        intro heq
        rw [heq] at hparked
        cases hparked
      simp only [hsent j hne]
      exact hs.saved j hparked
    · simp only [Function.update_self]
  have hprogress := hready.progress h
  refine ⟨hprogress.inv, hprogress.waits, ?_, fun _ => hprogress.queue, ?_,
    hprogress.inv.counted⟩
  · intro hlen
    obtain ⟨info, htable, hstored, hcommand, hwake⟩ := hprogress.registered hlen
    refine ⟨i, message, e, info, rfl, htable, hstored, hcommand, ?_⟩
    intro j hj hwaits
    refine hwake j hj ?_
    simp only [hsent j (by rw [hj]; decide)]
    exact hwaits
  · intro e' he
    cases he

theorem ready_of_replay {u : SmState} (hs : ParkedInv s) (hparked : (s.place i).parked = true)
    (hsession : ∀ j, j ≠ i → u.session j = s.session j) (hsent : u.sent = s.sent)
    (hplace : ∀ j, u.place j = if j = i then .inUse else s.place j)
    (hcount : u.semaphore = u.toWakeUp.length)
    (hbuf : u.cmdbuf.toReplayBuf = (s.session i).replayCmdbuf) :
    Ready u i ∧ AsksFor u.cmdbuf.toReplayBuf := by
  obtain ⟨hsaved, hasks, hends⟩ := hs.saved i hparked
  rw [hsaved] at hbuf
  refine ⟨⟨⟨hcount, ?_⟩, ?_, ?_, ?_⟩, ?_⟩
  · intro j hj
    rw [hplace] at hj
    split_ifs at hj with hji
    · cases hj
    · rw [hsession j hji, hsent]
      exact hs.saved j hj
  · rw [hplace, if_pos rfl]
  · rw [hbuf, hsent]
  · intro _
    rw [hbuf]
    exact hends
  · rw [hbuf]
    exact hasks

theorem replay_progress {u : SmState} (hready : Ready u i) (hasks : AsksFor u.cmdbuf.toReplayBuf)
    (h : handleCommand v e u i = some t) :
    Progress u t ∧ ¬u.servicesInfo.length < t.servicesInfo.length := by
  have hprogress := hready.progress h
  refine ⟨hprogress, ?_⟩
  intro hlen
  obtain ⟨info, -, -, hcommand, -⟩ := hprogress.registered hlen
  rcases hasks.1 with h5 | h8
  · rw [h5] at hcommand
    split_ifs at hcommand
    all_goals cases hcommand
  · rw [h8] at hcommand
    split_ifs at hcommand
    all_goals cases hcommand

theorem parked_of_place {l : SessionList} (h : s.place i = l) (hl : l.parked = true) :
    (s.place i).parked = true := h ▸ hl

theorem resume_wakes (hs : ParkedInv s)
    (hflags : ∀ j rest, s.toWakeUp = j :: rest → s.cmdbuf.w4 = (s.sent j).w4)
    (h : resumeSession v e s = some t) : ParkedInv t ∧ WakeLaw v s (.resume e) t := by
  unfold resumeSession at h
  split_ifs at h with hsemaphore
  cases hqueue : s.lists.nodes .toWakeUpAfterServiceOrPortRegister with
  | nil =>
    rw [hqueue] at h
    cases h
  | cons i rest =>
    rw [hqueue] at h
    simp only at h
    have hplace : s.place i = .toWakeUpAfterServiceOrPortRegister :=
      (s.lists.mem_nodes _ i).mp (hqueue ▸ List.mem_cons_self)
    have hparked : (s.place i).parked = true := parked_of_place hplace rfl
    generalize hu : (({ s with semaphore := s.semaphore - 1 }.move i .inUse false).loadReplay i) =
      u at h
    have hrest : u.toWakeUp = rest := by
      have hsrc := nodes_src s.lists hplace (by decide : _ ≠ SessionList.inUse) false
      rw [hqueue, List.erase_cons_head] at hsrc
      rw [← hu]
      exact hsrc
    have hcount : u.semaphore = u.toWakeUp.length := by
      have hsum : s.semaphore = rest.length + 1 := by
        rw [hs.counted, SmState.toWakeUp, hqueue, List.length_cons]
      rw [hrest, ← hu]
      exact Nat.sub_eq_of_eq_add hsum
    have hmoved : ∀ j, u.place j = if j = i then .inUse else s.place j := by
      intro j
      rw [← hu]
      exact place_move s i .inUse false j
    have hbuf : u.cmdbuf.toReplayBuf = (s.session i).replayCmdbuf := by rw [← hu]; rfl
    have hsession : u.session = s.session := by rw [← hu]; rfl
    have hsent : u.sent = s.sent := by rw [← hu]; rfl
    have htable : u.servicesInfo = s.servicesInfo := by rw [← hu]; rfl
    have hw4 : u.cmdbuf.w4 = (s.sent i).w4 := by
      rw [← hu]
      exact hflags i rest hqueue
    obtain ⟨hready, hasks⟩ := ready_of_replay hs hparked (fun j _ => congrFun hsession j) hsent
      hmoved hcount hbuf
    obtain ⟨hprogress, hnone⟩ := replay_progress hready hasks h
    have hsame : u.cmdbuf.SameRequest (s.sent i) := by
      refine ⟨?_, hw4⟩
      rw [hbuf]
      exact (hs.saved i hparked).1
    refine ⟨hprogress.inv, ?_, ?_, ?_, ?_, hprogress.inv.counted⟩
    · intro j hj
      have hne : j ≠ i := by
        rintro rfl
        rw [hplace] at hj
        cases hj
      refine hprogress.waits j ?_
      rw [hmoved, if_neg hne]
      exact hj
    · intro hlen
      rw [← htable] at hlen
      exact absurd hlen hnone
    · intro hother
      exact absurd rfl (hother e)
    · intro e' he
      cases he
      refine ⟨i, rest, hqueue, hrest ▸ hprogress.queue, u, congrFun hsession i, htable, hsame, h⟩

theorem portReady_wakes {port : Handle} (hs : ParkedInv s)
    (h : resumeOnPort v e s port = some t) : ParkedInv t ∧ WakeLaw v s (.portReady port e) t := by
  unfold resumeOnPort at h
  cases hfind : (s.lists.nodes .waitingPortReady).find?
      fun i => (s.session i).busyClientPortHandle = port with
  | none =>
    rw [hfind] at h
    cases h
    exact ⟨hs, .of_queue (fun _ => SmEvent.noConfusion) hs (fun _ hj => hj) List.prefix_rfl rfl⟩
  | some i =>
    rw [hfind] at h
    simp only at h
    have hplace : s.place i = .waitingPortReady :=
      (s.lists.mem_nodes _ i).mp (List.mem_of_find?_eq_some hfind)
    have hparked : (s.place i).parked = true := parked_of_place hplace rfl
    generalize hu : ((s.move i .inUse false).loadReplay i).setBusy i 0 = u at h
    have hqueue : u.toWakeUp = s.toWakeUp := by
      rw [← hu]
      exact toWakeUp_move false (by rw [hplace]; decide) (by decide)
    have hcount : u.semaphore = u.toWakeUp.length := by
      rw [hqueue, ← hs.counted, ← hu]
      rfl
    have hmoved : ∀ j, u.place j = if j = i then .inUse else s.place j := by
      intro j
      rw [← hu]
      exact place_move s i .inUse false j
    have hsession : ∀ j, j ≠ i → u.session j = s.session j := by
      intro j hj
      rw [← hu]
      exact Function.update_of_ne hj _ _
    have hbuf : u.cmdbuf.toReplayBuf = (s.session i).replayCmdbuf := by rw [← hu]; rfl
    have hsent : u.sent = s.sent := by rw [← hu]; rfl
    have htable : u.servicesInfo = s.servicesInfo := by rw [← hu]; rfl
    obtain ⟨hready, hasks⟩ := ready_of_replay hs hparked hsession hsent hmoved hcount hbuf
    obtain ⟨hprogress, hnone⟩ := replay_progress hready hasks h
    refine ⟨hprogress.inv, ?_, ?_, fun _ => hqueue ▸ hprogress.queue,
      fun _ => SmEvent.noConfusion, hprogress.inv.counted⟩
    · intro j hj
      have hne : j ≠ i := by
        rintro rfl
        rw [hplace] at hj
        cases hj
      refine hprogress.waits j ?_
      rw [hmoved, if_neg hne]
      exact hj
    · intro hlen
      rw [← htable] at hlen
      exact absurd hlen hnone

theorem closePort_wakes {port : Handle} (hs : ParkedInv s)
    (hopen : ∀ i, s.place i = .waitingPortReady → (s.session i).busyClientPortHandle ≠ port) :
    ParkedInv (closePort s port) ∧ WakeLaw v s (.portClosed port) (closePort s port) := by
  have hclosed : closePort s port = s := by
    have hnone : NodeLists.moveMatching
        (fun i => decide ((s.session i).busyClientPortHandle = port))
        .waitingForServiceOrPortRegister (s.lists.nodes .waitingPortReady) s.lists =
        (s.lists, 0) :=
      moveMatching_none s.lists _ fun i hi =>
        decide_eq_false (hopen i ((s.lists.mem_nodes _ i).mp hi))
    have hkeep : ∀ i, ¬(s.lists.parent i = .waitingPortReady ∧
        decide ((s.session i).busyClientPortHandle = port) = true) := by
      rintro i ⟨hplace, heq⟩
      exact hopen i hplace (of_decide_eq_true heq)
    unfold closePort
    simp only [hnone, if_neg (hkeep _)]
  rw [hclosed]
  exact ⟨hs, .of_queue (fun _ => SmEvent.noConfusion) hs (fun _ hj => hj) List.prefix_rfl rfl⟩

theorem sessionClosed_wakes (hs : ParkedInv s) (hplace : s.place i = .inUse) :
    ParkedInv (s.move i .free false) ∧ WakeLaw v s (.sessionClosed i) (s.move i .free false) := by
  have hsrc : s.place i ≠ .toWakeUpAfterServiceOrPortRegister := by
    rw [hplace]
    decide
  have hmove := hs.move false hsrc (by rfl : SessionList.free.parked = false)
  refine ⟨hmove, .of_queue (fun _ => SmEvent.noConfusion) hmove ?_ ?_ rfl⟩
  · intro j hj
    have hne : j ≠ i := by
      rintro rfl
      rw [hplace] at hj
      cases hj
    rw [place_move, if_neg hne]
    exact hj
  · exact queue_kept (toWakeUp_move false hsrc (by decide))

theorem newSession_wakes {isSrvPm : Bool} (hs : ParkedInv s)
    (h : acceptSession s isSrvPm = some t) : ParkedInv t ∧ WakeLaw v s (.newSession isSrvPm) t := by
  unfold acceptSession at h
  cases hfree : s.lists.nodes .free with
  | nil =>
    rw [hfree] at h
    cases h
  | cons i rest =>
    simp only [hfree] at h
    cases h
    have hplace : s.place i = .free :=
      (s.lists.mem_nodes _ i).mp (hfree ▸ List.mem_cons_self)
    have hsrc : s.place i ≠ .toWakeUpAfterServiceOrPortRegister := by
      rw [hplace]
      decide
    have hmove := hs.move false hsrc (by rfl : SessionList.inUse.parked = false)
    have hqueue : s.toWakeUp <+: (s.move i .inUse false).toWakeUp :=
      queue_kept (toWakeUp_move false hsrc (by decide))
    have hinv : ParkedInv ((s.move i .inUse false).setSession i ⟨-1, ⟨0, 0, 0, 0⟩, 0, isSrvPm⟩) := by
      refine ⟨hmove.counted, ?_⟩
      intro j hj
      have hparked : ((s.move i .inUse false).place j).parked = true := hj
      have hne : j ≠ i := by
        rintro rfl
        rw [place_move, if_pos rfl] at hparked
        cases hparked
      have hsame := hmove.saved j hparked
      simp only [SmState.setSession, Function.update_of_ne hne]
      exact hsame
    refine ⟨hinv, .of_queue (fun _ => SmEvent.noConfusion) hinv ?_ hqueue rfl⟩
    intro j hj
    have hne : j ≠ i := by
      rintro rfl
      rw [hplace] at hj
      cases hj
    refine (place_move s i .inUse false j).trans ?_
    rw [if_neg hne]
    exact hj

theorem smStep_wakes {event : SmEvent} (hs : ParkedInv s) (hscope : WakeInScope s event)
    (h : smStep v s event = some t) : ParkedInv t ∧ WakeLaw v s event t := by
  have hawait : ParkedInv (awaitEvent s) := ⟨hs.counted, hs.saved⟩
  -- Waiting for the event changes neither the lists nor what the law reads of the buffer.
  suffices hlaw : ParkedInv t ∧ WakeLaw v (awaitEvent s) event t by
    obtain ⟨ht, hlaw⟩ := hlaw
    exact ⟨ht, hlaw.waits, hlaw.registered, hlaw.queued, hlaw.resumed, hlaw.counted⟩
  cases event with
  | sessionClosed i =>
    simp only [smStep] at h
    split_ifs at h with hplace
    cases h
    exact sessionClosed_wakes hawait hplace
  | portClosed port =>
    cases h
    exact closePort_wakes hawait hscope
  | newSession isSrvPm => exact newSession_wakes hawait h
  | resume e =>
    refine resume_wakes hawait ?_ h
    intro j rest hqueue
    have hw4 : (awaitEvent s).cmdbuf.w4 = s.cmdbuf.w4 := by
      unfold awaitEvent
      split_ifs <;> rfl
    rw [hw4]
    exact hscope j rest hqueue
  | portReady port e => exact portReady_wakes hawait h
  | request i message e => exact request_wakes hawait hscope h

end Steps

/-! ## Runs -/

def freeSessions : NodeLists SessionList SessionId where
  parent _ := .free
  nodes l := if l = .free then List.finRange 76 else []
  mem_nodes l i := by
    by_cases hl : l = .free
    · simp [hl, List.mem_finRange]
    · simp [hl, Ne.symm hl]
  nodup l := by
    by_cases hl : l = .free
    · rw [if_pos hl]
      exact List.nodup_finRange 76
    · rw [if_neg hl]
      exact List.nodup_nil

/-- `"srv:pm"` -/
def srvPmName : NameWord := ⟨[0x73, 0x72, 0x76, 0x3A, 0x70, 0x6D, 0, 0], rfl⟩

/-- The state that `initSystem` and the start of `main` leave; `srv:pm` is a service where the
kernel has no port of this name. -/
def boot (v : KernelVersion) (smPid : BitVec 32) (srvPmPorts : Handle × Handle)
    (cmdbuf : CmdBuf) : SmState where
  servicesInfo :=
    if v.isPre7x then [] else (registerEntry [] (some srvPmPorts) smPid 0 srvPmName 6 false).2
  processes := []
  session _ := ⟨0, ⟨0, 0, 0, 0⟩, 0, false⟩
  lists := freeSessions
  semaphore := 0
  cmdbuf := cmdbuf
  replyTarget := none
  sent _ := ⟨⟨0, 0, 0, 0⟩, 0, 0⟩

theorem boot_inv (v : KernelVersion) (smPid : BitVec 32) (srvPmPorts : Handle × Handle)
    (cmdbuf : CmdBuf) : ParkedInv (boot v smPid srvPmPorts cmdbuf) where
  counted := rfl
  saved _ hi := by cases hi

/-- No wakeup is lost in a run whose requests end their names, where no port closes that a session
waits for, and whose replays find the fifth word of their request in the buffer. -/
theorem wakeups_kept (v : KernelVersion) (smPid : BitVec 32) (srvPmPorts : Handle × Handle)
    (cmdbuf : CmdBuf) (events : List SmEvent)
    (h : Guarded (smStep v) WakeInScope (boot v smPid srvPmPorts cmdbuf) events) :
    AllSteps (smStep v) (WakeLaw v) (boot v smPid srvPmPorts cmdbuf) events := by
  have hstep : ∀ s event t, ParkedInv s → WakeInScope s event → smStep v s event = some t →
      ParkedInv t ∧ WakeLaw v s event t := fun _ _ _ hs hscope ht => smStep_wakes hs hscope ht
  exact allSteps_of_guarded hstep (boot_inv v smPid srvPmPorts cmdbuf) h

def latest : KernelVersion := ⟨false, false, 6⟩

def started : SmState := boot latest 2 (1, 2) ⟨⟨0, 0, 0, 0⟩, 0, 0⟩

def granted : Answers := ⟨some (3, 4), (0, 5), 0, ⟨0, by decide⟩, ⟨⟨0, 0, 0, 0⟩, 0, 0⟩, false⟩

/-- A client asks for the service `ab`, in the words of its name as given; then a server registers
it and the client goes on. -/
def parkRun (w1 : BitVec 32) : List SmEvent :=
  [.newSession false, .newSession false,
    .request 0 ⟨⟨0x50100, w1, 0, 2⟩, 0, 0⟩ granted,
    .request 1 ⟨⟨0x30100, 0x6261, 0, 2⟩, 0, 0⟩ granted,
    .resume granted]

theorem parkRun_inScope : Guarded (smStep latest) WakeInScope started (parkRun 0x6261) := by
  refine .cons rfl trivial (.cons rfl trivial (.cons rfl ?_ (.cons rfl ?_ (.cons rfl ?_ trivial))))
  · intro _
    exact .inr (by decide)
  · intro hasks
    rcases hasks.1 with h5 | h8
    · cases h5
    · cases h8
  · intro j rest hqueue
    cases hqueue
    rfl

theorem parkRun_wakes :
    AllSteps (smStep latest) (WakeLaw latest) started (parkRun 0x6261) ∧
      (run (smStep latest) started ((parkRun 0x6261).take 4)).map
        (fun t => (t.toWakeUp, t.semaphore)) = some ([0], 1) ∧
      (run (smStep latest) started (parkRun 0x6261)).map
        (fun t => (t.replyTarget, t.cmdbuf.toReplayBuf)) =
        some (some 0, ⟨0x50042, 0, 0x10, 5⟩) :=
  ⟨wakeups_kept latest 2 (1, 2) ⟨⟨0, 0, 0, 0⟩, 0, 0⟩ _ parkRun_inScope, by decide +kernel,
    by decide +kernel⟩

/-- With a letter after the two of its name, the client waits for `ab` when `ab` is registered. -/
theorem padded_request_sleeps : ¬∀ v smPid srvPmPorts cmdbuf events,
    AllSteps (smStep v) (WakeLaw v) (boot v smPid srvPmPorts cmdbuf) events := by
  intro h
  have hlaw := h latest 2 (1, 2) ⟨⟨0, 0, 0, 0⟩, 0, 0⟩ ((parkRun 0x586261).take 4)
  obtain ⟨-, hlaw⟩ := hlaw _ rfl
  obtain ⟨-, hlaw⟩ := hlaw _ rfl
  obtain ⟨-, hlaw⟩ := hlaw _ rfl
  obtain ⟨hlaw, -⟩ := hlaw _ rfl
  obtain ⟨i, message, e, info, hevent, -, -, hcommand, hwake⟩ := hlaw.registered (by decide)
  cases hevent
  have hservice : info.isNamedPort = false := by
    cases hkind : info.isNamedPort with
    | false => rfl
    | true =>
      rw [hkind] at hcommand
      cases hcommand
  rw [hservice] at hwake
  have hwoken := hwake 0 rfl ⟨rfl, by decide⟩
  cases hwoken

end Presence3DS.Sm
