import Presence3DS.Pxi.Moves

/-! The sessions that the sender waits on, replies to and closes. -/

namespace Presence3DS.Pxi

namespace SessionManager

/-- A client may send a command to the service. -/
def Idles (m : SessionManager) (i : Service) : Prop :=
  m.state i = .idle ∧ (m.sessionData i).handle ≠ none

/-- What the sender takes for granted at its next step. -/
def Expects (m : SessionManager) (sender : Sender) : Prop :=
  match sender.pc with
  | .waiting idle => ∀ i ∈ idle, m.Idles i
  | .returned (.command i) => m.Idles i
  | .returned (.closed (some i)) => m.Idles i
  | .returned (.closed none) => ∃ i, m.Idles i ∧ (m.sessionData i).handle = sender.replyTarget
  | .replying (some i) => m.Idles i ∧ (m.sessionData i).handle = sender.replyTarget
  | .replyFound i => m.state i = .receivedFromArm9
  | _ => True

end SessionManager

structure SessionInv (s : PxiState) : Prop where
  opened : ∀ i, s.handle i = none → s.state i = .idle
  fresh : ∀ i h, s.handle i = some h → h < s.accepted
  distinct : ∀ i j, s.handle i ≠ none → s.handle i = s.handle j → i = j
  expects : s.manager.Expects s.sender

section Sessions
variable {s t : PxiState} {event : PxiEvent} {m m' : SessionManager} {sender : Sender}

theorem SessionManager.Expects.imp (h : m.Expects sender)
    (hidle : ∀ i, m.Idles i → m'.state i = .idle)
    (hhandle : ∀ i, (m.sessionData i).handle ≠ none →
      (m'.sessionData i).handle = (m.sessionData i).handle)
    (hfound : ∀ i, m.state i = .receivedFromArm9 → m'.state i = .receivedFromArm9) :
    m'.Expects sender := by
  have hkept : ∀ i, m.Idles i → m'.Idles i := by
    intro i hi
    exact ⟨hidle i hi, hhandle i hi.2 ▸ hi.2⟩
  unfold SessionManager.Expects at h ⊢
  split at h
  · intro i hi
    exact hkept i (h i hi)
  · exact hkept _ h
  · exact hkept _ h
  · obtain ⟨i, hi, htarget⟩ := h
    exact ⟨i, hkept i hi, (hhandle i hi.2).trans htarget⟩
  · exact ⟨hkept _ h.1, (hhandle _ h.1.2).trans h.2⟩
  · exact hfound _ h
  · trivial

theorem SessionInv.sameHandles (hs : SessionInv s) (hhandle : ∀ i, t.handle i = s.handle i)
    (hstate : ∀ i, s.handle i = none → t.state i = .idle) (haccepted : t.accepted = s.accepted)
    (hexpects : t.manager.Expects t.sender) : SessionInv t where
  opened i hi := hstate i ((hhandle i).symm.trans hi)
  fresh i h hi := haccepted ▸ hs.fresh i h ((hhandle i).symm.trans hi)
  distinct i j hi hij := by
    rw [hhandle] at hi
    rw [hhandle, hhandle] at hij
    exact hs.distinct i j hi hij
  expects := hexpects

theorem SessionInv.senderOnly (hs : SessionInv s) (hmanager : t.manager = s.manager)
    (haccepted : t.accepted = s.accepted) (hexpects : s.manager.Expects t.sender) :
    SessionInv t := by
  apply hs.sameHandles ?_ ?_ haccepted (hmanager ▸ hexpects)
  · intro i
    rw [PxiState.handle, hmanager]
    rfl
  · intro i hi
    rw [PxiState.state, hmanager]
    exact hs.opened i hi

theorem SessionInv.setData (hs : SessionInv s) (i : Service) (data : SessionData)
    (hm : ∀ j, t.manager.sessionData j = (s.manager.setSession i data).sessionData j)
    (hhandle : data.handle = s.handle i) (hopen : s.handle i ≠ none)
    (haccepted : t.accepted = s.accepted) (hexpects : t.manager.Expects t.sender) :
    SessionInv t := by
  apply hs.sameHandles ?_ ?_ haccepted hexpects
  · intro j
    rw [PxiState.handle, hm, SessionManager.handle_setSession]
    split_ifs with hj
    · rw [hj, hhandle]
    · rfl
  · intro j hj
    have hne : j ≠ i := fun heq => hopen (heq ▸ hj)
    rw [PxiState.state, hm, SessionManager.sessionData_setSession, if_neg hne]
    exact hs.opened j hj

theorem sends_open {i : Service} (h : m.sends i = true) :
    (m.sessionData i).handle ≠ none ∧ m.state i = .receivedFromArm11 ∧ m.maySend = true := by
  rw [SessionManager.sends, Bool.and_eq_true, Bool.and_eq_true] at h
  exact ⟨of_decide_eq_true h.1.1, of_decide_eq_true h.1.2, h.2⟩

theorem mem_idleSessions {i : Service} (h : i ∈ s.idleSessions) : s.manager.Idles i := by
  have htest := (List.mem_filter.mp h).2
  rw [Bool.and_eq_true] at htest
  exact ⟨of_decide_eq_true htest.2, of_decide_eq_true htest.1⟩

theorem replying_expects {sessionId : Option Service} {b : Bool} (hs : SessionInv s)
    (hpc : s.sender.pc = .replying sessionId) :
    (s.replying sessionId b).manager.Expects (s.replying sessionId b).sender := by
  have hexpects := hs.expects
  unfold SessionManager.Expects at hexpects
  have hwait : ∀ i ∈ s.idleSessions, s.manager.Idles i := fun i => mem_idleSessions
  unfold PxiState.replying
  split
  case h_1 i target htarget =>
    simp only [hpc] at hexpects
    split_ifs
    · exact ⟨i, hexpects⟩
    · exact hwait
  case h_2 => exact hwait

theorem SessionInv.busy_open (hs : SessionInv s) {i : Service} (h : s.state i ≠ .idle) :
    s.handle i ≠ none := mt (hs.opened i) h

theorem SessionInv.waited (hs : SessionInv s) {idle : List Service} {i : Service}
    (hpc : s.sender.pc = .waiting idle) (hi : i ∈ idle) : s.manager.Idles i := by
  have hexpects := hs.expects
  unfold SessionManager.Expects at hexpects
  rw [hpc] at hexpects
  exact hexpects i hi

theorem SessionInv.closing (hs : SessionInv s) {x : Option Service} {i : Service}
    (hpc : s.sender.pc = .returned (.closed x))
    (hi : x = some i ∨ x = none ∧ s.handle i = s.sender.replyTarget) : s.manager.Idles i := by
  have hexpects := hs.expects
  unfold SessionManager.Expects at hexpects
  rw [hpc] at hexpects
  rcases hi with hi | ⟨hx, htarget⟩
  · subst hi
    exact hexpects
  · subst hx
    obtain ⟨j, hj, hjtarget⟩ := hexpects
    have hsame : i = j := hs.distinct i j (by rw [htarget, ← hjtarget]; exact hj.2)
      (htarget.trans hjtarget.symm)
    exact hsame ▸ hj

theorem moves_sessionInv (hs : SessionInv s) (h : s.Moves event t) : SessionInv t := by
  cases h with
  | begin hpc => exact hs.sameHandles (fun _ => rfl) hs.opened rfl trivial
  | sent i hpc hsends =>
    obtain ⟨hopen, -, -⟩ := sends_open hsends
    exact hs.setData i { s.manager.sessionData i with state := .sentToArm9 } (fun _ => rfl) rfl
      hopen rfl trivial
  | skipped i hpc => exact hs.senderOnly rfl rfl trivial
  | sentAll hpc => exact hs.senderOnly rfl rfl trivial
  | @replied b sessionId hpc =>
    have hreplied : (s.replying sessionId b).manager = s.manager ∧
        (s.replying sessionId b).accepted = s.accepted := by
      unfold PxiState.replying
      split
      · split_ifs
        · exact ⟨rfl, rfl⟩
        · exact ⟨rfl, rfl⟩
      · exact ⟨rfl, rfl⟩
    exact hs.senderOnly hreplied.1 hreplied.2 (hreplied.1 ▸ replying_expects hs hpc)
  | closed i hpc hi =>
    have hidles := hs.closing hpc hi
    have hhandle := SessionManager.handle_setSession s.manager i
      { s.manager.sessionData i with handle := none }
    have hkept : ∀ j h, (s.closeSession i).handle j = some h → j ≠ i ∧ s.handle j = some h := by
      intro j h hj
      have hj' := (hhandle j).symm.trans hj
      split_ifs at hj' with hji
      exact ⟨hji, hj'⟩
    constructor
    · intro j hj
      have hstate := SessionManager.state_setSession s.manager i
        { s.manager.sessionData i with handle := none } j
      refine hstate.trans ?_
      split_ifs with hji
      · exact hidles.1
      · have hj' := (hhandle j).symm.trans hj
        rw [if_neg hji] at hj'
        exact hs.opened j hj'
    · intro j h hj
      exact hs.fresh j h (hkept j h hj).2
    · intro j k hj hjk
      obtain ⟨h, hsome⟩ := Option.ne_none_iff_exists'.mp hj
      have hj' := (hkept j h hsome).2
      have hk' := (hkept k h (hjk ▸ hsome)).2
      exact hs.distinct j k (by rw [hj']; exact Option.some_ne_none _) (hj'.trans hk'.symm)
    · trivial
  | woken hpc => exact hs.senderOnly rfl rfl trivial
  | scans hpc => exact hs.senderOnly rfl rfl trivial
  | command i m hpc hm =>
    have hidles : s.manager.Idles i := by
      have hexpects := hs.expects
      unfold SessionManager.Expects at hexpects
      rwa [hpc] at hexpects
    obtain ⟨-, -, disabled, -, hm'⟩ := SessionManager.commandReceived_cases hm
    subst hm'
    exact hs.setData i _ (fun _ => rfl) rfl hidles.2 rfl trivial
  | scanned k hpc => exact hs.senderOnly rfl rfl trivial
  | found k hpc hk => exact hs.senderOnly rfl rfl hk
  | reply i m cmdbuf hpc hm =>
    obtain ⟨hstate, -, disabled, pending, -, hm', -⟩ := SessionManager.replyReceived_cases hm
    have hopen : s.handle i ≠ none :=
      hs.busy_open (by rw [PxiState.state, hstate]; exact SessionState.noConfusion)
    subst hm'
    refine hs.setData i _ (fun _ => rfl) rfl hopen rfl ?_
    have hself := SessionManager.sessionData_setSession
    simp only [SessionManager.Expects, SessionManager.Idles, SessionManager.state, if_neg hopen,
      PxiState.setManager, hself, if_true]
    exact ⟨⟨trivial, hopen⟩, rfl⟩
  | wakeClosed i hpc hi => exact hs.senderOnly rfl rfl (hs.waited hpc hi)
  | wakeSendAll hpc hevent => exact hs.senderOnly rfl rfl trivial
  | wakeReply hpc hcount => exact hs.senderOnly rfl rfl trivial
  | wakeCommand i cmdbuf hpc hi => exact hs.senderOnly rfl rfl (hs.waited hpc hi)
  | receiverStarts hpc hsent => exact ⟨hs.opened, hs.fresh, hs.distinct, hs.expects⟩
  | @received i reply fifo hpc hfifo hstate hsize =>
    have hopen : s.handle i ≠ none := hs.busy_open (by rw [hstate]; exact SessionState.noConfusion)
    have hstates := SessionManager.state_setSession s.manager i { s.manager.sessionData i with
      buffer := memcpy (s.buffer i) reply (nbWords (reply 0))
      state := .receivedFromArm9 }
    refine hs.setData i _ (fun _ => rfl) rfl hopen rfl (hs.expects.imp ?_ ?_ ?_)
    · intro j hj
      have hne : j ≠ i := by
        rintro rfl
        cases hj.1.symm.trans hstate
      exact (hstates j).trans ((if_neg hne).trans hj.1)
    · intro j _
      refine (SessionManager.handle_setSession _ i _ j).trans ?_
      split_ifs with hji
      · rw [hji]
      · rfl
    · intro j hj
      refine (hstates j).trans ?_
      split_ifs
      · rfl
      · exact hj
  | receivedSrv11 hpc hfifo hstate hsize => exact ⟨hs.opened, hs.fresh, hs.distinct, hs.expects⟩
  | signalled hpc => exact ⟨hs.opened, hs.fresh, hs.distinct, hs.expects⟩
  | released hpc hid hcount => exact ⟨hs.opened, hs.fresh, hs.distinct, hs.expects⟩
  | resumed hpc hsent hstate => exact ⟨hs.opened, hs.fresh, hs.distinct, hs.expects⟩
  | handler h => exact ⟨hs.opened, hs.fresh, hs.distinct, hs.expects⟩
  | accept i hfree hhandle =>
    have hhandles := SessionManager.handle_setSession s.manager i
      { s.manager.sessionData i with handle := some s.accepted }
    have hstates : ∀ j, (s.manager.setSession i
        { s.manager.sessionData i with handle := some s.accepted }).state j = s.state j := by
      intro j
      refine (SessionManager.state_setSession _ i _ j).trans ?_
      split_ifs with hji
      · rw [hji]
        rfl
      · rfl
    constructor
    · intro j hj
      have hj' := (hhandles j).symm.trans hj
      split_ifs at hj' with hji
      exact (hstates j).trans (hs.opened j hj')
    · intro j h hj
      have hj' := (hhandles j).symm.trans hj
      split_ifs at hj' with hji
      · cases hj'
        exact Nat.lt_succ_self _
      · exact (hs.fresh j h hj').trans (Nat.lt_succ_self _)
    · intro j k hj hjk
      have hjk' := ((hhandles j).symm.trans hjk).trans (hhandles k)
      have hnew : ∀ l, s.handle l ≠ some s.accepted := fun l hl => (hs.fresh l _ hl).false
      have hj' : (if j = i then some s.accepted else s.handle j) ≠ none :=
        fun hnone => hj ((hhandles j).trans hnone)
      split_ifs at hjk' hj' with hji hki hki
      · rw [hji, hki]
      · exact absurd hjk'.symm (hnew k)
      · exact absurd hjk' (hnew j)
      · exact hs.distinct j k hj' hjk'
    · refine hs.expects.imp (fun j hj => (hstates j).trans hj.1) ?_ fun j hj => (hstates j).trans hj
      intro j hj
      have hne : j ≠ i := fun heq => hj (heq ▸ hhandle)
      exact (hhandles j).trans (if_neg hne)
  | arm9Answers i reply hi => exact ⟨hs.opened, hs.fresh, hs.distinct, hs.expects⟩
  | arm9Requests request => exact ⟨hs.opened, hs.fresh, hs.distinct, hs.expects⟩

end Sessions

theorem boot_sessionInv : SessionInv .boot where
  opened _ _ := rfl
  fresh _ _ h := by cases h
  distinct _ _ h _ := absurd rfl h
  expects := trivial

end Presence3DS.Pxi
