import Presence3DS.Sm.Wakeup

/-! The handles of the sessions of the service manager, and the kernel that gives their values out
again (`main.c`). A slot of the pool keeps the value of its handle when its session is closed. -/

namespace Presence3DS.Sm
open Kernel NodeLists Runs

/-- The handles that the manager waits on at all times. -/
structure WaitHandles where
  resumeGetServiceHandleOrPortRegisteredSemaphore : Handle
  srvPort : Handle
  srvPmPort : Handle
deriving DecidableEq

def WaitHandles.all (w : WaitHandles) : List Handle :=
  [w.resumeGetServiceHandleOrPortRegisteredSemaphore, w.srvPort, w.srvPmPort]

/-- The manager with the handles in its pool, and which handles the kernel has open for it: those
of its ends of sessions, and those of ports, semaphores and processes. -/
structure HandleState where
  sm : SmState
  handle : SessionId → Handle
  sessions : List Handle
  others : List Handle

inductive HandleEvent where
  | unreachable (id : Option ℕ)
  | newSession (isSrvPm : Bool) (session : Handle)
  | command (event : SmEvent) (others : List Handle)

/-- What the manager is woken for with a request to handle. -/
def SmEvent.isCommand : SmEvent → Bool
  | .resume _ | .portReady _ _ | .request _ _ _ => true
  | _ => false

namespace HandleState

/-- The list that is rebuilt before each wait. -/
def handles (w : WaitHandles) (s : HandleState) : List Handle :=
  w.all ++ (s.sm.lists.nodes .inUse).map s.handle ++
    (s.sm.lists.nodes .waitingPortReady).map fun i => (s.sm.session i).busyClientPortHandle

def nbSessions (s : HandleState) : ℕ := (s.sm.lists.nodes .inUse).length

def replyTarget (s : HandleState) : Handle := s.sm.replyTarget.elim 0 s.handle

/-- The index that the kernel returned with, or else that of the handle which was replied to. -/
def unreachableId (w : WaitHandles) (s : HandleState) (id : Option ℕ) : ℕ :=
  id.getD ((s.handles w).idxOf s.replyTarget)

/-- The loop over `sessionDataPool`, which goes on behind a match. -/
def findSession (s : HandleState) (h : Handle) : Option SessionId :=
  (List.finRange 76).foldl (fun found i => if s.handle i = h then some i else found) none

def closeSession (s : HandleState) (h : Handle) : Option HandleState :=
  (s.findSession h).map fun i =>
    { s with
      sm := (awaitEvent s.sm).move i .free false
      sessions := s.sessions.filter (· ≠ s.handle i)
      others := s.others.filter (· ≠ s.handle i) }

def unreachableRemote (v : KernelVersion) (w : WaitHandles) (s : HandleState) (id : Option ℕ) :
    Option HandleState :=
  let id := s.unreachableId w id
  if id < 3 then none
  else
    (s.handles w)[id]?.bind fun h =>
      if id < 3 + s.nbSessions then s.closeSession h
      else (smStep v s.sm (.portClosed h)).map fun sm => { s with sm := sm }

/-- The kernel gives a session a value that no open handle has. -/
def newSession (v : KernelVersion) (s : HandleState) (isSrvPm : Bool) (session : Handle) :
    Option HandleState :=
  if session = 0 ∨ session ∈ s.sessions ∨ session ∈ s.others then none
  else
    (s.sm.lists.nodes .free).head?.bind fun i =>
      (smStep v s.sm (.newSession isSrvPm)).map fun sm =>
        { s with
          sm := sm
          handle := Function.update s.handle i session
          sessions := session :: s.sessions }

/-- A command opens and closes handles of ports, semaphores and processes only, and the kernel
gives none of them the value of a session that is open. -/
def command (v : KernelVersion) (w : WaitHandles) (s : HandleState) (event : SmEvent)
    (others : List Handle) : Option HandleState :=
  if event.isCommand ∧ (∀ h ∈ w.all, h ∈ others) ∧ ∀ h ∈ s.sessions, h ∉ others then
    (smStep v s.sm event).map fun sm => { s with sm := sm, others := others }
  else none

def step (v : KernelVersion) (w : WaitHandles) (s : HandleState) : HandleEvent → Option HandleState
  | .unreachable id => s.unreachableRemote v w id
  | .newSession isSrvPm session => s.newSession v isSrvPm session
  | .command event others => s.command v w event others

end HandleState

/-! ## What the closing of a session is to do -/

namespace HandleState

/-- The event says that the remote end of the session in slot `i` is closed. -/
structure Reports (w : WaitHandles) (s : HandleState) (id : Option ℕ) (i : SessionId) : Prop where
  behind : 3 ≤ s.unreachableId w id
  slot : (s.sm.lists.nodes .inUse)[s.unreachableId w id - 3]? = some i

/-- The slot is taken from the sessions in use and freed, its handle is closed, and nothing else
changes. -/
structure ClosesOnly (s : HandleState) (i : SessionId) (t : HandleState) : Prop where
  inUse : t.sm.lists.nodes .inUse = (s.sm.lists.nodes .inUse).erase i
  free : t.sm.lists.nodes .free = i :: s.sm.lists.nodes .free
  lists : ∀ l, l ≠ .inUse → l ≠ .free → t.sm.lists.nodes l = s.sm.lists.nodes l
  session : t.sm.session = s.sm.session
  handle : t.handle = s.handle
  sessions : t.sessions = s.sessions.filter (· ≠ s.handle i)
  others : t.others = s.others

def ClosesReported (w : WaitHandles) (s : HandleState) (event : HandleEvent) (t : HandleState) :
    Prop :=
  ∀ id i, event = .unreachable id → s.Reports w id i → s.ClosesOnly i t

/-- No free slot behind `i` has the handle of `i` still. -/
def NoLaterStale (s : HandleState) (i : SessionId) : Prop :=
  ∀ j, i < j → s.handle j = s.handle i → s.sm.place j ≠ .free

def ClosesInScope (w : WaitHandles) (s : HandleState) : HandleEvent → Prop
  | .unreachable id => ∀ i, s.Reports w id i → s.NoLaterStale i
  | _ => True

/-- Each slot that is not free has an open handle of its own. -/
structure Owned (w : WaitHandles) (s : HandleState) : Prop where
  waited : ∀ h ∈ w.all, h ∈ s.others
  fresh : ∀ h ∈ s.sessions, h ∉ s.others
  owned : ∀ i, s.sm.place i ≠ .free → s.handle i ∈ s.sessions
  distinct : ∀ i j, s.sm.place i ≠ .free → s.sm.place j ≠ .free → s.handle i = s.handle j → i = j

end HandleState

/-! ## The loop over the pool -/

namespace HandleState
variable {v : KernelVersion} {w : WaitHandles} {s t : HandleState} {i : SessionId} {h : Handle}
  {id : Option ℕ}

theorem findSession_eq_some :
    s.findSession h = some i ↔ s.handle i = h ∧ ∀ j, i < j → s.handle j ≠ h := by
  refine (foldl_last (fun i => s.handle i = h) (List.pairwise_lt_finRange 76) i).trans ?_
  constructor
  · rintro ⟨-, hi, hlast⟩
    exact ⟨hi, fun j => hlast j (List.mem_finRange j)⟩
  · rintro ⟨hi, hlast⟩
    exact ⟨List.mem_finRange i, hi, fun j _ => hlast j⟩

theorem Owned.fresh_iff (hs : s.Owned w) (hi : s.sm.place i ≠ .free) : s.handle i ∉ s.others :=
  hs.fresh _ (hs.owned i hi)

/-- The loop finds the session with the handle exactly where no free slot behind it has the value
still. -/
theorem Owned.findSession_iff (hs : s.Owned w) (hi : s.sm.place i ≠ .free) :
    s.findSession (s.handle i) = some i ↔ s.NoLaterStale i := by
  rw [findSession_eq_some]
  constructor
  · rintro ⟨-, hlast⟩ j hij hsame
    exact absurd hsame (hlast j hij)
  · intro hstale
    refine ⟨rfl, fun j hij hsame => ?_⟩
    have hj := hstale j hij hsame
    exact absurd (hs.distinct i j hi hj hsame.symm) hij.ne

/-! ## The event -/

theorem Reports.place (h : s.Reports w id i) : s.sm.place i = .inUse :=
  (s.sm.lists.mem_nodes _ i).mp (List.mem_of_getElem? h.slot)

theorem Reports.place_ne (h : s.Reports w id i) : s.sm.place i ≠ .free := by
  rw [h.place]
  exact fun heq => SessionList.noConfusion heq

theorem unreachableRemote_reports (h : s.Reports w id i) :
    s.unreachableRemote v w id = s.closeSession (s.handle i) := by
  have hbehind := h.behind
  obtain ⟨hlt, -⟩ := List.getElem?_eq_some_iff.mp h.slot
  have hslot := h.slot
  unfold unreachableRemote
  generalize s.unreachableId w id = n at hbehind hlt hslot ⊢
  obtain ⟨k, rfl⟩ := Nat.exists_eq_add_of_le hbehind
  rw [Nat.add_sub_cancel_left] at hlt hslot
  dsimp only
  have hhandle : (s.handles w)[3 + k]? = some (s.handle i) := by
    have hlen : w.all.length = 3 := rfl
    unfold handles
    rw [List.append_assoc, List.getElem?_append_right (hlen ▸ hbehind), hlen,
      Nat.add_sub_cancel_left, List.getElem?_append_left (by rwa [List.length_map]),
      List.getElem?_map, hslot]
    rfl
  rw [if_neg (Nat.not_lt.mpr hbehind), hhandle, Option.bind_some]
  exact if_pos (Nat.add_lt_add_left hlt 3)

theorem closesOnly_closeSession (hs : s.Owned w) (hi : s.sm.place i = .inUse)
    (hfind : s.findSession (s.handle i) = some i) :
    ∃ t, s.closeSession (s.handle i) = some t ∧ s.ClosesOnly i t := by
  have hne : (awaitEvent s.sm).lists.parent i ≠ .free := by
    show s.sm.place i ≠ .free
    rw [hi]
    exact fun heq => SessionList.noConfusion heq
  refine ⟨_, congrArg (Option.map _) hfind, ?_, ?_, fun l huse hfree => ?_, rfl, rfl, rfl, ?_⟩
  · exact nodes_src _ hi (fun heq => SessionList.noConfusion heq) false
  · exact nodes_dst_front _ hne
  · exact nodes_other _ (fun heq => huse (heq.symm.trans hi)) hfree false
  · refine List.filter_eq_self.mpr fun h hmem => decide_eq_true fun heq => ?_
    exact hs.fresh_iff (hi ▸ fun heq => SessionList.noConfusion heq) (heq ▸ hmem)

theorem ClosesOnly.findSession (hi : s.sm.place i = .inUse)
    (ht : s.closeSession (s.handle i) = some t) (h : s.ClosesOnly i t) :
    s.findSession (s.handle i) = some i := by
  obtain ⟨j, hj, rfl⟩ := Option.map_eq_some_iff.mp ht
  suffices hsame : j = i from hsame ▸ hj
  by_contra hne
  have hkept : ((awaitEvent s.sm).move j .free false).place i = .inUse := by
    rw [place_move, if_neg (Ne.symm hne)]
    exact hi
  have hmem := ((awaitEvent s.sm).move j .free false).lists.mem_nodes .inUse i |>.mpr hkept
  rw [h.inUse] at hmem
  exact ((s.sm.lists.nodup _).mem_erase_iff.mp hmem).1 rfl

theorem Owned.closes_iff (hs : s.Owned w) (hid : s.Reports w id i) :
    (∃ t, step v w s (.unreachable id) = some t ∧ s.ClosesOnly i t) ↔ s.NoLaterStale i := by
  rw [← hs.findSession_iff hid.place_ne]
  show (∃ t, s.unreachableRemote v w id = some t ∧ s.ClosesOnly i t) ↔ _
  rw [unreachableRemote_reports hid]
  constructor
  · rintro ⟨t, ht, hcloses⟩
    exact hcloses.findSession hid.place ht
  · exact closesOnly_closeSession hs hid.place

/-! ## The invariant -/

theorem handleCommand_free {e : Answers} {a b : SmState} (ha : a.place i ≠ .free)
    (hab : handleCommand v e a i = some b) (j : SessionId) :
    b.place j = .free ↔ a.place j = .free := by
  obtain ⟨res, u, hhandled, hpark⟩ := handleCommand_cases hab
  have hu : ∀ j, u.place j = .free ↔ a.place j = .free := by
    intro j
    rcases hhandled.place j with hsame | ⟨hwait, hwoken⟩
    · rw [hsame]
    · rw [hwait, hwoken]
      decide
  rcases hpark with ⟨-, rfl⟩ | ⟨-, dst, hdst, rfl⟩
  · exact hu j
  · rw [place_move]
    split_ifs with hji
    · rw [hji]
      refine iff_of_false ?_ ha
      rcases hdst with rfl | rfl
      · exact fun h => SessionList.noConfusion h
      · exact fun h => SessionList.noConfusion h
    · exact hu j

theorem replay_free {e : Answers} {a b u : SmState} {l : SessionList} (ha : a.place i = l)
    (hl : l ≠ .free) (hu : u.lists = a.lists.moveNode i .inUse false)
    (hub : handleCommand v e u i = some b) (j : SessionId) :
    b.place j = .free ↔ a.place j = .free := by
  have hplace : ∀ j, u.place j = if j = i then .inUse else a.place j := by
    intro j
    rw [SmState.place, hu, parent_moveNode, Function.update_apply]
  have hi : u.place i ≠ .free := by
    rw [hplace, if_pos rfl]
    exact fun h => SessionList.noConfusion h
  rw [handleCommand_free hi hub, hplace]
  split_ifs with hji
  · rw [hji, ha]
    exact iff_of_false not_false hl
  · rfl

theorem command_free {event : SmEvent} {a b : SmState} (hevent : event.isCommand = true)
    (hab : smStep v a event = some b) (j : SessionId) : b.place j = .free ↔ a.place j = .free := by
  cases event with
  | sessionClosed i => exact absurd hevent Bool.false_ne_true
  | portClosed port => exact absurd hevent Bool.false_ne_true
  | newSession isSrvPm => exact absurd hevent Bool.false_ne_true
  | resume e =>
    simp only [smStep, resumeSession] at hab
    split_ifs at hab
    cases hqueue : (awaitEvent a).lists.nodes .toWakeUpAfterServiceOrPortRegister with
    | nil =>
      rw [hqueue] at hab
      cases hab
    | cons i rest =>
      rw [hqueue] at hab
      have hplace : a.place i = .toWakeUpAfterServiceOrPortRegister :=
        ((awaitEvent a).lists.mem_nodes _ i).mp (hqueue ▸ List.mem_cons_self)
      exact replay_free hplace (fun h => SessionList.noConfusion h) rfl hab j
  | portReady port e =>
    simp only [smStep, resumeOnPort] at hab
    cases hfind : ((awaitEvent a).lists.nodes .waitingPortReady).find?
        fun i => ((awaitEvent a).session i).busyClientPortHandle = port with
    | none =>
      rw [hfind] at hab
      cases hab
      rfl
    | some i =>
      rw [hfind] at hab
      have hplace : a.place i = .waitingPortReady :=
        ((awaitEvent a).lists.mem_nodes _ i).mp (List.mem_of_find?_eq_some hfind)
      exact replay_free hplace (fun h => SessionList.noConfusion h) rfl hab j
  | request i message e =>
    simp only [smStep, receiveRequest] at hab
    split_ifs at hab with hplace
    have hi : (awaitEvent a).place i ≠ .free := fun h =>
      SessionList.noConfusion (h.symm.trans hplace)
    exact handleCommand_free (a := { awaitEvent a with
      cmdbuf := message, sent := Function.update (awaitEvent a).sent i message }) hi hab j

theorem closePort_free (a : SmState) (port : Handle) (j : SessionId) :
    (closePort a port).place j = .free ↔ a.place j = .free := by
  show (moveMatching _ _ _ a.lists).1.parent j = .free ↔ _
  rw [parent_moveMatching]
  split_ifs with hj
  · have hplace := (a.lists.mem_nodes _ j).mp hj.1
    exact iff_of_false not_false fun h => SessionList.noConfusion (h.symm.trans hplace)
  · rfl

theorem Owned.of_free {others : List Handle} {sm : SmState} (hs : s.Owned w)
    (hfree : ∀ j, sm.place j = .free ↔ s.sm.place j = .free) (hwaited : ∀ h ∈ w.all, h ∈ others)
    (hfresh : ∀ h ∈ s.sessions, h ∉ others) : Owned w { s with sm := sm, others := others } where
  waited := hwaited
  fresh := hfresh
  owned i hi := hs.owned i (mt (hfree i).mpr hi)
  distinct i j hi hj := hs.distinct i j (mt (hfree i).mpr hi) (mt (hfree j).mpr hj)

theorem ClosesOnly.place_free (h : s.ClosesOnly i t) (j : SessionId) :
    t.sm.place j = .free ↔ j = i ∨ s.sm.place j = .free := by
  rw [SmState.place, ← t.sm.lists.mem_nodes, h.free, List.mem_cons, s.sm.lists.mem_nodes]

theorem Owned.closesOnly (hs : s.Owned w) (hi : s.sm.place i ≠ .free) (h : s.ClosesOnly i t) :
    t.Owned w where
  waited := h.others ▸ hs.waited
  fresh k hk := by
    rw [h.sessions] at hk
    rw [h.others]
    exact hs.fresh k (List.mem_of_mem_filter hk)
  owned j hj := by
    rw [Ne, h.place_free, not_or] at hj
    rw [h.handle, h.sessions]
    refine List.mem_filter.mpr ⟨hs.owned j hj.2, decide_eq_true fun hsame => ?_⟩
    exact hj.1 (hs.distinct j i hj.2 hi hsame)
  distinct j k hj hk hsame := by
    rw [Ne, h.place_free, not_or] at hj hk
    rw [h.handle] at hsame
    exact hs.distinct j k hj.2 hk.2 hsame

theorem Owned.newSession {isSrvPm : Bool} {session : Handle} (hs : s.Owned w)
    (h : s.newSession v isSrvPm session = some t) : t.Owned w := by
  unfold HandleState.newSession at h
  split_ifs at h with hfresh
  obtain ⟨-, hsession, hother⟩ := not_or.mp hfresh |>.imp_right not_or.mp
  obtain ⟨i, hi, h⟩ := Option.bind_eq_some_iff.mp h
  obtain ⟨sm, hsm, rfl⟩ := Option.map_eq_some_iff.mp h
  have hplace : ∀ j, sm.place j ≠ .free → j = i ∨ s.sm.place j ≠ .free := by
    intro j hj
    obtain ⟨rest, hrest⟩ := List.head?_eq_some_iff.mp hi
    have hnodes : (awaitEvent s.sm).lists.nodes .free = i :: rest := hrest
    simp only [smStep, acceptSession, hnodes] at hsm
    cases hsm
    by_cases hji : j = i
    · exact .inl hji
    · right
      have hmoved := place_move (awaitEvent s.sm) i .inUse false j
      rw [if_neg hji] at hmoved
      exact fun hfree => hj (hmoved.trans hfree)
  have howned : ∀ j, s.sm.place j ≠ .free → s.handle j ≠ session := by
    intro j hj heq
    exact hsession (heq ▸ hs.owned j hj)
  refine ⟨hs.waited, ?_, ?_, ?_⟩
  · intro k hk
    rcases List.mem_cons.mp hk with rfl | hk
    · exact hother
    · exact hs.fresh k hk
  · intro j hj
    show Function.update s.handle i session j ∈ session :: s.sessions
    by_cases hji : j = i
    · rw [hji, Function.update_self]
      exact List.mem_cons_self
    · rw [Function.update_of_ne hji]
      exact List.mem_cons_of_mem _ (hs.owned j ((hplace j hj).resolve_left hji))
  · intro j k hj hk hsame
    have hsame : Function.update s.handle i session j = Function.update s.handle i session k :=
      hsame
    by_cases hji : j = i
    · by_cases hki : k = i
      · exact hji.trans hki.symm
      · rw [hji, Function.update_self, Function.update_of_ne hki] at hsame
        exact absurd hsame.symm (howned k ((hplace k hk).resolve_left hki))
    · by_cases hki : k = i
      · rw [hki, Function.update_self, Function.update_of_ne hji] at hsame
        exact absurd hsame (howned j ((hplace j hj).resolve_left hji))
      · rw [Function.update_of_ne hji, Function.update_of_ne hki] at hsame
        exact hs.distinct j k ((hplace j hj).resolve_left hji) ((hplace k hk).resolve_left hki)
          hsame

theorem unreachableRemote_cases (h : s.unreachableRemote v w id = some t) :
    (∃ i, s.Reports w id i) ∨ ∃ port sm, smStep v s.sm (.portClosed port) = some sm ∧
      t = { s with sm := sm } := by
  unfold unreachableRemote at h
  dsimp only at h
  split_ifs at h with hbehind hlt
  · have hslot : s.unreachableId w id - 3 < (s.sm.lists.nodes .inUse).length := by
      unfold nbSessions at hlt
      omega
    exact .inl ⟨_, Nat.not_lt.mp hbehind, List.getElem?_eq_getElem hslot⟩
  · obtain ⟨port, -, h⟩ := Option.bind_eq_some_iff.mp h
    obtain ⟨sm, hsm, rfl⟩ := Option.map_eq_some_iff.mp h
    exact .inr ⟨port, sm, hsm, rfl⟩

theorem Owned.step {event : HandleEvent} (hs : s.Owned w) (hscope : s.ClosesInScope w event)
    (h : step v w s event = some t) : t.Owned w ∧ s.ClosesReported w event t := by
  cases event with
  | unreachable id =>
    have hcloses : ∀ i, s.Reports w id i → s.ClosesOnly i t := by
      intro i hid
      obtain ⟨u, hu, hcloses⟩ := (hs.closes_iff (v := v) hid).mpr (hscope i hid)
      exact Option.some.inj (hu.symm.trans h) ▸ hcloses
    refine ⟨?_, fun id i heq hid => ?_⟩
    · rcases unreachableRemote_cases h with ⟨i, hid⟩ | ⟨port, sm, hsm, rfl⟩
      · exact hs.closesOnly hid.place_ne (hcloses i hid)
      · cases hsm
        exact hs.of_free (closePort_free (awaitEvent s.sm) port) hs.waited hs.fresh
    · cases heq
      exact hcloses i hid
  | newSession isSrvPm session => exact ⟨hs.newSession h, fun _ _ heq => by cases heq⟩
  | command event others =>
    have h : s.command v w event others = some t := h
    unfold HandleState.command at h
    split_ifs at h with hguard
    obtain ⟨sm, hsm, rfl⟩ := Option.map_eq_some_iff.mp h
    obtain ⟨hevent, hwaited, hfresh⟩ := hguard
    exact ⟨hs.of_free (command_free hevent hsm) hwaited hfresh, fun _ _ heq => by cases heq⟩

/-! ## Runs -/

/-- Before the first session the pool holds no handle. -/
def boot (sm : SmState) (others : List Handle) : HandleState := ⟨sm, fun _ => 0, [], others⟩

theorem boot_owned {others : List Handle} (hwaited : ∀ h ∈ w.all, h ∈ others) (smPid : BitVec 32)
    (srvPmPorts : Handle × Handle) (cmdbuf : CmdBuf) :
    (boot (Sm.boot v smPid srvPmPorts cmdbuf) others).Owned w where
  waited := hwaited
  fresh _ hh := absurd hh List.not_mem_nil
  owned _ hi := absurd rfl hi
  distinct _ _ hi := absurd rfl hi

/-- While no free slot behind a closed session has the value of its handle still, each closed
session is the one that is freed; and where a slot has, another one is "freed". -/
theorem sessions_closed (v : KernelVersion) (w : WaitHandles) (smPid : BitVec 32)
    (srvPmPorts : Handle × Handle) (cmdbuf : CmdBuf) (others : List Handle)
    (hwaited : ∀ h ∈ w.all, h ∈ others) (events : List HandleEvent)
    (hscope : Guarded (step v w) (ClosesInScope w)
      (boot (Sm.boot v smPid srvPmPorts cmdbuf) others) events) :
    AllSteps (step v w) (ClosesReported w) (boot (Sm.boot v smPid srvPmPorts cmdbuf) others)
      events ∧
    ∀ s, run (step v w) (boot (Sm.boot v smPid srvPmPorts cmdbuf) others) events = some s →
      ∀ id i, s.Reports w id i →
        ((∃ t, step v w s (.unreachable id) = some t ∧ s.ClosesOnly i t) ↔ s.NoLaterStale i) := by
  have hboot := boot_owned hwaited (v := v) smPid srvPmPorts cmdbuf
  constructor
  · exact allSteps_of_guarded (fun _ _ _ hs hC ht => hs.step hC ht) hboot hscope
  · intro s hs id i hid
    have howned := invariant_of_guarded (fun _ _ _ hs hC ht => (hs.step hC ht).1) hboot hscope hs
    exact howned.closes_iff hid

def testWaits : WaitHandles := ⟨1, 2, 3⟩

def testBoot : HandleState := boot (Sm.boot latest 2 (1, 2) ⟨⟨0, 0, 0, 0⟩, 0, 0⟩) testWaits.all

/-- Two sessions, of which the first is closed before the second. -/
def closeRun : List HandleEvent :=
  [.newSession false 10, .newSession false 11, .unreachable (some 4), .unreachable (some 3)]

/-- The other way round; then the kernel gives the first value it closed to the next session. -/
def reuseRun : List HandleEvent :=
  [.newSession false 10, .newSession false 11, .unreachable (some 3), .unreachable (some 3),
    .newSession false 11]

def testHandles : SessionId → Handle :=
  Function.update (Function.update (fun _ => 0) ⟨0, by decide⟩ 10) ⟨1, by decide⟩ 11

theorem testHandles_eq {i j : SessionId} (h : testHandles j = testHandles i)
    (hi : testHandles i ≠ 0) : j = i := by
  simp only [testHandles, Function.update_apply] at h hi
  split_ifs at h hi <;> simp_all

theorem closeRun_sessions_closed :
    AllSteps (step latest testWaits) (ClosesReported testWaits) testBoot closeRun ∧
      (run (step latest testWaits) testBoot closeRun).map
        (fun t => (t.sm.lists.nodes .inUse, t.sessions, (t.sm.lists.nodes .free).take 3)) =
        some ([], [], [1, 0, 2]) := by
  have hscope : Guarded (step latest testWaits) (ClosesInScope testWaits) testBoot closeRun := by
    refine .cons rfl trivial (.cons rfl trivial (.cons rfl ?_ (.cons rfl ?_ trivial)))
    · rintro i ⟨-, hslot⟩ j hij hsame
      have hi : (0 : SessionId) = i := Option.some.inj hslot
      subst hi
      have hsame : testHandles j = testHandles 0 := hsame
      exact absurd (testHandles_eq hsame (by decide)) hij.ne'
    · rintro i ⟨-, hslot⟩ j hij hsame
      have hi : (1 : SessionId) = i := Option.some.inj hslot
      subst hi
      have hsame : testHandles j = testHandles 1 := hsame
      exact absurd (testHandles_eq hsame (by decide)) hij.ne'
  exact ⟨(sessions_closed latest testWaits 2 (1, 2) ⟨⟨0, 0, 0, 0⟩, 0, 0⟩ testWaits.all
    (fun _ hh => hh) closeRun hscope).1, by decide +kernel⟩

/-- The closing of the session with the value that was given out again frees the slot that had
the value before, and the session stays in use with a closed handle. -/
theorem reused_handle_is_lost : ¬∀ s id i,
    run (step latest testWaits) testBoot reuseRun = some s → s.Reports testWaits id i →
      ∃ t, step latest testWaits s (.unreachable id) = some t ∧ s.ClosesOnly i t := by
  intro h
  obtain ⟨t, ht, hcloses⟩ := h _ (some 3) 0 rfl ⟨by decide +kernel, by decide +kernel⟩
  cases ht
  have hfree := hcloses.inUse
  exact absurd hfree (by decide +kernel)

end HandleState

end Presence3DS.Sm
