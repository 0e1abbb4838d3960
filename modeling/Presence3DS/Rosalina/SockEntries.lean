import Mathlib.Data.List.Nodup
import Presence3DS.Rosalina.SockLives

/-! New entries of the table of the socket server, and the entries that compacting keeps. -/

namespace Presence3DS.Rosalina.SockUtil
open Lives

variable {s t u : SockServer} {p q : CtxPtr} {i j : ℕ}

/-! ## New entries -/

/-- A context that was not open gets an entry behind the others. -/
structure Grows (s t : SockServer) (p : CtxPtr) : Prop where
  nfds : t.nfds = s.nfds + 1
  ctxPtrs : ∀ i, t.ctxPtrs i = if i = s.nfds then some p else s.ctxPtrs i
  fd : ∀ i, i ≠ s.nfds → (t.pollFds i).fd = (s.pollFds i).fd
  compactNeeded : t.compactNeeded = s.compactNeeded
  wasClosed : (s.ctxs p).type = .none
  type : (t.ctxs p).type ≠ .none
  place : (t.ctxs p).i = s.nfds
  socket : (t.ctxs p).sockfd = (t.pollFds s.nfds).fd ∧ (t.pollFds s.nfds).fd ≠ -1
  other : ∀ q, q ≠ p → (t.ctxs q).type = (s.ctxs q).type ∧ (t.ctxs q).i = (s.ctxs q).i ∧
    (t.ctxs q).sockfd = (s.ctxs q).sockfd

namespace Grows

theorem linked (h : Grows s t p) (hs : Linked s 0) : Linked t 0 := by
  refine ⟨fun q hq => ?_, fun i q _ hi hptr => ?_⟩
  · rw [h.nfds, h.ctxPtrs]
    by_cases hqp : q = p
    · rw [hqp, h.place, if_pos rfl]
      exact ⟨Nat.zero_le _, Nat.lt_succ_self _, rfl⟩
    · obtain ⟨htype, hplace, -⟩ := h.other q hqp
      rw [htype] at hq
      obtain ⟨hle, hlt, hptr⟩ := hs.place q hq
      rw [hplace, if_neg (Nat.ne_of_lt hlt)]
      exact ⟨hle, Nat.lt_succ_of_lt hlt, hptr⟩
  · rw [h.ctxPtrs] at hptr
    rw [h.nfds] at hi
    split_ifs at hptr with hlast
    · cases hptr
      exact ⟨h.place.trans hlast.symm, h.type⟩
    · have hlt : i < s.nfds := Nat.lt_of_le_of_ne (Nat.le_of_lt_succ hi) hlast
      obtain ⟨hplace, htype⟩ := hs.entry i q (Nat.zero_le i) hlt hptr
      have hqp : q ≠ p := fun heq => htype (heq ▸ h.wasClosed)
      obtain ⟨htype', hplace', -⟩ := h.other q hqp
      rw [hplace', htype']
      exact ⟨hplace, htype⟩

theorem sockets (h : Grows s t p) (hl : Linked s 0) (hs : Sockets s j) : Sockets t j := by
  intro i hi
  rw [h.ctxPtrs]
  by_cases hlast : i = s.nfds
  · rw [if_pos hlast, hlast]
    exact .inl ⟨p, rfl, h.socket⟩
  · rw [h.nfds] at hi
    have hlt : i < s.nfds := Nat.lt_of_le_of_ne (Nat.le_of_lt_succ hi) hlast
    rw [if_neg hlast, h.fd i hlast, h.compactNeeded]
    refine (hs i hlt).imp_left ?_
    rintro ⟨q, hptr, hsockfd, hopen⟩
    have hqp : q ≠ p := fun heq =>
      (hl.entry i q (Nat.zero_le i) hlt hptr).2 (heq ▸ h.wasClosed)
    refine ⟨q, hptr, ?_, hopen⟩
    rw [(h.other q hqp).2.2]
    exact hsockfd

end Grows

/-! ## Accepting -/

/-- The server with a new client, whose accept callback has not failed. -/
def withClient (s : SockServer) (curr new : CtxPtr) (fd : Int) (peer : SockaddrIn) : SockServer :=
  (addClient (takeClient s curr new) curr new fd).writeCtx new fun c => { c with addrIn := peer }

theorem acceptClient_cases (s : SockServer) (curr : CtxPtr) {e : VisitAnswers}
    (he : e.acceptCb ≠ -1) :
    acceptClient s curr e = s ∨ ∃ a, s.inUse (.client a) = false ∧ 0 ≤ e.socAccept ∧
      s.nfds ≠ maxCtxs ∧
        acceptClient s curr e = withClient s curr (.client a) e.socAccept e.peer := by
  rw [acceptClient]
  split_ifs with hfull
  · exact .inl rfl
  · obtain ⟨hfd, -, hroom⟩ : ¬e.socAccept < 0 ∧ _ ∧ ¬s.nfds = maxCtxs := by
      simpa only [not_or] using hfull
    cases hnew : gdbGetClient s e.pick (s.ctxs curr).addrIn.port with
    | none => exact .inl rfl
    | some new =>
      obtain ⟨hpick, hfree⟩ := Option.filter_eq_some_iff.mp hnew
      obtain ⟨a, -, rfl⟩ := Option.map_eq_some_iff.mp hpick
      refine .inr ⟨a, by simpa using hfree, not_lt.mp hfd, hroom, ?_⟩
      rfl

variable {curr new : CtxPtr} {fd : Int} {peer : SockaddrIn}

theorem withClient_ctxs (hne : curr ≠ new) (q : CtxPtr) :
    (withClient s curr new fd peer).ctxs q =
      if q = new then ⟨.client, false, fd, peer, curr, 0, s.nfds⟩
      else if q = curr then { s.ctxs q with n := (s.ctxs q).n + 1 } else s.ctxs q := by
  simp only [withClient, addClient, takeClient, SockServer.note, SockServer.writeCtx,
    SockServer.setPollFd, SockServer.setCtxPtr, Function.update_apply]
  by_cases hnew : q = new
  · simp only [hnew, if_true, if_neg hne.symm]
  · by_cases hcurr : q = curr
    · simp only [hcurr, if_neg hne, if_true]
    · simp only [if_neg hnew, if_neg hcurr]

theorem withClient_log :
    (withClient s curr new fd peer).log =
      s.log ++ [.accepted new curr, .used curr, .used new, .used new] := by
  simp [withClient, addClient, takeClient, SockServer.note, SockServer.writeCtx,
    SockServer.setPollFd, SockServer.setCtxPtr]

theorem withClient_ctxPtrs (i : ℕ) :
    (withClient s curr new fd peer).ctxPtrs i = if i = s.nfds then some new else s.ctxPtrs i :=
  Function.update_apply s.ctxPtrs s.nfds (some new) i

theorem withClient_fd (i : ℕ) :
    ((withClient s curr new fd peer).pollFds i).fd =
      if i = s.nfds then fd else (s.pollFds i).fd := by
  show (Function.update s.pollFds s.nfds ⟨fd, true, ⟨false, false⟩⟩ i).fd = _
  rw [Function.update_apply]
  split_ifs
  · rfl
  · rfl

theorem withClient_inUse (q : CtxPtr) :
    (withClient s curr new fd peer).inUse q = if q = new then true else s.inUse q :=
  Function.update_apply s.inUse new true q

theorem withClient_type (hne : curr ≠ new) (q : CtxPtr) :
    ((withClient s curr new fd peer).ctxs q).type =
      if q = new then .client else (s.ctxs q).type := by
  rw [withClient_ctxs hne]
  split_ifs
  · rfl
  · rfl
  · rfl

theorem withClient_i (hne : curr ≠ new) (q : CtxPtr) :
    ((withClient s curr new fd peer).ctxs q).i = if q = new then s.nfds else (s.ctxs q).i := by
  rw [withClient_ctxs hne]
  split_ifs
  · rfl
  · rfl
  · rfl

theorem withClient_sockfd (hne : curr ≠ new) (q : CtxPtr) :
    ((withClient s curr new fd peer).ctxs q).sockfd =
      if q = new then fd else (s.ctxs q).sockfd := by
  rw [withClient_ctxs hne]
  split_ifs
  · rfl
  · rfl
  · rfl

theorem withClient_serv (hne : curr ≠ new) (q : CtxPtr) :
    ((withClient s curr new fd peer).ctxs q).serv =
      if q = new then curr else (s.ctxs q).serv := by
  rw [withClient_ctxs hne]
  split_ifs
  · rfl
  · rfl
  · rfl

theorem openAt_withClient (hne : curr ≠ new) (q : CtxPtr) :
    (withClient s curr new fd peer).openAt q = if q = new then some curr else s.openAt q := by
  rw [SockServer.openAt, SockServer.openAt, withClient_type hne, withClient_serv hne]
  by_cases hq : q = new
  · simp only [hq, if_true]
  · simp only [if_neg hq]

theorem grows_withClient (hne : curr ≠ new) (hnew : (s.ctxs new).type = .none) (hfd : 0 ≤ fd) :
    Grows s (withClient s curr new fd peer) new where
  nfds := rfl
  ctxPtrs := withClient_ctxPtrs
  fd := fun i hi => by rw [withClient_fd, if_neg hi]
  compactNeeded := rfl
  wasClosed := hnew
  type := by
    rw [withClient_type hne, if_pos rfl]
    exact SocketType.noConfusion
  place := by rw [withClient_i hne, if_pos rfl]
  socket := by
    rw [withClient_sockfd hne, withClient_fd, if_pos rfl, if_pos rfl]
    exact ⟨rfl, by omega⟩
  other := fun q hq => by
    rw [withClient_type hne, withClient_i hne, withClient_sockfd hne, if_neg hq, if_neg hq,
      if_neg hq]
    exact ⟨rfl, rfl, rfl⟩

theorem OnceEach.withClient (h : OnceEach s q) (hne : curr ≠ new)
    (hnew : (s.ctxs new).type = .none) : OnceEach (withClient s curr new fd peer) q := by
  rw [OnceEach] at h
  rw [OnceEach, withClient_log, List.filter_append, openAt_withClient hne]
  by_cases hq : q = new
  · subst hq
    have hclosed : s.openAt q = none := by
      rw [SockServer.openAt, hnew]
      exact if_neg SocketType.noConfusion
    rw [hclosed] at h
    simpa [Action.livesOf] using h.opened
  · rw [if_neg hq]
    simpa [Action.livesOf, Ne.symm hq] using h

theorem CountsClients.withClient (h : CountsClients s q) (hne : curr ≠ new) (hq : q ≠ new) :
    CountsClients (withClient s curr new fd peer) q := by
  rw [CountsClients] at h
  rw [CountsClients, withClient_log, List.countP_append, List.countP_append, withClient_ctxs hne,
    if_neg hq]
  by_cases hcurr : q = curr
  · subst hcurr
    simp [Action.acceptedAt, Action.deductedFrom, h]
    omega
  · simpa [Action.acceptedAt, Action.deductedFrom, Ne.symm hcurr, hcurr] using h

theorem Tracked.type_of_free (h : Tracked s) {a : ℕ} (hfree : s.inUse (.client a) = false) :
    (s.ctxs (.client a)).type = .none := by
  cases htype : (s.ctxs (.client a)).type with
  | none => rfl
  | server => exact absurd htype (h.clients a)
  | client => exact absurd (h.inUse _ htype) (hfree ▸ Bool.false_ne_true)

theorem Tracked.withClient (h : Tracked s) {k a : ℕ} (hfree : s.inUse (.client a) = false) :
    Tracked (withClient s (.serv k) (.client a) fd peer) := by
  have hne : CtxPtr.serv k ≠ .client a := CtxPtr.noConfusion
  have hnew := h.type_of_free hfree
  refine ⟨fun q => (h.once q).withClient hne hnew,
    fun k => (h.counted k).withClient hne CtxPtr.noConfusion, fun k => ?_, fun b => ?_,
    fun q hq => ?_⟩
  · rw [withClient_type hne, if_neg CtxPtr.noConfusion]
    exact h.listening k
  · rw [withClient_type hne]
    split_ifs
    · exact SocketType.noConfusion
    · exact h.clients b
  · rw [withClient_type hne] at hq
    rw [withClient_inUse]
    split_ifs at hq ⊢
    · rfl
    · exact h.inUse q hq

/-! ## Binding -/

/-- A listening socket finds an entry and a context that counts no client. -/
def HasRoom (s : SockServer) : Prop :=
  s.nfds < maxCtxs ∧ ∃ p, serverAllocServerCtx s = some p ∧ (s.ctxs p).n = 0

def Binds (e : BindAnswers) : Prop :=
  ∃ fd tries, openSocket e 15 0 = some (fd, tries) ∧ ¬(fd < -10000 ∨ tries = 0) ∧ bindRes e = 0

/-- The server with a new listening socket. -/
def withServer (s : SockServer) (p : CtxPtr) (fd : Int) (addrIn : SockaddrIn) : SockServer :=
  (({ s.setPollFd s.nfds { s.pollFds s.nfds with fd := fd, events := true } with
    nfds := s.nfds + 1 } : SockServer).writeCtx p fun c =>
      { c with addrIn := addrIn, type := .server, sockfd := fd, n := 0, i := s.nfds }).setCtxPtr
        s.nfds (some p)

theorem addServer_eq {fd : Int} {addrIn : SockaddrIn} (h : serverAllocServerCtx s = some p) :
    addServer s fd addrIn = withServer s p fd addrIn := by
  have hsame : serverAllocServerCtx
      { s.setPollFd s.nfds { s.pollFds s.nfds with fd := fd, events := true } with
        nfds := s.nfds + 1 } = some p := h
  rw [addServer]
  dsimp only
  rw [hsame]
  rfl

theorem openSocket_fd {e : BindAnswers} {tries left n : ℕ} {fd : Int}
    (h : openSocket e tries n = some (fd, left)) (hleft : left ≠ 0) : fd ≠ -1 := by
  induction tries generalizing n with
  | zero =>
    cases h
    exact absurd rfl hleft
  | succ tries ih =>
    rw [openSocket] at h
    split_ifs at h with hfd
    · cases h
      exact hfd
    · exact ih h

theorem serverBind_cases (s : SockServer) (port : ℕ) (e : BindAnswers)
    (hroom : Binds e → HasRoom s) :
    (∃ init term, serverBind s port e = { s with initResult := init, shallTerminate := term }) ∨
      ∃ p fd addrIn, fd ≠ -1 ∧ s.nfds < maxCtxs ∧ serverAllocServerCtx s = some p ∧
        (s.ctxs p).n = 0 ∧ serverBind s port e = withServer s p fd addrIn := by
  rw [serverBind]
  rcases hsocket : openSocket e 15 0 with _ | ⟨fd, tries⟩
  · exact .inl ⟨_, _, rfl⟩
  dsimp only
  split_ifs with hbroken hres
  · exact .inl ⟨_, _, rfl⟩
  · exact .inl ⟨_, _, rfl⟩
  · obtain ⟨hlt, p, hp, hn⟩ := hroom ⟨fd, tries, hsocket, hbroken, not_not.mp hres⟩
    exact .inr ⟨p, fd, _, openSocket_fd hsocket fun h => hbroken (.inr h), hlt, hp, hn,
      addServer_eq hp⟩

theorem serverAllocServerCtx_spec (h : serverAllocServerCtx s = some p) :
    (∃ k, p = .serv k) ∧ (s.ctxs p).type = .none := by
  obtain ⟨k, -, hk⟩ := List.mem_map.mp (List.mem_of_find?_eq_some h)
  rw [serverAllocServerCtx] at h
  have htype := List.find?_some h
  exact ⟨⟨k, hk.symm⟩, of_decide_eq_true htype⟩

variable {addrIn : SockaddrIn}

theorem withServer_ctxs (q : CtxPtr) :
    (withServer s p fd addrIn).ctxs q =
      if q = p then ⟨.server, (s.ctxs p).shouldClose, fd, addrIn, (s.ctxs p).serv, 0, s.nfds⟩
      else s.ctxs q :=
  Function.update_apply s.ctxs p _ q

theorem withServer_ctxPtrs (i : ℕ) :
    (withServer s p fd addrIn).ctxPtrs i = if i = s.nfds then some p else s.ctxPtrs i :=
  Function.update_apply s.ctxPtrs s.nfds (some p) i

theorem withServer_fd (i : ℕ) :
    ((withServer s p fd addrIn).pollFds i).fd =
      if i = s.nfds then fd else (s.pollFds i).fd := by
  show (Function.update s.pollFds s.nfds _ i).fd = _
  rw [Function.update_apply]
  split_ifs
  · rfl
  · rfl

theorem withServer_log : (withServer s p fd addrIn).log = s.log ++ [.used p] := rfl

theorem grows_withServer (hp : (s.ctxs p).type = .none) (hfd : fd ≠ -1) :
    Grows s (withServer s p fd addrIn) p where
  nfds := rfl
  ctxPtrs := withServer_ctxPtrs
  fd := fun i hi => by rw [withServer_fd, if_neg hi]
  compactNeeded := rfl
  wasClosed := hp
  type := by
    rw [withServer_ctxs, if_pos rfl]
    exact SocketType.noConfusion
  place := by rw [withServer_ctxs, if_pos rfl]
  socket := by
    rw [withServer_ctxs, withServer_fd, if_pos rfl, if_pos rfl]
    exact ⟨rfl, hfd⟩
  other := fun q hq => by
    rw [withServer_ctxs, if_neg hq]
    exact ⟨rfl, rfl, rfl⟩

theorem Tracked.withServer (h : Tracked s) {k : ℕ} (hp : (s.ctxs (.serv k)).type = .none)
    (hn : (s.ctxs (.serv k)).n = 0) : Tracked (withServer s (.serv k) fd addrIn) := by
  have hopen : ∀ q, (SockUtil.withServer s (.serv k) fd addrIn).openAt q = s.openAt q := by
    intro q
    rw [SockServer.openAt, SockServer.openAt, withServer_ctxs]
    by_cases hq : q = .serv k
    · simp [hq, hp]
    · rw [if_neg hq]
  refine ⟨fun q => ?_, fun l => ?_, fun l => ?_, fun a => ?_, fun q hq => ?_⟩
  · have honce := h.once q
    rw [OnceEach] at honce ⊢
    rw [withServer_log, hopen, List.filter_append]
    simpa [Action.livesOf] using honce
  · have hcount := h.counted l
    rw [CountsClients] at hcount ⊢
    have hsame : ((SockUtil.withServer s (.serv k) fd addrIn).ctxs (.serv l)).n =
        (s.ctxs (.serv l)).n := by
      rw [withServer_ctxs]
      split_ifs with hl
      · rw [hl, hn]
      · rfl
    rw [hsame, hcount, withServer_log]
    simp [Action.acceptedAt, Action.deductedFrom]
  · rw [withServer_ctxs]
    split_ifs
    · exact SocketType.noConfusion
    · exact h.listening l
  · rw [withServer_ctxs, if_neg CtxPtr.noConfusion]
    exact h.clients a
  · rw [withServer_ctxs] at hq
    split_ifs at hq
    exact h.inUse q hq

/-! ## Compacting -/

/-- What the second loop does with the entries that it places from `i` on. -/
structure Places (s t : SockServer) (entries : List (Int × Option CtxPtr)) (i : ℕ) : Prop where
  before : ∀ j < i, t.ctxPtrs j = s.ctxPtrs j ∧ (t.pollFds j).fd = (s.pollFds j).fd
  entry : ∀ k fd ptr, entries[k]? = some (fd, ptr) →
    t.ctxPtrs (i + k) = ptr ∧ (t.pollFds (i + k)).fd = fd
  place : ∀ k fd p, entries[k]? = some (fd, some p) → (t.ctxs p).i = i + k
  other : ∀ p, (∀ fd, (fd, some p) ∉ entries) → (t.ctxs p).i = (s.ctxs p).i
  same : ∀ p, ∃ j, t.ctxs p = { s.ctxs p with i := j }
  inUse : t.inUse = s.inUse
  log : ∃ ps : List CtxPtr, t.log = s.log ++ ps.map .used

theorem places_placeEntries (entries : List (Int × Option CtxPtr)) (i : ℕ) (s : SockServer)
    (hsome : ∀ e ∈ entries, ∃ p, e.2 = some p) (hnodup : (entries.map Prod.snd).Nodup) :
    Places s (placeEntries s entries i) entries i := by
  induction entries generalizing i s with
  | nil =>
    refine ⟨fun j _ => ⟨rfl, rfl⟩, fun k fd ptr h => ?_, fun k fd p h => ?_, fun p _ => rfl,
      fun p => ⟨(s.ctxs p).i, rfl⟩, rfl, [], (List.append_nil _).symm⟩
    · cases h
    · cases h
  | cons e entries ih =>
    obtain ⟨fd, ptr⟩ := e
    obtain ⟨⟨p, rfl⟩, hrest⟩ := List.forall_mem_cons.mp hsome
    obtain ⟨hnew, hnodup⟩ := List.nodup_cons.mp hnodup
    have hother : ∀ fd, (fd, some p) ∉ entries := fun fd hmem =>
      hnew (List.mem_map.mpr ⟨_, hmem, rfl⟩)
    generalize hs' : ((s.setPollFd i { s.pollFds i with fd := fd }).setCtxPtr i
      (some p)).writeCtx p (fun c => { c with i := i }) = s'
    have hplaced : placeEntries s ((fd, some p) :: entries) i =
        placeEntries s' entries (i + 1) := by
      rw [← hs']
      rfl
    have hctxPtrs : ∀ j, s'.ctxPtrs j = if j = i then some p else s.ctxPtrs j := by
      intro j
      rw [← hs']
      exact Function.update_apply s.ctxPtrs i (some p) j
    have hfds : ∀ j, (s'.pollFds j).fd = if j = i then fd else (s.pollFds j).fd := by
      intro j
      rw [← hs']
      show (Function.update s.pollFds i _ j).fd = _
      rw [Function.update_apply]
      split_ifs
      · rfl
      · rfl
    have hctxs : ∀ q, s'.ctxs q = if q = p then { s.ctxs p with i := i } else s.ctxs q := by
      intro q
      rw [← hs']
      exact Function.update_apply s.ctxs p _ q
    obtain ⟨hbefore, hentry, hplace, hkept, hsame, hinUse, hlog⟩ := ih (i + 1) s' hrest hnodup
    rw [hplaced]
    refine ⟨fun j hj => ?_, fun k fd' ptr h => ?_, fun k fd' q h => ?_, fun q hq => ?_,
      fun q => ?_, ?_, ?_⟩
    · obtain ⟨hptr, hfd⟩ := hbefore j (Nat.lt_succ_of_lt hj)
      rw [hptr, hfd, hctxPtrs, hfds, if_neg (Nat.ne_of_lt hj), if_neg (Nat.ne_of_lt hj)]
      exact ⟨rfl, rfl⟩
    · cases k with
      | zero =>
        cases h
        obtain ⟨hptr, hfd⟩ := hbefore i (Nat.lt_succ_self i)
        rw [hctxPtrs, if_pos rfl] at hptr
        rw [hfds, if_pos rfl] at hfd
        exact ⟨hptr, hfd⟩
      | succ k =>
        have hnext := hentry k fd' ptr h
        rw [Nat.add_right_comm] at hnext
        exact hnext
    · cases k with
      | zero =>
        cases h
        have hkeptp := hkept p hother
        rw [hctxs, if_pos rfl] at hkeptp
        exact hkeptp
      | succ k =>
        rw [hplace k fd' q h, Nat.add_right_comm]
        rfl
    · have hne : q ≠ p := fun heq => hq fd (heq ▸ List.mem_cons_self)
      rw [hkept q fun fd' hmem => hq fd' (List.mem_cons_of_mem _ hmem), hctxs, if_neg hne]
    · obtain ⟨j, hj⟩ := hsame q
      refine ⟨j, ?_⟩
      rw [hj, hctxs]
      split_ifs with hq
      · rw [hq]
      · rfl
    · rw [hinUse, ← hs']
      rfl
    · obtain ⟨ps, hps⟩ := hlog
      refine ⟨p :: ps, ?_⟩
      rw [hps, ← hs']
      simp [SockServer.writeCtx, SockServer.setCtxPtr, SockServer.setPollFd]

/-- The places of the kept entries. -/
def keptPlaces (s : SockServer) : List ℕ :=
  (List.range s.nfds).filter fun i => (s.pollFds i).fd ≠ -1

theorem mem_keptPlaces {i : ℕ} : i ∈ keptPlaces s ↔ i < s.nfds ∧ (s.pollFds i).fd ≠ -1 := by
  rw [keptPlaces, List.mem_filter, List.mem_range, decide_eq_true_iff]

theorem kept_spec (hl : Linked s 0) (hs : Sockets s j) {i : ℕ} (hi : i ∈ keptPlaces s) :
    ∃ p, s.ctxPtrs i = some p ∧ (s.ctxs p).i = i ∧ (s.ctxs p).type ≠ .none ∧
      (s.ctxs p).sockfd = (s.pollFds i).fd := by
  obtain ⟨hlt, hfd⟩ := mem_keptPlaces.mp hi
  rcases hs i hlt with ⟨p, hptr, hsockfd, -⟩ | ⟨-, hcleared, -⟩
  · obtain ⟨hplace, htype⟩ := hl.entry i p (Nat.zero_le i) hlt hptr
    exact ⟨p, hptr, hplace, htype, hsockfd⟩
  · exact absurd hcleared hfd

theorem places_compact (hl : Linked s 0) (hs : Sockets s j) :
    Places s (placeEntries s (keptEntries s) 0) (keptEntries s) 0 := by
  have hmap : (keptEntries s).map Prod.snd = (keptPlaces s).map s.ctxPtrs := by
    rw [keptEntries, List.map_map]
    rfl
  apply places_placeEntries
  · intro e he
    obtain ⟨i, hi, rfl⟩ := List.mem_map.mp he
    obtain ⟨p, hptr, -⟩ := kept_spec hl hs hi
    exact ⟨p, hptr⟩
  · rw [hmap]
    apply List.Nodup.map_on
    · intro i hi i' hi' hsame
      obtain ⟨p, hptr, hplace, -⟩ := kept_spec hl hs hi
      obtain ⟨p', hptr', hplace', -⟩ := kept_spec hl hs hi'
      rw [hptr, hptr', Option.some.injEq] at hsame
      rw [← hplace, ← hplace', hsame]
    · exact List.nodup_range.filter _

theorem length_keptEntries (s : SockServer) : (keptEntries s).length = (keptPlaces s).length :=
  List.length_map _

theorem keptEntries_getElem? {k : ℕ} :
    (keptEntries s)[k]? = (keptPlaces s)[k]?.map fun i => ((s.pollFds i).fd, s.ctxPtrs i) :=
  List.getElem?_map

theorem compact_entry (hl : Linked s 0) (hs : Sockets s j) {k : ℕ}
    (hk : k < (compact s).nfds) :
    ∃ i p, s.ctxPtrs i = some p ∧ (s.ctxs p).type ≠ .none ∧
      (s.ctxs p).sockfd = (s.pollFds i).fd ∧ (s.pollFds i).fd ≠ -1 ∧
        (compact s).ctxPtrs k = some p ∧ ((compact s).pollFds k).fd = (s.pollFds i).fd ∧
          ((compact s).ctxs p).i = k := by
  have hplaces := places_compact hl hs
  have hlt : k < (keptPlaces s).length := by
    rw [← length_keptEntries]
    exact hk
  obtain ⟨p, hptr, -, htype, hsockfd⟩ := kept_spec hl hs (List.getElem_mem hlt)
  have hentry : (keptEntries s)[k]? = some ((s.pollFds (keptPlaces s)[k]).fd, some p) := by
    rw [keptEntries_getElem?, List.getElem?_eq_getElem hlt, Option.map_some, hptr]
  obtain ⟨hnew, hfd⟩ := hplaces.entry k _ _ hentry
  have hi := hplaces.place k _ p hentry
  rw [Nat.zero_add] at hnew hfd hi
  exact ⟨_, p, hptr, htype, hsockfd, (mem_keptPlaces.mp (List.getElem_mem hlt)).2, hnew, hfd, hi⟩

theorem compact_same (hl : Linked s 0) (hs : Sockets s j) (q : CtxPtr) :
    ∃ i, (compact s).ctxs q = { s.ctxs q with i := i } := (places_compact hl hs).same q

theorem keepsLives_compact (hl : Linked s 0) (hs : Sockets s j) : KeepsLives s (compact s) := by
  have hsame := compact_same hl hs
  refine ⟨fun q => ?_, fun q => ?_, fun q => ?_, (places_compact hl hs).inUse,
    (places_compact hl hs).log⟩
  · obtain ⟨i, hi⟩ := hsame q
    rw [hi]
  · obtain ⟨i, hi⟩ := hsame q
    rw [hi]
  · obtain ⟨i, hi⟩ := hsame q
    rw [hi]

theorem linked_compact (hl : Linked s 0) (hs : Sockets s j) : Linked (compact s) 0 := by
  have hlives := keepsLives_compact hl hs
  refine ⟨fun q hq => ?_, fun k q _ hk hptr => ?_⟩
  · rw [hlives.type] at hq
    obtain ⟨-, hlt, hptr⟩ := hl.place q hq
    have hkept : (s.ctxs q).i ∈ keptPlaces s := by
      refine mem_keptPlaces.mpr ⟨hlt, ?_⟩
      rcases hs _ hlt with ⟨_, _, _, hfd⟩ | ⟨hnone, -⟩
      · exact hfd
      · rw [hptr] at hnone
        cases hnone
    obtain ⟨k, hk, hki⟩ := List.mem_iff_getElem.mp hkept
    have hentry : (keptEntries s)[k]? = some ((s.pollFds (s.ctxs q).i).fd, some q) := by
      rw [keptEntries_getElem?, List.getElem?_eq_getElem hk, Option.map_some, hki, hptr]
    have hplace := (places_compact hl hs).place k _ q hentry
    have hnew := ((places_compact hl hs).entry k _ _ hentry).1
    rw [Nat.zero_add] at hplace hnew
    have hi : ((compact s).ctxs q).i = k := hplace
    rw [hi]
    refine ⟨Nat.zero_le k, ?_, hnew⟩
    show k < (keptEntries s).length
    rw [length_keptEntries]
    exact hk
  · obtain ⟨i, p, -, htype, -, -, hnew, -, hplace⟩ := compact_entry hl hs hk
    rw [hnew, Option.some.injEq] at hptr
    rw [← hptr, hlives.type]
    exact ⟨hplace, htype⟩

theorem sockets_compact (hl : Linked s 0) (hs : Sockets s j) : Sockets (compact s) 0 := by
  intro k hk
  obtain ⟨i, p, -, -, hsockfd, hfd, hnew, hnewfd, -⟩ := compact_entry hl hs hk
  obtain ⟨i', hi'⟩ := compact_same hl hs p
  refine .inl ⟨p, hnew, ?_, ?_⟩
  · rw [hi', hnewfd]
    exact hsockfd
  · rw [hnewfd]
    exact hfd

theorem nfds_compact_le (s : SockServer) : (compact s).nfds ≤ s.nfds := by
  show (keptEntries s).length ≤ s.nfds
  rw [length_keptEntries, keptPlaces]
  exact (List.length_filter_le _ _).trans_eq List.length_range

end Presence3DS.Rosalina.SockUtil
