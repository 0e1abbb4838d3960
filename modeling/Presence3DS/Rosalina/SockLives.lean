import Presence3DS.Lib.Lives
import Presence3DS.Rosalina.SockUtil

/-! The lives of the contexts of the socket server, and what closing does to them and to the
table. -/

namespace Presence3DS.Rosalina.SockUtil
open Lives

/-! ## What is to hold -/

/-- Whether the action is a part of the life of the context. -/
def Action.livesOf (p : CtxPtr) : Action → Bool
  | .accepted q _ => q = p
  | .closed q => q = p
  | .freed q => q = p
  | .deducted q _ => q = p
  | .used _ => false

/-- The listening socket of an open client. -/
def SockServer.openAt (s : SockServer) (p : CtxPtr) : Option CtxPtr :=
  if (s.ctxs p).type = .client then some (s.ctxs p).serv else none

/-- The context is closed, freed and deducted from its listening socket once for each time it was
accepted, but for the last time if it is open still. -/
def OnceEach (s : SockServer) (p : CtxPtr) : Prop :=
  InLives (Action.accepted p) (fun q => [.closed p, .freed p, .deducted p q])
    (s.log.filter (Action.livesOf p)) (s.openAt p)

def Action.acceptedAt (q : CtxPtr) : Action → Bool
  | .accepted _ serv => serv = q
  | _ => false

def Action.deductedFrom (q : CtxPtr) : Action → Bool
  | .deducted _ serv => serv = q
  | _ => false

/-- A listening socket counts the clients that were accepted and not yet deducted. -/
def CountsClients (s : SockServer) (q : CtxPtr) : Prop :=
  (s.ctxs q).n = s.log.countP (Action.acceptedAt q) - s.log.countP (Action.deductedFrom q)

def FreedBy (log : List Action) (p : CtxPtr) : Prop :=
  ∃ before after, log = before ++ .freed p :: after ∧ ∀ q, Action.accepted p q ∉ after

def NoUseAfterFree (log : List Action) : Prop :=
  ∀ before after p, log = before ++ .used p :: after → ¬FreedBy before p

variable {s t u : SockServer} {p q : CtxPtr} {i j : ℕ}

/-! ## Logs -/

theorem NoUseAfterFree.of_append {l l' : List Action} (h : NoUseAfterFree (l ++ l')) :
    NoUseAfterFree l ∧ NoUseAfterFree l' := by
  constructor
  · intro before after p heq
    refine h before (after ++ l') p ?_
    rw [heq, List.append_assoc, List.cons_append]
  · intro before after p heq hfreed
    obtain ⟨first, last, rfl, hlast⟩ := hfreed
    refine h (l ++ (first ++ .freed p :: last)) after p ?_ ⟨l ++ first, last, ?_, hlast⟩
    · rw [heq]
      simp only [List.append_assoc]
    · rw [List.append_assoc]

/-- Where something is freed it is used again. -/
def FreesAndUses (log : List Action) : Prop := (∃ p, .freed p ∈ log) → ¬NoUseAfterFree log

theorem FreesAndUses.append {l l' : List Action} (h : FreesAndUses l) (h' : FreesAndUses l') :
    FreesAndUses (l ++ l') := by
  rintro ⟨p, hp⟩ hno
  obtain ⟨hl, hl'⟩ := hno.of_append
  rcases List.mem_append.mp hp with hp | hp
  · exact h ⟨p, hp⟩ hl
  · exact h' ⟨p, hp⟩ hl'

theorem FreesAndUses.of_not_freed {log : List Action} (h : ∀ p, Action.freed p ∉ log) :
    FreesAndUses log := by
  rintro ⟨p, hp⟩
  exact absurd hp (h p)

theorem noUseAfterFree_iff {log : List Action} (h : FreesAndUses log) :
    NoUseAfterFree log ↔ ∀ p, Action.freed p ∉ log := by
  constructor
  · intro hno p hp
    exact h ⟨p, hp⟩ hno
  · rintro hnone before after p rfl ⟨first, last, rfl, -⟩
    exact hnone p (by simp)

/-! ## Writes to a context -/

theorem writeCtx_ctxs (s : SockServer) (p q : CtxPtr) (f : SockCtx → SockCtx) :
    (s.writeCtx p f).ctxs q = if q = p then f (s.ctxs p) else s.ctxs q :=
  Function.update_apply s.ctxs p (f (s.ctxs p)) q

/-- A change that only asks for contexts to be closed. -/
structure Marks (s t : SockServer) : Prop where
  ctxs : ∀ q, ∃ b, t.ctxs q = { s.ctxs q with shouldClose := b }
  ctxPtrs : t.ctxPtrs = s.ctxPtrs
  nfds : t.nfds = s.nfds
  inUse : t.inUse = s.inUse
  compactNeeded : t.compactNeeded = s.compactNeeded
  log : ∃ ps : List CtxPtr, t.log = s.log ++ ps.map .used

namespace Marks

theorem rfl' (s : SockServer) : Marks s s :=
  ⟨fun q => ⟨(s.ctxs q).shouldClose, rfl⟩, rfl, rfl, rfl, rfl, [], (List.append_nil _).symm⟩

theorem trans (h : Marks s t) (h' : Marks t u) : Marks s u := by
  refine ⟨fun q => ?_, h'.ctxPtrs.trans h.ctxPtrs, h'.nfds.trans h.nfds, h'.inUse.trans h.inUse,
    h'.compactNeeded.trans h.compactNeeded, ?_⟩
  · obtain ⟨b, hb⟩ := h.ctxs q
    obtain ⟨b', hb'⟩ := h'.ctxs q
    exact ⟨b', by rw [hb', hb]⟩
  · obtain ⟨ps, hps⟩ := h.log
    obtain ⟨ps', hps'⟩ := h'.log
    exact ⟨ps ++ ps', by rw [hps', hps, List.map_append, List.append_assoc]⟩

theorem setShouldClose (s : SockServer) (p : CtxPtr) : Marks s (setShouldClose s p) := by
  refine ⟨fun q => ?_, rfl, rfl, rfl, rfl, [p], rfl⟩
  rw [SockUtil.setShouldClose, writeCtx_ctxs]
  split_ifs with hq
  · exact ⟨true, by rw [hq]⟩
  · exact ⟨(s.ctxs q).shouldClose, rfl⟩

theorem note_used (s : SockServer) (p : CtxPtr) : Marks s (s.note (.used p)) :=
  ⟨fun q => ⟨(s.ctxs q).shouldClose, rfl⟩, rfl, rfl, rfl, rfl, [p], rfl⟩

theorem foldl {g : SockServer → ℕ → SockServer} (hg : ∀ s i, Marks s (g s i)) (is : List ℕ)
    (s : SockServer) : Marks s (is.foldl g s) := by
  induction is generalizing s with
  | nil => exact rfl' s
  | cons i is ih => exact (hg s i).trans (ih (g s i))

theorem crash (s : SockServer) : Marks s s.crash :=
  ⟨fun q => ⟨(s.ctxs q).shouldClose, rfl⟩, rfl, rfl, rfl, rfl, [], (List.append_nil _).symm⟩

theorem setPollFd (s : SockServer) (i : ℕ) (pollFd : PollFd) : Marks s (s.setPollFd i pollFd) :=
  ⟨fun q => ⟨(s.ctxs q).shouldClose, rfl⟩, rfl, rfl, rfl, rfl, [], (List.append_nil _).symm⟩

theorem serverSetShouldCloseAll (s : SockServer) : Marks s (serverSetShouldCloseAll s) := by
  refine foldl (fun s i => ?_) _ s
  cases s.ctxPtrs i with
  | none => exact crash s
  | some p => exact setShouldClose s p

theorem killConnection (s : SockServer) (i : ℕ) : Marks s (killConnection s i) := by
  rw [SockUtil.killConnection]
  split_ifs with hfd
  · exact rfl' s
  · refine (setPollFd s i { s.pollFds i with fd := -1 }).trans ?_
    show Marks _ ((s.ctxPtrs i).elim _ _)
    cases s.ctxPtrs i with
    | none => exact rfl' _
    | some p => exact setShouldClose _ p

theorem serverKillConnections (s : SockServer) : Marks s (serverKillConnections s) :=
  foldl killConnection _ s

theorem type (h : Marks s t) (q : CtxPtr) : (t.ctxs q).type = (s.ctxs q).type := by
  obtain ⟨b, hb⟩ := h.ctxs q
  rw [hb]

theorem place (h : Marks s t) (q : CtxPtr) : (t.ctxs q).i = (s.ctxs q).i := by
  obtain ⟨b, hb⟩ := h.ctxs q
  rw [hb]

theorem sockfd (h : Marks s t) (q : CtxPtr) : (t.ctxs q).sockfd = (s.ctxs q).sockfd := by
  obtain ⟨b, hb⟩ := h.ctxs q
  rw [hb]

theorem serv (h : Marks s t) (q : CtxPtr) : (t.ctxs q).serv = (s.ctxs q).serv := by
  obtain ⟨b, hb⟩ := h.ctxs q
  rw [hb]

theorem n (h : Marks s t) (q : CtxPtr) : (t.ctxs q).n = (s.ctxs q).n := by
  obtain ⟨b, hb⟩ := h.ctxs q
  rw [hb]

end Marks

/-! ## Closing a context -/

/-- What `server_close_ctx` does to contexts. -/
def closeLog (s : SockServer) (p : CtxPtr) : List Action :=
  (if (s.ctxs p).type = .client then
    [.closed p, .freed p, .used p, .deducted p (s.ctxs p).serv, .used (s.ctxs p).serv] else []) ++
      [.used p]

theorem serverCloseCtx_log (s : SockServer) (p : CtxPtr) :
    (serverCloseCtx s p).log = s.log ++ closeLog s p := by
  rw [closeLog]
  simp only [serverCloseCtx]
  split_ifs
  · simp [closeClient, closeCb, SockServer.note, SockServer.writeCtx, SockServer.setPollFd,
      SockServer.setCtxPtr]
  · simp [SockServer.writeCtx, SockServer.setPollFd, SockServer.setCtxPtr]

theorem closeClient_ctxs (s : SockServer) (p q : CtxPtr) :
    (closeClient s p).ctxs q =
      if q = (s.ctxs p).serv then { s.ctxs q with n := (s.ctxs q).n - 1 } else s.ctxs q := by
  rw [closeClient]
  dsimp only
  rw [writeCtx_ctxs]
  split_ifs with hq
  · rw [hq]
    rfl
  · rfl

theorem serverCloseCtx_ctxs (s : SockServer) (p q : CtxPtr) :
    (serverCloseCtx s p).ctxs q =
      { s.ctxs q with
        n := if (s.ctxs p).type = .client ∧ q = (s.ctxs p).serv then (s.ctxs q).n - 1
          else (s.ctxs q).n
        shouldClose := if q = p then false else (s.ctxs q).shouldClose
        type := if q = p then .none else (s.ctxs q).type } := by
  have hclose : (serverCloseCtx s p).ctxs q =
      ((if (s.ctxs p).type = .client then closeClient s p else s).writeCtx p
        fun c => { c with shouldClose := false, type := .none }).ctxs q := rfl
  rw [hclose, writeCtx_ctxs]
  by_cases hclient : (s.ctxs p).type = .client
  · rw [if_pos hclient, closeClient_ctxs, closeClient_ctxs]
    simp only [hclient, true_and]
    by_cases hq : q = p
    · subst hq
      simp only [if_true]
      split_ifs
      · rfl
      · rfl
    · simp only [if_neg hq]
      split_ifs
      · rfl
      · rfl
  · simp only [hclient, if_false, false_and]
    split_ifs with hq
    · subst hq
      rfl
    · rfl

theorem serverCloseCtx_inUse (s : SockServer) (p q : CtxPtr) :
    (serverCloseCtx s p).inUse q =
      if (s.ctxs p).type = .client ∧ q = p then false else s.inUse q := by
  show (if (s.ctxs p).type = .client then closeClient s p else s).inUse q = _
  by_cases hclient : (s.ctxs p).type = .client
  · simp only [hclient, if_true, true_and]
    exact Function.update_apply s.inUse p false q
  · simp only [hclient, if_false, false_and]

theorem serverCloseCtx_ctxPtrs (s : SockServer) (p : CtxPtr) (i : ℕ) :
    (serverCloseCtx s p).ctxPtrs i = if i = (s.ctxs p).i then none else s.ctxPtrs i := by
  show Function.update (if (s.ctxs p).type = .client then closeClient s p else s).ctxPtrs
    (s.ctxs p).i none i = _
  rw [Function.update_apply]
  split_ifs
  · rfl
  · rfl
  · rfl

theorem serverCloseCtx_pollFds (s : SockServer) (p : CtxPtr) (i : ℕ) :
    (serverCloseCtx s p).pollFds i =
      if i = (s.ctxs p).i then ⟨-1, false, ⟨false, false⟩⟩ else s.pollFds i := by
  show Function.update (if (s.ctxs p).type = .client then closeClient s p else s).pollFds
    (s.ctxs p).i _ i = _
  rw [Function.update_apply]
  split_ifs
  · rfl
  · rfl
  · rfl

theorem serverCloseCtx_nfds (s : SockServer) (p : CtxPtr) : (serverCloseCtx s p).nfds = s.nfds := by
  show (if (s.ctxs p).type = .client then closeClient s p else s).nfds = _
  split_ifs
  · rfl
  · rfl

theorem freesAndUses_closeLog (s : SockServer) (p : CtxPtr) : FreesAndUses (closeLog s p) := by
  rw [closeLog]
  split_ifs with hclient
  · intro _ hno
    refine hno [.closed p, .freed p] [.deducted p (s.ctxs p).serv, .used (s.ctxs p).serv, .used p]
      p rfl ⟨[.closed p], [], rfl, ?_⟩
    exact fun q => List.not_mem_nil
  · apply FreesAndUses.of_not_freed
    simp

theorem freed_mem_closeLog_iff (s : SockServer) (p : CtxPtr) :
    (∃ q, Action.freed q ∈ closeLog s p) ↔ (s.ctxs p).type = .client := by
  rw [closeLog]
  split_ifs with hclient
  · exact iff_of_true ⟨p, by simp⟩ hclient
  · refine iff_of_false ?_ hclient
    simp

/-! ## What one step keeps -/

/-- The lives of the contexts. A context of a client in use is flagged. -/
structure Tracked (s : SockServer) : Prop where
  once : ∀ p, OnceEach s p
  counted : ∀ k, CountsClients s (.serv k)
  listening : ∀ k, (s.ctxs (.serv k)).type ≠ .client
  clients : ∀ a, (s.ctxs (.client a)).type ≠ .server
  inUse : ∀ p, (s.ctxs p).type = .client → s.inUse p = true

/-- From the entry `j` on, the contexts that are open and the entries know one another. -/
structure Linked (s : SockServer) (j : ℕ) : Prop where
  place : ∀ p, (s.ctxs p).type ≠ .none →
    j ≤ (s.ctxs p).i ∧ (s.ctxs p).i < s.nfds ∧ s.ctxPtrs (s.ctxs p).i = some p
  entry : ∀ i p, j ≤ i → i < s.nfds → s.ctxPtrs i = some p →
    (s.ctxs p).i = i ∧ (s.ctxs p).type ≠ .none

/-- Every entry has its socket, or was cleared before the entry `j` was come to. -/
def Sockets (s : SockServer) (j : ℕ) : Prop :=
  ∀ i < s.nfds,
    (∃ p, s.ctxPtrs i = some p ∧ (s.ctxs p).sockfd = (s.pollFds i).fd ∧ (s.pollFds i).fd ≠ -1) ∨
      (s.ctxPtrs i = none ∧ (s.pollFds i).fd = -1 ∧ i < j ∧ s.compactNeeded = true)

/-- A change that leaves the lives of the contexts as they are. -/
structure KeepsLives (s t : SockServer) : Prop where
  type : ∀ q, (t.ctxs q).type = (s.ctxs q).type
  serv : ∀ q, (t.ctxs q).serv = (s.ctxs q).serv
  n : ∀ q, (t.ctxs q).n = (s.ctxs q).n
  inUse : t.inUse = s.inUse
  log : ∃ ps : List CtxPtr, t.log = s.log ++ ps.map .used

namespace KeepsLives

theorem openAt (h : KeepsLives s t) (p : CtxPtr) : t.openAt p = s.openAt p := by
  rw [SockServer.openAt, SockServer.openAt, h.type, h.serv]

theorem filter_livesOf (h : KeepsLives s t) (p : CtxPtr) :
    t.log.filter (Action.livesOf p) = s.log.filter (Action.livesOf p) := by
  obtain ⟨ps, hps⟩ := h.log
  have hnone : (ps.map Action.used).filter (Action.livesOf p) = [] :=
    List.filter_eq_nil_iff.mpr (by simp [Action.livesOf])
  rw [hps, List.filter_append, hnone, List.append_nil]

theorem tracked (h : KeepsLives s t) (hs : Tracked s) : Tracked t := by
  refine ⟨fun p => ?_, fun k => ?_, fun k => ?_, fun a => ?_, fun p hp => ?_⟩
  · rw [OnceEach, h.filter_livesOf, h.openAt]
    exact hs.once p
  · obtain ⟨ps, hps⟩ := h.log
    have haccepted : (ps.map Action.used).countP (Action.acceptedAt (.serv k)) = 0 := by
      simp [List.countP_eq_zero, Action.acceptedAt]
    have hdeducted : (ps.map Action.used).countP (Action.deductedFrom (.serv k)) = 0 := by
      simp [List.countP_eq_zero, Action.deductedFrom]
    rw [CountsClients, h.n, hps, List.countP_append, List.countP_append, haccepted, hdeducted]
    exact hs.counted k
  · rw [h.type]
    exact hs.listening k
  · rw [h.type]
    exact hs.clients a
  · rw [h.type] at hp
    rw [h.inUse]
    exact hs.inUse p hp

end KeepsLives

namespace Marks

theorem keepsLives (h : Marks s t) : KeepsLives s t := ⟨h.type, h.serv, h.n, h.inUse, h.log⟩

theorem linked (h : Marks s t) (hs : Linked s j) : Linked t j := by
  refine ⟨fun p hp => ?_, fun i p hj hi hptr => ?_⟩
  · rw [h.type] at hp
    rw [h.place, h.nfds, h.ctxPtrs]
    exact hs.place p hp
  · rw [h.nfds] at hi
    rw [h.ctxPtrs] at hptr
    rw [h.place, h.type]
    exact hs.entry i p hj hi hptr

theorem sockets (h : Marks s t) (hfd : ∀ i, (t.pollFds i).fd = (s.pollFds i).fd)
    (hs : Sockets s j) : Sockets t j := by
  intro i hi
  rw [h.nfds] at hi
  rw [h.ctxPtrs, hfd, h.compactNeeded]
  refine (hs i hi).imp_left ?_
  rintro ⟨p, hptr, hsockfd⟩
  refine ⟨p, hptr, ?_⟩
  rw [h.sockfd]
  exact hsockfd

end Marks

/-! ### Closing -/

theorem serverCloseCtx_type (s : SockServer) (p q : CtxPtr) :
    ((serverCloseCtx s p).ctxs q).type = if q = p then .none else (s.ctxs q).type := by
  rw [serverCloseCtx_ctxs]

theorem serverCloseCtx_i (s : SockServer) (p q : CtxPtr) :
    ((serverCloseCtx s p).ctxs q).i = (s.ctxs q).i := by
  rw [serverCloseCtx_ctxs]

theorem serverCloseCtx_sockfd (s : SockServer) (p q : CtxPtr) :
    ((serverCloseCtx s p).ctxs q).sockfd = (s.ctxs q).sockfd := by
  rw [serverCloseCtx_ctxs]

theorem openAt_serverCloseCtx (s : SockServer) (p q : CtxPtr) :
    (serverCloseCtx s p).openAt q = if q = p then none else s.openAt q := by
  rw [SockServer.openAt, SockServer.openAt, serverCloseCtx_ctxs]
  dsimp only
  split_ifs with hq h
  · cases h
  · rfl
  · rfl
  · rfl

theorem filter_livesOf_closeLog (s : SockServer) (p q : CtxPtr) :
    (closeLog s p).filter (Action.livesOf q) =
      if q = p ∧ (s.ctxs p).type = .client then
        [.closed p, .freed p, .deducted p (s.ctxs p).serv] else [] := by
  rw [closeLog]
  by_cases hclient : (s.ctxs p).type = .client
  · by_cases hq : q = p
    · simp [hclient, hq, Action.livesOf]
    · simp [hclient, hq, Ne.symm hq, Action.livesOf]
  · simp [hclient, Action.livesOf]

theorem OnceEach.serverCloseCtx (h : OnceEach s q) (p : CtxPtr) :
    OnceEach (serverCloseCtx s p) q := by
  rw [OnceEach, serverCloseCtx_log, List.filter_append, filter_livesOf_closeLog,
    openAt_serverCloseCtx]
  rw [OnceEach] at h
  by_cases hq : q = p
  · subst hq
    rw [if_pos rfl]
    by_cases hclient : (s.ctxs q).type = .client
    · rw [if_pos ⟨rfl, hclient⟩]
      rw [SockServer.openAt, if_pos hclient] at h
      exact h.closed
    · rw [if_neg fun hc => hclient hc.2, List.append_nil]
      rw [SockServer.openAt, if_neg hclient] at h
      exact h
  · rw [if_neg hq, if_neg fun hc => hq hc.1, List.append_nil]
    exact h

theorem countP_closeLog_accepted (s : SockServer) (p q : CtxPtr) :
    (closeLog s p).countP (Action.acceptedAt q) = 0 := by
  rw [closeLog]
  split_ifs
  · simp [Action.acceptedAt]
  · simp [Action.acceptedAt]

theorem countP_closeLog_deducted (s : SockServer) (p q : CtxPtr) :
    (closeLog s p).countP (Action.deductedFrom q) =
      if (s.ctxs p).type = .client ∧ q = (s.ctxs p).serv then 1 else 0 := by
  rw [closeLog]
  by_cases hclient : (s.ctxs p).type = .client
  · by_cases hq : q = (s.ctxs p).serv
    · simp [hclient, hq, Action.deductedFrom]
    · simp [hclient, hq, Ne.symm hq, Action.deductedFrom]
  · simp [hclient, Action.deductedFrom]

theorem CountsClients.serverCloseCtx (h : CountsClients s q) (p : CtxPtr) :
    CountsClients (serverCloseCtx s p) q := by
  rw [CountsClients] at h
  rw [CountsClients, serverCloseCtx_log, List.countP_append, List.countP_append,
    countP_closeLog_accepted, countP_closeLog_deducted, serverCloseCtx_ctxs]
  dsimp only
  split_ifs
  · rw [h]
    omega
  · exact h

theorem Tracked.serverCloseCtx (h : Tracked s) (p : CtxPtr) : Tracked (serverCloseCtx s p) := by
  have htype : ∀ {q ty}, ((SockUtil.serverCloseCtx s p).ctxs q).type = ty → ty ≠ .none →
      q ≠ p ∧ (s.ctxs q).type = ty := by
    intro q ty hty hne
    rw [serverCloseCtx_type] at hty
    split_ifs at hty with hq
    · exact absurd hty.symm hne
    · exact ⟨hq, hty⟩
  refine ⟨fun q => (h.once q).serverCloseCtx p, fun k => (h.counted k).serverCloseCtx p,
    fun k hk => ?_, fun a ha => ?_, fun q hq => ?_⟩
  · exact h.listening k (htype hk SocketType.noConfusion).2
  · exact h.clients a (htype ha SocketType.noConfusion).2
  · obtain ⟨hne, hclient⟩ := htype hq SocketType.noConfusion
    rw [serverCloseCtx_inUse, if_neg fun hc => hne hc.2]
    exact h.inUse q hclient

theorem Linked.serverCloseCtx (h : Linked s j) (hj : j ≤ i) (hi : i < s.nfds)
    (hp : s.ctxPtrs i = some p) : Linked (serverCloseCtx s p) j := by
  obtain ⟨hplace, -⟩ := h.entry i p hj hi hp
  refine ⟨fun q hq => ?_, fun i' q hj' hi' hptr => ?_⟩
  · rw [serverCloseCtx_type] at hq
    have hne : q ≠ p := fun heq => hq (if_pos heq)
    rw [if_neg hne] at hq
    obtain ⟨hle, hlt, hptr⟩ := h.place q hq
    have hother : (s.ctxs q).i ≠ i := fun heq => by
      rw [heq, hp] at hptr
      exact hne (Option.some.inj hptr).symm
    rw [serverCloseCtx_i, serverCloseCtx_nfds, serverCloseCtx_ctxPtrs, hplace, if_neg hother]
    exact ⟨hle, hlt, hptr⟩
  · rw [serverCloseCtx_nfds] at hi'
    rw [serverCloseCtx_ctxPtrs, hplace] at hptr
    split_ifs at hptr with hsame
    obtain ⟨hq, htype⟩ := h.entry i' q hj' hi' hptr
    have hne : q ≠ p := fun heq => by
      rw [heq, hplace] at hq
      exact hsame hq.symm
    rw [serverCloseCtx_i, serverCloseCtx_type, if_neg hne]
    exact ⟨hq, htype⟩

theorem Linked.succ (h : Linked s j) (hnone : s.ctxPtrs j = none) : Linked s (j + 1) := by
  refine ⟨fun q hq => ?_, fun i q hj => h.entry i q (Nat.le_of_succ_le hj)⟩
  obtain ⟨hle, hlt, hptr⟩ := h.place q hq
  refine ⟨lt_of_le_of_ne hle fun heq => ?_, hlt, hptr⟩
  rw [← heq, hnone] at hptr
  cases hptr

theorem Linked.type_of_le (h : Linked s j) (hj : s.nfds ≤ j) (q : CtxPtr) :
    (s.ctxs q).type = .none := by
  by_contra hq
  obtain ⟨hle, hlt, -⟩ := h.place q hq
  exact absurd (hj.trans hle) (not_le.mpr hlt)

theorem linked_of_types (htype : ∀ q, (s.ctxs q).type = .none) (hj : s.nfds ≤ j) : Linked s j :=
  ⟨fun q hq => absurd (htype q) hq, fun _ _ hle hlt => absurd (hj.trans hle) (not_le.mpr hlt)⟩

/-! ### Finalizing -/

theorem Linked.finalizeEntry (h : Linked s j) : Linked (finalizeEntry s j) (j + 1) := by
  rw [SockUtil.finalizeEntry]
  cases hptr : s.ctxPtrs j with
  | none => exact h.succ hptr
  | some p =>
    show Linked (SockUtil.serverCloseCtx s p) (j + 1)
    by_cases hj : j < s.nfds
    · obtain ⟨hplace, -⟩ := h.entry j p le_rfl hj hptr
      refine (h.serverCloseCtx le_rfl hj hptr).succ ?_
      rw [serverCloseCtx_ctxPtrs, if_pos hplace.symm]
    · -- A pointer that compacting has left behind.
      apply linked_of_types
      · intro q
        rw [serverCloseCtx_type, h.type_of_le (not_lt.mp hj), ite_self]
      · rw [serverCloseCtx_nfds]
        exact Nat.le_succ_of_le (not_lt.mp hj)

theorem Tracked.finalizeEntry (h : Tracked s) (j : ℕ) : Tracked (finalizeEntry s j) := by
  rw [SockUtil.finalizeEntry]
  cases s.ctxPtrs j with
  | none => exact h
  | some p => exact h.serverCloseCtx p

theorem finalizeEntry_nfds (s : SockServer) (j : ℕ) : (finalizeEntry s j).nfds = s.nfds := by
  rw [finalizeEntry]
  cases s.ctxPtrs j with
  | none => rfl
  | some p => exact serverCloseCtx_nfds s p

theorem finalizeEntries (hs : Tracked s) (hl : Linked s 0) (n : ℕ) :
    Tracked ((List.range n).foldl finalizeEntry s) ∧
      Linked ((List.range n).foldl finalizeEntry s) n ∧
        ((List.range n).foldl finalizeEntry s).nfds = s.nfds := by
  induction n with
  | zero => exact ⟨hs, hl, rfl⟩
  | succ n ih =>
    obtain ⟨htracked, hlinked, hnfds⟩ := ih
    rw [List.range_succ, List.foldl_append]
    exact ⟨htracked.finalizeEntry n, hlinked.finalizeEntry, (finalizeEntry_nfds _ n).trans hnfds⟩

theorem type_serverFinalize (hs : Tracked s) (hl : Linked s 0) (hroom : s.nfds ≤ maxCtxs)
    (p : CtxPtr) : ((serverFinalize s).ctxs p).type = .none := by
  obtain ⟨-, hlinked, hnfds⟩ := finalizeEntries hs hl maxCtxs
  exact hlinked.type_of_le (hnfds ▸ hroom) p

end Presence3DS.Rosalina.SockUtil
