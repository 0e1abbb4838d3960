import Presence3DS.Lib.Runs
import Presence3DS.Rosalina.SockEntries

/-! The table of the socket server over whole runs: the entries that are visited, the lives of the
contexts, and what is used after it was freed. -/

namespace Presence3DS.Rosalina.SockUtil
open Lives Runs

/-! ## What is to hold -/

/-- The entry has a context that knows its place and the socket. -/
def Occupied (s : SockServer) (i : ℕ) : Prop :=
  ∃ p, s.ctxPtrs i = some p ∧ (s.ctxs p).i = i ∧ (s.ctxs p).sockfd = (s.pollFds i).fd

/-- The table and the lives of the contexts; once the server is finalized, no client is open. -/
structure TableHolds (m : ServerRun) : Prop where
  visited : ∀ i, m.phase = .visiting i → i < m.serv.nfds → Occupied m.serv i
  once : ∀ p, OnceEach m.serv p
  counted : ∀ k, CountsClients m.serv (.serv k)
  finalized : m.phase = .finalized → ∀ p, m.serv.openAt p = none

/-! ## The conditions -/

/-- A bind that succeeds finds room, and the accept callback does not fail. -/
def Sound (m : ServerRun) : Event → Prop
  | .bind _ e => Binds e → HasRoom m.serv
  | .visit e => e.acceptCb ≠ -1
  | _ => True

/-- An entry of a client, on which the server hangs up. -/
def HangsUp (s : SockServer) (i : ℕ) (e : VisitAnswers) : Prop :=
  ∃ p, s.ctxPtrs i = some p ∧ (s.ctxs p).type = .client ∧
    ((s.pollFds i).revents.hup = true ∨ (s.ctxs p).shouldClose = true ∨
      (s.pollFds i).revents.pollin = true ∧ e.dataCb = -1)

/-- No client is closed. -/
def KeepsClients (m : ServerRun) : Event → Prop
  | .visit e => ∀ i, m.phase = .visiting i → i < m.serv.nfds → ¬HangsUp m.serv i e
  | .finalize => ∀ p, (m.serv.ctxs p).type ≠ .client
  | _ => True

variable {s t u : SockServer} {p q curr new : CtxPtr} {i j : ℕ} {fd : Int}
  {peer addrIn : SockaddrIn}

/-! ## What is freed -/

/-- A step that frees a context exactly where the condition holds, and then uses it again. -/
def Frees (s t : SockServer) (C : Prop) : Prop :=
  ∃ new, t.log = s.log ++ new ∧ FreesAndUses new ∧ ((∃ p, Action.freed p ∈ new) ↔ C)

theorem Frees.trans {C D : Prop} (h : Frees s t C) (h' : Frees t u D) : Frees s u (C ∨ D) := by
  obtain ⟨new, hlog, huses, hfreed⟩ := h
  obtain ⟨new', hlog', huses', hfreed'⟩ := h'
  refine ⟨new ++ new', ?_, huses.append huses', ?_⟩
  · rw [hlog', hlog, List.append_assoc]
  · simp only [List.mem_append, exists_or, hfreed, hfreed']

theorem Frees.congr {C D : Prop} (h : Frees s t C) (hCD : C ↔ D) : Frees s t D := by
  obtain ⟨new, hlog, huses, hfreed⟩ := h
  exact ⟨new, hlog, huses, hfreed.trans hCD⟩

theorem Frees.after {C : Prop} (h : Frees s t False) (h' : Frees t u C) : Frees s u C :=
  (h.trans h').congr (Iff.of_eq (false_or C))

theorem Frees.of_not {C : Prop} (h : Frees s t False) (hC : ¬C) : Frees s t C :=
  h.congr (iff_of_false id hC)

theorem Frees.of_not_freed {new : List Action} (hlog : t.log = s.log ++ new)
    (h : ∀ p, Action.freed p ∉ new) : Frees s t False :=
  ⟨new, hlog, .of_not_freed h, iff_of_false (fun ⟨p, hp⟩ => h p hp) id⟩

theorem KeepsLives.frees (h : KeepsLives s t) : Frees s t False := by
  obtain ⟨ps, hps⟩ := h.log
  refine .of_not_freed hps ?_
  simp

theorem frees_serverCloseCtx (s : SockServer) (p : CtxPtr) :
    Frees s (serverCloseCtx s p) ((s.ctxs p).type = .client) :=
  ⟨closeLog s p, serverCloseCtx_log s p, freesAndUses_closeLog s p, freed_mem_closeLog_iff s p⟩

theorem frees_withClient : Frees s (withClient s curr new fd peer) False :=
  .of_not_freed withClient_log (by simp)

theorem frees_withServer : Frees s (withServer s p fd addrIn) False :=
  .of_not_freed withServer_log (by simp)

theorem frees_finalizeEntries (s : SockServer) (n : ℕ) :
    (∀ q, (((List.range n).foldl finalizeEntry s).ctxs q).type = .none ∨
      (((List.range n).foldl finalizeEntry s).ctxs q).type = (s.ctxs q).type) ∧
    Frees s ((List.range n).foldl finalizeEntry s) (∃ q, (s.ctxs q).type = .client ∧
      (((List.range n).foldl finalizeEntry s).ctxs q).type ≠ .client) := by
  induction n with
  | zero =>
    refine ⟨fun q => .inr rfl, .congr (.of_not_freed (List.append_nil _).symm ?_) ?_⟩
    · exact fun p => List.not_mem_nil
    · exact iff_of_false id fun ⟨q, h, h'⟩ => h' h
  | succ n ih =>
    rw [List.range_succ, List.foldl_append]
    generalize (List.range n).foldl finalizeEntry s = t at ih ⊢
    obtain ⟨htypes, hfrees⟩ := ih
    rw [List.foldl_cons, List.foldl_nil, finalizeEntry]
    cases t.ctxPtrs n with
    | none => exact ⟨htypes, hfrees⟩
    | some p =>
      simp only [Option.elim_some, serverCloseCtx_type]
      refine ⟨fun q => ?_, (hfrees.trans (frees_serverCloseCtx t p)).congr ⟨?_, ?_⟩⟩
      · split_ifs
        · exact .inl rfl
        · exact htypes q
      · rintro (⟨q, hq, hclosed⟩ | hp)
        · refine ⟨q, hq, ?_⟩
          split_ifs
          · exact SocketType.noConfusion
          · exact hclosed
        · refine ⟨p, ?_, ?_⟩
          · rcases htypes p with hnone | hsame
            · rw [hnone] at hp
              cases hp
            · exact hsame.symm.trans hp
          · rw [if_pos rfl]
            exact SocketType.noConfusion
      · rintro ⟨q, hq, hclosed⟩
        by_cases hopen : (t.ctxs q).type = .client
        · split_ifs at hclosed with hqp
          · exact .inr (hqp ▸ hopen)
          · exact absurd hopen hclosed
        · exact .inl ⟨q, hq, hopen⟩

theorem frees_serverFinalize (hs : Tracked s) (hl : Linked s 0) (hroom : s.nfds ≤ maxCtxs) :
    Frees s (serverFinalize s) (¬∀ p, (s.ctxs p).type ≠ .client) := by
  refine (frees_finalizeEntries s maxCtxs).2.congr ?_
  rw [not_forall_not]
  refine exists_congr fun q => and_iff_left ?_
  show ((serverFinalize s).ctxs q).type ≠ .client
  rw [type_serverFinalize hs hl hroom]
  exact SocketType.noConfusion

/-! ## Runs -/

structure Settled (s : SockServer) : Prop where
  tracked : Tracked s
  linked : Linked s 0
  room : s.nfds ≤ maxCtxs

/-- The server where the entry `j` is next. -/
structure Ready (s : SockServer) (j : ℕ) : Prop extends Settled s where
  sockets : Sockets s j

theorem Settled.marks (h : Settled s) (hm : Marks s t) : Settled t := by
  refine ⟨hm.keepsLives.tracked h.tracked, hm.linked h.linked, ?_⟩
  rw [hm.nfds]
  exact h.room

theorem Ready.marks (h : Ready s j) (hm : Marks s t)
    (hfd : ∀ i, (t.pollFds i).fd = (s.pollFds i).fd) : Ready t j :=
  ⟨h.toSettled.marks hm, hm.sockets hfd h.sockets⟩

theorem Sockets.mono (h : Sockets s j) (hj : j ≤ i) : Sockets s i := fun k hk =>
  (h k hk).imp_right fun ⟨hptr, hfd, hlt, hcompact⟩ => ⟨hptr, hfd, hlt.trans_le hj, hcompact⟩

theorem Sockets.serverCloseCtx (h : Sockets s i) (hplace : (s.ctxs p).i = i) :
    Sockets (serverCloseCtx s p) (i + 1) := by
  intro k hk
  rw [serverCloseCtx_nfds] at hk
  rw [serverCloseCtx_ctxPtrs, serverCloseCtx_pollFds, hplace]
  by_cases hki : k = i
  · rw [if_pos hki, if_pos hki]
    exact .inr ⟨rfl, rfl, hki ▸ Nat.lt_succ_self k, rfl⟩
  · rw [if_neg hki, if_neg hki]
    rcases h k hk with ⟨q, hptr, hsockfd⟩ | ⟨hptr, hfd, hlt, -⟩
    · refine .inl ⟨q, hptr, ?_⟩
      rw [serverCloseCtx_sockfd]
      exact hsockfd
    · exact .inr ⟨hptr, hfd, Nat.lt_succ_of_lt hlt, rfl⟩

theorem Ready.serverCloseCtx (h : Ready s i) (hi : i < s.nfds) (hp : s.ctxPtrs i = some p) :
    Ready (serverCloseCtx s p) (i + 1) := by
  obtain ⟨hplace, -⟩ := h.linked.entry i p (Nat.zero_le i) hi hp
  refine ⟨⟨h.tracked.serverCloseCtx p, h.linked.serverCloseCtx (Nat.zero_le i) hi hp, ?_⟩,
    h.sockets.serverCloseCtx hplace⟩
  rw [serverCloseCtx_nfds]
  exact h.room

theorem Ready.grows (h : Ready s j) (hg : Grows s t p) (ht : Tracked t)
    (hroom : s.nfds < maxCtxs) : Ready t j := by
  refine ⟨⟨ht, hg.linked h.linked, ?_⟩, hg.sockets h.linked h.sockets⟩
  rw [hg.nfds]
  exact hroom

theorem Ready.acceptClient (h : Ready s j) {k : ℕ} {e : VisitAnswers} (he : e.acceptCb ≠ -1) :
    Ready (acceptClient s (.serv k) e) j ∧ Frees s (acceptClient s (.serv k) e) False := by
  rcases acceptClient_cases s (.serv k) he with hsame | ⟨a, hfree, hfd, hroom, hnew⟩
  · rw [hsame]
    exact ⟨h, .of_not_freed (List.append_nil _).symm fun p => List.not_mem_nil⟩
  · rw [hnew]
    refine ⟨h.grows (grows_withClient CtxPtr.noConfusion (h.tracked.type_of_free hfree) hfd)
      (h.tracked.withClient hfree) ?_, frees_withClient⟩
    exact Nat.lt_of_le_of_ne h.room hroom

theorem Ready.serverBind (h : Ready s j) {port : ℕ} {e : BindAnswers}
    (he : Binds e → HasRoom s) :
    Ready (serverBind s port e) j ∧ Frees s (serverBind s port e) False := by
  rcases serverBind_cases s port e he with ⟨init, term, hsame⟩ |
    ⟨p, fd, addrIn, hfd, hroom, hp, hn, hnew⟩
  · rw [hsame]
    have hm : Marks s { s with initResult := init, shallTerminate := term } :=
      ⟨fun q => ⟨(s.ctxs q).shouldClose, rfl⟩, rfl, rfl, rfl, rfl, [], (List.append_nil _).symm⟩
    exact ⟨h.marks hm fun _ => rfl, hm.keepsLives.frees⟩
  · rw [hnew]
    obtain ⟨⟨k, rfl⟩, htype⟩ := serverAllocServerCtx_spec hp
    exact ⟨h.grows (grows_withServer htype hfd) (h.tracked.withServer htype hn) hroom,
      frees_withServer⟩

theorem Ready.visitEntry (h : Ready s i) (hi : i < s.nfds) {e : VisitAnswers}
    (he : e.acceptCb ≠ -1) :
    Ready (visitEntry s i e).1 (i + 1) ∧ Frees s (visitEntry s i e).1 (HangsUp s i e) := by
  obtain ⟨p, hptr, -⟩ := (h.sockets i hi).resolve_right fun hcleared =>
    Nat.lt_irrefl i hcleared.2.2.1
  have htype := (h.linked.entry i p (Nat.zero_le i) hi hptr).2
  have hhangs : HangsUp s i e ↔ (s.ctxs p).type = .client ∧
      ((s.pollFds i).revents.hup = true ∨ (s.ctxs p).shouldClose = true ∨
        (s.pollFds i).revents.pollin = true ∧ e.dataCb = -1) := by
    constructor
    · rintro ⟨q, hq, hhang⟩
      cases hptr.symm.trans hq
      exact hhang
    · intro hhang
      exact ⟨p, hptr, hhang⟩
  have hvisit : SockUtil.visitEntry s i e =
      if (s.pollFds i).revents.hup || (s.ctxs p).shouldClose then
        (SockUtil.serverCloseCtx (s.note (.used p)) p, true)
      else if (s.pollFds i).revents.pollin then
        if (s.ctxs p).type = .server then
          if s.shallTerminate then (s.note (.used p), false)
          else (SockUtil.acceptClient (s.note (.used p)) p e, true)
        else if e.dataCb = -1 then (SockUtil.serverCloseCtx (s.note (.used p)) p, true)
        else (s.note (.used p), true)
      else (s.note (.used p), true) := by
    rw [SockUtil.visitEntry, hptr]
    rfl
  have hnote := Marks.note_used s p
  have hready : Ready (s.note (.used p)) i := h.marks hnote fun _ => rfl
  have hstays : Ready (s.note (.used p)) (i + 1) :=
    ⟨hready.toSettled, hready.sockets.mono (Nat.le_succ i)⟩
  have hquiet : Frees s (s.note (.used p)) False := hnote.keepsLives.frees
  have hclose := hready.serverCloseCtx hi hptr
  have hfrees : Frees s (SockUtil.serverCloseCtx (s.note (.used p)) p)
      ((s.ctxs p).type = .client) := hquiet.after (frees_serverCloseCtx _ p)
  rw [hvisit]
  split_ifs with hhup hpollin hserver hterm hdata
  · refine ⟨hclose, hfrees.congr (hhangs.trans (and_iff_left ?_)).symm⟩
    rw [← or_assoc]
    exact .inl (Bool.or_eq_true_iff.mp hhup)
  · refine ⟨hstays, hquiet.of_not fun hh => ?_⟩
    exact SocketType.noConfusion ((hhangs.mp hh).1.symm.trans hserver)
  · obtain ⟨k, rfl⟩ : ∃ k, p = .serv k := by
      cases p with
      | serv k => exact ⟨k, rfl⟩
      | client a => exact absurd hserver (h.tracked.clients a)
    obtain ⟨haccept, hnone⟩ := hstays.acceptClient he
    refine ⟨haccept, (hquiet.after hnone).of_not fun hh => ?_⟩
    exact SocketType.noConfusion ((hhangs.mp hh).1.symm.trans hserver)
  · refine ⟨hclose, hfrees.congr (hhangs.trans (and_iff_left ?_)).symm⟩
    exact .inr (.inr ⟨hpollin, hdata⟩)
  · refine ⟨hstays, hquiet.of_not fun hh => ?_⟩
    rw [Bool.or_eq_true_iff, not_or] at hhup
    rcases (hhangs.mp hh).2 with hh | hh | ⟨-, hh⟩
    · exact hhup.1 hh
    · exact hhup.2 hh
    · exact hdata hh
  · refine ⟨hstays, hquiet.of_not fun hh => ?_⟩
    rw [Bool.or_eq_true_iff, not_or] at hhup
    rcases (hhangs.mp hh).2 with hh | hh | ⟨hh, -⟩
    · exact hhup.1 hh
    · exact hhup.2 hh
    · exact hpollin hh

/-- What holds of the server in each phase. -/
def Inv (m : ServerRun) : Prop :=
  match m.phase with
  | .outside => Ready m.serv 0
  | .visiting i => Ready m.serv i
  | .stopped => Settled m.serv
  | .finalized => Tracked m.serv ∧ ∀ p, m.serv.openAt p = none

theorem inv_start (n : Int) : Inv (ServerRun.start n) := by
  refine ⟨⟨⟨fun p => inLives_nil, fun k => rfl, fun k => SocketType.noConfusion,
    fun a => SocketType.noConfusion, fun p hp => SocketType.noConfusion hp⟩,
    ⟨fun p hp => absurd rfl hp, fun i p _ hi => absurd hi (Nat.not_lt_zero i)⟩, Nat.zero_le _⟩,
    fun i hi => absurd hi (Nat.not_lt_zero i)⟩

theorem Inv.marks {phase : Phase} (h : Inv ⟨s, phase⟩) (hm : Marks s t)
    (hfd : ∀ i, (t.pollFds i).fd = (s.pollFds i).fd) : Inv ⟨t, phase⟩ := by
  cases phase with
  | outside => exact Ready.marks h hm hfd
  | visiting i => exact Ready.marks h hm hfd
  | stopped => exact Settled.marks h hm
  | finalized =>
    refine ⟨hm.keepsLives.tracked h.1, fun p => ?_⟩
    rw [hm.keepsLives.openAt]
    exact h.2 p

theorem serverSetShouldCloseAll_pollFds (s : SockServer) :
    (serverSetShouldCloseAll s).pollFds = s.pollFds := by
  rw [serverSetShouldCloseAll]
  generalize List.range s.nfds = is
  induction is generalizing s with
  | nil => rfl
  | cons i is ih =>
    rw [List.foldl_cons, ih]
    cases s.ctxPtrs i with
    | none => rfl
    | some p => rfl

theorem Settled.abort (h : Settled s) :
    Inv (ServerRun.abort s) ∧ Frees s (ServerRun.abort s).serv False := by
  have hm : Marks (serverKillConnections s)
      { serverKillConnections s with shallTerminate := true } :=
    ⟨fun q => ⟨((serverKillConnections s).ctxs q).shouldClose, rfl⟩, rfl, rfl, rfl, rfl, [],
      (List.append_nil _).symm⟩
  have hall := (Marks.serverKillConnections s).trans hm
  exact ⟨h.marks hall, hall.keepsLives.frees⟩

theorem Ready.endPass (h : Ready s j) :
    Inv (ServerRun.endPass s) ∧ Frees s (ServerRun.endPass s).serv False := by
  rw [ServerRun.endPass]
  split_ifs with hterm hcompact
  · exact h.toSettled.abort
  · refine ⟨⟨⟨(keepsLives_compact h.linked h.sockets).tracked h.tracked,
      linked_compact h.linked h.sockets, (nfds_compact_le s).trans h.room⟩,
      sockets_compact h.linked h.sockets⟩, (keepsLives_compact h.linked h.sockets).frees⟩
  · refine ⟨⟨h.toSettled, fun i hi => ?_⟩, (Marks.rfl' s).keepsLives.frees⟩
    refine .inl ((h.sockets i hi).resolve_right ?_)
    exact fun hcleared => hcompact hcleared.2.2.2

theorem Ready.pollEntries (h : Ready s 0) (res : Int) (revents : ℕ → Revents) :
    Inv (ServerRun.pollEntries s res revents) ∧
      Frees s (ServerRun.pollEntries s res revents).serv False := by
  have hm : Marks s (ServerRun.setRevents s revents) :=
    ⟨fun q => ⟨(s.ctxs q).shouldClose, rfl⟩, rfl, rfl, rfl, rfl, [], (List.append_nil _).symm⟩
  have hquiet := hm.keepsLives.frees
  have hready := h.marks hm fun i => by
    rw [ServerRun.setRevents]
    dsimp only
    split_ifs
    · rfl
    · rfl
  rw [ServerRun.pollEntries]
  split_ifs
  · exact h.toSettled.abort
  · exact ⟨h, (Marks.rfl' s).keepsLives.frees⟩
  · exact ⟨hready.toSettled.abort.1, hquiet.after hready.toSettled.abort.2⟩
  · exact ⟨hready, hquiet⟩
  · exact ⟨hready.endPass.1, hquiet.after hready.endPass.2⟩

theorem Ready.visit (h : Ready s i) {e : VisitAnswers} (he : e.acceptCb ≠ -1) :
    Inv (ServerRun.visit s i e) ∧
      Frees s (ServerRun.visit s i e).serv (i < s.nfds ∧ HangsUp s i e) := by
  rw [ServerRun.visit]
  split_ifs with hi
  · obtain ⟨hnext, hfrees⟩ := h.visitEntry hi he
    have hfrees := hfrees.congr (and_iff_right hi).symm
    generalize SockUtil.visitEntry s i e = r at hnext hfrees ⊢
    obtain ⟨t, runs⟩ := r
    cases runs with
    | true => exact ⟨hnext, hfrees⟩
    | false =>
      obtain ⟨habort, hnone⟩ := hnext.toSettled.abort
      exact ⟨habort, (hfrees.trans hnone).congr (Iff.of_eq (or_false _))⟩
  · exact ⟨h.endPass.1, h.endPass.2.of_not fun hh => hi hh.1⟩

theorem inv_step {m m' : ServerRun} {e : Event} (h : Inv m) (hsound : Sound m e)
    (hstep : ServerRun.step m e = some m') :
    Inv m' ∧ Frees m.serv m'.serv (¬KeepsClients m e) := by
  obtain ⟨s, phase⟩ := m
  rw [ServerRun.step] at hstep
  split_ifs at hstep
  replace hstep : ServerRun.advance s e phase = some m' := hstep
  have hquiet : ∀ {t : SockServer}, Marks s t → KeepsClients ⟨s, phase⟩ e →
      Frees s t (¬KeepsClients ⟨s, phase⟩ e) := fun hm hkeeps =>
    hm.keepsLives.frees.of_not (not_not_intro hkeeps)
  cases e with
  | bind port e =>
    cases phase with
    | outside =>
      cases hstep
      obtain ⟨hready, hfrees⟩ := Ready.serverBind h hsound
      exact ⟨hready, hfrees.of_not (not_not_intro trivial)⟩
    | _ => cases hstep
  | terminate =>
    cases hstep
    have hm : Marks s { s with shallTerminate := true } :=
      ⟨fun q => ⟨(s.ctxs q).shouldClose, rfl⟩, rfl, rfl, rfl, rfl, [], (List.append_nil _).symm⟩
    exact ⟨h.marks hm fun _ => rfl, hquiet hm trivial⟩
  | requestClose a =>
    rw [ServerRun.advance] at hstep
    split_ifs at hstep
    cases hstep
    have hm := Marks.setShouldClose s (.client a)
    exact ⟨h.marks hm fun _ => rfl, hquiet hm trivial⟩
  | setShouldCloseAll =>
    cases hstep
    have hm := Marks.serverSetShouldCloseAll s
    refine ⟨h.marks hm fun i => ?_, hquiet hm trivial⟩
    rw [serverSetShouldCloseAll_pollFds]
  | poll res revents =>
    cases phase with
    | outside =>
      cases hstep
      obtain ⟨hinv, hfrees⟩ := Ready.pollEntries h res revents
      exact ⟨hinv, hfrees.of_not (not_not_intro trivial)⟩
    | _ => cases hstep
  | visit e =>
    cases phase with
    | visiting i =>
      cases hstep
      obtain ⟨hinv, hfrees⟩ := Ready.visit h hsound
      refine ⟨hinv, hfrees.congr ?_⟩
      constructor
      · rintro ⟨hi, hh⟩ hkeeps
        exact hkeeps i rfl hi hh
      · intro hnot
        by_contra hkeeps
        refine hnot ?_
        rintro j hj hlt hh
        cases hj
        exact hkeeps ⟨hlt, hh⟩
    | _ => cases hstep
  | stop =>
    cases phase with
    | outside =>
      cases hstep
      exact ⟨Ready.toSettled h, hquiet (Marks.rfl' s) trivial⟩
    | _ => cases hstep
  | finalize =>
    cases phase with
    | stopped =>
      cases hstep
      obtain ⟨htracked, hlinked, hroom⟩ := h
      refine ⟨⟨(finalizeEntries htracked hlinked maxCtxs).1, fun p => ?_⟩,
        frees_serverFinalize htracked hlinked hroom⟩
      rw [SockServer.openAt, type_serverFinalize htracked hlinked hroom]
      exact if_neg SocketType.noConfusion
    | _ => cases hstep

theorem Inv.tableHolds {m : ServerRun} (h : Inv m) : TableHolds m := by
  obtain ⟨s, phase⟩ := m
  have htracked : Tracked s := by
    cases phase with
    | outside => exact Ready.toSettled h |>.tracked
    | visiting i => exact Ready.toSettled h |>.tracked
    | stopped => exact Settled.tracked h
    | finalized => exact h.1
  refine ⟨fun i hphase hi => ?_, htracked.once, htracked.counted, fun hphase => ?_⟩
  · cases hphase
    obtain ⟨p, hptr, hsockfd, -⟩ := (Ready.sockets h i hi).resolve_right fun hcleared =>
      Nat.lt_irrefl i hcleared.2.2.1
    exact ⟨p, hptr, ((Ready.toSettled h).linked.entry i p (Nat.zero_le i) hi hptr).1, hsockfd⟩
  · cases hphase
    exact h.2

/-- In a run that keeps to the conditions, something is used after it was freed exactly where a
client is closed. -/
theorem frees_run {m m' : ServerRun} {events : List Event} (h : Inv m)
    (hsound : Guarded ServerRun.step Sound m events)
    (hrun : run ServerRun.step m events = some m') :
    Inv m' ∧ Frees m.serv m'.serv (¬Guarded ServerRun.step KeepsClients m events) := by
  induction events generalizing m with
  | nil =>
    cases hrun
    refine ⟨h, ?_⟩
    exact (Marks.rfl' _).keepsLives.frees.of_not (not_not_intro trivial)
  | cons e events ih =>
    obtain ⟨n, hn, hrest⟩ := Option.bind_eq_some_iff.mp hrun
    obtain ⟨hC, hsound⟩ := hsound n hn
    obtain ⟨hinv, hfrees⟩ := inv_step h hC hn
    obtain ⟨hinv', hfrees'⟩ := ih hinv hsound hrest
    refine ⟨hinv', (hfrees.trans hfrees').congr ?_⟩
    rw [← not_and_or, not_iff_not]
    constructor
    · intro ⟨hkeeps, hguarded⟩
      exact hguarded.cons hn hkeeps
    · intro hguarded
      exact hguarded n hn

/-- Where no accept callback fails and every bind finds room, the table and the lives of the
contexts hold in every state; nothing is used after it was freed exactly where no client is
closed. -/
theorem table_holds (n : Int) (events : List Event) (m : ServerRun)
    (hsound : Guarded ServerRun.step Sound (ServerRun.start n) events)
    (hrun : run ServerRun.step (ServerRun.start n) events = some m) :
    TableHolds m ∧ (NoUseAfterFree m.serv.log ↔
      Guarded ServerRun.step KeepsClients (ServerRun.start n) events) := by
  obtain ⟨hinv, new, hlog, huses, hfreed⟩ := frees_run (inv_start n) hsound hrun
  have hnew : m.serv.log = new := hlog
  refine ⟨hinv.tableHolds, ?_⟩
  rw [hnew, noUseAfterFree_iff huses, ← not_iff_not, ← hfreed, not_forall_not]

/-- `Sound`, as a test. -/
def soundTest (m : ServerRun) : Event → Bool
  | .bind _ _ =>
    m.serv.nfds < maxCtxs && (serverAllocServerCtx m.serv).any fun p => (m.serv.ctxs p).n = 0
  | .visit e => e.acceptCb ≠ -1
  | _ => true

theorem sound_of_soundTest {m : ServerRun} {e : Event} (h : soundTest m e = true) : Sound m e := by
  cases e with
  | bind port e =>
    intro _
    rw [soundTest, Bool.and_eq_true, decide_eq_true_iff, Option.any_eq_true] at h
    obtain ⟨hroom, p, hp, hn⟩ := h
    exact ⟨hroom, p, hp, of_decide_eq_true hn⟩
  | visit e =>
    rw [soundTest, decide_eq_true_iff] at h
    exact h
  | _ => trivial

/-! ### A client that comes and goes -/

def bindOnce : Event := .bind 4000 ⟨fun _ => 3, fun _ => false, 0, 0, 0⟩

def acceptAnswers (acceptCb : Int) : VisitAnswers := ⟨5, ⟨0, 0⟩, fun _ => some 0, acceptCb, 0⟩

def comesAndGoes : List Event :=
  [bindOnce, .poll 1 fun _ => ⟨false, true⟩, .visit (acceptAnswers 0), .visit (acceptAnswers 0),
    .visit (acceptAnswers 0), .poll 1 fun i => ⟨i = 1, false⟩, .visit (acceptAnswers 0),
    .visit (acceptAnswers 0), .visit (acceptAnswers 0), .stop, .finalize]

theorem table_holds_comesAndGoes :
    ∃ m, run ServerRun.step (ServerRun.start 1) comesAndGoes = some m ∧ TableHolds m := by
  have hsome : (run ServerRun.step (ServerRun.start 1) comesAndGoes).isSome = true := by
    decide +kernel
  obtain ⟨m, hm⟩ := Option.isSome_iff_exists.mp hsome
  have htest : guards ServerRun.step soundTest (ServerRun.start 1) comesAndGoes = true := by
    decide +kernel
  have hsound := (guarded_of_guards htest).imp fun _ _ _ h => sound_of_soundTest h
  exact ⟨m, hm, (table_holds 1 comesAndGoes m hsound hm).1⟩

/-! ### An accept callback that fails -/

def failsToAttach : List Event :=
  [bindOnce, .poll 1 fun _ => ⟨false, true⟩, .visit (acceptAnswers (-1))]

/-- The entry of the client that was closed at once is visited in the same pass. -/
theorem failed_client_is_visited :
    ¬∀ (n : Int) (events : List Event) (m : ServerRun),
      run ServerRun.step (ServerRun.start n) events = some m →
        TableHolds m ∧ NoUseAfterFree m.serv.log := by
  intro h
  have hend : (run ServerRun.step (ServerRun.start 1) failsToAttach).map
      (fun m => (m.phase, m.serv.nfds, m.serv.ctxPtrs 1)) = some (.visiting 1, 2, none) := by
    decide +kernel
  obtain ⟨m, hm, hstate⟩ := Option.map_eq_some_iff.mp hend
  rw [Prod.mk.injEq, Prod.mk.injEq] at hstate
  obtain ⟨hphase, hnfds, hptr⟩ := hstate
  obtain ⟨p, hp, -⟩ := (h 1 failsToAttach m hm).1.visited 1 hphase (by omega)
  rw [hptr] at hp
  cases hp

end Presence3DS.Rosalina.SockUtil
