import Presence3DS.Kernel.State

/-! The users of the shared socket service: the NTP query (`ntp.c`), the thread of the input
redirection (`input_redirection.c`) and the server of the debugger (`sock_util.c`, `gdb/server.c`).
Every answer of the kernel and of the services is an input of the run. -/

namespace Presence3DS.Rosalina
open Kernel

inductive SocFunction where
  | socket
  | connect
  | send
  | recv
  | gethostid
  | bind
  | poll
  | recvfrom
  | setsockopt
  | close
deriving DecidableEq

/-- A call that a user makes to the shared service. -/
inductive SocUse where
  | init (res : Result)
  | exit
  | soc (function : SocFunction)
deriving DecidableEq

/-- A successful `miniSocInit`. -/
def SocUse.acquires : SocUse → Bool
  | .init res => res = 0
  | .exit => false
  | .soc _ => false

/-- A `miniSocExit`. -/
def SocUse.releases : SocUse → Bool
  | .init _ => false
  | .exit => true
  | .soc _ => false

/-- As many exits as successful inits. -/
def Balanced (uses : List SocUse) : Prop :=
  uses.countP SocUse.releases = uses.countP SocUse.acquires

/-! ## The NTP query -/

structure NtpAnswers where
  miniSocInit : Result
  socSocket : Int
  socConnect : Int
  socSend : Int
  socRecv : Int

/-- The exchange up to the first call that fails. -/
def ntpExchange (e : NtpAnswers) : Result × List SocFunction :=
  if e.socConnect < 0 then (-1, [.connect])
  else if e.socSend < 0 then (-1, [.connect, .send])
  else if e.socRecv < 0 then (-1, [.connect, .send, .recv])
  else (0, [.connect, .send, .recv])

def ntpGetTimeStamp (e : NtpAnswers) : Result × List SocUse :=
  if rFailed e.miniSocInit then (e.miniSocInit, [.init e.miniSocInit])
  else if e.socSocket < -10000 then
    (e.socSocket, [.init e.miniSocInit, .soc .socket])
  else
    ((ntpExchange e).1, .init e.miniSocInit :: .soc .socket :: (ntpExchange e).2.map SocUse.soc ++
      [.soc .setsockopt, .soc .close, .exit])

/-! ## The thread of the input redirection -/

/-- One pass of the loop; `enabled` is what its condition says. -/
structure PollAnswers where
  enabled : Bool
  socPoll : Int
  pollin : Bool
  socRecvfrom : Int

structure RedirectionAnswers where
  miniSocInit : Result
  /-- The answer to each try. -/
  socSocket : ℕ → Int
  socBind : Int
  loop : List PollAnswers

/-- The socket, the tries that are left, and the calls made. -/
def retrySocket (socSocket : ℕ → Int) : ℕ → ℕ → Int × ℕ × List SocFunction
  | 0, _ => (-1, 0, [])
  | tries + 1, n =>
    if socSocket n = -1 then
      let (sock, left, calls) := retrySocket socSocket tries (n + 1)
      (sock, left, .socket :: calls)
    else (socSocket n, tries + 1, [.socket])

def redirectionLoop : List PollAnswers → List SocFunction
  | [] => []
  | p :: ps =>
    if !p.enabled then []
    else if 0 < p.socPoll ∧ p.pollin then
      if p.socRecvfrom < 0 then [.poll, .recvfrom] else .poll :: .recvfrom :: redirectionLoop ps
    else if p.socPoll < -10000 then [.poll]
    else .poll :: redirectionLoop ps

def inputRedirectionThreadMain (e : RedirectionAnswers) : List SocUse :=
  if rFailed e.miniSocInit then [.init e.miniSocInit, .exit]
  else
    let (sock, tries, calls) := retrySocket e.socSocket 15 0
    if sock < -10000 ∨ tries = 0 then .init e.miniSocInit :: calls.map SocUse.soc ++ [.exit]
    else if e.socBind ≠ 0 then
      .init e.miniSocInit :: calls.map SocUse.soc ++
        [.soc .gethostid, .soc .bind, .soc .close, .exit]
    else
      .init e.miniSocInit :: calls.map SocUse.soc ++
        .soc .gethostid :: .soc .bind :: (redirectionLoop e.loop).map SocUse.soc ++
        [.soc .setsockopt, .soc .close, .exit]

/-! ## The server of the debugger -/

inductive DebuggerThread where
  | socket
  | debug
deriving DecidableEq

/-- The server's reference count, and the threads that have taken a reference. -/
structure ServerThreads where
  referenceCount : Int
  started : DebuggerThread → Bool

/-- The next action of a thread: it takes its reference and, when its work is over, gives it back;
the thread that gives back the last one finalizes the server, whose contexts it closes. -/
def ServerThreads.step (contexts : ℕ) (s : ServerThreads) (t : DebuggerThread) :
    ServerThreads × List SocUse :=
  if s.started t then
    ({ s with referenceCount := s.referenceCount - 1 },
      if s.referenceCount - 1 = 0 then
        List.replicate contexts (.soc .close) ++ [.exit]
      else [])
  else
    ({ referenceCount := s.referenceCount + 1
       started := fun t' => if t' = t then true else s.started t' }, [])

def ServerThreads.run (contexts : ℕ) : ServerThreads → List DebuggerThread → List SocUse
  | _, [] => []
  | s, t :: ts => (s.step contexts t).2 ++ ServerThreads.run contexts (s.step contexts t).1 ts

/-- A finished run of the debugger: each thread that could be created has taken its reference and
given it back, in any order of the two threads. -/
structure ServerAnswers where
  miniSocInit : Result
  createStartedEvent : Result
  createShallTerminateEvent : Result
  contexts : ℕ
  order : List DebuggerThread
  finished : ∀ t, order.count t = 0 ∨ order.count t = 2

def serverInit (e : ServerAnswers) : Result × List SocUse :=
  if rFailed e.miniSocInit then (e.miniSocInit, [.init e.miniSocInit])
  else if rFailed e.createStartedEvent then (e.createStartedEvent, [.init e.miniSocInit])
  else (e.createShallTerminateEvent, [.init e.miniSocInit])

/-- The threads are created where `GDB_InitializeServer` has succeeded. -/
def debuggerServer (e : ServerAnswers) : List SocUse :=
  let (ret, uses) := serverInit e
  if ret ≠ 0 then uses
  else uses ++ ServerThreads.run e.contexts ⟨0, fun _ => false⟩ e.order

/-! ## When a run is balanced -/

/-- A run of one of the users. -/
inductive SocUser where
  | ntp (e : NtpAnswers)
  | inputRedirection (e : RedirectionAnswers)
  | tcpServer (e : ServerAnswers)

def SocUser.uses : SocUser → List SocUse
  | .ntp e => (ntpGetTimeStamp e).2
  | .inputRedirection e => inputRedirectionThreadMain e
  | .tcpServer e => debuggerServer e

/-- A thread of the debugger starts, and none ends before the other one that was created starts. -/
def overlapping : List DebuggerThread → Bool
  | [] => false
  | [_] => true
  | [_, _] => true
  | t :: u :: _ => t ≠ u

/-- The NTP query that has opened the service gets a socket, the input redirection opens the service,
and the server of the debugger that has opened it creates its events and has threads that overlap.
A result of `miniSocInit` above 0 is a failure that its callers take for success. -/
def SocUser.Condition : SocUser → Prop
  | .ntp e =>
    if e.miniSocInit = 0 then -10000 ≤ e.socSocket
    else e.miniSocInit < 0 ∨ e.socSocket < -10000
  | .inputRedirection e => e.miniSocInit = 0
  | .tcpServer e =>
    if e.miniSocInit = 0 then
      0 ≤ e.createStartedEvent ∧ e.createShallTerminateEvent = 0 ∧ overlapping e.order = true
    else
      e.miniSocInit < 0 ∨ e.createStartedEvent < 0 ∨ e.createShallTerminateEvent ≠ 0 ∨
        e.order = []

/-! ## Counting -/

theorem releases_soc (l : List SocFunction) : (l.map SocUse.soc).countP SocUse.releases = 0 := by
  rw [List.countP_map]
  exact List.countP_eq_zero.mpr fun _ _ => Bool.false_ne_true

theorem acquires_soc (l : List SocFunction) : (l.map SocUse.soc).countP SocUse.acquires = 0 := by
  rw [List.countP_map]
  exact List.countP_eq_zero.mpr fun _ _ => Bool.false_ne_true

theorem acquires_init (res : Result) (uses : List SocUse) :
    (SocUse.init res :: uses).countP SocUse.acquires =
      uses.countP SocUse.acquires + if res = 0 then 1 else 0 := by
  rw [List.countP_cons]
  exact congrArg _ (if_congr decide_eq_true_iff rfl rfl)

theorem releases_init (res : Result) (uses : List SocUse) :
    (SocUse.init res :: uses).countP SocUse.releases = uses.countP SocUse.releases :=
  List.countP_cons_of_neg Bool.false_ne_true

theorem balanced_init_iff {res : Result} {uses : List SocUse}
    (hacquires : uses.countP SocUse.acquires = 0) :
    Balanced (.init res :: uses) ↔
      uses.countP SocUse.releases = if res = 0 then 1 else 0 := by
  rw [Balanced, releases_init, acquires_init, hacquires, Nat.zero_add]

theorem rFailed_iff (r : Result) : rFailed r = true ↔ r < 0 := decide_eq_true_iff

theorem ntp_balanced_iff (e : NtpAnswers) :
    Balanced (ntpGetTimeStamp e).2 ↔ (SocUser.ntp e).Condition := by
  rw [ntpGetTimeStamp, SocUser.Condition]
  by_cases hneg : e.miniSocInit < 0
  · rw [if_pos ((rFailed_iff _).mpr hneg), if_neg hneg.ne, balanced_init_iff rfl, if_neg hneg.ne]
    exact iff_of_true rfl (.inl hneg)
  rw [if_neg (mt (rFailed_iff _).mp hneg)]
  by_cases hbroken : e.socSocket < -10000
  · rw [if_pos hbroken, balanced_init_iff rfl]
    split_ifs with hzero
    · exact iff_of_false Nat.zero_ne_one (not_le.mpr hbroken)
    · exact iff_of_true rfl (.inr hbroken)
  · have hexits : ((SocUse.soc .socket :: (ntpExchange e).2.map SocUse.soc ++
        [SocUse.soc .setsockopt, .soc .close, .exit]).countP SocUse.releases) = 1 := by
      rw [List.cons_append, List.countP_cons_of_neg Bool.false_ne_true, List.countP_append,
        releases_soc]
      rfl
    rw [if_neg hbroken]
    refine (balanced_init_iff ?_).trans ?_
    · rw [List.append_eq, List.countP_append, List.countP_cons_of_neg Bool.false_ne_true,
        acquires_soc]
      rfl
    · refine (hexits.congr_left).trans ?_
      by_cases hzero : e.miniSocInit = 0
      · rw [if_pos hzero, if_pos hzero]
        exact iff_of_true rfl (not_lt.mp hbroken)
      · rw [if_neg hzero, if_neg hzero]
        exact iff_of_false Nat.one_ne_zero (not_or.mpr ⟨hneg, hbroken⟩)

theorem redirection_balanced_iff (e : RedirectionAnswers) :
    Balanced (inputRedirectionThreadMain e) ↔ (SocUser.inputRedirection e).Condition := by
  -- Every way out of the thread makes one exit.
  obtain ⟨uses, huses, hreleases, hacquires⟩ : ∃ uses,
      inputRedirectionThreadMain e = .init e.miniSocInit :: uses ∧
        uses.countP SocUse.releases = 1 ∧ uses.countP SocUse.acquires = 0 := by
    rw [inputRedirectionThreadMain]
    generalize retrySocket e.socSocket 15 0 = r
    obtain ⟨sock, tries, calls⟩ := r
    dsimp only
    split_ifs
    · exact ⟨_, rfl, rfl, rfl⟩
    · refine ⟨calls.map SocUse.soc ++ [.exit], rfl, ?_, ?_⟩
      · rw [List.countP_append, releases_soc]
        rfl
      · rw [List.countP_append, acquires_soc]
        rfl
    · refine ⟨calls.map SocUse.soc ++ [.soc .gethostid, .soc .bind, .soc .close, .exit], rfl,
        ?_, ?_⟩
      · rw [List.countP_append, releases_soc]
        rfl
      · rw [List.countP_append, acquires_soc]
        rfl
    · refine ⟨calls.map SocUse.soc ++ .soc .gethostid :: .soc .bind ::
        (redirectionLoop e.loop).map SocUse.soc ++ [.soc .setsockopt, .soc .close, .exit], rfl,
        ?_, ?_⟩
      · rw [List.countP_append, List.countP_append, releases_soc,
          List.countP_cons_of_neg Bool.false_ne_true, List.countP_cons_of_neg Bool.false_ne_true,
          releases_soc]
        rfl
      · rw [List.countP_append, List.countP_append, acquires_soc,
          List.countP_cons_of_neg Bool.false_ne_true, List.countP_cons_of_neg Bool.false_ne_true,
          acquires_soc]
        rfl
  rw [huses, balanced_init_iff hacquires, hreleases, SocUser.Condition]
  by_cases hzero : e.miniSocInit = 0
  · rw [if_pos hzero]
    exact iff_of_true rfl hzero
  · rw [if_neg hzero]
    exact iff_of_false Nat.one_ne_zero hzero

/-! ## The threads of the server -/

theorem finalize_acquires (contexts : ℕ) :
    (List.replicate contexts (SocUse.soc .close) ++ [SocUse.exit]).countP SocUse.acquires = 0 := by
  rw [List.countP_append, List.countP_replicate]
  rfl

theorem finalize_releases (contexts : ℕ) :
    (List.replicate contexts (SocUse.soc .close) ++ [SocUse.exit]).countP SocUse.releases = 1 := by
  rw [List.countP_append, List.countP_replicate]
  rfl

theorem serverThreads_acquires (contexts : ℕ) (s : ServerThreads) (order : List DebuggerThread) :
    (ServerThreads.run contexts s order).countP SocUse.acquires = 0 := by
  induction order generalizing s with
  | nil => rfl
  | cons t ts ih =>
    rw [ServerThreads.run, List.countP_append, ih, Nat.add_zero, ServerThreads.step]
    split_ifs
    · exact finalize_acquires contexts
    · rfl
    · rfl

theorem serverThreads_releases_eq (contexts : ℕ) (s : ServerThreads)
    (order : List DebuggerThread) :
    (ServerThreads.run contexts s order).countP SocUse.releases =
      (ServerThreads.run 0 s order).countP SocUse.releases := by
  induction order generalizing s with
  | nil => rfl
  | cons t ts ih =>
    have hstep : (s.step contexts t).1 = (s.step 0 t).1 := by
      rw [ServerThreads.step, ServerThreads.step]
      split_ifs <;> rfl
    rw [ServerThreads.run, ServerThreads.run, List.countP_append, List.countP_append, hstep, ih,
      ServerThreads.step, ServerThreads.step]
    congr 1
    split_ifs
    · rw [finalize_releases, finalize_releases]
    · rfl
    · rfl

theorem length_eq_counts (order : List DebuggerThread) :
    order.length = order.count .socket + order.count .debug := by
  induction order with
  | nil => rfl
  | cons t ts ih =>
    rw [List.length_cons, ih]
    cases t
    · rw [List.count_cons_self, List.count_cons_of_ne (by decide)]
      omega
    · rw [List.count_cons_self, List.count_cons_of_ne (by decide)]
      omega

/-- How often the server is finalized: not at all without a thread, once where the threads overlap,
and twice where they do not. -/
theorem serverThreads_releases (contexts : ℕ) {order : List DebuggerThread}
    (hfinished : ∀ t, order.count t = 0 ∨ order.count t = 2) :
    ((ServerThreads.run contexts ⟨0, fun _ => false⟩ order).countP SocUse.releases = 1 ↔
      overlapping order = true) ∧
    ((ServerThreads.run contexts ⟨0, fun _ => false⟩ order).countP SocUse.releases = 0 ↔
      order = []) := by
  have hlen := length_eq_counts order
  have hsocket := hfinished .socket
  have hdebug := hfinished .debug
  rw [serverThreads_releases_eq]
  match order with
  | [] => decide
  | [t] => cases t <;> revert hsocket hdebug <;> decide
  | [t, u] => cases t <;> cases u <;> revert hsocket hdebug <;> decide
  | [t, u, v] =>
    rw [List.length_cons, List.length_cons, List.length_singleton] at hlen
    omega
  | [t, u, v, w] => cases t <;> cases u <;> cases v <;> cases w <;> revert hsocket hdebug <;> decide
  | t :: u :: v :: w :: x :: ts =>
    have hlong : 5 ≤ (t :: u :: v :: w :: x :: ts).length := by
      simp only [List.length_cons]
      omega
    omega

theorem server_balanced_iff (e : ServerAnswers) :
    Balanced (debuggerServer e) ↔ (SocUser.tcpServer e).Condition := by
  obtain ⟨hone, hnone⟩ := serverThreads_releases e.contexts e.finished
  have hleft : Balanced [.init e.miniSocInit] ↔ _ := balanced_init_iff rfl
  have hthreads : Balanced (.init e.miniSocInit ::
      ServerThreads.run e.contexts ⟨0, fun _ => false⟩ e.order) ↔ _ :=
    balanced_init_iff (serverThreads_acquires ..)
  rw [debuggerServer, serverInit, SocUser.Condition]
  by_cases hneg : e.miniSocInit < 0
  · rw [if_pos ((rFailed_iff _).mpr hneg)]
    dsimp only
    rw [if_pos hneg.ne, hleft, if_neg hneg.ne, if_neg hneg.ne]
    exact iff_of_true rfl (.inl hneg)
  rw [if_neg (mt (rFailed_iff _).mp hneg)]
  by_cases hstarted : e.createStartedEvent < 0
  · rw [if_pos ((rFailed_iff _).mpr hstarted)]
    dsimp only
    rw [if_pos hstarted.ne, hleft]
    by_cases hzero : e.miniSocInit = 0
    · rw [if_pos hzero, if_pos hzero]
      exact iff_of_false Nat.zero_ne_one fun h => absurd hstarted (not_lt.mpr h.1)
    · rw [if_neg hzero, if_neg hzero]
      exact iff_of_true rfl (.inr (.inl hstarted))
  rw [if_neg (mt (rFailed_iff _).mp hstarted)]
  dsimp only
  by_cases hterminate : e.createShallTerminateEvent = 0
  · rw [if_neg (not_not.mpr hterminate)]
    refine hthreads.trans ?_
    by_cases hzero : e.miniSocInit = 0
    · rw [if_pos hzero, if_pos hzero, hone]
      exact ⟨fun h => ⟨not_lt.mp hstarted, hterminate, h⟩, fun h => h.2.2⟩
    · rw [if_neg hzero, if_neg hzero, hnone]
      exact ⟨fun h => .inr (.inr (.inr h)), fun h => ((h.resolve_left hneg).resolve_left
        hstarted).resolve_left (not_not.mpr hterminate)⟩
  · rw [if_pos hterminate, hleft]
    by_cases hzero : e.miniSocInit = 0
    · rw [if_pos hzero, if_pos hzero]
      exact iff_of_false Nat.zero_ne_one fun h => hterminate h.2.1
    · rw [if_neg hzero, if_neg hzero]
      exact iff_of_true rfl (.inr (.inr (.inl hterminate)))

/-- A run of a user makes as many exits as successful inits exactly if its calls answer as in the
condition. -/
theorem soc_users_balanced_iff (u : SocUser) : Balanced u.uses ↔ u.Condition :=
  match u with
  | .ntp e => ntp_balanced_iff e
  | .inputRedirection e => redirection_balanced_iff e
  | .tcpServer e => server_balanced_iff e

theorem ntp_query_without_socket_leaks : ¬∀ u : SocUser, Balanced u.uses := by
  intro h
  have hleak := h (.ntp ⟨0, -10001, 0, 0, 0⟩)
  revert hleak
  unfold Balanced
  decide

end Presence3DS.Rosalina
