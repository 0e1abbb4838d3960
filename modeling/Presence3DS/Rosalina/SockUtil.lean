import Mathlib.Algebra.Order.Ring.Int
import Mathlib.Algebra.Order.Ring.Nat
import Mathlib.Data.List.TakeWhile
import Mathlib.Logic.Function.Basic
import Mathlib.Order.Fin.Basic

/-! The socket server of the debugger (`sock_util.c`) with the contexts of its clients
(`gdb/server.c`). The answers of the socket service and of the callbacks are inputs. -/

namespace Presence3DS.Rosalina.SockUtil

def maxPorts : ℕ := 3 + 1
def maxCtxs : ℕ := 2 * maxPorts

inductive SocketType where
  | none
  | server
  | client
deriving DecidableEq

/-- A `struct sock_ctx *`: one of `serv_ctxs`, or the first member of a `GDBContext`. -/
inductive CtxPtr where
  | serv (k : ℕ)
  | client (a : ℕ)
deriving DecidableEq

structure SockaddrIn where
  port : ℕ
  addr : ℕ

structure SockCtx where
  type : SocketType
  shouldClose : Bool
  sockfd : Int
  addrIn : SockaddrIn
  serv : CtxPtr
  n : Int
  i : ℕ

/-- Whether one of `POLLHUP`, `POLLERR` and `POLLNVAL` is set, and whether `POLLIN` is. -/
structure Revents where
  hup : Bool
  pollin : Bool

structure PollFd where
  fd : Int
  /-- Whether `POLLIN` is asked for. -/
  events : Bool
  revents : Revents

/-- What is done to contexts. -/
inductive Action where
  | accepted (p : CtxPtr) (serv : CtxPtr)
  | closed (p : CtxPtr)
  | freed (p : CtxPtr)
  | deducted (p : CtxPtr) (serv : CtxPtr)
  /-- The context is read or written. -/
  | used (p : CtxPtr)
deriving DecidableEq

/-- The server, the memory of the contexts, and what has been done to them so far. -/
structure SockServer where
  clientsPerServer : Int
  pollFds : ℕ → PollFd
  ctxPtrs : ℕ → Option CtxPtr
  nfds : ℕ
  compactNeeded : Bool
  initResult : Int
  shallTerminate : Bool
  ctxs : CtxPtr → SockCtx
  /-- `GDB_FLAG_USED`. -/
  inUse : CtxPtr → Bool
  log : List Action
  /-- A null pointer has been followed. -/
  crashed : Bool

namespace SockServer
variable (s : SockServer)

def note (a : Action) : SockServer := { s with log := s.log ++ [a] }

def writeCtx (p : CtxPtr) (f : SockCtx → SockCtx) : SockServer :=
  { s with
    ctxs := Function.update s.ctxs p (f (s.ctxs p))
    log := s.log ++ [.used p] }

def setPollFd (i : ℕ) (pollFd : PollFd) : SockServer :=
  { s with pollFds := Function.update s.pollFds i pollFd }

def setCtxPtr (i : ℕ) (ptr : Option CtxPtr) : SockServer :=
  { s with ctxPtrs := Function.update s.ctxPtrs i ptr }

def crash : SockServer := { s with crashed := true }

end SockServer

/-! ## `compact` -/

/-- The first loop: the entries that are kept. -/
def keptEntries (s : SockServer) : List (Int × Option CtxPtr) :=
  ((List.range s.nfds).filter fun i => (s.pollFds i).fd ≠ -1).map fun i =>
    ((s.pollFds i).fd, s.ctxPtrs i)

/-- The second loop, which moves the descriptor and the pointer of an entry only. -/
def placeEntries (s : SockServer) : List (Int × Option CtxPtr) → ℕ → SockServer
  | [], _ => s
  | (fd, ptr) :: entries, i =>
    let s := (s.setPollFd i { s.pollFds i with fd := fd }).setCtxPtr i ptr
    match ptr with
    | none => s.crash
    | some p => placeEntries (s.writeCtx p fun c => { c with i := i }) entries (i + 1)

def compact (s : SockServer) : SockServer :=
  { placeEntries s (keptEntries s) 0 with
    nfds := (keptEntries s).length
    compactNeeded := false }

/-! ## The contexts -/

def serverAllocServerCtx (s : SockServer) : Option CtxPtr :=
  ((List.range maxPorts).map CtxPtr.serv).find? fun p => (s.ctxs p).type = .none

/-- The context that `GDB_GetClient` picks for the port, unless it has a client already. -/
def gdbGetClient (s : SockServer) (pick : ℕ → Option ℕ) (port : ℕ) : Option CtxPtr :=
  ((pick port).map CtxPtr.client).filter fun p => !s.inUse p

/-- The context is taken, which `GDB_GetClient` flags. -/
def takeClient (s : SockServer) (curr new : CtxPtr) : SockServer :=
  { s with inUse := Function.update s.inUse new true }.note (.accepted new curr)

/-- `GDB_CloseClient`, which clears the flags. -/
def closeCb (s : SockServer) (p : CtxPtr) : SockServer :=
  { s with inUse := Function.update s.inUse p false }.note (.closed p)

/-- What closing a client does before its socket is closed. -/
def closeClient (s : SockServer) (p : CtxPtr) : SockServer :=
  let serv := (s.ctxs p).serv
  ((((closeCb s p).note (.freed p)).note (.used p)).note (.deducted p serv)).writeCtx serv
    fun c => { c with n := c.n - 1 }

def serverCloseCtx (s : SockServer) (p : CtxPtr) : SockServer :=
  let i := (s.ctxs p).i
  let s := if (s.ctxs p).type = .client then closeClient s p else s
  let s := s.writeCtx p fun c => { c with shouldClose := false, type := .none }
  { (s.setPollFd i ⟨-1, false, ⟨false, false⟩⟩).setCtxPtr i none with compactNeeded := true }

/-! ## `server_init` and `server_bind` -/

def serverInit (clientsPerServer : Int) : SockServer where
  clientsPerServer := clientsPerServer
  pollFds := fun _ => ⟨0, false, ⟨false, false⟩⟩
  ctxPtrs := fun _ => none
  nfds := 0
  compactNeeded := false
  initResult := 0
  shallTerminate := false
  ctxs := fun _ => ⟨.none, false, 0, ⟨0, 0⟩, .serv 0, 0, 0⟩
  inUse := fun _ => false
  log := []
  crashed := false

structure BindAnswers where
  /-- The answer to each try. -/
  socSocket : ℕ → Int
  /-- Whether the server is to terminate after a failed try. -/
  terminated : ℕ → Bool
  socGethostid : ℕ
  socBind : Int
  socListen : Int

/-- The socket and the tries that are left. -/
def openSocket (e : BindAnswers) : ℕ → ℕ → Option (Int × ℕ)
  | 0, _ => some (-1, 0)
  | tries + 1, n =>
    if e.socSocket n ≠ -1 then some (e.socSocket n, tries + 1)
    else if tries ≠ 0 ∧ e.terminated n then none
    else openSocket e tries (n + 1)

def bindRes (e : BindAnswers) : Int := if e.socBind = 0 then e.socListen else e.socBind

/-- The entry and the context of a listening socket. -/
def addServer (s : SockServer) (fd : Int) (addrIn : SockaddrIn) : SockServer :=
  let idx := s.nfds
  let s := { s.setPollFd idx { s.pollFds idx with fd := fd, events := true } with
    nfds := s.nfds + 1 }
  match serverAllocServerCtx s with
  | none => s.crash
  | some p =>
    let s := s.writeCtx p fun c =>
      { c with addrIn := addrIn, type := .server, sockfd := fd, n := 0, i := idx }
    s.setCtxPtr idx (some p)

def serverBind (s : SockServer) (port : ℕ) (e : BindAnswers) : SockServer :=
  match openSocket e 15 0 with
  | none => s
  | some (fd, tries) =>
    if fd < -10000 ∨ tries = 0 then { s with initResult := -1, shallTerminate := true }
    else if bindRes e ≠ 0 then { s with initResult := bindRes e, shallTerminate := true }
    else addServer s fd ⟨port, e.socGethostid⟩

/-! ## The loop of `server_run` -/

/-- What the socket service, the allocator and the callbacks answer while an entry is visited. -/
structure VisitAnswers where
  socAccept : Int
  peer : SockaddrIn
  /-- The context that the debugger picks for a port. -/
  pick : ℕ → Option ℕ
  acceptCb : Int
  dataCb : Int

/-- The entry and the context of an accepted client. -/
def addClient (s : SockServer) (curr new : CtxPtr) (fd : Int) : SockServer :=
  let idx := s.nfds
  let s := { s.setPollFd idx ⟨fd, true, ⟨false, false⟩⟩ with nfds := s.nfds + 1 }
  let s := s.writeCtx curr fun c => { c with n := c.n + 1 }
  let s := s.writeCtx new fun c =>
    { c with type := .client, sockfd := fd, serv := curr, i := idx, n := 0, shouldClose := false }
  s.setCtxPtr idx (some new)

/-- A connection to the listening socket of `curr`, where the server is not to exit. -/
def acceptClient (s : SockServer) (curr : CtxPtr) (e : VisitAnswers) : SockServer :=
  if e.socAccept < 0 ∨ (s.ctxs curr).n = s.clientsPerServer ∨ s.nfds = maxCtxs then s
  else
    match gdbGetClient s e.pick (s.ctxs curr).addrIn.port with
    | none => s
    | some new =>
      let s := addClient (takeClient s curr new) curr new e.socAccept
      let s := if e.acceptCb = -1 then serverCloseCtx s new else s
      s.writeCtx new fun c => { c with addrIn := e.peer }

/-- Whether the server is still to run after the entry. -/
def visitEntry (s : SockServer) (i : ℕ) (e : VisitAnswers) : SockServer × Bool :=
  match s.ctxPtrs i with
  | none => (s.crash, true)
  | some curr =>
    let s := s.note (.used curr)
    if (s.pollFds i).revents.hup || (s.ctxs curr).shouldClose then (serverCloseCtx s curr, true)
    else if (s.pollFds i).revents.pollin then
      if (s.ctxs curr).type = .server then
        if s.shallTerminate then (s, false) else (acceptClient s curr e, true)
      else if e.dataCb = -1 then (serverCloseCtx s curr, true)
      else (s, true)
    else (s, true)

/-! ## `server_set_should_close_all`, `server_kill_connections` and `server_finalize` -/

def setShouldClose (s : SockServer) (p : CtxPtr) : SockServer :=
  s.writeCtx p fun c => { c with shouldClose := true }

def serverSetShouldCloseAll (s : SockServer) : SockServer :=
  (List.range s.nfds).foldl (fun s i => (s.ctxPtrs i).elim s.crash (setShouldClose s)) s

def killConnection (s : SockServer) (i : ℕ) : SockServer :=
  if (s.pollFds i).fd = -1 then s
  else
    let s := s.setPollFd i { s.pollFds i with fd := -1 }
    (s.ctxPtrs i).elim s (setShouldClose s)

def serverKillConnections (s : SockServer) : SockServer :=
  (List.range s.nfds).foldl killConnection s

def finalizeEntry (s : SockServer) (i : ℕ) : SockServer :=
  (s.ctxPtrs i).elim s (serverCloseCtx s)

def serverFinalize (s : SockServer) : SockServer :=
  (List.range maxCtxs).foldl finalizeEntry s

/-! ## Runs -/

inductive Phase where
  /-- At the head of the loop of `server_run`, or before it. -/
  | outside
  /-- In the loop over the entries. -/
  | visiting (i : ℕ)
  | stopped
  | finalized
deriving DecidableEq

structure ServerRun where
  serv : SockServer
  phase : Phase

inductive Event where
  | bind (port : ℕ) (e : BindAnswers)
  /-- Another thread signals one of the events that end the server. -/
  | terminate
  /-- The menu asks for a client to be closed. -/
  | requestClose (a : ℕ)
  | setShouldCloseAll
  | poll (res : Int) (revents : ℕ → Revents)
  | visit (e : VisitAnswers)
  /-- `preTerminationRequested` is read at the head of the loop. -/
  | stop
  | finalize

namespace ServerRun

/-- `abort_connections`. -/
def abort (s : SockServer) : ServerRun :=
  ⟨{ serverKillConnections s with shallTerminate := true }, .stopped⟩

def endPass (s : SockServer) : ServerRun :=
  if s.shallTerminate then abort s
  else ⟨if s.compactNeeded then compact s else s, .outside⟩

/-- What `socPoll` reports of the entries. -/
def setRevents (s : SockServer) (revents : ℕ → Revents) : SockServer :=
  { s with pollFds := fun i =>
      if i < s.nfds then { s.pollFds i with revents := revents i } else s.pollFds i }

/-- One pass of the outer loop up to the loop over the entries. -/
def pollEntries (s : SockServer) (res : Int) (revents : ℕ → Revents) : ServerRun :=
  if s.shallTerminate then abort s
  else if s.nfds = 0 then ⟨s, .outside⟩
  else
    let s := setRevents s revents
    if res < -10000 then abort s
    else if 0 < res then ⟨s, .visiting 0⟩
    else endPass s

def visit (s : SockServer) (i : ℕ) (e : VisitAnswers) : ServerRun :=
  if i < s.nfds then
    match visitEntry s i e with
    | (s, true) => ⟨s, .visiting (i + 1)⟩
    | (s, false) => abort s
  else endPass s

/-- An event that cannot come now does not lead anywhere. -/
def advance (s : SockServer) : Event → Phase → Option ServerRun
  | .bind port e, .outside => some ⟨serverBind s port e, .outside⟩
  | .terminate, phase => some ⟨{ s with shallTerminate := true }, phase⟩
  | .requestClose a, phase =>
    if s.inUse (.client a) then some ⟨setShouldClose s (.client a), phase⟩ else none
  | .setShouldCloseAll, phase => some ⟨serverSetShouldCloseAll s, phase⟩
  | .poll res revents, .outside => some (pollEntries s res revents)
  | .visit e, .visiting i => some (visit s i e)
  | .stop, .outside => some ⟨s, .stopped⟩
  | .finalize, .stopped => some ⟨serverFinalize s, .finalized⟩
  | _, _ => none

def step (m : ServerRun) (e : Event) : Option ServerRun :=
  if m.serv.crashed then none else advance m.serv e m.phase

def start (clientsPerServer : Int) : ServerRun := ⟨serverInit clientsPerServer, .outside⟩

end ServerRun

end Presence3DS.Rosalina.SockUtil
