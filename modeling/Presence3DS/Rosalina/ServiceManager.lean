import Presence3DS.Kernel.State
import Presence3DS.Lib.Ledger
import Presence3DS.Lib.SwapRemove

/-! The loop of a service process (`service_manager.c`). Every answer of the kernel, of the service
manager and of the allocator is an event of the run, and what the function did is its trace, with
the latest action first. -/

namespace Presence3DS.Rosalina.ServiceManager
open Kernel SwapRemove

structure ServiceEntry where
  name : String
  maxSessions : ℕ
  isGlobalPort : Bool

/-- The arguments of `ServiceManager_Run`. A handler is known by the place or the id it has. -/
structure Tables where
  services : List ServiceEntry
  notifications : List (BitVec 32)
  /-- `allocator != NULL` -/
  allocator : Bool

namespace Tables

def numServices (t : Tables) : ℕ := t.services.length

def maxSessionsTotal (t : Tables) : ℕ := (t.services.map ServiceEntry.maxSessions).sum

/-- Those that PM sends with `PublishToProcess` are not subscribed to. -/
def subscriptions (t : Tables) : List (BitVec 32) :=
  t.notifications.filter fun id => id != 0x100 && id != 0x179

end Tables

/-- A call that succeeded, or a reply. Handles are of type `H` and contexts of type `C`. -/
inductive Action (H C : Type*) where
  | srvEnableNotification (handle : H)
  | srvSubscribe (id : BitVec 32)
  | srvRegisterService (name : String) (maxSessions : ℕ) (handle : H)
  | svcCreatePort (name : String) (maxSessions : ℕ) (handle clientPort : H)
  | reply (target : H)
  /-- A session of a service, with the context that it was given. -/
  | svcAcceptSession (service : ℕ) (session : H) (ctx : Option C)
  /-- The handler of a service is called with a context, for the request of a session. -/
  | command (session : H) (service : ℕ) (ctx : Option C)
  | notification (id : BitVec 32)
  /-- Of a wait handle that is not set, the value can be any. -/
  | svcCloseHandle (handle : Option H)
  | freeSessionContext (ctx : Option C)
  | srvUnsubscribe (id : BitVec 32)
  | srvUnregisterService (name : String)

/-- The call that comes next. -/
inductive Pc where
  | enableNotification
  | subscribe (ids : List (BitVec 32))
  | register (i : ℕ)
  | loop
  | unsubscribe (ids : List (BitVec 32))
  | returned (res : Result)

/-- The variables of the function. The wait handles of the services are unset at first. -/
structure State (H C : Type*) where
  pc : Pc
  waitHandles : List (Option H)
  handlerIds : List UInt8
  ctxs : List (Option C)
  replyTarget : Option H
  trace : List (Action H C)

/-- What one pass of the loop is told. An id of -1 is `none`. -/
structure Answers (H C : Type*) where
  res : Result
  id : Option ℕ
  srvReceiveNotification : Result × BitVec 32
  svcAcceptSession : Result × H
  newSessionContext : Option C

inductive Event (H C : Type*) where
  | srvEnableNotification (res : Result) (handle : H)
  | srvSubscribe (res : Result)
  | register (res : Result) (handle clientPort : H)
  | pass (answers : Answers H C)
  | srvUnsubscribe (res : Result)

def sessionClosed : Result := 0xC920181A - 2 ^ 32

def noContext : Result := 0xDEAD0000 - 2 ^ 32

section Run
variable {H C : Type*} (t : Tables) (s : State H C)

def init : State H C where
  pc := .enableNotification
  waitHandles := .replicate (1 + t.numServices) none
  handlerIds := []
  ctxs := []
  replyTarget := none
  trace := []

def State.log (a : Action H C) : State H C := { s with trace := a :: s.trace }

/-! ## The way out -/

def closeHandles : List (Action H C) := (s.waitHandles.map .svcCloseHandle).reverse

def unregisterServices : List (Action H C) :=
  ((t.services.filter fun service => !service.isGlobalPort).map
    fun service => .srvUnregisterService service.name).reverse

def freeContexts : List (Action H C) :=
  if t.allocator then (s.ctxs.map .freeSessionContext).reverse else []

def finish (res : Result) : State H C :=
  { s with
    pc := .returned res
    trace := freeContexts t s ++ (unregisterServices t ++ s.trace) }

def unsubscribe (ids : List (BitVec 32)) (res : Result) : State H C :=
  match ids with
  | [] => finish t s res
  | _ => { s with pc := .unsubscribe ids }

def cleanup (res : Result) : State H C :=
  unsubscribe t { s with trace := closeHandles s ++ s.trace } t.subscriptions res

/-! ## The way in -/

def register (i : ℕ) : State H C :=
  { s with pc := if i < t.numServices then .register i else .loop }

def subscribe (ids : List (BitVec 32)) : State H C :=
  match ids with
  | [] => register t s 0
  | _ => { s with pc := .subscribe ids }

def registerService (i : ℕ) (res : Result) (handle clientPort : H) : Option (State H C) :=
  (t.services[i]?).map fun service =>
    if rFailed res then cleanup t s res
    else
      let s := { s with waitHandles := s.waitHandles.set (1 + i) (some handle) }
      if service.isGlobalPort then
        register t ((s.log (.svcCreatePort service.name service.maxSessions handle clientPort)).log
          (.svcCloseHandle (some clientPort))) (i + 1)
      else
        register t (s.log (.srvRegisterService service.name service.maxSessions handle)) (i + 1)

end Run

/-! ## The loop -/

section Loop
variable {H C : Type*} [DecidableEq H] (t : Tables) (s : State H C)

/-- The place of a session that was closed. -/
def closedIndex : Option ℕ → Option ℕ
  | none => s.replyTarget.bind fun target =>
    ((s.waitHandles.drop (1 + t.numServices)).findIdx? (· = some target)).map
      (1 + t.numServices + ·)
  | some id => if id < 1 + t.numServices then none else some id

/-- The last session is moved to the place of the one that was closed. -/
def closeSession (id : ℕ) : Option (State H C) :=
  match s.waitHandles[id]?, s.ctxs[id - 1 - t.numServices]? with
  | some handle, some ctx =>
    some { s with
      waitHandles := swapRemove s.waitHandles id
      handlerIds := swapRemove s.handlerIds (id - 1 - t.numServices)
      ctxs := swapRemove s.ctxs (id - 1 - t.numServices)
      replyTarget := none
      trace := (if t.allocator then [.freeSessionContext ctx] else []) ++
        .svcCloseHandle handle :: s.trace }
  | _, _ => none

def receiveNotification (res : Result) (id : BitVec 32) : State H C :=
  if rFailed res then cleanup t s res
  else
    let s := if id ∈ t.notifications then s.log (.notification id) else s
    if id = 0x100 then cleanup t s res else s

/-- The kernel gives a handle that is not open, and no more sessions than it was told. -/
def acceptSession (id : ℕ) (res : Result) (session : H) (newSessionContext : Option C) :
    Option (State H C) :=
  if rFailed res then some (cleanup t s res)
  else if some session ∈ s.waitHandles ∨ t.maxSessionsTotal ≤ s.handlerIds.length then none
  else if t.allocator && newSessionContext.isNone then
    some { s with
      pc := .returned noContext
      trace := .svcCloseHandle (some session) :: .svcAcceptSession (id - 1) session none ::
        s.trace }
  else
    let ctx := if t.allocator then newSessionContext else none
    some { s with
      waitHandles := s.waitHandles ++ [some session]
      handlerIds := s.handlerIds ++ [UInt8.ofNat (id - 1)]
      ctxs := s.ctxs ++ [ctx]
      trace := .svcAcceptSession (id - 1) session ctx :: s.trace }

def serviceCommand (id : ℕ) : Option (State H C) :=
  match s.waitHandles[id]?, s.handlerIds[id - 1 - t.numServices]?,
    s.ctxs[id - 1 - t.numServices]? with
  | some (some session), some handlerId, some ctx =>
    some { s with
      replyTarget := some session
      trace := .command session handlerId.toNat ctx :: s.trace }
  | _, _, _ => none

/-- `svcReplyAndReceive`, and what is done with its answer. -/
def pass (a : Answers H C) : Option (State H C) :=
  let sent := { s with trace := s.replyTarget.toList.map .reply ++ s.trace }
  if a.res = sessionClosed then
    match closedIndex t s a.id with
    | none => some { sent with pc := .returned a.res }
    | some id => closeSession t sent id
  else if rFailed a.res then some { sent with pc := .returned a.res }
  else
    let received := { sent with replyTarget := none }
    a.id.bind fun id =>
      if id = 0 then
        some (receiveNotification t received a.srvReceiveNotification.1 a.srvReceiveNotification.2)
      else if id < 1 + t.numServices then
        acceptSession t received id a.svcAcceptSession.1 a.svcAcceptSession.2 a.newSessionContext
      else serviceCommand t received id

/-- `ServiceManager_Run` -/
def step : Event H C → Option (State H C)
  | .srvEnableNotification res handle =>
    match s.pc with
    | .enableNotification =>
      some (if rFailed res then cleanup t s res
        else subscribe t ({ s with waitHandles := s.waitHandles.set 0 (some handle) }.log
          (.srvEnableNotification handle)) t.subscriptions)
    | _ => none
  | .srvSubscribe res =>
    match s.pc with
    | .subscribe (id :: ids) =>
      some (if rFailed res then cleanup t s res else subscribe t (s.log (.srvSubscribe id)) ids)
    | _ => none
  | .register res handle clientPort =>
    match s.pc with
    | .register i => registerService t s i res handle clientPort
    | _ => none
  | .pass answers =>
    match s.pc with
    | .loop => pass t s answers
    | _ => none
  | .srvUnsubscribe res =>
    match s.pc with
    | .unsubscribe (id :: ids) =>
      some (if rFailed res then cleanup t s res
        else unsubscribe t (s.log (.srvUnsubscribe id)) ids res)
    | _ => none

end Loop

end Presence3DS.Rosalina.ServiceManager
