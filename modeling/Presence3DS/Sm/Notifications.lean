import Presence3DS.Lib.CellRing
import Presence3DS.Lib.Runs
import Presence3DS.Sm.Services

/-! The notification queues of the service manager (`notifications.c`, `processes.c`). -/

namespace Presence3DS.Sm.Notifications
open SwapRemove

/-- A process, with the count of its semaphore, which the kernel keeps. -/
structure ProcessData where
  pid : BitVec 32
  notificationSemaphore : ℕ
  notificationEnabled : Bool
  receivedNotificationIndex : ℕ
  pendingNotificationIndex : ℕ
  nbPendingNotifications : ℕ
  pendingNotifications : List (BitVec 32)
  subscribedNotifications : List (BitVec 32)
deriving DecidableEq

namespace ProcessData

/-- The record as `doRegisterProcess` clears it, with a new semaphore. -/
def new (pid : BitVec 32) : ProcessData where
  pid := pid
  notificationSemaphore := 0
  notificationEnabled := false
  receivedNotificationIndex := 0
  pendingNotificationIndex := 0
  nbPendingNotifications := 0
  pendingNotifications := List.replicate 16 0
  subscribedNotifications := []

def notificationAt (p : ProcessData) (i : ℕ) : BitVec 32 := p.pendingNotifications.getD i 0

end ProcessData

def svcReleaseSemaphore (count : ℕ) : Option ℕ := if count < 0x10 then some (count + 1) else none

/-- What becomes of a notification that is published to a process. -/
inductive Publication where
  | stored
  | alreadyPending
  | full
deriving DecidableEq

/-- What `doPublishNotification` returns. -/
def Publication.succeeds (flags : BitVec 32) : Publication → Bool
  | .full => decide (flags &&& 2 ≠ 0)
  | _ => true

/-- There is no result where the semaphore cannot be released. -/
def doPublishNotification (p : ProcessData) (notificationId flags : BitVec 32) :
    Option (Publication × ProcessData) :=
  if flags &&& 1 ≠ 0 ∧ ((List.range p.nbPendingNotifications).any fun i =>
      p.notificationAt ((p.receivedNotificationIndex + i) % 16) = notificationId) = true then
    some (.alreadyPending, p)
  else if p.nbPendingNotifications < 0x10 then
    (svcReleaseSemaphore p.notificationSemaphore).map fun count => (.stored, { p with
      notificationSemaphore := count
      pendingNotificationIndex := (p.pendingNotificationIndex + 1) % 16
      nbPendingNotifications := p.nbPendingNotifications + 1
      pendingNotifications :=
        p.pendingNotifications.set p.pendingNotificationIndex notificationId })
  else some (.full, p)

def enableNotification (p : ProcessData) : ProcessData := { p with notificationEnabled := true }

def subscribe (p : ProcessData) (notificationId : BitVec 32) : SmResult × ProcessData :=
  if p.notificationEnabled = false then (0xD8806404, p)
  else if p.subscribedNotifications.contains notificationId then (0xD9006403, p)
  else if p.subscribedNotifications.length < 0x11 then
    (0, { p with subscribedNotifications := p.subscribedNotifications ++ [notificationId] })
  else (0xD9006405, p)

def unsubscribe (p : ProcessData) (notificationId : BitVec 32) : SmResult × ProcessData :=
  if p.notificationEnabled = false then (0xD8806404, p)
  else
    match p.subscribedNotifications.findIdx? (· = notificationId) with
    | none => (0xD8806404, p)
    | some i => (0, { p with subscribedNotifications := swapRemove p.subscribedNotifications i })

/-- `ReceiveNotification`, with the notification that is put into the reply, if one is. -/
def receiveNotification (p : ProcessData) : SmResult × Option (BitVec 32) × ProcessData :=
  if p.notificationEnabled = false ∨ p.nbPendingNotifications = 0 then
    (0xD8806404, if p.nbPendingNotifications ≠ 0 then some 0 else none, p)
  else
    (0, some (p.notificationAt p.receivedNotificationIndex), { p with
      nbPendingNotifications := p.nbPendingNotifications - 1
      receivedNotificationIndex := (p.receivedNotificationIndex + 1) % 16 })

/-! ## Clients -/

/-- A process, and beside it the notifications that were put into its queue and those that it has
received since it was registered, and the waits on its semaphore that it has not followed by a
receive. The code does not keep the latter. -/
structure Client where
  data : ProcessData
  accepted : List (BitVec 32)
  received : List (BitVec 32)
  waits : ℕ
deriving DecidableEq

namespace Client

def new (pid : BitVec 32) : Client := ⟨ProcessData.new pid, [], [], 0⟩

def publish (k : Client) (notificationId flags : BitVec 32) : Option (Publication × Client) :=
  (doPublishNotification k.data notificationId flags).map fun (publication, data) =>
    (publication, { k with
      data := data
      accepted := if publication = .stored then k.accepted ++ [notificationId] else k.accepted })

def receive (k : Client) : SmResult × Client :=
  let (res, notificationId, data) := receiveNotification k.data
  (res, { k with
    data := data
    received := if res = 0 then k.received ++ notificationId.toList else k.received
    waits := if res = 0 then k.waits - 1 else k.waits })

/-- A wait takes a count of the semaphore; it goes on for as long as there is none. -/
def wait (k : Client) : Option Client :=
  if k.data.notificationSemaphore = 0 then none
  else some { k with
    data := { k.data with notificationSemaphore := k.data.notificationSemaphore - 1 }
    waits := k.waits + 1 }

def wants (k : Client) (notificationId : BitVec 32) : Bool :=
  k.data.notificationEnabled && k.data.subscribedNotifications.contains notificationId

end Client

/-- A request about the process with the id, which `findProcessData` looks up. -/
def withProcess (pid : BitVec 32) (f : Client → Option (SmResult × Client)) :
    List Client → Option (SmResult × List Client)
  | [] => some (0xD8806404, [])
  | k :: ks =>
    if k.data.pid = pid then (f k).map fun (res, k) => (res, k :: ks)
    else (withProcess pid f ks).map fun (res, ks) => (res, k :: ks)

/-- The loop over the processes in use that publishes to some of them, with the ids of those that it
has published to. -/
def publishWhere (wanted : Client → Bool) (notificationId flags : BitVec 32) :
    List Client → Option (SmResult × List (BitVec 32) × List Client)
  | [] => some (0, [], [])
  | k :: ks =>
    if wanted k then do
      let (publication, k) ← k.publish notificationId flags
      if publication.succeeds flags then
        let (res, pids, ks) ← publishWhere wanted notificationId flags ks
        return (res, k.data.pid :: pids, k :: ks)
      else return (0xD8606408, [], k :: ks)
    else (publishWhere wanted notificationId flags ks).map fun (res, pids, ks) =>
      (res, pids, k :: ks)

def publishToSubscriber (notificationId flags : BitVec 32) (clients : List Client) :
    Option (SmResult × List Client) :=
  (publishWhere (·.wants notificationId) notificationId flags clients).map fun (res, _, clients) =>
    (res, clients)

/-- `PublishAndGetSubscriber`, with the list of ids that is put into the reply. -/
def publishAndGetSubscriber (notificationId flags : BitVec 32) (clients : List Client) :
    Option (SmResult × List (BitVec 32) × List Client) :=
  (publishWhere (·.wants notificationId) notificationId flags clients).map
    fun (res, pids, clients) => (res, pids.take 60, clients)

/-- `PublishToProcess`; the kernel gives the id for the handle, unless it fails. -/
def publishToProcess (svcGetProcessId : Except SmResult (BitVec 32)) (notificationId : BitVec 32)
    (clients : List Client) : Option (SmResult × List Client) :=
  match svcGetProcessId with
  | .error res => some (res, clients)
  | .ok pid => withProcess pid (fun k =>
      if k.data.notificationEnabled = false then some (0xD8806404, k)
      else (k.publish notificationId 0).map fun (publication, k) =>
        (if publication.succeeds 0 then 0 else 0xD8606408, k)) clients

def publishToAll (notificationId : BitVec 32) (clients : List Client) :
    Option (SmResult × List Client) :=
  (publishWhere (·.data.notificationEnabled) notificationId 0 clients).map fun (res, _, clients) =>
    (res, clients)

/-- `doRegisterProcess`; it panics where the pool of records is empty. -/
def doRegisterProcess (pid : BitVec 32) (clients : List Client) : Option (List Client) :=
  if processPoolSize ≤ clients.length then none else some (Client.new pid :: clients)

def registerProcess (maxEntries : ℕ) (pid : BitVec 32) (serviceAccessListSize : ℕ)
    (clients : List Client) : Option (SmResult × List Client) :=
  let serviceAccessListSize := serviceAccessListSize - serviceAccessListSize % 8
  if clients.any (·.data.pid = pid) then some (0xD9006403, clients)
  else if 8 * maxEntries < serviceAccessListSize then some (0xD9006405, clients)
  else (doRegisterProcess pid clients).map fun clients => (0, clients)

def unregisterProcess (pid : BitVec 32) (clients : List Client) : SmResult × List Client :=
  if clients.any (·.data.pid = pid) then (0, clients.eraseP (·.data.pid = pid))
  else (0xD8806404, clients)

/-- `EnableNotification`; the first modules are registered by it. -/
def enable (nbSection0Modules pid : BitVec 32) (clients : List Client) :
    Option (SmResult × List Client) :=
  let listen := withProcess pid fun k => some (0, { k with data := enableNotification k.data })
  if clients.any (·.data.pid = pid) then listen clients
  else if pid < nbSection0Modules then (doRegisterProcess pid clients).bind listen
  else some (0xD8806404, clients)

/-! ## Runs -/

/-- The requests about notifications and processes, and the waits of the processes. -/
inductive Call where
  | registerProcess (pid : BitVec 32) (serviceAccessListSize : ℕ)
  | unregisterProcess (pid : BitVec 32)
  | enableNotification (pid : BitVec 32)
  | subscribe (pid notificationId : BitVec 32)
  | unsubscribe (pid notificationId : BitVec 32)
  | receiveNotification (pid : BitVec 32)
  | publishToSubscriber (notificationId flags : BitVec 32)
  | publishAndGetSubscriber (notificationId : BitVec 32)
  | publishToProcess (svcGetProcessId : Except SmResult (BitVec 32)) (notificationId : BitVec 32)
  | publishToAll (notificationId : BitVec 32)
  | wait (pid : BitVec 32)

def request (f : ProcessData → SmResult × ProcessData) (k : Client) : Option (SmResult × Client) :=
  let (res, data) := f k.data
  some (res, { k with data := data })

def step (nbSection0Modules : BitVec 32) (maxEntries : ℕ) (clients : List Client) :
    Call → Option (List Client)
  | .registerProcess pid size => (registerProcess maxEntries pid size clients).map Prod.snd
  | .unregisterProcess pid => some (unregisterProcess pid clients).2
  | .enableNotification pid => (enable nbSection0Modules pid clients).map Prod.snd
  | .subscribe pid notificationId =>
    (withProcess pid (request (subscribe · notificationId)) clients).map Prod.snd
  | .unsubscribe pid notificationId =>
    (withProcess pid (request (unsubscribe · notificationId)) clients).map Prod.snd
  | .receiveNotification pid => (withProcess pid (fun k => some k.receive) clients).map Prod.snd
  | .publishToSubscriber notificationId flags =>
    (publishToSubscriber notificationId flags clients).map Prod.snd
  | .publishAndGetSubscriber notificationId =>
    (publishAndGetSubscriber notificationId 0 clients).map fun (_, _, clients) => clients
  | .publishToProcess svcGetProcessId notificationId =>
    (publishToProcess svcGetProcessId notificationId clients).map Prod.snd
  | .publishToAll notificationId => (publishToAll notificationId clients).map Prod.snd
  | .wait pid =>
    (withProcess pid (fun k => k.wait.map fun k => (0, k)) clients).map Prod.snd

end Presence3DS.Sm.Notifications
