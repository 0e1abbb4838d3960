import Presence3DS.Lib.NodeLists
import Presence3DS.Sm.Services

/-! The main loop of the service manager (`main.c`) and the commands of `srv:` and `srv:pm`
(`srv.c`, `srv_pm.c`). An event is what `svcReplyAndReceive` returns with; a state without a
successor is a panic. -/

namespace Presence3DS.Sm
open CString Kernel

/-- The words of a command buffer that a parked request is replayed from. -/
structure ReplayBuf where
  w0 : BitVec 32
  w1 : BitVec 32
  w2 : BitVec 32
  w3 : BitVec 32
deriving DecidableEq

structure CmdBuf extends ReplayBuf where
  w4 : BitVec 32
  w5 : BitVec 32
deriving DecidableEq

def wordBytes (w : BitVec 32) : Bytes :=
  [UInt8.ofBitVec (w.extractLsb' 0 8), UInt8.ofBitVec (w.extractLsb' 8 8),
    UInt8.ofBitVec (w.extractLsb' 16 8), UInt8.ofBitVec (w.extractLsb' 24 8)]

def ReplayBuf.name (c : ReplayBuf) : NameWord := ⟨wordBytes c.w1 ++ wordBytes c.w2, rfl⟩

def ReplayBuf.nameSize (c : ReplayBuf) : Int := c.w3.toInt

def ReplayBuf.command (c : ReplayBuf) : Nat := (c.w0 >>> 16).toNat

inductive SessionList where
  | inUse
  | free
  | waitingForServiceOrPortRegister
  | toWakeUpAfterServiceOrPortRegister
  | waitingPortReady
deriving DecidableEq

structure SessionData where
  pid : BitVec 32
  replayCmdbuf : ReplayBuf
  busyClientPortHandle : Handle
  isSrvPm : Bool
deriving DecidableEq

/-- A slot of the pool of sessions; its handle is known by the slot. -/
abbrev SessionId := Fin 76

structure SmState where
  servicesInfo : List ServiceInfo
  processes : List (BitVec 32)
  session : SessionId → SessionData
  lists : NodeLists SessionList SessionId
  semaphore : Nat
  cmdbuf : CmdBuf
  replyTarget : Option SessionId
  /-- The last request of each session as it came in, which the code does not keep. -/
  sent : SessionId → CmdBuf

structure KernelVersion where
  isPre7x : Bool
  isPre93 : Bool
  nbSection0Modules : Nat

/-- The module is that of `srv:`, and the summary "would block". -/
def wouldBlock (res : SmResult) : Bool :=
  (res >>> 10) &&& 0xFF = 25 && (res >>> 21) &&& 0x3F = 2

/-- What the kernel answers, and what the commands about notifications return and reply. -/
structure Answers where
  svcCreatePort : Option (Handle × Handle)
  svcCreateSessionToPort : SmResult × Handle
  notificationSemaphore : Handle
  notification : { res : SmResult // wouldBlock res = false }
  notificationReply : CmdBuf
  uninitialized : Bool

namespace SmState

def setSession (s : SmState) (i : SessionId) (data : SessionData) : SmState :=
  { s with session := Function.update s.session i data }

def reply2 (s : SmState) (header res : BitVec 32) : SmState :=
  { s with cmdbuf := { s.cmdbuf with w0 := header, w1 := res } }

def reply4 (s : SmState) (header res w2 w3 : BitVec 32) : SmState :=
  { s with cmdbuf := { s.cmdbuf with w0 := header, w1 := res, w2 := w2, w3 := w3 } }

/-- `memcpy(sessionData->replayCmdbuf, cmdbuf, 16)` -/
def saveReplay (s : SmState) (i : SessionId) : SmState :=
  s.setSession i { s.session i with replayCmdbuf := s.cmdbuf.toReplayBuf }

/-- `memcpy(cmdbuf, sessionData->replayCmdbuf, 16)` -/
def loadReplay (s : SmState) (i : SessionId) : SmState :=
  { s with cmdbuf := { s.cmdbuf with toReplayBuf := (s.session i).replayCmdbuf } }

def setBusy (s : SmState) (i : SessionId) (port : Handle) : SmState :=
  s.setSession i { s.session i with busyClientPortHandle := port }

def move (s : SmState) (i : SessionId) (dst : SessionList) (back : Bool) : SmState :=
  { s with lists := s.lists.moveNode i dst back }

end SmState

/-! ## Services and ports -/

/-- A parked session waits for this registration. -/
def wakesUp (name : NameWord) (isNamedPort : Bool) (data : SessionData) : Bool :=
  data.replayCmdbuf.w0 &&& 0xF0000 = (if !isNamedPort then 0x50000 else 0x80000) &&
    areServiceNamesEqual data.replayCmdbuf.name name data.replayCmdbuf.nameSize

/-- The lists once the waiting sessions are woken, and how many there were. -/
def wakeWaiting (s : SmState) (name : NameWord) (isNamedPort : Bool) :
    NodeLists SessionList SessionId × Nat :=
  NodeLists.moveMatching (fun i => wakesUp name isNamedPort (s.session i))
    .toWakeUpAfterServiceOrPortRegister (s.lists.nodes .waitingForServiceOrPortRegister) s.lists

def semaphoreMax : Nat := 64

/-- The result, the server's port and the new state. -/
def doRegisterServiceOrPort (e : Answers) (s : SmState) (pid : BitVec 32) (clientPort : Handle)
    (name : NameWord) (nameSize : Int) (isNamedPort : Bool) :
    Option (SmResult × Handle × SmState) :=
  let (res, servicesInfo) :=
    registerEntry s.servicesInfo e.svcCreatePort pid clientPort name nameSize isNamedPort
  if res ≠ 0 then some (res, 0, { s with servicesInfo := servicesInfo })
  else
    let (lists, n) := wakeWaiting s name isNamedPort
    if 0 < n ∧ semaphoreMax < s.semaphore + n then none
    else
      let serverPort := if isNamedPort then 0 else e.svcCreatePort.elim 0 Prod.fst
      some (res, serverPort,
        { s with servicesInfo := servicesInfo, lists := lists, semaphore := s.semaphore + n })

/-- The result, the session's handle, and the port to wait for where the service is full. -/
def getServiceHandle (e : Answers) (servicesInfo : List ServiceInfo) (name : NameWord)
    (nameSize : Int) (flags : BitVec 32) : SmResult × Handle × Option Handle :=
  let res := checkServiceName name nameSize
  if res.msb then (res, 0, none)
  else
    match findServicePortByName servicesInfo false name nameSize with
    | none => (0xD0406401, 0, none)
    | some serviceId =>
      let (res, session) := e.svcCreateSessionToPort
      let session := if res.msb then 0 else session
      if res = 0xD0401834 ∧ flags &&& 1 = 0 then
        (0xD0406402, session, servicesInfo[serviceId]?.map ServiceInfo.clientPort)
      else (res, session, none)

def getPort (servicesInfo : List ServiceInfo) (name : NameWord) (nameSize : Int)
    (flags : BitVec 8) : SmResult × Handle :=
  let res := checkServiceName name nameSize
  if res.msb then (res, 0)
  else
    match findServicePortByName servicesInfo true name nameSize with
    | none => (if flags ≠ 0 then 0xD0406401 else 0xD8801BFA, 0)
    | some serviceId =>
      (0, if flags = 0 then (servicesInfo[serviceId]?.map ServiceInfo.clientPort).getD 0 else 0)

def isServiceRegistered (servicesInfo : List ServiceInfo) (uninitialized : Bool) (name : NameWord)
    (nameSize : Int) : SmResult × Bool :=
  let res := checkServiceName name nameSize
  if res.msb then (res, uninitialized)
  else (0, (findServicePortByName servicesInfo false name nameSize).isSome)

/-! ## Commands -/

def invalidCommand (s : SmState) (res : SmResult) : Option (SmResult × SmState) :=
  some (res, s.reply2 0x40 res)

/-- A process of section 0 is registered when it first enables its notifications. -/
def enableNotification (v : KernelVersion) (e : Answers) (s : SmState) (i : SessionId) :
    Option (SmResult × SmState) :=
  let pid := (s.session i).pid
  if findProcessData s.processes pid then some (0, s.reply4 0x20042 0 0 e.notificationSemaphore)
  else if pid.toNat < v.nbSection0Modules then
    (doRegisterProcess s.processes pid).map fun processes =>
      (0, { s with processes := processes }.reply4 0x20042 0 0 e.notificationSemaphore)
  else some (0xD8806404, s.reply4 0x20042 0xD8806404 0 0)

/-- The other commands about notifications leave the table and the lists alone. -/
def notificationCommand (e : Answers) (s : SmState) : Option (SmResult × SmState) :=
  some (e.notification, { s with cmdbuf := e.notificationReply })

def registerClient (s : SmState) (i : SessionId) : Option (SmResult × SmState) :=
  if s.cmdbuf.w0 = 0x10002 ∧ s.cmdbuf.w1 = 0x20 then
    some (0, (s.setSession i { s.session i with pid := s.cmdbuf.w2 }).reply2 0x10040 0)
  else invalidCommand s 0xD9001830

def registerService (e : Answers) (s : SmState) (i : SessionId) : Option (SmResult × SmState) :=
  (doRegisterServiceOrPort e s (s.session i).pid 0 s.cmdbuf.name s.cmdbuf.nameSize false).map
    fun (res, serverPort, s) => (res, s.reply4 0x30042 res 0x10 serverPort)

def registerPort (e : Answers) (s : SmState) (i : SessionId) : Option (SmResult × SmState) :=
  if s.cmdbuf.w0 = 0x600C2 ∧ s.cmdbuf.w4 = 0 then
    (doRegisterServiceOrPort e s (s.session i).pid s.cmdbuf.w5 s.cmdbuf.name s.cmdbuf.nameSize
      true).map fun (res, _, s) => (res, s.reply2 0x60040 res)
  else invalidCommand s 0xD9001830

def unregisterCommand (s : SmState) (i : SessionId) (header : BitVec 32) (isNamedPort : Bool) :
    Option (SmResult × SmState) :=
  let (res, servicesInfo) := unregisterServiceOrPort s.servicesInfo (s.session i).pid
    s.cmdbuf.name s.cmdbuf.nameSize isNamedPort
  some (res, { s with servicesInfo := servicesInfo }.reply2 header res)

def getServiceHandleCommand (e : Answers) (s : SmState) (i : SessionId) :
    Option (SmResult × SmState) :=
  let (res, session, busy) :=
    getServiceHandle e s.servicesInfo s.cmdbuf.name s.cmdbuf.nameSize s.cmdbuf.w4
  let s := match busy with
    | none => s
    | some port => s.setBusy i port
  if wouldBlock res then some (res, s.saveReplay i)
  else some (res, s.reply4 0x50042 res 0x10 session)

def getPortCommand (s : SmState) (i : SessionId) : Option (SmResult × SmState) :=
  let (res, port) :=
    getPort s.servicesInfo s.cmdbuf.name s.cmdbuf.nameSize (s.cmdbuf.w4.setWidth 8)
  if wouldBlock res then some (res, s.saveReplay i)
  else some (res, s.reply4 0x80042 res 0 port)

def isServiceRegisteredCommand (e : Answers) (s : SmState) : Option (SmResult × SmState) :=
  let (res, isRegistered) :=
    isServiceRegistered s.servicesInfo e.uninitialized s.cmdbuf.name s.cmdbuf.nameSize
  some (res, s.reply4 0xE0080 res (if isRegistered then 1 else 0) s.cmdbuf.w3)

def srvHandleCommands (v : KernelVersion) (e : Answers) (s : SmState) (i : SessionId) :
    Option (SmResult × SmState) :=
  match s.cmdbuf.command with
  | 1 => registerClient s i
  | 2 => enableNotification v e s i
  | 3 => registerService e s i
  | 4 => unregisterCommand s i 0x40040 false
  | 5 => getServiceHandleCommand e s i
  | 6 => registerPort e s i
  | 7 => unregisterCommand s i 0x70040 true
  | 8 => getPortCommand s i
  | 14 => isServiceRegisteredCommand e s
  | 9 | 10 | 11 | 12 | 13 => notificationCommand e s
  | _ => invalidCommand s 0xD9001830

def registerProcessCommand (v : KernelVersion) (s : SmState) (mask : BitVec 32) :
    Option (SmResult × SmState) :=
  if s.cmdbuf.w0 = ((mask ||| 3) <<< 16) ||| 0x82 ∧ s.cmdbuf.w3 &&& 0x3C0F = 2 then
    (registerProcess (if v.isPre93 then 32 else 34) s.processes s.cmdbuf.w1
      (s.cmdbuf.w3 >>> 14).toNat).map fun (res, processes) =>
        (res, { s with processes := processes }.reply2 (((mask ||| 3) <<< 16) ||| 0x40) res)
  else invalidCommand s 0xD900182F

def unregisterProcessCommand (s : SmState) (mask : BitVec 32) : Option (SmResult × SmState) :=
  let (res, servicesInfo, processes) := unregisterProcess s.servicesInfo s.processes s.cmdbuf.w1
  some (res, { s with servicesInfo := servicesInfo, processes := processes }.reply2
    (((mask ||| 4) <<< 16) ||| 0x40) res)

def srvPmHandleCommands (v : KernelVersion) (e : Answers) (s : SmState) (i : SessionId) :
    Option (SmResult × SmState) :=
  let mask := (s.cmdbuf.w0 &&& 0x04000000) >>> 16
  if v.isPre7x && mask = 0 then srvHandleCommands v e s i
  else if !v.isPre7x && mask ≠ 0 then invalidCommand s 0xD900182F
  else
    match ((s.cmdbuf.w0 >>> 16) &&& ~~~mask).toNat with
    | 1 | 2 => notificationCommand e s
    | 3 => registerProcessCommand v s mask
    | 4 => unregisterProcessCommand s mask
    | _ => invalidCommand s 0xD900182F

/-! ## The loop -/

/-- Handles the command in the buffer, and parks its session where the result says so. -/
def handleCommand (v : KernelVersion) (e : Answers) (s : SmState) (i : SessionId) :
    Option SmState :=
  let handled := if (s.session i).isSrvPm then srvPmHandleCommands v e s i
    else srvHandleCommands v e s i
  handled.bind fun (res, s) =>
    if wouldBlock res then
      if res = 0xD0406401 then some (s.move i .waitingForServiceOrPortRegister true)
      else if res = 0xD0406402 then some (s.move i .waitingPortReady true)
      else none
    else some { s with replyTarget := some i }

inductive SmEvent where
  | sessionClosed (i : SessionId)
  | portClosed (port : Handle)
  | newSession (isSrvPm : Bool)
  | resume (e : Answers)
  | portReady (port : Handle) (e : Answers)
  | request (i : SessionId) (message : CmdBuf) (e : Answers)

def awaitEvent (s : SmState) : SmState :=
  { s with
    cmdbuf := if s.replyTarget = none then { s.cmdbuf with w0 := 0xFFFF0000 } else s.cmdbuf
    replyTarget := none }

/-- The parked sessions of a closed port wait for its name again. -/
def closePort (s : SmState) (port : Handle) : SmState :=
  let closed i := decide ((s.session i).busyClientPortHandle = port)
  { s with
    session := fun i =>
      if s.lists.parent i = .waitingPortReady ∧ closed i = true then
        { s.session i with
          replayCmdbuf := { (s.session i).replayCmdbuf with w1 := 0xD0406401 }
          busyClientPortHandle := 0 }
      else s.session i
    lists := (NodeLists.moveMatching closed .waitingForServiceOrPortRegister
      (s.lists.nodes .waitingPortReady) s.lists).1 }

def acceptSession (s : SmState) (isSrvPm : Bool) : Option SmState :=
  match s.lists.nodes .free with
  | [] => none
  | i :: _ => some ((s.move i .inUse false).setSession i ⟨-1, ⟨0, 0, 0, 0⟩, 0, isSrvPm⟩)

/-- The oldest session to wake up goes on with its saved request. -/
def resumeSession (v : KernelVersion) (e : Answers) (s : SmState) : Option SmState :=
  if s.semaphore = 0 then none
  else
    match s.lists.nodes .toWakeUpAfterServiceOrPortRegister with
    | [] => none
    | i :: _ =>
      let s := { s with semaphore := s.semaphore - 1 }
      handleCommand v e ((s.move i .inUse false).loadReplay i) i

def resumeOnPort (v : KernelVersion) (e : Answers) (s : SmState) (port : Handle) : Option SmState :=
  match (s.lists.nodes .waitingPortReady).find?
      fun i => (s.session i).busyClientPortHandle = port with
  | none => some s
  | some i => handleCommand v e (((s.move i .inUse false).loadReplay i).setBusy i 0) i

def receiveRequest (v : KernelVersion) (e : Answers) (s : SmState) (i : SessionId)
    (message : CmdBuf) : Option SmState :=
  if s.lists.parent i = .inUse then
    handleCommand v e
      { s with cmdbuf := message, sent := Function.update s.sent i message } i
  else none

def smStep (v : KernelVersion) (s : SmState) (event : SmEvent) : Option SmState :=
  let s := awaitEvent s
  match event with
  | .sessionClosed i => if s.lists.parent i = .inUse then some (s.move i .free false) else none
  | .portClosed port => some (closePort s port)
  | .newSession isSrvPm => acceptSession s isSrvPm
  | .resume e => resumeSession v e s
  | .portReady port e => resumeOnPort v e s port
  | .request i message e => receiveRequest v e s i message

end Presence3DS.Sm
