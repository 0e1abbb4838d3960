import Presence3DS.Pxi.Sender

/-! The threads of the PXI module (`sender.c`, `receiver.c`, `main.c`) with their clients and Arm9,
each step of which may come in any order that the locks allow. No termination is requested. -/

namespace Presence3DS.Pxi

/-- What `svcReplyAndReceive` returns with. -/
inductive Returned where
  /-- The target of the reply is closed, or the session of a service. -/
  | closed (serviceId : Option Service)
  | sendAllBuffersToArm9
  | reply
  | command (serviceId : Service)

inductive SenderPc where
  | begin
  | sending (i : ℕ)
  /-- The reply of a session is in the buffer, or none. -/
  | replying (sessionId : Option Service)
  | waiting (idleSessions : List Service)
  | returned (index : Returned)
  | scanning (sessionId : ℕ)
  | replyFound (sessionId : Service)

structure Sender where
  pc : SenderPc
  replyTarget : Option ClientSession
  cmdbuf : Cmdbuf

inductive ReceiverPc where
  | begin
  | idle
  | received (serviceId : ℕ)
  | awaitingReplySent

/-- The session of `pxi:srv11`, which `PXISRV11Handler` handles, and its events. -/
structure Srv11 where
  started : Bool
  state : SessionState
  buffer : Cmdbuf
  commandReceived : Bool
  replySent : Bool

/-- What has happened to the commands of a service, the latest first: from which session each was
received, what was sent to Arm9, what Arm9 has answered, and to which session the answer was
returned, or dropped. -/
structure Traffic where
  received : List (ClientSession × List Word)
  sent : List (List Word)
  answered : List (List Word)
  returned : List (ClientSession × Option (List Word))

/-- What the code does not keep. -/
structure Trail where
  traffic : Service → Traffic
  /-- The command in flight was counted when it was sent. -/
  counted : Service → Bool
  /-- The static buffers that the kernel may have filled for the last command. -/
  filled : Service → List ℕ
  /-- The last `pxi:mc` command 5 was to disable the sending. -/
  askedToDisable : Bool

structure PxiState where
  manager : SessionManager
  sender : Sender
  receiver : ReceiverPc
  srv11 : Srv11
  replySemaphore : ℕ
  sendAllBuffersToArm9Event : Bool
  /-- The services whose command Arm9 has received and not answered. -/
  arm9 : List Service
  /-- What Arm9 has sent. -/
  fifo : List (ℕ × Cmdbuf)
  accepted : ℕ
  trail : Trail

inductive PxiThread where
  | sender
  | receiver
  | main
  | handler
deriving DecidableEq

/-- A message of Arm9 fits its buffer. -/
abbrev Arm9Message : Type := { m : Cmdbuf // nbWords (m 0) ≤ 0x40 }

inductive PxiEvent where
  /-- The sender goes on, where a client may have closed its session before its reply. -/
  | sender (targetClosed : Bool)
  | wake (index : Returned) (cmdbuf : Cmdbuf)
  | receiver
  | handler (published : Word)
  | accept (serviceId : Service)
  | arm9Answers (serviceId : Service) (reply : Arm9Message)
  | arm9Requests (request : Arm9Message)

namespace Trail

def setTraffic (l : Trail) (i : Service) (t : Traffic) : Trail :=
  { l with traffic := Function.update l.traffic i t }

def noteReceived (l : Trail) (i : Service) (client : Option ClientSession) (filled : List ℕ)
    (cmdbuf : Cmdbuf) : Trail :=
  let t := l.traffic i
  { l.setTraffic i { t with
      received := client.toList.map (fun h => (h, message cmdbuf)) ++ t.received } with
    filled := Function.update l.filled i filled
    askedToDisable := match SessionManager.pxiMc5Val i cmdbuf with
      | .none => l.askedToDisable
      | .disable => true
      | .enable => false }

def noteSent (l : Trail) (i : Service) (counted : Bool) (buffer : Cmdbuf) : Trail :=
  let t := l.traffic i
  { l.setTraffic i { t with sent := message buffer :: t.sent } with
    counted := Function.update l.counted i counted }

def noteAnswered (l : Trail) (i : Service) (reply : Cmdbuf) : Trail :=
  let t := l.traffic i
  l.setTraffic i { t with answered := message reply :: t.answered }

def noteReturned (l : Trail) (i : Service) (client : ClientSession) (reply : Option (List Word)) :
    Trail :=
  let t := l.traffic i
  l.setTraffic i { t with returned := (client, reply) :: t.returned }

end Trail

namespace PxiState

def goto (s : PxiState) (pc : SenderPc) : PxiState := { s with sender := { s.sender with pc := pc } }

/-- The loop of the sender starts again without a reply. -/
def restart (s : PxiState) : PxiState :=
  { s with sender := { s.sender with pc := .sending 0, replyTarget := none } }

def setManager (s : PxiState) (m : SessionManager) : PxiState := { s with manager := m }

def state (s : PxiState) (i : Service) : SessionState := (s.manager.sessionData i).state

def handle (s : PxiState) (i : Service) : Option ClientSession := (s.manager.sessionData i).handle

def buffer (s : PxiState) (i : Service) : Cmdbuf := (s.manager.sessionData i).buffer

/-- The services whose sessions the sender waits on. -/
def idleSessions (s : PxiState) : List Service :=
  (List.finRange 9).filter fun i => s.handle i ≠ none && s.state i = .idle

def begin (s : PxiState) : PxiState :=
  let buffers := { s.manager.staticBuffers with free := ((1 : Word) <<< nbStaticBuffers) - 1 }
  (s.setManager { s.manager with staticBuffers := acquireStaticBuffers buffers }).restart

def sendToArm9 (s : PxiState) (i : Service) : PxiState :=
  { s with
    manager := s.manager.sendToArm9 i
    arm9 := i :: s.arm9
    trail := s.trail.noteSent i (!s.manager.sendingDisabled) (s.buffer i) }

/-- One session of the send loop, or its end. -/
def sending (s : PxiState) (i : ℕ) : PxiState :=
  if h : i < 9 then
    if s.manager.sends ⟨i, h⟩ then (s.sendToArm9 ⟨i, h⟩).goto (.sending (i + 1))
    else s.goto (.sending (i + 1))
  else
    { s with sender := { s.sender with
        pc := .replying none
        cmdbuf := Function.update s.sender.cmdbuf 0 0xFFFF0000 } }

/-- `svcReplyAndReceive` replies, and waits where that succeeds. -/
def replying (s : PxiState) (sessionId : Option Service) (targetClosed : Bool) : PxiState :=
  match sessionId, s.sender.replyTarget with
  | some i, some target =>
    if targetClosed then
      { s with trail := s.trail.noteReturned i target none }.goto (.returned (.closed none))
    else
      { s with trail := s.trail.noteReturned i target (message s.sender.cmdbuf) }.goto
        (.waiting s.idleSessions)
  | _, _ => s.goto (.waiting s.idleSessions)

def closeSession (s : PxiState) (i : Service) : PxiState :=
  (s.setManager (s.manager.setSession i { s.manager.sessionData i with handle := none })).restart

def commandReceived (s : PxiState) (i : Service) : Option PxiState :=
  (s.manager.commandReceived i s.sender.cmdbuf).map fun m =>
    { s.setManager m with
      trail := s.trail.noteReceived i (s.handle i) (s.manager.staticBuffers.filledFor i)
        s.sender.cmdbuf }.restart

def replyReceived (s : PxiState) (i : Service) : Option PxiState :=
  (s.manager.replyReceived i s.sender.cmdbuf).map fun (m, cmdbuf) =>
    { s.setManager m with sender :=
      { pc := if s.handle i = none then .sending 0 else .replying (some i)
        replyTarget := s.handle i
        cmdbuf := cmdbuf } }

/-- The sender goes on with what its wait has returned with. -/
def returned (s : PxiState) : Returned → Option PxiState
  | .closed (some i) => some (s.closeSession i)
  | .closed none =>
    ((List.finRange 9).find? fun i => s.handle i = s.sender.replyTarget).map s.closeSession
  | .sendAllBuffersToArm9 => some s.restart
  | .reply => some (s.goto (.scanning 0))
  | .command i => s.commandReceived i

def scanning (s : PxiState) (sessionId : ℕ) : Option PxiState :=
  if h : sessionId < 9 then
    some (s.goto (if s.state ⟨sessionId, h⟩ = .receivedFromArm9 then .replyFound ⟨sessionId, h⟩
      else .scanning (sessionId + 1)))
  else none

/-- A thread that has no next state panics. -/
def orPanic (thread : PxiThread) : Option PxiState → Except PxiThread PxiState
  | none => .error thread
  | some t => .ok t

def senderStep (s : PxiState) (targetClosed : Bool) : Option (Except PxiThread PxiState) :=
  match s.sender.pc with
  | .begin => some (.ok s.begin)
  | .sending i => some (.ok (s.sending i))
  | .replying sessionId => some (.ok (s.replying sessionId targetClosed))
  | .waiting _ => none
  | .returned index => some (orPanic .sender (s.returned index))
  | .scanning sessionId => some (orPanic .sender (s.scanning sessionId))
  | .replyFound sessionId => some (orPanic .sender (s.replyReceived sessionId))

/-- The wait of the sender ends. -/
def wake (s : PxiState) (index : Returned) (cmdbuf : Cmdbuf) : Option PxiState :=
  match s.sender.pc, index with
  | .waiting idleSessions, .closed (some i) =>
    if i ∈ idleSessions then some (s.goto (.returned index)) else none
  | .waiting _, .sendAllBuffersToArm9 =>
    if s.sendAllBuffersToArm9Event then
      some ({ s with sendAllBuffersToArm9Event := false }.goto (.returned index))
    else none
  | .waiting _, .reply =>
    if s.replySemaphore = 0 then none
    else some ({ s with replySemaphore := s.replySemaphore - 1 }.goto (.returned index))
  | .waiting idleSessions, .command i =>
    if i ∈ idleSessions then
      some { s with sender := { s.sender with pc := .returned index, cmdbuf := cmdbuf } }
    else none
  | _, _ => none

/-- `receiveFromArm9` up to the end of its lock. -/
def receive (s : PxiState) (serviceId : ℕ) (reply : Cmdbuf) : Option PxiState :=
  if h : serviceId < 9 then
    let data := s.manager.sessionData ⟨serviceId, h⟩
    if data.state ≠ .sentToArm9 ∨ 0x40 < nbWords (reply 0) then none
    else some { s.setManager (s.manager.setSession ⟨serviceId, h⟩ { data with
        buffer := memcpy data.buffer reply (nbWords (reply 0))
        state := .receivedFromArm9 }) with receiver := .received serviceId }
  else if serviceId ≠ 9 ∨ s.srv11.state ≠ .sentToArm9 ∨ 0x40 < nbWords (reply 0) then none
  else some { s with
    srv11 := { s.srv11 with
      buffer := memcpy s.srv11.buffer reply (nbWords (reply 0))
      state := .receivedFromArm9 }
    receiver := .received serviceId }

def receiverStep (s : PxiState) : Option (Except PxiThread PxiState) :=
  match s.receiver with
  | .begin =>
    if s.srv11.replySent then
      some (.ok { s with srv11 := { s.srv11 with replySent := false }, receiver := .idle })
    else none
  | .idle =>
    match s.fifo with
    | [] => none
    | (serviceId, reply) :: fifo =>
      some (orPanic .receiver ({ s with fifo := fifo }.receive serviceId reply))
  | .received serviceId =>
    if serviceId = 9 then
      some (.ok { s with
        srv11 := { s.srv11 with commandReceived := true }, receiver := .awaitingReplySent })
    -- The semaphore counts to 9.
    else if 9 ≤ s.replySemaphore then some (.error .receiver)
    else some (.ok { s with replySemaphore := s.replySemaphore + 1, receiver := .idle })
  | .awaitingReplySent =>
    if s.srv11.replySent = false then none
    else if s.srv11.state ≠ .sentToArm9 then some (.error .receiver)
    else some (.ok { s with srv11 := { s.srv11 with replySent := false }, receiver := .idle })

/-- `PXISRV11Handler`, which replies to Arm9 itself. -/
def handlerStep (s : PxiState) (published : Word) : Option (Except PxiThread PxiState) :=
  if s.srv11.started = false then
    some (.ok { s with srv11 :=
      { s.srv11 with started := true, state := .sentToArm9, replySent := true } })
  else if s.srv11.commandReceived = false then none
  else if s.srv11.state ≠ .receivedFromArm9 then some (.error .handler)
  else
    let buffer := s.srv11.buffer
    let isCommand := buffer 0 >>> 16 = 1
    if isCommand ∧ published = 0xD8606408 then some (.error .handler)
    else
      let reply := if isCommand then published else 0xD900182F
      some (.ok { s with srv11 :=
        { s.srv11 with
          commandReceived := false
          state := .sentToArm9
          buffer := Function.update (Function.update buffer 0
            (if isCommand then 0x10040 else 0x40)) 1 reply
          replySent := true } })

/-- The sender holds its lock but before its first round and in its wait. -/
def lockIsFree (s : PxiState) : Bool :=
  match s.sender.pc with
  | .begin | .waiting _ | .returned _ => true
  | _ => false

def accept (s : PxiState) (i : Service) : Option (Except PxiThread PxiState) :=
  if s.lockIsFree = false then none
  else if s.handle i ≠ none then some (.error .main)
  else
    let data := s.manager.sessionData i
    some (.ok { s.setManager (s.manager.setSession i { data with handle := some s.accepted }) with
      accepted := s.accepted + 1
      sendAllBuffersToArm9Event := true })

def arm9Answers (s : PxiState) (i : Service) (reply : Arm9Message) : Option PxiState :=
  if i ∈ s.arm9 then
    some { s with
      arm9 := s.arm9.erase i
      fifo := s.fifo ++ [(i.val, reply.1)]
      trail := s.trail.noteAnswered i reply.1 }
  else none

def step (s : PxiState) : PxiEvent → Option (Except PxiThread PxiState)
  | .sender targetClosed => s.senderStep targetClosed
  | .wake index cmdbuf => (s.wake index cmdbuf).map .ok
  | .receiver => s.receiverStep
  | .handler published => s.handlerStep published
  | .accept i => s.accept i
  | .arm9Answers i reply => (s.arm9Answers i reply).map .ok
  | .arm9Requests request => some (.ok { s with fifo := s.fifo ++ [(9, request.1)] })

/-- The threads are about to start. -/
def boot : PxiState where
  manager :=
    { latestPxiMc5Val := .none
      pendingArm9Commands := 0
      sendingDisabled := false
      sessionData := fun _ => ⟨.idle, fun _ => 0, none, 0⟩
      staticBuffers := ⟨0, 0, []⟩ }
  sender := ⟨.begin, none, fun _ => 0⟩
  receiver := .begin
  srv11 := ⟨false, .idle, fun _ => 0, false, false⟩
  replySemaphore := 0
  sendAllBuffersToArm9Event := false
  arm9 := []
  fifo := []
  accepted := 0
  trail := ⟨fun _ => ⟨[], [], [], []⟩, fun _ => false, fun _ => [], false⟩

end PxiState

/-- A step of the module; a panic of one of its threads ends it. -/
def pxiStep : Except PxiThread PxiState → PxiEvent → Option (Except PxiThread PxiState)
  | .error _, _ => none
  | .ok s, event => s.step event

/-- What is asked of the states in which no thread has panicked. -/
def Unpanicked (P : PxiState → Prop) : Except PxiThread PxiState → Prop
  | .error _ => True
  | .ok s => P s

/-- The sender goes through its sessions, and waits. -/
def round : List PxiEvent := List.replicate 12 (.sender false)

/-- A command for the service, and the round after it. -/
def arrives (i : Service) (header argument : Word) : List PxiEvent :=
  .wake (.command i) (fun k => if k = 0 then header else argument) :: round

/-- Arm9 answers a command, and the sender replies and waits again. -/
def answered (i : Service) : List PxiEvent :=
  [.arm9Answers i ⟨fun _ => 0, by decide⟩, .receiver, .receiver, .wake .reply (fun _ => 0)] ++
    List.replicate (i + 4) (.sender false)

end Presence3DS.Pxi
