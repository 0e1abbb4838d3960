import Presence3DS.Lib.Buffer
import Presence3DS.Lib.CString

/-! The packets of the debugger (`net.c`), and the handlers that they are dispatched to
(`GDB_DoPacket` and the tables that commands are looked up in). -/

namespace Presence3DS.Gdb.Packets
open Buffer CString

/-! ## Sums and digits -/

def gdbComputeChecksum (packetData : Bytes) : UInt8 := packetData.foldl (· + ·) 0

def gdbDecodeHexDigit (src : UInt8) : Option ℕ :=
  if 0x30 ≤ src ∧ src ≤ 0x39 then some (src.toNat - 0x30)
  else if 0x61 ≤ src ∧ src ≤ 0x66 then some (0xA + (src.toNat - 0x61))
  else if 0x41 ≤ src ∧ src ≤ 0x46 then some (0xA + (src.toNat - 0x41))
  else none

/-- The number of bytes and the bytes that are written. Both digits of a byte say in one variable
whether they are digits, and C leaves it open which of them says so last. -/
def gdbDecodeHex (lowLast : Bool) : ℕ → Bytes → ℕ × Bytes
  | len + 1, hi :: lo :: src =>
    if hi = 0 ∨ lo = 0 then (0, [])
    else
      let byte := UInt8.ofNat (16 * (gdbDecodeHexDigit hi).getD 0 + (gdbDecodeHexDigit lo).getD 0)
      if (gdbDecodeHexDigit (if lowLast then lo else hi)).isSome then
        let (i, dst) := gdbDecodeHex lowLast len src
        (i + 1, byte :: dst)
      else (0, [byte])
  | _, _ => (0, [])

/-! ## Receiving -/

/-- `sizeof(ctx->buffer)`, which is `GDB_BUF_LEN + 4` -/
def bufferSize : ℕ := 1028

/-- `GDB_FLAG_NOACK` and the other fields that a packet is received with; `commandEnd` is a place
in the buffer. -/
structure PacketContext where
  noAck : Bool
  noAckSent : Bool
  latestSentPacketSize : ℕ
  commandEnd : ℕ
deriving DecidableEq

/-- What comes of the calls: of the first `recv`, of the one that consumes a `+`, of the one after
that, of the one that consumes a packet, and of `send`. -/
structure Outcomes where
  peek : ℤ
  plus : ℤ
  peekAgain : ℤ
  take : ℤ
  sent : Bool

/-- `socRecv`: an error is negative, and any other result is the number of bytes that came, which
are no more than were asked for and no more than are sent. -/
def recv (outcome : ℤ) (len : ℕ) (stream : Bytes) : ℤ × Bytes :=
  if outcome < 0 then (outcome, [])
  else
    let data := (stream.take len).take outcome.toNat
    (data.length, data)

/-- The result of `GDB_ReceivePacket`, with what is left of the stream and what was sent. -/
structure Received where
  r : ℤ
  ctx : PacketContext
  stream : Bytes
  sends : List Bytes
deriving DecidableEq

/-- `packet_error` -/
def packetError (o : Outcomes) (ctx : PacketContext) (stream : Bytes) : Received :=
  if ctx.noAck then ⟨-1, ctx, stream, []⟩
  else ⟨if o.sent then 0 else -1, ctx, stream, [[0x2D]]⟩

/-- The end of `GDB_ReceivePacket`. -/
def acknowledge (o : Outcomes) (ctx : PacketContext) (r : ℤ) (stream : Bytes) : Received :=
  if !ctx.noAck && !o.sent then ⟨-1, ctx, stream, [[0x2B]]⟩
  else
    ⟨r, if ctx.noAckSent then { ctx with noAck := true, noAckSent := false } else ctx, stream,
      if ctx.noAck then [] else [[0x2B]]⟩

/-- A packet, of which the `#` is at `pos`. -/
def takePacket (lowLast : Bool) (o : Outcomes) (ctx : PacketContext) (stream : Bytes) (pos : ℕ) :
    BufferM UInt8 Received := do
  let (r, data) := recv o.take (3 + pos) stream
  write 0 data
  let buffer ← get
  let rest := stream.drop data.length
  let (count, checksum) := gdbDecodeHex lowLast 1 (buffer.drop (pos + 1))
  if r ≠ 3 + pos ∨ count ≠ 1 then pure (packetError o ctx rest)
  else if gdbComputeChecksum ((buffer.drop 1).take (pos - 1)) ≠ checksum.headD 0 then
    pure (packetError o ctx rest)
  else do
    write pos [0]
    pure (acknowledge o { ctx with commandEnd := pos } r rest)

def takeBreak (o : Outcomes) (ctx : PacketContext) (stream : Bytes) : BufferM UInt8 Received := do
  let (r, data) := recv o.take 1 stream
  write 0 data
  let rest := stream.drop data.length
  if r ≠ 1 then pure (packetError o ctx rest)
  else pure (acknowledge o { ctx with commandEnd := 0 } r rest)

/-- What is done about the bytes that `r` counts; a request to send again is answered with what was
in the buffer before. -/
def handleFront (lowLast : Bool) (o : Outcomes) (ctx : PacketContext) (backupbuf : Bytes) (r : ℤ)
    (stream : Bytes) : BufferM UInt8 Received := do
  let buffer ← get
  let maxlen := (min r bufferSize).toNat
  let pos := ((buffer.take maxlen).takeWhile (· ≠ 0x23)).length
  if buffer.headD 0 = 0x2D then pure ⟨0, ctx, stream, [backupbuf]⟩
  else if buffer.headD 0 = 0x24 then
    if pos = maxlen then pure ⟨-1, ctx, stream, []⟩
    else takePacket lowLast o ctx stream pos
  else if buffer.headD 0 = 0x03 then takeBreak o ctx stream
  else pure (acknowledge o ctx r stream)

def handlePlus (lowLast : Bool) (o : Outcomes) (ctx : PacketContext) (backupbuf : Bytes)
    (stream : Bytes) : BufferM UInt8 Received :=
  if ctx.noAck then pure ⟨-1, ctx, stream, []⟩
  else do
    let (r, data) := recv o.plus 1 stream
    write 0 data
    let rest := stream.drop data.length
    if r ≠ 1 then pure ⟨-1, ctx, rest, []⟩
    else do
      write 0 [0]
      let (r, data) := recv o.peekAgain bufferSize rest
      write 0 data
      if r = -1 then pure (packetError o ctx rest)
      else handleFront lowLast o ctx backupbuf r rest

def gdbReceivePacket (lowLast : Bool) (o : Outcomes) (ctx : PacketContext) (stream : Bytes) :
    BufferM UInt8 Received := do
  let buffer ← get
  let backupbuf := buffer.take ctx.latestSentPacketSize
  memset 0 0 bufferSize
  let (r, data) := recv o.peek bufferSize stream
  write 0 data
  let buffer ← get
  if r < 1 then pure ⟨-1, ctx, stream, []⟩
  else if buffer.headD 0 = 0x2B then handlePlus lowLast o ctx backupbuf stream
  else handleFront lowLast o ctx backupbuf r stream

/-! ## Dispatching -/

def chars (s : List Char) : Bytes := s.map Char.toUInt8

inductive CommandHandler where
  | getStopReason
  | enableExtendedMode
  | continue
  | detach
  | hioReply
  | readRegisters
  | writeRegisters
  | setThreadId
  | kill
  | readMemory
  | writeMemory
  | readRegister
  | writeRegister
  | readQuery
  | writeQuery
  | restart
  | isThreadAlive
  | verboseCommand
  | writeMemoryRaw
  | toggleStopPoint
  | unsupported
  | verboseAttach
  | verboseContinueSupported
  | verboseContinue
  | verboseFile
  | verboseRun
  | verboseKill
  | querySupported
  | queryXfer
  | queryStartNoAckMode
  | queryAttached
  | queryFThreadInfo
  | querySThreadInfo
  | queryThreadEvents
  | queryThreadExtraInfo
  | queryGetTLSAddr
  | queryCurrentThreadId
  | querySearchMemory
  | queryCatchSyscalls
  | queryRcmd
deriving DecidableEq

def gdbCommandHandlers : List (Char × CommandHandler) :=
  [('?', .getStopReason), ('!', .enableExtendedMode), ('c', .continue), ('C', .continue),
    ('D', .detach), ('F', .hioReply), ('g', .readRegisters), ('G', .writeRegisters),
    ('H', .setThreadId), ('k', .kill), ('m', .readMemory), ('M', .writeMemory),
    ('p', .readRegister), ('P', .writeRegister), ('q', .readQuery), ('Q', .writeQuery),
    ('R', .restart), ('T', .isThreadAlive), ('v', .verboseCommand), ('X', .writeMemoryRaw),
    ('z', .toggleStopPoint), ('Z', .toggleStopPoint)]

def gdbVerboseCommandHandlers : List (Bytes × CommandHandler) :=
  [(chars "Attach".toList, .verboseAttach), (chars "Cont?".toList, .verboseContinueSupported),
    (chars "Cont".toList, .verboseContinue), (chars "File".toList, .verboseFile),
    (chars "MustReplyEmpty".toList, .unsupported), (chars "Run".toList, .verboseRun),
    (chars "Kill".toList, .verboseKill)]

inductive QueryDirection where
  | read
  | write
deriving DecidableEq

def gdbQueryHandlers : List (Bytes × CommandHandler × QueryDirection) :=
  [(chars "Supported".toList, .querySupported, .read), (chars "Xfer".toList, .queryXfer, .read),
    (chars "StartNoAckMode".toList, .queryStartNoAckMode, .write),
    (chars "Attached".toList, .queryAttached, .read),
    (chars "fThreadInfo".toList, .queryFThreadInfo, .read),
    (chars "sThreadInfo".toList, .querySThreadInfo, .read),
    (chars "ThreadEvents".toList, .queryThreadEvents, .write),
    (chars "ThreadExtraInfo".toList, .queryThreadExtraInfo, .read),
    (chars "GetTLSAddr".toList, .queryGetTLSAddr, .read),
    (chars "C".toList, .queryCurrentThreadId, .read),
    (chars "Search".toList, .querySearchMemory, .read),
    (chars "CatchSyscalls".toList, .queryCatchSyscalls, .write),
    (chars "Rcmd".toList, .queryRcmd, .read)]

def gdbGetCommandHandler (command : UInt8) : CommandHandler :=
  ((gdbCommandHandlers.find? fun e => e.1.toUInt8 = command).map (·.2)).getD .unsupported

/-- A handler that is called, and the place of its command data in the buffer; `none` is `NULL`. -/
abbrev Dispatch := CommandHandler × Option ℕ

/-- `GDB_HandleVerboseCommand`, with the data at 2 -/
def gdbHandleVerboseCommand (buffer : Bytes) : List Dispatch :=
  let name := (str (buffer.drop 2)).takeWhile fun c => c ≠ 0x3B ∧ c ≠ 0x3A
  if str (buffer.drop 2) = [] then []
  else
    let vData := if name.length < (str (buffer.drop 2)).length then some (name.length + 3) else none
    match gdbVerboseCommandHandlers.find? fun e => e.1 = name with
    | some e => [(e.2, vData)]
    | none => [(.unsupported, some 2)]

/-- `GDB_HandleQuery`, with the data at 2 -/
def gdbHandleQuery (direction : QueryDirection) (buffer : Bytes) : List Dispatch :=
  let name := (str (buffer.drop 2)).takeWhile fun c => c ≠ 0x3A ∧ c ≠ 0x2C
  if str (buffer.drop 2) = [] then []
  else
    let queryData :=
      if name.length < (str (buffer.drop 2)).length then name.length + 3 else name.length + 2
    match gdbQueryHandlers.find? fun e => e.1 = name ∧ e.2.2 = direction with
    | some e => [(e.2.1, some queryData)]
    | none => [(.unsupported, some 2)]

/-- The handlers that a packet's command handler calls itself. -/
def innerDispatches (handler : CommandHandler) (buffer : Bytes) : List Dispatch :=
  match handler with
  | .verboseCommand => gdbHandleVerboseCommand buffer
  | .readQuery => gdbHandleQuery .read buffer
  | .writeQuery => gdbHandleQuery .write buffer
  | _ => []

/-- A packet was reported. -/
def IsReport (received : Received) (buffer : Bytes) : Prop :=
  received.r ≠ 0 ∧ received.r ≠ -1 ∧ buffer.headD 0 = 0x24

instance (received : Received) (buffer : Bytes) : Decidable (IsReport received buffer) :=
  inferInstanceAs (Decidable (_ ∧ _ ∧ _))

/-- The handlers that `GDB_DoPacket` calls for what `GDB_ReceivePacket` has returned. -/
def gdbDispatch (received : Received) (buffer : Bytes) : List Dispatch :=
  if IsReport received buffer then
    let handler := gdbGetCommandHandler (buffer.getD 1 0)
    (handler, some 2) :: innerDispatches handler buffer
  else []

end Presence3DS.Gdb.Packets
