import Presence3DS.Gdb.HexCodec
import Presence3DS.Gdb.IntegerLists
import Presence3DS.Gdb.IoRegion
import Presence3DS.Gdb.SearchMemory

/-! The packets that read and write the memory of the target (`mem.c`), page by page and through
local buffers. -/

namespace Presence3DS.Gdb.Packets
open Buffer CString RawMemory

/-! ## The target -/

/-- The memory of the target, and what the kernel answers about its pages. -/
structure Target where
  byte : Memory
  ttbcr : ℕ
  ttbcr_pos : 0 < ttbcr
  ttbcr_le : ttbcr ≤ 7
  enableExternalMemoryAccess : Bool
  svcReadProcessMemory : ℕ → Bool
  svcWriteProcessMemory : ℕ → Bool
  /-- The physical address of a page, which may be written or not. -/
  svcConvertVAToPA : ℕ → Bool → ℕ

/-- What is done with a part of a page: the accesses that are made, with their places in the local
buffer; or nothing; or the function calls itself with the same address for ever. -/
inductive PageAccess where
  | failed
  | made (accesses : List TargetAccess)
  | endless

/-- A part of a range, within a page, and how much of the range is in front of it. -/
structure Piece where
  total : ℕ
  addr : ℕ
  nb : ℕ
deriving DecidableEq

def IsIo (addr : ℕ) : Prop := 0x90000000 ≤ addr ∧ addr < 0x98000000

instance (addr : ℕ) : Decidable (IsIo addr) := inferInstanceAs (Decidable (_ ∧ _))

namespace Target

def limit (t : Target) : ℕ := 2 ^ (32 - t.ttbcr)

/-- The accesses to memory that is not the process's own, from 0x80000000 to 0xB0000000. -/
def externalAccesses (addr len : ℕ) : List TargetAccess :=
  if IsIo addr then ioAccesses addr len else [⟨len, addr, 0⟩]

/-- `GDB_ReadTargetMemoryInPage` -/
def readInPage (t : Target) (addr len : ℕ) : PageAccess :=
  if addr < t.limit then
    if t.svcReadProcessMemory (addr / 0x1000) then .made [⟨len, addr, 0⟩] else .failed
  else if t.enableExternalMemoryAccess = false then .failed
  else if 0x80000000 ≤ addr ∧ addr < 0xB0000000 then .made (externalAccesses addr len)
  else if t.svcConvertVAToPA (addr / 0x1000) false = 0 then .failed
  else .made [⟨len, addr, 0⟩]

/-- `GDB_WriteTargetMemoryInPage`, which calls itself for an address that is not mapped. -/
def writeInPage (t : Target) (addr len : ℕ) : PageAccess :=
  if addr < t.limit then
    if t.svcWriteProcessMemory (addr / 0x1000) then .made [⟨len, addr, 0⟩] else .failed
  else if t.enableExternalMemoryAccess = false then .failed
  else if 0x80000000 ≤ addr ∧ addr < 0xB0000000 then .made (externalAccesses addr len)
  else if t.svcConvertVAToPA (addr / 0x1000) true = 0 then .endless
  else .made [⟨len, addr, 0⟩]

end Target

/-- The passes of the loops over the pages, with a unit of fuel for each. There is always one. -/
def pieces : ℕ → ℕ → ℕ → ℕ → List Piece
  | 0, _, _, _ => []
  | fuel + 1, total, addr, remaining =>
    let nb := if 0x1000 - addr % 0x1000 < remaining then 0x1000 - addr % 0x1000 else remaining
    ⟨total, addr, nb⟩ ::
      if remaining - nb = 0 then []
      else pieces fuel (total + nb) ((addr + nb) % 2 ^ 32) (remaining - nb)

def piecesOf (addr len : ℕ) : List Piece := pieces (len / 0x1000 + 2) 0 addr len

/-- How much has been read or written, with which accesses, and whether the function returns. -/
structure Transfer where
  total : ℕ
  accesses : List TargetAccess
  returns : Bool

/-- The loops of `GDB_ReadTargetMemory` and `GDB_WriteTargetMemory`: up to the first failure. -/
def transfer (inPage : ℕ → ℕ → PageAccess) : List Piece → ℕ → Transfer
  | [], total => ⟨total, [], true⟩
  | p :: ps, total =>
    match inPage p.addr p.nb with
    | .failed => ⟨total, [], true⟩
    | .endless => ⟨total, [], false⟩
    | .made accesses =>
      let rest := transfer inPage ps (p.total + p.nb)
      ⟨rest.total, accesses.map (fun a => { a with buffer := p.total + a.buffer }) ++
        rest.accesses, rest.returns⟩

def gdbReadTargetMemory (t : Target) (addr len : ℕ) : Transfer :=
  transfer t.readInPage (piecesOf addr len) 0

def gdbWriteTargetMemory (t : Target) (addr len : ℕ) : Transfer :=
  transfer t.writeInPage (piecesOf addr len) 0

/-! ## The handlers -/

inductive MemoryReply where
  | ok
  | errno (no : ℕ)
  | hex (data : Bytes)
deriving DecidableEq

def enomem : ℕ := 12

def efault : ℕ := 14

def eilseq : ℕ := 138

/-- A packet that has been received, with the address of the buffer that it is in. -/
structure Packet where
  base : ℕ
  base_lt : base + bufferSize < 2 ^ 32
  buffer : Bytes
  length_buffer : buffer.length = bufferSize
  commandEnd : ℕ
  le_commandEnd : 2 ≤ commandEnd
  commandEnd_lt : commandEnd + 2 < bufferSize
  terminated : buffer[commandEnd]? = some 0

/-- What a handler does: how far it looks at the packet, what it puts into its local buffer of it,
what it transfers, and its reply, unless it does not return. -/
structure MemoryRun where
  looked : ℕ
  data : Bytes
  transfer : Option Transfer
  reply : Option MemoryReply

def MemoryRun.error (looked : ℕ) (data : Bytes) (no : ℕ) : MemoryRun :=
  ⟨looked, data, none, some (.errno no)⟩

namespace Packet

def commandData (p : Packet) : Bytes := p.buffer.drop 2

/-- Behind the NUL of the command data, which the parsers do not look beyond -/
def stringEnd (p : Packet) : ℕ := 2 + (str p.commandData).length + 1

/-- The place of what is left of the buffer. -/
def place (rest : Bytes) : ℕ := bufferSize - rest.length

/-- The bytes of the packet from a place on. -/
def carried (p : Packet) (dataStart : Bytes) : Bytes :=
  dataStart.take (p.commandEnd - place dataStart)

end Packet

/-- `GDB_SendMemory` without a prefix; `junk` is what the local buffer holds before. -/
def gdbSendMemory (t : Target) (junk : Memory) (looked addr len : ℕ) : MemoryRun :=
  if gdbBufLen < 2 * len % 2 ^ 32 then .error looked [] enomem
  else
    let r := gdbReadTargetMemory t addr len
    ⟨looked, [], some r, some (if r.total = 0 then .errno efault
      else .hex (gdbEncodeHex (read (ioRead r.accesses t.byte junk) 0 r.total)))⟩

def handleReadMemory (t : Target) (junk : Memory) (p : Packet) : MemoryRun :=
  match gdbParseHexIntegerList 32 2 0 p.commandData with
  | some ([addr, len], _) => gdbSendMemory t junk p.stringEnd addr len
  | _ => .error p.stringEnd [] eilseq

/-- `GDB_WriteMemory` -/
def gdbWriteMemory (t : Target) (looked : ℕ) (buf : Bytes) (addr len : ℕ) : MemoryRun :=
  let r := gdbWriteTargetMemory t addr len
  ⟨looked, buf, some r,
    if r.returns then some (if r.total ≠ len then .errno efault else .ok) else none⟩

/-- How many bytes `GDB_DecodeHex` looks at. -/
def decodeHexLooks (lowLast : Bool) : ℕ → Bytes → ℕ
  | 0, _ => 0
  | len + 1, hi :: lo :: src =>
    if hi = 0 then 1
    else if lo ≠ 0 ∧ (gdbDecodeHexDigit (if lowLast then lo else hi)).isSome then
      2 + decodeHexLooks lowLast len src
    else 2
  | _ + 1, _ => 2

/-- The sum of a pointer and a length is not to be beyond the buffer. -/
def beyondBuffer (p : Packet) (dataStart : Bytes) (len : ℕ) : Prop :=
  p.base + bufferSize ≤ (p.base + Packet.place dataStart + len) % 2 ^ 32

instance (p : Packet) (dataStart : Bytes) (len : ℕ) : Decidable (beyondBuffer p dataStart len) :=
  inferInstanceAs (Decidable (_ ≤ _))

def handleWriteMemory (lowLast : Bool) (t : Target) (p : Packet) : MemoryRun :=
  match gdbParseHexIntegerList 32 2 0x3A p.commandData with
  | some ([addr, len], 0x3A :: dataStart) =>
    if beyondBuffer p dataStart (2 * len % 2 ^ 32) then .error p.stringEnd [] enomem
    else
      let (n, data) := gdbDecodeHex lowLast len dataStart
      let looked := Packet.place dataStart + decodeHexLooks lowLast len dataStart
      if n ≠ len then .error looked data eilseq else gdbWriteMemory t looked data addr len
  | _ => .error p.stringEnd [] eilseq

/-- How many bytes `GDB_UnescapeBinaryData` may look at: an escape at the end takes one more. -/
def unescapeLooks (count : ℕ) : ℕ := if count = 0 then 0 else count + 1

/-- What becomes of the bytes from `dataStart` on, with the escapes of `count` of them taken off. -/
def writeUnescaped (t : Target) (dataStart : Bytes) (addr len count : ℕ) : MemoryRun :=
  let data := gdbUnescapeBinaryData count dataStart
  let looked := Packet.place dataStart + unescapeLooks count
  if data.length ≠ len then .error looked data data.length
  else gdbWriteMemory t looked data addr len

/-- The loop that takes off the escapes ends before it begins where its end is beyond the last
address. -/
def handleWriteMemoryRaw (t : Target) (p : Packet) : MemoryRun :=
  match gdbParseHexIntegerList 32 2 0x3A p.commandData with
  | some ([addr, len], 0x3A :: dataStart) =>
    if beyondBuffer p dataStart len then .error p.stringEnd [] enomem
    else writeUnescaped t dataStart addr len
      (if p.base + Packet.place dataStart + len < 2 ^ 32 then len else 0)
  | _ => .error p.stringEnd [] eilseq

/-! ## What the handlers are to do -/

/-- The bytes of a range, which goes on from the last address to 0. -/
def bytesAt (m : Memory) (addr n : ℕ) : Bytes := (List.range n).map fun i => m ((addr + i) % 2 ^ 32)

/-- The memory with some bytes in a range -/
def putAt (m : Memory) (addr : ℕ) (data : Bytes) : Memory := fun x =>
  if x < 2 ^ 32 then (data[(x + (2 ^ 32 - addr)) % 2 ^ 32]?).getD (m x) else m x

/-- The bytes of pairs of hexadecimal digits -/
def hexBytes : Bytes → Option Bytes
  | [] => some []
  | hi :: lo :: s => (hexPair hi lo).bind fun b => (hexBytes s).map (b :: ·)
  | [_] => none

/-- The bytes of escaped data, of which each escape is whole. -/
def rawBytes : Bytes → Option Bytes
  | [] => some []
  | c :: s =>
    if c = 0x7D then
      match s with
      | d :: s => (rawBytes s).map ((d ^^^ 0x20) :: ·)
      | [] => none
    else (rawBytes s).map (c :: ·)

/-- The accesses stay in a local buffer of some size, and each byte of the range is accessed at its
place there. -/
def Transfer.Exact (r : Transfer) (addr size : ℕ) : Prop :=
  ∀ a ∈ r.accesses, a.buffer + a.width ≤ size ∧ a.target = (addr + a.buffer) % 2 ^ 32

namespace Target

/-- Whether the bytes of a page can be read -/
def readable (t : Target) (addr : ℕ) : Bool :=
  if addr < t.limit then t.svcReadProcessMemory (addr / 0x1000)
  else t.enableExternalMemoryAccess &&
    (0x80000000 ≤ addr && addr < 0xB0000000 || t.svcConvertVAToPA (addr / 0x1000) false ≠ 0)

/-- The lengths of the parts from the beginning of a range that can be read -/
def prefixes (t : Target) (addr len : ℕ) : Set ℕ :=
  {n | n ≤ len ∧ ∀ i < n, t.readable ((addr + i) % 2 ^ 32) = true}

end Target

/-- A read is answered with the longest part that can be read, or refused where it has no room in a
reply. -/
structure ReadsWell (t : Target) (p : Packet) : Prop where
  packet : ∀ junk, (handleReadMemory t junk p).looked ≤ bufferSize
  buffers : ∀ junk addr len rest r,
    gdbParseHexIntegerList 32 2 0 p.commandData = some ([addr, len], rest) →
    (handleReadMemory t junk p).transfer = some r →
    r.Exact addr (gdbBufLen / 2) ∧ 2 * r.total ≤ gdbBufLen
  reply : ∀ junk addr len rest,
    gdbParseHexIntegerList 32 2 0 p.commandData = some ([addr, len], rest) →
    (handleReadMemory t junk p).reply = some (.errno enomem) ∧ gdbBufLen < 2 * len ∨
    ∃ n, IsGreatest (t.prefixes addr len) n ∧ (handleReadMemory t junk p).reply =
      some (if n = 0 then .errno efault else .hex (gdbEncodeHex (bytesAt t.byte addr n)))

/-- A write is made with the bytes that the packet carries behind the colon, from the first one up
to a page that cannot be written. -/
structure WritesWell (decoded : Bytes → Option Bytes) (size : ℕ) (t : Target) (p : Packet)
    (run : MemoryRun) : Prop where
  packet : run.looked ≤ bufferSize
  data : run.data.length ≤ size
  performed : ∀ addr len dataStart r,
    gdbParseHexIntegerList 32 2 0x3A p.commandData = some ([addr, len], 0x3A :: dataStart) →
    run.transfer = some r →
    decoded (p.carried dataStart) = some run.data ∧ run.data.length = len ∧ r.returns = true ∧
      r.Exact addr len ∧ ∀ junk : Memory,
        ioWrite r.accesses t.byte (write junk 0 run.data) =
          putAt t.byte addr (run.data.take r.total)

end Presence3DS.Gdb.Packets
