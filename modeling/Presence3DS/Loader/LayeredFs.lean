import Presence3DS.Lib.Loops
import Presence3DS.Lib.RawMemory
import Mathlib.Logic.Function.Basic

/-! What the LayeredFS patch looks for in the code of a title (`patcher.c`): the functions of the
file system library, and the room for its payload and for its path. With each pass of a loop goes
what the pass reads. -/

namespace Presence3DS.Loader.LayeredFs

open Loops RawMemory

/-! ## The image -/

def u32 (n : ℕ) : ℕ := n % 0x100000000

def sub32 (a b : ℕ) : ℕ := u32 (a + 0x100000000 - b)

/-- `(n + 4095) & 0xFFFFF000` -/
def rounded (n : ℕ) : ℕ := u32 (n + 4095) / 4096 * 4096

/-- The bytes of the pages that hold `n` bytes. -/
def pages (n : ℕ) : ℕ := (n + 4095) / 4096 * 4096

/-- The code of a title, mapped at 0x10000000 with its other segments behind it. The memory is
indexed from `code` on, and has something behind the image, too. -/
structure Image where
  code : Memory
  size : ℕ
  roSize : ℕ
  dataSize : ℕ
  roAddress : ℕ
  dataAddress : ℕ
  fits : pages size + pages roSize + pages dataSize ≤ 0xF0000000

/-- `mapped->total_size << 12` -/
def Image.mapped (img : Image) : ℕ := pages img.size + pages img.roSize + pages img.dataSize

/-- A read of some bytes at an offset from `code`. -/
structure Access where
  off : ℕ
  len : ℕ

def Access.Within (r : Access) (size : ℕ) : Prop := r.off + r.len ≤ size

def word (code : Memory) (a : ℕ) : ℕ := leValue (read code a 4)

def half (code : Memory) (a : ℕ) : ℕ := leValue (read code a 2)

/-- The upper half of an instruction that pushes registers. -/
def pushHalf : ℕ := 0xE92D

/-- The function starts in front of the given position, or there is none. -/
def findFunctionStart (code : Memory) : ℕ → Option ℕ
  | pos + 4 => if half code (pos + 2) = pushHalf then some pos else findFunctionStart code pos
  | _ => none

def functionStartReads (code : Memory) : ℕ → List Access
  | pos + 4 =>
    ⟨pos + 2, 2⟩ :: if half code (pos + 2) = pushHalf then [] else functionStartReads code pos
  | _ => []

/-! ## The symbols -/

/-- What `temp` may point to. -/
inductive Symbol where
  | fsMountArchive
  | fsRegisterArchive
  | fsTryOpenFile
  | fsOpenFileDirectly
  | fsUnmountArchive
  deriving DecidableEq

def Symbol.all : List Symbol :=
  [.fsMountArchive, .fsRegisterArchive, .fsTryOpenFile, .fsOpenFileDirectly, .fsUnmountArchive]

/-- `(addr32[index] & mask) == value` -/
structure WordTest where
  index : ℕ
  mask : ℕ
  value : ℕ
  deriving DecidableEq

/-- A case of the `switch`: the words that are tested must fit, `addr <= size - bound`. -/
structure Candidate where
  first : ℕ
  bound : ℕ
  symbol : Symbol
  rest : List WordTest
  deriving DecidableEq

/-- The last case has no bound of its own; the loop has checked one word. -/
def candidates : List Candidate :=
  [⟨0xE5970010, 12, .fsMountArchive,
      [⟨1, 0xFFFFFFFF, 0xE1CD20D8⟩, ⟨2, 0xFFFFFF, 0x008D0000⟩]⟩,
    ⟨0xE24DD028, 16, .fsMountArchive,
      [⟨1, 0xFFFFFFFF, 0xE1A04000⟩, ⟨2, 0xFFFFFFFF, 0xE59F60A8⟩, ⟨3, 0xFFFFFFFF, 0xE3A0C001⟩]⟩,
    ⟨0xE2844001, 12, .fsUnmountArchive,
      [⟨1, 0xFFFFFFFF, 0xE3540020⟩, ⟨2, 0xFFFFFFFF, 0x3AFFFFF0⟩]⟩,
    ⟨0xE353003A, 12, .fsUnmountArchive,
      [⟨1, 0xFFFFFF0F, 0x0A000009⟩, ⟨2, 0xFFFF0FF0, 0xE1A00400⟩]⟩,
    ⟨0xE3500008, 12, .fsRegisterArchive,
      [⟨1, 0xFFF00FF0, 0xE1800400⟩, ⟨2, 0xFFF00FF0, 0xE1800FC0⟩]⟩,
    ⟨0xE351003A, 0x40, .fsTryOpenFile,
      [⟨1, 0xFFFFFFFF, 0x1AFFFFFC⟩, ⟨0xD, 0xFFFFFFFF, 0xE590C000⟩,
        ⟨0xF, 0xFFFFFFFF, 0xE12FFF3C⟩]⟩,
    ⟨0x08030204, 4, .fsOpenFileDirectly, []⟩]

def WordTest.Holds (t : WordTest) (code : Memory) (addr : ℕ) : Prop :=
  word code (addr + 4 * t.index) &&& t.mask = t.value

instance (t : WordTest) (code : Memory) (addr : ℕ) : Decidable (t.Holds code addr) :=
  inferInstanceAs (Decidable (_ = _))

/-- The words that the tests come to: none behind one that fails. -/
def testReads (code : Memory) (addr : ℕ) : List WordTest → List Access
  | [] => []
  | t :: ts => ⟨addr + 4 * t.index, 4⟩ :: if t.Holds code addr then testReads code addr ts else []

/-- Where `temp` leads to has no value other than 0xFFFFFFFF at first. -/
structure SymbolSearch where
  addr : ℕ
  found : ℕ
  symbols : Symbol → Option ℕ

/-- The case whose words are tested at the current address. -/
def candidateAt (img : Image) (s : SymbolSearch) : Option Candidate :=
  (candidates.find? fun c => c.first = word img.code s.addr).filter fun c =>
    s.addr ≤ sub32 img.size c.bound ∧ s.symbols c.symbol = none

/-- The symbol that is found at the current address, with the start of its function. -/
def symbolAt (img : Image) (s : SymbolSearch) : Option (Symbol × ℕ) :=
  (candidateAt img s).bind fun c =>
    if ∀ t ∈ c.rest, t.Holds img.code s.addr then
      (findFunctionStart img.code s.addr).map fun start => (c.symbol, start)
    else none

/-- What `findLayeredFsSymbols` returns. -/
def SymbolSearch.verdict (s : SymbolSearch) : Bool × (Symbol → Option ℕ) :=
  (s.found = 5 ∨ s.found = 4 ∧ s.symbols .fsUnmountArchive = none, s.symbols)

def SymbolSearch.enter (s : SymbolSearch) (symbol : Symbol) (start : ℕ) : SymbolSearch :=
  { s with found := s.found + 1, symbols := Function.update s.symbols symbol (some start) }

def SymbolSearch.next (s : SymbolSearch) : SymbolSearch := { s with addr := u32 (s.addr + 4) }

/-- One pass of the loop of `findLayeredFsSymbols`. -/
def symbolsPass (img : Image) (s : SymbolSearch) :
    Pass SymbolSearch (Bool × (Symbol → Option ℕ)) :=
  if s.addr ≤ sub32 img.size 4 then
    match symbolAt img s with
    | none => .next s.next
    | some (symbol, start) =>
      if s.found + 1 = 5 then .done (s.enter symbol start).verdict
      else .next (s.enter symbol start).next
  else .done s.verdict

def symbolsReads (img : Image) (s : SymbolSearch) : List Access :=
  if s.addr ≤ sub32 img.size 4 then
    ⟨s.addr, 4⟩ :: match candidateAt img s with
      | none => []
      | some c => testReads img.code s.addr c.rest ++
        if ∀ t ∈ c.rest, t.Holds img.code s.addr then functionStartReads img.code s.addr else []
  else []

/-- As `patchLayeredFs` calls it -/
def symbolsStart : SymbolSearch := ⟨0, 0, fun _ => none⟩

/-- `findLayeredFsSymbols` returns this. -/
def FindLayeredFsSymbols (img : Image) (r : Bool × (Symbol → Option ℕ)) : Prop :=
  Returns (symbolsPass img) symbolsStart r

/-! ## The payload and the path -/

/-- `MAKE_BRANCH_LINK` -/
def makeBranchLink (src dst : ℕ) : ℕ :=
  0xEB000000 + ((((dst : ℤ) - src) / 4 - 2) % 0x1000000).toNat

def svcConnectToPortWord : ℕ := 0xEF00002D

/-- A function with this instruction is not the one that is replaced. -/
def excludedWord : ℕ := 0xE200167E

def strSpaceWord : ℕ := 0xE3A00B42

/-- The path, with the mount point in front and the zero behind. -/
def pathSize : ℕ := 39

structure Places where
  payloadOffset : ℕ
  pathOffset : ℕ
  pathAddress : ℕ

/-- As `patchLayeredFs` sets them before -/
def unset : Places := ⟨0, 0, 0xDEADCAFE⟩

/-- Where the function is: at its start, in the loops for the payload, behind them, or in the loop
for the path. -/
inductive Phase where
  | text
  | connectToPort (addr : ℕ)
  | callOf (svcConnectToPort i : ℕ)
  | bodyOf (svcConnectToPort i func pos : ℕ)
  | path (payloadOffset : ℕ)
  | strSpace (payloadOffset addr : ℕ)

/-- What `findLayeredFsPayloadOffset` returns. -/
def Places.verdict (p : Places) : Bool × Places := (p.payloadOffset ≠ 0 ∧ p.pathOffset ≠ 0, p)

def roPlaces (img : Image) (payloadOffset : ℕ) : Places :=
  ⟨payloadOffset, u32 (rounded img.size + img.roSize), u32 (img.roAddress + img.roSize)⟩

def dataPlaces (img : Image) (payloadOffset : ℕ) : Places :=
  ⟨payloadOffset, u32 (rounded img.size + rounded img.roSize + img.dataSize),
    u32 (img.dataAddress + img.dataSize)⟩

/-- One pass of the loop that `findLayeredFsPayloadOffset` is in, or what lies between two of
them. -/
def placesPass (img : Image) (romfsRedirPatchSize : ℕ) : Phase → Pass Phase (Bool × Places)
  | .text =>
    if romfsRedirPatchSize ≤ sub32 (rounded img.size) img.size then .next (.path img.size)
    else .next (.connectToPort 4)
  | .connectToPort addr =>
    if addr ≤ sub32 img.size 4 then
      if word img.code addr = svcConnectToPortWord then .next (.callOf (addr - 4) 4)
      else .next (.connectToPort (u32 (addr + 4)))
    else .next (.path unset.payloadOffset)
  | .callOf svcConnectToPort i =>
    if i ≤ sub32 img.size 4 then
      if word img.code i ≠ makeBranchLink i svcConnectToPort then
        .next (.callOf svcConnectToPort (u32 (i + 4)))
      else match findFunctionStart img.code i with
        | none => .next (.callOf svcConnectToPort (u32 (i + 4)))
        | some func => .next (.bodyOf svcConnectToPort i func (u32 (func + 4)))
    else .next (.path unset.payloadOffset)
  | .bodyOf svcConnectToPort i func pos =>
    if pos ≤ sub32 img.size 4 ∧ half img.code (pos + 2) ≠ pushHalf then
      if word img.code pos = excludedWord then .next (.callOf svcConnectToPort (u32 (i + 4)))
      else .next (.bodyOf svcConnectToPort i func (u32 (pos + 4)))
    else .next (.path func)
  | .path payloadOffset =>
    if pathSize ≤ sub32 (rounded img.roSize) img.roSize then
      .done (roPlaces img payloadOffset).verdict
    else if pathSize ≤ sub32 (rounded img.dataSize) img.dataSize then
      .done (dataPlaces img payloadOffset).verdict
    else .next (.strSpace payloadOffset 0)
  | .strSpace payloadOffset addr =>
    if addr ≤ sub32 img.size 4 then
      if word img.code addr = strSpaceWord then
        match findFunctionStart img.code addr with
        | none => .next (.strSpace payloadOffset (u32 (addr + 4)))
        | some strSpace =>
          .done (Places.mk payloadOffset strSpace (u32 (0x100000 + strSpace))).verdict
      else .next (.strSpace payloadOffset (u32 (addr + 4)))
    else .done { unset with payloadOffset := payloadOffset }.verdict

def placesReads (img : Image) : Phase → List Access
  | .text => []
  | .connectToPort addr => if addr ≤ sub32 img.size 4 then [⟨addr, 4⟩] else []
  | .callOf svcConnectToPort i =>
    if i ≤ sub32 img.size 4 then
      ⟨i, 4⟩ :: if word img.code i ≠ makeBranchLink i svcConnectToPort then []
        else functionStartReads img.code i
    else []
  | .bodyOf _ _ _ pos =>
    if pos ≤ sub32 img.size 4 then
      ⟨pos + 2, 2⟩ :: if half img.code (pos + 2) ≠ pushHalf then [⟨pos, 4⟩] else []
    else []
  | .path _ => []
  | .strSpace _ addr =>
    if addr ≤ sub32 img.size 4 then
      ⟨addr, 4⟩ :: if word img.code addr = strSpaceWord then functionStartReads img.code addr
        else []
    else []

/-- `findLayeredFsPayloadOffset` returns this. -/
def FindLayeredFsPayloadOffset (img : Image) (romfsRedirPatchSize : ℕ) (r : Bool × Places) : Prop :=
  Returns (placesPass img romfsRedirPatchSize) .text r

end Presence3DS.Loader.LayeredFs
