import Presence3DS.Cheats.Apply
import Presence3DS.Lib.Traced

/-! What the interpreter touches of its own storage: the lines of the cheat, and the cheat page. The
interpreter is given again with its accesses noted, and does the same. -/

namespace Presence3DS.Cheats
open Loops Traced

inductive Access where
  | line (i : ℕ)
  | page (off n : ℕ)
deriving DecidableEq

def Access.InBounds (cheat : Cheat) : Access → Prop
  | .line i => i < cheat.codesCount
  | .page off n => off + n ≤ 0x1000

variable {W : Type}

abbrev CheatT (W : Type) := TracedM (CheatData W) Access

/-! ## The accesses of the codes -/

/-- The address of an access with this operand. -/
def CheatData.address (d : CheatData W) (offset : BitVec 32) : BitVec 32 :=
  (if d.activeOffset then d.offset2 else d.offset1) + offset

/-- What an access to `n` bytes touches of the cheat page. -/
def touched (n : ℕ) (offset : BitVec 32) (d : CheatData W) : List Access :=
  if inCheatPage (d.address offset) n then [.page (d.address offset - cheatPageStart).toNat n]
  else []

def readT (c : Console W) (n : ℕ) (offset : BitVec 32) : CheatT W (BitVec 32) :=
  logged (touched n offset) (cheatRead c n offset)

def writeT (c : Console W) (n : ℕ) (offset value : BitVec 32) : CheatT W Unit :=
  logged (touched n offset) (cheatWrite c n offset value)

def conditional32T (c : Console W) (holds : BitVec 32 → BitVec 32 → Bool) (arg0 arg1 : BitVec 32) :
    CheatT W Bool := do
  match (← quiet get).conditionalMode.toNat with
  | 0x0 => return !holds (← readT c 4 (arg0 &&& 0x0FFFFFFF)) arg1
  | 0x1 => return !holds (← readT c 4 (arg0 &&& 0x0FFFFFFF)) (← quiet activeData)
  | 0x2 => return !holds (← quiet activeData) arg1
  | 0x3 => return !holds (← quiet activeStorage) arg1
  | 0x4 => return !holds (← quiet activeData) (← quiet activeStorage)
  | _ => failure

def conditional16T (c : Console W) (holds : BitVec 32 → BitVec 32 → Bool) (arg0 arg1 : BitVec 32) :
    CheatT W Bool := do
  let mask := ~~~(arg1 >>> 16)
  match (← quiet get).conditionalMode.toNat with
  | 0x0 =>
    return !holds ((← readT c 2 (arg0 &&& 0x0FFFFFFF)) &&& mask) (arg1 &&& 0xFFFF)
  | 0x1 =>
    return !holds ((← readT c 2 (arg0 &&& 0x0FFFFFFF)) &&& mask) ((← quiet activeData) &&& mask)
  | 0x2 => return !holds ((← quiet activeData) &&& mask) (arg1 &&& 0xFFFF)
  | 0x3 => return !holds ((← quiet activeStorage) &&& mask) (arg1 &&& 0xFFFF)
  | 0x4 => return !holds ((← quiet activeData) &&& mask) ((← quiet activeStorage) &&& mask)
  | _ => failure

def loadOffsetT (c : Console W) (arg0 : BitVec 32) : CheatT W Unit := do
  let value ← readT c 4 (arg0 &&& 0x0FFFFFFF)
  quiet (setActiveOffset value)

def storeDataT (c : Console W) (n codeArg : ℕ) (arg1 : BitVec 32) : CheatT W Unit := do
  if codeArg ≤ 2 then
    let value ← match codeArg with
      | 0 => quiet activeData
      | 1 => pure (← quiet get).data1
      | _ => pure (← quiet get).data2
    writeT c n arg1 value
    quiet (do setActiveOffset ((← activeOffset) + BitVec.ofNat 32 n))

def loadDataT (c : Console W) (n codeArg : ℕ) (arg1 : BitVec 32) : CheatT W Unit := do
  if codeArg ≤ 2 then
    let value ← readT c n arg1
    quiet (setData codeArg value)

def changeMemoryT (c : Console W) (floatOp intOp : BitVec 32 → BitVec 32 → BitVec 32)
    (arg0 arg1 : BitVec 32) : CheatT W Unit := do
  let floatMode := (← quiet get).floatMode
  let tmp ← readT c 4 (arg0 &&& 0x00FFFFFF)
  writeT c 4 (arg0 &&& 0x00FFFFFF) (if floatMode then floatOp tmp arg1 else intOp tmp arg1)

def copyBytesT (c : Console W) : ℕ → CheatT W Unit
  | 0 => pure ()
  | n + 1 => do
    quiet (modify fun s => { s with activeOffset := true })
    let data ← readT c 1 0
    quiet (modify fun s => { s with activeOffset := false })
    writeT c 1 0 data
    copyBytesT c n

def copyCodeT (c : Console W) (arg1 : BitVec 32) : CheatT W Unit := do
  let origActiveOffset := (← quiet get).activeOffset
  copyBytesT c arg1.toNat
  quiet (modify fun s => { s with activeOffset := origActiveOffset })

/-- The operand is read also while lines are skipped. -/
def writeLinesT (c : Console W) (cheat : Cheat) (skipExecution : Bool) (beginOffset : BitVec 32) :
    ℕ → ℕ → TypeE → CheatT W TypeE
  | 0, _, e => pure e
  | n + 1, i, e => do
    logged (fun _ => [.line e.next.line.toNat]) (pure ())
    if !skipExecution then
      writeT c 1 (beginOffset + BitVec.ofNat 32 i) (e.next.byte cheat)
    writeLinesT c cheat skipExecution beginOffset n (i + 1) e.next

def patternAtT (c : Console W) (cheat : Cheat) (line i : ℕ) : ℕ → ℕ → CheatT W Bool
  | 0, _ => pure true
  | n + 1, j => do
    let curVal ← readT c 1 (BitVec.ofNat 32 (i + j))
    logged (fun _ => [.line (line + j / 8)]) (pure ())
    if curVal = searchData cheat line j then patternAtT c cheat line i n (j + 1) else pure false

def searchPatternT (c : Console W) (cheat : Cheat) (line searchSize : ℕ) :
    ℕ → ℕ → CheatT W Bool
  | 0, _ => pure true
  | n + 1, i => do
    if ← patternAtT c cheat line i searchSize 0 then pure false
    else searchPatternT c cheat line searchSize n (i + 1)

/-- The lines that a loop break reads. -/
def scanned (cheat : Cheat) : ℕ → ℕ → List Access
  | 0, _ => []
  | n + 1, i =>
    .line i ::
      if cheat.codes i = 0xD100000000000000 ∨ cheat.codes i = 0xD200000000000000 then []
      else scanned cheat n (i + 1)

/-! ## One line -/

/-- A code, with the accesses of those that touch memory. -/
inductive TracedCode (W : Type) where
  | plain (effect : CheatT W Unit)
  | conditional (newSkip : CheatT W Bool)
  | other (code : CheatCode W)

def decodeDT (c : Console W) (subcode codeArg : ℕ) (arg1 : BitVec 32) : TracedCode W :=
  match subcode with
  | 0x6 => .plain (storeDataT c 4 codeArg arg1)
  | 0x7 => .plain (storeDataT c 2 codeArg arg1)
  | 0x8 => .plain (storeDataT c 1 codeArg arg1)
  | 0x9 => .plain (loadDataT c 4 codeArg arg1)
  | 0xA => .plain (loadDataT c 2 codeArg arg1)
  | 0xB => .plain (loadDataT c 1 codeArg arg1)
  | _ => .other (decodeD c subcode codeArg arg1)

def decodeFT (c : Console W) (subcode : ℕ) (arg0 arg1 : BitVec 32) : TracedCode W :=
  if arg0 = 0xF0F00000 then .other .stop
  else
    match subcode with
    | 0x1 => .plain (changeMemoryT c c.floatAdd (· + ·) arg0 arg1)
    | 0x2 => .plain (changeMemoryT c c.floatMul (· * ·) arg0 arg1)
    | 0x3 => .plain (changeMemoryT c c.floatDiv (div c) arg0 arg1)
    | 0xC => .plain (copyCodeT c arg1)
    | _ => .other (decodeF c subcode arg0 arg1)

def decodeT (c : Console W) (line : BitVec 64) : TracedCode W :=
  let arg0 := (line >>> 32).setWidth 32
  let arg1 := line.setWidth 32
  let subcode := (arg0 >>> 24 &&& 0x0F).toNat
  let codeArg := (arg0 &&& 0x0F).toNat
  if arg0 = 0 ∧ arg1 = 0 then .other .stop
  else
    match (arg0 >>> 28).toNat with
    | 0x0 => .plain (writeT c 4 (arg0 &&& 0x0FFFFFFF) arg1)
    | 0x1 => .plain (writeT c 2 (arg0 &&& 0x0FFFFFFF) (arg1 &&& 0xFFFF))
    | 0x2 => .plain (writeT c 1 (arg0 &&& 0x0FFFFFFF) (arg1 &&& 0xFF))
    | 0x3 => .conditional (conditional32T c (fun x y => decide (x < y)) arg0 arg1)
    | 0x4 => .conditional (conditional32T c (fun x y => decide (y < x)) arg0 arg1)
    | 0x5 => .conditional (conditional32T c (fun x y => x == y) arg0 arg1)
    | 0x6 => .conditional (conditional32T c (fun x y => x != y) arg0 arg1)
    | 0x7 => .conditional (conditional16T c (fun x y => decide (x < y)) arg0 arg1)
    | 0x8 => .conditional (conditional16T c (fun x y => decide (y < x)) arg0 arg1)
    | 0x9 => .conditional (conditional16T c (fun x y => x == y) arg0 arg1)
    | 0xA => .conditional (conditional16T c (fun x y => x != y) arg0 arg1)
    | 0xB => .plain (loadOffsetT c arg0)
    | 0xD => decodeDT c subcode codeArg arg1
    | 0xF => decodeFT c subcode arg0 arg1
    | _ => .other (decode c line)

/-- The interpreter's answer to a computation, and what it has accessed. -/
def CheatState.afterT {α : Type} (s : CheatState W) (t : CheatT W α)
    (k : α → CheatData W → CheatState W) :
    Pass (CheatState W) (ℕ × CheatData W) × List Access :=
  match resultOf t s.data with
  | (some a, d) => (.next (k a d).advance, logOf t s.data)
  | (none, d) => (.done (0, d), logOf t s.data)

open CheatState in
def applyCodeT (c : Console W) (cheat : Cheat) (s : CheatState W) :
    TracedCode W → Pass (CheatState W) (ℕ × CheatData W) × List Access
  | .plain effect =>
    if s.skipExecution then (.next s.advance, [])
    else s.afterT effect fun _ d => { s with data := d }
  | .conditional newSkip => s.afterT newSkip fun b d => push { s with data := d } b
  | .other (.writeLines beginOffset count) =>
    s.afterT (writeLinesT c cheat s.skipExecution beginOffset count.toNat 0
      ⟨BitVec.ofNat 8 s.index, 7⟩) fun e d =>
        { s with typeE := e, index := e.line.toNat, data := d }
  | .other (.search searchSize size) =>
    if searchSize ≤ size ∧ searchSize + s.index < cheat.codesCount then
      if s.skipExecution then (.next (s.push true).advance, [])
      else
        s.afterT (searchPatternT c cheat (s.index + 1) searchSize (size - searchSize) 0) fun b d =>
          push { s with index := s.index + linesOf searchSize, data := d } b
    else (.done (0, s.data), [])
  | .other .loopBreak =>
    (applyCode c cheat s .loopBreak, if s.skipExecution then []
      else scanned cheat (cheat.codesCount - (s.index + 1)) (s.index + 1))
  | .other code => (applyCode c cheat s code, [])

/-- One pass of the loop of `Cheat_ApplyCheat`, with what it accesses. -/
def applyLineT (c : Console W) (cheat : Cheat) (s : CheatState W) :
    Pass (CheatState W) (ℕ × CheatData W) × List Access :=
  if s.index < cheat.codesCount then
    let (pass, log) := applyCodeT c cheat s (decodeT c (cheat.codes s.index))
    (pass, .line s.index :: log)
  else (.done (1, s.data), [])

/-- Every access of every pass of a run stays in the storage. -/
def StorageSafe (c : Console W) (cheat : Cheat) (typeE : TypeE) (d : CheatData W) : Prop :=
  Guarded (applyLine c cheat) (fun s => ∀ a ∈ (applyLineT c cheat s).2, a.InBounds cheat)
    (.start typeE d)

end Presence3DS.Cheats
