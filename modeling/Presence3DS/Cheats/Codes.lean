import Presence3DS.Kernel.State
import Presence3DS.Lib.Patches

/-! What the cheat interpreter (`cheats.c`) works on: its registers, the cheat page, and a process
under the debugger, whose memory and keys may have changed at every access. -/

namespace Presence3DS.Cheats
open Kernel Patches

structure MemInfo where
  base_addr : BitVec 32
  size : BitVec 32
  /-- 0 is `MEMSTATE_FREE`. -/
  state : BitVec 32

/-- The system calls and the devices, over the states `W` of the world, and what C leaves to the
target: the operations on floats, the quotient and the remainder by 0, and shifts by 32 or more. -/
structure Console (W : Type) where
  svcQueryDebugProcessMemory : W → BitVec 32 → (Result × MemInfo) × W
  svcReadProcessMemory : W → BitVec 32 → ℕ → (Result × Memory) × W
  svcWriteProcessMemory : W → BitVec 32 → ℕ → BitVec 32 → Result × W
  hidPad : W → BitVec 32 × W
  hidTouchRead : W → (BitVec 16 × BitVec 16) × W
  floatAdd : BitVec 32 → BitVec 32 → BitVec 32
  floatMul : BitVec 32 → BitVec 32 → BitVec 32
  floatDiv : BitVec 32 → BitVec 32 → BitVec 32
  ofFloat : BitVec 32 → BitVec 32
  toFloat : BitVec 32 → BitVec 32
  divZero : BitVec 32 → BitVec 32
  modZero : BitVec 32 → BitVec 32
  shlWide : BitVec 32 → BitVec 32 → BitVec 32
  shrWide : BitVec 32 → BitVec 32 → BitVec 32

/-- The registers of `CheatState` that do not steer the interpreter, the storage of the cheat, and
what lies outside. -/
structure CheatData (W : Type) where
  offset1 : BitVec 32
  offset2 : BitVec 32
  data1 : BitVec 32
  data2 : BitVec 32
  activeOffset : Bool
  activeData : Bool
  conditionalMode : BitVec 3
  data1Mode : Bool
  data2Mode : Bool
  floatMode : Bool
  storage1 : BitVec 32
  storage2 : BitVec 32
  activeStorage : Bool
  cheatPage : Memory
  cheatRngState : BitVec 64
  world : W

/-- A failure is the return of 0 by `Cheat_ApplyCheat`; what has been done until then stays. -/
abbrev CheatM (W : Type) := OptionT (StateM (CheatData W))

variable {W : Type}

def activeOffset : CheatM W (BitVec 32) := do
  let s ← get
  return if s.activeOffset then s.offset2 else s.offset1

def setActiveOffset (v : BitVec 32) : CheatM W Unit :=
  modify fun s => if s.activeOffset then { s with offset2 := v } else { s with offset1 := v }

def activeData : CheatM W (BitVec 32) := do
  let s ← get
  return if s.activeData then s.data2 else s.data1

def setActiveData (v : BitVec 32) : CheatM W Unit :=
  modify fun s => if s.activeData then { s with data2 := v } else { s with data1 := v }

def activeStorage : CheatM W (BitVec 32) := do
  let s ← get
  return if s.activeStorage then s.storage2 else s.storage1

/-- An access to the world. -/
def access {α : Type} (f : W → α × W) : CheatM W α := do
  let s ← get
  let (a, world) := f s.world
  set { s with world := world }
  return a

def cheatGetRandomNumber : CheatM W (BitVec 32) := do
  modify fun s =>
    { s with cheatRngState := 0x5D588B656C078965 * s.cheatRngState + 0x0000000000269EC3 }
  return ((← get).cheatRngState >>> 32).setWidth 32

def cheatIsValidAddress (c : Console W) (address size : BitVec 32) : CheatM W Bool := do
  let (res, info) ← access fun w => c.svcQueryDebugProcessMemory w address
  return !rFailed res && info.state != 0 && decide (0 < info.base_addr) &&
    decide (info.base_addr ≤ address) && decide (address ≤ info.base_addr + info.size - size)

/-- The first address of the cheat page, and the first one after it. -/
def cheatPageStart : BitVec 32 := 0x01E81000
def cheatPageEnd : BitVec 32 := 0x01E82000

/-- Little endian. -/
def readBytes (m : Memory) (off : ℕ) : ℕ → BitVec 32
  | 0 => 0
  | n + 1 => (m off).setWidth 32 ||| readBytes m (off + 1) n <<< 8

def writeBytes (m : Memory) (off n : ℕ) (value : BitVec 32) : Memory :=
  fun a => if off ≤ a ∧ a < off + n then wordByte value (a - off) else m a

def inCheatPage (addr : BitVec 32) (n : ℕ) : Bool :=
  decide (cheatPageStart ≤ addr) && decide (addr + BitVec.ofNat 32 (n - 1) < cheatPageEnd)

/-- The value as a `u8`, `u16` or `u32`. -/
def truncate (n : ℕ) (value : BitVec 32) : BitVec 32 := (value.setWidth (8 * n)).setWidth 32

/-- `Cheat_Write8`, `Cheat_Write16` and `Cheat_Write32`, with the number of bytes. -/
def cheatWrite (c : Console W) (n : ℕ) (offset value : BitVec 32) : CheatM W Unit := do
  let addr := (← activeOffset) + offset
  if inCheatPage addr n then
    modify fun s =>
      { s with cheatPage := writeBytes s.cheatPage (addr - cheatPageStart).toNat n value }
  else if ← cheatIsValidAddress c addr (BitVec.ofNat 32 n) then
    let res ← access fun w => c.svcWriteProcessMemory w addr n (truncate n value)
    if rFailed res then failure
  else failure

/-- `Cheat_Read8`, `Cheat_Read16` and `Cheat_Read32`. -/
def cheatRead (c : Console W) (n : ℕ) (offset : BitVec 32) : CheatM W (BitVec 32) := do
  let addr := (← activeOffset) + offset
  if inCheatPage addr n then
    return readBytes (← get).cheatPage (addr - cheatPageStart).toNat n
  else if ← cheatIsValidAddress c addr (BitVec.ofNat 32 n) then
    let (res, bytes) ← access fun w => c.svcReadProcessMemory w addr n
    if rFailed res then failure
    return readBytes bytes 0 n
  else failure

abbrev cheatWrite8 (c : Console W) := cheatWrite c 1
abbrev cheatWrite16 (c : Console W) := cheatWrite c 2
abbrev cheatWrite32 (c : Console W) := cheatWrite c 4
abbrev cheatRead8 (c : Console W) := cheatRead c 1
abbrev cheatRead16 (c : Console W) := cheatRead c 2
abbrev cheatRead32 (c : Console W) := cheatRead c 4

/-! The codes of a cheat: what a line is, and what the lines do that only touch memory and
registers (`Cheat_ApplyCheat`). -/

/-! ## Conditionals -/

/-- Types 3 to 6: `newSkip`, for the comparison. -/
def conditional32 (c : Console W) (holds : BitVec 32 → BitVec 32 → Bool) (arg0 arg1 : BitVec 32) :
    CheatM W Bool := do
  match (← get).conditionalMode.toNat with
  | 0x0 => return !holds (← cheatRead32 c (arg0 &&& 0x0FFFFFFF)) arg1
  | 0x1 => return !holds (← cheatRead32 c (arg0 &&& 0x0FFFFFFF)) (← activeData)
  | 0x2 => return !holds (← activeData) arg1
  | 0x3 => return !holds (← activeStorage) arg1
  | 0x4 => return !holds (← activeData) (← activeStorage)
  | _ => failure

/-- Types 7 to A. The mask is one of an `int` after the promotion, so that the upper half of a
register stays. -/
def conditional16 (c : Console W) (holds : BitVec 32 → BitVec 32 → Bool) (arg0 arg1 : BitVec 32) :
    CheatM W Bool := do
  let mask := ~~~(arg1 >>> 16)
  match (← get).conditionalMode.toNat with
  | 0x0 =>
    return !holds ((← cheatRead16 c (arg0 &&& 0x0FFFFFFF)) &&& mask) (arg1 &&& 0xFFFF)
  | 0x1 =>
    return !holds ((← cheatRead16 c (arg0 &&& 0x0FFFFFFF)) &&& mask) ((← activeData) &&& mask)
  | 0x2 => return !holds ((← activeData) &&& mask) (arg1 &&& 0xFFFF)
  | 0x3 => return !holds ((← activeStorage) &&& mask) (arg1 &&& 0xFFFF)
  | 0x4 => return !holds ((← activeData) &&& mask) ((← activeStorage) &&& mask)
  | _ => failure

/-- DD: the keys are read only where some are asked for. -/
def keyConditional (c : Console W) (arg1 : BitVec 32) : CheatM W Bool := do
  if arg1 = 0 then return false
  return (← access c.hidPad) &&& arg1 != arg1

/-- DE -/
def touchConditional (c : Console W) (codeArg : ℕ) (arg1 : BitVec 32) : CheatM W Bool := do
  let highBound := (arg1 >>> 16).toNat
  let lowBound := (arg1 &&& 0xFFFF).toNat
  let (px, py) ← access c.hidTouchRead
  match codeArg with
  | 0 => return !(decide (lowBound ≤ px.toNat) && decide (px.toNat ≤ highBound))
  | 1 => return !(decide (lowBound ≤ py.toNat) && decide (py.toNat ≤ highBound))
  | _ => failure

/-! ## Registers -/

/-- B -/
def loadOffset (c : Console W) (arg0 : BitVec 32) : CheatM W Unit := do
  setActiveOffset (← cheatRead32 c (arg0 &&& 0x0FFFFFFF))

/-- D3 -/
def setOffset (codeArg : ℕ) (arg1 : BitVec 32) : CheatM W Unit :=
  match codeArg with
  | 0 => modify fun s => { s with offset1 := arg1 }
  | 1 => modify fun s => { s with offset2 := arg1 }
  | _ => pure ()

/-- D4 -/
def addData (codeArg : ℕ) (arg1 : BitVec 32) : CheatM W Unit :=
  match codeArg with
  | 0 => do setActiveData ((← activeData) + arg1)
  | 1 => modify fun s => { s with data1 := s.data1 + (arg1 + s.data2) }
  | 2 => modify fun s => { s with data2 := s.data2 + (arg1 + s.data1) }
  | _ => pure ()

/-- D5, and what the loads do with what they have read -/
def setData (codeArg : ℕ) (value : BitVec 32) : CheatM W Unit :=
  match codeArg with
  | 0 => setActiveData value
  | 1 => modify fun s => { s with data1 := value }
  | 2 => modify fun s => { s with data2 := value }
  | _ => pure ()

/-- D6, D7 and D8, with the number of bytes. -/
def storeData (c : Console W) (n codeArg : ℕ) (arg1 : BitVec 32) : CheatM W Unit := do
  if codeArg ≤ 2 then
    let value ← match codeArg with
      | 0 => activeData
      | 1 => pure (← get).data1
      | _ => pure (← get).data2
    cheatWrite c n arg1 value
    setActiveOffset ((← activeOffset) + BitVec.ofNat 32 n)

/-- D9, DA and DB -/
def loadData (c : Console W) (n codeArg : ℕ) (arg1 : BitVec 32) : CheatM W Unit := do
  if codeArg ≤ 2 then
    setData codeArg (← cheatRead c n arg1)

/-- DC -/
def addOffset (arg1 : BitVec 32) : CheatM W Unit := do
  setActiveOffset ((← activeOffset) + arg1)

/-! ## DF -/

/-- DF0, DF1 and DF2 copy between the registers of two banks, or select the active one: `copy`
copies within the bank and `move` out of it, for the second register where bit 0 is set. -/
def bankCode (arg1 : BitVec 32) (copy move select : Bool → CheatData W → CheatData W) :
    CheatM W Unit :=
  if arg1.getLsbD 16 then modify (copy (arg1.getLsbD 0))
  else if arg1.getLsbD 17 then modify (move (arg1.getLsbD 0))
  else modify (select (arg1.getLsbD 0))

def offsetBank (arg1 : BitVec 32) : CheatM W Unit :=
  bankCode arg1
    (fun second s => if second then { s with offset2 := s.offset1 }
      else { s with offset1 := s.offset2 })
    (fun second s => if second then { s with data2 := s.offset2 }
      else { s with data1 := s.offset1 })
    (fun second s => { s with activeOffset := second })

def dataBank (arg1 : BitVec 32) : CheatM W Unit :=
  bankCode arg1
    (fun second s => if second then { s with data2 := s.data1 } else { s with data1 := s.data2 })
    (fun second s => if second then { s with offset2 := s.data2 }
      else { s with offset1 := s.data1 })
    (fun second s => { s with activeData := second })

def storageBank (arg1 : BitVec 32) : CheatM W Unit :=
  bankCode arg1
    (fun second s => if second then { s with data2 := s.storage2 }
      else { s with data1 := s.storage1 })
    (fun second s => if second then { s with storage2 := s.data2 }
      else { s with storage1 := s.data1 })
    (fun second s => { s with activeStorage := second })

def dataMode (c : Console W) (arg1 : BitVec 32) : CheatM W Unit := do
  if (← get).activeData then
    match arg1.toNat with
    | 0x0 => modify fun s => { s with data2Mode := false }
    | 0x1 => modify fun s => { s with data2Mode := true }
    | 0x10 => modify fun s => { s with data2Mode := false, data2 := c.ofFloat s.data2 }
    | 0x11 => modify fun s => { s with data2Mode := true, data2 := c.toFloat s.data2 }
    | _ => failure
  else
    match arg1.toNat with
    | 0x0 => modify fun s => { s with data1Mode := false }
    | 0x1 => modify fun s => { s with data1Mode := true }
    | 0x10 => modify fun s => { s with data1Mode := false, data1 := c.ofFloat s.data1 }
    | 0x11 => modify fun s => { s with data1Mode := true, data1 := c.toFloat s.data1 }
    | _ => failure

def setConditionalMode (arg1 : BitVec 32) : CheatM W Unit :=
  if arg1 < 5 then modify fun s => { s with conditionalMode := arg1.setWidth 3 } else failure

def registerCode (c : Console W) (codeArg : ℕ) (arg1 : BitVec 32) : CheatM W Unit :=
  match codeArg with
  | 0x0 => offsetBank arg1
  | 0x1 => dataBank arg1
  | 0x2 => storageBank arg1
  | 0xE => dataMode c arg1
  | 0xF => setConditionalMode arg1
  | _ => failure

/-! ## F -/

def setFloatMode (arg1 : BitVec 32) : CheatM W Unit :=
  modify fun s => { s with floatMode := arg1.getLsbD 0 }

/-- F1, F2 and F3: the operations on floats and on integers. -/
def changeMemory (c : Console W) (floatOp intOp : BitVec 32 → BitVec 32 → BitVec 32)
    (arg0 arg1 : BitVec 32) : CheatM W Unit := do
  let floatMode := (← get).floatMode
  let tmp ← cheatRead32 c (arg0 &&& 0x00FFFFFF)
  cheatWrite32 c (arg0 &&& 0x00FFFFFF) (if floatMode then floatOp tmp arg1 else intOp tmp arg1)

/-- F4 and F5 go by `data1Mode` whichever the active register is. -/
def scaleData (floatOp intOp : BitVec 32 → BitVec 32 → BitVec 32) (arg1 : BitVec 32) :
    CheatM W Unit := do
  let value ← activeData
  setActiveData (if (← get).data1Mode then floatOp value arg1 else intOp value arg1)

/-- F6 to FB -/
def changeData (op : BitVec 32 → BitVec 32) : CheatM W Unit := do
  setActiveData (op (← activeData))

def div (c : Console W) (x y : BitVec 32) : BitVec 32 := if y = 0 then c.divZero x else x / y

def mod (c : Console W) (x y : BitVec 32) : BitVec 32 := if y = 0 then c.modZero x else x % y

def shl (c : Console W) (x y : BitVec 32) : BitVec 32 :=
  if y < 32 then x <<< y.toNat else c.shlWide x y

def shr (c : Console W) (x y : BitVec 32) : BitVec 32 :=
  if y < 32 then x >>> y.toNat else c.shrWide x y

/-- FC: the offsets do not move from one byte to the next. -/
def copyBytes (c : Console W) : ℕ → CheatM W Unit
  | 0 => pure ()
  | n + 1 => do
    modify fun s => { s with activeOffset := true }
    let data ← cheatRead8 c 0
    modify fun s => { s with activeOffset := false }
    cheatWrite8 c 0 data
    copyBytes c n

def copyCode (c : Console W) (arg1 : BitVec 32) : CheatM W Unit := do
  let origActiveOffset := (← get).activeOffset
  copyBytes c arg1.toNat
  modify fun s => { s with activeOffset := origActiveOffset }

/-- FF -/
def randomData (c : Console W) (arg0 arg1 : BitVec 32) : CheatM W Unit := do
  let range := arg1 - (arg0 &&& 0xFFFFFF)
  let number := mod c (← cheatGetRandomNumber) range
  setActiveData ((arg0 &&& 0xFFFFFF) + number)

/-! ## The kind of a line -/

inductive CheatCode (W : Type) where
  /-- It is left out while lines are skipped. -/
  | plain (effect : CheatM W Unit)
  /-- It is carried out also while lines are skipped. -/
  | register (effect : CheatM W Unit)
  | conditional (newSkip : CheatM W Bool)
  | loop (count : CheatData W → BitVec 32)
  | endIf
  | loopBreak
  | endLoop
  | endAll
  | ret
  | nothing
  | writeLines (beginOffset count : BitVec 32)
  | search (searchSize size : ℕ)
  | stop

def decodeC (subcode : ℕ) (arg1 : BitVec 32) : CheatCode W :=
  match subcode with
  | 0x0 => .loop fun _ => arg1
  | 0x1 => .loop CheatData.data1
  | 0x2 => .loop CheatData.data2
  | _ => .nothing

def decodeD (c : Console W) (subcode codeArg : ℕ) (arg1 : BitVec 32) : CheatCode W :=
  match subcode with
  | 0x0 => if arg1 = 0 then .endIf else if arg1 = 1 then .loopBreak else .nothing
  | 0x1 => .endLoop
  | 0x2 => if arg1 = 0 then .endAll else if arg1 = 1 then .ret else .nothing
  | 0x3 => .plain (setOffset codeArg arg1)
  | 0x4 => .plain (addData codeArg arg1)
  | 0x5 => .plain (setData codeArg arg1)
  | 0x6 => .plain (storeData c 4 codeArg arg1)
  | 0x7 => .plain (storeData c 2 codeArg arg1)
  | 0x8 => .plain (storeData c 1 codeArg arg1)
  | 0x9 => .plain (loadData c 4 codeArg arg1)
  | 0xA => .plain (loadData c 2 codeArg arg1)
  | 0xB => .plain (loadData c 1 codeArg arg1)
  | 0xC => .plain (addOffset arg1)
  | 0xD => .conditional (keyConditional c arg1)
  | 0xE => .conditional (touchConditional c codeArg arg1)
  | 0xF => .register (registerCode c codeArg arg1)
  | _ => .stop

def decodeF (c : Console W) (subcode : ℕ) (arg0 arg1 : BitVec 32) : CheatCode W :=
  if arg0 = 0xF0F00000 then .stop
  else
    match subcode with
    | 0x0 => .plain (setFloatMode arg1)
    | 0x1 => .plain (changeMemory c c.floatAdd (· + ·) arg0 arg1)
    | 0x2 => .plain (changeMemory c c.floatMul (· * ·) arg0 arg1)
    | 0x3 => .plain (changeMemory c c.floatDiv (div c) arg0 arg1)
    | 0x4 => .plain (scaleData c.floatMul (· * ·) arg1)
    | 0x5 => .plain (scaleData c.floatDiv (div c) arg1)
    | 0x6 => .plain (changeData (· &&& arg1))
    | 0x7 => .plain (changeData (· ||| arg1))
    | 0x8 => .plain (changeData (· ^^^ arg1))
    | 0x9 => .plain (changeData (~~~·))
    | 0xA => .plain (changeData (shl c · arg1))
    | 0xB => .plain (changeData (shr c · arg1))
    | 0xC => .plain (copyCode c arg1)
    | 0xE => .search (arg0 &&& 0xFFFF).toNat arg1.toNat
    | 0xF => .plain (randomData c arg0 arg1)
    | _ => .stop

/-- A line of zeros ends the cheat. -/
def decode (c : Console W) (line : BitVec 64) : CheatCode W :=
  let arg0 := (line >>> 32).setWidth 32
  let arg1 := line.setWidth 32
  let subcode := (arg0 >>> 24 &&& 0x0F).toNat
  let codeArg := (arg0 &&& 0x0F).toNat
  if arg0 = 0 ∧ arg1 = 0 then .stop
  else
    match (arg0 >>> 28).toNat with
    | 0x0 => .plain (cheatWrite32 c (arg0 &&& 0x0FFFFFFF) arg1)
    | 0x1 => .plain (cheatWrite16 c (arg0 &&& 0x0FFFFFFF) (arg1 &&& 0xFFFF))
    | 0x2 => .plain (cheatWrite8 c (arg0 &&& 0x0FFFFFFF) (arg1 &&& 0xFF))
    | 0x3 => .conditional (conditional32 c (fun x y => decide (x < y)) arg0 arg1)
    | 0x4 => .conditional (conditional32 c (fun x y => decide (y < x)) arg0 arg1)
    | 0x5 => .conditional (conditional32 c (fun x y => x == y) arg0 arg1)
    | 0x6 => .conditional (conditional32 c (fun x y => x != y) arg0 arg1)
    | 0x7 => .conditional (conditional16 c (fun x y => decide (x < y)) arg0 arg1)
    | 0x8 => .conditional (conditional16 c (fun x y => decide (y < x)) arg0 arg1)
    | 0x9 => .conditional (conditional16 c (fun x y => x == y) arg0 arg1)
    | 0xA => .conditional (conditional16 c (fun x y => x != y) arg0 arg1)
    | 0xB => .plain (loadOffset c arg0)
    | 0xC => decodeC subcode arg1
    | 0xD => decodeD c subcode codeArg arg1
    | 0xE => .writeLines (arg0 &&& 0x0FFFFFFF) arg1
    | 0xF => decodeF c subcode arg0 arg1
    | _ => .stop

end Presence3DS.Cheats
