import Presence3DS.Lib.CString
import Presence3DS.Lib.RawMemory

/-! The cheats of a title, as `Cheat_LoadCheatsIntoMemory` packs them into one buffer. -/

namespace Presence3DS.Cheats
open CString RawMemory

/-! ## Descriptions -/

/-- `sizeof(cheatBuffer)` -/
def cheatBufferSize : ℕ := 32768

/-- `sizeof(CheatDescription)`: the flags, the name of 39 bytes, the count and the two registers,
and the padding in front of the codes. -/
def descriptionSize : ℕ := 56

def nameOffset : ℕ := 1
def codesCountOffset : ℕ := 40
def storage1Offset : ℕ := 44
def storage2Offset : ℕ := 48

/-- `cheatBuffer` and the memory behind it, the places of the cheats in it, and how many there
are. -/
structure CheatList where
  buffer : Memory
  cheats : ℕ → ℕ
  cheatCount : UInt8
  titleInfo : UInt64

def codesCount (m : Memory) (cheat : ℕ) : ℕ := leValue (read m (cheat + codesCountOffset) 4)

def codeOffset (cheat i : ℕ) : ℕ := cheat + descriptionSize + 8 * i

def code (m : Memory) (cheat i : ℕ) : UInt64 :=
  UInt64.ofNat (leValue (read m (codeOffset cheat i) 8))

/-- The codes of the cheat at a place of the buffer. -/
def codes (m : Memory) (cheat : ℕ) : List UInt64 :=
  (List.range (codesCount m cheat)).map (code m cheat)

/-- The first byte behind the cheat. -/
def cheatEnd (m : Memory) (cheat : ℕ) : ℕ := codeOffset cheat (codesCount m cheat)

namespace CheatList

/-- The fields that are set in a new description. -/
def describe (m : Memory) (cheat : ℕ) : Memory :=
  let m := write m cheat [m cheat &&& 0xF8 ||| 0x02]
  let m := write m (cheat + codesCountOffset) (leBytes 4 0)
  let m := write m (cheat + storage1Offset) (leBytes 4 0)
  let m := write m (cheat + storage2Offset) (leBytes 4 0)
  write m (cheat + nameOffset) [0]

def cheatAllocCheat (s : CheatList) : ℕ × CheatList :=
  let cheat :=
    if s.cheatCount = 0 then 0
    else cheatEnd s.buffer (s.cheats (s.cheatCount - 1).toNat)
  (cheat, { s with
    buffer := describe s.buffer cheat
    cheats := Function.update s.cheats s.cheatCount.toNat cheat
    cheatCount := s.cheatCount + 1 })

def cheatAddCode (m : Memory) (cheat : ℕ) (code : UInt64) : Memory :=
  let count := codesCount m cheat
  write (write m (codeOffset cheat count) (leBytes 8 code.toNat)) (cheat + codesCountOffset)
    (leBytes 4 (count + 1))

/-- The code is added, and the cheat marked where it is one for keys. -/
def addCodeLine (m : Memory) (cheat : ℕ) (code : UInt64) : Memory :=
  let m := cheatAddCode m cheat code
  if code >>> 32 = 0xDD000000 then write m cheat [m cheat ||| 0x04] else m

def setName (m : Memory) (cheat : ℕ) (line : Bytes) : Memory :=
  write (write m (cheat + nameOffset) (strncpy line 38)) (cheat + nameOffset + 38) [0]

end CheatList

/-! ## Lines -/

/-- What `Cheat_ReadLine` leaves: the string in its buffer, if it ends there; whether the line is
the last one; and the rest of the file. -/
structure ReadLine where
  line : Option Bytes
  final : Bool
  rest : Bytes

/-- From the room that is left in the buffer, whether a carriage return was the last character,
and the characters before. -/
def cheatReadLine : ℕ → Bool → Bytes → Bytes → ReadLine
  | 0, _, _, file => ⟨none, false, file⟩
  | _ + 1, _, line, [] => ⟨some line, true, []⟩
  | room + 1, lastWasCarriageReturn, line, c :: file =>
    if c = 0x0D then cheatReadLine room true (line ++ [c]) file
    else if c = 0x0A then
      ⟨some (if lastWasCarriageReturn then line.dropLast else line), false, file⟩
    else if c = 0 then ⟨some line, true, file⟩
    else cheatReadLine room false (line ++ [c]) file

def isBlank (c : UInt8) : Bool := c = 0x20 || c = 0x09

def stripWhitespace (line : Bytes) : Bytes := (line.dropWhile isBlank).rdropWhile isBlank

def isHexDigit (c : UInt8) : Bool :=
  (0x30 ≤ c && c ≤ 0x39) || (0x41 ≤ c && c ≤ 0x46) || (0x61 ≤ c && c ≤ 0x66)

def hexValue (c : UInt8) : UInt64 :=
  if 0x30 ≤ c ∧ c ≤ 0x39 then (c - 0x30).toUInt64
  else if 0x41 ≤ c ∧ c ≤ 0x46 then (c - 0x41 + 10).toUInt64
  else if 0x61 ≤ c ∧ c ≤ 0x66 then (c - 0x61 + 10).toUInt64
  else 0

/-- Two words of eight digits, and a space between them. -/
def cheatIsCodeLine (line : Bytes) : Bool :=
  decide (line.length = 17) && decide ((line)[8]? = some 0x20) && (line.take 8).all isHexDigit &&
    (line.drop 9).all isHexDigit

def cheatGetCode (line : Bytes) : UInt64 :=
  (line.take 8 ++ (line.drop 9).take 8).foldl (fun tmp c => tmp <<< 4 ||| hexValue c &&& 0xF) 0

inductive LineKind where
  | skip
  | code (code : UInt64)
  | name (line : Bytes)
deriving DecidableEq

/-- Of a line that names a cheat, the blanks behind it have been cut off by then. -/
def lineKind (line : Bytes) : LineKind :=
  let stripped := stripWhitespace line
  if stripped = [] then .skip
  else if stripped.head? = some 0x23 then .skip
  else if cheatIsCodeLine stripped then .code (cheatGetCode stripped)
  else .name (line.takeWhile isBlank ++ stripped)

/-! ## Loading -/

/-- The variables of the loop. -/
structure LoadState where
  list : CheatList
  cheat : Option ℕ
  cheatSize : ℕ

inductive LoadStep where
  | stop (s : LoadState)
  | more (s : LoadState)

namespace LoadState

def addCode (s : LoadState) (c : UInt64) : LoadState :=
  match s.cheat with
  | none => s
  | some cheat =>
    { s with
      list := { s.list with buffer := CheatList.addCodeLine s.list.buffer cheat c }
      cheatSize := s.cheatSize + 8 }

def newCheat (s : LoadState) : LoadState :=
  ⟨s.list.cheatAllocCheat.2, some s.list.cheatAllocCheat.1, s.cheatSize + descriptionSize⟩

def setName (s : LoadState) (line : Bytes) : LoadState :=
  match s.cheat with
  | none => s
  | some cheat =>
    { s with list := { s.list with buffer := CheatList.setName s.list.buffer cheat line } }

/-- A name starts a cheat where there is none without codes yet. -/
def needsCheat (s : LoadState) : Bool :=
  match s.cheat with
  | none => true
  | some cheat => decide (0 < codesCount s.list.buffer cheat)

/-- What the loop makes of a line; it is left where the buffer is full. -/
def step (s : LoadState) : LineKind → LoadStep
  | .skip => .more s
  | .code c =>
    if cheatBufferSize ≤ s.cheatSize + 8 then
      .stop { s with list := { s.list with cheatCount := s.list.cheatCount - 1 } }
    else .more (s.addCode c)
  | .name line =>
    if s.needsCheat then
      if cheatBufferSize ≤ s.cheatSize + descriptionSize then .stop s
      else .more (s.newCheat.setName line)
    else .more (s.setName line)

end LoadState

/-- The lines of a file; without a result where `stripWhitespace` would run out of the buffer of a
line. -/
def loadLines : ℕ → LoadState → Bytes → Option LoadState
  | 0, _, _ => none
  | fuel + 1, s, file =>
    let r := cheatReadLine 1024 false [] file
    r.line.bind fun line =>
      match s.step (lineKind line) with
      | .stop s => some s
      | .more s =>
        if r.final ∨ cheatBufferSize ≤ s.cheatSize then some s else loadLines fuel s r.rest

/-- The last cheat goes where it is empty. -/
def CheatList.removeEmpty (s : CheatList) : CheatList :=
  if s.cheatCount ≠ 0 ∧ codesCount s.buffer (s.cheats (s.cheatCount - 1).toNat) = 0 then
    { s with cheatCount := s.cheatCount - 1 }
  else s

/-- From the file of `/luma/titles`, or else that of `/cheats`. -/
def cheatLoadCheatsIntoMemory (s : CheatList) (titleId : UInt64) (titles cheats : Option Bytes) :
    Option CheatList :=
  let s := { s with cheatCount := 0, titleInfo := titleId }
  match titles.or cheats with
  | none => some s
  | some file => (loadLines (file.length + 1) ⟨s, none, 0⟩ file).map fun s => s.list.removeEmpty

/-! ## Descriptions in memory -/

variable {m m' : Memory} {cheat : ℕ}

theorem length_codes (m : Memory) (cheat : ℕ) : (codes m cheat).length = codesCount m cheat := by
  rw [codes, List.length_map, List.length_range]

theorem codes_congr {a b : ℕ} (h : EqOutside m' m a b)
    (hcheat : cheatEnd m cheat ≤ a ∨ b ≤ cheat + codesCountOffset) :
    codes m' cheat = codes m cheat := by
  have hend : cheatEnd m cheat = cheat + 56 + 8 * codesCount m cheat := rfl
  have hoffset : codesCountOffset = 40 := rfl
  have hcount : codesCount m' cheat = codesCount m cheat := by
    refine congrArg leValue (h.read ?_)
    omega
  rw [codes, codes, hcount]
  apply List.map_congr_left
  intro i hi
  have hi := List.mem_range.mp hi
  refine congrArg (fun bytes => UInt64.ofNat (leValue bytes)) (h.read ?_)
  show cheat + 56 + 8 * i + 8 ≤ a ∨ b ≤ cheat + 56 + 8 * i
  omega

theorem describe_eqOutside (m : Memory) (cheat : ℕ) :
    EqOutside (CheatList.describe m cheat) m cheat (cheat + 56) := by
  unfold CheatList.describe
  refine (eqOutside_write ?_ ?_).trans <| (eqOutside_write ?_ ?_).trans <|
    (eqOutside_write ?_ ?_).trans <| (eqOutside_write ?_ ?_).trans <| eqOutside_write ?_ ?_ <;>
  simp [nameOffset, storage1Offset, storage2Offset, codesCountOffset]

theorem codes_describe (m : Memory) (cheat : ℕ) :
    codes (CheatList.describe m cheat) cheat = [] := by
  have hcount : codesCount (CheatList.describe m cheat) cheat = 0 := by
    unfold codesCount CheatList.describe
    simp only [nameOffset, storage1Offset, storage2Offset, codesCountOffset]
    rw [read_write_of_disjoint (by simp), read_write_of_disjoint (by simp),
      read_write_of_disjoint (by simp), read_leBytes, Nat.zero_mod]
  rw [codes, hcount]
  rfl

theorem setName_eqOutside (m : Memory) (cheat : ℕ) (line : Bytes) :
    EqOutside (CheatList.setName m cheat line) m cheat (cheat + 40) := by
  unfold CheatList.setName
  refine (eqOutside_write ?_ ?_).trans (eqOutside_write ?_ ?_) <;>
  simp [nameOffset, length_strncpy]
  omega

theorem codes_setName (m : Memory) (cheat : ℕ) (line : Bytes) :
    codes (CheatList.setName m cheat line) cheat = codes m cheat :=
  codes_congr (setName_eqOutside m cheat line) (.inr le_rfl)

theorem addCodeLine_eqOutside (m : Memory) (cheat : ℕ) (c : UInt64) :
    EqOutside (CheatList.addCodeLine m cheat c) m cheat (cheatEnd m cheat + 8) := by
  have hend : cheatEnd m cheat = cheat + 56 + 8 * codesCount m cheat := rfl
  have hadd : EqOutside (CheatList.cheatAddCode m cheat c) m cheat (cheatEnd m cheat + 8) := by
    unfold CheatList.cheatAddCode
    refine (eqOutside_write ?_ ?_).trans (eqOutside_write ?_ ?_)
    · exact Nat.le_add_right _ _
    · rw [length_leBytes, hend, codesCountOffset]
      omega
    · exact (Nat.le_add_right cheat _).trans (Nat.le_add_right _ _)
    · rw [length_leBytes]
      exact le_refl (cheatEnd m cheat + 8)
  unfold CheatList.addCodeLine
  split_ifs
  · refine (eqOutside_write le_rfl ?_).trans hadd
    rw [hend, List.length_singleton]
    omega
  · exact hadd

theorem codes_cheatAddCode {c : UInt64} (hcount : codesCount m cheat + 1 < 2 ^ 32) :
    codes (CheatList.cheatAddCode m cheat c) cheat = codes m cheat ++ [c] := by
  have hcount' : codesCount (CheatList.cheatAddCode m cheat c) cheat = codesCount m cheat + 1 := by
    unfold CheatList.cheatAddCode codesCount
    rw [read_leBytes]
    exact Nat.mod_eq_of_lt (hcount.trans_eq (by decide))
  -- the count is written in front of the codes, and the code behind those there are
  have hread : ∀ i, code (CheatList.cheatAddCode m cheat c) cheat i =
      code (write m (codeOffset cheat (codesCount m cheat)) (leBytes 8 c.toNat)) cheat i := by
    intro i
    unfold code CheatList.cheatAddCode
    rw [read_write_of_disjoint]
    right
    rw [length_leBytes, codeOffset, codesCountOffset, descriptionSize]
    omega
  rw [codes, hcount', List.range_succ, List.map_append, List.map_singleton, codes]
  refine congrArg₂ (· ++ ·) ?_ (congrArg (fun c => [c]) ?_)
  · apply List.map_congr_left
    intro i hi
    have hi := List.mem_range.mp hi
    rw [hread, code, code, read_write_of_disjoint]
    left
    rw [codeOffset, codeOffset]
    omega
  · have hbytes : c.toNat % 256 ^ 8 = c.toNat := Nat.mod_eq_of_lt (c.toNat_lt.trans_eq (by decide))
    rw [hread, code, read_leBytes, hbytes, UInt64.ofNat_toNat]

theorem codes_addCodeLine {c : UInt64} (hcount : codesCount m cheat + 1 < 2 ^ 32) :
    codes (CheatList.addCodeLine m cheat c) cheat = codes m cheat ++ [c] := by
  rw [← codes_cheatAddCode hcount]
  unfold CheatList.addCodeLine
  split_ifs
  · apply codes_congr (eqOutside_write le_rfl le_rfl)
    right
    rw [List.length_singleton, codesCountOffset]
    omega
  · rfl

end Presence3DS.Cheats
