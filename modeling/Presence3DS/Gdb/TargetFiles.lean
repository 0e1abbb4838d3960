import Mathlib.Data.List.FinRange
import Presence3DS.Gdb.MemoryPackets
import Presence3DS.Lib.Runs
import Presence3DS.Lib.Tally

/-! Files that the debugger opens on the target (`tio.c`): the table of descriptors, and the
handles of archives and files behind them. -/

namespace Presence3DS.Gdb.TargetFiles
open CString Packets Runs

def gdbhioEbadf : ℕ := 9
def gdbhioEinval : ℕ := 22
def gdbhioEmfile : ℕ := 24
def gdbhioEnametoolong : ℕ := 91

def maxTioOpenFile : ℕ := 32

/-- `PATH_MAX` -/
def pathMax : ℤ := 255

/-! ## The table -/

/-- `GdbTioFileInfo`; a slot without a handle is free. -/
structure FileInfo where
  handle : ℕ
  pos : ℕ
  flags : UInt32

def FileInfo.zeroed : FileInfo := ⟨0, 0, 0⟩

/-- The fields of a context, and the archives and files that are open: a handle that has been
given to its `Close` call is not, whatever the call returns. -/
structure Tio where
  openTioFileInfos : Fin maxTioOpenFile → FileInfo
  numOpenTioFiles : ℕ
  archives : ℕ
  files : List ℕ
  nextHandle : ℕ

namespace Tio

/-- A context that no client has used; the first handle is not zero. -/
def fresh : Tio := ⟨fun _ => .zeroed, 0, 0, [], 1⟩

def openArchive (s : Tio) : Tio := { s with archives := s.archives + 1 }

def closeArchive (s : Tio) : Tio := { s with archives := s.archives - 1 }

def openFile (s : Tio) : Tio :=
  { s with files := s.nextHandle :: s.files, nextHandle := s.nextHandle + 1 }

def closeFile (s : Tio) (h : ℕ) : Tio := { s with files := s.files.erase h }

def setSlot (s : Tio) (i : Fin maxTioOpenFile) (f : FileInfo) : Tio :=
  { s with openTioFileInfos := Function.update s.openTioFileInfos i f }

def inUse (s : Tio) (i : Fin maxTioOpenFile) : Bool := (s.openTioFileInfos i).handle ≠ 0

def used (s : Tio) : ℕ := tally s.inUse

end Tio

/-- `GDB_TioConvertFd` -/
def convertFd (s : Tio) (fd : ℤ) : Option (Fin maxTioOpenFile) :=
  if h : 3 ≤ fd ∧ fd - 3 < maxTioOpenFile then
    let i : Fin maxTioOpenFile := ⟨(fd - 3).toNat, by omega⟩
    if s.inUse i then some i else none
  else none

/-- `GDB_TioRegisterFile`, which takes the first free slot. -/
def registerFile (s : Tio) (h : ℕ) (gdbOpenFlags : UInt32) : Option (ℕ × Tio) :=
  ((List.finRange maxTioOpenFile).find? fun i => !s.inUse i).map fun i =>
    (i.val + 3, { s.setSlot i ⟨h, 0, gdbOpenFlags⟩ with numOpenTioFiles := s.numOpenTioFiles + 1 })

/-! ## Paths, flags and results -/

/-- `GDB_TioConvertResult` -/
def convertResult (res : UInt32) : ℕ :=
  if res = 0 then 0
  else if res = 0x082044BE then 17
  else if res = 0x086044D2 then 28
  else if res = 0xC8804478 ∨ res = 0xC92044FA then 2
  else if res = 0xE0E046BE then 22
  else if res = 0xE0E046BF then 91
  else 9999

/-- The decoder of a path; `utf8_to_utf16` returns how many units it has. -/
structure PathReader where
  lowLast : Bool
  utf8ToUtf16 : Bytes → ℤ

/-- `GDB_MakeUtf16Path` -/
def makeUtf16Path (reader : PathReader) (pathData : Bytes) : ℕ :=
  if pathData.length % 2 = 1 then gdbhioEinval
  else
    let (count, path) := gdbDecodeHex reader.lowLast (pathData.length / 2) pathData
    let units := reader.utf8ToUtf16 (path.take count)
    if units < 0 then gdbhioEinval
    else if pathMax ≤ units then gdbhioEnametoolong
    else 0

def accmode (flags : UInt32) : UInt32 := flags &&& 3

def oAppend (flags : UInt32) : Bool := flags &&& 0x8 ≠ 0
def oCreat (flags : UInt32) : Bool := flags &&& 0x200 ≠ 0
def oTrunc (flags : UInt32) : Bool := flags &&& 0x400 ≠ 0
def oExcl (flags : UInt32) : Bool := flags &&& 0x800 ≠ 0

/-- What the switch over the access mode makes of `err`. -/
def openFlagsErr (flags : UInt32) : ℕ :=
  if accmode flags = 0 then (if oAppend flags then gdbhioEinval else 0)
  else if accmode flags = 1 ∨ accmode flags = 2 then 0
  else gdbhioEinval

/-- `FS_OPEN_READ`, `FS_OPEN_WRITE` and `FS_OPEN_CREATE` -/
def fsFlags (flags : UInt32) : UInt32 :=
  (if accmode flags = 0 then 1 else if accmode flags = 1 then 2
    else if accmode flags = 2 then 3 else 0) ||| (if oCreat flags then 4 else 0)

/-! ## The handlers -/

/-- `GDB_ReplyErrno`, `GDB_TioReplyErrno`, a number or the data behind it. -/
inductive Reply where
  | errno (no : ℕ)
  | failed (err : ℕ)
  | number (n : ℕ)
  | data (n : ℕ)

/-- What the calls of a handler return. -/
structure OpenCalls where
  reader : PathReader
  openArchive : UInt32
  createFile : UInt32
  openFile : UInt32 → UInt32
  setSize : UInt32

structure StatCalls where
  reader : PathReader
  openArchive : UInt32
  openFile : UInt32
  getSize : UInt32
  openDirectory : UInt32

def exclusive (flags : UInt32) : Bool := oCreat flags && oExcl flags

def truncates (flags : UInt32) : Bool := accmode flags ≠ 0 && oTrunc flags

/-- The text of the path and the flags of an `open` packet. -/
def openRequest (commandData : Bytes) : Option (Bytes × UInt32) :=
  if 0x2C ∈ commandData then
    match gdbParseHexIntegerList 32 2 0 (commandData.dropWhile (· ≠ 0x2C)).tail with
    | some ([flags, _], _) => some (commandData.takeWhile (· ≠ 0x2C), UInt32.ofNat flags)
    | _ => none
  else none

/-- `GDB_TIO_HANDLER(Open)` -/
def handleTioOpen (s : Tio) (commandData : Bytes) (calls : OpenCalls) : Reply × Tio :=
  match openRequest commandData with
  | none => (.errno eilseq, s)
  | some (fileNameData, flags) =>
    if maxTioOpenFile ≤ s.numOpenTioFiles then (.failed gdbhioEmfile, s)
    else if makeUtf16Path calls.reader fileNameData ≠ 0 then
      (.failed (makeUtf16Path calls.reader fileNameData), s)
    else if openFlagsErr flags ≠ 0 then (.failed (openFlagsErr flags), s)
    else if convertResult calls.openArchive ≠ 0 then
      (.failed (convertResult calls.openArchive), s)
    else if exclusive flags = true ∧ convertResult calls.createFile ≠ 0 then
      (.failed (convertResult calls.createFile), s.openArchive.closeArchive)
    else if convertResult (calls.openFile (fsFlags flags)) ≠ 0 then
      -- Nothing closes the archive here.
      (.failed (convertResult (calls.openFile (fsFlags flags))), s.openArchive)
    else if truncates flags = true ∧ convertResult calls.setSize ≠ 0 then
      (.failed (convertResult calls.setSize),
        (s.openArchive.openFile.closeArchive).closeFile s.nextHandle)
    else
      match registerFile s.openArchive.openFile.closeArchive s.nextHandle (flags &&& (3 ||| 8)) with
      | none => (.failed gdbhioEmfile, s.openArchive.openFile.closeArchive)
      | some (fd, s) => (.number fd, s)

/-- An argument that is an `int` -/
def toInt (n : ℕ) : ℤ := (BitVec.ofNat 32 n).toInt

/-- `GDB_TIO_HANDLER(Close)` -/
def handleTioClose (s : Tio) (commandData : Bytes) (result : UInt32) : Reply × Tio :=
  match gdbParseHexIntegerList 32 1 0 commandData with
  | some ([fd], _) =>
    match convertFd s (toInt fd) with
    | none => (.failed gdbhioEbadf, s)
    | some i =>
      (if convertResult result ≠ 0 then .failed (convertResult result) else .number 0,
        (s.closeFile (s.openTioFileInfos i).handle).setSlot i .zeroed)
  | _ => (.errno eilseq, s)

/-- What reading and writing have in common, once the arguments are parsed: `IFile_Read` and
`IFile_Write` return a result and how much has been transferred. -/
def transfer (reply : ℕ → Reply) (s : Tio) (fd : ℤ) (offset : ℕ) (answer : UInt32 × ℕ) :
    Reply × Tio :=
  match convertFd s fd with
  | none => (.failed gdbhioEbadf, s)
  | some i =>
    (if convertResult answer.1 ≠ 0 then .failed (convertResult answer.1) else reply answer.2,
      s.setSlot i { s.openTioFileInfos i with pos := offset + answer.2 })

/-- `GDB_TIO_HANDLER(Read)` -/
def handleTioRead (s : Tio) (commandData : Bytes) (answer : UInt32 × ℕ) : Reply × Tio :=
  match gdbParseHexIntegerList 32 3 0 commandData with
  | some ([fd, _, offset], _) => transfer .data s (toInt fd) offset answer
  | _ => (.errno eilseq, s)

/-- `GDB_TIO_HANDLER(Write)` -/
def handleTioWrite (s : Tio) (commandData : Bytes) (answer : UInt32 × ℕ) : Reply × Tio :=
  match gdbParseHexIntegerList 32 2 0x2C commandData with
  | some ([fd, offset], _) => transfer .number s (toInt fd) offset answer
  | _ => (.errno eilseq, s)

/-- `GDB_TIO_HANDLER(Stat)` -/
def handleTioStat (s : Tio) (commandData : Bytes) (calls : StatCalls) : Reply × Tio :=
  if commandData = [] then (.errno eilseq, s)
  else if makeUtf16Path calls.reader commandData ≠ 0 then
    (.failed (makeUtf16Path calls.reader commandData), s)
  else if convertResult calls.openArchive ≠ 0 then (.failed (convertResult calls.openArchive), s)
  else
    let (err, s) :=
      if convertResult calls.openFile = 0 then
        (convertResult calls.getSize, s.openArchive.openFile.closeFile s.nextHandle)
      else (convertResult calls.openDirectory, s.openArchive)
    (if err ≠ 0 then .failed err else .data 0, s.closeArchive)

/-- The part of `GDB_CloseClient` that is about the files. -/
def closeClient (s : Tio) : Tio :=
  { s with
    openTioFileInfos := fun _ => .zeroed
    numOpenTioFiles := 0
    files := s.files.diff (List.ofFn fun i => (s.openTioFileInfos i).handle) }

inductive Request where
  | open (commandData : Bytes) (calls : OpenCalls)
  | close (commandData : Bytes) (result : UInt32)
  | read (commandData : Bytes) (answer : UInt32 × ℕ)
  | write (commandData : Bytes) (answer : UInt32 × ℕ)
  | stat (commandData : Bytes) (calls : StatCalls)
  | closeClient

def respond (s : Tio) : Request → Reply × Tio
  | .open commandData calls => handleTioOpen s commandData calls
  | .close commandData result => handleTioClose s commandData result
  | .read commandData answer => handleTioRead s commandData answer
  | .write commandData answer => handleTioWrite s commandData answer
  | .stat commandData calls => handleTioStat s commandData calls
  | .closeClient => (.data 0, closeClient s)

def step (s : Tio) (r : Request) : Option Tio := some (respond s r).2

/-! ## What is claimed of a step -/

/-- The errors of the checks and calls on the way to an open file, zero where one succeeds. -/
def openErrors (calls : OpenCalls) (fileNameData : Bytes) (flags : UInt32) : List ℕ :=
  [makeUtf16Path calls.reader fileNameData, openFlagsErr flags, convertResult calls.openArchive,
    if exclusive flags then convertResult calls.createFile else 0,
    convertResult (calls.openFile (fsFlags flags)),
    if truncates flags then convertResult calls.setSize else 0]

/-- The file can be opened. -/
def Opens (calls : OpenCalls) (fileNameData : Bytes) (flags : UInt32) : Prop :=
  ∀ e ∈ openErrors calls fileNameData flags, e = 0

/-- The archive is opened, and the file in it is not. -/
def LosesArchive (calls : OpenCalls) (fileNameData : Bytes) (flags : UInt32) : Prop :=
  (∀ e ∈ (openErrors calls fileNameData flags).take 4, e = 0) ∧
    convertResult (calls.openFile (fsFlags flags)) ≠ 0

/-- The slot of the descriptor that a packet closes. -/
def closedSlot (s : Tio) (commandData : Bytes) : Option (Fin maxTioOpenFile) :=
  match gdbParseHexIntegerList 32 1 0 commandData with
  | some ([fd], _) => convertFd s (toInt fd)
  | _ => none

/-- A file that can be opened gets the descriptor once those before it are in use. -/
def Reusable (s : Tio) (i : Fin maxTioOpenFile) : Prop :=
  ∀ commandData calls fileNameData flags, openRequest commandData = some (fileNameData, flags) →
    Opens calls fileNameData flags → (∀ j < i, s.inUse j = true) →
      (handleTioOpen s commandData calls).1 = .number (i.val + 3)

structure Lawful (s : Tio) (r : Request) (t : Tio) : Prop where
  counted : t.numOpenTioFiles = t.used
  reusable : ∀ commandData result i, r = .close commandData result →
    closedSlot s commandData = some i → Reusable t i
  opens : ∀ commandData calls fileNameData flags no, r = .open commandData calls →
    openRequest commandData = some (fileNameData, flags) → (respond s r).1 = .failed no →
      s.used = maxTioOpenFile ∨ ¬Opens calls fileNameData flags
  noLeak : ∀ commandData calls no, r = .open commandData calls → (respond s r).1 = .failed no →
    t.archives = s.archives ∧ t.files = s.files

/-- No descriptor is closed, and no file fails to open in an archive that has been opened. -/
def Fits (s : Tio) : Request → Prop
  | .open commandData calls => s.numOpenTioFiles < maxTioOpenFile →
      ∀ fileNameData flags, openRequest commandData = some (fileNameData, flags) →
        ¬LosesArchive calls fileNameData flags
  | .close commandData _ => closedSlot s commandData = none
  | _ => True

/-- The count is right, and no handle is zero. -/
structure Inv (s : Tio) : Prop where
  counted : s.numOpenTioFiles = s.used
  handle_pos : 0 < s.nextHandle

/-! ## Slots -/

section
variable {s t : Tio} {i : Fin maxTioOpenFile} {f : FileInfo}

theorem inUse_setSlot_of_ne {j : Fin maxTioOpenFile} (h : j ≠ i) :
    (s.setSlot i f).inUse j = s.inUse j := by
  show decide ((Function.update s.openTioFileInfos i f j).handle ≠ 0) = _
  rw [Function.update_of_ne h]
  rfl

@[simp] theorem inUse_setSlot (s : Tio) (i : Fin maxTioOpenFile) (f : FileInfo) :
    (s.setSlot i f).inUse i = decide (f.handle ≠ 0) := by
  show decide ((Function.update s.openTioFileInfos i f i).handle ≠ 0) = _
  rw [Function.update_self]

theorem used_congr (h : t.openTioFileInfos = s.openTioFileInfos) : t.used = s.used := by
  unfold Tio.used Tio.inUse
  rw [h]

theorem used_setSlot (s : Tio) (i : Fin maxTioOpenFile) (f : FileInfo) :
    (s.setSlot i f).used + (s.inUse i).toNat = s.used + (decide (f.handle ≠ 0)).toNat := by
  rw [← inUse_setSlot s i f]
  exact Tally.exchange fun j hj => inUse_setSlot_of_ne hj

theorem used_le (s : Tio) : s.used ≤ maxTioOpenFile := by
  have hle := Tally.le_card (p := s.inUse)
  rwa [Fintype.card_fin] at hle

theorem registerFile_spec (hfree : s.used < maxTioOpenFile) (h : ℕ) (flags : UInt32) :
    ∃ i, s.inUse i = false ∧ (∀ j < i, s.inUse j = true) ∧ registerFile s h flags =
      some (i.val + 3,
        { s.setSlot i ⟨h, 0, flags⟩ with numOpenTioFiles := s.numOpenTioFiles + 1 }) := by
  obtain ⟨j, hj⟩ := Tally.lt_card_iff.mp (by rwa [Fintype.card_fin])
  have hsome : ((List.finRange maxTioOpenFile).find? fun i => !s.inUse i).isSome = true :=
    List.find?_isSome.mpr ⟨j, List.mem_finRange j, by rw [hj]; rfl⟩
  obtain ⟨i, hi⟩ := Option.isSome_iff_exists.mp hsome
  obtain ⟨hfound, k, hk, hki, hbefore⟩ := List.find?_eq_some_iff_getElem.mp hi
  refine ⟨i, by simpa using hfound, fun j hj => ?_, ?_⟩
  · have hjk : j.val < k := by
      rw [List.getElem_finRange] at hki
      rw [← hki] at hj
      exact hj
    have hused := hbefore j.val hjk
    rw [List.getElem_finRange] at hused
    simpa using hused
  · unfold registerFile
    rw [hi]
    rfl

theorem convertFd_inUse {fd : ℤ} (h : convertFd s fd = some i) : s.inUse i = true := by
  unfold convertFd at h
  split_ifs at h with hfd
  dsimp only at h
  split_ifs at h with hused
  rw [← Option.some.inj h]
  exact hused

end

/-! ## Steps -/

section
variable {s t : Tio} {i : Fin maxTioOpenFile} {calls : OpenCalls} {commandData fileNameData : Bytes}
  {flags : UInt32}

theorem opens_iff : Opens calls fileNameData flags ↔
    makeUtf16Path calls.reader fileNameData = 0 ∧ openFlagsErr flags = 0 ∧
      convertResult calls.openArchive = 0 ∧
      ¬(exclusive flags = true ∧ convertResult calls.createFile ≠ 0) ∧
      convertResult (calls.openFile (fsFlags flags)) = 0 ∧
      ¬(truncates flags = true ∧ convertResult calls.setSize ≠ 0) := by
  simp [Opens, openErrors]

theorem losesArchive_iff : LosesArchive calls fileNameData flags ↔
    makeUtf16Path calls.reader fileNameData = 0 ∧ openFlagsErr flags = 0 ∧
      convertResult calls.openArchive = 0 ∧
      ¬(exclusive flags = true ∧ convertResult calls.createFile ≠ 0) ∧
      convertResult (calls.openFile (fsFlags flags)) ≠ 0 := by
  simp [LosesArchive, openErrors, and_assoc]

/-- What a refused file leaves behind. -/
structure Refused (s : Tio) (t : Tio) : Prop where
  slots : t.openTioFileInfos = s.openTioFileInfos
  count : t.numOpenTioFiles = s.numOpenTioFiles
  files : t.files = s.files
  next : s.nextHandle ≤ t.nextHandle

theorem Refused.refl (s : Tio) : Refused s s := ⟨rfl, rfl, rfl, le_rfl⟩

theorem handleTioOpen_cases (hreq : openRequest commandData = some (fileNameData, flags))
    (hroom : s.numOpenTioFiles < maxTioOpenFile) :
    (¬Opens calls fileNameData flags ∧ ∃ e t, handleTioOpen s commandData calls = (.failed e, t) ∧
      Refused s t ∧ (t.archives = s.archives ↔ ¬LosesArchive calls fileNameData flags)) ∨
    (Opens calls fileNameData flags ∧ ∃ u, u.openTioFileInfos = s.openTioFileInfos ∧
      u.numOpenTioFiles = s.numOpenTioFiles ∧ s.nextHandle ≤ u.nextHandle ∧
      handleTioOpen s commandData calls =
        match registerFile u s.nextHandle (flags &&& (3 ||| 8)) with
        | none => (.failed gdbhioEmfile, u)
        | some (fd, t) => (.number fd, t)) := by
  rw [opens_iff, losesArchive_iff]
  unfold handleTioOpen
  rw [hreq]
  dsimp only
  rw [if_neg (Nat.not_le.mpr hroom)]
  by_cases hpath : makeUtf16Path calls.reader fileNameData = 0
  swap
  · rw [if_pos hpath]
    exact .inl ⟨fun h => hpath h.1, _, s, rfl, .refl s, iff_of_true rfl fun h => hpath h.1⟩
  by_cases hflags : openFlagsErr flags = 0
  swap
  · rw [if_neg (not_not_intro hpath), if_pos hflags]
    exact .inl ⟨fun h => hflags h.2.1, _, s, rfl, .refl s, iff_of_true rfl fun h => hflags h.2.1⟩
  by_cases harchive : convertResult calls.openArchive = 0
  swap
  · rw [if_neg (not_not_intro hpath), if_neg (not_not_intro hflags), if_pos harchive]
    exact .inl ⟨fun h => harchive h.2.2.1, _, s, rfl, .refl s,
      iff_of_true rfl fun h => harchive h.2.2.1⟩
  rw [if_neg (not_not_intro hpath), if_neg (not_not_intro hflags),
    if_neg (not_not_intro harchive)]
  by_cases hcreate : exclusive flags = true ∧ convertResult calls.createFile ≠ 0
  · rw [if_pos hcreate]
    exact .inl ⟨fun h => h.2.2.2.1 hcreate, _, _, rfl, ⟨rfl, rfl, rfl, le_rfl⟩,
      iff_of_true rfl fun h => h.2.2.2.1 hcreate⟩
  rw [if_neg hcreate]
  by_cases hfile : convertResult (calls.openFile (fsFlags flags)) = 0
  swap
  · -- The archive stays open.
    rw [if_pos hfile]
    refine .inl ⟨fun h => hfile h.2.2.2.2.1, _, _, rfl, ⟨rfl, rfl, rfl, le_rfl⟩, iff_of_false ?_ ?_⟩
    · exact Nat.succ_ne_self s.archives
    · exact not_not_intro ⟨hpath, hflags, harchive, hcreate, hfile⟩
  rw [if_neg (not_not_intro hfile)]
  by_cases htrunc : truncates flags = true ∧ convertResult calls.setSize ≠ 0
  · rw [if_pos htrunc]
    refine .inl ⟨fun h => h.2.2.2.2.2 htrunc, _, _, rfl, ⟨rfl, rfl, ?_, Nat.le_succ _⟩,
      iff_of_true rfl fun h => h.2.2.2.2 hfile⟩
    exact List.erase_cons_head ..
  · rw [if_neg htrunc]
    exact .inr ⟨⟨hpath, hflags, harchive, hcreate, hfile, htrunc⟩,
      s.openArchive.openFile.closeArchive, rfl, rfl, Nat.le_succ _, rfl⟩

theorem handleTioOpen_full (hreq : openRequest commandData = some (fileNameData, flags))
    (hfull : maxTioOpenFile ≤ s.numOpenTioFiles) :
    handleTioOpen s commandData calls = (.failed gdbhioEmfile, s) := by
  unfold handleTioOpen
  rw [hreq]
  exact if_pos hfull

theorem handleTioOpen_malformed (hreq : openRequest commandData = none) :
    handleTioOpen s commandData calls = (.errno eilseq, s) := by
  unfold handleTioOpen
  rw [hreq]

theorem handleTioOpen_opens (hs : Inv s)
    (hreq : openRequest commandData = some (fileNameData, flags))
    (hroom : s.numOpenTioFiles < maxTioOpenFile) (hopens : Opens calls fileNameData flags) :
    ∃ i t, s.inUse i = false ∧ (∀ j < i, s.inUse j = true) ∧
      handleTioOpen s commandData calls = (.number (i.val + 3), t) ∧ Inv t := by
  obtain ⟨hnot, -⟩ | ⟨-, u, hslots, hcount, hnext, hresult⟩ :=
    @handleTioOpen_cases s calls commandData fileNameData flags hreq hroom
  · exact absurd hopens hnot
  have hused : u.used = s.used := used_congr hslots
  have hinUse : u.inUse = s.inUse := by
    unfold Tio.inUse
    rw [hslots]
  obtain ⟨i, hfree, hbefore, hregister⟩ := registerFile_spec (s := u)
    (by rw [hused, ← hs.counted]; exact hroom) s.nextHandle (flags &&& (3 ||| 8))
  rw [hregister] at hresult
  rw [hinUse] at hfree hbefore
  refine ⟨i, _, hfree, hbefore, hresult, ⟨?_, hs.handle_pos.trans_le hnext⟩⟩
  have hupdate := used_setSlot u i ⟨s.nextHandle, 0, flags &&& (3 ||| 8)⟩
  have htaken : decide (s.nextHandle ≠ 0) = true := decide_eq_true hs.handle_pos.ne'
  rw [hinUse, hfree, hused] at hupdate
  change _ + 0 = s.used + (decide (s.nextHandle ≠ 0)).toNat at hupdate
  rw [htaken] at hupdate
  show u.numOpenTioFiles + 1 = (u.setSlot i _).used
  rw [hcount, hs.counted]
  exact hupdate.symm

theorem closedSlot_inUse (h : closedSlot s commandData = some i) : s.inUse i = true := by
  unfold closedSlot at h
  split at h
  · exact convertFd_inUse h
  · cases h

theorem handleTioClose_cases (s : Tio) (commandData : Bytes) (result : UInt32) :
    closedSlot s commandData = none ∧ (handleTioClose s commandData result).2 = s ∨
      ∃ i, closedSlot s commandData = some i ∧ (handleTioClose s commandData result).2 =
        (s.closeFile (s.openTioFileInfos i).handle).setSlot i .zeroed := by
  unfold handleTioClose closedSlot
  split
  · next fd rest hparse =>
    cases hfd : convertFd s (toInt fd) with
    | none => exact .inl ⟨rfl, rfl⟩
    | some i => exact .inr ⟨i, rfl, rfl⟩
  · exact .inl ⟨rfl, rfl⟩

theorem transfer_keeps {reply : ℕ → Reply} {fd : ℤ} {offset : ℕ} {answer : UInt32 × ℕ}
    (hs : Inv s) : Inv (transfer reply s fd offset answer).2 := by
  unfold transfer
  cases hfd : convertFd s fd with
  | none => exact hs
  | some i =>
    refine ⟨?_, hs.handle_pos⟩
    have hupdate := used_setSlot s i { s.openTioFileInfos i with pos := offset + answer.2 }
    exact hs.counted.trans (Nat.add_right_cancel hupdate).symm

theorem handleTioRead_keeps (hs : Inv s) (answer : UInt32 × ℕ) :
    Inv (handleTioRead s commandData answer).2 := by
  unfold handleTioRead
  split
  · exact transfer_keeps hs
  · exact hs

theorem handleTioWrite_keeps (hs : Inv s) (answer : UInt32 × ℕ) :
    Inv (handleTioWrite s commandData answer).2 := by
  unfold handleTioWrite
  split
  · exact transfer_keeps hs
  · exact hs

theorem handleTioStat_keeps (hs : Inv s) (calls : StatCalls) :
    Inv (handleTioStat s commandData calls).2 := by
  unfold handleTioStat
  split_ifs
  · exact hs
  · exact hs
  · exact hs
  · exact ⟨hs.counted, hs.handle_pos.trans (Nat.lt_succ_self _)⟩
  · exact ⟨hs.counted, hs.handle_pos⟩

theorem used_closeClient (s : Tio) : (closeClient s).used = 0 :=
  Tally.eq_zero_iff.mpr fun _ => rfl

/-! ## Laws -/

theorem lawful_open_iff (hs : Inv s) (commandData : Bytes) (calls : OpenCalls) :
    (Lawful s (.open commandData calls) (handleTioOpen s commandData calls).2 ↔
      Fits s (.open commandData calls)) ∧ Inv (handleTioOpen s commandData calls).2 := by
  cases hreq : openRequest commandData with
  | none =>
    have hopen := @handleTioOpen_malformed s calls commandData hreq
    rw [hopen]
    refine ⟨iff_of_true ⟨hs.counted, ?_, ?_, ?_⟩ ?_, hs⟩
    · exact fun _ _ _ hr => by cases hr
    · intro cd calls' _ _ _ hr hname
      obtain ⟨rfl, rfl⟩ := Request.open.inj hr
      rw [hreq] at hname
      cases hname
    · intro cd calls' no hr hfailed
      obtain ⟨rfl, rfl⟩ := Request.open.inj hr
      rw [respond, hopen] at hfailed
      cases hfailed
    · intro _ _ _ hname
      rw [hreq] at hname
      cases hname
  | some request =>
    obtain ⟨fileNameData, flags⟩ := request
    rcases Nat.lt_or_ge s.numOpenTioFiles maxTioOpenFile with hroom | hfull
    · obtain ⟨hnot, e, t, hopen, ht, hlost⟩ | ⟨hopens, -⟩ :=
        @handleTioOpen_cases s calls commandData fileNameData flags hreq hroom
      · have hinv : Inv t :=
          ⟨by rw [ht.count, used_congr ht.slots, hs.counted], hs.handle_pos.trans_le ht.next⟩
        rw [hopen]
        refine ⟨⟨fun h _ name fl hname => ?_, fun h => ⟨hinv.counted, ?_, ?_, ?_⟩⟩, hinv⟩
        · obtain ⟨rfl, rfl⟩ := Prod.mk.inj (Option.some.inj (hreq.symm.trans hname))
          have hleak := h.noLeak commandData calls e rfl (by rw [respond, hopen])
          exact hlost.mp hleak.1
        · exact fun _ _ _ hr => by cases hr
        · intro cd calls' name fl _ hr hname _
          obtain ⟨rfl, rfl⟩ := Request.open.inj hr
          obtain ⟨rfl, rfl⟩ := Prod.mk.inj (Option.some.inj (hreq.symm.trans hname))
          exact .inr hnot
        · intro cd calls' _ hr _
          obtain ⟨rfl, rfl⟩ := Request.open.inj hr
          exact ⟨hlost.mpr (h hroom fileNameData flags hreq), ht.files⟩
      · obtain ⟨i, t, -, -, hopen, hinv⟩ := handleTioOpen_opens hs hreq hroom hopens
        have hnumber : ∀ no, (respond s (.open commandData calls)).1 ≠ .failed no := by
          intro no hfailed
          rw [respond, hopen] at hfailed
          cases hfailed
        rw [hopen]
        refine ⟨iff_of_true ⟨hinv.counted, ?_, ?_, ?_⟩ ?_, hinv⟩
        · exact fun _ _ _ hr => by cases hr
        · exact fun _ _ _ _ no _ _ hfailed => absurd hfailed (hnumber no)
        · exact fun _ _ no _ hfailed => absurd hfailed (hnumber no)
        · intro _ name fl hname
          obtain ⟨rfl, rfl⟩ := Prod.mk.inj (Option.some.inj (hreq.symm.trans hname))
          exact fun hlost => (losesArchive_iff.mp hlost).2.2.2.2 (opens_iff.mp hopens).2.2.2.2.1
    · have hopen := @handleTioOpen_full s calls commandData fileNameData flags hreq hfull
      rw [hopen]
      refine ⟨iff_of_true ⟨hs.counted, ?_, ?_, ?_⟩ ?_, hs⟩
      · exact fun _ _ _ hr => by cases hr
      · exact fun _ _ _ _ _ _ _ _ => .inl (Nat.le_antisymm (used_le s) (hs.counted ▸ hfull))
      · exact fun _ _ _ _ _ => ⟨rfl, rfl⟩
      · exact fun hroom => absurd hfull (Nat.not_le.mpr hroom)

theorem not_lawful_close {result : UInt32} (hs : Inv s) (hi : closedSlot s commandData = some i)
    (ht : t = (s.closeFile (s.openTioFileInfos i).handle).setSlot i .zeroed) :
    ¬Lawful s (.close commandData result) t := by
  intro h
  have hcounted := h.counted
  have hupdate := used_setSlot (s.closeFile (s.openTioFileInfos i).handle) i .zeroed
  rw [← ht] at hupdate
  have hinUse : (s.closeFile (s.openTioFileInfos i).handle).inUse i = true := closedSlot_inUse hi
  have hcount : t.numOpenTioFiles = s.numOpenTioFiles := by
    rw [ht]
    rfl
  have hsame : (s.closeFile (s.openTioFileInfos i).handle).used = s.used := rfl
  rw [hinUse, hsame, ← hs.counted, ← hcounted, hcount] at hupdate
  exact absurd hupdate (Nat.succ_ne_self _)

theorem lawful_of_keeps {r : Request} (ht : Inv t)
    (hopen : ∀ commandData calls, r ≠ .open commandData calls)
    (hclose : ∀ commandData result, r = .close commandData result →
      closedSlot s commandData = none) : Lawful s r t := by
  refine ⟨ht.counted, fun cd result i hr hi => ?_, fun cd calls _ _ _ hr => ?_,
    fun cd calls _ hr => ?_⟩
  · rw [hclose cd result hr] at hi
    cases hi
  · exact absurd hr (hopen cd calls)
  · exact absurd hr (hopen cd calls)

theorem lawful_iff (hs : Inv s) (r : Request) :
    (Lawful s r (respond s r).2 ↔ Fits s r) ∧ (Fits s r → Inv (respond s r).2) := by
  cases r with
  | «open» commandData calls =>
    have hopen := lawful_open_iff hs commandData calls
    exact ⟨hopen.1, fun _ => hopen.2⟩
  | close commandData result =>
    obtain ⟨hnone, hclose⟩ | ⟨i, hi, hclose⟩ := handleTioClose_cases s commandData result
    · rw [respond, hclose]
      refine ⟨iff_of_true (lawful_of_keeps hs (by simp) ?_) hnone, fun _ => hs⟩
      intro cd result' hr
      rw [← (Request.close.inj hr).1]
      exact hnone
    · have hfits : ¬Fits s (.close commandData result) := by
        intro h
        rw [Fits, hi] at h
        cases h
      exact ⟨iff_of_false (not_lawful_close hs hi hclose) hfits, fun h => absurd h hfits⟩
  | read commandData answer =>
    have ht := @handleTioRead_keeps s commandData hs answer
    exact ⟨iff_of_true (lawful_of_keeps ht (by simp) (by simp)) trivial, fun _ => ht⟩
  | write commandData answer =>
    have ht := @handleTioWrite_keeps s commandData hs answer
    exact ⟨iff_of_true (lawful_of_keeps ht (by simp) (by simp)) trivial, fun _ => ht⟩
  | stat commandData calls =>
    have ht := @handleTioStat_keeps s commandData hs calls
    exact ⟨iff_of_true (lawful_of_keeps ht (by simp) (by simp)) trivial, fun _ => ht⟩
  | closeClient =>
    have ht : Inv (closeClient s) := ⟨(used_closeClient s).symm, hs.handle_pos⟩
    exact ⟨iff_of_true (lawful_of_keeps ht (by simp) (by simp)) trivial, fun _ => ht⟩

/-- The table is as it is to be in a run exactly where no step of it closes a file or fails to
open one in an archive that has been opened. -/
theorem targetFiles_iff (requests : List Request) :
    AllSteps step Lawful .fresh requests ↔ Guarded step Fits .fresh requests := by
  have hfresh : Inv .fresh := ⟨(Tally.eq_zero_iff.mpr fun _ => rfl).symm, Nat.one_pos⟩
  refine allSteps_iff_guarded (I := Inv) (fun s r t hs ht => ?_) (fun s r t hs ht hl => ?_) hfresh
    requests
  · rw [← Option.some.inj ht]
    exact (lawful_iff hs r).1
  · rw [← Option.some.inj ht] at hl ⊢
    exact (lawful_iff hs r).2 ((lawful_iff hs r).1.mp hl)

end

/-! ## A file that is closed -/

/-- Every call succeeds. -/
def allSucceed : OpenCalls := ⟨⟨true, fun s => s.length⟩, 0, 0, fun _ => 0, 0⟩

/-- `61,0,0` -/
def openPacket : Bytes := [0x36, 0x31, 0x2C, 0x30, 0x2C, 0x30]

theorem count_stays : ¬AllSteps step Lawful .fresh
    [.open openPacket allSucceed, .close [0x33] 0] := by
  intro h
  have hlaw := ((h _ rfl).2 _ rfl).1
  have hcounted := hlaw.counted
  revert hcounted
  decide +kernel

end Presence3DS.Gdb.TargetFiles
