import Mathlib.Data.Multiset.AddSub
import Presence3DS.Kernel.State
import Presence3DS.Lib.NotedRuns
import Presence3DS.Lib.RawMemory

/-! The programs of the loader (`loader.c`): they are registered, described and loaded, with the info
of the last one and the CXI file of a system module kept in between. What the loader takes from the
system is counted, and giving back what is not out is noted. -/

namespace Presence3DS.Loader.Programs
open Kernel (Result)
open NotedRuns NotedM
open RawMemory (leValue)

abbrev Bytes := List UInt8

abbrev ProgramHandle := BitVec 64

abbrev TitleId := BitVec 64

inductive Resource where
  | file (handle : ℕ)
  | memory (address size : BitVec 32)
  | codeSet (handle : ℕ)
  | session (handle : ℕ)
deriving DecidableEq

/-! ## Data -/

structure Segment where
  address : BitVec 32
  size : BitVec 32

structure CodeSetInfo where
  name : BitVec 64
  compressExefsCode : Bool
  remasterVersion : BitVec 16
  text : Segment
  rodata : Segment
  data : Segment
  bssSize : BitVec 32

structure ExHeaderInfo where
  titleId : TitleId
  o3dsSystemMode : BitVec 4
  n3dsSystemMode : BitVec 4
  codesetInfo : CodeSetInfo
  descriptors : List (BitVec 32)
  /-- The fields that the loader only hands on. -/
  rest : Bytes

/-- The fields of the header that the loader reads. -/
structure Ncch where
  exHeaderSize : BitVec 32
  flag6 : BitVec 8
  exeFsOffset : BitVec 32
  exeFsSize : BitVec 32

structure MemoryModeOverride where
  query : Bool
  enableO3ds : Bool
  enableN3ds : Bool
  o3dsMode : BitVec 3
  n3dsMode : BitVec 3

/-- `FS_ProgramInfo` -/
structure FsProgramInfo where
  programId : TitleId
  mediaType : BitVec 8

/-- An open file. A read gives what has been read, which may be less than was asked for. -/
structure IFile where
  handle : ℕ
  getSize : Option ℕ
  read : ℕ → ℕ → Option Bytes

/-- A read that gives all that was asked for; the file is not asked for nothing. -/
def IFile.readFull (file : IFile) (offset size : ℕ) : Option Bytes :=
  if size = 0 then some []
  else (file.read offset size).filter fun data => data.length = size

/-- A file of `/luma/sysmodules`, with the title that its path names. -/
structure CxiFile extends IFile where
  title : TitleId

/-- What the loader's calls come to: the settings, the answers of the system, and the steps on code
that have models of their own. -/
structure World where
  patchGames : Bool
  loadExtFirmsAndModules : Bool
  isN3ds : Bool
  hbldrIs3dsxTitle : TitleId → Bool
  /-- `none` where it panics. -/
  hbldrPatchExHeaderInfo : ExHeaderInfo → Option ExHeaderInfo
  /-- The layout of `ExHeader_Info`. -/
  exHeaderInfo : Bytes → ExHeaderInfo
  checkHostLoadId : ProgramHandle → Bool
  fsregGetProgramInfo : ProgramHandle → Except Result ExHeaderInfo
  pxipmGetProgramInfo : ProgramHandle → Except Result ExHeaderInfo
  fsregLoadProgram : FsProgramInfo → Except Result ProgramHandle
  pxipmRegisterProgram : FsProgramInfo → FsProgramInfo → Except Result ProgramHandle
  fsregUnloadProgram : ProgramHandle → Result
  pxipmUnregisterProgram : ProgramHandle → Result
  sysmoduleCxi : TitleId → Except Result IFile
  titleExheader : TitleId → Option IFile
  titleCode : TitleId → Option IFile
  programCode : ProgramHandle → Except Result IFile
  allocateProgramMemory : ExHeaderInfo → BitVec 32 → BitVec 32 → Except Result Unit
  lzssDecompress : Bytes → Bytes
  /-- The code of a title as `patchCode` leaves it, with the size of the code and whether the patches
  of games are disabled for once; `none` where it breaks. -/
  patchCode : ExHeaderInfo → Bytes → BitVec 32 → Bool → Option Bytes
  svcCreateCodeSet : ExHeaderInfo → Bytes → Except Result ℕ
  svcCreateProcess : ExHeaderInfo → Bytes → Except Result ℕ
  svcGetProcessId : ℕ → Option (BitVec 32)
  connectToPluginLoader : Except Result ℕ
  isPluginLoaderEnabled : Bool
  plgldrLoadPlugin : BitVec 32 → Bool → Bool
  /-- The 3DSX that is the target of the homebrew loader, its size in memory, and its code. -/
  hbldrTarget : Except Result IFile
  ldrGet3dsxSize : IFile → Option (BitVec 32)
  ldrCodesetFrom3dsx : ExHeaderInfo → IFile → Option (ℕ × Bytes)

/-! ## The loader -/

structure State where
  cachedProgramHandle : ProgramHandle
  exheaderInfo : ExHeaderInfo
  lastAppExheaderInfo : ExHeaderInfo
  /-- `none` where the handle is 0. -/
  cachedSysmoduleCxiFile : Option CxiFile
  cachedSysmoduleCxiCookie : ProgramHandle
  cachedSysmoduleCxiNcch : Ncch
  memoryOverrideConfig : MemoryModeOverride
  nextGamePatchDisabled : Bool
  plgldrRefcount : ℕ
  plgldrHandle : ℕ
  /-- What has been taken and not been given back. -/
  out : Multiset Resource

/-- It fails where the loader panics or breaks. -/
abbrev LoaderM := NotedM State Resource

def zeroInfo : ExHeaderInfo := ⟨0, 0, 0, ⟨0, false, 0, ⟨0, 0⟩, ⟨0, 0⟩, ⟨0, 0⟩, 0⟩, [], []⟩

def boot : State :=
  ⟨0, zeroInfo, zeroInfo, none, 0, ⟨0, 0, 0, 0⟩, ⟨false, false, false, 0, 0⟩, false, 0, 0, 0⟩

def take (r : Resource) : LoaderM Unit := modify fun s => { s with out := r ::ₘ s.out }

def give (r : Resource) : LoaderM Unit := do
  let s ← gets id
  if r ∈ s.out then modify fun s => { s with out := s.out.erase r } else note r

def assertSuccess {α : Type} : Except Result α → LoaderM α
  | .ok a => pure a
  | .error _ => fail

def isSysmoduleId (tid : TitleId) : Bool := tid >>> 32 = 0x00040130

def isApplicationId (tid : TitleId) : Bool := tid >>> 32 = 0x00040000

/-- Applications, with demos, updates and add-on contents. -/
def isAppLike (tid : TitleId) : Bool := (tid >>> 32) &&& 0xFFFFFFED = 0x00040000

def sysmoduleCxiCookieMask : BitVec 64 := 0xEEEE000000000000

def isSysmoduleCxiCookie (programHandle : ProgramHandle) : Bool :=
  programHandle >>> 32 = sysmoduleCxiCookieMask >>> 32

def isHioId (w : World) (id : BitVec 64) : Bool := id >>> 32 = 0xFFFF0000 || w.checkHostLoadId id

/-- The condition under which files of a title are looked for on the SD card. -/
def loadsExternally (w : World) (titleId : TitleId) : Bool :=
  w.patchGames && (!isSysmoduleId titleId || w.loadExtFirmsAndModules)

/-- The low word of a number. -/
def lowWord (x : BitVec 64) : BitVec 64 := x &&& 0xFFFFFFFF

def withoutN3dsBits (progId : TitleId) : TitleId := progId &&& ~~~0xF0000000

/-! ### System modules from CXI files -/

/-- `IFile_Close`, where the file is open. -/
def closeCxiFile : Option CxiFile → LoaderM Unit
  | none => pure ()
  | some file => give (.file file.handle)

def invalidateCachedCxiFile : LoaderM Unit := do
  let s ← gets id
  closeCxiFile s.cachedSysmoduleCxiFile
  modify fun s => { s with cachedSysmoduleCxiFile := none, cachedSysmoduleCxiCookie := 0 }

/-- `openSysmoduleCxi`, into the file that is kept. -/
def openSysmoduleCxi (w : World) (progId : TitleId) : LoaderM (Except Result Unit) :=
  match w.sysmoduleCxi (withoutN3dsBits progId) with
  | .error res => pure (.error res)
  | .ok file => do
    take (.file file.handle)
    modify fun s => { s with cachedSysmoduleCxiFile := some ⟨file, withoutN3dsBits progId⟩ }
    pure (.ok ())

def wordAt (data : Bytes) (i : ℕ) : BitVec 32 := BitVec.ofNat 32 (leValue ((data.drop i).take 4))

def Ncch.ofBytes (data : Bytes) : Ncch where
  exHeaderSize := wordAt data 0x180
  flag6 := BitVec.ofNat 8 (data.getD 0x18E 0).toNat
  exeFsOffset := wordAt data 0x1A0
  exeFsSize := wordAt data 0x1A4

def readSysmoduleCxiNcchHeader (file : IFile) : Option Ncch :=
  (file.readFull 0 0x200).map Ncch.ofBytes

def readSysmoduleCxiExHeaderInfo (w : World) (ncch : Ncch) (file : IFile) : Option ExHeaderInfo :=
  if ncch.exHeaderSize < 0x400 then none
  else (file.readFull 0x200 ncch.exHeaderSize.toNat).map w.exHeaderInfo

/-- The offset and the size of the last of the first eight files of an ExeFS that is `.code`. -/
def codeHeader (hdr : Bytes) : Option (BitVec 32 × BitVec 32) :=
  ((List.range 8).findRev? fun i =>
    (hdr.drop (16 * i)).take 6 = [0x2E, 0x63, 0x6F, 0x64, 0x65, 0]).map fun i =>
      (wordAt hdr (16 * i + 8), wordAt hdr (16 * i + 12))

def readSysmoduleCxiCode (maxSize : BitVec 32) (ncch : Ncch) (file : IFile) : Option Bytes :=
  let contentUnitShift := 9 + ncch.flag6.toNat
  let exeFsOffset := ncch.exeFsOffset <<< contentUnitShift
  let exeFsSize := ncch.exeFsSize <<< contentUnitShift
  if exeFsSize < 0x200 ∨ exeFsOffset < 0x200 + ncch.exHeaderSize then none
  else
    (file.readFull exeFsOffset.toNat 0x200).bind fun hdr =>
      (codeHeader hdr).bind fun (offset, size) =>
        if maxSize < size then none
        else file.readFull (exeFsOffset + 0x200 + offset).toNat size.toNat

/-! ### The info of a program -/

/-- The file is read while it is open. -/
def withFile {α : Type} (file : IFile) (read : Option α) : LoaderM α := do
  take (.file file.handle)
  let a ← ofOption read
  give (.file file.handle)
  pure a

/-- The exheader of a file of one or of two kilobytes. -/
def IFile.exheader (w : World) (file : IFile) : Option ExHeaderInfo :=
  file.getSize.bind fun fileSize =>
    if fileSize ≠ 0x400 ∧ fileSize ≠ 0x800 then none
    else (file.readFull 0 0x400).map w.exHeaderInfo

/-- The exheader with what the SD card has for its title. -/
def loadTitleExheaderInfo (w : World) (exheaderInfo : ExHeaderInfo) : LoaderM ExHeaderInfo :=
  match w.titleExheader exheaderInfo.titleId with
  | none => pure exheaderInfo
  | some file => do
    let loaded ← withFile file (file.exheader w)
    pure { loaded with titleId := exheaderInfo.titleId }

def MemoryModeOverride.apply (o : MemoryModeOverride) (originalTitleId : TitleId)
    (exheaderInfo : ExHeaderInfo) : ExHeaderInfo :=
  if isApplicationId originalTitleId then
    { exheaderInfo with
      o3dsSystemMode := if o.enableO3ds then o.o3dsMode.setWidth 4 else exheaderInfo.o3dsSystemMode
      n3dsSystemMode := if o.enableN3ds then o.n3dsMode.setWidth 4 else exheaderInfo.n3dsSystemMode }
  else exheaderInfo

/-- `GetProgramInfoImpl` for a system module that is loaded from a CXI file, once it is open. -/
def readCxiInfo (w : World) : LoaderM (Except Result Unit) := do
  let s ← gets id
  match s.cachedSysmoduleCxiFile.bind fun file => readSysmoduleCxiNcchHeader file.toIFile with
  | none => pure (.error (-2))
  | some ncch => do
    modify fun s => { s with cachedSysmoduleCxiNcch := ncch }
    match s.cachedSysmoduleCxiFile.bind fun file =>
        readSysmoduleCxiExHeaderInfo w ncch file.toIFile with
    | none => pure (.error (-2))
    | some exheaderInfo => do
      modify fun s => { s with exheaderInfo := exheaderInfo }
      pure (.ok ())

/-- Its rest, after the file has been opened or not. -/
def readOpenedCxiInfo (w : World) (programHandle : ProgramHandle) :
    Except Result Unit → LoaderM (Except Result Unit)
  | .error res => pure (.error res)
  | .ok () => do
    modify fun s => { s with cachedSysmoduleCxiCookie := programHandle }
    readCxiInfo w

def getCxiInfo (w : World) (programHandle : ProgramHandle) : LoaderM (Except Result Unit) := do
  let s ← gets id
  if s.cachedSysmoduleCxiCookie ≠ programHandle then do
    invalidateCachedCxiFile
    let opened ← openSysmoduleCxi w (0x0004013000000000 ||| lowWord programHandle)
    readOpenedCxiInfo w programHandle opened
  else readCxiInfo w

/-- The info of a 3DSX placeholder, or with the exheader of the SD card. -/
def tweakInfo (w : World) (exheaderInfo : ExHeaderInfo) : LoaderM ExHeaderInfo :=
  if w.hbldrIs3dsxTitle exheaderInfo.titleId then ofOption (w.hbldrPatchExHeaderInfo exheaderInfo)
  else if loadsExternally w exheaderInfo.titleId then loadTitleExheaderInfo w exheaderInfo
  else pure exheaderInfo

/-- The rest of `GetProgramInfoImpl`, on the answer of the service. -/
def getServiceInfo (w : World) : Except Result ExHeaderInfo → LoaderM (Except Result Unit)
  | .error res => pure (.error res)
  | .ok exheaderInfo => do
    let tweaked ← tweakInfo w exheaderInfo
    modify fun s =>
      { s with exheaderInfo := s.memoryOverrideConfig.apply exheaderInfo.titleId tweaked }
    pure (.ok ())

def serviceInfo (w : World) (programHandle : ProgramHandle) : Except Result ExHeaderInfo :=
  if isHioId w programHandle then w.fsregGetProgramInfo programHandle
  else w.pxipmGetProgramInfo programHandle

def getProgramInfoImpl (w : World) (programHandle : ProgramHandle) :
    LoaderM (Except Result Unit) :=
  if isSysmoduleCxiCookie programHandle then getCxiInfo w programHandle
  else getServiceInfo w (serviceInfo w programHandle)

/-- What is kept of a program info that has been got, or not. -/
def State.keepInfo (programHandle : ProgramHandle) (res : Except Result Unit) (s : State) : State :=
  match res with
  | .error _ => { s with cachedProgramHandle := 0 }
  | .ok () =>
    { s with
      cachedProgramHandle := programHandle
      lastAppExheaderInfo :=
        if isAppLike s.exheaderInfo.titleId then s.exheaderInfo else s.lastAppExheaderInfo }

def getProgramInfo (w : World) (programHandle : ProgramHandle) : LoaderM (Except Result Unit) := do
  let s ← gets id
  if programHandle ≠ s.cachedProgramHandle ∨ w.hbldrIs3dsxTitle s.exheaderInfo.titleId then do
    let res ← getProgramInfoImpl w programHandle
    modify (State.keepInfo programHandle res)
    pure res
  else pure (.ok ())

/-! ### Code -/

/-- `CODE.bin` of a title. -/
def IFile.titleCode (maxSize : BitVec 32) (file : IFile) : Option Bytes :=
  file.getSize.bind fun fileSize =>
    if maxSize.toNat < fileSize then none else file.readFull 0 fileSize

/-- The code that has been read into memory that was clear, with the size that it has then. -/
def unpackCode (w : World) (exhi : ExHeaderInfo) (size : ℕ) (data : Bytes) : Bytes × BitVec 32 :=
  let code := data ++ List.replicate (size - data.length) 0
  if exhi.codesetInfo.compressExefsCode then
    (w.lzssDecompress code, BitVec.ofNat 32 size + wordAt code (size - 4))
  else (code, BitVec.ofNat 32 size)

def loadProgramCode (w : World) (exhi : ExHeaderInfo) (programHandle : ProgramHandle)
    (maxSize : ℕ) : LoaderM (Except Result (Bytes × BitVec 32)) := do
  let file ← assertSuccess (w.programCode programHandle)
  take (.file file.handle)
  let size ← ofOption file.getSize
  if maxSize < size then do
    give (.file file.handle)
    pure (.error (Kernel.s32 0xC900464F))
  else do
    let data ← ofOption (file.read 0 size)
    give (.file file.handle)
    pure (.ok (unpackCode w exhi size data))

/-- `loadCode` up to the patches: the code from the SD card, or else that of the program. -/
def loadUnpatched (w : World) (exhi : ExHeaderInfo) (programHandle : ProgramHandle)
    (total : BitVec 32) : LoaderM (Except Result (Bytes × BitVec 32)) :=
  match if loadsExternally w exhi.titleId then w.titleCode exhi.titleId else none with
  | some file => do
    let code ← withFile file (file.titleCode (total <<< 12))
    pure (.ok (code, BitVec.ofNat 32 code.length))
  | none => loadProgramCode w exhi programHandle (total.toNat * 2 ^ 12)

/-- `loadCode`, for a program of `total` pages; the result is the code in its memory. -/
def loadCode (w : World) (exhi : ExHeaderInfo) (programHandle : ProgramHandle)
    (total : BitVec 32) : LoaderM (Except Result Bytes) :=
  if isSysmoduleCxiCookie programHandle then do
    let s ← gets id
    match s.cachedSysmoduleCxiFile.bind fun file =>
        readSysmoduleCxiCode (total <<< 12) s.cachedSysmoduleCxiNcch file.toIFile with
    | none => pure (.error (-2))
    | some code => do
      invalidateCachedCxiFile
      pure (.ok (if exhi.codesetInfo.compressExefsCode then w.lzssDecompress code else code))
  else do
    match ← loadUnpatched w exhi programHandle total with
    | .error res => pure (.error res)
    | .ok (code, codeSize) => do
      let s ← gets id
      let code ← ofOption (w.patchCode exhi code codeSize s.nextGamePatchDisabled)
      modify fun s => { s with nextGamePatchDisabled := false }
      pure (.ok code)

/-! ### Processes -/

/-- A process that is created: its handle, and what it is made of. -/
structure Process where
  handle : ℕ
  exhi : ExHeaderInfo
  code : Bytes

def plgldrInit (w : World) : LoaderM Unit := do
  let s ← gets id
  modify fun s => { s with plgldrRefcount := s.plgldrRefcount + 1 }
  if s.plgldrRefcount ≠ 0 then pure ()
  else do
    let handle ← assertSuccess w.connectToPluginLoader
    take (.session handle)
    modify fun s => { s with plgldrHandle := handle }

def plgldrExit : LoaderM Unit := do
  modify fun s => { s with plgldrRefcount := s.plgldrRefcount - 1 }
  let s ← gets id
  if s.plgldrRefcount ≠ 0 then pure () else give (.session s.plgldrHandle)

/-- `PLGLDR_LoadPlugin`: whether it succeeds. -/
def loadPluginSucceeds (w : World) (exhi : ExHeaderInfo) (processId : BitVec 32)
    (isHomebrew : Bool) : Bool :=
  (!w.isN3ds && 0 < exhi.o3dsSystemMode && !w.isPluginLoaderEnabled) ||
    w.plgldrLoadPlugin processId isHomebrew

/-- The check for a plugin. -/
def loadPlugin (w : World) (process : ℕ) (isHomebrew : Bool) : LoaderM Unit := do
  let processId ← ofOption (w.svcGetProcessId process)
  plgldrInit w
  let s ← gets id
  if loadPluginSucceeds w s.exheaderInfo processId isHomebrew then plgldrExit else fail

/-- The memory region of the descriptors, of which the last one counts. -/
def regionOf (exhi : ExHeaderInfo) : BitVec 32 :=
  (exhi.descriptors.take 28).foldl
    (fun (region desc : BitVec 32) => if desc >>> 23 = 0x1FE then desc &&& 0xF00 else region) 0

def invalidArg : Result := Kernel.s32 0xD8E00402

def pages (size : BitVec 32) : BitVec 32 := (size + 4095) >>> 12

def textAddr : BitVec 32 := 0x10000000

/-- `vaddr.total_size` -/
def totalPages (csi : CodeSetInfo) : BitVec 32 :=
  pages csi.text.size + pages csi.rodata.size + pages csi.data.size

/-- The two instructions by which homebrew is told from other code. -/
def isHomebrewCode (code : Bytes) : Bool :=
  wordAt code 0 = 0xEA000006 && wordAt code 32 = 0xE1A0400E

/-- A process from a code set that is then closed. -/
def createFromCodeSet (w : World) (exhi : ExHeaderInfo) (code : Bytes) (codeset : ℕ) :
    LoaderM (Except Result Process) := do
  take (.codeSet codeset)
  give (.codeSet codeset)
  pure ((w.svcCreateProcess exhi code).map fun handle => ⟨handle, exhi, code⟩)

/-- The rest of `LoadProcessImpl`, on the code that has been loaded. -/
def createProcess (w : World) (exhi : ExHeaderInfo) :
    Except Result Bytes → LoaderM (Except Result Process)
  | .error res => pure (.error res)
  | .ok code =>
    match w.svcCreateCodeSet exhi code with
    | .error res => pure (.error res)
    | .ok codeset => do
      match ← createFromCodeSet w exhi code codeset with
      | .error res => pure (.error res)
      | .ok process =>
        if isAppLike exhi.titleId then do
          loadPlugin w process.handle (isHomebrewCode code)
          pure (.ok process)
        else pure (.ok process)

def loadProcessImpl (w : World) (exhi : ExHeaderInfo) (programHandle : ProgramHandle) :
    LoaderM (Except Result Process) :=
  let total := totalPages exhi.codesetInfo
  if regionOf exhi = 0 then pure (.error invalidArg)
  else
    match w.allocateProgramMemory exhi textAddr (total <<< 12) with
    | .error res => pure (.error res)
    | .ok () => do
      take (.memory textAddr (total <<< 12))
      let code ← loadCode w exhi programHandle total
      let res ← createProcess w exhi code
      give (.memory textAddr (total <<< 12))
      pure res

/-- The process of a 3DSX, whose file is closed before. -/
def create3dsxProcess (w : World) (exhi : ExHeaderInfo) (file : IFile) :
    LoaderM (Except Result Process) := do
  give (.file file.handle)
  match w.ldrCodesetFrom3dsx exhi file with
  | none => pure (.error (Kernel.s32 0xD96077FA))
  | some (codeset, code) => createFromCodeSet w exhi code codeset

def hbldrLoadProcess (w : World) (exhi : ExHeaderInfo) : LoaderM (Except Result Process) :=
  if regionOf exhi = 0 then pure (.error invalidArg)
  else
    match w.hbldrTarget with
    | .error res => pure (.error res)
    | .ok file => do
      take (.file file.handle)
      match w.ldrGet3dsxSize file with
      | none => do
        give (.file file.handle)
        pure (.error (-1))
      | some totalSize =>
        match w.allocateProgramMemory exhi textAddr totalSize with
        | .error res => do
          give (.file file.handle)
          pure (.error res)
        | .ok () => do
          take (.memory textAddr totalSize)
          let res ← create3dsxProcess w exhi file
          give (.memory textAddr totalSize)
          pure res

def loadWithInfo (w : World) (exhi : ExHeaderInfo) (programHandle : ProgramHandle) :
    LoaderM (Except Result Process) :=
  if w.hbldrIs3dsxTitle exhi.titleId then hbldrLoadProcess w exhi
  else loadProcessImpl w exhi programHandle

/-- `LoadProcess`, which panics where the program info has been got and the rest fails. -/
def loadProcess (w : World) (programHandle : ProgramHandle) : LoaderM (Except Result Process) := do
  match ← getProgramInfo w programHandle with
  | .error res => pure (.error res)
  | .ok () => do
    let s ← gets id
    let loaded ← loadWithInfo w s.exheaderInfo programHandle
    let process ← assertSuccess loaded
    pure (.ok process)

/-! ### Registration -/

/-- The CXI file of a system module, where `/luma/sysmodules` has one. -/
def registerCxi (w : World) (titleId : TitleId) : LoaderM (Option ProgramHandle) :=
  if isSysmoduleId titleId && w.loadExtFirmsAndModules then do
    invalidateCachedCxiFile
    match ← openSysmoduleCxi w (withoutN3dsBits titleId) with
    | .error _ => pure none
    | .ok () => do
      let cookie := sysmoduleCxiCookieMask ||| lowWord (withoutN3dsBits titleId)
      modify fun s => { s with cachedSysmoduleCxiCookie := cookie }
      pure (some cookie)
  else pure none

def registerProgram (w : World) (title update : FsProgramInfo) :
    LoaderM (Except Result ProgramHandle) :=
  if isHioId w title.programId then
    if title.mediaType ≠ update.mediaType ∨ title.programId ≠ update.programId then fail
    else
      match w.fsregLoadProgram title with
      | .error res => pure (.error res)
      | .ok programHandle => if isHioId w programHandle then pure (.ok programHandle) else fail
  else do
    match ← registerCxi w title.programId with
    | some cookie => pure (.ok cookie)
    | none =>
      match w.pxipmRegisterProgram title update with
      | .error res => pure (.error res)
      | .ok programHandle => if isHioId w programHandle then fail else pure (.ok programHandle)

def closeUnregistered (programHandle : ProgramHandle) : LoaderM Unit := do
  let s ← gets id
  if programHandle = s.cachedSysmoduleCxiCookie then invalidateCachedCxiFile else pure ()

def unregisterProgram (w : World) (programHandle : ProgramHandle) : LoaderM Result := do
  modify fun s =>
    if s.cachedProgramHandle = programHandle then { s with cachedProgramHandle := 0 } else s
  if isSysmoduleCxiCookie programHandle then do
    closeUnregistered programHandle
    pure 0
  else
    pure (if isHioId w programHandle then w.fsregUnloadProgram programHandle
      else w.pxipmUnregisterProgram programHandle)

/-! ### Commands -/

inductive Command where
  | loadProcess (programHandle : ProgramHandle)
  | registerProgram (title update : FsProgramInfo)
  | unregisterProgram (programHandle : ProgramHandle)
  | getProgramInfo (programHandle : ProgramHandle)
  | disableNextGamePatch
  | controlApplicationMemoryModeOverride (config : MemoryModeOverride)
  | getLastApplicationProgramInfo
  | unknown

inductive Reply where
  | process (res : Except Result Process)
  | registered (res : Except Result ProgramHandle)
  | result (res : Result)
  /-- The result, and the info that the reply points at where it is a success. -/
  | programInfo (res : Except Result ExHeaderInfo)
  | memoryMode (config : MemoryModeOverride)

/-- What is out for the file that is kept open. -/
def State.held (s : State) : Multiset Resource :=
  match s.cachedSysmoduleCxiFile with
  | none => 0
  | some file => {.file file.handle}

/-- The title whose CXI file a cookie stands for. -/
def cxiTitle (cookie : ProgramHandle) : TitleId :=
  withoutN3dsBits (0x0004013000000000 ||| lowWord cookie)

/-- The file is open for the title of the cookie that is kept with it, and without a cookie there
is none. -/
def State.Coherent (s : State) : Prop :=
  match s.cachedSysmoduleCxiFile with
  | none => s.cachedSysmoduleCxiCookie = 0
  | some file => isSysmoduleCxiCookie s.cachedSysmoduleCxiCookie = true ∧
      file.title = cxiTitle s.cachedSysmoduleCxiCookie

/-- Besides the kept file, `m` is out, and nothing of the plugin loader is. -/
structure Sound (m : Multiset Resource) (s : State) : Prop where
  out : s.out = s.held + m
  coherent : s.Coherent
  refcount : s.plgldrRefcount = 0

/-- Nothing is given back that is not out, and where it succeeds the condition holds. -/
abbrev Faultless {α : Type} (x : LoaderM α) (Q : α → State → Prop) (s : State) : Prop :=
  wp (fun _ => False) x Q s

/-- It keeps what is out, whatever else is. -/
def Keeps {α : Type} (x : LoaderM α) : Prop := ∀ m s, Sound m s → Faultless x (fun _ => Sound m) s

section

variable {α β : Type} {x : LoaderM α} {f : α → LoaderM β} {m n : Multiset Resource} {r : Resource}
  {s : State} {w : World}

theorem sound_bind {Q : β → State → Prop} (hx : Faultless x (fun _ => Sound n) s)
    (hf : ∀ a t, Sound n t → Faultless (f a) Q t) : Faultless (x >>= f) Q s :=
  wp_bind.mpr (wp_mono (fun a t ht => hf a t ht) hx)

theorem keeps_bind (hx : Keeps x) (hf : ∀ a, Keeps (f a)) : Keeps (x >>= f) :=
  fun m s h => sound_bind (hx m s h) fun a t ht => hf a m t ht

theorem keeps_pure (a : α) : Keeps (pure a) := fun _ _ h => wp_pure.mpr h

theorem keeps_fail : Keeps (fail : LoaderM α) := fun _ _ _ => wp_fail

theorem keeps_gets (g : State → α) : Keeps (gets g) := fun _ _ h => wp_gets.mpr h

theorem keeps_ofOption (o : Option α) : Keeps (ofOption o) :=
  fun _ _ h => wp_ofOption.mpr fun _ _ => h

theorem keeps_ite {p : Prop} [Decidable p] {y : LoaderM α} (hx : Keeps x) (hy : Keeps y) :
    Keeps (if p then x else y) := by
  split_ifs
  · exact hx
  · exact hy

end

end Presence3DS.Loader.Programs
