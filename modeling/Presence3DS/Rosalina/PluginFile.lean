import Presence3DS.Lib.NotedRuns
import Presence3DS.Lib.RawMemory

/-! The loading of a plugin file (`file_loader.c`, `3gx.c`, `memoryblock.c`) into the plugin's
memory block. Every copy, read and clear of the memory is noted. -/

namespace Presence3DS.Rosalina.Plugin
open NotedRuns NotedM RawMemory

def u32 (n : ℕ) : ℕ := n % 0x100000000

/-! ## What the loader is given -/

/-- The calls that may fail: the file service's, with one for each read of the file, and the
kernel's. -/
inductive Call where
  | getSize
  | magic
  | header
  | author
  | title
  | targets
  | exeLoadFunc
  | swapSaveFunc
  | swapLoadFunc
  | segments
  | alloc
  | mount
  | mapGame
deriving DecidableEq

/-- `sizeof(_3gx_Header)` -/
def headerSize : ℕ := 148

/-- `sizeof(PluginHeader)` -/
def pluginHeaderSize : ℕ := 0x100

/-- The file, the process, the state of the plugin loader, and the answers to the calls. -/
structure Job where
  content : List UInt8
  fails : Call → Bool
  /-- What the loader's stack holds where the file is too short. -/
  stack : List UInt8
  length_stack : stack.length = headerSize
  /-- The low word of the title id. -/
  title : ℕ
  isHomebrew : Bool
  /-- There is a memory block already. -/
  isReady : Bool
  isExeLoadFunctionset : Bool
  isDefaultPlugin : ℕ
  config : List ℕ
  plgldrEvent : ℕ
  plgldrReply : ℕ
  mem : Memory
  /-- The address of the block that the kernel allocates, which is in the linear memory. -/
  memblock : ℕ
  memblock_lt : memblock < 0x40000000
  /-- The plugin's own function: the memory it leaves, and the checksum. -/
  loadExeFunc : Memory → ℕ → ℕ → Memory × ℕ

/-- `len` bytes from an address on. -/
structure Access where
  addr : ℕ
  len : ℕ
deriving DecidableEq

abbrev LoadM := NotedM Memory Access

def load (addr : ℕ) : LoadM ℕ := gets fun m => leValue (read m addr 4)

def store (addr v : ℕ) : LoadM Unit := modify fun m => write m addr (leBytes 4 v)

def memcpy (dst : ℕ) (bytes : List UInt8) : LoadM Unit := do
  note ⟨dst, bytes.length⟩
  modify fun m => write m dst bytes

/-- `memset` with 0. -/
def clear (dst len : ℕ) : LoadM Unit := do
  note ⟨dst, len⟩
  modify fun m x => if dst ≤ x ∧ x < dst + len then 0 else m x

def failIf (b : Bool) : LoadM Unit := if b then fail else pure ()

/-! ## The file -/

/-- What a read at `pos` gives. -/
def held (job : Job) (pos len : ℕ) : List UInt8 := (job.content.drop pos).take len

/-- A buffer into which something has been read that may be shorter. -/
def overlay (bytes buffer : List UInt8) : List UInt8 := bytes ++ buffer.drop bytes.length

def field (bytes : List UInt8) (off : ℕ) : ℕ := leValue ((bytes.drop off).take 4)

/-- `IFile_Read` into the memory at `dst`. -/
def ifileRead (job : Job) (call : Call) (pos dst len : ℕ) : LoadM Unit :=
  if len = 0 then pure ()
  else do
    note ⟨dst, len⟩
    failIf (job.fails call)
    modify fun m => write m dst (held job pos len)

/-- `_3GX_MAGIC`, "3GX$" and the version "0002". -/
def check3gxMagic (job : Job) : LoadM Unit := do
  failIf (job.fails .magic)
  let magic := overlay (held job 0 8) job.stack
  failIf (field magic 0 ≠ 0x24584733)
  failIf (field magic 4 ≠ 0x32303030)

/-- The bytes that `Read_3gx_Header` leaves in the header on the stack. -/
def fileHeader (job : Job) : List UInt8 := overlay (held job 0 headerSize) job.stack

def read3gxHeader (job : Job) : LoadM (List UInt8) := do
  failIf (job.fails .header)
  pure (fileHeader job)

/-- The tables behind the header, to which its pointers are relocated. -/
def read3gxParseHeader (job : Job) (header : ℕ) : LoadM Unit := do
  let authorMsg ← load (u32 (header + 20))
  let authorLen ← load (u32 (header + 16))
  let dst := u32 (header + headerSize)
  ifileRead job .author authorMsg dst authorLen
  store (u32 (header + 20)) dst
  let titleMsg ← load (u32 (header + 28))
  let authorLen ← load (u32 (header + 16))
  let dst := u32 (dst + authorLen)
  let titleLen ← load (u32 (header + 24))
  ifileRead job .title titleMsg dst titleLen
  store (u32 (header + 28)) dst
  store (u32 (header + 32)) 0
  store (u32 (header + 36)) 0
  store (u32 (header + 40)) 0
  store (u32 (header + 44)) 0
  let titles ← load (u32 (header + 132))
  let titleLen ← load (u32 (header + 24))
  let dst := u32 (dst + titleLen)
  let dst := u32 (dst + (4 - dst % 4))
  let count ← load (u32 (header + 128))
  ifileRead job .targets titles dst (u32 (count * 4))
  store (u32 (header + 132)) dst

/-! ## The payloads -/

/-- The 32 words of a function have a `NOP` at their end. -/
def nopTerminated (words : List UInt8) : Bool :=
  (List.range 32).any fun i => field words (4 * i) = 0xE320F000

/-- Whether there is a function to load the code with. The payloads are read into one buffer. -/
def read3gxEmbeddedPayloads (job : Job) (header : ℕ) : LoadM Bool := do
  let flags ← load (u32 (header + 48))
  let exeLoadFuncOffset ← load (u32 (header + 116))
  let swapSaveFuncOffset ← load (u32 (header + 120))
  let swapLoadFuncOffset ← load (u32 (header + 124))
  let embeddedExeLoadFunc := flags.testBit 0
  let loadFunc := overlay (held job exeLoadFuncOffset 128) job.stack
  failIf (embeddedExeLoadFunc && (job.fails .exeLoadFunc || !nopTerminated loadFunc))
  let embeddedSwapSaveLoadFunc := flags.testBit 1
  let saveFunc := overlay (held job swapSaveFuncOffset 128)
    (if embeddedExeLoadFunc then loadFunc else job.stack)
  failIf (embeddedSwapSaveLoadFunc && (job.fails .swapSaveFunc || !nopTerminated saveFunc))
  let loadFunc := overlay (held job swapLoadFuncOffset 128) saveFunc
  failIf (embeddedSwapSaveLoadFunc && (job.fails .swapLoadFunc || !nopTerminated loadFunc))
  pure (embeddedExeLoadFunc || job.isExeLoadFunctionset)

/-! ## The loading -/

def memRegionSizes : List ℕ :=
  [5 * 1024 * 1024, 2 * 1024 * 1024, 10 * 1024 * 1024, 5 * 1024 * 1024]

/-- The size that `memoryRegionSize` stands for. -/
def regionSize (job : Job) : ℕ := memRegionSizes.getD (field (fileHeader job) 48 / 4 % 4) 0

def checkPluginCompatibility (job : Job) (header : ℕ) : LoadM Unit := do
  let count ← load (u32 (header + 128))
  let titles ← load (u32 (header + 132))
  let compatible ← gets fun m =>
    (List.range count).any fun i => leValue (read m (u32 (titles + 4 * i)) 4) = job.title
  failIf (count ≠ 0 && !compatible)

def loadSegmentsSize (header : ℕ) : LoadM ℕ := do
  let codeSize ← load (u32 (header + 100))
  let rodataSize ← load (u32 (header + 104))
  let dataSize ← load (u32 (header + 108))
  pure (u32 (codeSize + rodataSize + dataSize))

/-- The size of what is read. -/
def read3gxLoadSegments (job : Job) (header dst : ℕ) (isExeLoadFunctionset : Bool)
    (exeLoadChecksum : ℕ) : LoadM ℕ := do
  let codeOffset ← load (u32 (header + 88))
  let size ← loadSegmentsSize header
  ifileRead job .segments codeOffset dst size
  failIf !isExeLoadFunctionset
  let checksum ← gets fun m => (job.loadExeFunc m dst (u32 (dst + size))).2
  modify fun m => (job.loadExeFunc m dst (u32 (dst + size))).1
  failIf (checksum ≠ exeLoadChecksum)
  pure size

/-- `& ~0xFFF` -/
def pageDown (n : ℕ) : ℕ := n / 0x1000 * 0x1000

def exeSizeOf (codeSize rodataSize dataSize bssSize : ℕ) : ℕ :=
  pageDown (u32 (pluginHeaderSize + codeSize + rodataSize + dataSize + bssSize + 0x1000))

/-- The `PluginHeader` of a loaded plugin. -/
def pluginHeader (job : Job) (version exeSize heapSize : ℕ) : List UInt8 :=
  leBytes 4 0x24584733 ++ leBytes 4 version ++ leBytes 4 0x06000000 ++ leBytes 4 heapSize ++
    leBytes 4 exeSize ++ leBytes 4 job.isDefaultPlugin ++ leBytes 4 job.plgldrEvent ++
      leBytes 4 job.plgldrReply ++ leBytes 8 0 ++ leBytes 8 10000000000 ++ List.replicate 80 0 ++
        (List.range 32).flatMap fun i => leBytes 4 (job.config.getD i 0)

/-- What a load that succeeds has placed and publishes. -/
structure Loaded where
  header : ℕ
  segments : Access
  exeSize : ℕ
  heapSize : ℕ

def tryToLoadPlugin (job : Job) : LoadM Loaded := do
  failIf (job.fails .getSize)
  check3gxMagic job
  let fileHeader ← read3gxHeader job
  let flags := field fileHeader 48
  failIf (flags / 16 % 4 = 1)
  failIf (job.isHomebrew && !flags.testBit 9)
  -- `MemoryBlock__SetSize` and `MemoryBlock__IsReady`
  failIf (job.isReady || job.fails .alloc)
  let size := regionSize job
  clear job.memblock size
  let header := u32 (job.memblock + size + 0x100000000 - u32 job.content.length)
  memcpy header fileHeader
  read3gxParseHeader job header
  let isExeLoadFunctionset ← read3gxEmbeddedPayloads job header
  let exeLoadChecksum ← load (u32 (header + 52))
  checkPluginCompatibility job header
  let dst := u32 (job.memblock + pluginHeaderSize)
  let loaded ← read3gxLoadSegments job header dst isExeLoadFunctionset exeLoadChecksum
  let version ← load (u32 (header + 8))
  let codeSize ← load (u32 (header + 100))
  let rodataSize ← load (u32 (header + 104))
  let dataSize ← load (u32 (header + 108))
  let bssSize ← load (u32 (header + 112))
  let exeSize := exeSizeOf codeSize rodataSize dataSize bssSize
  let heapSize := u32 (size + 0x100000000 - exeSize)
  memcpy job.memblock (pluginHeader job version exeSize heapSize)
  clear (u32 (job.memblock + exeSize)) heapSize
  failIf (job.fails .mount || job.fails .mapGame)
  pure ⟨header, ⟨dst, loaded⟩, exeSize, heapSize⟩

/-! ## What is to hold -/

def Access.Inside (base size : ℕ) (a : Access) : Prop :=
  base ≤ a.addr ∧ a.addr + a.len ≤ base + size

def headerField (job : Job) (off : ℕ) : ℕ := field (fileHeader job) off

def authorLen (job : Job) : ℕ := headerField job 16
def titleLen (job : Job) : ℕ := headerField job 24

/-- `targets.count * sizeof(u32)` -/
def targetsLen (job : Job) : ℕ := u32 (headerField job 128 * 4)

def segmentsLen (job : Job) : ℕ :=
  u32 (headerField job 100 + headerField job 104 + headerField job 108)

def exeSize (job : Job) : ℕ :=
  exeSizeOf (headerField job 100) (headerField job 104) (headerField job 108) (headerField job 112)

/-- Where the header is to be in the block. -/
def headerPlace (job : Job) : ℕ := regionSize job - u32 job.content.length

/-- Where the table of the targets is to be. It starts behind the next multiple of 4. -/
def targetsPlace (job : Job) : ℕ :=
  let stop := headerPlace job + headerSize + authorLen job + titleLen job
  stop + (4 - (job.memblock + stop) % 4)

/-- The header, its tables and the segments fit into the memory region that the file asks for. -/
structure Fits (job : Job) : Prop where
  header : headerSize ≤ u32 job.content.length ∧ u32 job.content.length ≤ regionSize job
  author : authorLen job = 0 ∨ headerPlace job + headerSize + authorLen job ≤ regionSize job
  title : titleLen job = 0 ∨
    headerPlace job + headerSize + authorLen job + titleLen job ≤ regionSize job
  targets : targetsLen job = 0 ∨ targetsPlace job + targetsLen job ≤ regionSize job
  segments : segmentsLen job = 0 ∨ pluginHeaderSize + segmentsLen job ≤ regionSize job ∧
    (pluginHeaderSize + segmentsLen job ≤ headerPlace job ∨
      headerPlace job + headerSize ≤ pluginHeaderSize)
  exe : exeSize job ≤ regionSize job

end Presence3DS.Rosalina.Plugin
