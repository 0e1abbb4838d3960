import Presence3DS.Lib.NotedRuns
import Presence3DS.Lib.RawMemory

/-! Homebrew in the 3DSX format (`3dsx.c`): the size of the memory it needs, and the loading of the
segments and their relocations into that memory. Every write is noted. The file system gives what
the file holds. -/

namespace Presence3DS.Loader.ThreeDsx

open NotedRuns NotedM RawMemory

/-! ## The file -/

def u32 (n : ℕ) : ℕ := n % 0x100000000

/-- `(n + 0xFFF) &~ 0xFFF` -/
def pageUp (n : ℕ) : ℕ := u32 (n + 0xFFF) / 0x1000 * 0x1000

/-- `_3DSX_Header` -/
structure Header where
  magic : ℕ
  headerSize : ℕ
  relocHdrSize : ℕ
  codeSegSize : ℕ
  rodataSegSize : ℕ
  dataSegSize : ℕ
  bssSize : ℕ

def headerBytes : ℕ := 32

def header (file : List UInt8) : Header :=
  let field (off n : ℕ) := leValue ((file.drop off).take n)
  ⟨field 0 4, field 4 2, field 6 2, field 16 4, field 20 4, field 24 4, field 28 4⟩

/-- `_3DSX_MAGIC` -/
def magic3dsx : ℕ := 0x58534433

/-- `Ldr_Get3dsxSize` -/
def get3dsxSize (file : List UInt8) : Option ℕ :=
  let hdr := header file
  if (file.take headerBytes).length ≠ headerBytes then none
  else if hdr.magic ≠ magic3dsx then none
  else if ¬ hdr.codeSegSize ≤ pageUp hdr.codeSegSize then none
  else if ¬ hdr.rodataSegSize ≤ pageUp hdr.rodataSegSize then none
  else if ¬ hdr.dataSegSize ≤ pageUp hdr.dataSegSize then none
  else some (u32 (pageUp hdr.codeSegSize + pageUp hdr.rodataSegSize + pageUp hdr.dataSegSize +
    0x1000))

/-! ## What the loader is given, and what it writes -/

/-- Its arguments, the addresses of its static buffers, and what the kernel says. -/
structure Job where
  name : List UInt8
  codePages : ℕ
  baseAddr : ℕ
  file : List UInt8
  tid : ℕ
  relocBuf : ℕ
  argvBuf : ℕ
  isN3DS : Bool

inductive Target where
  | pages
  | relocs
  deriving DecidableEq

/-- `len` bytes from an address on, reached by a pointer into the pages or into `s_relocBuf`. -/
structure Store where
  target : Target
  addr : ℕ
  len : ℕ
  deriving DecidableEq

structure State where
  mem : Memory
  readOffset : ℕ

abbrev LoaderM := NotedM State Store

def store (target : Target) (addr : ℕ) (bytes : List UInt8) : LoaderM Unit := do
  note ⟨target, addr, bytes.length⟩
  modify fun s => { s with mem := write s.mem addr bytes }

def load (n addr : ℕ) : LoaderM ℕ := gets fun s => leValue (read s.mem addr n)

def store32 (addr v : ℕ) : LoaderM Unit := store .pages addr (leBytes 4 v)

def held (file : List UInt8) (size readOffset : ℕ) : List UInt8 := (file.drop readOffset).take size

/-- `IFile_Read2` at `readOffset`, which moves on; a short read ends the loading. -/
def readNext (file : List UInt8) (target : Target) (buf size : ℕ) : LoaderM Unit := do
  let data ← gets fun s => held file size s.readOffset
  store target buf data
  if data.length ≠ size then fail
  else modify fun s => { s with readOffset := u32 (s.readOffset + size) }

/-! ## The layout -/

structure Segment where
  ptr : ℕ
  addr : ℕ
  size : ℕ

/-- `_3DSX_LoadInfo` -/
structure LoadInfo where
  code : Segment
  rodata : Segment
  data : Segment

def loadInfo (job : Job) : LoadInfo :=
  let hdr := header job.file
  let code := ⟨job.codePages, job.baseAddr, pageUp hdr.codeSegSize⟩
  let rodata := ⟨u32 (code.ptr + code.size), u32 (code.addr + code.size), pageUp hdr.rodataSegSize⟩
  ⟨code, rodata, ⟨u32 (rodata.ptr + rodata.size), u32 (rodata.addr + rodata.size),
    pageUp hdr.dataSegSize⟩⟩

/-- Also `segLimit` -/
def LoadInfo.extraPage (d : LoadInfo) : ℕ := u32 (d.data.ptr + d.data.size)

def LoadInfo.extraPageAddr (d : LoadInfo) : ℕ := u32 (d.data.addr + d.data.size)

def nRelocTables (hdr : Header) : ℕ := hdr.relocHdrSize / 4

def dataLoadSegSize (hdr : Header) : ℕ := u32 (hdr.dataSegSize + 0x100000000 - hdr.bssSize)

/-- `TranslateAddr` -/
def translateAddr (off : ℕ) (d : LoadInfo) : ℕ :=
  let offset₁ := u32 (d.code.size + d.rodata.size)
  if off < d.code.size then u32 (d.code.addr + off)
  else if off < offset₁ then u32 (d.rodata.addr + off - d.code.size)
  else u32 (d.data.addr + off - offset₁)

/-- What is read, in order: a buffer and a size for each of the relocation headers and segments. -/
def parts (job : Job) : List (ℕ × ℕ) :=
  let hdr := header job.file
  let d := loadInfo job
  let table (i : ℕ) := (u32 (d.extraPage + 4 * (i * nRelocTables hdr)), hdr.relocHdrSize)
  [table 0, table 1, table 2, (d.code.ptr, hdr.codeSegSize), (d.rodata.ptr, hdr.rodataSegSize),
    (d.data.ptr, dataLoadSegSize hdr)]

def readPart (job : Job) (part : ℕ × ℕ) : LoaderM Unit := readNext job.file .pages part.1 part.2

/-! ## The relocations -/

/-- `MAXRELOCS` -/
def maxRelocs : ℕ := 512

/-- The word that replaces `origData`, unless its kind is not supported; `kind` is 0 for an absolute
relocation and 1 for a relative one. -/
def relocated (d : LoadInfo) (kind inAddr origData : ℕ) : Option ℕ :=
  let subType := origData / 0x10000000
  let addr := translateAddr (origData % 0x10000000) d
  if kind = 0 then if subType ≠ 0 then none else some addr
  else
    let data := u32 (addr + 0x100000000 - inAddr)
    if subType = 0 then some data else if subType = 1 then some (data % 0x80000000) else none

/-- The inner loop, with `nPatches - m` patches to go. -/
def patchWords (job : Job) (kind endPos : ℕ) : ℕ → ℕ → LoaderM ℕ
  | 0, pos => pure pos
  | left + 1, pos =>
    if pos < endPos then do
      let inAddr := u32 (job.baseAddr + (pos + 0x100000000 - job.codePages))
      let origData ← load 4 pos
      let data ← ofOption (relocated (loadInfo job) kind inAddr origData)
      store32 pos data
      patchWords job kind endPos left (u32 (pos + 4))
    else pure pos

/-- The loop over the entries of `s_relocBuf`, the next of which is the one numbered `k`. -/
def applyRelocs (job : Job) (kind endPos : ℕ) : ℕ → ℕ → ℕ → LoaderM ℕ
  | 0, _, pos => pure pos
  | left + 1, k, pos =>
    if pos < endPos then do
      let skip ← load 2 (u32 (job.relocBuf + 4 * k))
      let nPatches ← load 2 (u32 (job.relocBuf + 4 * k + 2))
      let pos ← patchWords job kind endPos nPatches (u32 (pos + 4 * skip))
      applyRelocs job kind endPos left (k + 1) pos
    else pure pos

/-- `nRelocs` is an `int`: a negative one is less than `MAXRELOCS`. -/
def toDo (nRelocs : ℕ) : ℕ :=
  if nRelocs < 0x80000000 ∧ maxRelocs < nRelocs then maxRelocs else nRelocs

theorem toDo_pos {nRelocs : ℕ} (h : nRelocs ≠ 0) : 0 < toDo nRelocs := by
  unfold toDo
  split_ifs
  · exact Nat.zero_lt_succ 511
  · exact Nat.pos_of_ne_zero h

theorem toDo_le (nRelocs : ℕ) : toDo nRelocs ≤ nRelocs := by
  unfold toDo
  split_ifs with h
  · exact h.2.le
  · exact le_rfl

/-- `while (nRelocs)` -/
def relocate (job : Job) (kind endPos nRelocs pos : ℕ) : LoaderM Unit :=
  if _h : nRelocs = 0 then pure ()
  else do
    let n := toDo nRelocs
    readNext job.file .relocs job.relocBuf (u32 (4 * n))
    let pos ← applyRelocs job kind endPos n 0 pos
    relocate job kind endPos (nRelocs - toDo nRelocs) pos
termination_by nRelocs
decreasing_by exact Nat.sub_lt (Nat.pos_of_ne_zero _h) (toDo_pos _h)

/-- A relocation table: the segments are numbered by `i`, the counts in a header by `j`. -/
structure Table where
  i : ℕ
  segment : Segment
  j : ℕ

def tables (job : Job) : List Table :=
  let d := loadInfo job
  [(0, d.code), (1, d.rodata), (2, d.data)].flatMap fun (i, segment) =>
    (List.range (nRelocTables (header job.file))).map fun j => ⟨i, segment, j⟩

def countAddr (job : Job) (t : Table) : ℕ :=
  u32 ((loadInfo job).extraPage + 4 * (t.i * nRelocTables (header job.file) + t.j))

def endPos (t : Table) : ℕ := u32 (t.segment.ptr + t.segment.size)

def relocTable (job : Job) (t : Table) : LoaderM Unit := do
  let nRelocs ← load 4 (countAddr job t)
  if 2 ≤ t.j then modify fun s => { s with readOffset := u32 (s.readOffset + nRelocs) }
  else if ¬ endPos t ≤ (loadInfo job).extraPage then fail
  else relocate job t.j (endPos t) nRelocs t.segment.ptr

/-! ## The whole -/

/-- `_PRM_MAGIC` -/
def prmMagic : ℕ := 0x6D72705F

/-- `ARGVBUF_SIZE` -/
def argvBufSize : ℕ := 0x400

def runFlagAptChainload : ℕ := 4

/-- The `_prm` structure stands behind the first word of the code. -/
def prmAddr (job : Job) (field : ℕ) : ℕ := u32 (job.codePages + 4 + field)

def fillPrm (job : Job) : LoaderM Unit := do
  let d := loadInfo job
  let magic ← load 4 (prmAddr job 0)
  if magic = prmMagic then do
    store .pages d.extraPage (List.replicate 0x1000 0)
    let argv ← gets fun s => read s.mem job.argvBuf argvBufSize
    store .pages d.extraPage argv
    store32 (prmAddr job 4) (d.extraPageAddr + 0xFFC)
    store32 (prmAddr job 20) d.extraPageAddr
    let runFlags ← load 4 (prmAddr job 24)
    store32 (prmAddr job 24) (runFlags ||| runFlagAptChainload)
    store32 (prmAddr job 12) (if job.isN3DS then 48 * 1024 * 1024 else 24 * 1024 * 1024)
    store32 (prmAddr job 16) (if job.isN3DS then 64 * 1024 * 1024 else 32 * 1024 * 1024)
  else pure ()

/-- A section of a `CodeSetHeader`, with its size in pages, and where it is taken from. -/
structure Section where
  addr : ℕ
  pages : ℕ
  ptr : ℕ

structure CodeSet where
  name : List UInt8
  programId : ℕ
  text : Section
  ro : Section
  rw : Section

def codeSet (job : Job) : CodeSet :=
  let d := loadInfo job
  ⟨job.name.take 8, job.tid, ⟨d.code.addr, d.code.size / 0x1000, d.code.ptr⟩,
    ⟨d.rodata.addr, d.rodata.size / 0x1000, d.rodata.ptr⟩,
    ⟨d.data.addr, d.data.size / 0x1000 + 1, d.data.ptr⟩⟩

/-- `Ldr_CodesetFrom3dsx`, up to the call of `svcCreateCodeSet` with what it returns. -/
def codesetFrom3dsx (job : Job) : LoaderM CodeSet := do
  if ¬ 3 * 4 * nRelocTables (header job.file) ≤ 0x1000 then fail
  else do
    each (readPart job) (parts job)
    each (relocTable job) (tables job)
    fillPrm job
    pure (codeSet job)

def start (job : Job) (mem : Memory) : State := ⟨mem, (header job.file).headerSize⟩

/-- What is written for a file, also where it is rejected later on. -/
def stores (job : Job) (mem : Memory) : List Store := (codesetFrom3dsx job (start job mem)).2.2

def Accepted (job : Job) (mem : Memory) : Prop :=
  (codesetFrom3dsx job (start job mem)).1.isSome = true

/-- `sizeof(s_relocBuf)` -/
def relocBufBytes : ℕ := 4 * maxRelocs

/-- The store lies in the memory of the computed size, or in the buffer for relocations. -/
def Store.Within (job : Job) (size : ℕ) (w : Store) : Prop :=
  match w.target with
  | .pages => w.len = 0 ∨ job.codePages ≤ w.addr ∧ w.addr + w.len ≤ job.codePages + size
  | .relocs => w.len = 0 ∨ job.relocBuf ≤ w.addr ∧ w.addr + w.len ≤ job.relocBuf + relocBufBytes

end Presence3DS.Loader.ThreeDsx
