import Mathlib.Tactic.IntervalCases
import Presence3DS.Gdb.HexCodec
import Presence3DS.Gdb.IntegerLists

/-! The registers of the threads (`regs.c`), against files of the registers that the target
description names (`target.xml`). -/

namespace Presence3DS.Gdb.Registers
open Buffer CString Packets

/-! ## The description -/

/-- A register, with its size in bits and the number that it is given, if it is given one. -/
structure Reg where
  bitsize : ℕ
  regnum : Option ℕ

/-- `r0` to `pc`, `cpsr`, `d0` to `d15`, `fpscr` and `fpexc`. -/
def targetXml : List Reg :=
  List.replicate 16 ⟨32, none⟩ ++ ⟨32, some 25⟩ :: List.replicate 16 ⟨64, none⟩ ++
    List.replicate 2 ⟨32, none⟩

/-- The numbers and the sizes in bytes: a register that is given no number has the one after that
of the register before it. -/
def numbered : ℕ → List Reg → List (ℕ × ℕ)
  | _, [] => []
  | next, reg :: regs =>
    (reg.regnum.getD next, reg.bitsize / 8) :: numbered (reg.regnum.getD next + 1) regs

def described : List (ℕ × ℕ) := numbered 0 targetXml

def sizes : List ℕ := described.map (·.2)

/-- The place of a number in the description. -/
def indexOf (gdbNum : ℕ) : Option ℕ := described.findIdx? fun r => r.1 = gdbNum

def cpsrIndex : ℕ := 16

/-! ## Contexts -/

/-- The bytes of a `ThreadContext`. -/
abbrev ThreadContext := { bytes : Bytes // bytes.length = 204 }

/-- The parts that the kernel can be asked for. -/
inductive ControlFlags where
  | cpuGprs
  | cpuSprs
  | fpuGprs
  | fpuSprs
deriving DecidableEq

namespace ControlFlags

def place : ControlFlags → ℕ
  | cpuGprs => 0
  | cpuSprs => 52
  | fpuGprs => 68
  | fpuSprs => 196

def size : ControlFlags → ℕ
  | cpuGprs => 52
  | cpuSprs => 16
  | fpuGprs => 128
  | fpuSprs => 8

/-- `r[n]`, `&sp + (n - 13)`, `d[n]` and `fpscr + n`: the place and the size. -/
def register : ControlFlags → ℕ → ℕ × ℕ
  | cpuGprs, n => (4 * n, 4)
  | cpuSprs, n => (52 + 4 * (n - 13), 4)
  | fpuGprs, n => (68 + 8 * n, 8)
  | fpuSprs, n => (196 + 4 * n, 4)

end ControlFlags

/-- `THREADCONTEXT_CONTROL_ALL` -/
def controlAll : List ControlFlags := [.cpuGprs, .cpuSprs, .fpuGprs, .fpuSprs]

namespace ThreadContext

/-- The accesses of the code stay within the context. -/
def put (c : ThreadContext) (place : ℕ) (data : Bytes) : ThreadContext :=
  if h : place + data.length ≤ 204 then
    ⟨splice c.val place data, by rw [length_splice (by rw [c.property]; exact h), c.property]⟩
  else c

/-- A part of one context in the place of that of another. -/
def copyTo (c into : ThreadContext) (flags : ControlFlags) : ThreadContext :=
  into.put flags.place (slice c.val flags.place flags.size)

def cpsr (c : ThreadContext) : Bytes := slice c.val 64 4

end ThreadContext

/-- What the kernel makes of a CPSR that a debugger sets where there is another one; one that is
there may stay. -/
structure Kernel where
  allow : Bytes → Bytes → Bytes
  length_allow : ∀ old new, new.length = 4 → (allow old new).length = 4
  allow_self : ∀ cpsr, allow cpsr cpsr = cpsr

/-- The threads of the `GDBContext`, and the contexts of those that the kernel gives away. -/
structure Threads where
  selectedThreadId : BitVec 32
  currentThreadId : BitVec 32
  contexts : BitVec 32 → Option ThreadContext

def Threads.select (s : Threads) : Threads :=
  if s.selectedThreadId = 0 then { s with selectedThreadId := s.currentThreadId } else s

/-- `svcGetDebugThreadContext` writes no more of `regs` than it was asked for. -/
def svcGetDebugThreadContext (s : Threads) (flags : List ControlFlags) (regs : ThreadContext) :
    Option ThreadContext :=
  (s.contexts s.selectedThreadId).map fun c => flags.foldl c.copyTo regs

def svcSetDebugThreadContext (kernel : Kernel) (s : Threads) (flags : List ControlFlags)
    (regs : ThreadContext) : Option Threads :=
  (s.contexts s.selectedThreadId).map fun c =>
    let new := flags.foldl regs.copyTo c
    let new := if .cpuSprs ∈ flags then new.put 64 (kernel.allow c.cpsr new.cpsr) else new
    { s with contexts := Function.update s.contexts s.selectedThreadId (some new) }

/-! ## Handlers -/

inductive Errno where
  | eperm
  | einval
  | eilseq
deriving DecidableEq

/-- `GDB_ReplyErrno`, `GDB_ReplyOk`, and `GDB_SendHexPacket` with the digits that it sends. -/
inductive Reply where
  | errno (e : Errno)
  | ok
  | hex (text : Bytes)
deriving DecidableEq

section Handlers
variable (kernel : Kernel) (lowLast : Bool)

/-- `regs` begins with what is on the stack, here and below. -/
def readRegisters (stack : ThreadContext) (s : Threads) : Reply × Threads :=
  let s := s.select
  match svcGetDebugThreadContext s controlAll stack with
  | none => (.errno .eperm, s)
  | some regs => (.hex (gdbEncodeHex regs.val), s)

def writeRegisters (stack : ThreadContext) (s : Threads) (commandData : Bytes) :
    Reply × Threads :=
  let s := s.select
  let (count, bytes) := gdbDecodeHex lowLast 204 commandData
  if count ≠ 204 then (.errno .eperm, s)
  else
    match svcSetDebugThreadContext kernel s controlAll (stack.put 0 bytes) with
    | none => (.errno .eperm, s)
    | some s => (.ok, s)

def convertRegisterNumber (gdbNum : ℕ) : Option (ControlFlags × ℕ) :=
  if gdbNum ≤ 15 then some (if 13 ≤ gdbNum then .cpuSprs else .cpuGprs, gdbNum)
  else if gdbNum = 25 then some (.cpuSprs, 16)
  else if 26 ≤ gdbNum ∧ gdbNum ≤ 41 then some (.fpuGprs, gdbNum - 26)
  else if gdbNum = 42 ∨ gdbNum = 43 then some (.fpuSprs, gdbNum - 42)
  else none

def readRegister (stack : ThreadContext) (s : Threads) (commandData : Bytes) : Reply × Threads :=
  let s := s.select
  match gdbParseHexIntegerList 32 1 0 commandData with
  | some ([gdbRegNum], _) =>
    match convertRegisterNumber gdbRegNum with
    | none => (.errno .einval, s)
    | some (flags, n) =>
      match svcGetDebugThreadContext s [flags] stack with
      | none => (.errno .eperm, s)
      | some regs =>
        (.hex (gdbEncodeHex (slice regs.val (flags.register n).1 (flags.register n).2)), s)
  | _ => (.errno .eilseq, s)

/-- The text has to end behind the digits of the value. -/
def writeRegister (stack : ThreadContext) (s : Threads) (commandData : Bytes) :
    Reply × Threads :=
  let s := s.select
  match gdbParseHexIntegerList 32 1 0x3D commandData with
  | some ([gdbRegNum], 0x3D :: valueStart) =>
    match convertRegisterNumber gdbRegNum with
    | none => (.errno .einval, s)
    | some (flags, n) =>
      let (place, size) := flags.register n
      let (count, value) := gdbDecodeHex lowLast size valueStart
      if count ≠ size ∨ valueStart.getD (2 * size) 0 ≠ 0 then (.errno .einval, s)
      else
        match svcGetDebugThreadContext s [flags] stack with
        | none => (.errno .eperm, s)
        | some regs =>
          match svcSetDebugThreadContext kernel s [flags] (regs.put place value) with
          | none => (.errno .eperm, s)
          | some s => (.ok, s)
  | _ => (.errno .eilseq, s)

/-- The packets `g`, `G`, `p` and `P`. -/
inductive Command where
  | readAll
  | writeAll (commandData : Bytes)
  | read (commandData : Bytes)
  | write (commandData : Bytes)

def handle (stack : ThreadContext) (s : Threads) : Command → Reply × Threads
  | .readAll => readRegisters stack s
  | .writeAll commandData => writeRegisters kernel lowLast stack s commandData
  | .read commandData => readRegister stack s commandData
  | .write commandData => writeRegister kernel lowLast stack s commandData

/-- The replies to some packets, each of which finds something else on the stack. -/
def replies (s : Threads) : List (ThreadContext × Command) → List Reply × Threads
  | [] => ([], s)
  | (stack, command) :: commands =>
    let (reply, s) := handle kernel lowLast stack s command
    let (rest, s) := replies s commands
    (reply :: rest, s)

/-! ## Register files -/

/-- The values of the registers, in the order of the description. -/
abbrev RegisterFile := List Bytes

structure Files where
  selectedThreadId : BitVec 32
  currentThreadId : BitVec 32
  files : BitVec 32 → Option RegisterFile

namespace Files

def select (s : Files) : Files :=
  if s.selectedThreadId = 0 then { s with selectedThreadId := s.currentThreadId } else s

def file (s : Files) : Option RegisterFile := s.files s.selectedThreadId

def setFile (s : Files) (file : RegisterFile) : Files :=
  { s with files := Function.update s.files s.selectedThreadId (some file) }

end Files

/-- The values that come of setting some: the kernel has its say about the CPSR. -/
def admitted (file new : RegisterFile) : RegisterFile :=
  new.modify cpsrIndex (kernel.allow (file.getD cpsrIndex []))

/-- What the packets mean: a file is read and written as a whole or by the number of a register. -/
def fileHandle (s : Files) : Command → Reply × Files
  | .readAll =>
    let s := s.select
    match s.file with
    | none => (.errno .eperm, s)
    | some file => (.hex (gdbEncodeHex file.flatten), s)
  | .writeAll commandData =>
    let s := s.select
    let (count, bytes) := gdbDecodeHex lowLast sizes.sum commandData
    if count ≠ sizes.sum then (.errno .eperm, s)
    else
      match s.file with
      | none => (.errno .eperm, s)
      | some file => (.ok, s.setFile (admitted kernel file (fields sizes bytes)))
  | .read commandData =>
    let s := s.select
    match gdbParseHexIntegerList 32 1 0 commandData with
    | some ([gdbRegNum], _) =>
      match indexOf gdbRegNum with
      | none => (.errno .einval, s)
      | some i =>
        match s.file with
        | none => (.errno .eperm, s)
        | some file => (.hex (gdbEncodeHex (file.getD i [])), s)
    | _ => (.errno .eilseq, s)
  | .write commandData =>
    let s := s.select
    match gdbParseHexIntegerList 32 1 0x3D commandData with
    | some ([gdbRegNum], 0x3D :: valueStart) =>
      match indexOf gdbRegNum with
      | none => (.errno .einval, s)
      | some i =>
        let size := sizes.getD i 0
        let (count, value) := gdbDecodeHex lowLast size valueStart
        if count ≠ size ∨ valueStart.getD (2 * size) 0 ≠ 0 then (.errno .einval, s)
        else
          match s.file with
          | none => (.errno .eperm, s)
          | some file => (.ok, s.setFile (admitted kernel file (file.set i value)))
    | _ => (.errno .eilseq, s)

def fileReplies (s : Files) : List Command → List Reply × Files
  | [] => ([], s)
  | command :: commands =>
    let (reply, s) := fileHandle kernel lowLast s command
    let (rest, s) := fileReplies s commands
    (reply :: rest, s)

end Handlers

def ThreadContext.file (c : ThreadContext) : RegisterFile := fields sizes c.val

def Threads.toFiles (s : Threads) : Files :=
  ⟨s.selectedThreadId, s.currentThreadId, fun thread => (s.contexts thread).map ThreadContext.file⟩

/-! ## The places of the registers -/

/-- The handlers look for a register where the description has it. -/
structure Located (flags : ControlFlags) (n i : ℕ) : Prop where
  place : (flags.register n).1 = (sizes.take i).sum
  size : sizes[i]? = some (flags.register n).2
  begins : flags.place ≤ (flags.register n).1
  ends : (flags.register n).1 + (flags.register n).2 ≤ flags.place + flags.size
  cpsr : i = cpsrIndex → flags = .cpuSprs

theorem sum_sizes : sizes.sum = 204 := by decide

theorem register_cases (gdbNum : ℕ) :
    convertRegisterNumber gdbNum = none ∧ indexOf gdbNum = none ∨
      ∃ flags n i, convertRegisterNumber gdbNum = some (flags, n) ∧ indexOf gdbNum = some i ∧
        Located flags n i := by
  rcases Nat.lt_or_ge gdbNum 44 with hlt | hge
  · interval_cases gdbNum
    all_goals
      first
      | exact .inl ⟨rfl, rfl⟩
      | exact .inr ⟨_, _, _, rfl, rfl, by decide, by decide, by decide, by decide, by decide⟩
  · have hdescribed : ∀ r ∈ described, r.1 < 44 := by decide
    refine .inl ⟨?_, ?_⟩
    · unfold convertRegisterNumber
      rw [if_neg (by omega), if_neg (by omega), if_neg (by omega), if_neg (by omega)]
    · apply List.findIdx?_eq_none_iff.mpr
      intro r hr
      have hr := hdescribed r hr
      exact decide_eq_false (by omega)

variable {kernel : Kernel} {lowLast : Bool} {c into regs : ThreadContext} {flags : ControlFlags}
  {n i place size : ℕ} {data value : Bytes}

theorem ControlFlags.end_le (flags : ControlFlags) : flags.place + flags.size ≤ 204 := by
  cases flags <;> decide

namespace ThreadContext

theorem val_put (h : place + data.length ≤ 204) :
    (c.put place data).val = splice c.val place data := by
  rw [put, dif_pos h]

theorem length_part (c : ThreadContext) (flags : ControlFlags) :
    (slice c.val flags.place flags.size).length = flags.size :=
  length_slice (by rw [c.property]; exact flags.end_le)

theorem val_copyTo (c into : ThreadContext) (flags : ControlFlags) :
    (c.copyTo into flags).val =
      splice into.val flags.place (slice c.val flags.place flags.size) :=
  val_put (by rw [length_part]; exact flags.end_le)

theorem getElem?_copyTo (c into : ThreadContext) (flags : ControlFlags) (j : ℕ) :
    (c.copyTo into flags).val[j]? =
      if flags.place ≤ j ∧ j < flags.place + flags.size then c.val[j]? else into.val[j]? := by
  have hend := flags.end_le
  rw [val_copyTo, getElem?_splice (by rw [into.property]; omega), length_part, getElem?_slice]
  split_ifs with hj hsize
  · rw [Nat.add_sub_cancel' hj.1]
  · omega
  · rfl

theorem copyTo_all (c into : ThreadContext) : controlAll.foldl c.copyTo into = c := by
  apply Subtype.ext
  apply List.ext_getElem?
  intro j
  simp only [controlAll, List.foldl_cons, List.foldl_nil, getElem?_copyTo, ControlFlags.place,
    ControlFlags.size, Nat.zero_le, true_and, Nat.zero_add]
  split_ifs
  · rfl
  · rfl
  · rfl
  · rfl
  · rw [List.getElem?_eq_none (by rw [into.property]; omega),
      List.getElem?_eq_none (by rw [c.property]; omega)]

theorem slice_copyTo (hbegins : flags.place ≤ place)
    (hends : place + size ≤ flags.place + flags.size) :
    slice (c.copyTo into flags).val place size = slice c.val place size := by
  have hend := flags.end_le
  rw [val_copyTo, slice_splice_inside (by rw [into.property]; omega) hbegins
    (by rw [length_part]; exact hends), slice_slice hbegins hends]

theorem copyTo_put (hbegins : flags.place ≤ place)
    (hends : place + data.length ≤ flags.place + flags.size) :
    ((c.copyTo into flags).put place data).copyTo c flags = c.put place data := by
  have hend := flags.end_le
  apply Subtype.ext
  rw [val_copyTo, val_put (by omega), val_put (by omega),
    slice_splice (by rw [(c.copyTo into flags).property]; omega) hbegins hends
      (by rw [(c.copyTo into flags).property]; omega), slice_copyTo le_rfl le_rfl,
    splice_inside (by rw [length_part, c.property]; omega) hbegins
      (by rw [length_part]; exact hends), splice_slice (by rw [c.property]; omega)]

/-! ## Contexts as files -/

theorem file_injective : Function.Injective ThreadContext.file := by
  intro c d h
  have hlength : ∀ c : ThreadContext, c.val.length = sizes.sum := fun c =>
    c.property.trans sum_sizes.symm
  apply Subtype.ext
  rw [← flatten_fields (hlength c), ← flatten_fields (hlength d)]
  exact congrArg List.flatten h

theorem flatten_file (c : ThreadContext) : c.file.flatten = c.val :=
  flatten_fields (c.property.trans sum_sizes.symm)

theorem file_put (hi : sizes[i]? = some data.length) :
    (c.put (sizes.take i).sum data).file = c.file.set i data := by
  have hend : (sizes.take i).sum + data.length ≤ 204 := sum_sizes ▸ field_end_le hi
  rw [ThreadContext.file, val_put hend, fields_splice (by rw [c.property, sum_sizes]) hi]
  rfl

theorem getElem?_file (hi : sizes[i]? = some size) :
    c.file[i]? = some (slice c.val (sizes.take i).sum size) := by
  rw [ThreadContext.file, getElem?_fields, hi, Option.map_some]

theorem cpsr_eq (c : ThreadContext) : c.cpsr = c.file.getD cpsrIndex [] := by
  rw [List.getD_eq_getElem?_getD, getElem?_file (show sizes[cpsrIndex]? = some 4 by decide)]
  rfl

theorem length_cpsr (c : ThreadContext) : c.cpsr.length = 4 :=
  length_slice (by rw [c.property]; decide)

theorem file_admitted (kernel : Kernel) (c new : ThreadContext) :
    (new.put 64 (kernel.allow c.cpsr new.cpsr)).file = admitted kernel c.file new.file := by
  have hlength := kernel.length_allow c.cpsr new.cpsr new.length_cpsr
  have hplace : 64 = (sizes.take cpsrIndex).sum := by decide
  have hget : new.file[cpsrIndex]? = some new.cpsr := getElem?_file (by decide)
  rw [hplace, file_put (by rw [hlength]; decide), admitted, List.modify_eq_set_getElem?, hget,
    ← cpsr_eq]
  rfl

end ThreadContext

/-! ## The handlers as operations on files -/

theorem toFiles_select (s : Threads) : s.select.toFiles = s.toFiles.select := by
  unfold Threads.select Files.select
  split_ifs with hselected hfile hfile
  · rfl
  · exact absurd hselected hfile
  · exact absurd hfile hselected
  · rfl

theorem file_toFiles (s : Threads) :
    s.toFiles.file = (s.contexts s.selectedThreadId).map ThreadContext.file := rfl

theorem toFiles_update (s : Threads) (new : ThreadContext) :
    ({ s with contexts := Function.update s.contexts s.selectedThreadId (some new) } :
      Threads).toFiles = s.toFiles.setFile new.file := by
  unfold Threads.toFiles Files.setFile
  congr 1
  funext thread
  dsimp only
  by_cases hthread : thread = s.selectedThreadId
  · rw [hthread, Function.update_self, Function.update_self]
    rfl
  · rw [Function.update_of_ne hthread, Function.update_of_ne hthread]

theorem length_gdbDecodeHex {src : Bytes} (h : (gdbDecodeHex lowLast n src).1 = n) :
    (gdbDecodeHex lowLast n src).2.length = n := by
  induction n generalizing src with
  | zero =>
    rcases src with _ | ⟨hi, _ | ⟨lo, src⟩⟩
    all_goals rfl
  | succ n ih =>
    rcases src with _ | ⟨hi, _ | ⟨lo, src⟩⟩
    · cases h
    · cases h
    · rw [gdbDecodeHex] at h ⊢
      dsimp only at h ⊢
      split_ifs at h ⊢
      all_goals exact congrArg (· + 1) (ih (Nat.succ.inj h))

theorem admitted_of_same {file new : RegisterFile} (h : new[cpsrIndex]? = file[cpsrIndex]?) :
    admitted kernel file new = new := by
  apply List.ext_getElem?
  intro j
  rw [admitted, List.getElem?_modify]
  by_cases hj : cpsrIndex = j
  · subst hj
    rw [List.getD_eq_getElem?_getD, ← h]
    cases new[cpsrIndex]? with
    | none => rfl
    | some cpsr => simp [kernel.allow_self]
  · simp [hj]

theorem set_register (kernel : Kernel) (stack : ThreadContext) {s : Threads} {c : ThreadContext}
    (hc : s.contexts s.selectedThreadId = some c) (hlocated : Located flags n i)
    (hvalue : value.length = (flags.register n).2) :
    (svcSetDebugThreadContext kernel s [flags]
      ((c.copyTo stack flags).put (flags.register n).1 value)).map Threads.toFiles =
      some (s.toFiles.setFile (admitted kernel c.file (c.file.set i value))) := by
  have hput : ((c.copyTo stack flags).put (flags.register n).1 value).copyTo c flags =
      c.put (flags.register n).1 value :=
    ThreadContext.copyTo_put hlocated.begins (hvalue ▸ hlocated.ends)
  have hset : (c.put (flags.register n).1 value).file = c.file.set i value := by
    rw [hlocated.place, ThreadContext.file_put (by rw [hlocated.size, hvalue])]
  rw [svcSetDebugThreadContext, hc, Option.map_some, Option.map_some]
  dsimp only [List.foldl_cons, List.foldl_nil]
  rw [toFiles_update, hput, ← hset]
  congr 2
  split_ifs with hsprs
  · exact ThreadContext.file_admitted kernel c _
  · have hother : i ≠ cpsrIndex := fun hi =>
      hsprs (hlocated.cpsr hi ▸ List.mem_singleton_self _)
    rw [hset, admitted_of_same (List.getElem?_set_ne hother)]

theorem set_all (kernel : Kernel) {s : Threads} {c : ThreadContext} (regs : ThreadContext)
    (hc : s.contexts s.selectedThreadId = some c) :
    (svcSetDebugThreadContext kernel s controlAll regs).map Threads.toFiles =
      some (s.toFiles.setFile (admitted kernel c.file regs.file)) := by
  rw [svcSetDebugThreadContext, hc, Option.map_some, Option.map_some]
  dsimp only
  rw [toFiles_update, ThreadContext.copyTo_all, if_pos (by decide), ThreadContext.file_admitted]

theorem put_whole (stack : ThreadContext) {bytes : Bytes} (h : bytes.length = 204) :
    (stack.put 0 bytes).file = fields sizes bytes := by
  rw [ThreadContext.file, ThreadContext.val_put (by omega), splice, Nat.zero_add, h,
    List.drop_eq_nil_of_le stack.property.le, List.append_nil, List.take_zero, List.nil_append]

variable {s : Threads}

theorem readRegister_toFiles (stack : ThreadContext) (s : Threads) (commandData : Bytes) :
    ((readRegister stack s commandData).1, (readRegister stack s commandData).2.toFiles) =
      fileHandle kernel lowLast s.toFiles (.read commandData) := by
  unfold readRegister fileHandle
  dsimp only
  rw [← toFiles_select, file_toFiles]
  split
  · rename_i gdbRegNum _ hparse
    rcases register_cases gdbRegNum with
      ⟨hconvert, hindex⟩ | ⟨flags, n, i, hconvert, hindex, hlocated⟩
    · simp only [hconvert, hindex]
    · simp only [hconvert, hindex, svcGetDebugThreadContext]
      cases s.select.contexts s.select.selectedThreadId with
      | none => rfl
      | some c =>
        simp only [Option.map_some, List.foldl_cons, List.foldl_nil]
        rw [ThreadContext.slice_copyTo hlocated.begins hlocated.ends,
          List.getD_eq_getElem?_getD, ThreadContext.getElem?_file hlocated.size, hlocated.place,
          Option.getD_some]
  · rfl

theorem writeRegister_toFiles (stack : ThreadContext) (s : Threads) (commandData : Bytes) :
    ((writeRegister kernel lowLast stack s commandData).1,
      (writeRegister kernel lowLast stack s commandData).2.toFiles) =
      fileHandle kernel lowLast s.toFiles (.write commandData) := by
  unfold writeRegister fileHandle
  dsimp only
  rw [← toFiles_select, file_toFiles]
  split
  · rename_i gdbRegNum valueStart hparse
    rcases register_cases gdbRegNum with
      ⟨hconvert, hindex⟩ | ⟨flags, n, i, hconvert, hindex, hlocated⟩
    · simp only [hconvert, hindex]
    · have hsize : sizes.getD i 0 = (flags.register n).2 := by
        rw [List.getD_eq_getElem?_getD, hlocated.size, Option.getD_some]
      simp only [hconvert, hindex, hsize]
      split_ifs with hvalue
      · rfl
      · rw [not_or, not_not] at hvalue
        cases hc : s.select.contexts s.select.selectedThreadId with
        | none => simp only [svcGetDebugThreadContext, hc, Option.map_none]
        | some c =>
          have hget : svcGetDebugThreadContext s.select [flags] stack =
              some (c.copyTo stack flags) := by
            rw [svcGetDebugThreadContext, hc]
            rfl
          obtain ⟨t, ht, hfiles⟩ := Option.map_eq_some_iff.mp
            (set_register kernel stack hc hlocated (length_gdbDecodeHex hvalue.1))
          simp only [hget, ht, hfiles, Option.map_some]
  · rfl

theorem handle_toFiles (kernel : Kernel) (lowLast : Bool) (stack : ThreadContext) (s : Threads)
    (command : Command) :
    ((handle kernel lowLast stack s command).1, (handle kernel lowLast stack s command).2.toFiles) =
      fileHandle kernel lowLast s.toFiles command := by
  cases command with
  | readAll =>
    unfold handle readRegisters fileHandle svcGetDebugThreadContext
    dsimp only
    rw [← toFiles_select, file_toFiles]
    cases s.select.contexts s.select.selectedThreadId with
    | none => rfl
    | some c => simp only [Option.map_some, ThreadContext.copyTo_all, ThreadContext.flatten_file]
  | writeAll commandData =>
    unfold handle writeRegisters fileHandle
    dsimp only
    rw [← toFiles_select, file_toFiles, sum_sizes]
    by_cases hcount : (gdbDecodeHex lowLast 204 commandData).1 = 204
    · rw [if_neg (not_not_intro hcount), if_neg (not_not_intro hcount)]
      cases hc : s.select.contexts s.select.selectedThreadId with
      | none => simp only [svcSetDebugThreadContext, hc, Option.map_none]
      | some c =>
        obtain ⟨t, ht, hfiles⟩ := Option.map_eq_some_iff.mp (set_all kernel
          (stack.put 0 (gdbDecodeHex lowLast 204 commandData).2) hc)
        rw [ht, Option.map_some, ← put_whole stack (length_gdbDecodeHex hcount)]
        dsimp only
        rw [hfiles]
    · rw [if_pos hcount, if_pos hcount]
  | read commandData => exact readRegister_toFiles stack s commandData
  | write commandData => exact writeRegister_toFiles stack s commandData

/-- So do any packets, one after the other. -/
theorem replies_toFiles (kernel : Kernel) (lowLast : Bool) (s : Threads)
    (commands : List (ThreadContext × Command)) :
    ((replies kernel lowLast s commands).1, (replies kernel lowLast s commands).2.toFiles) =
      fileReplies kernel lowLast s.toFiles (commands.map Prod.snd) := by
  induction commands generalizing s with
  | nil => rfl
  | cons step commands ih =>
    obtain ⟨stack, command⟩ := step
    have hstep := handle_toFiles kernel lowLast stack s command
    have hrest := ih (handle kernel lowLast stack s command).2
    rw [List.map_cons, fileReplies, ← hstep]
    dsimp only
    rw [← hrest, replies]

/-! ## All registers, one by one -/

/-- A text that sets the register of a number. -/
def Sets (lowLast : Bool) (gdbNum : ℕ) (value commandData : Bytes) : Prop :=
  ∃ valueStart, gdbParseHexIntegerList 32 1 0x3D commandData = some ([gdbNum], 0x3D :: valueStart) ∧
    gdbDecodeHex lowLast value.length valueStart = (value.length, value) ∧
    valueStart.getD (2 * value.length) 0 = 0

/-- Texts that set all registers, in the order of the description. -/
structure SetsAll (lowLast : Bool) (values : RegisterFile) (texts : List Bytes) : Prop where
  lengths : values.map List.length = sizes
  count : texts.length = values.length
  sets : ∀ i gdbNum value text, indexOf gdbNum = some i → values[i]? = some value →
    texts[i]? = some text → Sets lowLast gdbNum value text

/-- The number in two digits, and the digits of the value. -/
def registerText (gdbNum : ℕ) (value : Bytes) : Bytes :=
  alphabet.getD (gdbNum / 16) 0 :: alphabet.getD (gdbNum % 16) 0 :: 0x3D :: gdbEncodeHex value

theorem two_digits : ∀ n < 256,
    isSpace (alphabet.getD (n / 16) 0) = false ∧
    Numerals.isDigit (strtoDigit 16) (alphabet.getD (n / 16) 0) = true ∧
    Numerals.isDigit (strtoDigit 16) (alphabet.getD (n % 16) 0) = true ∧
    ¬HasPrefix [alphabet.getD (n / 16) 0, alphabet.getD (n % 16) 0] ∧
    hexValue [alphabet.getD (n / 16) 0, alphabet.getD (n % 16) 0] = n := by
  decide +kernel

theorem sets_registerText {gdbNum : ℕ} (h : gdbNum < 256) (value : Bytes) :
    Sets lowLast gdbNum value (registerText gdbNum value) := by
  obtain ⟨hspace, hhigh, hlow, hprefix, hvalue⟩ := two_digits gdbNum h
  have hlength : (gdbEncodeHex value).length = 2 * value.length := by
    induction value with
    | nil => rfl
    | cons b value ih =>
      have hcons : (gdbEncodeHex (b :: value)).length = (gdbEncodeHex value).length + 2 := rfl
      rw [hcons, ih, List.length_cons, Nat.mul_succ]
  have hequals : Numerals.isDigit (strtoDigit 16) 0x3D = false := by decide
  refine ⟨gdbEncodeHex value, ?_, gdbDecodeHex_encodeHex lowLast value, ?_⟩
  · rw [gdbParseHexIntegerList_one, registerText]
    generalize alphabet.getD (gdbNum / 16) 0 = high at *
    generalize alphabet.getD (gdbNum % 16) 0 = low at *
    have hdigits : hexDigits (high :: low :: 0x3D :: gdbEncodeHex value) = [high, low] := by
      rw [hexDigits, List.takeWhile_cons_of_pos hhigh, List.takeWhile_cons_of_pos hlow,
        List.takeWhile_cons_of_neg (by rw [hequals]; decide)]
    have hrest : (high :: low :: 0x3D :: gdbEncodeHex value).dropWhile
        (Numerals.isDigit (strtoDigit 16)) = 0x3D :: gdbEncodeHex value := by
      rw [List.dropWhile_cons_of_pos hhigh, List.dropWhile_cons_of_pos hlow,
        List.dropWhile_cons_of_neg (by rw [hequals]; decide)]
    rw [List.dropWhile_cons_of_neg (by rw [hspace]; decide)]
    dsimp only
    rw [hdigits, hrest, hvalue,
      if_pos ⟨List.cons_ne_nil _ _, hprefix, h.trans (by decide), .inl rfl⟩]
  · rw [List.getD_eq_getElem?_getD, List.getElem?_eq_none hlength.le, Option.getD_none]

/-- A text for each register. -/
def registerTexts (values : RegisterFile) : List Bytes :=
  List.zipWith (fun r value => registerText r.1 value) described values

theorem setsAll_registerTexts (lowLast : Bool) {values : RegisterFile}
    (h : values.map List.length = sizes) : SetsAll lowLast values (registerTexts values) := by
  have hlength : values.length = described.length := by
    have hmap := congrArg List.length h
    rwa [List.length_map, sizes, List.length_map] at hmap
  refine ⟨h, ?_, ?_⟩
  · rw [registerTexts, List.length_zipWith, hlength, Nat.min_self]
  · intro i gdbNum value text hindex hvalue htext
    obtain ⟨hi, hnum, -⟩ := List.findIdx?_eq_some_iff_getElem.mp hindex
    have hbound : ∀ r ∈ described, r.1 < 256 := by decide
    rw [registerTexts, List.getElem?_zipWith, hvalue, List.getElem?_eq_getElem hi] at htext
    obtain rfl := Option.some.inj htext
    rw [← of_decide_eq_true hnum]
    exact sets_registerText (hbound _ (List.getElem_mem hi)) value

namespace Files

theorem setFile_select (s : Files) (file : RegisterFile) :
    (s.select.setFile file).select = s.select.setFile file := by
  have hsame : s.select.selectedThreadId = 0 →
      s.select.currentThreadId = s.select.selectedThreadId := by
    unfold select
    split_ifs with hselected
    · exact fun _ => rfl
    · exact fun h => absurd h hselected
  generalize s.select = t at hsame ⊢
  obtain ⟨selected, current, files⟩ := t
  unfold select setFile
  split_ifs with hselected
  · dsimp only at hselected hsame ⊢
    rw [hsame hselected]
  · rfl

theorem file_setFile (s : Files) (file : RegisterFile) : (s.setFile file).file = some file :=
  Function.update_self _ _ _

theorem setFile_setFile (s : Files) (file file' : RegisterFile) :
    (s.setFile file).setFile file' = s.setFile file' := by
  unfold setFile
  rw [Function.update_idem]

end Files

theorem getElem?_admitted (kernel : Kernel) (file new : RegisterFile) (j : ℕ) :
    (admitted kernel file new)[j]? =
      if j = cpsrIndex then new[j]?.map (kernel.allow (file.getD cpsrIndex [])) else new[j]? := by
  rw [admitted, List.getElem?_modify]
  split_ifs with hj hj' hj'
  · rfl
  · exact absurd hj.symm hj'
  · exact absurd hj'.symm hj
  · simp

/-- The file after the first `k` registers have been set. -/
def partly (file new : RegisterFile) (k : ℕ) : RegisterFile := new.take k ++ file.drop k

theorem getElem?_partly {file new : RegisterFile} (hlength : new.length = file.length) (k j : ℕ) :
    (partly file new k)[j]? = if j < k then new[j]? else file[j]? := by
  rw [partly]
  rcases Nat.lt_or_ge j (new.take k).length with hlt | hge
  · rw [List.length_take] at hlt
    rw [List.getElem?_append_left (by rw [List.length_take]; exact hlt), if_pos (by omega),
      List.getElem?_take_of_lt (by omega)]
  · rw [List.getElem?_append_right hge, List.getElem?_drop]
    rw [List.length_take] at hge ⊢
    split_ifs with hk
    · rw [List.getElem?_eq_none (by omega), List.getElem?_eq_none (by omega)]
    · rcases Nat.le_total k new.length with hle | hle
      · congr 1
        omega
      · rw [List.getElem?_eq_none (by omega), List.getElem?_eq_none (by omega)]

theorem admitted_partly {file values : RegisterFile} (hlength : values.length = file.length)
    {k : ℕ} {value : Bytes} (hvalue : values[k]? = some value) :
    admitted kernel (partly file (admitted kernel file values) k)
        ((partly file (admitted kernel file values) k).set k value) =
      partly file (admitted kernel file values) (k + 1) := by
  have hnew : (admitted kernel file values).length = file.length := by
    rw [admitted, List.length_modify, hlength]
  have hk := (List.getElem?_eq_some_iff.mp hvalue).1
  have hpartly : (partly file (admitted kernel file values) k).length = file.length := by
    rw [partly, List.length_append, List.length_take, List.length_drop, hnew]
    omega
  have hother : ∀ j, j ≠ k → (partly file (admitted kernel file values) k)[j]? =
      (partly file (admitted kernel file values) (k + 1))[j]? := by
    intro j hj
    rw [getElem?_partly hnew, getElem?_partly hnew]
    split_ifs
    all_goals first | rfl | omega
  have hself : (partly file (admitted kernel file values) (k + 1))[k]? =
      if k = cpsrIndex then some (kernel.allow (file.getD cpsrIndex []) value) else some value := by
    rw [getElem?_partly hnew, if_pos (Nat.lt_succ_self k), getElem?_admitted, hvalue,
      Option.map_some]
  have hset : ((partly file (admitted kernel file values) k).set k value)[k]? = some value :=
    List.getElem?_set_self (by omega)
  by_cases hcpsr : k = cpsrIndex
  · have hold : (partly file (admitted kernel file values) k).getD cpsrIndex [] =
        file.getD cpsrIndex [] := by
      rw [List.getD_eq_getElem?_getD, getElem?_partly hnew, if_neg (by omega),
        List.getD_eq_getElem?_getD]
    apply List.ext_getElem?
    intro j
    rw [getElem?_admitted, hold]
    split_ifs with hj
    · rw [← hcpsr] at hj
      rw [hj, hself, if_pos hcpsr, hset, Option.map_some]
    · rw [List.getElem?_set_ne (by omega), hother j (by omega)]
  · rw [admitted_of_same (List.getElem?_set_ne hcpsr)]
    apply List.ext_getElem?
    intro j
    by_cases hj : j = k
    · rw [hj, hself, if_neg hcpsr, hset]
    · rw [List.getElem?_set_ne (Ne.symm hj), hother j hj]

theorem fileHandle_write {s : Files} {file : RegisterFile} {gdbNum k : ℕ} {value text : Bytes}
    (hfile : s.select.file = some file) (hindex : indexOf gdbNum = some k)
    (hsize : sizes[k]? = some value.length) (hsets : Sets lowLast gdbNum value text) :
    fileHandle kernel lowLast s (.write text) =
      (.ok, s.select.setFile (admitted kernel file (file.set k value))) := by
  obtain ⟨valueStart, hparse, hdecode, hend⟩ := hsets
  have hget : sizes.getD k 0 = value.length := by
    rw [List.getD_eq_getElem?_getD, hsize, Option.getD_some]
  have hvalue : ¬(value.length ≠ value.length ∨ valueStart.getD (2 * value.length) 0 ≠ 0) :=
    fun h => h.elim (fun h => h rfl) fun h => h hend
  simp only [fileHandle, hparse, hindex, hget, hdecode, if_neg hvalue, hfile]

theorem indexOf_described : ∀ k < sizes.length, indexOf (described.getD k (0, 0)).1 = some k := by
  decide

theorem writeAll_eq_each (kernel : Kernel) {s : Files} {file values : RegisterFile}
    {texts : List Bytes} {commandData : Bytes} (hfile : s.select.file = some file)
    (hlengths : file.map List.length = sizes) (hsets : SetsAll lowLast values texts)
    (hall : gdbDecodeHex lowLast sizes.sum commandData = (sizes.sum, values.flatten)) :
    fileReplies kernel lowLast s (texts.map .write) =
      (texts.map fun _ => .ok, (fileHandle kernel lowLast s (.writeAll commandData)).2) := by
  have hvalues : values.length = sizes.length := by rw [← hsets.lengths, List.length_map]
  have hlength : values.length = file.length := by rw [hvalues, ← hlengths, List.length_map]
  have hcount := hsets.count
  have hwrite : ∀ (t : Files) (f : RegisterFile) (k : ℕ) (text value : Bytes),
      t.select.file = some f → texts[k]? = some text → values[k]? = some value →
      fileHandle kernel lowLast t (.write text) =
        (.ok, t.select.setFile (admitted kernel f (f.set k value))) := by
    intro t f k text value hf htext hvalue
    have hk := (List.getElem?_eq_some_iff.mp hvalue).1
    have hindex := indexOf_described k (hvalues ▸ hk)
    refine fileHandle_write hf hindex ?_ (hsets.sets k _ value text hindex hvalue htext)
    rw [← hsets.lengths, List.getElem?_map, hvalue, Option.map_some]
  have hrest : ∀ n k, texts.length - k = n → k ≤ texts.length →
      fileReplies kernel lowLast
        (s.select.setFile (partly file (admitted kernel file values) k))
        ((texts.drop k).map .write) =
        ((texts.drop k).map fun _ => .ok, s.select.setFile (admitted kernel file values)) := by
    intro n
    induction n with
    | zero =>
      intro k hn hk
      obtain rfl : k = texts.length := by omega
      have hnew : (admitted kernel file values).length = texts.length := by
        rw [admitted, List.length_modify, hcount]
      rw [List.drop_length, partly, ← hnew, List.take_length, hnew,
        List.drop_eq_nil_of_le (by omega), List.append_nil]
      rfl
    | succ n ih =>
      intro k hn hk
      have htext : texts[k]? = some texts[k] := List.getElem?_eq_getElem (by omega)
      have hvalue : values[k]? = some values[k] := List.getElem?_eq_getElem (by omega)
      have hstep := hwrite (s.select.setFile (partly file (admitted kernel file values) k)) _ k _ _
        (by rw [Files.setFile_select, Files.file_setFile]) htext hvalue
      rw [Files.setFile_select, Files.setFile_setFile, admitted_partly hlength hvalue] at hstep
      rw [List.drop_eq_getElem_cons (by omega), List.map_cons, List.map_cons, fileReplies, hstep]
      dsimp only
      rw [ih (k + 1) (by omega) (by omega)]
  have hpos : 0 < texts.length := by
    rw [hcount, hvalues]
    decide
  obtain ⟨text, rest, rfl⟩ := List.exists_cons_of_length_pos hpos
  have hvalue : values[0]? = some values[0] := List.getElem?_eq_getElem (by omega)
  have hfirst := hwrite s file 0 text _ hfile rfl hvalue
  have hpartly := @admitted_partly kernel file values hlength 0 _ hvalue
  have hnone : partly file (admitted kernel file values) 0 = file := rfl
  rw [hnone] at hpartly
  have hwhole : fields sizes values.flatten = values := by
    rw [← hsets.lengths, fields_flatten]
  have hall' : (fileHandle kernel lowLast s (.writeAll commandData)).2 =
      s.select.setFile (admitted kernel file values) := by
    simp only [fileHandle, hall, ne_eq, not_true_eq_false, if_false, hfile, hwhole]
  have hnext := hrest _ 1 rfl hpos
  rw [List.drop_one, List.tail_cons] at hnext
  rw [hall', List.map_cons, List.map_cons, fileReplies, hfirst, hpartly]
  dsimp only
  rw [hnext]

theorem toFiles_injective : Function.Injective Threads.toFiles := by
  rintro ⟨selected, current, contexts⟩ ⟨selected', current', contexts'⟩ h
  obtain ⟨hselected, hcurrent, hfiles⟩ := Files.mk.inj h
  dsimp only at hselected hcurrent hfiles
  subst hselected hcurrent
  congr 1
  funext thread
  exact Option.map_injective ThreadContext.file_injective (congrFun hfiles thread)

/-- The packet `G` does what the packets `P` for the registers of the description do together. -/
theorem writeRegisters_eq_each (kernel : Kernel) {s : Threads} {c : ThreadContext}
    (hc : s.select.contexts s.select.selectedThreadId = some c) {values : RegisterFile}
    {texts : List Bytes} (hsets : SetsAll lowLast values texts) {commandData : Bytes}
    (hall : gdbDecodeHex lowLast 204 commandData = (204, values.flatten)) (stack : ThreadContext)
    {commands : List (ThreadContext × Command)}
    (hcommands : commands.map Prod.snd = texts.map .write) :
    replies kernel lowLast s commands =
      (commands.map fun _ => .ok, (writeRegisters kernel lowLast stack s commandData).2) := by
  have hfile : s.toFiles.select.file = some c.file := by
    rw [← toFiles_select, file_toFiles, hc, Option.map_some]
  have heach := writeAll_eq_each kernel hfile
    (map_length_fields (by rw [c.property, sum_sizes])) hsets (by rw [sum_sizes, hall])
  have hreplies := replies_toFiles kernel lowLast s commands
  rw [hcommands, heach, ← handle_toFiles kernel lowLast stack] at hreplies
  obtain ⟨hok, hfinal⟩ := Prod.mk.inj hreplies
  have hcount := congrArg List.length hcommands
  rw [List.length_map, List.length_map] at hcount
  apply Prod.ext
  · rw [hok, List.map_const', List.map_const', hcount]
  · exact toFiles_injective hfinal

def plainKernel : Kernel := ⟨fun _ new => new, fun _ _ h => h, fun _ => rfl⟩

def zeroContext : ThreadContext := ⟨List.replicate 204 0, rfl⟩

def zeroValues : RegisterFile := sizes.map fun size => List.replicate size 0

theorem writeRegisters_eq_each_zero :
    replies plainKernel true ⟨1, 1, fun _ => some zeroContext⟩
        ((registerTexts zeroValues).map fun text => (zeroContext, .write text)) =
      (((registerTexts zeroValues).map fun text => (zeroContext, Command.write text)).map
        fun _ => .ok, (writeRegisters plainKernel true zeroContext
          ⟨1, 1, fun _ => some zeroContext⟩ (gdbEncodeHex zeroValues.flatten)).2) :=
  writeRegisters_eq_each plainKernel rfl (setsAll_registerTexts true (by decide))
    (gdbDecodeHex_encodeHex true zeroValues.flatten) zeroContext (by rw [List.map_map]; rfl)

end Presence3DS.Gdb.Registers
