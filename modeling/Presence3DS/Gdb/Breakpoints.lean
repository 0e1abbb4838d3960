import Presence3DS.Lib.KeyedList
import Presence3DS.Lib.Overlays
import Presence3DS.Lib.Runs
import Presence3DS.Lib.SortedSlots

/-! The software breakpoints of the debugger, and what they leave of the memory of the program
(`breakpoints.c`). -/

namespace Presence3DS.Gdb
open RawMemory SortedSlots

/-- A breakpoint, with the bytes of the instruction that it was written over. -/
structure Breakpoint where
  address : UInt32
  savedInstruction : List UInt8
  instructionSize : ℕ
  persistent : Bool
deriving DecidableEq

def Breakpoint.zeroed : Breakpoint := ⟨0, [], 0, false⟩

def maxBreakpoint : ℕ := 64

def breakpointInstructionArm : ℕ := 0xEF0000FF

def breakpointInstructionThumb : ℕ := 0xDFFF

/-- The bytes that a breakpoint of the size puts into the program. -/
def breakpointCode (size : ℕ) : List UInt8 :=
  leBytes size (if size = 2 then breakpointInstructionThumb else breakpointInstructionArm)

/-- The breakpoints and the memory of the program, and beside them the breakpoints in the order in
which they were added, the last one first. The code does not keep the latter. -/
structure GdbContext where
  memory : Memory
  breakpoints : ℕ → Breakpoint
  nbBreakpoints : ℕ
  added : List Breakpoint

namespace GdbContext

/-- The debugger is attached to a program. -/
def attached (memory : Memory) : GdbContext := ⟨memory, fun _ => Breakpoint.zeroed, 0, []⟩

def addressAt (ctx : GdbContext) (i : ℕ) : ℕ := (ctx.breakpoints i).address.toNat

end GdbContext

def gdbFindClosestBreakpointSlot (ctx : GdbContext) (address : UInt32) : ℕ :=
  closestSlot ctx.addressAt ctx.nbBreakpoints address.toNat

/-- `GDB_AddBreakpoint`, where the kernel lets the program's memory be read and written or not. -/
def gdbAddBreakpoint (readable writable : Bool) (ctx : GdbContext) (address : UInt32)
    (thumb persist : Bool) : ℤ × GdbContext :=
  if thumb = false ∧ address &&& 3 ≠ 0 then (-22, ctx)
  else
    let address := address &&& ~~~1
    let id := gdbFindClosestBreakpointSlot ctx address
    if id ≠ ctx.nbBreakpoints ∧ (ctx.breakpoints id).instructionSize ≠ 0 ∧
        (ctx.breakpoints id).address = address then (0, ctx)
    else if ctx.nbBreakpoints = maxBreakpoint then (-16, ctx)
    else
      let size := if thumb then 2 else 4
      if readable && writable then
        let bkpt := ⟨address, read ctx.memory address.toNat size, size, persist⟩
        (0, {
          memory := write ctx.memory address.toNat (breakpointCode size)
          breakpoints := insertSlot ctx.breakpoints ctx.nbBreakpoints id bkpt
          nbBreakpoints := ctx.nbBreakpoints + 1
          added := bkpt :: ctx.added })
      else
        -- the slot that was opened is closed again
        (-14, { ctx with
          breakpoints := Function.update (removeSlot (shiftUp id ctx.nbBreakpoints ctx.breakpoints)
            (ctx.nbBreakpoints + 1) id) ctx.nbBreakpoints Breakpoint.zeroed })

/-- `GDB_RemoveBreakpoint`, and `GDB_DisableBreakpointById` in it. -/
def gdbRemoveBreakpoint (writable : Bool) (ctx : GdbContext) (address : UInt32) : ℤ × GdbContext :=
  let address := address &&& ~~~1
  let id := gdbFindClosestBreakpointSlot ctx address
  let bkpt := ctx.breakpoints id
  if id = ctx.nbBreakpoints ∨ bkpt.address ≠ address then (-22, ctx)
  else if writable then
    (0, {
      memory := write ctx.memory bkpt.address.toNat
        (bkpt.savedInstruction.take bkpt.instructionSize)
      breakpoints := Function.update (removeSlot ctx.breakpoints ctx.nbBreakpoints id)
        (ctx.nbBreakpoints - 1) Breakpoint.zeroed
      nbBreakpoints := ctx.nbBreakpoints - 1
      added := ctx.added.filter fun b => b.address ≠ bkpt.address })
  else (-14, ctx)

inductive BreakpointCall where
  | add (address : UInt32) (thumb persist readable writable : Bool)
  | remove (address : UInt32) (writable : Bool)

def breakpointStep (ctx : GdbContext) : BreakpointCall → Option GdbContext
  | .add address thumb persist readable writable =>
    some (gdbAddBreakpoint readable writable ctx address thumb persist).2
  | .remove address writable => some (gdbRemoveBreakpoint writable ctx address).2

/-! ## The memory of the program -/

namespace Breakpoint

def Covers (b : Breakpoint) (x : ℕ) : Prop :=
  b.address.toNat ≤ x ∧ x < b.address.toNat + b.instructionSize

def Disjoint (b b' : Breakpoint) : Prop :=
  b.address.toNat + b.instructionSize ≤ b'.address.toNat ∨
    b'.address.toNat + b'.instructionSize ≤ b.address.toNat

instance (b b' : Breakpoint) : Decidable (b.Disjoint b') := inferInstanceAs (Decidable (_ ∨ _))

def overlay (b : Breakpoint) : Overlay :=
  ⟨b.address.toNat, breakpointCode b.instructionSize, b.savedInstruction⟩

end Breakpoint

/-- The memory is the original one outside of the breakpoints that remain. -/
structure RestoreLaw (original : Memory) (ctx : GdbContext) : Prop where
  none : ctx.nbBreakpoints = 0 → ctx.memory = original
  outside : ∀ x, (∀ i < ctx.nbBreakpoints, ¬ (ctx.breakpoints i).Covers x) →
    ctx.memory x = original x

/-- A breakpoint is removed after the newer ones that overlap it. -/
def LastFirst (ctx : GdbContext) : BreakpointCall → Prop
  | .add _ _ _ _ _ => True
  | .remove address writable => writable = true → ∀ b ∈ ctx.added, b.address = address &&& ~~~1 →
    ∀ b' ∈ ctx.added.takeWhile (·.address ≠ b.address), b'.Disjoint b

/-- What ties the slots to the breakpoints in their order, and these to the memory. -/
structure GdbContext.Inv (original : Memory) (ctx : GdbContext) : Prop where
  sorted : SortedOn ctx.addressAt ctx.nbBreakpoints
  mem : ∀ b, b ∈ ctx.added ↔ ∃ i, i < ctx.nbBreakpoints ∧ ctx.breakpoints i = b
  nodup : (ctx.added.map (·.address)).Nodup
  size : ∀ b ∈ ctx.added, b.instructionSize = 2 ∨ b.instructionSize = 4
  kept : Overlay.Kept original (ctx.added.map Breakpoint.overlay)
  memory : ctx.memory = Overlay.applied original (ctx.added.map Breakpoint.overlay)

section Steps
variable {original : Memory} {ctx : GdbContext} {address : UInt32}

theorem length_breakpointCode (size : ℕ) : (breakpointCode size).length = size := length_leBytes _ _

theorem attached_inv (original : Memory) : (GdbContext.attached original).Inv original where
  sorted _ j _ hj := absurd hj (Nat.not_lt_zero j)
  mem _ := ⟨fun hb => absurd hb List.not_mem_nil, fun ⟨i, hi, _⟩ => absurd hi (Nat.not_lt_zero i)⟩
  nodup := List.nodup_nil
  size _ hb := absurd hb List.not_mem_nil
  kept := trivial
  memory := rfl

namespace GdbContext.Inv

theorem restoreLaw (h : ctx.Inv original) : RestoreLaw original ctx where
  none hzero := by
    have hnil : ctx.added = [] := by
      apply List.eq_nil_iff_forall_not_mem.mpr
      intro b hb
      obtain ⟨i, hi, -⟩ := (h.mem b).mp hb
      rw [hzero] at hi
      exact Nat.not_lt_zero i hi
    rw [h.memory, hnil]
    rfl
  outside x hx := by
    rw [h.memory]
    apply Overlay.applied_apply
    intro p hp hcovers
    obtain ⟨b, hb, rfl⟩ := List.mem_map.mp hp
    obtain ⟨i, hi, rfl⟩ := (h.mem b).mp hb
    apply hx i hi
    rw [Overlay.Covers, Breakpoint.overlay, length_breakpointCode] at hcovers
    exact hcovers

theorem congr_slots {breakpoints : ℕ → Breakpoint} (h : ctx.Inv original)
    (hsame : ∀ i < ctx.nbBreakpoints, breakpoints i = ctx.breakpoints i) :
    GdbContext.Inv original { ctx with breakpoints := breakpoints } where
  sorted i j hij hj := by
    show (breakpoints i).address.toNat < (breakpoints j).address.toNat
    rw [hsame i (hij.trans hj), hsame j hj]
    exact h.sorted i j hij hj
  mem b := by
    rw [h.mem]
    constructor
    · rintro ⟨i, hi, rfl⟩
      exact ⟨i, hi, hsame i hi⟩
    · rintro ⟨i, hi, rfl⟩
      exact ⟨i, hi, (hsame i hi).symm⟩
  nodup := h.nodup
  size := h.size
  kept := h.kept
  memory := h.memory

theorem closest (h : ctx.Inv original) (address : UInt32) :
    IsClosest ctx.addressAt ctx.nbBreakpoints address.toNat
      (gdbFindClosestBreakpointSlot ctx address) :=
  closestSlot_isClosest h.sorted _

theorem slot_of_mem (h : ctx.Inv original) {b : Breakpoint} (hb : b ∈ ctx.added) :
    gdbFindClosestBreakpointSlot ctx b.address < ctx.nbBreakpoints ∧
      ctx.breakpoints (gdbFindClosestBreakpointSlot ctx b.address) = b := by
  obtain ⟨i, hi, rfl⟩ := (h.mem b).mp hb
  have hslot := (h.closest _).eq_of_key h.sorted hi rfl
  rw [hslot]
  exact ⟨hi, rfl⟩

theorem mem_of_slot (h : ctx.Inv original) {i : ℕ} (hi : i < ctx.nbBreakpoints) :
    ctx.breakpoints i ∈ ctx.added := (h.mem _).mpr ⟨i, hi, rfl⟩

theorem add (h : ctx.Inv original) {size : ℕ} {persist : Bool} (hsize : size = 2 ∨ size = 4)
    (hnew : ∀ b ∈ ctx.added, b.address ≠ address) :
    GdbContext.Inv original {
      memory := write ctx.memory address.toNat (breakpointCode size)
      breakpoints := insertSlot ctx.breakpoints ctx.nbBreakpoints
        (gdbFindClosestBreakpointSlot ctx address)
        ⟨address, read ctx.memory address.toNat size, size, persist⟩
      nbBreakpoints := ctx.nbBreakpoints + 1
      added := ⟨address, read ctx.memory address.toNat size, size, persist⟩ :: ctx.added } where
  sorted := by
    refine sortedOn_insertSlot (v := ⟨address, _, size, persist⟩)
      (fun b : Breakpoint => b.address.toNat) h.sorted (h.closest address) ?_
    intro hlt heq
    exact hnew _ (h.mem_of_slot hlt) (UInt32.toNat_inj.mp heq)
  mem b := by
    rw [exists_insertSlot ctx.breakpoints (h.closest address).le _ fun b' => b' = b, ← h.mem,
      List.mem_cons]
    exact or_congr_left eq_comm
  nodup := by
    rw [List.map_cons, List.nodup_cons]
    refine ⟨fun hmem => ?_, h.nodup⟩
    obtain ⟨b, hb, heq⟩ := List.mem_map.mp hmem
    exact hnew b hb heq
  size b hb := by
    rcases List.mem_cons.mp hb with rfl | hb
    · exact hsize
    · exact h.size b hb
  kept := by
    refine ⟨?_, h.kept⟩
    show read ctx.memory _ _ = read _ _ (breakpointCode size).length
    rw [length_breakpointCode, h.memory]
    rfl
  memory := by
    show write ctx.memory _ _ = write _ _ _
    rw [h.memory]
    rfl

theorem remove (h : ctx.Inv original) {id : ℕ} (hid : id < ctx.nbBreakpoints)
    (hlast : ∀ b ∈ ctx.added.takeWhile (·.address ≠ (ctx.breakpoints id).address),
      b.Disjoint (ctx.breakpoints id)) :
    GdbContext.Inv original {
      memory := write ctx.memory (ctx.breakpoints id).address.toNat
        ((ctx.breakpoints id).savedInstruction.take (ctx.breakpoints id).instructionSize)
      breakpoints := removeSlot ctx.breakpoints ctx.nbBreakpoints id
      nbBreakpoints := ctx.nbBreakpoints - 1
      added := ctx.added.filter fun b => b.address ≠ (ctx.breakpoints id).address } := by
  have hmem := h.mem_of_slot hid
  obtain ⟨newer, older, hadded, hnewer, holder⟩ := KeyedList.exists_split h.nodup hmem
  have htake : ctx.added.takeWhile (·.address ≠ (ctx.breakpoints id).address) = newer := by
    rw [hadded, List.takeWhile_append_of_pos fun b hb => decide_eq_true (hnewer b hb),
      List.takeWhile_cons_of_neg (by simp), List.append_nil]
  have hfilter : (ctx.added.filter fun b => b.address ≠ (ctx.breakpoints id).address) =
      newer ++ older := by
    rw [hadded, List.filter_append, List.filter_cons_of_neg (by simp),
      KeyedList.filter_of_forall_ne hnewer, KeyedList.filter_of_forall_ne holder]
  have hkept := h.kept
  rw [hadded, List.map_append, List.map_cons] at hkept
  have hsaved : (ctx.breakpoints id).savedInstruction.length =
      (ctx.breakpoints id).instructionSize := by
    have hlength := hkept.length_saved (List.mem_append_right _ List.mem_cons_self)
    rw [Breakpoint.overlay, length_breakpointCode] at hlength
    exact hlength
  obtain ⟨hmemory, hkept'⟩ := hkept.remove (by
    intro q hq
    obtain ⟨b, hb, rfl⟩ := List.mem_map.mp hq
    rw [Overlay.Disjoint, Breakpoint.overlay, Breakpoint.overlay, length_breakpointCode,
      length_breakpointCode]
    exact hlast b (htake.symm ▸ hb))
  refine ⟨sortedOn_removeSlot (fun b : Breakpoint => b.address.toNat) h.sorted hid, ?_, ?_, ?_, ?_,
    ?_⟩
  · intro b
    rw [exists_removeSlot ctx.breakpoints hid fun b' => b' = b, List.mem_filter, h.mem]
    constructor
    · rintro ⟨⟨i, hi, rfl⟩, hne⟩
      exact ⟨i, hi, fun heq => of_decide_eq_true hne (heq ▸ rfl), rfl⟩
    · rintro ⟨i, hi, hne, rfl⟩
      refine ⟨⟨i, hi, rfl⟩, decide_eq_true fun heq => hne ?_⟩
      exact h.sorted.inj hi hid (congrArg UInt32.toNat heq)
  · exact h.nodup.sublist (List.filter_sublist.map _)
  · intro b hb
    exact h.size b (List.mem_of_mem_filter hb)
  · show Overlay.Kept original (List.map _ (ctx.added.filter _))
    rw [hfilter, List.map_append]
    exact hkept'
  · show write ctx.memory _ _ = Overlay.applied original (List.map _ (ctx.added.filter _))
    rw [hfilter, List.map_append, ← hmemory, h.memory, hadded, List.map_append, List.map_cons,
      List.take_of_length_le hsaved.le]
    rfl

end GdbContext.Inv

theorem closed_slot {f : ℕ → Breakpoint} {n id i : ℕ} (hid : id ≤ n) (hi : i < n)
    (b : Breakpoint) : Function.update (removeSlot (shiftUp id n f) (n + 1) id) n b i = f i := by
  rw [Function.update_of_ne (Nat.ne_of_lt hi), removeSlot_apply _ (Nat.lt_succ_of_le hid),
    shiftUp_apply, shiftUp_apply]
  split_ifs <;> first | rfl | omega

theorem gdbAddBreakpoint_inv {thumb persist readable writable : Bool} (h : ctx.Inv original) :
    (gdbAddBreakpoint readable writable ctx address thumb persist).2.Inv original := by
  rw [gdbAddBreakpoint]
  split
  · exact h
  · dsimp only
    split
    · exact h
    · next hfound =>
      split
      · exact h
      · split
        · apply h.add
          · cases thumb
            · exact Or.inr rfl
            · exact Or.inl rfl
          · rintro b hb heq
            obtain ⟨hlt, hslot⟩ := h.slot_of_mem hb
            rw [heq] at hlt hslot
            refine hfound ⟨Nat.ne_of_lt hlt, ?_, hslot ▸ heq⟩
            rw [hslot]
            rcases h.size b hb with hsize | hsize <;> rw [hsize] <;> rintro ⟨⟩
        · exact h.congr_slots fun i hi => closed_slot (h.closest _).le hi _

theorem gdbRemoveBreakpoint_inv {writable : Bool} (h : ctx.Inv original)
    (hlast : LastFirst ctx (.remove address writable)) :
    (gdbRemoveBreakpoint writable ctx address).2.Inv original := by
  rw [gdbRemoveBreakpoint]
  split
  · exact h
  · next hfound =>
    rw [not_or, not_not] at hfound
    have hid := lt_of_le_of_ne (h.closest (address &&& ~~~1)).le hfound.1
    split
    · next hwritable =>
      have hremoved := h.remove hid (hlast hwritable _ (h.mem_of_slot hid) hfound.2)
      apply hremoved.congr_slots
      intro i hi
      exact Function.update_of_ne (Nat.ne_of_lt hi) _ _
    · exact h

theorem breakpointStep_inv {ctx' : GdbContext} {call : BreakpointCall} (h : ctx.Inv original)
    (hlast : LastFirst ctx call) (hstep : breakpointStep ctx call = some ctx') :
    ctx'.Inv original := by
  cases call with
  | add address thumb persist readable writable =>
    exact Option.some.inj hstep ▸ gdbAddBreakpoint_inv h
  | remove address writable => exact Option.some.inj hstep ▸ gdbRemoveBreakpoint_inv h hlast

end Steps

/-- Where overlapping breakpoints are removed in the reverse order of their additions, the program's
memory is the original one outside of those that remain. -/
theorem breakpoints_restore {original : Memory} {calls : List BreakpointCall}
    (h : Runs.Guarded breakpointStep LastFirst (GdbContext.attached original) calls) :
    Runs.AllSteps breakpointStep (fun _ _ ctx => RestoreLaw original ctx)
      (GdbContext.attached original) calls :=
  Runs.allSteps_of_guarded (I := GdbContext.Inv original)
    (fun _ _ _ hinv hlast hstep =>
      have hinv' := breakpointStep_inv hinv hlast hstep
      ⟨hinv', hinv'.restoreLaw⟩)
    (attached_inv original) h

instance (ctx : GdbContext) : (call : BreakpointCall) → Decidable (LastFirst ctx call)
  | .add _ _ _ _ _ => inferInstanceAs (Decidable True)
  | .remove _ _ => inferInstanceAs (Decidable (_ → ∀ b ∈ ctx.added, _ → ∀ b' ∈ _, _))

/-- An ARM breakpoint, and a Thumb one in its second half, removed in the reverse order. -/
theorem breakpoints_restore_nested : Runs.AllSteps breakpointStep
    (fun _ _ ctx => RestoreLaw (fun _ => 0) ctx) (GdbContext.attached fun _ => 0)
    [.add 0x100000 false false true true, .add 0x100002 true false true true,
      .remove 0x100002 true, .remove 0x100000 true] := by
  apply breakpoints_restore
  have hguards : Runs.Guarded breakpointStep (fun ctx call => decide (LastFirst ctx call) = true)
      (GdbContext.attached fun _ => 0)
      [.add 0x100000 false false true true, .add 0x100002 true false true true,
        .remove 0x100002 true, .remove 0x100000 true] :=
    Runs.guarded_of_guards (by decide +kernel)
  exact hguards.imp fun _ _ _ => of_decide_eq_true

/-- The ARM breakpoint goes first, and its second half is what the Thumb one puts back. -/
theorem breakpoints_interleaved : ¬ Runs.AllSteps breakpointStep
    (fun _ _ ctx => RestoreLaw (fun _ => 0) ctx) (GdbContext.attached fun _ => 0)
    [.add 0x100000 false false true true, .add 0x100002 true false true true,
      .remove 0x100000 true, .remove 0x100002 true] := by
  intro h
  have hlaw := ((((h _ rfl).2 _ rfl).2 _ rfl).2 _ rfl).1
  have hbyte := congrFun (hlaw.none (by decide +kernel)) 0x100003
  exact absurd hbyte (by decide +kernel)

/-! The table of the software breakpoints: its order, its room and the search in it, over any
additions and removals. -/

/-- `GDB_GetBreakpointInstruction` -/
def gdbGetBreakpointInstruction (ctx : GdbContext) (address : UInt32) : ℤ × Option (List UInt8) :=
  let id := gdbFindClosestBreakpointSlot ctx address
  if id = ctx.nbBreakpoints ∨ (ctx.breakpoints id).address ≠ address then (-22, none)
  else (0, some (ctx.breakpoints id).savedInstruction)

/-- An addition that returns an error -/
def FailedAdd (ctx : GdbContext) : BreakpointCall → Prop
  | .add address thumb persist readable writable =>
    (gdbAddBreakpoint readable writable ctx address thumb persist).1 < 0
  | .remove _ _ => False

/-- The table is in order and has room, and an address is found in it if a breakpoint is there. -/
structure TableLaw (ctx : GdbContext) : Prop where
  sorted : ∀ i j, i < j → j < ctx.nbBreakpoints →
    (ctx.breakpoints i).address < (ctx.breakpoints j).address
  room : ctx.nbBreakpoints ≤ maxBreakpoint
  found : ∀ i < ctx.nbBreakpoints,
    gdbGetBreakpointInstruction ctx (ctx.breakpoints i).address =
      (0, some (ctx.breakpoints i).savedInstruction)
  missing : ∀ address, (∀ i < ctx.nbBreakpoints, (ctx.breakpoints i).address ≠ address) →
    gdbGetBreakpointInstruction ctx address = (-22, none)

/-- What keeps the table so: a slot that is used has an instruction, and the others are empty. -/
structure TableInv (ctx : GdbContext) : Prop where
  sorted : SortedOn ctx.addressAt ctx.nbBreakpoints
  room : ctx.nbBreakpoints ≤ maxBreakpoint
  used : ∀ i < ctx.nbBreakpoints, (ctx.breakpoints i).instructionSize ≠ 0
  unused : ∀ i, ctx.nbBreakpoints ≤ i → ctx.breakpoints i = Breakpoint.zeroed

namespace TableInv
variable {ctx : GdbContext} {address : UInt32}

theorem of_attached (memory : Memory) : TableInv (GdbContext.attached memory) where
  sorted _ j _ hj := absurd hj (Nat.not_lt_zero j)
  room := Nat.zero_le _
  used i hi := absurd hi (Nat.not_lt_zero i)
  unused _ _ := rfl

theorem closest (h : TableInv ctx) (address : UInt32) :
    IsClosest ctx.addressAt ctx.nbBreakpoints address.toNat
      (gdbFindClosestBreakpointSlot ctx address) := closestSlot_isClosest h.sorted _

theorem tableLaw (h : TableInv ctx) : TableLaw ctx where
  sorted i j hij hj := UInt32.lt_iff_toNat_lt.mpr (h.sorted i j hij hj)
  room := h.room
  found i hi := by
    have hslot := (h.closest (ctx.breakpoints i).address).eq_of_key h.sorted hi rfl
    rw [gdbGetBreakpointInstruction, hslot]
    exact if_neg (not_or.mpr ⟨hi.ne, not_not_intro rfl⟩)
  missing address hnone := by
    rw [gdbGetBreakpointInstruction]
    refine if_pos (or_iff_not_imp_left.mpr fun hid => ?_)
    exact hnone _ (lt_of_le_of_ne (h.closest address).le hid)

theorem insert (h : TableInv ctx) {b : Breakpoint} {memory : Memory} {added : List Breakpoint}
    (hsize : b.instructionSize ≠ 0) (hroom : ctx.nbBreakpoints ≠ maxBreakpoint)
    (hnew : gdbFindClosestBreakpointSlot ctx b.address < ctx.nbBreakpoints →
      (ctx.breakpoints (gdbFindClosestBreakpointSlot ctx b.address)).address ≠ b.address) :
    TableInv ⟨memory, insertSlot ctx.breakpoints ctx.nbBreakpoints
      (gdbFindClosestBreakpointSlot ctx b.address) b, ctx.nbBreakpoints + 1, added⟩ where
  sorted := sortedOn_insertSlot (fun b : Breakpoint => b.address.toNat) h.sorted
    (h.closest b.address) fun hlt heq => hnew hlt (UInt32.toNat_inj.mp heq)
  room := Nat.succ_le_of_lt (lt_of_le_of_ne h.room hroom)
  used i hi := by
    have hle := (h.closest b.address).le
    show (insertSlot ctx.breakpoints _ _ b i).instructionSize ≠ 0
    dsimp only at hi
    rw [insertSlot_apply]
    split_ifs with hid hshift
    · exact hsize
    · exact h.used (i - 1) (by omega)
    · exact h.used i (by omega)
  unused i hi := by
    have hle := (h.closest b.address).le
    show insertSlot ctx.breakpoints _ _ b i = _
    dsimp only at hi
    rw [insertSlot_apply, if_neg (by omega), if_neg (by omega)]
    exact h.unused i (by omega)

theorem remove (h : TableInv ctx) {id : ℕ} {memory : Memory} {added : List Breakpoint}
    (hid : id < ctx.nbBreakpoints) :
    TableInv ⟨memory, Function.update (removeSlot ctx.breakpoints ctx.nbBreakpoints id)
      (ctx.nbBreakpoints - 1) Breakpoint.zeroed, ctx.nbBreakpoints - 1, added⟩ where
  sorted i j hij hj := by
    have hsorted := sortedOn_removeSlot (fun b : Breakpoint => b.address.toNat) h.sorted hid
    dsimp only at hj
    unfold GdbContext.addressAt
    dsimp only
    rw [Function.update_of_ne (hij.trans hj).ne, Function.update_of_ne hj.ne]
    exact hsorted i j hij hj
  room := (Nat.sub_le _ 1).trans h.room
  used i hi := by
    dsimp only at hi ⊢
    rw [Function.update_of_ne hi.ne, removeSlot_apply _ hid]
    split_ifs with hshift
    · exact h.used (i + 1) (by omega)
    · exact h.used i (by omega)
  unused i hi := by
    dsimp only at hi
    show Function.update _ _ _ i = _
    rcases Nat.eq_or_lt_of_le hi with rfl | hlt
    · exact Function.update_self _ _ _
    · rw [Function.update_of_ne hlt.ne', removeSlot_apply _ hid, if_neg (by omega)]
      exact h.unused i (by omega)

theorem closed (h : TableInv ctx) (address : UInt32) :
    Function.update (removeSlot (shiftUp (gdbFindClosestBreakpointSlot ctx address)
      ctx.nbBreakpoints ctx.breakpoints) (ctx.nbBreakpoints + 1)
      (gdbFindClosestBreakpointSlot ctx address)) ctx.nbBreakpoints Breakpoint.zeroed =
    ctx.breakpoints := by
  have hle := (h.closest address).le
  funext i
  rcases Nat.lt_trichotomy i ctx.nbBreakpoints with hlt | rfl | hgt
  · exact closed_slot hle hlt _
  · rw [Function.update_self, h.unused _ le_rfl]
  · rw [Function.update_of_ne hgt.ne', removeSlot_apply _ (Nat.lt_succ_of_le hle),
      if_neg (by omega), shiftUp_apply, if_neg (by omega)]

end TableInv

section Steps
variable {ctx : GdbContext} {address : UInt32}

theorem gdbAddBreakpoint_cases (h : TableInv ctx) (readable writable thumb persist : Bool) :
    TableInv (gdbAddBreakpoint readable writable ctx address thumb persist).2 ∧
      ((gdbAddBreakpoint readable writable ctx address thumb persist).1 < 0 →
        (gdbAddBreakpoint readable writable ctx address thumb persist).2 = ctx) := by
  rw [gdbAddBreakpoint]
  split
  · exact ⟨h, fun _ => rfl⟩
  · dsimp only
    split
    · exact ⟨h, fun _ => rfl⟩
    · next hfound =>
      split
      · exact ⟨h, fun _ => rfl⟩
      · next hroom =>
        split
        · refine ⟨?_, fun hneg => absurd hneg (lt_irrefl 0)⟩
          refine h.insert (b := ⟨address &&& ~~~1, _, _, persist⟩) ?_ hroom fun hlt heq => ?_
          · cases thumb
            · exact Nat.succ_ne_zero 3
            · exact Nat.succ_ne_zero 1
          · exact hfound ⟨hlt.ne, h.used _ hlt, heq⟩
        · rw [h.closed]
          exact ⟨h, fun _ => rfl⟩

theorem gdbRemoveBreakpoint_table (h : TableInv ctx) (writable : Bool) :
    TableInv (gdbRemoveBreakpoint writable ctx address).2 := by
  rw [gdbRemoveBreakpoint]
  split
  · exact h
  · next hfound =>
    rw [not_or] at hfound
    split
    · exact h.remove (lt_of_le_of_ne (h.closest (address &&& ~~~1)).le hfound.1)
    · exact h

theorem breakpointStep_table {ctx' : GdbContext} {call : BreakpointCall} (h : TableInv ctx)
    (hstep : breakpointStep ctx call = some ctx') :
    TableInv ctx' ∧ (FailedAdd ctx call → ctx' = ctx) := by
  cases call with
  | add address thumb persist readable writable =>
    obtain rfl := Option.some.inj hstep
    exact gdbAddBreakpoint_cases h readable writable thumb persist
  | remove address writable =>
    obtain rfl := Option.some.inj hstep
    exact ⟨gdbRemoveBreakpoint_table h writable, False.elim⟩

end Steps

/-- The table is in order after any additions and removals, and an addition that fails changes
neither the table nor the memory of the program. -/
theorem breakpointTable (memory : Memory) (calls : List BreakpointCall) :
    TableLaw (GdbContext.attached memory) ∧
      Runs.AllSteps breakpointStep
        (fun ctx call ctx' => TableLaw ctx' ∧ (FailedAdd ctx call → ctx' = ctx))
        (GdbContext.attached memory) calls := by
  refine ⟨(TableInv.of_attached memory).tableLaw, ?_⟩
  refine Runs.allSteps_of_invariant (I := TableInv) (fun ctx call ctx' h hstep => ?_)
    (TableInv.of_attached memory) calls
  obtain ⟨h', hfailed⟩ := breakpointStep_table h hstep
  exact ⟨h', h'.tableLaw, hfailed⟩

end Presence3DS.Gdb
