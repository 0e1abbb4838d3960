import Presence3DS.Cheats.Boundaries

/-! The conditionals of the cheat interpreter against a structured one, which keeps the conditionals
that enclose a line as a list of their values. -/

namespace Presence3DS.Cheats
open Loops

variable {W : Type}

/-- A console over a memory that nothing but the cheat changes. -/
structure QuietConsole (W : Type) extends Console W where
  query_quiet : ∀ w address, (svcQueryDebugProcessMemory w address).2 = w
  read_quiet : ∀ w address n, (svcReadProcessMemory w address n).2 = w
  pad_quiet : ∀ w, (hidPad w).2 = w
  touch_quiet : ∀ w, (hidTouchRead w).2 = w

/-! ## The structured interpreter -/

/-- The conditionals that enclose the line, the innermost one first, with their values. -/
structure StructuredState (W : Type) where
  index : ℕ
  conditions : List Bool
  data : CheatData W

namespace StructuredState

def active (s : StructuredState W) : Bool := s.conditions.all id

def advance (s : StructuredState W) : StructuredState W := { s with index := s.index + 1 }

/-- A code that fails ends the cheat. -/
def after {α : Type} (s : StructuredState W) (x : CheatM W α)
    (k : α → CheatData W → StructuredState W) : Pass (StructuredState W) (ℕ × CheatData W) :=
  match (x.run s.data : Option α × CheatData W) with
  | (some a, d) => .next (k a d).advance
  | (none, d) => .done (0, d)

end StructuredState

/-- Byte `k` of the operand lines from `line` on. -/
def operandByte (cheat : Cheat) (line k : ℕ) : BitVec 32 :=
  ((cheat.codes (line + k / 8) >>> typeEMapping.getD (k % 8) 0).setWidth 8).setWidth 32

def writeOperands (c : Console W) (cheat : Cheat) (line : ℕ) (beginOffset : BitVec 32) :
    ℕ → ℕ → CheatM W Unit
  | 0, _ => pure ()
  | n + 1, k => do
    cheatWrite8 c (beginOffset + BitVec.ofNat 32 k) (operandByte cheat line k)
    writeOperands c cheat line beginOffset n (k + 1)

open StructuredState in
/-- A code takes effect where every conditional that encloses it is true; conditionals are counted
and ended everywhere. Loops and searches are not among these cheats. -/
def structuredCode (c : Console W) (cheat : Cheat) (s : StructuredState W) :
    CheatCode W → Pass (StructuredState W) (ℕ × CheatData W)
  | .plain effect | .register effect =>
    if s.active then s.after effect fun _ d => { s with data := d } else .next s.advance
  | .conditional newSkip =>
    if s.active then
      s.after newSkip fun b d => { s with conditions := (!b) :: s.conditions, data := d }
    else .next (advance { s with conditions := false :: s.conditions })
  | .endIf => .next (advance { s with conditions := s.conditions.tail })
  | .endAll =>
    .next (advance { s with conditions := [], data := CheatState.clearActive s.data })
  | .ret => .next (advance (if s.active then { s with index := cheat.codesCount } else s))
  | .writeLines beginOffset count =>
    if s.active then
      s.after (writeOperands c cheat (s.index + 1) beginOffset count.toNat 0) fun _ d =>
        { s with index := s.index + linesOf count.toNat, data := d }
    else .next (advance { s with index := s.index + linesOf count.toNat })
  | .stop => if s.active then .done (0, s.data) else .next s.advance
  | .endLoop | .nothing | .loop _ | .loopBreak | .search _ _ => .next s.advance

def structuredLine (c : Console W) (cheat : Cheat) (s : StructuredState W) :
    Pass (StructuredState W) (ℕ × CheatData W) :=
  if s.index < cheat.codesCount then structuredCode c cheat s (decode c (cheat.codes s.index))
  else .done (1, s.data)

def StructuredState.start (d : CheatData W) : StructuredState W :=
  ⟨0, [], (CheatState.start ⟨0, 0⟩ d).data⟩

/-! ## The cheats considered -/

def CheatCode.structured : CheatCode W → Bool
  | .loop _ | .loopBreak | .search _ _ => false
  | _ => true

/-- The conditionals that are open after the code. -/
def CheatCode.depthAfter (depth : ℕ) : CheatCode W → ℕ
  | .conditional _ => depth + 1
  | .endIf => depth - 1
  | .endAll => 0
  | _ => depth

/-- The conditionals that are open before the code at start `n`. -/
def depthAt (c : Console W) (cheat : Cheat) : ℕ → ℕ
  | 0 => 0
  | n + 1 => (decode c (cheat.codes (starts c cheat n))).depthAfter (depthAt c cheat n)

/-- At most 255 lines, no loop, loop break or search, and conditionals at most 32 deep. -/
def isStructured (c : Console W) (cheat : Cheat) : Bool :=
  decide (cheat.codesCount ≤ 255) && (List.range cheat.codesCount).all fun n =>
    decide (cheat.codesCount ≤ starts c cheat n) ||
      ((decode c (cheat.codes (starts c cheat n))).structured &&
        decide (depthAt c cheat (n + 1) ≤ 32))

/-- What stands while lines are skipped is none of the codes that end the cheat or change registers
all the same, and no conditional whose access fails; a type E stays within 256 lines. -/
def skipsCleanly (c : Console W) (cheat : Cheat) (s : CheatState W) : Bool :=
  match decode c (cheat.codes s.index) with
  | .register _ | .stop => !s.skipExecution
  | .conditional newSkip =>
    !s.skipExecution || (newSkip.run s.data : Option Bool × CheatData W).1.isSome
  | .writeLines _ count => decide (s.index + linesOf count.toNat ≤ 255)
  | _ => true


/-! ## Conditionals only read -/

/-- The code leaves the data as it is. -/
def ReadsOnly {α : Type} (x : CheatM W α) : Prop :=
  ∀ d, (x.run d : Option α × CheatData W).2 = d

section ReadsOnly
variable {α β : Type} {x : CheatM W α} {f : α → CheatM W β}

theorem readsOnly_pure (a : α) : ReadsOnly (pure a : CheatM W α) := fun _ => rfl

theorem readsOnly_failure : ReadsOnly (failure : CheatM W α) := fun _ => rfl

theorem readsOnly_get : ReadsOnly (get : CheatM W (CheatData W)) := fun _ => rfl

theorem ReadsOnly.bind (hx : ReadsOnly x) (hf : ∀ a, ReadsOnly (f a)) : ReadsOnly (x >>= f) := by
  intro d
  rw [run_bind]
  have hd := hx d
  rcases h : (x.run d : Option α × CheatData W) with ⟨_ | a, d'⟩
  · rw [h] at hd
    exact hd
  · rw [h] at hd
    cases hd
    exact hf a d'

theorem readsOnly_access {f : W → α × W} (hf : ∀ w, (f w).2 = w) : ReadsOnly (access f) := by
  intro d
  show { d with world := (f d.world).2 } = d
  rw [hf]

theorem readsOnly_activeOffset : ReadsOnly (activeOffset : CheatM W (BitVec 32)) :=
  readsOnly_get.bind fun _ => readsOnly_pure _

theorem readsOnly_activeData : ReadsOnly (activeData : CheatM W (BitVec 32)) :=
  readsOnly_get.bind fun _ => readsOnly_pure _

theorem readsOnly_activeStorage : ReadsOnly (activeStorage : CheatM W (BitVec 32)) :=
  readsOnly_get.bind fun _ => readsOnly_pure _

end ReadsOnly

section Quiet
variable (c : QuietConsole W)

theorem readsOnly_isValidAddress (address size : BitVec 32) :
    ReadsOnly (cheatIsValidAddress c.toConsole address size) :=
  (readsOnly_access (c.query_quiet · address)).bind fun _ => readsOnly_pure _

theorem readsOnly_cheatRead (n : ℕ) (offset : BitVec 32) :
    ReadsOnly (cheatRead c.toConsole n offset) := by
  apply readsOnly_activeOffset.bind
  intro base
  dsimp only
  split_ifs
  · exact readsOnly_get.bind fun _ => readsOnly_pure _
  · apply (readsOnly_isValidAddress c _ _).bind
    intro valid
    split_ifs
    · apply (readsOnly_access fun w => c.read_quiet w _ n).bind
      intro r
      split_ifs
      · exact readsOnly_failure.bind fun _ => readsOnly_pure _
      · exact readsOnly_pure _
    · exact readsOnly_failure

theorem readsOnly_conditional32 (holds : BitVec 32 → BitVec 32 → Bool) (arg0 arg1 : BitVec 32) :
    ReadsOnly (conditional32 c.toConsole holds arg0 arg1) := by
  apply readsOnly_get.bind
  intro s
  split
  · exact (readsOnly_cheatRead c 4 _).bind fun _ => readsOnly_pure _
  · exact (readsOnly_cheatRead c 4 _).bind fun _ => readsOnly_activeData.bind fun _ => readsOnly_pure _
  · exact readsOnly_activeData.bind fun _ => readsOnly_pure _
  · exact readsOnly_activeStorage.bind fun _ => readsOnly_pure _
  · exact readsOnly_activeData.bind fun _ => readsOnly_activeStorage.bind fun _ => readsOnly_pure _
  · exact readsOnly_failure

theorem readsOnly_conditional16 (holds : BitVec 32 → BitVec 32 → Bool) (arg0 arg1 : BitVec 32) :
    ReadsOnly (conditional16 c.toConsole holds arg0 arg1) := by
  apply readsOnly_get.bind
  intro s
  split
  · exact (readsOnly_cheatRead c 2 _).bind fun _ => readsOnly_pure _
  · exact (readsOnly_cheatRead c 2 _).bind fun _ => readsOnly_activeData.bind fun _ => readsOnly_pure _
  · exact readsOnly_activeData.bind fun _ => readsOnly_pure _
  · exact readsOnly_activeStorage.bind fun _ => readsOnly_pure _
  · exact readsOnly_activeData.bind fun _ => readsOnly_activeStorage.bind fun _ => readsOnly_pure _
  · exact readsOnly_failure

theorem readsOnly_keyConditional (arg1 : BitVec 32) :
    ReadsOnly (keyConditional c.toConsole arg1) := by
  unfold keyConditional
  split_ifs
  · exact readsOnly_pure _
  · exact (readsOnly_access c.pad_quiet).bind fun _ => readsOnly_pure _

theorem readsOnly_touchConditional (codeArg : ℕ) (arg1 : BitVec 32) :
    ReadsOnly (touchConditional c.toConsole codeArg arg1) := by
  apply (readsOnly_access c.touch_quiet).bind
  rintro ⟨px, py⟩
  dsimp only
  split
  · exact readsOnly_pure _
  · exact readsOnly_pure _
  · exact readsOnly_failure

/-- A conditional leaves the data as it is. -/
def CheatCode.Quiet : CheatCode W → Prop
  | .conditional newSkip => ReadsOnly newSkip
  | _ => True

theorem decodeC_quiet (subcode : ℕ) (arg1 : BitVec 32) :
    (decodeC subcode arg1 : CheatCode W).Quiet := by
  unfold decodeC
  split <;> trivial

theorem decodeD_quiet (subcode codeArg : ℕ) (arg1 : BitVec 32) :
    (decodeD c.toConsole subcode codeArg arg1).Quiet := by
  unfold decodeD
  split
  case h_1 | h_3 => split_ifs <;> trivial
  case h_14 => exact readsOnly_keyConditional c arg1
  case h_15 => exact readsOnly_touchConditional c codeArg arg1
  all_goals trivial

theorem decodeF_quiet (subcode : ℕ) (arg0 arg1 : BitVec 32) :
    (decodeF c.toConsole subcode arg0 arg1).Quiet := by
  unfold decodeF
  split_ifs
  · trivial
  · split <;> trivial

theorem decode_quiet (line : BitVec 64) : (decode c.toConsole line).Quiet := by
  unfold decode
  dsimp only
  split_ifs
  · trivial
  · split
    case h_4 | h_5 | h_6 | h_7 => exact readsOnly_conditional32 c _ _ _
    case h_8 | h_9 | h_10 | h_11 => exact readsOnly_conditional16 c _ _ _
    case h_13 => exact decodeC_quiet _ _
    case h_14 => exact decodeD_quiet c _ _ _
    case h_16 => exact decodeF_quiet c _ _ _
    all_goals trivial

end Quiet

/-! ## The operand lines of a type E -/

theorem typeE_byte (cheat : Cheat) {line k count : ℕ} (hwithin : line + linesOf count ≤ 255)
    (hk : k < count) :
    (TypeE.next^[k + 1] ⟨BitVec.ofNat 8 line, 7⟩).byte cheat = operandByte cheat (line + 1) k := by
  rw [linesOf_eq] at hwithin
  have hline : (line + (k + 1 + 7) / 8) % 2 ^ 8 = line + 1 + k / 8 := by omega
  have hidx : (k + 1 + 7) % 8 = k % 8 := by omega
  rw [typeE_iterate, TypeE.byte, ← BitVec.ofNat_add, BitVec.toNat_ofNat, hline, hidx]
  rfl

theorem writeLines_run (c : Console W) (cheat : Cheat) (off : BitVec 32) {line count n k : ℕ}
    (hwithin : line + linesOf count ≤ 255) (hk : k + n = count) (d : CheatData W) :
    (writeLines c cheat false off n k (TypeE.next^[k] ⟨BitVec.ofNat 8 line, 7⟩)).run d =
      match ((writeOperands c cheat (line + 1) off n k).run d : Option Unit × CheatData W) with
      | (some _, d') => (some (TypeE.next^[count] ⟨BitVec.ofNat 8 line, 7⟩), d')
      | (none, d') => (none, d') := by
  induction n generalizing k d with
  | zero =>
    cases hk
    rfl
  | succ n ih =>
    rw [writeLines, writeOperands, Bool.not_false, if_pos rfl, run_bind, run_bind,
      ← Function.iterate_succ_apply' TypeE.next, typeE_byte cheat hwithin (by omega)]
    rcases ((cheatWrite8 c (off + BitVec.ofNat 32 k) (operandByte cheat (line + 1) k)).run d :
      Option Unit × CheatData W) with ⟨_ | u, d'⟩
    · rfl
    · exact ih (by omega) d'

/-! ## The stack of bits and the list of conditionals -/

/-- Bit `k` of the stack says that a conditional from the `k`-th on is false, and the counter is the
number of the conditionals. -/
structure StackOf (ifStack : BitVec 32) (ifCount : BitVec 8) (conditions : List Bool) : Prop where
  bits : ∀ k, k < 32 → ifStack.getLsbD k = !(conditions.drop k).all id
  count : ifCount.toNat = conditions.length
  depth : conditions.length ≤ 32

section Stack
variable {ifStack : BitVec 32} {ifCount : BitVec 8} {conditions : List Bool}

theorem StackOf.nil : StackOf 0 0 [] := by
  refine ⟨fun k _ => ?_, rfl, Nat.zero_le _⟩
  rw [List.drop_nil]
  exact BitVec.getLsbD_zero

theorem StackOf.skip (h : StackOf ifStack ifCount conditions) :
    ifStack.getLsbD 0 = !conditions.all id := h.bits 0 (by decide)

theorem StackOf.push (h : StackOf ifStack ifCount conditions) (v : Bool)
    (hdepth : conditions.length + 1 ≤ 32) :
    StackOf (ifStack <<< 1 ||| if !v || ifStack.getLsbD 0 then 1 else 0) (ifCount + 1)
      (v :: conditions) := by
  have hone : (1 : BitVec 8).toNat = 1 := rfl
  refine ⟨fun k hk => ?_, ?_, hdepth⟩
  · rw [BitVec.getLsbD_or, BitVec.getLsbD_shiftLeft, h.skip, decide_eq_true hk, Bool.true_and]
    cases k with
    | zero =>
      rw [List.drop_zero, List.all_cons, getLsbD_lowest_zero]
      exact (Bool.not_and v (conditions.all id)).symm
    | succ k =>
      rw [List.drop_succ_cons, ← h.bits k (by omega), getLsbD_lowest_succ, Bool.or_false]
      rfl
  · rw [BitVec.toNat_add, h.count, List.length_cons]
    omega

theorem StackOf.pop (h : StackOf ifStack ifCount conditions) (hpos : 0 < conditions.length) :
    StackOf (ifStack >>> 1) (ifCount - 1) conditions.tail := by
  have hdepth := h.depth
  have hone : (1 : BitVec 8).toNat = 1 := rfl
  refine ⟨fun k hk => ?_, ?_, ?_⟩
  · rw [BitVec.getLsbD_ushiftRight, ← List.drop_one, List.drop_drop]
    by_cases hlast : 1 + k < 32
    · exact h.bits _ hlast
    · rw [BitVec.getLsbD_of_ge _ _ (not_lt.mp hlast), List.drop_eq_nil_of_le (by omega)]
      rfl
  · rw [BitVec.toNat_sub, h.count, List.length_tail]
    omega
  · rw [List.length_tail]
    omega

end Stack


/-! ## The simulation -/

/-- The interpreter stands where the structured one does, with the same conditionals. -/
structure Simulates (c : Console W) (cheat : Cheat) (s : CheatState W) (t : StructuredState W) :
    Prop where
  index : s.index = t.index
  data : s.data = t.data
  stack : StackOf s.ifStack s.ifCount t.conditions
  loopLine : s.loopLine = -1
  loopCount : s.loopCount = 0
  place : cheat.codesCount ≤ t.index ∨
    ∃ n, starts c cheat n = t.index ∧ depthAt c cheat n = t.conditions.length

theorem agree_after {α : Type} {R : CheatState W → StructuredState W → Prop} {s : CheatState W}
    {t : StructuredState W} (hdata : s.data = t.data) (x : CheatM W α)
    {k : α → CheatData W → CheatState W} {k' : α → CheatData W → StructuredState W}
    (hk : ∀ a d, (x.run s.data : Option α × CheatData W) = (some a, d) →
      R (k a d).advance (k' a d).advance) :
    PassesAgree R (s.after x k) (t.after x k') := by
  unfold CheatState.after StructuredState.after
  rw [← hdata]
  rcases h : (x.run s.data : Option α × CheatData W) with ⟨_ | a, d⟩
  · rfl
  · exact hk a d h

section Step
variable {c : Console W} {cheat : Cheat} {s : CheatState W} {t : StructuredState W}

theorem Simulates.skipExecution (h : Simulates c cheat s t) : s.skipExecution = !t.active :=
  h.stack.skip

theorem Simulates.structured (h : Simulates c cheat s t) (hstructured : isStructured c cheat = true)
    (hindex : s.index < cheat.codesCount) :
    (decode c (cheat.codes s.index)).structured = true ∧
      (decode c (cheat.codes s.index)).depthAfter t.conditions.length ≤ 32 ∧
      ∃ n, starts c cheat (n + 1) =
          s.index + 1 + (decode c (cheat.codes s.index)).operandLines ∧
        depthAt c cheat (n + 1) =
          (decode c (cheat.codes s.index)).depthAfter t.conditions.length := by
  rw [h.index] at hindex ⊢
  obtain ⟨n, hstart, hdepth⟩ := h.place.resolve_left (not_le.mpr hindex)
  have hnext : starts c cheat (n + 1) =
      t.index + 1 + (decode c (cheat.codes t.index)).operandLines := by
    rw [starts, nextStart, hstart]
  have hdepthNext : depthAt c cheat (n + 1) =
      (decode c (cheat.codes t.index)).depthAfter t.conditions.length := by
    rw [depthAt, hstart, hdepth]
  have hle : n ≤ t.index := hstart ▸ (starts_strictMono c cheat).le_apply
  obtain ⟨-, hall⟩ := Bool.and_eq_true_iff.mp hstructured
  have hn := List.all_eq_true.mp hall n (List.mem_range.mpr (hle.trans_lt hindex))
  rw [hstart, decide_eq_false (not_le.mpr hindex), Bool.false_or] at hn
  obtain ⟨hcode, hdeep⟩ := Bool.and_eq_true_iff.mp hn
  exact ⟨hcode, hdepthNext ▸ of_decide_eq_true hdeep, n, hnext, hdepthNext⟩

theorem Simulates.next {s' : CheatState W} {t' : StructuredState W} {operands depth n : ℕ}
    (hstart : starts c cheat (n + 1) = s.index + 1 + operands)
    (hdepth : depthAt c cheat (n + 1) = depth)
    (hindex : s'.index = s.index + operands) (hindex' : t'.index = s'.index)
    (hdata : s'.data = t'.data) (hstack : StackOf s'.ifStack s'.ifCount t'.conditions)
    (hloop : s'.loopLine = -1 ∧ s'.loopCount = 0) (hlength : t'.conditions.length = depth) :
    Simulates c cheat s'.advance t'.advance := by
  refine ⟨?_, hdata, hstack, hloop.1, hloop.2, .inr ⟨n + 1, ?_, hdepth.trans hlength.symm⟩⟩
  · exact congrArg (· + 1) hindex'.symm
  · show starts c cheat (n + 1) = t'.index + 1
    rw [hstart, hindex', hindex, Nat.add_right_comm]

end Step

theorem Simulates.step {c : QuietConsole W} {cheat : Cheat} {s : CheatState W}
    {t : StructuredState W} (h : Simulates c.toConsole cheat s t)
    (hstructured : isStructured c.toConsole cheat = true)
    (hclean : skipsCleanly c.toConsole cheat s = true) :
    PassesAgree (Simulates c.toConsole cheat) (applyLine c.toConsole cheat s)
      (structuredLine c.toConsole cheat t) := by
  have hskip := h.skipExecution
  have hloop : s.loopLine = -1 ∧ s.loopCount = 0 := ⟨h.loopLine, h.loopCount⟩
  unfold applyLine structuredLine
  rw [← h.index]
  by_cases hindex : s.index < cheat.codesCount
  · rw [if_pos hindex, if_pos hindex]
    obtain ⟨hcode, hdeep, n, hstart, hdepth⟩ := h.structured hstructured hindex
    have hquiet := decode_quiet c (cheat.codes s.index)
    unfold skipsCleanly at hclean
    generalize decode c.toConsole (cheat.codes s.index) = code at *
    cases code with
    | plain effect =>
      rw [applyCode, structuredCode, hskip]
      cases hactive : t.active
      · exact .next hstart hdepth rfl h.index.symm h.data h.stack hloop rfl
      · apply agree_after h.data
        intro a d _
        exact .next hstart hdepth rfl h.index.symm rfl h.stack hloop rfl
    | register effect =>
      rw [hskip, Bool.not_not] at hclean
      rw [applyCode, structuredCode, if_pos hclean]
      apply agree_after h.data
      intro a d _
      exact .next hstart hdepth rfl h.index.symm rfl h.stack hloop rfl
    | conditional newSkip =>
      rw [applyCode, structuredCode]
      cases hactive : t.active
      · rw [hactive, Bool.not_false] at hskip
        have hclean : (newSkip.run s.data : Option Bool × CheatData W).1.isSome = true := by
          rw [hskip] at hclean
          exact hclean
        have hread : (newSkip.run s.data : Option Bool × CheatData W).2 = s.data := hquiet s.data
        unfold CheatState.after
        rcases hrun : (newSkip.run s.data : Option Bool × CheatData W) with ⟨_ | b, d⟩
        · rw [hrun] at hclean
          cases hclean
        · rw [hrun] at hread
          cases hread
          have hpush : StackOf (s.ifStack <<< 1 ||| if b || s.skipExecution then 1 else 0)
              (s.ifCount + 1) (false :: t.conditions) := by
            rw [hskip, Bool.or_true]
            exact h.stack.push false hdeep
          exact .next hstart hdepth rfl h.index.symm h.data hpush hloop rfl
      · apply agree_after h.data
        intro b d _
        have hpush := h.stack.push (!b) hdeep
        rw [Bool.not_not] at hpush
        exact .next hstart hdepth rfl h.index.symm rfl hpush hloop rfl
    | endIf =>
      rw [applyCode, structuredCode, CheatState.endIf, if_neg (not_not.mpr h.loopLine)]
      by_cases hpos : 0 < t.conditions.length
      · rw [if_pos (BitVec.lt_def.mpr (h.stack.count ▸ hpos))]
        exact .next hstart hdepth rfl h.index.symm h.data (h.stack.pop hpos) hloop List.length_tail
      · have hnil : t.conditions = [] := List.length_eq_zero_iff.mp (Nat.eq_zero_of_not_pos hpos)
        have hstack := h.stack
        have hnone : ¬ 0 < s.ifCount := by
          rw [BitVec.lt_def, h.stack.count]
          exact hpos
        rw [if_neg hnone, hnil]
        rw [hnil] at hstack hdepth
        exact .next hstart hdepth rfl h.index.symm h.data hstack hloop rfl
    | endLoop =>
      rw [applyCode, structuredCode, CheatState.endLoop, if_neg h.loopCount.not_gt]
      exact .next hstart hdepth rfl h.index.symm h.data h.stack hloop rfl
    | endAll =>
      rw [applyCode, structuredCode, CheatState.endAll, if_neg h.loopCount.not_gt]
      have hdata := congrArg CheatState.clearActive h.data
      exact .next hstart hdepth rfl h.index.symm hdata StackOf.nil hloop rfl
    | ret =>
      rw [applyCode, structuredCode, hskip]
      cases hactive : t.active
      · exact .next hstart hdepth rfl h.index.symm h.data h.stack hloop rfl
      · exact ⟨rfl, h.data, h.stack, h.loopLine, h.loopCount, .inl (Nat.le_succ _)⟩
    | nothing => exact .next hstart hdepth rfl h.index.symm h.data h.stack hloop rfl
    | writeLines off count =>
      have hwithin : s.index + linesOf count.toNat ≤ 255 := of_decide_eq_true hclean
      have hline := typeE_line s.index count.toNat
      have hafter : lineAfter s.index count.toNat = s.index + linesOf count.toNat + 1 := by
        rw [lineAfter]
        omega
      have hplace := Nat.succ_injective (hline.trans hafter)
      rw [applyCode, structuredCode, hskip, ← h.index]
      cases hactive : t.active
      · unfold CheatState.after
        rw [Bool.not_false, writeLines_skipped]
        exact .next hstart hdepth hplace hplace.symm h.data h.stack hloop rfl
      · unfold CheatState.after StructuredState.after
        have hrun := writeLines_run c.toConsole cheat off hwithin (Nat.zero_add _) s.data
        rw [Function.iterate_zero_apply] at hrun
        rw [Bool.not_true, hrun, ← h.data]
        rcases ((writeOperands c.toConsole cheat (s.index + 1) off count.toNat 0).run s.data :
          Option Unit × CheatData W) with ⟨_ | u, d⟩
        · rfl
        · exact .next hstart hdepth hplace hplace.symm rfl h.stack hloop rfl
    | stop =>
      rw [hskip, Bool.not_not] at hclean
      rw [applyCode, structuredCode, if_pos hclean, h.data]
      rfl
    | loop count => cases hcode
    | loopBreak => cases hcode
    | search searchSize size => cases hcode
  · rw [if_neg hindex, if_neg hindex, h.data]
    rfl

theorem simulates_start (c : Console W) (cheat : Cheat) (e : TypeE) (d : CheatData W) :
    Simulates c cheat (.start e d) (.start d) :=
  ⟨rfl, rfl, StackOf.nil, rfl, rfl, .inr ⟨0, rfl, rfl⟩⟩

/-- The line is the same, with the same data, and it is skipped in both or in neither. -/
structure SameLine (s : CheatState W) (t : StructuredState W) : Prop where
  index : s.index = t.index
  data : s.data = t.data
  skipped : s.skipExecution = !t.active

/-- A cheat runs as the structured interpreter runs it, line by line and to the same result. -/
theorem conditionals_structured (c : QuietConsole W) (cheat : Cheat) (e : TypeE) (d : CheatData W)
    (hstructured : isStructured c.toConsole cheat = true)
    (h : Guarded (applyLine c.toConsole cheat) (fun s => skipsCleanly c.toConsole cheat s = true)
      (.start e d)) :
    (∀ s, Reaches (applyLine c.toConsole cheat) (.start e d) s →
      ∃ t, Reaches (structuredLine c.toConsole cheat) (.start d) t ∧ SameLine s t) ∧
      ∀ result, ApplyCheat c.toConsole cheat e d result ↔
        Returns (structuredLine c.toConsole cheat) (.start d) result := by
  have hstep (s : CheatState W) (t : StructuredState W) (hs : Simulates c.toConsole cheat s t)
      (hclean : skipsCleanly c.toConsole cheat s = true) :=
    hs.step hstructured hclean
  have hstart := simulates_start c.toConsole cheat e d
  constructor
  · intro s hs
    obtain ⟨t, ht, hst⟩ := PassesAgree.reaches hstep hstart h hs
    exact ⟨t, ht, hst.index, hst.data, hst.skipExecution⟩
  · exact fun result => PassesAgree.returns_iff hstep hstart h

/-! ### Registers that change while lines are skipped -/

def quietConsole : QuietConsole (BitVec 32) where
  toConsole := emptyConsole
  query_quiet _ _ := rfl
  read_quiet _ _ _ := rfl
  pad_quiet _ := rfl
  touch_quiet _ := rfl

/-- A write between two conditionals, of which one is never closed. -/
def nestedCheat : Cheat :=
  cheatOf [0xD300000001E81000, 0xDD00000000000001, 0x0000000000000001, 0xDD00000000000002,
    0x0000000400000002, 0xD000000000000000, 0xD200000000000000, 0xE1E8100800000003,
    0x1122334455667788] (by decide)

theorem conditionals_structured_nested :
    (∀ s, Reaches (applyLine quietConsole.toConsole nestedCheat)
        (.start ⟨0, 0⟩ (emptyData 1)) s →
      ∃ t, Reaches (structuredLine quietConsole.toConsole nestedCheat)
        (.start (emptyData 1)) t ∧ SameLine s t) ∧
      ∀ result, ApplyCheat quietConsole.toConsole nestedCheat ⟨0, 0⟩ (emptyData 1) result ↔
        Returns (structuredLine quietConsole.toConsole nestedCheat) (.start (emptyData 1)) result :=
  conditionals_structured quietConsole nestedCheat ⟨0, 0⟩ (emptyData 1) (by decide +kernel)
    (guarded_of_guards (n := 40) (by decide +kernel))

/-- The second offset is selected where a key is pressed, and a word is written. -/
def selectingCheat : Cheat :=
  cheatOf [0xD300000001E81000, 0xD300000101E81100, 0xDD00000000000001, 0xDF00000000000001,
    0xD000000000000000, 0x0000000000000001] (by decide)

theorem skipped_register_code_acts : ¬∀ (W : Type) (c : QuietConsole W) (cheat : Cheat) (e : TypeE)
    (d : CheatData W), isStructured c.toConsole cheat = true → ∀ result,
      ApplyCheat c.toConsole cheat e d result ↔
        Returns (structuredLine c.toConsole cheat) (.start d) result := by
  intro h
  have hsame := h (BitVec 32) quietConsole selectingCheat ⟨0, 0⟩ (emptyData 0) (by decide +kernel)
  obtain ⟨s, hs, hdone, hword⟩ : ∃ s, stateAfter (applyLine emptyConsole selectingCheat) 6
      (.start ⟨0, 0⟩ (emptyData 0)) = some s ∧
        applyLine emptyConsole selectingCheat s = .done (1, s.data) ∧ s.data.cheatPage 0 = 0 :=
    ⟨_, rfl, rfl, rfl⟩
  obtain ⟨t, ht, hdone', hword'⟩ : ∃ t, stateAfter (structuredLine emptyConsole selectingCheat) 6
      (.start (emptyData 0)) = some t ∧
        structuredLine emptyConsole selectingCheat t = .done (1, t.data) ∧
          t.data.cheatPage 0 = 1 :=
    ⟨_, rfl, rfl, rfl⟩
  have hresult := (hsame _).mp ⟨s, reaches_of_stateAfter hs, hdone⟩
  have hdata := Returns.unique hresult ⟨t, reaches_of_stateAfter ht, hdone'⟩
  rw [(Prod.mk.inj hdata).2, hword'] at hword
  exact absurd hword (by decide)

end Presence3DS.Cheats
