import Presence3DS.Cheats.Storage

/-! Which runs of the interpreter stay in its storage: those whose words and half words do not run
past the end of the address space, and whose operand lines are lines of the cheat. -/

namespace Presence3DS.Cheats
open Loops Traced

variable {W : Type}

/-! ## What the accesses of a line depend on -/

/-- The access does not run past the end of the address space. -/
def CheatData.Fits (d : CheatData W) (n : ℕ) (offset : BitVec 32) : Prop :=
  (d.address offset).toNat + n ≤ 2 ^ 32

instance (d : CheatData W) (n : ℕ) (offset : BitVec 32) : Decidable (d.Fits n offset) :=
  inferInstanceAs (Decidable (_ ≤ _))

/-! The bytes and the operand of the 16- and 32-bit accesses of a line. -/

def operandD (subcode codeArg : ℕ) (arg1 : BitVec 32) : Option (ℕ × BitVec 32) :=
  match subcode with
  | 0x6 | 0x9 => if codeArg ≤ 2 then some (4, arg1) else none
  | 0x7 | 0xA => if codeArg ≤ 2 then some (2, arg1) else none
  | _ => none

def operandF (subcode : ℕ) (arg0 : BitVec 32) : Option (ℕ × BitVec 32) :=
  match subcode with
  | 0x1 | 0x2 | 0x3 => some (4, arg0 &&& 0x00FFFFFF)
  | _ => none

/-- Of the codes that are left out while lines are skipped. -/
def plainOperand (line : BitVec 64) : Option (ℕ × BitVec 32) :=
  let arg0 := (line >>> 32).setWidth 32
  let arg1 := line.setWidth 32
  let subcode := (arg0 >>> 24 &&& 0x0F).toNat
  let codeArg := (arg0 &&& 0x0F).toNat
  match (arg0 >>> 28).toNat with
  | 0x0 | 0xB => some (4, arg0 &&& 0x0FFFFFFF)
  | 0x1 => some (2, arg0 &&& 0x0FFFFFFF)
  | 0xD => operandD subcode codeArg arg1
  | 0xF => operandF subcode arg0
  | _ => none

/-- Of the conditionals. -/
def comparedOperand (line : BitVec 64) (d : CheatData W) : Option (ℕ × BitVec 32) :=
  let arg0 := (line >>> 32).setWidth 32
  if d.conditionalMode.toNat ≤ 1 then
    match (arg0 >>> 28).toNat with
    | 0x3 | 0x4 | 0x5 | 0x6 => some (4, arg0 &&& 0x0FFFFFFF)
    | 0x7 | 0x8 | 0x9 | 0xA => some (2, arg0 &&& 0x0FFFFFFF)
    | _ => none
  else none

variable {c : Console W} {cheat : Cheat} {s : CheatState W} {d d' : CheatData W} {n : ℕ}
  {offset : BitVec 32}

theorem touched_inBounds (hn : 0 < n) (h : d.Fits n offset) :
    ∀ a ∈ touched n offset d, a.InBounds cheat := by
  intro a ha
  unfold touched inCheatPage at ha
  split_ifs at ha with hpage
  · obtain rfl := List.mem_singleton.mp ha
    unfold CheatData.Fits at h
    generalize d.address offset = addr at h hpage
    rw [Bool.and_eq_true, decide_eq_true_eq, decide_eq_true_eq, BitVec.le_def, BitVec.lt_def,
      BitVec.toNat_add, BitVec.toNat_ofNat, Nat.mod_eq_of_lt (show n - 1 < 2 ^ 32 by omega),
      Nat.mod_eq_of_lt (by omega)] at hpage
    show (addr - cheatPageStart).toNat + n ≤ 0x1000
    rw [BitVec.toNat_sub_of_le (BitVec.le_def.mpr hpage.1)]
    have hstart : cheatPageStart.toNat = 0x01E81000 := rfl
    have hend : cheatPageEnd.toNat = 0x01E82000 := rfl
    omega
  · exact absurd ha List.not_mem_nil

theorem follows_readT (hn : 0 < n) : Follows (Access.InBounds cheat) (fun d => d.Fits n offset)
    (cheatRead c n offset) (readT c n offset) :=
  follows_logged fun _ h => touched_inBounds hn h

theorem follows_writeT {value : BitVec 32} (hn : 0 < n) :
    Follows (Access.InBounds cheat) (fun d => d.Fits n offset) (cheatWrite c n offset value)
      (writeT c n offset value) :=
  follows_logged fun _ h => touched_inBounds hn h

theorem fits_one (d : CheatData W) (offset : BitVec 32) : d.Fits 1 offset :=
  (d.address offset).isLt

theorem follows_readT_one : Follows (Access.InBounds cheat) (fun _ => True)
    (cheatRead c 1 offset) (readT c 1 offset) :=
  (follows_readT Nat.one_pos).mono fun d _ => fits_one d offset

theorem follows_writeT_one {value : BitVec 32} : Follows (Access.InBounds cheat) (fun _ => True)
    (cheatWrite c 1 offset value) (writeT c 1 offset value) :=
  (follows_writeT Nat.one_pos).mono fun d _ => fits_one d offset

/-! ## The codes -/

theorem follows_quiet_bind {α β : Type} {P : CheatData W → Prop} {x : CheatM W α}
    {y : α → CheatM W β} {u : α → CheatT W β}
    (h : ∀ a, Follows (Access.InBounds cheat) (fun _ => True) (y a) (u a)) :
    Follows (Access.InBounds cheat) P (x >>= y) (quiet x >>= u) :=
  follows_quiet.bind h fun _ _ _ _ _ => trivial

theorem follows_failure {α : Type} {P : CheatData W → Prop} :
    Follows (Access.InBounds cheat) P (failure : CheatM W α) failure :=
  fun _ log => ⟨[], by rw [List.append_nil]; rfl, fun _ a ha => absurd ha List.not_mem_nil⟩

theorem follows_compared {mode : ℕ} {y : BitVec 32 → CheatM W Bool} {u : BitVec 32 → CheatT W Bool}
    (hn : 0 < n) (hmode : mode ≤ 1)
    (hrest : ∀ v, Follows (Access.InBounds cheat) (fun _ => True) (y v) (u v)) :
    Follows (Access.InBounds cheat)
      (fun d => (d.conditionalMode.toNat ≤ 1 → d.Fits n offset) ∧ d.conditionalMode.toNat = mode)
      (cheatRead c n offset >>= y) (readT c n offset >>= u) := by
  refine Follows.bind ((follows_readT hn).mono ?_) hrest fun _ _ _ _ _ => trivial
  rintro d ⟨hfits, rfl⟩
  exact hfits hmode

theorem follows_conditional32T (holds : BitVec 32 → BitVec 32 → Bool) (arg0 arg1 : BitVec 32) :
    Follows (Access.InBounds cheat)
      (fun d => d.conditionalMode.toNat ≤ 1 → d.Fits 4 (arg0 &&& 0x0FFFFFFF))
      (conditional32 c holds arg0 arg1) (conditional32T c holds arg0 arg1) := by
  unfold conditional32 conditional32T
  refine Follows.read_bind (f := fun d => d) (fun a => ?_) fun _ => rfl
  apply Follows.mono (P := fun d => (d.conditionalMode.toNat ≤ 1 →
    d.Fits 4 (arg0 &&& 0x0FFFFFFF)) ∧ d.conditionalMode.toNat = a.conditionalMode.toNat)
  · generalize a.conditionalMode.toNat = mode
    rcases mode with _ | _ | _ | _ | _ | mode
    · exact follows_compared (by decide) (by decide) fun _ => follows_pure _
    · exact follows_compared (by decide) (by decide) fun _ =>
        follows_quiet_bind fun _ => follows_pure _
    · exact follows_quiet_bind fun _ => follows_pure _
    · exact follows_quiet_bind fun _ => follows_pure _
    · exact follows_quiet_bind fun _ => follows_quiet_bind fun _ => follows_pure _
    · exact follows_failure
  · rintro d ⟨hfits, rfl⟩
    exact ⟨hfits, rfl⟩

theorem follows_conditional16T (holds : BitVec 32 → BitVec 32 → Bool) (arg0 arg1 : BitVec 32) :
    Follows (Access.InBounds cheat)
      (fun d => d.conditionalMode.toNat ≤ 1 → d.Fits 2 (arg0 &&& 0x0FFFFFFF))
      (conditional16 c holds arg0 arg1) (conditional16T c holds arg0 arg1) := by
  unfold conditional16 conditional16T
  refine Follows.read_bind (f := fun d => d) (fun a => ?_) fun _ => rfl
  apply Follows.mono (P := fun d => (d.conditionalMode.toNat ≤ 1 →
    d.Fits 2 (arg0 &&& 0x0FFFFFFF)) ∧ d.conditionalMode.toNat = a.conditionalMode.toNat)
  · generalize a.conditionalMode.toNat = mode
    rcases mode with _ | _ | _ | _ | _ | mode
    · exact follows_compared (by decide) (by decide) fun _ => follows_pure _
    · exact follows_compared (by decide) (by decide) fun _ =>
        follows_quiet_bind fun _ => follows_pure _
    · exact follows_quiet_bind fun _ => follows_pure _
    · exact follows_quiet_bind fun _ => follows_pure _
    · exact follows_quiet_bind fun _ => follows_quiet_bind fun _ => follows_pure _
    · exact follows_failure
  · rintro d ⟨hfits, rfl⟩
    exact ⟨hfits, rfl⟩

theorem follows_loadOffsetT (arg0 : BitVec 32) : Follows (Access.InBounds cheat)
    (fun d => d.Fits 4 (arg0 &&& 0x0FFFFFFF)) (loadOffset c arg0) (loadOffsetT c arg0) :=
  (follows_readT (by decide)).bind_quiet

theorem follows_loadDataT (hn : 0 < n) (codeArg : ℕ) (arg1 : BitVec 32) :
    Follows (Access.InBounds cheat) (fun d => codeArg ≤ 2 → d.Fits n arg1)
      (loadData c n codeArg arg1) (loadDataT c n codeArg arg1) := by
  unfold loadData loadDataT
  split_ifs with hcode
  · exact ((follows_readT hn).mono fun _ h => h hcode).bind_quiet
  · exact follows_pure _

theorem follows_storeDataT (hn : 0 < n) (codeArg : ℕ) (arg1 : BitVec 32) :
    Follows (Access.InBounds cheat) (fun d => codeArg ≤ 2 → d.Fits n arg1)
      (storeData c n codeArg arg1) (storeDataT c n codeArg arg1) := by
  unfold storeData storeDataT
  split_ifs with hcode
  · have hstore : ∀ (value : BitVec 32) (P : CheatData W → Prop),
        (∀ d, P d → d.Fits n arg1) →
        Follows (Access.InBounds cheat) P
          (cheatWrite c n arg1 value >>= fun _ => do
            setActiveOffset ((← activeOffset) + BitVec.ofNat 32 n))
          (writeT c n arg1 value >>= fun _ =>
            quiet (do setActiveOffset ((← activeOffset) + BitVec.ofNat 32 n))) :=
      fun value P hpre => ((follows_writeT hn).mono hpre).bind_quiet
    rcases codeArg with _ | _ | codeArg
    · refine Follows.read_bind (f := fun d => if d.activeData then d.data2 else d.data1)
        (fun value => ?_) fun _ => rfl
      exact hstore value _ fun d h => h.1 (by decide)
    · refine Follows.read_bind (f := fun d => d) (fun a => ?_) fun _ => rfl
      simp only [pure_bind]
      exact hstore a.data1 _ fun d h => h.1 (by decide)
    · refine Follows.read_bind (f := fun d => d) (fun a => ?_) fun _ => rfl
      simp only [pure_bind]
      exact hstore a.data2 _ fun d h => h.1 hcode
  · exact follows_pure _

theorem cheatRead_world {value : BitVec 32}
    (h : ((cheatRead c n offset).run d : Option (BitVec 32) × CheatData W) = (some value, d')) :
    ∃ world, d' = { d with world := world } := by
  obtain ⟨base, hactive⟩ : ∃ base, (activeOffset.run d : Option (BitVec 32) × CheatData W) =
      (some base, d) := ⟨_, rfl⟩
  unfold cheatRead at h
  rw [run_bind, hactive] at h
  simp only at h
  by_cases hpage : inCheatPage (base + offset) n = true
  · rw [if_pos hpage] at h
    cases h
    exact ⟨d.world, rfl⟩
  obtain ⟨valid, world, hvalid⟩ : ∃ valid world, ((cheatIsValidAddress c (base + offset)
    (BitVec.ofNat 32 n)).run d : Option Bool × CheatData W) =
      (some valid, { d with world := world }) := ⟨_, _, rfl⟩
  rw [if_neg hpage, run_bind, hvalid] at h
  cases valid
  · cases h
  · simp only [if_true] at h
    obtain ⟨result, world', hread⟩ : ∃ result world', ((access fun w =>
      c.svcReadProcessMemory w (base + offset) n).run { d with world := world } :
        Option (Kernel.Result × Patches.Memory) × CheatData W) =
        (some result, { d with world := world' }) := ⟨_, _, rfl⟩
    rw [run_bind, hread] at h
    simp only at h
    split_ifs at h
    · cases h
    · cases h
      exact ⟨world', rfl⟩

theorem follows_changeMemoryT (floatOp intOp : BitVec 32 → BitVec 32 → BitVec 32)
    (arg0 arg1 : BitVec 32) : Follows (Access.InBounds cheat)
      (fun d => d.Fits 4 (arg0 &&& 0x00FFFFFF)) (changeMemory c floatOp intOp arg0 arg1)
      (changeMemoryT c floatOp intOp arg0 arg1) := by
  unfold changeMemory changeMemoryT
  refine Follows.read_bind (f := fun d => d) (fun a => ?_) fun _ => rfl
  refine Follows.bind (Q := fun _ d => d.Fits 4 (arg0 &&& 0x00FFFFFF))
    ((follows_readT (by decide)).mono fun d h => h.1) (fun _ => follows_writeT (by decide)) ?_
  intro d value d' hfits hrun
  unfold CheatData.Fits
  obtain ⟨world, rfl⟩ := cheatRead_world hrun
  exact hfits.1

theorem follows_copyBytesT (n : ℕ) : Follows (Access.InBounds cheat) (fun _ => True)
    (copyBytes c n) (copyBytesT c n) := by
  induction n with
  | zero => exact follows_pure _
  | succ n ih =>
    exact follows_quiet_bind fun _ => follows_readT_one.bind_of_forall fun _ =>
      follows_quiet_bind fun _ => follows_writeT_one.bind_of_forall fun _ => ih

theorem follows_copyCodeT (arg1 : BitVec 32) : Follows (Access.InBounds cheat) (fun _ => True)
    (copyCode c arg1) (copyCodeT c arg1) :=
  follows_quiet_bind fun _ => (follows_copyBytesT _).bind_quiet

/-! ## The operand lines -/

theorem follows_writeLinesT {good : Access → Prop} (skip : Bool) (n i : ℕ) (e : TypeE)
    (hbyte : ∀ offset value, Follows good (fun _ => True) (cheatWrite c 1 offset value)
      (writeT c 1 offset value))
    (hlines : ∀ k < n, good (.line (TypeE.next^[k + 1] e).line.toNat)) :
    Follows good (fun _ => True) (writeLines c cheat skip offset n i e)
      (writeLinesT c cheat skip offset n i e) := by
  induction n generalizing i e with
  | zero => exact follows_pure _
  | succ n ih =>
    have hrest := ih (i + 1) e.next fun k hk => hlines (k + 1) (Nat.succ_lt_succ hk)
    unfold writeLines writeLinesT
    refine Follows.note_bind ?_ (hlines 0 (Nat.succ_pos n))
    cases skip
    · exact (hbyte _ _).bind_of_forall fun _ => hrest
    · exact hrest

theorem follows_patternAtT (line i n j : ℕ) (h : ∀ k < j + n, line + k / 8 < cheat.codesCount) :
    Follows (Access.InBounds cheat) (fun _ => True) (patternAt c cheat line i n j)
      (patternAtT c cheat line i n j) := by
  induction n generalizing j with
  | zero => exact follows_pure _
  | succ n ih =>
    unfold patternAt patternAtT
    refine follows_readT_one.bind_of_forall fun value => ?_
    have hline : (Access.line (line + j / 8)).InBounds cheat := h j (by omega)
    refine Follows.note_bind ?_ hline
    split_ifs
    · exact ih (j + 1) fun k hk => h k (by omega)
    · exact follows_pure _

theorem follows_searchPatternT (line searchSize n i : ℕ)
    (h : ∀ k < searchSize, line + k / 8 < cheat.codesCount) :
    Follows (Access.InBounds cheat) (fun _ => True) (searchPattern c cheat line searchSize n i)
      (searchPatternT c cheat line searchSize n i) := by
  induction n generalizing i with
  | zero => exact follows_pure _
  | succ n ih =>
    have hpattern := follows_patternAtT (c := c) line i searchSize 0 (by rwa [Nat.zero_add])
    refine hpattern.bind_of_forall fun found => ?_
    cases found
    · exact ih (i + 1)
    · exact follows_pure _

theorem scanned_inBounds (n i : ℕ) (h : i + n ≤ cheat.codesCount) :
    ∀ a ∈ scanned cheat n i, a.InBounds cheat := by
  induction n generalizing i with
  | zero => exact fun a ha => absurd ha List.not_mem_nil
  | succ n ih =>
    have hline : (Access.line i).InBounds cheat := show i < cheat.codesCount by omega
    unfold scanned
    split_ifs
    · exact List.forall_mem_cons.mpr ⟨hline, fun a ha => absurd ha List.not_mem_nil⟩
    · exact List.forall_mem_cons.mpr ⟨hline, ih (i + 1) (by omega)⟩

/-! ## One line -/

/-- The traced code does what the code does, and its accesses are good where the state before it
meets the condition for its kind. -/
inductive TracesCode (cheat : Cheat) (P Q : CheatData W → Prop) :
    CheatCode W → TracedCode W → Prop
  | plain {x : CheatM W Unit} {t : CheatT W Unit} (h : Follows (Access.InBounds cheat) P x t) :
    TracesCode cheat P Q (.plain x) (.plain t)
  | conditional {x : CheatM W Bool} {t : CheatT W Bool}
    (h : Follows (Access.InBounds cheat) Q x t) :
    TracesCode cheat P Q (.conditional x) (.conditional t)
  | other (code : CheatCode W) : TracesCode cheat P Q code (.other code)

theorem tracesCode_decodeD (subcode codeArg : ℕ) (arg1 : BitVec 32) {P Q : CheatData W → Prop}
    (hP : ∀ d, P d → ∀ n offset, operandD subcode codeArg arg1 = some (n, offset) →
      d.Fits n offset) :
    TracesCode cheat P Q (decodeD c subcode codeArg arg1) (decodeDT c subcode codeArg arg1) := by
  rcases subcode with _ | _ | _ | _ | _ | _ | _ | _ | _ | _ | _ | _ | subcode
  · exact .other _
  · exact .other _
  · exact .other _
  · exact .other _
  · exact .other _
  · exact .other _
  · exact .plain ((follows_storeDataT (by decide) codeArg arg1).mono
      fun d h hcode => hP d h 4 arg1 (if_pos hcode))
  · exact .plain ((follows_storeDataT (by decide) codeArg arg1).mono
      fun d h hcode => hP d h 2 arg1 (if_pos hcode))
  · exact .plain ((follows_storeDataT (by decide) codeArg arg1).mono
      fun d _ _ => fits_one d arg1)
  · exact .plain ((follows_loadDataT (by decide) codeArg arg1).mono
      fun d h hcode => hP d h 4 arg1 (if_pos hcode))
  · exact .plain ((follows_loadDataT (by decide) codeArg arg1).mono
      fun d h hcode => hP d h 2 arg1 (if_pos hcode))
  · exact .plain ((follows_loadDataT (by decide) codeArg arg1).mono
      fun d _ _ => fits_one d arg1)
  · exact .other _

theorem tracesCode_decodeF (subcode : ℕ) (arg0 arg1 : BitVec 32) {P Q : CheatData W → Prop}
    (hP : ∀ d, P d → ∀ n offset, operandF subcode arg0 = some (n, offset) → d.Fits n offset) :
    TracesCode cheat P Q (decodeF c subcode arg0 arg1) (decodeFT c subcode arg0 arg1) := by
  by_cases hstop : arg0 = 0xF0F00000
  · unfold decodeF decodeFT
    rw [if_pos hstop, if_pos hstop]
    exact .other _
  have hchange : ∀ floatOp intOp : BitVec 32 → BitVec 32 → BitVec 32,
      (∀ d, P d → d.Fits 4 (arg0 &&& 0x00FFFFFF)) →
      TracesCode cheat P Q (.plain (changeMemory c floatOp intOp arg0 arg1))
        (.plain (changeMemoryT c floatOp intOp arg0 arg1)) :=
    fun floatOp intOp h => .plain ((follows_changeMemoryT floatOp intOp arg0 arg1).mono h)
  have hother : TracesCode cheat P Q (decodeF c subcode arg0 arg1)
      (.other (decodeF c subcode arg0 arg1)) := .other _
  unfold decodeFT
  rw [if_neg hstop]
  split
  · unfold decodeF
    rw [if_neg hstop]
    exact hchange _ _ fun d h => hP d h 4 _ rfl
  · unfold decodeF
    rw [if_neg hstop]
    exact hchange _ _ fun d h => hP d h 4 _ rfl
  · unfold decodeF
    rw [if_neg hstop]
    exact hchange _ _ fun d h => hP d h 4 _ rfl
  · unfold decodeF
    rw [if_neg hstop]
    exact .plain ((follows_copyCodeT arg1).mono fun _ _ => trivial)
  · exact hother

theorem tracesCode_decode (c : Console W) (cheat : Cheat) (line : BitVec 64) :
    TracesCode cheat (fun d => ∀ n offset, plainOperand line = some (n, offset) → d.Fits n offset)
      (fun d => ∀ n offset, comparedOperand line d = some (n, offset) → d.Fits n offset)
      (decode c line) (decodeT c line) := by
  have hother : TracesCode cheat
      (fun d => ∀ n offset, plainOperand line = some (n, offset) → d.Fits n offset)
      (fun d => ∀ n offset, comparedOperand line d = some (n, offset) → d.Fits n offset)
      (decode c line) (.other (decode c line)) := .other _
  by_cases hzero : ((line >>> 32).setWidth 32 : BitVec 32) = 0 ∧ (line.setWidth 32 : BitVec 32) = 0
  · unfold decode decodeT
    rw [if_pos hzero, if_pos hzero]
    exact .other _
  unfold decodeT
  rw [if_neg hzero]
  have hplain : ∀ {n offset}, plainOperand line = some (n, offset) → ∀ d : CheatData W,
      (∀ n offset, plainOperand line = some (n, offset) → d.Fits n offset) → d.Fits n offset :=
    fun hline d h => h _ _ hline
  have hcompared : ∀ {n offset},
      (∀ d : CheatData W, d.conditionalMode.toNat ≤ 1 → comparedOperand line d = some (n, offset)) →
      ∀ d : CheatData W, (∀ n offset, comparedOperand line d = some (n, offset) → d.Fits n offset) →
        d.conditionalMode.toNat ≤ 1 → d.Fits n offset :=
    fun hline d h hmode => h _ _ (hline d hmode)
  split <;> rename_i hkind
  · simp only [decode, if_neg hzero, hkind]
    exact .plain ((follows_writeT (by decide)).mono (hplain (by simp only [plainOperand, hkind])))
  · simp only [decode, if_neg hzero, hkind]
    exact .plain ((follows_writeT (by decide)).mono (hplain (by simp only [plainOperand, hkind])))
  · simp only [decode, if_neg hzero, hkind]
    exact .plain (follows_writeT_one.mono fun _ _ => trivial)
  · simp only [decode, if_neg hzero, hkind]
    refine .conditional ((follows_conditional32T _ _ _).mono (hcompared fun d hmode => ?_))
    simp only [comparedOperand, if_pos hmode, hkind]
  · simp only [decode, if_neg hzero, hkind]
    refine .conditional ((follows_conditional32T _ _ _).mono (hcompared fun d hmode => ?_))
    simp only [comparedOperand, if_pos hmode, hkind]
  · simp only [decode, if_neg hzero, hkind]
    refine .conditional ((follows_conditional32T _ _ _).mono (hcompared fun d hmode => ?_))
    simp only [comparedOperand, if_pos hmode, hkind]
  · simp only [decode, if_neg hzero, hkind]
    refine .conditional ((follows_conditional32T _ _ _).mono (hcompared fun d hmode => ?_))
    simp only [comparedOperand, if_pos hmode, hkind]
  · simp only [decode, if_neg hzero, hkind]
    refine .conditional ((follows_conditional16T _ _ _).mono (hcompared fun d hmode => ?_))
    simp only [comparedOperand, if_pos hmode, hkind]
  · simp only [decode, if_neg hzero, hkind]
    refine .conditional ((follows_conditional16T _ _ _).mono (hcompared fun d hmode => ?_))
    simp only [comparedOperand, if_pos hmode, hkind]
  · simp only [decode, if_neg hzero, hkind]
    refine .conditional ((follows_conditional16T _ _ _).mono (hcompared fun d hmode => ?_))
    simp only [comparedOperand, if_pos hmode, hkind]
  · simp only [decode, if_neg hzero, hkind]
    refine .conditional ((follows_conditional16T _ _ _).mono (hcompared fun d hmode => ?_))
    simp only [comparedOperand, if_pos hmode, hkind]
  · simp only [decode, if_neg hzero, hkind]
    exact .plain ((follows_loadOffsetT _).mono (hplain (by simp only [plainOperand, hkind])))
  · simp only [decode, if_neg hzero, hkind]
    refine tracesCode_decodeD _ _ _ fun d h n offset hline => h n offset ?_
    simp only [plainOperand, hkind]
    exact hline
  · simp only [decode, if_neg hzero, hkind]
    refine tracesCode_decodeF _ _ _ fun d h n offset hline => h n offset ?_
    simp only [plainOperand, hkind]
    exact hline
  · exact hother

/-! ## A pass -/

/-- The condition of a pass: no 16- or 32-bit access that the line makes runs past the end of the
address space, and the operand lines of a type E are lines of the cheat. -/
def inStorage (c : Console W) (cheat : Cheat) (s : CheatState W) : Bool :=
  let line := cheat.codes s.index
  (s.skipExecution || (plainOperand line).all fun w => decide (s.data.Fits w.1 w.2)) &&
    (comparedOperand line s.data).all (fun w => decide (s.data.Fits w.1 w.2)) &&
    match decode c line with
    | .writeLines _ count => count = 0 || 256 ≤ cheat.codesCount ||
        s.index + linesOf count.toNat < cheat.codesCount
    | _ => true

theorem afterT_fst {α : Type} {good : Access → Prop} {P : CheatData W → Prop} {x : CheatM W α}
    {t : CheatT W α} (h : Follows good P x t) (k : α → CheatData W → CheatState W) :
    (s.afterT t k).1 = s.after x k := by
  unfold CheatState.afterT CheatState.after
  rw [h.result]
  rcases (x.run s.data : Option α × CheatData W) with ⟨_ | a, d⟩
  · rfl
  · rfl

theorem afterT_snd {α : Type} (t : CheatT W α) (k : α → CheatData W → CheatState W) :
    (s.afterT t k).2 = logOf t s.data := by
  unfold CheatState.afterT
  rcases resultOf t s.data with ⟨_ | a, d⟩
  · rfl
  · rfl

theorem follows_typeE (offset : BitVec 32) {count index : ℕ} (hindex : index < cheat.codesCount)
    (h : count = 0 ∨ 256 ≤ cheat.codesCount ∨ index + linesOf count < cheat.codesCount)
    (skip : Bool) :
    Follows (Access.InBounds cheat) (fun _ => True)
      (writeLines c cheat skip offset count 0 ⟨BitVec.ofNat 8 index, 7⟩)
      (writeLinesT c cheat skip offset count 0 ⟨BitVec.ofNat 8 index, 7⟩) := by
  apply follows_writeLinesT
  · exact fun _ _ => follows_writeT_one
  · intro k hk
    show (TypeE.next^[k + 1] _).line.toNat < _
    rw [typeE_iterate, ← BitVec.ofNat_add, BitVec.toNat_ofNat]
    rw [linesOf_eq] at h
    omega

theorem follows_search {searchSize size index : ℕ} (h : searchSize + index < cheat.codesCount) :
    Follows (Access.InBounds cheat) (fun _ => True)
      (searchPattern c cheat (index + 1) searchSize (size - searchSize) 0)
      (searchPatternT c cheat (index + 1) searchSize (size - searchSize) 0) := by
  apply follows_searchPatternT
  intro k hk
  omega

theorem applyCodeT_spec {code : CheatCode W} {traced : TracedCode W} {P Q : CheatData W → Prop}
    (htraces : TracesCode cheat P Q code traced) (hindex : s.index < cheat.codesCount) :
    (applyCodeT c cheat s traced).1 = applyCode c cheat s code ∧
    ((s.skipExecution = false → P s.data) → Q s.data → (∀ offset count,
      code = .writeLines offset count → count = 0 ∨ 256 ≤ cheat.codesCount ∨
        s.index + linesOf count.toNat < cheat.codesCount) →
      ∀ a ∈ (applyCodeT c cheat s traced).2, a.InBounds cheat) := by
  have hnone : ∀ a ∈ ([] : List Access), a.InBounds cheat :=
    fun a ha => absurd ha List.not_mem_nil
  cases htraces with
  | plain hfollows =>
    simp only [applyCodeT, applyCode]
    split_ifs with hskip
    · exact ⟨rfl, fun _ _ _ => hnone⟩
    · refine ⟨afterT_fst hfollows _, fun hP _ _ => ?_⟩
      rw [afterT_snd]
      exact hfollows.log (hP (Bool.eq_false_of_not_eq_true hskip))
  | conditional hfollows =>
    refine ⟨afterT_fst hfollows _, fun _ hQ _ => ?_⟩
    simp only [applyCodeT]
    rw [afterT_snd]
    exact hfollows.log hQ
  | other =>
    cases code with
    | writeLines offset count =>
      have hsame : Follows (fun _ => True) (fun _ => True)
          (writeLines c cheat s.skipExecution offset count.toNat 0 ⟨BitVec.ofNat 8 s.index, 7⟩)
          (writeLinesT c cheat s.skipExecution offset count.toNat 0 ⟨BitVec.ofNat 8 s.index, 7⟩) :=
        follows_writeLinesT _ _ _ _ (fun _ _ => follows_logged fun _ _ _ _ => trivial)
          fun _ _ => trivial
      refine ⟨afterT_fst hsame _, fun _ _ hlines => ?_⟩
      simp only [applyCodeT]
      rw [afterT_snd]
      refine (follows_typeE offset hindex ?_ s.skipExecution).log trivial
      exact (hlines offset count rfl).imp_left fun hzero => by rw [hzero]; rfl
    | search searchSize size =>
      simp only [applyCodeT, applyCode]
      split_ifs with hsize hskip
      · exact ⟨rfl, fun _ _ _ => hnone⟩
      · refine ⟨afterT_fst (follows_search hsize.2) _, fun _ _ _ => ?_⟩
        rw [afterT_snd]
        exact (follows_search hsize.2).log trivial
      · exact ⟨rfl, fun _ _ _ => hnone⟩
    | loopBreak =>
      refine ⟨rfl, fun _ _ _ => ?_⟩
      simp only [applyCodeT]
      split_ifs with hskip
      · exact hnone
      · exact scanned_inBounds _ _ (by omega)
    | _ => exact ⟨rfl, fun _ _ _ => hnone⟩

theorem applyLineT_inBounds (h : inStorage c cheat s = true) :
    ∀ a ∈ (applyLineT c cheat s).2, a.InBounds cheat := by
  simp only [inStorage, Bool.and_eq_true, Bool.or_eq_true, Option.all_eq_true,
    decide_eq_true_eq] at h
  obtain ⟨⟨hplain, hcompared⟩, hlines⟩ := h
  unfold applyLineT
  split_ifs with hindex
  · have hcode := (applyCodeT_spec (c := c) (tracesCode_decode c cheat (cheat.codes s.index))
      hindex).2
    refine List.forall_mem_cons.mpr ⟨hindex, hcode ?_ ?_ ?_⟩
    · intro hskip n offset hline
      exact hplain.resolve_left (by rw [hskip]; decide) (n, offset) hline
    · exact fun n offset hline => hcompared (n, offset) hline
    · intro offset count hline
      rw [hline] at hlines
      simpa only [Bool.or_eq_true, decide_eq_true_eq, or_assoc] using hlines
  · exact fun a ha => absurd ha List.not_mem_nil

/-- A run whose passes meet the condition stays in the storage. -/
theorem storageSafe_of_inStorage (c : Console W) (cheat : Cheat) (typeE : TypeE) (d : CheatData W)
    (h : Guarded (applyLine c cheat) (fun s => inStorage c cheat s = true) (.start typeE d)) :
    StorageSafe c cheat typeE d :=
  fun s hs => applyLineT_inBounds (h s hs)

/-- A type E of nine bytes and a word, in the cheat page. -/
def pageCheat : Cheat :=
  cheatOf [0xD300000001E81000, 0xE000000000000009, 0x1122334455667788, 0x99, 0x00000010AABBCCDD]
    (by decide)

theorem pageCheat_storageSafe : StorageSafe emptyConsole pageCheat ⟨0, 0⟩ (emptyData 0) :=
  storageSafe_of_inStorage emptyConsole pageCheat ⟨0, 0⟩ (emptyData 0)
    (guarded_of_guards (n := 5) (by decide +kernel))

/-- A single line of type E, whose operand line is missing. -/
def operandless : Cheat := cheatOf [0xE000000000000001] (by decide)

/-- The offset is set so that the last bytes of a word lie at the other end of the address space. -/
def wrapping : Cheat := cheatOf [0xD3000000FFFFFFFE, 0x0000000000000001] (by decide)

theorem storage_is_left :
    ¬StorageSafe emptyConsole operandless ⟨0, 0⟩ (emptyData 0) ∧
    ¬StorageSafe emptyConsole wrapping ⟨0, 0⟩ (emptyData 0) := by
  constructor
  · intro hsafe
    have hline := hsafe.here (.line 1) (by decide)
    exact absurd hline (Nat.lt_irrefl 1)
  · intro hsafe
    have hnext : ∃ t, applyLine emptyConsole wrapping (.start ⟨0, 0⟩ (emptyData 0)) = .next t ∧
      .page 0xFE17EFFE 4 ∈ (applyLineT emptyConsole wrapping t).2 := ⟨_, rfl, by decide⟩
    obtain ⟨t, hstep, hmem⟩ := hnext
    have hpage : 0xFE17EFFE + 4 ≤ 0x1000 := (hsafe.next hstep).here _ hmem
    exact absurd hpage (by decide)

end Presence3DS.Cheats
