import Presence3DS.Cheats.Apply
import Presence3DS.Lib.Traced

/-! The two data registers and their modes: what the codes for the active one see of the other. -/

namespace Presence3DS.Cheats
open Loops Unseen

variable {W : Type}

namespace CheatData

/-- The register that is not active, and its mode. -/
def inactive (d : CheatData W) : BitVec 32 × Bool :=
  if d.activeData then (d.data1, d.data1Mode) else (d.data2, d.data2Mode)

/-- Another content and mode of the register that is not active. -/
def withInactive (r : BitVec 32 × Bool) (d : CheatData W) : CheatData W :=
  { d with
    data1 := if d.activeData then r.1 else d.data1
    data1Mode := if d.activeData then r.2 else d.data1Mode
    data2 := if d.activeData then d.data2 else r.1
    data2Mode := if d.activeData then d.data2Mode else r.2 }

/-- The mode of the active register. -/
def ownMode (d : CheatData W) : Bool := if d.activeData then d.data2Mode else d.data1Mode

/-- The active register. -/
def own (d : CheatData W) : BitVec 32 := if d.activeData then d.data2 else d.data1

def setOwn (v : BitVec 32) (d : CheatData W) : CheatData W :=
  if d.activeData then { d with data2 := v } else { d with data1 := v }

/-- The active register is changed by one of two operations, as its own mode says. -/
def scaleOwn (floatOp intOp : BitVec 32 → BitVec 32 → BitVec 32) (operand : BitVec 32)
    (d : CheatData W) : CheatData W :=
  d.setOwn (if d.ownMode then floatOp d.own operand else intOp d.own operand)

end CheatData

/-- A line of type D names a data register, or selects the active one. -/
def namesD (subcode codeArg : ℕ) (arg1 : BitVec 32) : Bool :=
  match subcode with
  | 0x4 | 0x5 | 0x6 | 0x7 | 0x8 | 0x9 | 0xA | 0xB => codeArg = 1 || codeArg = 2
  | 0xF =>
    match codeArg with
    | 0 => !arg1.getLsbD 16 && arg1.getLsbD 17
    | 1 => true
    | 2 => arg1.getLsbD 16 || arg1.getLsbD 17
    | _ => false
  | _ => false

def namesData (line : BitVec 64) : Bool :=
  let arg0 := (line >>> 32).setWidth 32
  let subcode := (arg0 >>> 24 &&& 0x0F).toNat
  match (arg0 >>> 28).toNat with
  | 0xC => subcode = 1 || subcode = 2
  | 0xD => namesD subcode (arg0 &&& 0x0F).toNat (line.setWidth 32)
  | _ => false

/-- F4 and F5: the operations on floats and on integers, and the operand. -/
def scaling (c : Console W) (line : BitVec 64) :
    Option ((BitVec 32 → BitVec 32 → BitVec 32) × (BitVec 32 → BitVec 32 → BitVec 32) ×
      BitVec 32) :=
  let arg0 := (line >>> 32).setWidth 32
  let arg1 := line.setWidth 32
  if (arg0 >>> 28).toNat = 0xF ∧ arg0 ≠ 0xF0F00000 then
    match (arg0 >>> 24 &&& 0x0F).toNat with
    | 0x4 => some (c.floatMul, (· * ·), arg1)
    | 0x5 => some (c.floatDiv, div c, arg1)
    | _ => none
  else none

/-- The data that a pass leads to is changed. -/
def changeOutcome (f : CheatData W → CheatData W) :
    Pass (CheatState W) (ℕ × CheatData W) → Pass (CheatState W) (ℕ × CheatData W)
  | .next t => .next { t with data := f t.data }
  | .done (r, d) => .done (r, f d)

/-- The data that a pass leads to. -/
def outcomeData : Pass (CheatState W) (ℕ × CheatData W) → CheatData W
  | .next t => t.data
  | .done (_, d) => d

/-- The pass neither depends on the inactive register nor changes it, and operates on the active one
as its own mode says. -/
structure ActiveOnly (c : Console W) (cheat : Cheat) (s : CheatState W) : Prop where
  independent : ∀ r, applyLine c cheat { s with data := s.data.withInactive r } =
    changeOutcome (.withInactive r) (applyLine c cheat s)
  kept : (outcomeData (applyLine c cheat s)).inactive = s.data.inactive
  ownMode : ∀ floatOp intOp arg1, scaling c (cheat.codes s.index) = some (floatOp, intOp, arg1) →
    s.index < cheat.codesCount → s.skipExecution = false →
    applyLine c cheat s =
      .next (CheatState.advance { s with data := s.data.scaleOwn floatOp intOp arg1 })

/-- The condition: an F4 or F5 for the second register would give the same for floats and for
integers. -/
def ModesAgree (c : Console W) (cheat : Cheat) (s : CheatState W) : Prop :=
  ∀ floatOp intOp arg1, scaling c (cheat.codes s.index) = some (floatOp, intOp, arg1) →
    s.index < cheat.codesCount → s.skipExecution = false → s.data.activeData = true →
    floatOp s.data.data2 arg1 = intOp s.data.data2 arg1

/-! ## What the codes see -/

/-- The computation neither depends on the inactive register nor changes it. -/
def Blind {α : Type} (x : CheatM W α) : Prop := ∀ r, Commutes (CheatData.withInactive r) x

section Blind

variable {α β : Type} {c : Console W} {x : CheatM W α}

theorem blind_pure (a : α) : Blind (pure a : CheatM W α) := fun _ => commutes_pure a

theorem blind_failure : Blind (failure : CheatM W α) := fun _ => commutes_failure

theorem Blind.bind {y : α → CheatM W β} (hx : Blind x) (hy : ∀ a, Blind (y a)) :
    Blind (x >>= y) :=
  fun r => (hx r).bind fun a => hy a r

theorem blind_get_bind {y : CheatData W → CheatM W α}
    (hread : ∀ r d, y (CheatData.withInactive r d) = y d) (hy : ∀ d, Blind (y d)) :
    Blind (get >>= y) :=
  fun r => commutes_get_bind (hread r) fun d => hy d r

theorem blind_modify {g : CheatData W → CheatData W}
    (h : ∀ r d, g (CheatData.withInactive r d) = CheatData.withInactive r (g d)) :
    Blind (modify g) :=
  fun r => commutes_modify (h r)

theorem blind_ite {p : Prop} [Decidable p] {y : CheatM W α} (hx : Blind x) (hy : Blind y) :
    Blind (if p then x else y) :=
  fun r => commutes_ite (hx r) (hy r)

theorem blind_activeOffset : Blind (activeOffset : CheatM W (BitVec 32)) :=
  blind_get_bind (fun _ _ => rfl) fun _ => blind_pure _

theorem blind_activeStorage : Blind (activeStorage : CheatM W (BitVec 32)) :=
  blind_get_bind (fun _ _ => rfl) fun _ => blind_pure _

theorem blind_activeData : Blind (activeData : CheatM W (BitVec 32)) := by
  refine blind_get_bind (fun r d => ?_) fun _ => blind_pure _
  unfold CheatData.withInactive
  cases d.activeData
  · rfl
  · rfl

theorem blind_setActiveOffset (v : BitVec 32) : Blind (setActiveOffset v : CheatM W Unit) := by
  refine blind_modify fun r d => ?_
  unfold CheatData.withInactive
  cases d.activeOffset
  · rfl
  · rfl

theorem blind_setActiveData (v : BitVec 32) : Blind (setActiveData v : CheatM W Unit) := by
  refine blind_modify fun r d => ?_
  unfold CheatData.withInactive
  cases d.activeData
  · rfl
  · rfl

theorem blind_access (f : W → α × W) : Blind (access f) := fun _ _ => rfl

theorem blind_random : Blind (cheatGetRandomNumber : CheatM W (BitVec 32)) :=
  (blind_modify fun _ _ => rfl).bind fun _ => blind_get_bind (fun _ _ => rfl) fun _ => blind_pure _

theorem blind_isValidAddress (address size : BitVec 32) :
    Blind (cheatIsValidAddress c address size) :=
  (blind_access _).bind fun _ => blind_pure _

theorem blind_cheatWrite (n : ℕ) (offset value : BitVec 32) :
    Blind (cheatWrite c n offset value) := by
  refine blind_activeOffset.bind fun base => blind_ite ?_ ?_
  · exact blind_modify fun _ _ => rfl
  · refine (blind_isValidAddress _ _).bind fun valid => blind_ite ?_ blind_failure
    refine (blind_access _).bind fun res => ?_
    exact blind_ite blind_failure (blind_pure _)

theorem blind_cheatRead (n : ℕ) (offset : BitVec 32) : Blind (cheatRead c n offset) := by
  refine blind_activeOffset.bind fun base => blind_ite ?_ ?_
  · exact blind_get_bind (fun _ _ => rfl) fun _ => blind_pure _
  · refine (blind_isValidAddress _ _).bind fun valid => blind_ite ?_ blind_failure
    refine (blind_access _).bind fun ⟨res, bytes⟩ => ?_
    exact blind_ite (blind_failure.bind fun _ => blind_pure _) (blind_pure _)

theorem blind_conditional32 (holds : BitVec 32 → BitVec 32 → Bool) (arg0 arg1 : BitVec 32) :
    Blind (conditional32 c holds arg0 arg1) := by
  refine blind_get_bind (fun _ _ => rfl) fun d => ?_
  split
  · exact (blind_cheatRead _ _).bind fun _ => blind_pure _
  · exact (blind_cheatRead _ _).bind fun _ => blind_activeData.bind fun _ => blind_pure _
  · exact blind_activeData.bind fun _ => blind_pure _
  · exact blind_activeStorage.bind fun _ => blind_pure _
  · exact blind_activeData.bind fun _ => blind_activeStorage.bind fun _ => blind_pure _
  · exact blind_failure

theorem blind_conditional16 (holds : BitVec 32 → BitVec 32 → Bool) (arg0 arg1 : BitVec 32) :
    Blind (conditional16 c holds arg0 arg1) := by
  refine blind_get_bind (fun _ _ => rfl) fun d => ?_
  split
  · exact (blind_cheatRead _ _).bind fun _ => blind_pure _
  · exact (blind_cheatRead _ _).bind fun _ => blind_activeData.bind fun _ => blind_pure _
  · exact blind_activeData.bind fun _ => blind_pure _
  · exact blind_activeStorage.bind fun _ => blind_pure _
  · exact blind_activeData.bind fun _ => blind_activeStorage.bind fun _ => blind_pure _
  · exact blind_failure

theorem blind_keyConditional (arg1 : BitVec 32) : Blind (keyConditional c arg1) := by
  refine blind_ite (blind_pure _) ?_
  exact (blind_access _).bind fun _ => blind_pure _

theorem blind_touchConditional (codeArg : ℕ) (arg1 : BitVec 32) :
    Blind (touchConditional c codeArg arg1) := by
  refine (blind_access _).bind fun ⟨px, py⟩ => ?_
  dsimp only
  split
  · exact blind_pure _
  · exact blind_pure _
  · exact blind_failure

theorem blind_loadOffset (arg0 : BitVec 32) : Blind (loadOffset c arg0) :=
  (blind_cheatRead _ _).bind fun _ => blind_setActiveOffset _

theorem blind_setOffset (codeArg : ℕ) (arg1 : BitVec 32) :
    Blind (setOffset codeArg arg1 : CheatM W Unit) := by
  unfold setOffset
  split
  · exact blind_modify fun _ _ => rfl
  · exact blind_modify fun _ _ => rfl
  · exact blind_pure _

/-! The codes that name a register leave the others to these. -/

theorem blind_addData {codeArg : ℕ} (h : ¬(codeArg = 1 ∨ codeArg = 2)) (arg1 : BitVec 32) :
    Blind (addData codeArg arg1 : CheatM W Unit) := by
  unfold addData
  split
  · exact blind_activeData.bind fun _ => blind_setActiveData _
  · exact absurd (.inl rfl) h
  · exact absurd (.inr rfl) h
  · exact blind_pure _

theorem blind_setData {codeArg : ℕ} (h : ¬(codeArg = 1 ∨ codeArg = 2)) (value : BitVec 32) :
    Blind (setData codeArg value : CheatM W Unit) := by
  unfold setData
  split
  · exact blind_setActiveData _
  · exact absurd (.inl rfl) h
  · exact absurd (.inr rfl) h
  · exact blind_pure _

theorem blind_storeData {codeArg : ℕ} (h : ¬(codeArg = 1 ∨ codeArg = 2)) (n : ℕ)
    (arg1 : BitVec 32) : Blind (storeData c n codeArg arg1) := by
  unfold storeData
  by_cases hcode : codeArg ≤ 2
  · rw [if_pos hcode]
    obtain rfl : codeArg = 0 := by omega
    refine blind_activeData.bind fun _ => (blind_cheatWrite _ _ _).bind fun _ => ?_
    exact blind_activeOffset.bind fun _ => blind_setActiveOffset _
  · rw [if_neg hcode]
    exact blind_pure _

theorem blind_loadData {codeArg : ℕ} (h : ¬(codeArg = 1 ∨ codeArg = 2)) (n : ℕ)
    (arg1 : BitVec 32) : Blind (loadData c n codeArg arg1) :=
  blind_ite ((blind_cheatRead _ _).bind fun _ => blind_setData h _) (blind_pure _)

theorem blind_addOffset (arg1 : BitVec 32) : Blind (addOffset arg1 : CheatM W Unit) :=
  blind_activeOffset.bind fun _ => blind_setActiveOffset _

theorem blind_dataMode (arg1 : BitVec 32) : Blind (dataMode c arg1) := by
  intro r d
  have hget : ∀ d' : CheatData W,
      ((get : CheatM W (CheatData W)).run d' : Option (CheatData W) × CheatData W) =
        (some d', d') := fun _ => rfl
  have hsame : (CheatData.withInactive r d).activeData = d.activeData := rfl
  have hchange : ∀ g : CheatData W → CheatData W,
      g (.withInactive r d) = .withInactive r (g d) →
      ((modify g : CheatM W Unit).run (.withInactive r d) : Option Unit × CheatData W) =
        (((modify g : CheatM W Unit).run d : Option Unit × CheatData W).1,
          .withInactive r ((modify g : CheatM W Unit).run d : Option Unit × CheatData W).2) :=
    fun g hg => congrArg (some (), ·) hg
  unfold dataMode
  rw [run_bind, run_bind, hget, hget]
  simp only [hsame]
  -- the branch is the one for the active register
  cases hactive : d.activeData
  · simp only [Bool.false_eq_true, if_false]
    split
    iterate 4 exact hchange _ (by simp [CheatData.withInactive, hactive])
    rfl
  · simp only [if_true]
    split
    iterate 4 exact hchange _ (by simp [CheatData.withInactive, hactive])
    rfl

theorem blind_setConditionalMode (arg1 : BitVec 32) :
    Blind (setConditionalMode arg1 : CheatM W Unit) :=
  blind_ite (blind_modify fun _ _ => rfl) blind_failure

theorem blind_bankCode {arg1 : BitVec 32} {copy move select : Bool → CheatData W → CheatData W}
    (hcopy : arg1.getLsbD 16 = true → ∀ b r d,
      copy b (.withInactive r d) = .withInactive r (copy b d))
    (hmove : arg1.getLsbD 16 = false → arg1.getLsbD 17 = true → ∀ b r d,
      move b (.withInactive r d) = .withInactive r (move b d))
    (hselect : arg1.getLsbD 16 = false → arg1.getLsbD 17 = false → ∀ b r d,
      select b (.withInactive r d) = .withInactive r (select b d)) :
    Blind (bankCode arg1 copy move select) := by
  unfold bankCode
  split_ifs with hbit hbit'
  · exact blind_modify (hcopy hbit _)
  · exact blind_modify (hmove (Bool.eq_false_of_not_eq_true hbit) hbit' _)
  · exact blind_modify (hselect (Bool.eq_false_of_not_eq_true hbit)
      (Bool.eq_false_of_not_eq_true hbit') _)

theorem blind_offsetBank {arg1 : BitVec 32}
    (h : (!arg1.getLsbD 16 && arg1.getLsbD 17) = false) :
    Blind (offsetBank arg1 : CheatM W Unit) := by
  refine blind_bankCode (fun _ b r d => ?_) (fun hbit hbit' => ?_) fun _ _ b r d => rfl
  · cases b
    · rfl
    · rfl
  · rw [hbit, hbit'] at h
    cases h

theorem blind_storageBank {arg1 : BitVec 32}
    (h : (arg1.getLsbD 16 || arg1.getLsbD 17) = false) :
    Blind (storageBank arg1 : CheatM W Unit) := by
  obtain ⟨hcopy, hmove⟩ := Bool.or_eq_false_iff.mp h
  refine blind_bankCode (fun hbit => ?_) (fun _ hbit => ?_) fun _ _ b r d => rfl
  · rw [hbit] at hcopy
    cases hcopy
  · rw [hbit] at hmove
    cases hmove

theorem blind_changeMemory (floatOp intOp : BitVec 32 → BitVec 32 → BitVec 32)
    (arg0 arg1 : BitVec 32) : Blind (changeMemory c floatOp intOp arg0 arg1) :=
  blind_get_bind (fun _ _ => rfl) fun _ => (blind_cheatRead _ _).bind fun _ =>
    blind_cheatWrite _ _ _

theorem blind_changeData (op : BitVec 32 → BitVec 32) : Blind (changeData op : CheatM W Unit) :=
  blind_activeData.bind fun _ => blind_setActiveData _

theorem blind_copyBytes (n : ℕ) : Blind (copyBytes c n) := by
  induction n with
  | zero => exact blind_pure _
  | succ n ih =>
    exact (blind_modify fun _ _ => rfl).bind fun _ => (blind_cheatRead _ _).bind fun _ =>
      (blind_modify fun _ _ => rfl).bind fun _ => (blind_cheatWrite _ _ _).bind fun _ => ih

theorem blind_copyCode (arg1 : BitVec 32) : Blind (copyCode c arg1) :=
  blind_get_bind (fun _ _ => rfl) fun _ => (blind_copyBytes _).bind fun _ =>
    blind_modify fun _ _ => rfl

theorem blind_randomData (arg0 arg1 : BitVec 32) : Blind (randomData c arg0 arg1) :=
  blind_random.bind fun _ => blind_setActiveData _

theorem blind_writeLines (cheat : Cheat) (skip : Bool) (offset : BitVec 32) (n i : ℕ) (e : TypeE) :
    Blind (writeLines c cheat skip offset n i e) := by
  induction n generalizing i e with
  | zero => exact blind_pure _
  | succ n ih =>
    unfold writeLines
    cases skip
    · exact (blind_cheatWrite _ _ _).bind fun _ => ih _ _
    · exact ih _ _

theorem blind_patternAt (cheat : Cheat) (line i n j : ℕ) :
    Blind (patternAt c cheat line i n j) := by
  induction n generalizing j with
  | zero => exact blind_pure _
  | succ n ih => exact (blind_cheatRead _ _).bind fun _ => blind_ite (ih _) (blind_pure _)

theorem blind_searchPattern (cheat : Cheat) (line searchSize n i : ℕ) :
    Blind (searchPattern c cheat line searchSize n i) := by
  induction n generalizing i with
  | zero => exact blind_pure _
  | succ n ih =>
    exact (blind_patternAt _ _ _ _ _).bind fun _ => blind_ite (blind_pure _) (ih _)

theorem clearActive_withInactive (r : BitVec 32 × Bool) (d : CheatData W) :
    CheatState.clearActive (.withInactive r d) = .withInactive r (CheatState.clearActive d) :=
  congrArg Prod.snd (((blind_setActiveData 0).bind fun _ => blind_setActiveOffset 0) r d)

end Blind

/-! ## Lines -/

/-- What the code does is blind to the inactive register. -/
def CheatCode.IsBlind : CheatCode W → Prop
  | .plain effect | .register effect => Blind effect
  | .conditional newSkip => Blind newSkip
  | .loop count => ∀ r d, count (.withInactive r d) = count d
  | _ => True

theorem decodeC_isBlind {subcode : ℕ} (h : ¬(subcode = 1 ∨ subcode = 2)) (arg1 : BitVec 32) :
    (decodeC subcode arg1 : CheatCode W).IsBlind := by
  unfold decodeC
  split
  · exact fun _ _ => rfl
  · exact absurd (.inl rfl) h
  · exact absurd (.inr rfl) h
  · trivial

theorem decodeD_isBlind (c : Console W) {subcode codeArg : ℕ} {arg1 : BitVec 32}
    (h : namesD subcode codeArg arg1 = false) : (decodeD c subcode codeArg arg1).IsBlind := by
  have hnamed : ∀ {p q : Prop} [Decidable p] [Decidable q], (decide p || decide q) = false →
      ¬(p ∨ q) := by
    intro p q _ _ hpq
    simpa using hpq
  unfold decodeD
  split
  · split_ifs
    all_goals trivial
  · trivial
  · split_ifs
    all_goals trivial
  · exact blind_setOffset _ _
  · exact blind_addData (hnamed h) _
  · exact blind_setData (hnamed h) _
  · exact blind_storeData (hnamed h) _ _
  · exact blind_storeData (hnamed h) _ _
  · exact blind_storeData (hnamed h) _ _
  · exact blind_loadData (hnamed h) _ _
  · exact blind_loadData (hnamed h) _ _
  · exact blind_loadData (hnamed h) _ _
  · exact blind_addOffset _
  · exact blind_keyConditional _
  · exact blind_touchConditional _ _
  · show Blind (registerCode c codeArg arg1)
    unfold registerCode
    split
    · exact blind_offsetBank h
    · cases h
    · exact blind_storageBank h
    · exact blind_dataMode _
    · exact blind_setConditionalMode _
    · exact blind_failure
  · trivial

theorem decodeF_isBlind (c : Console W) {subcode : ℕ} (arg0 arg1 : BitVec 32)
    (h : ¬(subcode = 4 ∨ subcode = 5)) : (decodeF c subcode arg0 arg1).IsBlind := by
  unfold decodeF
  split_ifs
  · trivial
  split
  · exact blind_modify fun _ _ => rfl
  · exact blind_changeMemory _ _ _ _
  · exact blind_changeMemory _ _ _ _
  · exact blind_changeMemory _ _ _ _
  · exact absurd (.inl rfl) h
  · exact absurd (.inr rfl) h
  · exact blind_changeData _
  · exact blind_changeData _
  · exact blind_changeData _
  · exact blind_changeData _
  · exact blind_changeData _
  · exact blind_changeData _
  · exact blind_copyCode _
  · trivial
  · exact blind_randomData _ _
  · trivial

theorem decode_isBlind (c : Console W) {line : BitVec 64} (hnames : namesData line = false)
    (hscaling : scaling c line = none) : (decode c line).IsBlind := by
  unfold decode
  unfold namesData at hnames
  unfold scaling at hscaling
  dsimp only at hnames hscaling ⊢
  generalize ((line >>> 32).setWidth 32 : BitVec 32) = arg0 at hnames hscaling ⊢
  generalize (line.setWidth 32 : BitVec 32) = arg1 at hnames hscaling ⊢
  generalize (arg0 >>> 24 &&& 0x0F).toNat = subcode at hnames hscaling ⊢
  split_ifs
  · trivial
  split
  · exact blind_cheatWrite _ _ _
  · exact blind_cheatWrite _ _ _
  · exact blind_cheatWrite _ _ _
  · exact blind_conditional32 _ _ _
  · exact blind_conditional32 _ _ _
  · exact blind_conditional32 _ _ _
  · exact blind_conditional32 _ _ _
  · exact blind_conditional16 _ _ _
  · exact blind_conditional16 _ _ _
  · exact blind_conditional16 _ _ _
  · exact blind_conditional16 _ _ _
  · exact blind_loadOffset _
  · rename_i htype
    rw [htype] at hnames
    exact decodeC_isBlind (by simpa using hnames) _
  · rename_i htype
    rw [htype] at hnames
    exact decodeD_isBlind c hnames
  · trivial
  · rename_i htype
    by_cases hstop : arg0 = 0xF0F00000
    · unfold decodeF
      rw [if_pos hstop]
      trivial
    · rw [if_pos ⟨htype, hstop⟩] at hscaling
      apply decodeF_isBlind
      rintro (rfl | rfl)
      · cases hscaling
      · cases hscaling
  · trivial

/-! ## Passes -/

open CheatState in
theorem after_blind {α : Type} {x : CheatM W α} (hx : Blind x) (r : BitVec 32 × Bool)
    (s : CheatState W) {k k' : α → CheatData W → CheatState W}
    (hk : ∀ a d, k' a (.withInactive r d) = { k a d with data := .withInactive r d })
    (hdata : ∀ a d, (k a d).data = d) :
    after { s with data := .withInactive r s.data } x k' =
      changeOutcome (.withInactive r) (s.after x k) := by
  unfold after
  rw [hx r s.data]
  rcases (x.run s.data : Option α × CheatData W) with ⟨_ | a, d⟩
  · rfl
  · show Pass.next (advance (k' a (.withInactive r d))) = _
    rw [hk a d]
    show _ = Pass.next { advance (k a d) with data := .withInactive r (k a d).data }
    rw [hdata]
    rfl

/-! The ends of conditionals and loops do not look at the data. -/

theorem closePass_data (s : CheatState W) (d : CheatData W) :
    CheatState.closePass { s with data := d } = { s.closePass with data := d } := by
  unfold CheatState.closePass
  dsimp only
  split_ifs <;> rfl

theorem endIf_data (s : CheatState W) (d : CheatData W) :
    CheatState.endIf { s with data := d } = { s.endIf with data := d } := by
  unfold CheatState.endIf CheatState.pop
  rw [closePass_data]
  dsimp only
  split_ifs <;> rfl

theorem endLoop_data (s : CheatState W) (d : CheatData W) :
    CheatState.endLoop { s with data := d } = { s.endLoop with data := d } := by
  unfold CheatState.endLoop
  dsimp only
  split_ifs
  · exact closePass_data { s with ifStack := s.storedStack, ifCount := s.storedIfCount } d
  · rfl

theorem data_closePass (s : CheatState W) : s.closePass.data = s.data := by
  unfold CheatState.closePass
  split_ifs <;> rfl

theorem data_endIf (s : CheatState W) : s.endIf.data = s.data := by
  unfold CheatState.endIf
  split_ifs
  · rfl
  · exact data_closePass s
  · rfl
  · rfl
  · rfl

theorem data_endLoop (s : CheatState W) : s.endLoop.data = s.data := by
  unfold CheatState.endLoop
  split_ifs
  · exact data_closePass _
  · rfl

theorem endAll_withInactive (r : BitVec 32 × Bool) (s : CheatState W) :
    CheatState.endAll { s with data := .withInactive r s.data } =
      { s.endAll with data := .withInactive r s.endAll.data } := by
  unfold CheatState.endAll
  rw [clearActive_withInactive, closePass_data]
  dsimp only
  split_ifs
  · rfl
  · show _ = { s.closePass with data := .withInactive r s.closePass.data }
    rw [data_closePass]
  · rfl

open CheatState in
theorem applyCode_blind (c : Console W) (cheat : Cheat) (s : CheatState W) {code : CheatCode W}
    (hcode : code.IsBlind) (r : BitVec 32 × Bool) :
    applyCode c cheat { s with data := s.data.withInactive r } code =
      changeOutcome (.withInactive r) (applyCode c cheat s code) := by
  cases code with
  | plain effect =>
    simp only [applyCode]
    show (if s.skipExecution then _ else _) = _
    split_ifs
    · rfl
    · exact after_blind hcode r s (fun _ _ => rfl) fun _ _ => rfl
  | register effect => exact after_blind hcode r s (fun _ _ => rfl) fun _ _ => rfl
  | conditional newSkip => exact after_blind hcode r s (fun _ _ => rfl) fun _ _ => rfl
  | loop count =>
    simp only [applyCode]
    rw [hcode r s.data]
    rfl
  | endIf =>
    show Pass.next (advance (endIf { s with data := .withInactive r s.data })) =
      .next { advance s.endIf with data := .withInactive r s.endIf.data }
    rw [endIf_data, data_endIf]
    rfl
  | loopBreak =>
    simp only [applyCode]
    show (if s.skipExecution then _ else _) = _
    split_ifs
    · rfl
    · rfl
  | endLoop =>
    show Pass.next (advance (endLoop { s with data := .withInactive r s.data })) =
      .next { advance s.endLoop with data := .withInactive r s.endLoop.data }
    rw [endLoop_data, data_endLoop]
    rfl
  | endAll =>
    show Pass.next (advance (endAll { s with data := .withInactive r s.data })) = _
    rw [endAll_withInactive]
    rfl
  | ret =>
    simp only [applyCode]
    show (if s.skipExecution then _ else _) = _
    split_ifs
    · rfl
    · rfl
  | nothing => rfl
  | writeLines beginOffset count =>
    exact after_blind (blind_writeLines _ _ _ _ _ _) r s (fun _ _ => rfl) fun _ _ => rfl
  | search searchSize size =>
    simp only [applyCode]
    show (if _ then (if s.skipExecution then _ else _) else _) = _
    split_ifs
    · rfl
    · exact after_blind (blind_searchPattern _ _ _ _ _) r s (fun _ _ => rfl) fun _ _ => rfl
    · rfl
  | stop => rfl

/-! ## The inactive register -/

@[simp] theorem inactive_withInactive (r : BitVec 32 × Bool) (d : CheatData W) :
    (d.withInactive r).inactive = r := by
  unfold CheatData.inactive CheatData.withInactive
  cases d.activeData
  · rfl
  · rfl

@[simp] theorem withInactive_inactive (d : CheatData W) : d.withInactive d.inactive = d := by
  rcases d with ⟨_, _, _, _, _, _ | _⟩
  · rfl
  · rfl

theorem own_withInactive (r : BitVec 32 × Bool) (d : CheatData W) :
    (d.withInactive r).own = d.own := by
  unfold CheatData.own CheatData.withInactive
  cases d.activeData
  · rfl
  · rfl

theorem setOwn_withInactive (r : BitVec 32 × Bool) (v : BitVec 32) (d : CheatData W) :
    (d.withInactive r).setOwn v = (d.setOwn v).withInactive r := by
  unfold CheatData.setOwn CheatData.withInactive
  cases d.activeData
  · rfl
  · rfl

theorem outcomeData_changeOutcome (f : CheatData W → CheatData W)
    (p : Pass (CheatState W) (ℕ × CheatData W)) :
    outcomeData (changeOutcome f p) = f (outcomeData p) := by
  cases p
  · rfl
  · rfl

variable {c : Console W} {cheat : Cheat} {s : CheatState W}

theorem kept_of_independent
    (h : ∀ r, applyLine c cheat { s with data := s.data.withInactive r } =
      changeOutcome (.withInactive r) (applyLine c cheat s)) :
    (outcomeData (applyLine c cheat s)).inactive = s.data.inactive := by
  have hsame := congrArg outcomeData (h s.data.inactive)
  rw [withInactive_inactive, outcomeData_changeOutcome] at hsame
  have hinactive := congrArg CheatData.inactive hsame
  rwa [inactive_withInactive] at hinactive

variable {floatOp intOp : BitVec 32 → BitVec 32 → BitVec 32} {arg1 : BitVec 32}

theorem decode_scaling {line : BitVec 64} (h : scaling c line = some (floatOp, intOp, arg1)) :
    decode c line = .plain (scaleData floatOp intOp arg1) := by
  unfold scaling at h
  unfold decode decodeF
  dsimp only at h ⊢
  generalize ((line >>> 32).setWidth 32 : BitVec 32) = arg0 at h ⊢
  split_ifs at h with htype
  have hzero : ¬(arg0 = 0 ∧ (line.setWidth 32 : BitVec 32) = 0) := by
    rintro ⟨rfl, -⟩
    exact absurd htype.1 (by decide)
  rw [if_neg hzero, htype.1]
  show (if arg0 = 0xF0F00000 then _ else _) = _
  rw [if_neg htype.2]
  generalize (arg0 >>> 24 &&& 0x0F).toNat = subcode at h ⊢
  split at h
  · cases h
    rfl
  · cases h
    rfl
  · cases h

theorem applyLine_scaling (h : scaling c (cheat.codes s.index) = some (floatOp, intOp, arg1))
    (hindex : s.index < cheat.codesCount) (hskip : s.skipExecution = false) :
    applyLine c cheat s = .next (CheatState.advance { s with
      data := s.data.setOwn (if s.data.data1Mode then floatOp s.data.own arg1
        else intOp s.data.own arg1) }) := by
  rw [applyLine, if_pos hindex, decode_scaling h]
  show (if s.skipExecution then _ else _) = _
  rw [hskip]
  rfl

theorem activeOnly_of_blind (h : (decode c (cheat.codes s.index)).IsBlind)
    (hscaling : scaling c (cheat.codes s.index) = none) : ActiveOnly c cheat s := by
  have hindependent : ∀ r, applyLine c cheat { s with data := s.data.withInactive r } =
      changeOutcome (.withInactive r) (applyLine c cheat s) := by
    intro r
    unfold applyLine
    show (if s.index < cheat.codesCount then _ else _) = _
    split_ifs
    · exact applyCode_blind c cheat s h r
    · rfl
  refine ⟨hindependent, kept_of_independent hindependent, ?_⟩
  intro floatOp intOp arg1 hsome
  rw [hscaling] at hsome
  cases hsome

theorem activeOnly_scaling_iff
    (h : scaling c (cheat.codes s.index) = some (floatOp, intOp, arg1))
    (hindex : s.index < cheat.codesCount) (hskip : s.skipExecution = false) :
    ActiveOnly c cheat s ↔
      (s.data.activeData = true → floatOp s.data.data2 arg1 = intOp s.data.data2 arg1) := by
  have hrun : ∀ d : CheatData W, applyLine c cheat { s with data := d } =
      .next (CheatState.advance { s with
        data := d.setOwn (if d.data1Mode then floatOp d.own arg1 else intOp d.own arg1) }) :=
    fun d => applyLine_scaling (s := { s with data := d }) h hindex hskip
  have hhere := hrun s.data
  constructor
  · intro hactive hsecond
    -- the other mode of the first register
    have hother := congrArg (fun p => (outcomeData p).data2)
      (hactive.independent (s.data.data1, !s.data.data1Mode))
    rw [hrun, hhere] at hother
    cases hmode : s.data.data1Mode
    · simpa [outcomeData, changeOutcome, CheatState.advance, CheatData.withInactive,
        CheatData.setOwn, CheatData.own, hsecond, hmode] using hother
    · simpa [outcomeData, changeOutcome, CheatState.advance, CheatData.withInactive,
        CheatData.setOwn, CheatData.own, hsecond, hmode] using hother.symm
  · intro hsame
    have hmode : ∀ mode, (s.data.activeData = false → mode = s.data.data1Mode) →
        (if mode then floatOp s.data.own arg1 else intOp s.data.own arg1) =
          if s.data.data1Mode then floatOp s.data.own arg1 else intOp s.data.own arg1 := by
      intro mode hfirst
      cases hactive : s.data.activeData
      · rw [hfirst hactive]
      · have hboth : floatOp s.data.own arg1 = intOp s.data.own arg1 := by
          simpa [CheatData.own, hactive] using hsame hactive
        rw [hboth, ite_self, ite_self]
    have hindependent : ∀ r, applyLine c cheat { s with data := s.data.withInactive r } =
        changeOutcome (.withInactive r) (applyLine c cheat s) := by
      intro r
      rw [hrun, hhere, own_withInactive, hmode, setOwn_withInactive]
      · rfl
      · exact fun hactive => by simp [CheatData.withInactive, hactive]
    refine ⟨hindependent, kept_of_independent hindependent, ?_⟩
    intro floatOp' intOp' arg1' hsome _ _
    rw [h] at hsome
    cases hsome
    rw [hhere, CheatData.scaleOwn, hmode s.data.ownMode]
    exact fun hactive => by simp [CheatData.ownMode, hactive]

/-- A line that names no data register is blind to the inactive one, and goes by the mode of the
active one, if and only if it is no F4 or F5 that the wrong mode matters to. -/
theorem activeOnly_iff (c : Console W) (cheat : Cheat) (s : CheatState W)
    (hnames : namesData (cheat.codes s.index) = false) :
    ActiveOnly c cheat s ↔ ModesAgree c cheat s := by
  by_cases hindex : s.index < cheat.codesCount
  · rcases hscaling : scaling c (cheat.codes s.index) with _ | ⟨floatOp, intOp, arg1⟩
    · refine iff_of_true (activeOnly_of_blind (decode_isBlind c hnames hscaling) hscaling) ?_
      intro floatOp intOp arg1 hsome
      rw [hscaling] at hsome
      cases hsome
    cases hskip : s.skipExecution
    · rw [activeOnly_scaling_iff hscaling hindex hskip]
      constructor
      · intro h floatOp' intOp' arg1' hsome _ _
        rw [hscaling] at hsome
        cases hsome
        exact h
      · exact fun h => h floatOp intOp arg1 hscaling hindex hskip
    · have hrun : ∀ d : CheatData W, applyLine c cheat { s with data := d } =
          .next (CheatState.advance { s with data := d }) := by
        intro d
        rw [applyLine, if_pos hindex, decode_scaling hscaling]
        show (if s.skipExecution then _ else _) = _
        rw [hskip]
        rfl
      have hindependent : ∀ r, applyLine c cheat { s with data := s.data.withInactive r } =
          changeOutcome (.withInactive r) (applyLine c cheat s) := by
        intro r
        rw [hrun, hrun s.data]
        rfl
      refine iff_of_true ⟨hindependent, kept_of_independent hindependent, ?_⟩ ?_
      · intro _ _ _ _ _ hact
        rw [hskip] at hact
        cases hact
      · intro _ _ _ _ _ hact
        rw [hskip] at hact
        cases hact
  · have hrun : ∀ d : CheatData W, applyLine c cheat { s with data := d } = .done (1, d) :=
      fun d => if_neg hindex
    have hindependent : ∀ r, applyLine c cheat { s with data := s.data.withInactive r } =
        changeOutcome (.withInactive r) (applyLine c cheat s) := by
      intro r
      rw [hrun, hrun s.data]
      rfl
    refine iff_of_true ⟨hindependent, kept_of_independent hindependent, ?_⟩ ?_
    · exact fun _ _ _ _ hin => absurd hin hindex
    · exact fun _ _ _ _ hin => absurd hin hindex

/-- The active data is multiplied by 2. -/
def doublingCheat : Cheat := cheatOf [0xF400000000000002] (by decide)

/-- The second register is active, and holds a float. -/
def secondActive : CheatState (BitVec 32) :=
  { CheatState.start ⟨0, 0⟩ (emptyData 0) with
    data := { emptyData 0 with data2 := 3, activeData := true, data2Mode := true } }

theorem activeOnly_doubling :
    ActiveOnly emptyConsole doublingCheat (.start ⟨0, 0⟩ (emptyData 0)) := by
  refine (activeOnly_iff emptyConsole doublingCheat _ (by decide)).mpr ?_
  exact fun _ _ _ _ _ _ hsecond => absurd hsecond Bool.false_ne_true

theorem second_register_goes_by_first_mode : ¬∀ (W : Type) (c : Console W) (cheat : Cheat)
    (s : CheatState W), namesData (cheat.codes s.index) = false → ActiveOnly c cheat s := by
  intro h
  have hactive := h (BitVec 32) emptyConsole doublingCheat secondActive (by decide)
  have hown := hactive.ownMode emptyConsole.floatMul (· * ·) 2 rfl (by decide) rfl
  have hdata := congrArg (fun p => (outcomeData p).data2) hown
  exact absurd (hdata : (6 : BitVec 32) = 3) (by decide)

end Presence3DS.Cheats
