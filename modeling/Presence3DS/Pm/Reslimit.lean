import Mathlib.Algebra.Order.Ring.Int
import Mathlib.Algebra.Order.Ring.Nat
import Mathlib.Data.List.TakeWhile
import Mathlib.Order.Fin.Basic

/-! The share of core 1 that an application starts with (`reslimit.c`). -/

namespace Presence3DS.Pm.Reslimit

inductive SchedMode where
  | multi
  | single
deriving DecidableEq

structure CpuTimeOverride where
  titleUid : ℕ
  value : ℕ
deriving DecidableEq

namespace CpuTimeOverride

/-- A value between 100 and 200 asks for the "multi" mode and a limit of what is over 100. -/
def IsMulti (e : CpuTimeOverride) : Prop := 100 < e.value ∧ e.value < 200

instance (e : CpuTimeOverride) : Decidable e.IsMulti :=
  inferInstanceAs (Decidable (100 < e.value ∧ e.value < 200))

def limit (e : CpuTimeOverride) : ℕ := if e.IsMulti then e.value - 100 else e.value

def schedMode (e : CpuTimeOverride) : SchedMode := if e.IsMulti then .multi else .single

end CpuTimeOverride

def startCpuTimeOverrides : List CpuTimeOverride :=
  [⟨0x205, 10000⟩, ⟨0x215, 10000⟩, ⟨0x225, 10000⟩, ⟨0x304, 10000⟩, ⟨0x32E, 10000⟩, ⟨0x334, 30⟩,
    ⟨0x335, 30⟩, ⟨0x336, 30⟩, ⟨0x348, 10000⟩, ⟨0x349, 10000⟩, ⟨0x368, 10000⟩, ⟨0x370, 10000⟩,
    ⟨0x389, 10000⟩, ⟨0x490, 10000⟩, ⟨0x491, 10000⟩, ⟨0x562, 10000⟩]

/-! ## The calls of the kernel -/

/-- What the console answers: the flag of `svcGetSystemInfo` if the call succeeds, and which
limits and scheduling modes the kernel takes. -/
structure Console where
  isN3ds : Bool
  redirectAppThreads : Bool
  disableThreadRedir : Option ℤ
  takesLimit : ℤ → Bool
  takesMode : SchedMode → Bool

/-- The threads of applications go to core 2, and the limit of core 1 is left alone. -/
def Console.Redirects (c : Console) : Prop :=
  c.isN3ds = true ∧ c.redirectAppThreads = true ∧ c.disableThreadRedir = some 0

instance (c : Console) : Decidable c.Redirects :=
  inferInstanceAs (Decidable (_ ∧ _ ∧ _))

/-- The limit and the scheduling mode of core 1 as the kernel has them, and the fields of
`g_manager` about it. -/
structure Core1 where
  currentLimit : ℤ
  schedMode : SchedMode
  maxAppCpuTime : ℕ
  cpuTimeBase : ℕ
deriving DecidableEq

/-- `assertSuccess (setAppCpuTimeLimit limit)`; a refusal is a panic. -/
def setAppCpuTimeLimit (c : Console) (limit : ℤ) (s : Core1) : Option Core1 :=
  if c.Redirects then some s
  else if c.takesLimit limit = true then some { s with currentLimit := limit }
  else none

/-- `assertSuccess (svcKernelSetState (6, 3, mode))` -/
def kernelSetState (c : Console) (mode : SchedMode) (s : Core1) : Option Core1 :=
  if c.takesMode mode = true then some { s with schedMode := mode } else none

/-! ## The override of a title -/

def titleUid (titleId : ℕ) : ℕ := ((titleId % 2 ^ 32) >>> 8) &&& 0xFFFFF

/-- The index after the search: the `for` statement counts a variable of its own under the same
name, so that the variable the entry is read with still is 0. -/
def searchIndex (overrides : List CpuTimeOverride) (uid : ℕ) : ℕ :=
  let i := 0
  let _i := (overrides.takeWhile fun e => decide (uid < e.titleUid)).length
  i

def findOverride (overrides : List CpuTimeOverride) (uid : ℕ) : Option CpuTimeOverride :=
  match overrides.head?, overrides.getLast? with
  | some first, some last =>
    if first.titleUid ≤ uid ∧ uid ≤ last.titleUid then overrides[searchIndex overrides uid]?
    else none
  | _, _ => none

def cputimeMultiMask : ℕ := 2 ^ 7
def cputimeSingleMask : ℕ := 0

/-- The byte with the maximum and the mode, and the limit to start with. -/
def cpuTimeAndCurrentValue (overrides : List CpuTimeOverride) (titleId descriptor : ℕ) : ℕ × ℕ :=
  let cpuTime := descriptor % 2 ^ 8
  if cpuTime = 0 then
    match findOverride overrides (titleUid titleId) with
    | some e =>
      if 100 < e.value ∧ e.value < 200 then (cputimeMultiMask ||| 80, e.value - 100)
      else (cputimeSingleMask ||| 80, e.value)
    | none => (cputimeSingleMask ||| 80, 0)
  else (cpuTime, 0)

def setAppCpuTimeLimitAndSchedModeFromDescriptor (c : Console)
    (overrides : List CpuTimeOverride) (titleId descriptor : ℕ) (s : Core1) : Option Core1 := do
  let s ← setAppCpuTimeLimit c 0 s
  let s := { s with cpuTimeBase := 0 }
  let (cpuTime, currentValueToSet) := cpuTimeAndCurrentValue overrides titleId descriptor
  let s ← kernelSetState c (if cpuTime &&& cputimeMultiMask ≠ 0 then .multi else .single) s
  let s := { s with maxAppCpuTime := cpuTime &&& 0x7F }
  if currentValueToSet ≠ 0 then setAppCpuTimeLimit c currentValueToSet s else some s

variable {c : Console} {overrides : List CpuTimeOverride} {titleId descriptor : ℕ} {s s' : Core1}

/-! ## What a call leaves -/

/-- The mode that the byte for the kernel asks for. -/
def modeOf (cpuTime : ℕ) : SchedMode :=
  if cpuTime &&& cputimeMultiMask ≠ 0 then .multi else .single

theorem modeOf_multi : modeOf (cputimeMultiMask ||| 80) = .multi := by decide

theorem modeOf_single : modeOf (cputimeSingleMask ||| 80) = .single := by decide

theorem setAppCpuTimeLimit_eq {limit : ℤ} (h : setAppCpuTimeLimit c limit s = some s') :
    s' = { s with currentLimit := if c.Redirects then s.currentLimit else limit } := by
  unfold setAppCpuTimeLimit at h
  split_ifs at h with hredirects
  · rw [if_pos hredirects]
    exact (Option.some.inj h).symm
  · rw [if_neg hredirects]
    exact (Option.some.inj h).symm

theorem kernelSetState_eq {mode : SchedMode} (h : kernelSetState c mode s = some s') :
    s' = { s with schedMode := mode } := by
  unfold kernelSetState at h
  split_ifs at h
  exact (Option.some.inj h).symm

theorem setFromDescriptor_eq
    (h : setAppCpuTimeLimitAndSchedModeFromDescriptor c overrides titleId descriptor s = some s') :
    s'.currentLimit = (if c.Redirects then s.currentLimit
      else ((cpuTimeAndCurrentValue overrides titleId descriptor).2 : ℤ)) ∧
    s'.schedMode = modeOf (cpuTimeAndCurrentValue overrides titleId descriptor).1 := by
  unfold setAppCpuTimeLimitAndSchedModeFromDescriptor at h
  generalize cpuTimeAndCurrentValue overrides titleId descriptor = v at h ⊢
  obtain ⟨s₁, h₁, h⟩ := Option.bind_eq_some_iff.mp h
  obtain ⟨s₂, h₂, h⟩ := Option.bind_eq_some_iff.mp h
  obtain rfl := setAppCpuTimeLimit_eq h₁
  obtain rfl := kernelSetState_eq h₂
  by_cases hvalue : v.2 ≠ 0
  · rw [if_pos hvalue] at h
    obtain rfl := setAppCpuTimeLimit_eq h
    refine ⟨?_, rfl⟩
    show (if c.Redirects then (if c.Redirects then s.currentLimit else 0) else (v.2 : ℤ)) = _
    split_ifs <;> rfl
  · rw [if_neg hvalue] at h
    obtain rfl := Option.some.inj h
    refine ⟨?_, rfl⟩
    show (if c.Redirects then s.currentLimit else (0 : ℤ)) = _
    rw [not_not.mp hvalue]
    rfl

/-! ## What the search finds -/

theorem findOverride_eq_some {uid : ℕ} {e : CpuTimeOverride} :
    findOverride overrides uid = some e ↔
      overrides.head? = some e ∧
        ∃ last, overrides.getLast? = some last ∧ e.titleUid ≤ uid ∧ uid ≤ last.titleUid := by
  unfold findOverride
  cases hfirst : overrides.head? with
  | none => simp
  | some first =>
    obtain ⟨last, hlast⟩ : ∃ last, overrides.getLast? = some last := by
      cases overrides with
      | nil => simp at hfirst
      | cons a as => exact ⟨_, List.getLast?_cons ..⟩
    have hread : overrides[searchIndex overrides uid]? = some first := by
      show overrides[0]? = some first
      rw [← List.head?_eq_getElem?, hfirst]
    simp only [hlast, hread, Option.some.injEq]
    constructor
    · intro h
      split_ifs at h with hrange
      obtain rfl := Option.some.inj h
      exact ⟨rfl, last, rfl, hrange⟩
    · rintro ⟨rfl, _, rfl, hrange⟩
      exact if_pos hrange

theorem findOverride_of_mem (hsorted : overrides.Pairwise fun d e => d.titleUid ≤ e.titleUid)
    {e : CpuTimeOverride} (he : e ∈ overrides) :
    ∃ first, overrides.head? = some first ∧ findOverride overrides e.titleUid = some first := by
  obtain ⟨first, hfirst⟩ : ∃ first, overrides.head? = some first := by
    cases overrides with
    | nil => exact absurd he List.not_mem_nil
    | cons a as => exact ⟨a, rfl⟩
  refine ⟨first, hfirst, findOverride_eq_some.mpr ⟨hfirst, ?_⟩⟩
  have hne := List.ne_nil_of_mem he
  refine ⟨overrides.getLast hne, List.getLast?_eq_some_getLast _, ?_, ?_⟩
  · cases overrides with
    | nil => exact absurd he List.not_mem_nil
    | cons a as =>
      obtain rfl := Option.some.inj hfirst
      obtain rfl | htail := List.mem_cons.mp he
      · exact le_rfl
      · exact (List.pairwise_cons.mp hsorted).1 e htail
  · generalize hlast : overrides.getLast hne = last
    have heq := List.dropLast_concat_getLast hne
    rw [hlast] at heq
    rw [← heq] at hsorted he
    obtain hinit | hend := List.mem_append.mp he
    · exact (List.pairwise_append.mp hsorted).2.2 e hinit _ (List.mem_singleton_self _)
    · rw [List.mem_singleton.mp hend]

theorem cpuTimeAndCurrentValue_some {e : CpuTimeOverride} (hzero : descriptor % 2 ^ 8 = 0)
    (h : findOverride overrides (titleUid titleId) = some e) :
    (cpuTimeAndCurrentValue overrides titleId descriptor).2 = e.limit ∧
      modeOf (cpuTimeAndCurrentValue overrides titleId descriptor).1 = e.schedMode := by
  unfold cpuTimeAndCurrentValue
  simp only [hzero, h, if_true]
  by_cases hmulti : 100 < e.value ∧ e.value < 200
  · have hm : e.IsMulti := hmulti
    rw [if_pos hmulti, CpuTimeOverride.limit, CpuTimeOverride.schedMode, if_pos hm, if_pos hm]
    exact ⟨rfl, modeOf_multi⟩
  · have hm : ¬e.IsMulti := hmulti
    rw [if_neg hmulti, CpuTimeOverride.limit, CpuTimeOverride.schedMode, if_neg hm, if_neg hm]
    exact ⟨rfl, modeOf_single⟩

theorem cpuTimeAndCurrentValue_none
    (h : descriptor % 2 ^ 8 = 0 → findOverride overrides (titleUid titleId) = none) :
    (cpuTimeAndCurrentValue overrides titleId descriptor).2 = 0 := by
  unfold cpuTimeAndCurrentValue
  by_cases hzero : descriptor % 2 ^ 8 = 0
  · simp only [hzero, h hzero, if_true]
  · simp only [hzero, if_false]

/-! ## When it is the override of the title -/

/-- The descriptor leaves the time open and the title is in the table. -/
def Overridden (overrides : List CpuTimeOverride) (titleId descriptor : ℕ) : Prop :=
  descriptor % 2 ^ 8 = 0 ∧ ∃ e ∈ overrides, e.titleUid = titleUid titleId

instance : Decidable (Overridden overrides titleId descriptor) :=
  inferInstanceAs (Decidable (_ ∧ _))

/-- The override of the title is in force exactly where there is one, and the limit is 0
otherwise. -/
def AppliesOverride (overrides : List CpuTimeOverride) (titleId descriptor : ℕ) (s : Core1) :
    Prop :=
  (Overridden overrides titleId descriptor → ∃ e ∈ overrides, e.titleUid = titleUid titleId ∧
    s.currentLimit = e.limit ∧ s.schedMode = e.schedMode) ∧
  (¬Overridden overrides titleId descriptor → s.currentLimit = 0)

instance : Decidable (AppliesOverride overrides titleId descriptor s) :=
  inferInstanceAs (Decidable (_ ∧ _))

/-- The entry of the title says what the first entry says, and the first entry says 0 for a title
between the entries; where threads are redirected, the limit that is found is the one to set. -/
def FirstEntrySuits (c : Console) (overrides : List CpuTimeOverride) (titleId descriptor : ℕ)
    (s : Core1) : Prop :=
  (Overridden overrides titleId descriptor → ∃ e ∈ overrides, e.titleUid = titleUid titleId ∧
    ∃ first ∈ overrides.head?, first.schedMode = e.schedMode ∧
      (if c.Redirects then s.currentLimit else (first.limit : ℤ)) = e.limit) ∧
  (¬Overridden overrides titleId descriptor →
    if c.Redirects then s.currentLimit = 0
    else descriptor % 2 ^ 8 = 0 → ∀ first ∈ overrides.head?, ∀ last ∈ overrides.getLast?,
      first.titleUid ≤ titleUid titleId → titleUid titleId ≤ last.titleUid → first.limit = 0)

/-- A call applies the override of the title exactly where the first entry does as well. -/
theorem appliesOverride_iff (hsorted : overrides.Pairwise fun d e => d.titleUid ≤ e.titleUid)
    (h : setAppCpuTimeLimitAndSchedModeFromDescriptor c overrides titleId descriptor s = some s') :
    AppliesOverride overrides titleId descriptor s' ↔
      FirstEntrySuits c overrides titleId descriptor s := by
  obtain ⟨hlimit, hmode⟩ := setFromDescriptor_eq h
  refine and_congr ?_ ?_
  · refine forall_congr' fun hover => exists_congr fun e => and_congr_right fun he =>
      and_congr_right fun huid => ?_
    obtain ⟨first, hfirst, hfind⟩ := findOverride_of_mem hsorted he
    rw [huid] at hfind
    obtain ⟨hvalue, hmodeOf⟩ := cpuTimeAndCurrentValue_some hover.1 hfind
    rw [hlimit, hmode, hvalue, hmodeOf, and_comm]
    constructor
    · rintro ⟨hsame, hlim⟩
      exact ⟨first, hfirst, hsame, hlim⟩
    · rintro ⟨d, hd, hsame, hlim⟩
      obtain rfl := Option.some.inj (hfirst.symm.trans hd)
      exact ⟨hsame, hlim⟩
  · refine forall_congr' fun hover => ?_
    rw [hlimit]
    by_cases hredirects : c.Redirects
    · rw [if_pos hredirects, if_pos hredirects]
    rw [if_neg hredirects, if_neg hredirects, Nat.cast_eq_zero]
    constructor
    · intro hvalue hzero first hfirst last hlast hlow hhigh
      have hfind := findOverride_eq_some.mpr ⟨hfirst, last, hlast, hlow, hhigh⟩
      rw [← (cpuTimeAndCurrentValue_some hzero hfind).1, hvalue]
    · intro hsuits
      by_cases hnone : descriptor % 2 ^ 8 = 0 → findOverride overrides (titleUid titleId) = none
      · exact cpuTimeAndCurrentValue_none hnone
      · obtain ⟨hzero, hfind⟩ := Classical.not_imp.mp hnone
        obtain ⟨first, hfind⟩ := Option.ne_none_iff_exists'.mp hfind
        obtain ⟨hfirst, last, hlast, hlow, hhigh⟩ := findOverride_eq_some.mp hfind
        rw [(cpuTimeAndCurrentValue_some hzero hfind).1]
        exact hsuits hzero first hfirst last hlast hlow hhigh

/-- A console without redirection of threads whose kernel takes every call. -/
def oldConsole : Console := ⟨false, false, none, fun _ => true, fun _ => true⟩

/-- 3DS sound has the first entry, so that it gets its own. -/
theorem appliesOverride_sound :
    AppliesOverride startCpuTimeOverrides 0x0004001000020500 0 ⟨10000, .single, 80, 0⟩ :=
  (appliesOverride_iff (c := oldConsole) (s := ⟨0, .multi, 0, 0⟩) (by decide) (by decide)).mpr
    ⟨fun _ => ⟨_, List.mem_cons_self, by decide, _, rfl, rfl, rfl⟩,
      fun h => absurd (by decide) h⟩

/-- Ocarina of Time asks for a limit of 30 and gets the 10000 of 3DS sound. -/
theorem first_override_for_zelda :
    setAppCpuTimeLimitAndSchedModeFromDescriptor oldConsole startCpuTimeOverrides
        0x0004000000033500 0 ⟨0, .multi, 0, 0⟩ = some ⟨10000, .single, 80, 0⟩ ∧
      ¬AppliesOverride startCpuTimeOverrides 0x0004000000033500 0 ⟨10000, .single, 80, 0⟩ := by
  decide

end Presence3DS.Pm.Reslimit
