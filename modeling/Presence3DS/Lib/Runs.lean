import Mathlib.Algebra.Order.Ring.Int
import Mathlib.Algebra.Order.Ring.Nat
import Mathlib.Data.List.TakeWhile
import Mathlib.Order.Fin.Basic

/-! Finite runs of a deterministic labelled step function. A label carries every
choice that the step itself does not make, so a run is the list of its labels. -/

namespace Runs

variable {σ α : Type*} {step : σ → α → Option σ}

def run (step : σ → α → Option σ) : σ → List α → Option σ
  | s, [] => some s
  | s, a :: as => (step s a).bind fun t => run step t as

/-- Every step the labels take satisfies `P`; a label that is not enabled ends the run. -/
def AllSteps (step : σ → α → Option σ) (P : σ → α → σ → Prop) : σ → List α → Prop
  | _, [] => True
  | s, a :: as => ∀ t, step s a = some t → P s a t ∧ AllSteps step P t as

/-- Every step of the run is taken in a state that meets the condition `C`. -/
def Guarded (step : σ → α → Option σ) (C : σ → α → Prop) : σ → List α → Prop :=
  AllSteps step fun s a _ => C s a

theorem Guarded.cons {C : σ → α → Prop} {s t : σ} {a : α} {as : List α} (h : step s a = some t)
    (hC : C s a) (hrest : Guarded step C t as) : Guarded step C s (a :: as) := by
  intro u hu
  have hsame : t = u := Option.some.inj (h.symm.trans hu)
  exact hsame ▸ ⟨hC, hrest⟩

/-- `Guarded`, as a test. -/
def guards (step : σ → α → Option σ) (c : σ → α → Bool) : σ → List α → Bool
  | _, [] => true
  | s, a :: as => (step s a).all fun t => c s a && guards step c t as

theorem guarded_of_guards {c : σ → α → Bool} {s : σ} {as : List α}
    (h : guards step c s as = true) : Guarded step (fun s a => c s a = true) s as := by
  induction as generalizing s with
  | nil => trivial
  | cons a as ih =>
    intro t ht
    rw [guards, ht, Option.all_some, Bool.and_eq_true] at h
    exact ⟨h.1, ih h.2⟩

/-- What holds after every step of a run holds at its end. -/
theorem AllSteps.run {Q : σ → Prop} {s t : σ} {as : List α} (hs : Q s)
    (h : AllSteps step (fun _ _ u => Q u) s as) (hrun : Runs.run step s as = some t) : Q t := by
  induction as generalizing s with
  | nil => exact Option.some.inj hrun ▸ hs
  | cons a as ih =>
    obtain ⟨u, hu, hrun⟩ := Option.bind_eq_some_iff.mp hrun
    obtain ⟨hQ, h⟩ := h u hu
    exact ih hQ h hrun

/-- What every step of a run satisfies, a step taken at its end does. -/
theorem AllSteps.last {P : σ → α → σ → Prop} {s t u : σ} {as : List α} {a : α}
    (h : AllSteps step P s (as ++ [a])) (hrun : Runs.run step s as = some t)
    (ha : step t a = some u) : P t a u := by
  induction as generalizing s with
  | nil =>
    have hs : s = t := Option.some.inj hrun
    exact hs ▸ (h u (hs ▸ ha)).1
  | cons b as ih =>
    obtain ⟨v, hv, hrun⟩ := Option.bind_eq_some_iff.mp hrun
    exact ih (h v hv).2 hrun

theorem AllSteps.imp {P Q : σ → α → σ → Prop} (himp : ∀ s a t, P s a t → Q s a t) {s : σ}
    {as : List α} (h : AllSteps step P s as) : AllSteps step Q s as := by
  induction as generalizing s with
  | nil => trivial
  | cons a as ih =>
    intro t ht
    exact ⟨himp s a t (h t ht).1, ih (h t ht).2⟩

/-- An invariant that guarded steps preserve holds at the end of every guarded run. -/
theorem invariant_of_guarded {C : σ → α → Prop} {I : σ → Prop}
    (hstep : ∀ s a t, I s → C s a → step s a = some t → I t) {s t : σ} {as : List α}
    (hs : I s) (hC : Guarded step C s as) (hrun : run step s as = some t) : I t := by
  induction as generalizing s with
  | nil => exact Option.some.inj hrun ▸ hs
  | cons a as ih =>
    obtain ⟨u, hu, hrun⟩ := Option.bind_eq_some_iff.mp hrun
    obtain ⟨hCa, hC⟩ := hC u hu
    exact ih (hstep s a u hs hCa hu) hC hrun

/-- What every guarded step from an invariant state satisfies, every step of a guarded run does. -/
theorem allSteps_of_guarded {C : σ → α → Prop} {I : σ → Prop} {P : σ → α → σ → Prop}
    (hstep : ∀ s a t, I s → C s a → step s a = some t → I t ∧ P s a t) {s : σ} {as : List α}
    (hs : I s) (hC : Guarded step C s as) : AllSteps step P s as := by
  induction as generalizing s with
  | nil => trivial
  | cons a as ih =>
    intro t ht
    obtain ⟨hCa, hC⟩ := hC t ht
    obtain ⟨hI, hP⟩ := hstep s a t hs hCa ht
    exact ⟨hP, ih hI hC⟩

theorem allSteps_of_invariant {I : σ → Prop} {P : σ → α → σ → Prop}
    (hstep : ∀ s a t, I s → step s a = some t → I t ∧ P s a t) {s : σ} (hs : I s) (as : List α) :
    AllSteps step P s as := by
  induction as generalizing s with
  | nil => trivial
  | cons a as ih =>
    intro t ht
    obtain ⟨hI, hP⟩ := hstep s a t hs ht
    exact ⟨hP, ih hI⟩

/-- Where a good step is exactly one whose condition is met, and good steps keep the
invariant, a run is good throughout exactly when it is guarded throughout. -/
theorem allSteps_iff_guarded {C : σ → α → Prop} {I : σ → Prop} {P : σ → α → σ → Prop}
    (hiff : ∀ s a t, I s → step s a = some t → (P s a t ↔ C s a))
    (hkeep : ∀ s a t, I s → step s a = some t → P s a t → I t) {s : σ} (hs : I s)
    (as : List α) : AllSteps step P s as ↔ Guarded step C s as := by
  induction as generalizing s with
  | nil => exact Iff.rfl
  | cons a as ih =>
    constructor
    · intro h t ht
      obtain ⟨hP, h⟩ := h t ht
      exact ⟨(hiff s a t hs ht).mp hP, (ih (hkeep s a t hs ht hP)).mp h⟩
    · intro h t ht
      obtain ⟨hC, h⟩ := h t ht
      have hP := (hiff s a t hs ht).mpr hC
      exact ⟨hP, (ih (hkeep s a t hs ht hP)).mpr h⟩

end Runs
