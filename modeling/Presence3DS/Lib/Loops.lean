import Mathlib.Algebra.Order.Ring.Int
import Mathlib.Algebra.Order.Ring.Nat
import Mathlib.Data.List.TakeWhile
import Mathlib.Logic.Relation
import Mathlib.Order.Fin.Basic

/-! Loops whose body goes on with a next state or is done with a result. -/

namespace Loops

inductive Pass (σ ρ : Type*) where
  | next (s : σ)
  | done (r : ρ)

variable {σ τ ρ : Type*} {body : σ → Pass σ ρ} {s t u : σ} {r r' : ρ}

def Reaches (body : σ → Pass σ ρ) : σ → σ → Prop :=
  Relation.ReflTransGen fun s t => body s = .next t

def Returns (body : σ → Pass σ ρ) (s : σ) (r : ρ) : Prop :=
  ∃ t, Reaches body s t ∧ body t = .done r

/-- Every state of the run meets the condition. -/
def Guarded (body : σ → Pass σ ρ) (C : σ → Prop) (s : σ) : Prop :=
  ∀ t, Reaches body s t → C t

theorem Guarded.here {C : σ → Prop} (h : Guarded body C s) : C s :=
  h s Relation.ReflTransGen.refl

theorem Guarded.next {C : σ → Prop} (h : Guarded body C s) (hst : body s = .next t) :
    Guarded body C t :=
  fun u hu => h u (Relation.ReflTransGen.head hst hu)

/-! ## Invariants and termination -/

theorem invariant_of_guarded {C I : σ → Prop}
    (hstep : ∀ s t, I s → C s → body s = .next t → I t) (hs : I s) (hC : Guarded body C s)
    (h : Reaches body s t) : I t := by
  induction h with
  | refl => exact hs
  | tail hreach hlast ih => exact hstep _ _ ih (hC _ hreach) hlast

/-- A run whose passes all make a measure smaller returns. -/
theorem returns_of_decreasing {α : Type*} {r : α → α → Prop} (hwf : WellFounded r) (m : σ → α)
    {C I : σ → Prop} (hstep : ∀ s t, I s → C s → body s = .next t → I t ∧ r (m t) (m s))
    (hs : I s) (hC : Guarded body C s) : ∃ res, Returns body s res := by
  generalize hm : m s = a
  induction a using hwf.induction generalizing s with
  | _ a ih =>
    cases hb : body s with
    | done res => exact ⟨res, s, Relation.ReflTransGen.refl, hb⟩
    | next t =>
      obtain ⟨ht, hlt⟩ := hstep s t hs hC.here hb
      obtain ⟨res, u, hreach, hdone⟩ := ih (m t) (hm ▸ hlt) ht (hC.next hb) rfl
      exact ⟨res, u, Relation.ReflTransGen.head hb hreach, hdone⟩

theorem Returns.of_next (h : Returns body s r) (hst : body s = .next t) : Returns body t r := by
  obtain ⟨u, hreach, hdone⟩ := h
  rcases hreach.cases_head with rfl | ⟨v, hv, hreach⟩
  · rw [hst] at hdone
    cases hdone
  · rw [hst] at hv
    cases hv
    exact ⟨u, hreach, hdone⟩

theorem Returns.of_reached (h : Returns body s r) (hst : Reaches body s t) : Returns body t r := by
  induction hst with
  | refl => exact h
  | tail _ hlast ih => exact ih.of_next hlast

theorem Returns.unique (h : Returns body s r) (h' : Returns body s r') : r = r' := by
  obtain ⟨t, hreach, hdone⟩ := h
  induction hreach using Relation.ReflTransGen.head_induction_on with
  | refl =>
    obtain ⟨u, hreach', hdone'⟩ := h'
    rcases hreach'.cases_head with rfl | ⟨v, hv, -⟩
    · rw [hdone] at hdone'
      cases hdone'
      rfl
    · rw [hdone] at hv
      cases hv
  | head hv _ ih => exact ih (h'.of_next hv)

/-- A run that comes back to a state does not return. -/
theorem not_returns_of_fixed (hfixed : body s = .next s) : ¬ Returns body s r := by
  rintro ⟨t, hreach, hdone⟩
  have hsame : t = s := by
    apply invariant_of_guarded (C := fun _ => True) (I := fun t => t = s) _ rfl
      (fun _ _ => trivial) hreach
    rintro _ u rfl - hnext
    rw [hfixed] at hnext
    cases hnext
    rfl
  rw [hsame, hfixed] at hdone
  cases hdone

/-! ## Ways that meet a condition -/

/-- The first state leads to the second one, and every state on the way meets the condition. -/
def Leads (body : σ → Pass σ ρ) (C : σ → Prop) : σ → σ → Prop :=
  Relation.ReflTransGen fun s t => C s ∧ body s = .next t

theorem guarded_iff_of_next {C : σ → Prop} (hst : body s = .next t) :
    Guarded body C s ↔ C s ∧ Guarded body C t := by
  constructor
  · exact fun h => ⟨h.here, h.next hst⟩
  · rintro ⟨hs, ht⟩ u hu
    rcases hu.cases_head with rfl | ⟨v, hv, hreach⟩
    · exact hs
    · rw [hst] at hv
      cases hv
      exact ht u hreach

theorem guarded_iff_of_done {C : σ → Prop} (hs : body s = .done r) : Guarded body C s ↔ C s := by
  constructor
  · exact fun h => h.here
  · intro hC u hu
    rcases hu.cases_head with rfl | ⟨v, hv, -⟩
    · exact hC
    · rw [hs] at hv
      cases hv

theorem Leads.guarded_iff {C : σ → Prop} (h : Leads body C s t) :
    Guarded body C s ↔ Guarded body C t := by
  induction h with
  | refl => exact Iff.rfl
  | tail _ hlast ih =>
    rw [ih, guarded_iff_of_next hlast.2]
    exact and_iff_right hlast.1

theorem Leads.reaches {C : σ → Prop} (h : Leads body C s t) : Reaches body s t := by
  induction h with
  | refl => exact Relation.ReflTransGen.refl
  | tail _ hlast ih => exact ih.tail hlast.2

theorem Returns.of_reaches (h : Returns body t r) (hst : Reaches body s t) : Returns body s r := by
  obtain ⟨u, hreach, hdone⟩ := h
  exact ⟨u, hst.trans hreach, hdone⟩

theorem Returns.of_done (hs : body s = .done r) : Returns body s r :=
  ⟨s, Relation.ReflTransGen.refl, hs⟩

/-- A loop over numbers comes to the first one that meets a condition, or to the end. -/
theorem reaches_first {f : ℕ → σ} {P : ℕ → Prop} {n : ℕ}
    (hstep : ∀ k < n, ¬P k → Reaches body (f k) (f (k + 1))) :
    (∃ k < n, P k ∧ (∀ j < k, ¬P j) ∧ Reaches body (f 0) (f k)) ∨
      (∀ k < n, ¬P k) ∧ Reaches body (f 0) (f n) := by
  induction n with
  | zero => exact .inr ⟨fun k hk => absurd hk k.not_lt_zero, Relation.ReflTransGen.refl⟩
  | succ n ih =>
    rcases ih fun k hk => hstep k (hk.trans n.lt_succ_self) with ⟨k, hk, hfirst⟩ | ⟨hnone, hreach⟩
    · exact .inl ⟨k, hk.trans n.lt_succ_self, hfirst⟩
    · by_cases hn : P n
      · exact .inl ⟨n, n.lt_succ_self, hn, hnone, hreach⟩
      · refine .inr ⟨fun k hk => ?_, hreach.trans (hstep n n.lt_succ_self hn)⟩
        rcases Nat.lt_succ_iff_lt_or_eq.mp hk with hlt | rfl
        · exact hnone k hlt
        · exact hn

/-! ## Runs that are evaluated -/

/-- The state after `n` passes. -/
def stateAfter (body : σ → Pass σ ρ) : ℕ → σ → Option σ
  | 0, s => some s
  | n + 1, s =>
    match body s with
    | .next t => stateAfter body n t
    | .done _ => none

theorem reaches_of_stateAfter {n : ℕ} (h : stateAfter body n s = some t) : Reaches body s t := by
  induction n generalizing s with
  | zero =>
    cases h
    exact Relation.ReflTransGen.refl
  | succ n ih =>
    rw [stateAfter] at h
    cases hb : body s with
    | done res =>
      rw [hb] at h
      cases h
    | next u =>
      rw [hb] at h
      exact Relation.ReflTransGen.head hb (ih h)

/-- The run is over within `n` passes, and its states pass the test. -/
def guards (body : σ → Pass σ ρ) (c : σ → Bool) : ℕ → σ → Bool
  | 0, _ => false
  | n + 1, s =>
    c s && match body s with
      | .next t => guards body c n t
      | .done _ => true

theorem guarded_of_guards {c : σ → Bool} {n : ℕ} (h : guards body c n s = true) :
    Guarded body (fun t => c t = true) s := by
  induction n generalizing s with
  | zero => cases h
  | succ n ih =>
    obtain ⟨hc, hrest⟩ := Bool.and_eq_true_iff.mp h
    intro t hreach
    rcases hreach.cases_head with rfl | ⟨u, hu, hreach⟩
    · exact hc
    · have hu : body s = .next u := hu
      rw [hu] at hrest
      exact ih hrest t hreach

/-- The result of a loop that is done within `n` passes. -/
def resultWithin (body : σ → Pass σ ρ) : ℕ → σ → Option ρ
  | 0, _ => none
  | n + 1, s =>
    match body s with
    | .next t => resultWithin body n t
    | .done r => some r

theorem returns_of_resultWithin {n : ℕ} (h : resultWithin body n s = some r) :
    Returns body s r := by
  induction n generalizing s with
  | zero => cases h
  | succ n ih =>
    rw [resultWithin] at h
    cases hb : body s with
    | next t =>
      rw [hb] at h
      exact (ih h).of_reaches (Relation.ReflTransGen.single hb)
    | done res =>
      rw [hb] at h
      cases h
      exact .of_done hb

/-- A loop whose passes make a number smaller is done before the number is used up. -/
theorem resultWithin_of_decreasing {m : σ → ℕ} (hstep : ∀ s t, body s = .next t → m t < m s)
    {n : ℕ} (hn : m s < n) : ∃ r, resultWithin body n s = some r := by
  induction n generalizing s with
  | zero => exact absurd hn (Nat.not_lt_zero _)
  | succ n ih =>
    rw [resultWithin]
    cases hb : body s with
    | next t => exact ih ((hstep s t hb).trans_le (Nat.lt_succ_iff.mp hn))
    | done res => exact ⟨res, rfl⟩

/-! ## Two loops in step -/

/-- The passes of related states lead to related states, or are done with one result. -/
def PassesAgree (R : σ → τ → Prop) : Pass σ ρ → Pass τ ρ → Prop
  | .next s, .next t => R s t
  | .done r, .done r' => r = r'
  | _, _ => False

section Simulation
variable {body' : τ → Pass τ ρ} {R : σ → τ → Prop} {C : σ → Prop} {a : τ}
  (hstep : ∀ s a, R s a → C s → PassesAgree R (body s) (body' a))
include hstep

theorem PassesAgree.reaches (hR : R s a) (hC : Guarded body C s) (h : Reaches body s t) :
    ∃ b, Reaches body' a b ∧ R t b := by
  induction h with
  | refl => exact ⟨a, Relation.ReflTransGen.refl, hR⟩
  | @tail t u hreach hlast ih =>
    obtain ⟨b, hb, hRb⟩ := ih
    have hagree := hstep t b hRb (hC t hreach)
    rw [hlast] at hagree
    cases hb' : body' b with
    | done res =>
      rw [hb'] at hagree
      exact hagree.elim
    | next d =>
      rw [hb'] at hagree
      exact ⟨d, hb.tail hb', hagree⟩

theorem PassesAgree.returns (hR : R s a) (hC : Guarded body C s) (h : Returns body s r) :
    Returns body' a r := by
  obtain ⟨t, hreach, hdone⟩ := h
  obtain ⟨b, hb, hRb⟩ := PassesAgree.reaches hstep hR hC hreach
  have hagree := hstep t b hRb (hC t hreach)
  rw [hdone] at hagree
  cases hb' : body' b with
  | next d =>
    rw [hb'] at hagree
    exact hagree.elim
  | done res =>
    rw [hb'] at hagree
    exact ⟨b, hb, hb'.trans (congrArg Pass.done hagree.symm)⟩

/-- The second loop does nothing that the first does not. -/
theorem PassesAgree.reaches_of_right {b : τ} (hR : R s a) (hC : Guarded body C s)
    (h : Reaches body' a b) : ∃ t, Reaches body s t ∧ R t b := by
  induction h with
  | refl => exact ⟨s, Relation.ReflTransGen.refl, hR⟩
  | @tail b d hreach hlast ih =>
    obtain ⟨t, ht, hRt⟩ := ih
    have hagree := hstep t b hRt (hC t ht)
    rw [hlast] at hagree
    cases hb : body t with
    | done res =>
      rw [hb] at hagree
      exact hagree.elim
    | next u =>
      rw [hb] at hagree
      exact ⟨u, ht.tail hb, hagree⟩

theorem PassesAgree.returns_iff (hR : R s a) (hC : Guarded body C s) :
    Returns body s r ↔ Returns body' a r := by
  constructor
  · exact PassesAgree.returns hstep hR hC
  · rintro ⟨b, hreach, hdone⟩
    obtain ⟨t, ht, hRt⟩ := PassesAgree.reaches_of_right hstep hR hC hreach
    have hagree := hstep t b hRt (hC t ht)
    rw [hdone] at hagree
    cases hb : body t with
    | next u =>
      rw [hb] at hagree
      exact hagree.elim
    | done res =>
      rw [hb] at hagree
      exact ⟨t, ht, hb.trans (congrArg Pass.done hagree)⟩

end Simulation

/-! ## A ghost beside the state -/

/-- The ghost is carried along and nothing depends on it. -/
def withGhost {γ : Type*} (body : σ → Pass σ ρ) (ghost : σ → γ → σ → γ) :
    σ × γ → Pass (σ × γ) ρ :=
  fun p =>
    match body p.1 with
    | .next t => .next (t, ghost p.1 p.2 t)
    | .done r => .done r

theorem withGhost_next {γ : Type*} {ghost : σ → γ → σ → γ} {p q : σ × γ}
    (h : withGhost body ghost p = .next q) : body p.1 = .next q.1 ∧ q.2 = ghost p.1 p.2 q.1 := by
  unfold withGhost at h
  cases hb : body p.1 with
  | done res =>
    rw [hb] at h
    cases h
  | next t =>
    rw [hb] at h
    cases h
    exact ⟨rfl, rfl⟩

theorem reaches_of_withGhost {γ : Type*} {ghost : σ → γ → σ → γ} {p q : σ × γ}
    (h : Reaches (withGhost body ghost) p q) : Reaches body p.1 q.1 := by
  induction h with
  | refl => exact Relation.ReflTransGen.refl
  | tail _ hlast ih => exact ih.tail (withGhost_next hlast).1

/-! ## Loops that rewrite cells -/

section Rewrites
variable {κ β : Type*} [DecidableEq κ] {g : β → β} {cell : ℕ → κ} {a : κ}

/-- The cells of the indices below `n` are rewritten, one after the other. -/
def rewriteCells (cell : ℕ → κ) (g : β → β) (n : ℕ) (m : κ → β) : κ → β :=
  (List.range n).foldl (fun m i => Function.update m (cell i) (g (m (cell i)))) m

theorem rewriteCells_succ (n : ℕ) (m : κ → β) : rewriteCells cell g (n + 1) m =
    Function.update (rewriteCells cell g n m) (cell n) (g (rewriteCells cell g n m (cell n))) := by
  rw [rewriteCells, List.range_succ, List.foldl_append]
  rfl

theorem rewriteCells_other {n : ℕ} (m : κ → β) (h : ∀ i < n, a ≠ cell i) :
    rewriteCells cell g n m a = m a := by
  induction n with
  | zero => rfl
  | succ n ih =>
    rw [rewriteCells_succ, Function.update_of_ne (h n (Nat.lt_succ_self n)),
      ih fun i hi => h i (Nat.lt_succ_of_lt hi)]

/-- A cell may be one of several indices where a second rewriting changes nothing. -/
theorem rewriteCells_cell (hg : ∀ b, g (g b) = g b) {n : ℕ} (m : κ → β) {i : ℕ} (hi : i < n) :
    rewriteCells cell g n m (cell i) = g (m (cell i)) := by
  induction n generalizing i with
  | zero => exact absurd hi (Nat.not_lt_zero i)
  | succ n ih =>
    rw [rewriteCells_succ]
    rcases Nat.lt_succ_iff_lt_or_eq.mp hi with hlt | rfl
    · by_cases heq : cell i = cell n
      · rw [heq, Function.update_self, ← heq, ih hlt, hg]
      · rw [Function.update_of_ne heq, ih hlt]
    · rw [Function.update_self]
      by_cases hbefore : ∃ j < i, cell i = cell j
      · obtain ⟨j, hj, heq⟩ := hbefore
        rw [heq, ih hj, hg]
      · rw [rewriteCells_other m fun j hj heq => hbefore ⟨j, hj, heq⟩]

end Rewrites

end Loops
