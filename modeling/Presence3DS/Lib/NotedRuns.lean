import Mathlib.Algebra.Order.Ring.Int
import Mathlib.Algebra.Order.Ring.Nat
import Mathlib.Data.List.TakeWhile
import Mathlib.Order.Fin.Basic

/-! Computations over a state that may fail and that note what they access, and the weakest
condition under which all of it is good. -/

namespace NotedRuns

/-- The result if there is one, the state that is left, and what has been noted, in order. -/
def NotedM (σ ε α : Type) := σ → Option α × σ × List ε

namespace NotedM
variable {σ ε α β : Type}

protected def pure (a : α) : NotedM σ ε α := fun s => (some a, s, [])

/-- What a computation has noted stays noted also where it fails. -/
protected def bind (x : NotedM σ ε α) (f : α → NotedM σ ε β) : NotedM σ ε β := fun s =>
  match x s with
  | (some a, s', noted) => ((f a s').1, (f a s').2.1, noted ++ (f a s').2.2)
  | (none, s', noted) => (none, s', noted)

instance : Monad (NotedM σ ε) where
  pure := NotedM.pure
  bind := NotedM.bind

def fail : NotedM σ ε α := fun s => (none, s, [])

def gets (f : σ → α) : NotedM σ ε α := fun s => (some (f s), s, [])

def modify (f : σ → σ) : NotedM σ ε Unit := fun s => (some (), f s, [])

def note (e : ε) : NotedM σ ε Unit := fun s => (some (), s, [e])

def ofOption : Option α → NotedM σ ε α
  | some a => pure a
  | none => fail

/-- It succeeds with a result and leaves a state. -/
def Ends (x : NotedM σ ε α) (s : σ) (a : α) (s' : σ) : Prop := (x s).1 = some a ∧ (x s).2.1 = s'

/-- All that it notes is good, and the condition holds where it succeeds. -/
def wp (good : ε → Prop) (x : NotedM σ ε α) (Q : α → σ → Prop) (s : σ) : Prop :=
  (∀ e ∈ (x s).2.2, good e) ∧ ∀ a s', x.Ends s a s' → Q a s'

def Clean (good : ε → Prop) (x : NotedM σ ε α) (s : σ) : Prop := ∀ e ∈ (x s).2.2, good e

variable {good : ε → Prop} {x : NotedM σ ε α} {f : α → NotedM σ ε β} {Q Q' : α → σ → Prop}
  {R : β → σ → Prop} {s s' : σ} {a : α}

theorem ends_bind_iff {b : β} : (x >>= f).Ends s b s' ↔
    ∃ a t, x.Ends s a t ∧ (f a).Ends t b s' := by
  show (NotedM.bind x f s).1 = some b ∧ (NotedM.bind x f s).2.1 = s' ↔ _
  unfold NotedM.bind Ends
  rcases x s with ⟨_ | a, t, noted⟩
  · simp
  · simp

theorem ends_pure_iff {b : α} : (pure a : NotedM σ ε α).Ends s b s' ↔ a = b ∧ s = s' :=
  and_congr Option.some_inj Iff.rfl

theorem not_ends_fail : ¬(fail : NotedM σ ε α).Ends s a s' :=
  fun h => Option.some_ne_none a h.1.symm

theorem ends_gets_iff {g : σ → α} : (gets g : NotedM σ ε α).Ends s a s' ↔ g s = a ∧ s = s' :=
  and_congr Option.some_inj Iff.rfl

theorem ends_modify_iff {g : σ → σ} : (modify g : NotedM σ ε Unit).Ends s () s' ↔ g s = s' :=
  and_iff_right rfl

theorem ends_ofOption_iff {o : Option α} :
    (ofOption o : NotedM σ ε α).Ends s a s' ↔ o = some a ∧ s = s' := by
  cases o with
  | none => exact iff_of_false not_ends_fail fun h => Option.some_ne_none a h.1.symm
  | some b => exact ends_pure_iff.trans (and_congr_left' Option.some_inj.symm)

theorem run_bind (x : NotedM σ ε α) (f : α → NotedM σ ε β) (s : σ) : (x >>= f) s =
    match x s with
    | (some a, s', noted) => ((f a s').1, (f a s').2.1, noted ++ (f a s').2.2)
    | (none, s', noted) => (none, s', noted) := rfl

theorem run_bind_pure (x : NotedM σ ε α) (f : α → β) (s : σ) :
    (x >>= fun a => pure (f a)) s = ((x s).1.map f, (x s).2.1, (x s).2.2) := by
  rw [run_bind]
  rcases x s with ⟨_ | a, s', noted⟩
  · rfl
  · show (some (f a), s', noted ++ []) = _
    rw [List.append_nil]
    rfl

/-! ## The rules -/

theorem wp_mono (hQ : ∀ a s', Q a s' → Q' a s') (h : wp good x Q s) : wp good x Q' s :=
  ⟨h.1, fun a s' hends => hQ a s' (h.2 a s' hends)⟩

theorem wp_pure : wp good (pure a) Q s ↔ Q a s := by
  constructor
  · intro h
    exact h.2 a s ⟨rfl, rfl⟩
  · intro h
    refine ⟨fun e he => absurd he List.not_mem_nil, ?_⟩
    rintro b t ⟨hb, rfl⟩
    cases hb
    exact h

theorem wp_fail : wp good (fail : NotedM σ ε α) Q s :=
  ⟨fun _ he => absurd he List.not_mem_nil, fun _ _ h => absurd h.1 (Option.some_ne_none _).symm⟩

theorem wp_gets {g : σ → α} : wp good (gets g) Q s ↔ Q (g s) s := by
  constructor
  · intro h
    exact h.2 (g s) s ⟨rfl, rfl⟩
  · intro h
    refine ⟨fun e he => absurd he List.not_mem_nil, ?_⟩
    rintro b t ⟨hb, rfl⟩
    cases hb
    exact h

theorem wp_modify {g : σ → σ} {Q : Unit → σ → Prop} : wp good (modify g) Q s ↔ Q () (g s) := by
  constructor
  · intro h
    exact h.2 () (g s) ⟨rfl, rfl⟩
  · intro h
    refine ⟨fun e he => absurd he List.not_mem_nil, ?_⟩
    rintro _ t ⟨-, rfl⟩
    exact h

theorem wp_note {e : ε} {Q : Unit → σ → Prop} : wp good (note e) Q s ↔ good e ∧ Q () s := by
  constructor
  · intro h
    exact ⟨h.1 e (List.mem_singleton_self e), h.2 () s ⟨rfl, rfl⟩⟩
  · rintro ⟨he, hQ⟩
    refine ⟨fun d hd => List.mem_singleton.mp hd ▸ he, ?_⟩
    rintro _ t ⟨-, rfl⟩
    exact hQ

theorem wp_ofOption {o : Option α} : wp good (ofOption o) Q s ↔ ∀ a, o = some a → Q a s := by
  cases o with
  | none => exact ⟨fun _ a h => absurd h (Option.some_ne_none a).symm, fun _ => wp_fail⟩
  | some b =>
    refine wp_pure.trans ⟨?_, fun h => h b rfl⟩
    rintro h a ⟨⟩
    exact h

theorem wp_bind : wp good (x >>= f) R s ↔ wp good x (fun a => wp good (f a) R) s := by
  show ((∀ e ∈ (NotedM.bind x f s).2.2, good e) ∧
    ∀ b t, (NotedM.bind x f s).1 = some b ∧ (NotedM.bind x f s).2.1 = t → R b t) ↔ _
  unfold wp NotedM.bind Ends
  rcases x s with ⟨_ | a, t, noted⟩
  · simp
  · simp only [List.mem_append, Option.some.injEq]
    constructor
    · rintro ⟨hgood, hR⟩
      refine ⟨fun e he => hgood e (Or.inl he), ?_⟩
      rintro _ _ ⟨rfl, rfl⟩
      exact ⟨fun e he => hgood e (Or.inr he), hR⟩
    · rintro ⟨hgood, hnext⟩
      obtain ⟨hmore, hR⟩ := hnext a t ⟨rfl, rfl⟩
      exact ⟨fun e he => he.elim (hgood e) (hmore e), hR⟩

theorem wp_ite {p : Prop} [Decidable p] {y : NotedM σ ε α} :
    wp good (if p then x else y) Q s ↔ if p then wp good x Q s else wp good y Q s := by
  split_ifs
  · exact Iff.rfl
  · exact Iff.rfl

theorem clean_iff_wp : Clean good x s ↔ wp good x (fun _ _ => True) s :=
  ⟨fun h => ⟨h, fun _ _ _ => trivial⟩, And.left⟩

theorem clean_bind : Clean good (x >>= f) s ↔
    Clean good x s ∧ ∀ a s', x.Ends s a s' → Clean good (f a) s' := by
  rw [clean_iff_wp, wp_bind]
  simp only [clean_iff_wp]
  exact ⟨fun h => ⟨⟨h.1, fun _ _ _ => trivial⟩, h.2⟩, fun h => ⟨h.1.1, h.2⟩⟩

/-! ## Exact conditions of a run that succeeds -/

theorem ends_unique {b : α} {t : σ} (h : x.Ends s a s') (h' : x.Ends s b t) : b = a ∧ t = s' :=
  ⟨Option.some.inj (h'.1.symm.trans h.1), h'.2.symm.trans h.2⟩

/-- Where the computation succeeds, all that it notes is good and leads to `Q` if and only if `C`
holds. -/
def Exactly (good : ε → Prop) (x : NotedM σ ε α) (Q : α → σ → Prop) (s : σ) (C : Prop) : Prop :=
  (∃ a s', x.Ends s a s') → (wp good x Q s ↔ C)

variable {C D : Prop}

theorem Exactly.congr (h : Exactly good x Q s C) (hCD : C ↔ D) : Exactly good x Q s D :=
  fun hends => (h hends).trans hCD

/-- A first part that does one thing only and notes nothing. -/
theorem Exactly.bind_of_ends (hends : x.Ends s a s') (hclean : ∀ Q, wp good x Q s ↔ Q a s')
    (h : Exactly good (f a) R s' C) : Exactly good (x >>= f) R s C := by
  rintro ⟨b, t, hb⟩
  rw [wp_bind, hclean]
  obtain ⟨a', u, hx, hf⟩ := ends_bind_iff.mp hb
  obtain ⟨rfl, rfl⟩ := ends_unique hends hx
  exact h ⟨b, t, hf⟩

theorem Exactly.pure_bind (h : Exactly good (f a) R s C) : Exactly good (pure a >>= f) R s C :=
  .bind_of_ends ⟨rfl, rfl⟩ (fun _ => wp_pure) h

/-- What is noted first is good, and then the rest may rely on it. -/
theorem Exactly.note_bind {e : ε} {f : Unit → NotedM σ ε β}
    (h : good e → Exactly good (f ()) R s C) : Exactly good (note e >>= f) R s (good e ∧ C) := by
  rintro ⟨b, t, hb⟩
  rw [wp_bind, wp_note]
  obtain ⟨_, u, ⟨-, rfl⟩, hf⟩ := ends_bind_iff.mp hb
  exact and_congr_right fun he => h he ⟨b, t, hf⟩

/-- In the states in which they are come to, the computations meet a condition. -/
def EachMeets (C : α → σ → Prop) (g : α → NotedM σ ε Unit) : List α → σ → Prop
  | [], _ => True
  | a :: as, s => C a s ∧ ∀ s', (g a).Ends s () s' → EachMeets C g as s'

def each (g : α → NotedM σ ε Unit) : List α → NotedM σ ε Unit
  | [] => pure ()
  | a :: as => do
    g a
    each g as

variable {C : α → σ → Prop} {g : α → NotedM σ ε Unit} {as : List α}

theorem clean_each (h : ∀ a ∈ as, ∀ s, Clean good (g a) s ↔ C a s) :
    Clean good (each g as) s ↔ EachMeets C g as s := by
  induction as generalizing s with
  | nil => exact ⟨fun _ => trivial, fun _ e he => absurd he List.not_mem_nil⟩
  | cons a as ih =>
    obtain ⟨ha, has⟩ := List.forall_mem_cons.mp h
    refine clean_bind.trans (and_congr (ha s) ?_)
    constructor
    · intro hrest s' hends
      exact (ih has).mp (hrest () s' hends)
    · intro hrest _ s' hends
      exact (ih has).mpr (hrest s' hends)

end NotedM

end NotedRuns
