import Mathlib.Algebra.Order.Ring.Int
import Mathlib.Algebra.Order.Ring.Nat
import Mathlib.Data.List.TakeWhile
import Mathlib.Order.Fin.Basic

/-! Computations over a state that may fail, and their traced versions, which also note what they
access. -/

namespace Traced

abbrev Plain (σ : Type) := OptionT (StateM σ)

/-- What has been accessed stays noted also where the computation fails. -/
abbrev TracedM (σ ε : Type) := Plain (σ × List ε)

variable {σ ε α β : Type}

theorem run_bind (x : Plain σ α) (f : α → Plain σ β) (s : σ) :
    ((x >>= f).run s : Option β × σ) =
      match (x.run s : Option α × σ) with
      | (some a, s') => (f a).run s'
      | (none, s') => (none, s') := by
  rw [OptionT.run_bind, Option.elimM]
  show (match (x.run s : Option α × σ) with
    | (o, s') => (o.elim (pure none) fun a => (f a).run : StateM _ _) s') = _
  rcases (x.run s : Option α × σ) with ⟨_ | a, s'⟩
  · rfl
  · rfl

/-- A computation that accesses what `f` says of the state before it. -/
def logged (f : σ → List ε) (x : Plain σ α) : TracedM σ ε α := fun (s, log) =>
  let (a, s') := (x.run s : Option α × σ)
  (a, s', log ++ f s)

/-- A computation that accesses nothing. -/
def quiet (x : Plain σ α) : TracedM σ ε α := logged (fun _ => []) x

def resultOf (t : TracedM σ ε α) (s : σ) : Option α × σ :=
  let (a, s', _) := (t.run (s, []) : Option α × σ × List ε)
  (a, s')

def logOf (t : TracedM σ ε α) (s : σ) : List ε := (t.run (s, []) : Option α × σ × List ε).2.2

theorem run_logged_bind (f : σ → List ε) (x : Plain σ α) (u : α → TracedM σ ε β)
    (s : σ) (log : List ε) :
    ((logged f x >>= u).run (s, log) : Option β × σ × List ε) =
      match (x.run s : Option α × σ) with
      | (some a, s') => (u a).run (s', log ++ f s)
      | (none, s') => (none, s', log ++ f s) := by
  have hrun : ((logged f x).run (s, log) : Option α × σ × List ε) =
    ((x.run s : Option α × σ).1, (x.run s : Option α × σ).2, log ++ f s) := rfl
  rw [run_bind, hrun]
  rcases (x.run s : Option α × σ) with ⟨_ | a, s'⟩
  · rfl
  · rfl

theorem run_quiet_bind (x : Plain σ α) (u : α → TracedM σ ε β) (s : σ)
    (log : List ε) :
    ((quiet x >>= u).run (s, log) : Option β × σ × List ε) =
      match (x.run s : Option α × σ) with
      | (some a, s') => (u a).run (s', log)
      | (none, s') => (none, s', log) := by
  rw [quiet, run_logged_bind, List.append_nil]

/-- The traced computation does what the plain one does, and what it accesses is good wherever the
state before it meets the condition. -/
def Follows (good : ε → Prop) (P : σ → Prop) (x : Plain σ α) (t : TracedM σ ε α) : Prop :=
  ∀ s log, ∃ more, (t.run (s, log) : Option α × σ × List ε) =
    ((x.run s : Option α × σ).1, (x.run s : Option α × σ).2, log ++ more) ∧
    (P s → ∀ e ∈ more, good e)

variable {good : ε → Prop} {P : σ → Prop} {x : Plain σ α} {t : TracedM σ ε α}

theorem follows_logged {f : σ → List ε} (h : ∀ s, P s → ∀ e ∈ f s, good e) :
    Follows good P x (logged f x) :=
  fun s _ => ⟨f s, rfl, h s⟩

theorem follows_quiet : Follows good P x (quiet x) :=
  follows_logged fun _ _ e he => absurd he (List.not_mem_nil (a := e))

theorem follows_pure (a : α) : Follows good P (Pure.pure a) (Pure.pure a) :=
  fun _ log => ⟨[], by rw [List.append_nil]; rfl, fun _ e he => absurd he List.not_mem_nil⟩

theorem Follows.mono {P' : σ → Prop} (h : Follows good P x t) (hpre : ∀ s, P' s → P s) :
    Follows good P' x t := by
  intro s log
  obtain ⟨more, hrun, hgood⟩ := h s log
  exact ⟨more, hrun, fun hs => hgood (hpre s hs)⟩

/-- The second computation meets its condition where the first one leads. -/
theorem Follows.bind {Q : α → σ → Prop} {y : α → Plain σ β} {u : α → TracedM σ ε β}
    (h : Follows good P x t) (hnext : ∀ a, Follows good (Q a) (y a) (u a))
    (hpost : ∀ s a s', P s → (x.run s : Option α × σ) = (some a, s') → Q a s') :
    Follows good P (x >>= y) (t >>= u) := by
  intro s log
  obtain ⟨more, hrun, hgood⟩ := h s log
  rw [run_bind, run_bind, hrun]
  rcases hx : (x.run s : Option α × σ) with ⟨_ | a, s'⟩
  · exact ⟨more, rfl, hgood⟩
  · obtain ⟨rest, hrest, hgoodRest⟩ := hnext a s' (log ++ more)
    refine ⟨more ++ rest, ?_, ?_⟩
    · rw [← List.append_assoc]
      exact hrest
    · intro hs e he
      exact (List.mem_append.mp he).elim (hgood hs e) (hgoodRest (hpost s a s' hs hx) e)

/-- What is accessed is good wherever the computation starts. -/
theorem Follows.bind_of_forall {y : α → Plain σ β} {u : α → TracedM σ ε β}
    (h : Follows good (fun _ => True) x t)
    (hnext : ∀ a, Follows good (fun _ => True) (y a) (u a)) :
    Follows good (fun _ => True) (x >>= y) (t >>= u) :=
  h.bind hnext fun _ _ _ _ _ => trivial

/-- The rest accesses nothing. -/
theorem Follows.bind_quiet {y : α → Plain σ β} (h : Follows good P x t) :
    Follows good P (x >>= y) (t >>= fun a => quiet (y a)) :=
  h.bind (Q := fun _ _ => True) (fun _ => follows_quiet) fun _ _ _ _ _ => trivial

/-- What stands before the accesses leaves the state as it is. -/
theorem Follows.read_bind {f : σ → α} {y : α → Plain σ β} {u : α → TracedM σ ε β}
    (h : ∀ a, Follows good (fun s => P s ∧ f s = a) (y a) (u a))
    (hx : ∀ s, (x.run s : Option α × σ) = (some (f s), s)) :
    Follows good P (x >>= y) (quiet x >>= u) := by
  refine follows_quiet.bind h ?_
  intro s a s' hs hrun
  rw [hx] at hrun
  cases hrun
  exact ⟨hs, rfl⟩

/-- An access that is good may be noted before what the plain computation does. -/
theorem Follows.note_bind {e : ε} (h : Follows good P x t) (he : good e) :
    Follows good P x (Traced.logged (fun _ => [e]) (Pure.pure ()) >>= fun _ => t) := by
  intro s log
  obtain ⟨more, hrun, hgood⟩ := h s (log ++ [e])
  refine ⟨e :: more, ?_, ?_⟩
  · rw [run_bind, List.append_cons]
    exact hrun
  · intro hs
    exact List.forall_mem_cons.mpr ⟨he, hgood hs⟩

theorem Follows.result (h : Follows good P x t) (s : σ) :
    resultOf t s = (x.run s : Option α × σ) := by
  obtain ⟨more, hrun, -⟩ := h s []
  rw [resultOf, hrun]
  rfl

theorem Follows.log (h : Follows good P x t) {s : σ} (hs : P s) : ∀ e ∈ logOf t s, good e := by
  obtain ⟨more, hrun, hgood⟩ := h s []
  rw [logOf, hrun]
  exact hgood hs

end Traced

/-! Computations that do not see a part of their state: a change of that part commutes with them, so
that it neither influences what they do nor is undone by them. -/

namespace Unseen
open Traced

/-- Nothing that the computation does depends on the change, or touches it. -/
def Commutes {σ α : Type} (f : σ → σ) (x : Plain σ α) : Prop :=
  ∀ s, (x.run (f s) : Option α × σ) = ((x.run s : Option α × σ).1, f (x.run s : Option α × σ).2)

variable {σ α β : Type} {f : σ → σ} {x : Plain σ α}

theorem commutes_pure (a : α) : Commutes f (pure a : Plain σ α) := fun _ => rfl

theorem commutes_failure : Commutes f (failure : Plain σ α) := fun _ => rfl

theorem commutes_modify {g : σ → σ} (h : ∀ s, g (f s) = f (g s)) :
    Commutes f (modify g : Plain σ Unit) :=
  fun s => congrArg (some (), ·) (h s)

theorem Commutes.bind {y : α → Plain σ β} (hx : Commutes f x) (hy : ∀ a, Commutes f (y a)) :
    Commutes f (x >>= y) := by
  intro s
  rw [run_bind, run_bind, hx s]
  rcases (x.run s : Option α × σ) with ⟨_ | a, s'⟩
  · rfl
  · exact hy a s'

/-- What is read of the state is not changed. -/
theorem commutes_get_bind {y : σ → Plain σ β} (hread : ∀ s, y (f s) = y s)
    (hy : ∀ s, Commutes f (y s)) : Commutes f (get >>= y) := by
  intro s
  have hget : ∀ s', ((get : Plain σ σ).run s' : Option σ × σ) = (some s', s') := fun _ => rfl
  rw [run_bind, run_bind, hget, hget]
  show (((y (f s)).run (f s)) : Option β × σ) = _
  rw [hread]
  exact hy s s

theorem commutes_ite {p : Prop} [Decidable p] {y : Plain σ α} (hx : Commutes f x)
    (hy : Commutes f y) : Commutes f (if p then x else y) := by
  split_ifs
  · exact hx
  · exact hy

end Unseen
