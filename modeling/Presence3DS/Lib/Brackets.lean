import Mathlib.Algebra.Order.Ring.Int
import Mathlib.Algebra.Order.Ring.Nat
import Mathlib.Data.List.TakeWhile
import Mathlib.Order.Fin.Basic

/-! Traces in which some events take hold of something and others let go of it. -/

namespace Brackets

inductive Mark where
  | takes
  | gives
  | neither

/-- How often it is held then; there is no answer where it is given back and is not held. -/
def Mark.change : Mark → ℕ → Option ℕ
  | takes, n => some (n + 1)
  | gives, 0 => none
  | gives, n + 1 => some n
  | neither, n => some n

variable {ε : Type*}

/-- How often it is held after a trace that starts when it is held `n` times. -/
def heldAfter (mark : ε → Mark) (n : ℕ) (es : List ε) : Option ℕ :=
  es.foldlM (fun n e => (mark e).change n) n

/-- What is taken is given back once, and nothing else is given back. -/
def Balanced (mark : ε → Mark) (es : List ε) : Prop := heldAfter mark 0 es = some 0

instance (mark : ε → Mark) (es : List ε) : Decidable (Balanced mark es) :=
  inferInstanceAs (Decidable (_ = _))

variable {mark : ε → Mark} {es fs : List ε}

theorem heldAfter_append (n : ℕ) (es fs : List ε) :
    heldAfter mark n (es ++ fs) = (heldAfter mark n es).bind fun m => heldAfter mark m fs :=
  List.foldlM_append

theorem balanced_nil : Balanced mark [] := rfl

/-- Where the condition holds the trace is balanced, and otherwise something is given back too
often, which nothing that follows makes up for. -/
structure Exact (mark : ε → Mark) (es : List ε) (p : Prop) : Prop where
  balanced : p → Balanced mark es
  fails : ¬p → heldAfter mark 0 es = none

variable {p q : Prop}

theorem Exact.balanced_iff (h : Exact mark es p) : Balanced mark es ↔ p := by
  refine ⟨fun hes => ?_, h.balanced⟩
  by_contra hp
  exact absurd (hes.symm.trans (h.fails hp)) (Option.some_ne_none 0)

theorem Exact.congr (h : Exact mark es p) (hpq : p ↔ q) : Exact mark es q := by
  rw [← propext hpq]
  exact h

theorem exact_of_balanced (h : Balanced mark es) : Exact mark es True :=
  ⟨fun _ => h, fun hnot => absurd trivial hnot⟩

theorem exact_of_fails (h : heldAfter mark 0 es = none) : Exact mark es False :=
  ⟨False.elim, fun _ => h⟩

theorem Exact.append (hes : Exact mark es p) (hfs : Exact mark fs q) :
    Exact mark (es ++ fs) (p ∧ q) where
  balanced h := by
    unfold Balanced
    rw [heldAfter_append, hes.balanced h.1, Option.bind_some]
    exact hfs.balanced h.2
  fails h := by
    rw [heldAfter_append]
    by_cases hp : p
    · rw [hes.balanced hp, Option.bind_some]
      exact hfs.fails fun hq => h ⟨hp, hq⟩
    · rw [hes.fails hp, Option.bind_none]

end Brackets
