import Mathlib.Algebra.Order.Ring.Int
import Mathlib.Algebra.Order.Ring.Nat
import Mathlib.Data.List.TakeWhile
import Mathlib.Order.Fin.Basic

/-! The log of a thing that is opened and closed again and again. -/

namespace Lives

variable {ε κ : Type*} {opening : κ → ε} {closing : κ → List ε} {log : List ε} {k : κ}

/-- Whole lives, each with its opening and then all that closes it, and after them the opening of
the one that is lived now. -/
def InLives (opening : κ → ε) (closing : κ → List ε) (log : List ε) (now : Option κ) : Prop :=
  ∃ ks : List κ,
    log = (ks.flatMap fun k => opening k :: closing k) ++ (now.map opening).toList

theorem inLives_nil : InLives opening closing [] none := ⟨[], rfl⟩

theorem InLives.opened (h : InLives opening closing log none) :
    InLives opening closing (log ++ [opening k]) (some k) := by
  obtain ⟨ks, rfl⟩ := h
  refine ⟨ks, ?_⟩
  simp

theorem InLives.closed (h : InLives opening closing log (some k)) :
    InLives opening closing (log ++ closing k) none := by
  obtain ⟨ks, rfl⟩ := h
  refine ⟨ks ++ [k], ?_⟩
  simp

end Lives
