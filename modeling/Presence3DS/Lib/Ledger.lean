import Mathlib.Algebra.Order.Ring.Int
import Mathlib.Algebra.Order.Ring.Nat
import Mathlib.Data.List.TakeWhile
import Mathlib.Data.Multiset.AddSub
import Mathlib.Order.Fin.Basic

/-! What is taken and given back, with the latest entry first. The same thing can be taken again
once it is back. -/

inductive Entry (α : Type*) where
  | take (a : α)
  | give (a : α)

namespace Ledger

variable {α : Type*} [DecidableEq α] {a : α} {m : Multiset α} {es : List (Entry α)}

/-- What is taken and not yet given back, unless something was given back that was not out. -/
def outstanding : List (Entry α) → Option (Multiset α)
  | [] => some 0
  | .take a :: es => (outstanding es).map (a ::ₘ ·)
  | .give a :: es => (outstanding es).bind fun m => if a ∈ m then some (m.erase a) else none

/-- Each thing was given back once for each time it was taken, and after it. -/
def Settled (es : List (Entry α)) : Prop := outstanding es = some 0

instance : DecidablePred (Settled (α := α)) := fun _ => inferInstanceAs (Decidable (_ = _))

theorem outstanding_take (h : outstanding es = some m) :
    outstanding (.take a :: es) = some (a ::ₘ m) := by
  rw [outstanding, h, Option.map_some]

theorem outstanding_give (h : outstanding es = some (a ::ₘ m)) :
    outstanding (.give a :: es) = some m := by
  rw [outstanding, h, Option.bind_some, if_pos (Multiset.mem_cons_self a m),
    Multiset.erase_cons_head]

theorem outstanding_giveAll {l : List α} (h : outstanding es = some ((l : Multiset α) + m)) :
    outstanding ((l.map .give).reverse ++ es) = some m := by
  induction l generalizing es with
  | nil =>
    rw [Multiset.coe_nil, Multiset.zero_add] at h
    exact h
  | cons a l ih =>
    rw [← Multiset.cons_coe, Multiset.cons_add] at h
    rw [List.map_cons, List.reverse_cons, List.append_assoc]
    exact ih (outstanding_give h)

end Ledger
