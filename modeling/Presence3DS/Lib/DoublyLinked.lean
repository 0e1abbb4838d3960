import Mathlib.Algebra.Order.Ring.Int
import Mathlib.Algebra.Order.Ring.Nat
import Mathlib.Data.List.Nodup
import Mathlib.Data.List.TakeWhile
import Mathlib.Logic.Function.Basic
import Mathlib.Order.Fin.Basic

/-! Doubly linked lists: the links of the nodes in both directions, between what stands in front of
them and what stands behind them. -/

namespace DoublyLinked

variable {α : Type*}

/-- The links lead through the nodes in order, from `p` on and up to `n`, and back again. -/
def Linked (prev next : α → Option α) : Option α → List α → Option α → Prop
  | _, [], _ => True
  | p, a :: as, n => prev a = p ∧ next a = as.head?.or n ∧ Linked prev next (some a) as n

variable {prev next prev' next' : α → Option α} {p n : Option α} {a : α} {as bs : List α}

theorem linked_append : Linked prev next p (as ++ bs) n ↔
    Linked prev next p as (bs.head?.or n) ∧ Linked prev next (as.getLast?.or p) bs n := by
  induction as generalizing p with
  | nil => exact (and_iff_right trivial).symm
  | cons a as ih =>
    have hlast : (a :: as).getLast?.or p = as.getLast?.or (some a) := by
      cases as with
      | nil => rfl
      | cons b as =>
        rw [List.getLast?_cons_cons, List.getLast?_cons]
        rfl
    rw [hlast, List.cons_append]
    show _ ∧ next a = (as ++ bs).head?.or n ∧ Linked prev next (some a) (as ++ bs) n ↔ _
    rw [ih, List.head?_append, Option.or_assoc]
    show _ ↔ (_ ∧ _ ∧ _) ∧ _
    rw [and_assoc, and_assoc]

/-- Only the links of the nodes count. -/
theorem Linked.congr (h : Linked prev next p as n) (hprev : ∀ a ∈ as, prev' a = prev a)
    (hnext : ∀ a ∈ as, next' a = next a) : Linked prev' next' p as n := by
  induction as generalizing p with
  | nil => trivial
  | cons a as ih =>
    obtain ⟨hp, hn, hrest⟩ := h
    refine ⟨(hprev a List.mem_cons_self).trans hp, (hnext a List.mem_cons_self).trans hn, ?_⟩
    exact ih hrest (fun b hb => hprev b (List.mem_cons_of_mem a hb))
      fun b hb => hnext b (List.mem_cons_of_mem a hb)

/-- The links of a node to its neighbours. -/
theorem Linked.neighbours (h : Linked prev next none (as ++ a :: bs) none) :
    prev a = as.getLast? ∧ next a = bs.head? := by
  obtain ⟨-, hprev, hnext, -⟩ := linked_append.mp h
  rw [Option.or_none] at hprev hnext
  exact ⟨hprev, hnext⟩

/-- The links may be told from the places of the nodes. -/
theorem linked_of_getElem?
    (hprev : ∀ k a, as[k]? = some a → prev a = if k = 0 then p else as[k - 1]?)
    (hnext : ∀ k a, as[k]? = some a → next a = as[k + 1]?.or n) : Linked prev next p as n := by
  induction as generalizing p with
  | nil => trivial
  | cons a as ih =>
    refine ⟨hprev 0 a rfl, ?_, ih (fun k b hb => ?_) fun k b hb => hnext (k + 1) b hb⟩
    · rw [hnext 0 a rfl, List.head?_eq_getElem?]
      rfl
    · rw [hprev (k + 1) b hb]
      cases k <;> rfl

variable [DecidableEq α]

/-- A link is set where there is a node to set it in. -/
def setAt (f : α → Option α) (at? : Option α) (v : Option α) : α → Option α :=
  match at? with
  | some a => Function.update f a v
  | none => f

theorem setAt_of_ne {f : α → Option α} {at? v : Option α} (h : at? ≠ some a) :
    setAt f at? v a = f a := by
  cases at? with
  | none => rfl
  | some b => exact Function.update_of_ne (fun hab => h (congrArg some hab.symm)) v f

/-- The last node may lead elsewhere. -/
theorem Linked.setNext (h : Linked prev next p as n) (hnodup : as.Nodup) (v : Option α) :
    Linked prev (setAt next as.getLast? v) p as v := by
  induction as generalizing p with
  | nil => trivial
  | cons a as ih =>
    obtain ⟨hp, hn, hrest⟩ := h
    obtain ⟨ha, hnodup⟩ := List.nodup_cons.mp hnodup
    cases as with
    | nil =>
      refine ⟨hp, ?_, trivial⟩
      show Function.update next a v a = v
      exact Function.update_self a v next
    | cons b as =>
      rw [List.getLast?_cons_cons]
      refine ⟨hp, ?_, ih hrest hnodup⟩
      rw [setAt_of_ne]
      · exact hn
      · exact fun hlast => ha (List.mem_of_getLast? hlast)

/-- And something else may lead to the first one. -/
theorem Linked.setPrev (h : Linked prev next p as n) (hnodup : as.Nodup) (v : Option α) :
    Linked (setAt prev as.head? v) next v as n := by
  cases as with
  | nil => trivial
  | cons a as =>
    obtain ⟨-, hn, hrest⟩ := h
    have hne : ∀ b ∈ as, b ≠ a := fun b hb hba => (List.nodup_cons.mp hnodup).1 (hba ▸ hb)
    show Linked (Function.update prev a v) next v (a :: as) n
    refine ⟨Function.update_self a v prev, hn, hrest.congr (fun b hb => ?_) fun _ _ => rfl⟩
    exact Function.update_of_ne (hne b hb) v prev

/-- A node that is passed over is no longer in the list. -/
theorem Linked.unlink (h : Linked prev next none (as ++ a :: bs) none)
    (hnodup : (as ++ a :: bs).Nodup) :
    Linked (setAt prev bs.head? as.getLast?) (setAt next as.getLast? bs.head?) none (as ++ bs)
      none := by
  obtain ⟨has, hbs, hdisjoint⟩ := List.nodup_append.mp hnodup
  obtain ⟨hfront, -, -, hback⟩ := linked_append.mp h
  rw [linked_append, Option.or_none, Option.or_none]
  constructor
  · refine (hfront.setNext has bs.head?).congr (fun b hb => setAt_of_ne fun hhead => ?_)
      fun _ _ => rfl
    exact hdisjoint b hb b (List.mem_cons_of_mem a (List.mem_of_head? hhead)) rfl
  · refine (hback.setPrev (List.nodup_cons.mp hbs).2 as.getLast?).congr (fun _ _ => rfl)
      fun b hb => setAt_of_ne fun hlast => ?_
    exact hdisjoint b (List.mem_of_getLast? hlast) b (List.mem_cons_of_mem a hb) rfl

theorem Linked.pushBack (h : Linked prev next none as none) (hnodup : as.Nodup) (ha : a ∉ as) :
    Linked (Function.update prev a as.getLast?)
      (Function.update (setAt next as.getLast? (some a)) a none) none (as ++ [a]) none := by
  have hne : ∀ b ∈ as, b ≠ a := fun b hb hba => ha (hba ▸ hb)
  rw [linked_append, Option.or_none]
  constructor
  · exact (h.setNext hnodup (some a)).congr (fun b hb => Function.update_of_ne (hne b hb) _ _)
      fun b hb => Function.update_of_ne (hne b hb) _ _
  · refine ⟨?_, Function.update_self .., trivial⟩
    rw [Function.update_self, Option.or_none]

theorem Linked.pushFront (h : Linked prev next none as none) (hnodup : as.Nodup) (ha : a ∉ as) :
    Linked (Function.update (setAt prev as.head? (some a)) a none)
      (Function.update next a as.head?) none (a :: as) none := by
  have hne : ∀ b ∈ as, b ≠ a := fun b hb hba => ha (hba ▸ hb)
  refine ⟨Function.update_self .., ?_, ?_⟩
  · rw [Function.update_self, Option.or_none]
  · exact (h.setPrev hnodup (some a)).congr (fun b hb => Function.update_of_ne (hne b hb) _ _)
      fun b hb => Function.update_of_ne (hne b hb) _ _

end DoublyLinked
