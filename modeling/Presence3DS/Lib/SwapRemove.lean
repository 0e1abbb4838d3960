import Mathlib.Algebra.Order.Ring.Int
import Mathlib.Algebra.Order.Ring.Nat
import Mathlib.Data.List.Nodup
import Mathlib.Data.List.Perm.Basic
import Mathlib.Data.List.TakeWhile
import Mathlib.Order.Fin.Basic

/-! Removal from an unordered flat array: the last entry is moved into the freed slot. -/

namespace SwapRemove

variable {α : Type*}

def swapRemove (l : List α) (i : Nat) : List α :=
  match l.getLast? with
  | none => l
  | some a => (l.set i a).dropLast

/-- The scan that removes every entry `p` holds of, looking again at a slot it has refilled. -/
def removeScan (p : α → Bool) : Nat → Nat → List α → List α
  | 0, _, l => l
  | fuel + 1, i, l =>
    match l[i]? with
    | none => l
    | some a => if p a then removeScan p fuel i (swapRemove l i) else removeScan p fuel (i + 1) l

def removeAll (p : α → Bool) (l : List α) : List α := removeScan p l.length 0 l

theorem swapRemove_eq {l : List α} {a : α} (h : l.getLast? = some a) (i : Nat) :
    swapRemove l i = (l.set i a).dropLast := by
  unfold swapRemove
  rw [h]

theorem getLast?_set_getLast {l : List α} {a : α} (h : l.getLast? = some a) (i : Nat) :
    (l.set i a).getLast? = some a := by
  rw [List.getLast?_eq_getElem?] at h ⊢
  rw [List.length_set, List.getElem?_set]
  split_ifs with hi hlen
  · rfl
  · rw [← hi] at h
    exact absurd (List.getElem?_eq_some_iff.mp h).1 hlen
  · exact h

theorem swapRemove_perm {l : List α} {i : Nat} (hi : i < l.length) :
    (swapRemove l i).Perm (l.eraseIdx i) := by
  have hne : l ≠ [] := List.ne_nil_of_length_pos (Nat.zero_lt_of_lt hi)
  have hlast := List.getLast?_eq_some_getLast hne
  have hset := List.set_perm_cons_eraseIdx hi (l.getLast hne)
  have hend := List.dropLast_append_getLast? _ (getLast?_set_getLast hlast i)
  rw [swapRemove_eq hlast]
  -- the array with the slot refilled is the result followed by the entry moved
  rw [← hend] at hset
  exact ((List.perm_append_singleton _ _).symm.trans hset).cons_inv

theorem perm_cons_swapRemove {l : List α} {i : Nat} (hi : i < l.length) :
    l.Perm (l[i] :: swapRemove l i) := by
  have hback := List.getElem_cons_eraseIdx_perm hi
  exact hback.symm.trans ((swapRemove_perm hi).symm.cons _)

theorem length_swapRemove {l : List α} {i : Nat} (hi : i < l.length) :
    (swapRemove l i).length = l.length - 1 := by
  rw [(swapRemove_perm hi).length_eq, List.length_eraseIdx_of_lt hi]

theorem length_swapRemove_le (l : List α) (i : Nat) : (swapRemove l i).length ≤ l.length := by
  unfold swapRemove
  cases l.getLast? with
  | none => exact Nat.le_refl _
  | some a =>
    rw [List.length_dropLast, List.length_set]
    exact Nat.sub_le _ _

theorem getElem?_swapRemove {l : List α} {i j : Nat} (hi : i < l.length) (hj : j < i) :
    (swapRemove l i)[j]? = l[j]? := by
  have hne : l ≠ [] := List.ne_nil_of_length_pos (Nat.zero_lt_of_lt hi)
  rw [swapRemove_eq (List.getLast?_eq_some_getLast hne), List.getElem?_dropLast,
    List.length_set, if_pos (by omega), List.getElem?_set_ne hj.ne']

theorem swapRemove_map {β : Type*} (f : α → β) (l : List α) (i : Nat) :
    swapRemove (l.map f) i = (swapRemove l i).map f := by
  unfold swapRemove
  rw [List.getLast?_map]
  cases l.getLast? with
  | none => rfl
  | some a =>
    show ((l.map f).set i (f a)).dropLast = ((l.set i a).dropLast).map f
    rw [← List.map_set, ← List.map_dropLast]

/-- What stands before the array stays where it is. -/
theorem swapRemove_append {l l' : List α} {i : Nat} (hi : i < l'.length) :
    swapRemove (l ++ l') (l.length + i) = l ++ swapRemove l' i := by
  have hne : l' ≠ [] := List.ne_nil_of_length_pos (Nat.zero_lt_of_lt hi)
  have hlast := List.getLast?_eq_some_getLast hne
  have hset : l'.set i (l'.getLast hne) ≠ [] := by
    apply List.ne_nil_of_length_pos
    rw [List.length_set]
    exact Nat.zero_lt_of_lt hi
  rw [swapRemove_eq hlast, swapRemove_eq ((List.getLast?_append_of_ne_nil l hne).trans hlast),
    List.set_append_right _ _ (Nat.le_add_right _ _), Nat.add_sub_cancel_left,
    List.dropLast_append_of_ne_nil hset]

theorem filter_scanned {p : α → Bool} {i : Nat} {l : List α} (hlen : l.length ≤ i)
    (hkeep : ∀ j a, j < i → l[j]? = some a → p a = false) : l.filter (fun a => !p a) = l := by
  refine List.filter_eq_self.mpr fun a ha => ?_
  obtain ⟨j, hj⟩ := List.getElem?_of_mem ha
  have hlt := (List.getElem?_eq_some_iff.mp hj).1
  rw [hkeep j a (hlt.trans_le hlen) hj]
  rfl

theorem removeScan_perm (p : α → Bool) (fuel : Nat) : ∀ {i : Nat} {l : List α},
    l.length ≤ fuel + i → (∀ j a, j < i → l[j]? = some a → p a = false) →
      (removeScan p fuel i l).Perm (l.filter fun a => !p a) := by
  induction fuel with
  | zero =>
    intro i l hfuel hkeep
    rw [filter_scanned (by omega) hkeep]
    exact List.Perm.refl _
  | succ fuel ih =>
    intro i l hfuel hkeep
    unfold removeScan
    cases hi : l[i]? with
    | none => rw [filter_scanned (List.getElem?_eq_none_iff.mp hi) hkeep]
    | some a =>
      obtain ⟨hlt, ha⟩ := List.getElem?_eq_some_iff.mp hi
      cases hp : p a with
      | true =>
        have hfilter := (perm_cons_swapRemove hlt).filter fun b => !p b
        rw [ha, List.filter_cons_of_neg (by simp [hp])] at hfilter
        have hrest := @ih i (swapRemove l i) (by rw [length_swapRemove hlt]; omega)
          fun j b hj hb => hkeep j b hj (getElem?_swapRemove hlt hj ▸ hb)
        simpa [hp] using hrest.trans hfilter.symm
      | false =>
        have hrest := @ih (i + 1) l (by omega) fun j b hj hb => by
          rcases Nat.lt_succ_iff_lt_or_eq.mp hj with hj | rfl
          · exact hkeep j b hj hb
          · rw [hi] at hb
            exact Option.some.inj hb ▸ hp
        simpa [hp] using hrest

theorem removeAll_perm (p : α → Bool) (l : List α) :
    (removeAll p l).Perm (l.filter fun a => !p a) :=
  removeScan_perm p l.length (Nat.le_refl _) fun _ _ hj => absurd hj (Nat.not_lt_zero _)

end SwapRemove
