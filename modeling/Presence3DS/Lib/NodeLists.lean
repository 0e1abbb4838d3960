import Mathlib.Algebra.Order.Ring.Int
import Mathlib.Algebra.Order.Ring.Nat
import Mathlib.Data.List.Induction
import Mathlib.Data.List.Nodup
import Mathlib.Data.List.TakeWhile
import Mathlib.Logic.Function.Basic
import Mathlib.Order.Fin.Basic

/-! The nodes of a pool, each of them linked into exactly one of several lists. -/

variable {ι α : Type*} [DecidableEq ι] [DecidableEq α]

structure NodeLists (ι α : Type*) where
  parent : α → ι
  nodes : ι → List α
  mem_nodes : ∀ l i, i ∈ nodes l ↔ parent i = l
  nodup : ∀ l, (nodes l).Nodup

namespace NodeLists

/-- Moves a node to either end of another list, and leaves it where it is in its own. -/
def moveNode (p : NodeLists ι α) (i : α) (dst : ι) (back : Bool) : NodeLists ι α :=
  if h : p.parent i = dst then p
  else
    { parent := Function.update p.parent i dst
      nodes := fun l =>
        if l = dst then (if back then p.nodes dst ++ [i] else i :: p.nodes dst)
        else (p.nodes l).erase i
      mem_nodes := by
        intro l j
        have hi : i ∉ p.nodes dst := fun hmem => h ((p.mem_nodes dst i).mp hmem)
        by_cases hl : l = dst
        · rw [if_pos hl, hl]
          by_cases hj : j = i
          · subst hj
            cases back <;> simp
          · cases back <;> simp [hj, p.mem_nodes]
        · rw [if_neg hl]
          by_cases hj : j = i
          · subst hj
            simp [(p.nodup l).mem_erase_iff, Ne.symm hl]
          · simp [(p.nodup l).mem_erase_iff, hj, p.mem_nodes]
      nodup := by
        intro l
        have hi : i ∉ p.nodes dst := fun hmem => h ((p.mem_nodes dst i).mp hmem)
        by_cases hl : l = dst
        · rw [if_pos hl]
          cases back with
          | false => exact List.nodup_cons.mpr ⟨hi, p.nodup dst⟩
          | true =>
            refine List.nodup_append.mpr ⟨p.nodup dst, List.nodup_singleton i, ?_⟩
            intro a ha b hb hab
            rw [List.mem_singleton] at hb
            exact hi (hb ▸ hab ▸ ha)
        · rw [if_neg hl]
          exact (p.nodup l).erase i }

/-- Moves every listed node that passes the test to the back of a list, and counts them. -/
def moveMatching (test : α → Bool) (dst : ι) : List α → NodeLists ι α → NodeLists ι α × Nat
  | [], p => (p, 0)
  | i :: is, p =>
    if test i then
      let (p', n) := moveMatching test dst is (p.moveNode i dst true)
      (p', n + 1)
    else moveMatching test dst is p

variable (p : NodeLists ι α)

@[simp] theorem parent_moveNode (i : α) (dst : ι) (back : Bool) :
    (p.moveNode i dst back).parent = Function.update p.parent i dst := by
  unfold moveNode
  by_cases h : p.parent i = dst
  · rw [dif_pos h, ← h, Function.update_eq_self]
  · rw [dif_neg h]

theorem nodes_dst_back {i : α} {dst : ι} (h : p.parent i ≠ dst) :
    (p.moveNode i dst true).nodes dst = p.nodes dst ++ [i] := by
  unfold moveNode
  rw [dif_neg h]
  simp

theorem nodes_dst_front {i : α} {dst : ι} (h : p.parent i ≠ dst) :
    (p.moveNode i dst false).nodes dst = i :: p.nodes dst := by
  unfold moveNode
  rw [dif_neg h]
  simp

theorem nodes_src {i : α} {src dst : ι} (h : p.parent i = src) (hne : src ≠ dst) (back : Bool) :
    (p.moveNode i dst back).nodes src = (p.nodes src).erase i := by
  have hother : p.parent i ≠ dst := h ▸ hne
  unfold moveNode
  rw [dif_neg hother]
  exact if_neg hne

theorem nodes_other {i : α} {l dst : ι} (h : p.parent i ≠ l) (hne : l ≠ dst) (back : Bool) :
    (p.moveNode i dst back).nodes l = p.nodes l := by
  have hmem : i ∉ p.nodes l := fun hi => h ((p.mem_nodes l i).mp hi)
  unfold moveNode
  by_cases hdst : p.parent i = dst
  · rw [dif_pos hdst]
  · rw [dif_neg hdst]
    simp only [if_neg hne]
    exact List.erase_of_not_mem hmem

theorem moveMatching_none {test : α → Bool} (dst : ι) {is : List α}
    (h : ∀ i ∈ is, test i = false) : moveMatching test dst is p = (p, 0) := by
  induction is with
  | nil => rfl
  | cons i is ih =>
    have hi : ¬test i = true := by rw [h i List.mem_cons_self]; exact Bool.false_ne_true
    unfold moveMatching
    rw [if_neg hi]
    exact ih fun j hj => h j (List.mem_cons_of_mem i hj)

theorem parent_moveMatching (test : α → Bool) (dst : ι) (is : List α) (j : α) :
    ∀ p : NodeLists ι α, (moveMatching test dst is p).1.parent j =
      if j ∈ is ∧ test j = true then dst else p.parent j := by
  induction is with
  | nil => intro p; simp [moveMatching]
  | cons i is ih =>
    intro p
    unfold moveMatching
    by_cases ht : test i = true
    · rw [if_pos ht]
      simp only [ih, parent_moveNode]
      by_cases hj : j = i
      · subst hj
        simp [ht]
      · simp [hj]
    · rw [if_neg ht, ih]
      by_cases hj : j = i
      · subst hj
        simp [ht]
      · simp [hj]

theorem count_moveMatching (test : α → Bool) (dst : ι) (is : List α) :
    ∀ p : NodeLists ι α, (moveMatching test dst is p).2 = (is.filter test).length := by
  induction is with
  | nil => intro p; rfl
  | cons i is ih =>
    intro p
    unfold moveMatching
    by_cases ht : test i = true
    · rw [if_pos ht, List.filter_cons_of_pos ht, List.length_cons]
      exact congrArg Nat.succ (ih _)
    · rw [if_neg ht, List.filter_cons_of_neg ht]
      exact ih p

/-- The matching nodes of another list are queued in their order. -/
theorem nodes_moveMatching (test : α → Bool) (dst : ι) (is : List α) :
    ∀ p : NodeLists ι α, is.Nodup → (∀ i ∈ is, p.parent i ≠ dst) →
      (moveMatching test dst is p).1.nodes dst = p.nodes dst ++ is.filter test := by
  induction is with
  | nil => intro p _ _; exact (List.append_nil _).symm
  | cons i is ih =>
    intro p hnodup hsrc
    obtain ⟨hi, hnodup⟩ := List.nodup_cons.mp hnodup
    unfold moveMatching
    by_cases ht : test i = true
    · have hrest : ∀ j ∈ is, (p.moveNode i dst true).parent j ≠ dst := by
        intro j hj
        have hne : j ≠ i := fun h => hi (h ▸ hj)
        rw [parent_moveNode, Function.update_of_ne hne]
        exact hsrc j (List.mem_cons_of_mem i hj)
      have hqueue := ih (p.moveNode i dst true) hnodup hrest
      rw [nodes_dst_back p (hsrc i List.mem_cons_self), List.append_assoc] at hqueue
      rw [if_pos ht, List.filter_cons_of_pos ht]
      exact hqueue
    · rw [if_neg ht, List.filter_cons_of_neg ht]
      exact ih p hnodup fun j hj => hsrc j (List.mem_cons_of_mem i hj)

/-! ## The last match -/

/-- A loop that goes on behind a match finds the last one. -/
theorem foldl_last {β : Type*} [Preorder β] (p : β → Prop) [DecidablePred p] {l : List β}
    (hl : l.Pairwise (· < ·)) (i : β) :
    l.foldl (fun found a => if p a then some a else found) none = some i ↔
      i ∈ l ∧ p i ∧ ∀ j ∈ l, i < j → ¬p j := by
  induction l using List.reverseRecOn with
  | nil => exact iff_of_false (Option.some_ne_none i).symm fun h => List.not_mem_nil h.1
  | append_singleton l a ih =>
    obtain ⟨hl, -, hlast⟩ := List.pairwise_append.mp hl
    have hbefore : ∀ j ∈ l, j < a := fun j hj => hlast j hj a (List.mem_singleton_self a)
    rw [List.foldl_append, List.foldl_cons, List.foldl_nil]
    by_cases ha : p a
    · rw [if_pos ha, Option.some_inj]
      constructor
      · rintro rfl
        refine ⟨List.mem_append_right l (List.mem_singleton_self a), ha, fun j hj hlt => ?_⟩
        rcases List.mem_append.mp hj with hj | hj
        · exact absurd (hbefore j hj) (lt_asymm hlt)
        · exact absurd hlt ((List.mem_singleton.mp hj) ▸ lt_irrefl _)
      · rintro ⟨hi, -, hnone⟩
        rcases List.mem_append.mp hi with hi | hi
        · exact absurd ha (hnone a (List.mem_append_right l (List.mem_singleton_self a))
            (hbefore i hi))
        · exact (List.mem_singleton.mp hi).symm
    · rw [if_neg ha, ih hl]
      constructor
      · rintro ⟨hi, hp, hnone⟩
        refine ⟨List.mem_append_left _ hi, hp, fun j hj hlt => ?_⟩
        rcases List.mem_append.mp hj with hj | hj
        · exact hnone j hj hlt
        · exact (List.mem_singleton.mp hj) ▸ ha
      · rintro ⟨hi, hp, hnone⟩
        rcases List.mem_append.mp hi with hi | hi
        · exact ⟨hi, hp, fun j hj => hnone j (List.mem_append_left _ hj)⟩
        · exact absurd ((List.mem_singleton.mp hi) ▸ hp) ha

end NodeLists
