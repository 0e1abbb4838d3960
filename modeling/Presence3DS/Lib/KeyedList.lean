import Mathlib.Algebra.Order.Ring.Int
import Mathlib.Algebra.Order.Ring.Nat
import Mathlib.Data.List.Nodup
import Mathlib.Data.List.TakeWhile
import Mathlib.Order.Fin.Basic

/-! Lists whose entries have different keys: what a change or the removal of one entry does to the
others, and to how many entries meet a test. -/

namespace KeyedList

variable {α κ : Type*} {key : α → κ} {l : List α} {a : α}

theorem eq_of_key (h : (l.map key).Nodup) {b : α} (ha : a ∈ l) (hb : b ∈ l)
    (hkey : key a = key b) : a = b := List.inj_on_of_nodup_map h ha hb hkey

theorem exists_split (h : (l.map key).Nodup) (ha : a ∈ l) :
    ∃ s t, l = s ++ a :: t ∧ (∀ b ∈ s, key b ≠ key a) ∧ ∀ b ∈ t, key b ≠ key a := by
  obtain ⟨s, t, rfl⟩ := List.append_of_mem ha
  rw [List.map_append, List.map_cons, List.nodup_middle, List.nodup_cons] at h
  refine ⟨s, t, rfl, ?_, ?_⟩
  · intro b hb hkey
    exact h.1 (hkey ▸ List.mem_append_left _ (List.mem_map_of_mem hb))
  · intro b hb hkey
    exact h.1 (hkey ▸ List.mem_append_right _ (List.mem_map_of_mem hb))

variable [DecidableEq κ]

theorem find?_key (h : (l.map key).Nodup) (ha : a ∈ l) :
    l.find? (fun b => key b = key a) = some a := by
  obtain ⟨s, t, rfl, hs, -⟩ := exists_split h ha
  rw [List.find?_eq_some_iff_append]
  refine ⟨decide_eq_true rfl, s, t, rfl, ?_⟩
  intro b hb
  simpa using hs b hb

/-- A change of the entry with the key of `a` leaves a list without that key as it is. -/
theorem map_of_forall_ne {f : α → α} {s : List α} (hs : ∀ b ∈ s, key b ≠ key a) :
    s.map (fun b => if key b = key a then f b else b) = s := by
  calc s.map (fun b => if key b = key a then f b else b)
    _ = s.map id := List.map_congr_left fun b hb => if_neg (hs b hb)
    _ = s := List.map_id s

theorem filter_of_forall_ne {s : List α} (hs : ∀ b ∈ s, key b ≠ key a) :
    s.filter (fun b => key b ≠ key a) = s :=
  List.filter_eq_self.mpr fun b hb => decide_eq_true (hs b hb)

/-- A change of one entry changes a count by what the test says of it before and after. -/
theorem countP_update (h : (l.map key).Nodup) (ha : a ∈ l) (f : α → α) (test : α → Bool) :
    (l.map fun b => if key b = key a then f b else b).countP test + (test a).toNat =
      l.countP test + (test (f a)).toNat := by
  obtain ⟨s, t, rfl, hs, ht⟩ := exists_split h ha
  rw [List.map_append, List.map_cons, map_of_forall_ne hs, map_of_forall_ne ht, if_pos rfl]
  simp only [List.countP_append, List.countP_cons]
  cases test a <;> cases test (f a) <;> simp +arith

/-- Without an entry that meets the test, one fewer does. -/
theorem countP_delete (h : (l.map key).Nodup) (ha : a ∈ l) (test : α → Bool) :
    (l.filter fun b => key b ≠ key a).countP test + (test a).toNat = l.countP test := by
  obtain ⟨s, t, rfl, hs, ht⟩ := exists_split h ha
  rw [List.filter_append, List.filter_cons_of_neg (by simp), filter_of_forall_ne hs,
    filter_of_forall_ne ht]
  simp only [List.countP_append, List.countP_cons]
  cases test a <;> simp +arith

end KeyedList
