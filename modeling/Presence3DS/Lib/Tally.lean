import Mathlib.Algebra.Order.Ring.Int
import Mathlib.Algebra.Order.Ring.Nat
import Mathlib.Data.Fintype.Card
import Mathlib.Data.List.TakeWhile
import Mathlib.Order.Fin.Basic

/-! How many of finitely many parties meet a test, and what a change of one of them does to it. -/

variable {ι : Type*} [Fintype ι]

def tally (test : ι → Bool) : ℕ := (Finset.univ.filter fun i => test i = true).card

namespace Tally
variable {p q : ι → Bool} {i : ι}

theorem eq_zero_iff : tally p = 0 ↔ ∀ i, p i = false := by
  rw [tally, Finset.card_eq_zero, Finset.filter_eq_empty_iff]
  exact ⟨fun h i => Bool.eq_false_iff.mpr (h (Finset.mem_univ i)),
    fun h i _ => Bool.eq_false_iff.mp (h i)⟩

theorem pos_iff : 0 < tally p ↔ ∃ i, p i = true := by
  rw [tally, Finset.card_pos]
  constructor
  · rintro ⟨i, hi⟩
    exact ⟨i, (Finset.mem_filter.mp hi).2⟩
  · rintro ⟨i, hi⟩
    exact ⟨i, Finset.mem_filter.mpr ⟨Finset.mem_univ i, hi⟩⟩

theorem le_card : tally p ≤ Fintype.card ι := Finset.card_filter_le _ _

theorem lt_card_iff : tally p < Fintype.card ι ↔ ∃ i, p i = false := by
  constructor
  · intro h
    by_contra hall
    have htrue : ∀ i, p i = true := fun i => Bool.not_eq_false _ ▸ fun hi => hall ⟨i, hi⟩
    rw [tally, Finset.filter_true_of_mem fun i _ => htrue i, Finset.card_univ] at h
    exact lt_irrefl _ h
  · rintro ⟨i, hi⟩
    apply Finset.card_lt_card
    rw [Finset.filter_ssubset]
    exact ⟨i, Finset.mem_univ i, by rw [hi]; exact Bool.false_ne_true⟩

theorem congr (h : ∀ i, p i = q i) : tally p = tally q := by rw [funext h]

/-- Tests that differ at one party at most differ by what they say of it. -/
theorem exchange [DecidableEq ι] (h : ∀ j, j ≠ i → p j = q j) :
    tally p + (q i).toNat = tally q + (p i).toNat := by
  have hsplit : ∀ r : ι → Bool, tally r =
      ((Finset.univ.erase i).filter fun j => r j = true).card + (r i).toNat := by
    intro r
    rw [tally]
    conv_lhs => rw [← Finset.insert_erase (Finset.mem_univ i), Finset.filter_insert]
    cases hr : r i with
    | false => rfl
    | true =>
      rw [if_pos rfl, Finset.card_insert_of_notMem]
      · rfl
      · intro hmem
        exact Finset.notMem_erase i _ (Finset.mem_filter.mp hmem).1
  have hsame : (Finset.univ.erase i).filter (fun j => p j = true) =
      (Finset.univ.erase i).filter fun j => q j = true := by
    apply Finset.filter_congr
    intro j hj
    rw [h j (Finset.ne_of_mem_erase hj)]
  rw [hsplit p, hsplit q, hsame]
  omega

end Tally
