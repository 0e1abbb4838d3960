import Mathlib.Algebra.Order.Ring.Int
import Mathlib.Algebra.Order.Ring.Nat
import Mathlib.Data.List.TakeWhile
import Mathlib.Order.Bounds.Basic
import Mathlib.Order.Fin.Basic

/-! Searching a text for a pattern by Horspool's shifts, which go by the character of the text under
the last one of the pattern, and the occurrences that searches find one behind the other. -/

namespace Horspool

variable {α : Type*} {text text' : ℕ → α} {pattern : List α}

/-- The pattern stands in the text from place `j` on. -/
def Occurs (text : ℕ → α) (pattern : List α) (j : ℕ) : Prop :=
  ∀ i, (h : i < pattern.length) → text (j + i) = pattern[i]

/-! ## The shifts -/

/-- What a table of shifts needs, with the first `n` characters of the pattern entered. -/
structure ShiftsUpTo (pattern : List α) (n : ℕ) (shift : α → ℕ) : Prop where
  pos : ∀ a, 0 < shift a
  le : ∀ a, shift a ≤ pattern.length
  bound : ∀ i, (h : i < pattern.length) → i < n → shift pattern[i] + i + 1 ≤ pattern.length

/-- All characters but the last one are entered. -/
abbrev Shifts (pattern : List α) (shift : α → ℕ) : Prop :=
  ShiftsUpTo pattern (pattern.length - 1) shift

theorem shiftsUpTo_zero (hpattern : pattern ≠ []) :
    ShiftsUpTo pattern 0 fun _ => pattern.length :=
  ⟨fun _ => List.length_pos_iff.mpr hpattern, fun _ => le_rfl,
    fun _ _ h => absurd h (Nat.not_lt_zero _)⟩

/-- A later place of the same character takes the entry over, with a smaller shift. -/
theorem ShiftsUpTo.update [DecidableEq α] {n : ℕ} {shift : α → ℕ}
    (h : ShiftsUpTo pattern n shift) (hn : n + 1 < pattern.length) :
    ShiftsUpTo pattern (n + 1) (Function.update shift (pattern.get ⟨n, by omega⟩)
      (pattern.length - n - 1)) := by
  refine ⟨fun a => ?_, fun a => ?_, fun i hi hin => ?_⟩
  · rw [Function.update_apply]
    split_ifs
    · omega
    · exact h.pos a
  · rw [Function.update_apply]
    split_ifs
    · omega
    · exact h.le a
  · rw [Function.update_apply]
    split_ifs with heq
    · omega
    · rcases Nat.lt_succ_iff_lt_or_eq.mp hin with hlt | rfl
      · exact h.bound i hi hlt
      · exact absurd rfl heq

variable {shift : α → ℕ} {a b j k : ℕ}

/-- No occurrence is jumped over: the character that the shift goes by would stand in it, before
its end. -/
theorem ShiftsUpTo.skips (h : Shifts pattern shift) (hoccurs : Occurs text pattern k)
    (hlt : j < k) : j + shift (text (j + pattern.length - 1)) ≤ k := by
  have hle := h.le (text (j + pattern.length - 1))
  by_cases hbehind : j + pattern.length ≤ k
  · omega
  have hi : j + pattern.length - 1 - k < pattern.length := by omega
  have hplace : k + (j + pattern.length - 1 - k) = j + pattern.length - 1 := by omega
  have hchar := hoccurs _ hi
  rw [hplace] at hchar
  have hbound := h.bound _ hi (by omega)
  rw [← hchar] at hbound
  omega

/-- The pattern does not stand at any place from `a` on before `j`. -/
def Missed (text : ℕ → α) (pattern : List α) (a j : ℕ) : Prop :=
  ∀ k, a ≤ k → k < j → ¬Occurs text pattern k

theorem missed_self (text : ℕ → α) (pattern : List α) (a : ℕ) : Missed text pattern a a :=
  fun _ hle hlt => absurd hle (Nat.not_le_of_lt hlt)

theorem ShiftsUpTo.missed (h : Shifts pattern shift) (hj : Missed text pattern a j)
    (hhere : ¬Occurs text pattern j) :
    Missed text pattern a (j + shift (text (j + pattern.length - 1))) := by
  intro k hak hk hoccurs
  rcases Nat.lt_trichotomy k j with hlt | rfl | hlt
  · exact hj k hak hlt hoccurs
  · exact hhere hoccurs
  · exact absurd (h.skips hoccurs hlt) (Nat.not_le_of_lt hk)

/-! ## Successive occurrences -/

/-- The places of the pattern between `a` and `b`. -/
def places (text : ℕ → α) (pattern : List α) (a b : ℕ) : Set ℕ :=
  {k | a ≤ k ∧ k + pattern.length ≤ b ∧ Occurs text pattern k}

/-- The occurrences up to `b` that are found from a place on, each behind the one before. -/
inductive Successive (text : ℕ → α) (pattern : List α) (b : ℕ) : ℕ → List ℕ → Prop
  | done {a : ℕ} (h : places text pattern a b = ∅) : Successive text pattern b a []
  | found {a k : ℕ} {ks : List ℕ} (h : IsLeast (places text pattern a b) k)
    (hrest : Successive text pattern b (k + pattern.length) ks) :
    Successive text pattern b a (k :: ks)

/-- Where the last of the occurrences ends. -/
def lastEnd (pattern : List α) : ℕ → List ℕ → ℕ
  | a, [] => a
  | _, k :: ks => lastEnd pattern (k + pattern.length) ks

theorem Occurs.congr (h : Occurs text pattern j) (hsame : ∀ x, j ≤ x → text' x = text x) :
    Occurs text' pattern j :=
  fun i hi => (hsame (j + i) (Nat.le_add_right j i)).trans (h i hi)

theorem places_congr (hsame : ∀ x, a ≤ x → text' x = text x) :
    places text' pattern a b = places text pattern a b := by
  ext k
  constructor
  · rintro ⟨hak, hkb, hoccurs⟩
    exact ⟨hak, hkb, hoccurs.congr fun x hx => (hsame x (hak.trans hx)).symm⟩
  · rintro ⟨hak, hkb, hoccurs⟩
    exact ⟨hak, hkb, hoccurs.congr fun x hx => hsame x (hak.trans hx)⟩

/-- What comes before the place that the search begins at does not matter. -/
theorem Successive.congr {ks : List ℕ} (h : Successive text pattern b a ks)
    (hsame : ∀ x, a ≤ x → text' x = text x) : Successive text' pattern b a ks := by
  induction h with
  | done h => exact .done ((places_congr hsame).trans h)
  | @found a k ks h hrest ih =>
    have hak : a ≤ k := h.1.1
    refine .found ((places_congr hsame).symm ▸ h) (ih fun x hx => hsame x ?_)
    omega

end Horspool
