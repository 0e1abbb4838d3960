import Mathlib.Algebra.Order.Ring.Int
import Mathlib.Algebra.Order.Ring.Nat
import Mathlib.Data.List.TakeWhile
import Mathlib.Order.Fin.Basic

/-! A flat array whose first `n` slots are kept strictly sorted by a key: the bisection
that finds the slot of a key, and the shifts that open and close a slot. -/

namespace SortedSlots

variable {K V : Type*} [LinearOrder K]

def SortedOn (key : Nat → K) (n : Nat) : Prop := ∀ i j, i < j → j < n → key i < key j

theorem SortedOn.le {key : Nat → K} {n i j : Nat} (h : SortedOn key n) (hij : i ≤ j)
    (hj : j < n) : key i ≤ key j := by
  rcases Nat.eq_or_lt_of_le hij with rfl | hlt
  · exact le_rfl
  · exact (h i j hlt hj).le

theorem SortedOn.inj {key : Nat → K} {n i j : Nat} (h : SortedOn key n) (hi : i < n)
    (hj : j < n) (he : key i = key j) : i = j := by
  rcases Nat.lt_trichotomy i j with hlt | rfl | hgt
  · exact absurd he (h i j hlt hj).ne
  · rfl
  · exact absurd he.symm (h j i hgt hi).ne

/-! ## The bisection -/

/-- `r` is the first slot whose key is not below `x`, and `n` when there is none. -/
structure IsClosest (key : Nat → K) (n : Nat) (x : K) (r : Nat) : Prop where
  le : r ≤ n
  below : ∀ i, i < r → key i < x
  above : ∀ i, r ≤ i → i < n → x ≤ key i

/-- The loop of the search, one unit of fuel for each iteration. -/
def bisect (key : Nat → K) (x : K) : Nat → Nat → Nat → Nat
  | 0, _, b => b
  | fuel + 1, a, b =>
    let m := (a + b) / 2
    if key m < x then
      if b - m > 1 then bisect key x fuel m b else b
    else if x < key m then
      if m - a > 1 then bisect key x fuel a m else m
    else m

def closestSlot (key : Nat → K) (n : Nat) (x : K) : Nat :=
  if n = 0 ∨ x ≤ key 0 then 0
  else if key (n - 1) < x then n
  else bisect key x n 0 (n - 1)

theorem IsClosest.of_bracket {key : Nat → K} {n : Nat} {x : K} {a r : Nat} (hs : SortedOn key n)
    (hr : r < n) (ha : r ≤ a + 1) (hlo : key a < x) (hhi : x ≤ key r) (har : a ≤ r) :
    IsClosest key n x r where
  le := hr.le
  below i hi := (hs.le (by omega) (by omega)).trans_lt hlo
  above _ hi hn := hhi.trans (hs.le hi hn)

theorem bisect_isClosest {key : Nat → K} {n : Nat} {x : K} (hs : SortedOn key n) :
    ∀ fuel a b, b - a ≤ fuel → a < b → b < n → key a < x → x ≤ key b →
      IsClosest key n x (bisect key x fuel a b) := by
  intro fuel
  induction fuel with
  | zero => intro a b hf hab; omega
  | succ fuel ih =>
    intro a b hf hab hb hlo hhi
    simp only [bisect]
    split_ifs with hm hw hm' hw'
    · exact ih _ _ (by omega) (by omega) hb hm hhi
    · exact .of_bracket hs hb (by omega) hm hhi (by omega)
    · exact ih _ _ (by omega) (by omega) (by omega) hlo hm'.le
    · exact .of_bracket hs (by omega) (by omega) hlo hm'.le (by omega)
    · have he : key ((a + b) / 2) = x := le_antisymm (not_lt.mp hm') (not_lt.mp hm)
      refine ⟨by omega, fun i hi => ?_, fun i hi hn => ?_⟩
      · exact he ▸ hs i _ hi (by omega)
      · exact he ▸ hs.le hi hn

theorem closestSlot_isClosest {key : Nat → K} {n : Nat} (hs : SortedOn key n) (x : K) :
    IsClosest key n x (closestSlot key n x) := by
  unfold closestSlot
  split_ifs with h0 hn
  · refine ⟨by omega, by intro i hi; omega, fun i _ hi => ?_⟩
    rcases h0 with rfl | h0
    · omega
    · exact h0.trans (hs.le (Nat.zero_le i) hi)
  · exact ⟨le_rfl, fun i hi => (hs.le (by omega) (by omega)).trans_lt hn, by intro i hi; omega⟩
  · obtain ⟨hpos, hlo⟩ := not_or.mp h0
    rcases Nat.eq_or_lt_of_le (Nat.one_le_iff_ne_zero.mpr hpos) with h1 | h1
    · subst h1
      exact absurd (not_lt.mp hn) hlo
    · exact bisect_isClosest hs _ _ _ (by omega) (by omega) (by omega) (not_le.mp hlo) (not_lt.mp hn)

theorem IsClosest.eq_of_key {key : Nat → K} {n : Nat} {x : K} {r i : Nat}
    (h : IsClosest key n x r) (hs : SortedOn key n) (hi : i < n) (hx : key i = x) : r = i := by
  rcases Nat.lt_trichotomy r i with hlt | he | hgt
  · exact absurd (h.above r le_rfl (hlt.trans hi)) (not_le.mpr (hx ▸ hs r i hlt hi))
  · exact he
  · exact absurd hx (h.below i hgt).ne

/-! ## Opening and closing a slot -/

/-- `for(i = top; i > lo && i != 0; i--) f[i] = f[i - 1];` -/
def shiftUp (lo : Nat) : Nat → (Nat → V) → Nat → V
  | 0, f => f
  | i + 1, f => if i + 1 > lo then shiftUp lo i (Function.update f (i + 1) (f i)) else f

/-- `for(i = lo; i < lo + count; i++) f[i] = f[i + 1];` -/
def shiftDown : Nat → Nat → (Nat → V) → Nat → V
  | _, 0, f => f
  | lo, count + 1, f => shiftDown (lo + 1) count (Function.update f lo (f (lo + 1)))

theorem shiftUp_apply (lo : Nat) : ∀ (top : Nat) (f : Nat → V) (j : Nat),
    shiftUp lo top f j = if lo < j ∧ j ≤ top then f (j - 1) else f j := by
  intro top
  induction top with
  | zero => intro f j; simp only [shiftUp]; rw [if_neg (by omega)]
  | succ top ih =>
    intro f j
    simp only [shiftUp]
    split_ifs with hlo hj hj
    · rw [ih]
      by_cases he : j = top + 1
      · subst he
        rw [if_neg (by omega), Function.update_self, Nat.add_sub_cancel]
      · rw [if_pos (by omega), Function.update_of_ne (by omega)]
    · rw [ih, if_neg (by omega), Function.update_of_ne (by omega)]
    · omega
    · rfl

theorem shiftDown_apply : ∀ (count lo : Nat) (f : Nat → V) (j : Nat),
    shiftDown lo count f j = if lo ≤ j ∧ j < lo + count then f (j + 1) else f j := by
  intro count
  induction count with
  | zero => intro lo f j; simp only [shiftDown]; rw [if_neg (by omega)]
  | succ count ih =>
    intro lo f j
    simp only [shiftDown, ih]
    by_cases he : j = lo
    · subst he
      rw [if_neg (by omega), Function.update_self, if_pos (by omega)]
    · by_cases hj : lo < j ∧ j < lo + (count + 1)
      · rw [if_pos (by omega), if_pos (by omega), Function.update_of_ne (by omega)]
      · rw [if_neg (by omega), if_neg (by omega), Function.update_of_ne he]

/-- The array after slot `r` of the first `n` has been opened for `v`. -/
def insertSlot (f : Nat → V) (n r : Nat) (v : V) : Nat → V :=
  Function.update (shiftUp r n f) r v

/-- The array after slot `r` of the first `n` has been closed. -/
def removeSlot (f : Nat → V) (n r : Nat) : Nat → V := shiftDown r (n - 1 - r) f

theorem insertSlot_apply (f : Nat → V) (n r : Nat) (v : V) (j : Nat) :
    insertSlot f n r v j = if j = r then v else if r < j ∧ j ≤ n then f (j - 1) else f j := by
  unfold insertSlot
  by_cases h : j = r
  · subst h; rw [Function.update_self, if_pos rfl]
  · rw [Function.update_of_ne h, if_neg h, shiftUp_apply]

theorem removeSlot_apply (f : Nat → V) {n r : Nat} (hr : r < n) (j : Nat) :
    removeSlot f n r j = if r ≤ j ∧ j < n - 1 then f (j + 1) else f j := by
  rw [removeSlot, shiftDown_apply]
  by_cases h : r ≤ j ∧ j < n - 1
  · rw [if_pos h, if_pos (by omega)]
  · rw [if_neg h, if_neg (by omega)]

theorem exists_insertSlot (f : Nat → V) {n r : Nat} (hr : r ≤ n) (v : V) (P : V → Prop) :
    (∃ i, i < n + 1 ∧ P (insertSlot f n r v i)) ↔ P v ∨ ∃ i, i < n ∧ P (f i) := by
  simp only [insertSlot_apply]
  constructor
  · rintro ⟨i, hi, hP⟩
    split_ifs at hP with he hs
    · exact .inl hP
    · exact .inr ⟨i - 1, by omega, hP⟩
    · exact .inr ⟨i, by omega, hP⟩
  · rintro (hP | ⟨i, hi, hP⟩)
    · exact ⟨r, by omega, by rwa [if_pos rfl]⟩
    · by_cases h : i < r
      · exact ⟨i, by omega, by rwa [if_neg (by omega), if_neg (by omega)]⟩
      · refine ⟨i + 1, by omega, ?_⟩
        rwa [if_neg (by omega), if_pos (by omega), Nat.add_sub_cancel]

theorem exists_removeSlot (f : Nat → V) {n r : Nat} (hr : r < n) (P : V → Prop) :
    (∃ i, i < n - 1 ∧ P (removeSlot f n r i)) ↔ ∃ i, i < n ∧ i ≠ r ∧ P (f i) := by
  simp only [removeSlot_apply f hr]
  constructor
  · rintro ⟨i, hi, hP⟩
    split_ifs at hP with hs
    · exact ⟨i + 1, by omega, by omega, hP⟩
    · exact ⟨i, by omega, by omega, hP⟩
  · rintro ⟨i, hi, hne, hP⟩
    by_cases h : i < r
    · exact ⟨i, by omega, by rwa [if_neg (by omega)]⟩
    · refine ⟨i - 1, by omega, ?_⟩
      rwa [if_pos (by omega), Nat.sub_add_cancel (by omega)]

theorem sortedOn_insertSlot (key : V → K) {f : Nat → V} {n r : Nat} {v : V}
    (hs : SortedOn (key ∘ f) n) (hr : IsClosest (key ∘ f) n (key v) r)
    (hnew : r < n → key (f r) ≠ key v) : SortedOn (key ∘ insertSlot f n r v) (n + 1) := by
  have habove : ∀ i, r ≤ i → i < n → key v < key (f i) := by
    intro i hi hn
    have hrn : r < n := by omega
    exact (lt_of_le_of_ne (hr.above r le_rfl hrn) (hnew hrn).symm).trans_le (hs.le hi hn)
  have hle := hr.le
  intro i j hij hj
  simp only [Function.comp_apply, insertSlot_apply]
  split_ifs
  · omega
  · exact habove (j - 1) (by omega) (by omega)
  · omega
  · omega
  · exact hs _ _ (by omega) (by omega)
  · omega
  · exact hr.below i (by omega)
  · exact hs i (j - 1) (by omega) (by omega)
  · exact hs i j hij (by omega)

theorem sortedOn_removeSlot (key : V → K) {f : Nat → V} {n r : Nat}
    (hs : SortedOn (key ∘ f) n) (hr : r < n) : SortedOn (key ∘ removeSlot f n r) (n - 1) := by
  intro i j hij hj
  simp only [Function.comp_apply, removeSlot_apply f hr]
  split_ifs
  · exact hs _ _ (by omega) (by omega)
  · omega
  · exact hs i (j + 1) (by omega) (by omega)
  · exact hs i j hij (by omega)

end SortedSlots
