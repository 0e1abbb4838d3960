import Mathlib.Algebra.Order.Ring.Int
import Mathlib.Algebra.Order.Ring.Nat
import Mathlib.Data.List.TakeWhile
import Mathlib.Order.Fin.Basic
import Mathlib.Tactic.Ring

/-! The proleptic Gregorian calendar: the day after a date, and the date that a number of days
leads to. -/

namespace Gregorian

structure Date where
  year : ℤ
  month : ℕ
  day : ℕ
deriving DecidableEq

def isLeap (year : ℤ) : Bool :=
  year % 4 = 0 ∧ (year % 100 ≠ 0 ∨ year % 400 = 0)

def daysInMonth (leap : Bool) : ℕ → ℕ
  | 2 => if leap then 29 else 28
  | 4 | 6 | 9 | 11 => 30
  | _ => 31

def Date.next (d : Date) : Date :=
  if d.day < daysInMonth (isLeap d.year) d.month then { d with day := d.day + 1 }
  else if d.month < 12 then { d with month := d.month + 1, day := 1 }
  else ⟨d.year + 1, 1, 1⟩

/-! ## Years that begin in March -/

/-- A month and a day, in January and February of the year after. -/
structure Day where
  after : Bool
  month : ℕ
  day : ℕ
deriving DecidableEq

def Day.of (year : ℤ) (d : Day) : Date :=
  ⟨if d.after then year + 1 else year, d.month, d.day⟩

def Day.next (leap : Bool) (d : Day) : Day :=
  if d.day < daysInMonth leap d.month then { d with day := d.day + 1 }
  else if d.month < 12 then { d with month := d.month + 1, day := 1 }
  else ⟨true, 1, 1⟩

def marchDay (n : ℕ) : Day :=
  let m := (5 * n + 2) / 153
  ⟨10 ≤ m, if m < 10 then m + 3 else m - 9, n - (153 * m + 2) / 5 + 1⟩

theorem next_of {d : Day} (hd : d.after = true → d.month < 12) (year : ℤ) :
    (d.of year).next = (d.next (isLeap (d.of year).year)).of year := by
  unfold Date.next Day.next
  show (if d.day < daysInMonth (isLeap (d.of year).year) d.month then _
    else if d.month < 12 then _ else _) = _
  split_ifs with hday hmonth
  · rfl
  · rfl
  · have hafter : d.after = false := by
      cases hafter : d.after with
      | false => rfl
      | true => exact absurd (hd hafter) hmonth
    show (⟨(if d.after then year + 1 else year) + 1, 1, 1⟩ : Date) = ⟨year + 1, 1, 1⟩
    rw [hafter]
    rfl

theorem marchDay_month : ∀ n < 366, (marchDay n).after = true → (marchDay n).month < 12 := by
  decide +kernel

/-- Up to the last day but one of February, leap years do not matter. -/
theorem marchDay_succ : ∀ leap : Bool, ∀ n < 364, (marchDay n).next leap = marchDay (n + 1) := by
  decide +kernel

/-- The date of a day of the year that begins on the first of March. -/
def marchDate (year : ℤ) (n : ℕ) : Date :=
  (marchDay n).of year

theorem next_marchDate {n : ℕ} {year : ℤ} (hn : n < 364 ∨ n = 364 ∧ isLeap (year + 1) = true) :
    (marchDate year n).next = marchDate year (n + 1) := by
  unfold marchDate
  rw [next_of (marchDay_month n (by omega))]
  rcases hn with hn | ⟨rfl, hleap⟩
  · rw [marchDay_succ _ n hn]
  · show ((marchDay 364).next (isLeap (year + 1))).of year = _
    rw [hleap]
    rfl

/-- The first of March comes after the end of February. -/
theorem next_marchDate_last {n : ℕ} {year : ℤ}
    (hn : n = 365 ∨ n = 364 ∧ isLeap (year + 1) = false) :
    (marchDate year n).next = marchDate (year + 1) 0 := by
  unfold marchDate
  rw [next_of (marchDay_month n (by omega))]
  rcases hn with rfl | ⟨rfl, hleap⟩
  · show ((marchDay 365).next (isLeap (year + 1))).of year = _
    cases isLeap (year + 1) <;> rfl
  · show ((marchDay 364).next (isLeap (year + 1))).of year = _
    rw [hleap]
    rfl

/-! ## Days from the first of March of a year that 400 divides -/

/-- The date that a number of days leads to: a day counts as four quarters, so that a century has
146097 of them and a year 1461, and what is left over makes the leap days. -/
def dateFrom (era : ℤ) (n : ℕ) : Date :=
  let century := (4 * n + 3) / 146097
  let quarters := 4 * ((4 * n + 3) % 146097 / 4) + 3
  marchDate (400 * era + 100 * century + (quarters / 1461 : ℕ)) (quarters % 1461 / 4)

theorem isLeap_iff {era : ℤ} {century z : ℕ} (hz : z < 100) :
    isLeap (400 * era + 100 * century + z + 1) = true ↔
      z % 4 = 3 ∧ (z ≠ 99 ∨ century % 4 = 3) := by
  unfold isLeap
  rw [decide_eq_true_iff]
  omega

/-- Within a century, the next day is one of the same year or the first of the next. -/
theorem next_within {era : ℤ} {c m : ℕ} (hm : m < 36524 ∧ (m = 36523 → c % 4 = 3)) :
    (marchDate (400 * era + 100 * c + ((4 * m + 3) / 1461 : ℕ)) ((4 * m + 3) % 1461 / 4)).next =
      marchDate (400 * era + 100 * c + ((4 * (m + 1) + 3) / 1461 : ℕ))
        ((4 * (m + 1) + 3) % 1461 / 4) := by
  obtain ⟨z, s, hs, hms⟩ : ∃ z s, s < 1461 ∧ 4 * m + 3 = 1461 * z + s :=
    ⟨(4 * m + 3) / 1461, (4 * m + 3) % 1461, Nat.mod_lt _ (by decide),
      (Nat.div_add_mod _ _).symm⟩
  have hz : z < 100 := by omega
  have hyear := @isLeap_iff era c z hz
  obtain ⟨hdiv, hmod⟩ := (Nat.div_mod_unique (by decide)).mpr ⟨(add_comm _ _).trans hms.symm, hs⟩
  rw [hdiv, hmod]
  by_cases hlast : s + 4 < 1461
  · obtain ⟨hdiv, hmod⟩ : (4 * (m + 1) + 3) / 1461 = z ∧ (4 * (m + 1) + 3) % 1461 = s + 4 :=
      (Nat.div_mod_unique (by decide)).mpr ⟨by omega, hlast⟩
    rw [hdiv, hmod, Nat.add_div_right s (by decide)]
    apply next_marchDate
    rcases Nat.lt_or_ge s 1456 with hlt | hge
    · exact .inl (Nat.div_lt_of_lt_mul hlt)
    · obtain rfl : s = 1456 := by omega
      refine .inr ⟨rfl, hyear.mpr ⟨by omega, ?_⟩⟩
      by_cases hcentury : z = 99
      · exact .inr (hm.2 (by omega))
      · exact .inl hcentury
  · obtain ⟨hdiv, hmod⟩ :
        (4 * (m + 1) + 3) / 1461 = z + 1 ∧ (4 * (m + 1) + 3) % 1461 = s + 4 - 1461 :=
      (Nat.div_mod_unique (by decide)).mpr ⟨by omega, by omega⟩
    have hfirst : (s + 4 - 1461) / 4 = 0 := Nat.div_eq_of_lt (by omega)
    rw [hdiv, hmod, hfirst, Nat.cast_succ, ← add_assoc]
    apply next_marchDate_last
    by_cases hleap : s = 1460
    · exact .inl (by omega)
    · refine .inr ⟨by omega, Bool.eq_false_iff.mpr fun htrue => ?_⟩
      have hz3 := (hyear.mp htrue).1
      omega

/-- The last day of a century is the last of its last year. -/
theorem next_century {era : ℤ} {c m : ℕ} (hm : m = 36524 ∨ m = 36523 ∧ c % 4 ≠ 3) :
    (marchDate (400 * era + 100 * c + ((4 * m + 3) / 1461 : ℕ)) ((4 * m + 3) % 1461 / 4)).next =
      marchDate (400 * era + 100 * (c + 1 : ℕ)) 0 := by
  have hyear : (400 * era + 100 * (c + 1 : ℕ) : ℤ) = 400 * era + 100 * c + (99 : ℕ) + 1 := by
    push_cast
    ring
  rw [hyear]
  rcases hm with rfl | ⟨rfl, hc⟩
  · exact next_marchDate_last (.inl rfl)
  · refine next_marchDate_last (.inr ⟨rfl, Bool.eq_false_iff.mpr fun htrue => ?_⟩)
    obtain ⟨-, h | h⟩ := (isLeap_iff (by decide)).mp htrue
    · exact h rfl
    · exact hc h

theorem dateFrom_succ (era : ℤ) (n : ℕ) : dateFrom era (n + 1) = (dateFrom era n).next := by
  obtain ⟨c, r, hr, hn⟩ : ∃ c r, r < 146097 ∧ 4 * n + 3 = 146097 * c + r :=
    ⟨(4 * n + 3) / 146097, (4 * n + 3) % 146097, Nat.mod_lt _ (by decide),
      (Nat.div_add_mod _ _).symm⟩
  unfold dateFrom
  dsimp only
  obtain ⟨hdiv, hmod⟩ := (Nat.div_mod_unique (by decide)).mpr ⟨(add_comm _ _).trans hn.symm, hr⟩
  rw [hdiv, hmod]
  by_cases hlast : r + 4 < 146097
  · obtain ⟨hdiv, hmod⟩ : (4 * (n + 1) + 3) / 146097 = c ∧ (4 * (n + 1) + 3) % 146097 = r + 4 :=
      (Nat.div_mod_unique (by decide)).mpr ⟨by omega, hlast⟩
    rw [hdiv, hmod, Nat.add_div_right r (by decide)]
    refine (next_within ⟨by omega, fun hend => ?_⟩).symm
    obtain rfl : r = 146092 := by omega
    omega
  · obtain ⟨hdiv, hmod⟩ :
        (4 * (n + 1) + 3) / 146097 = c + 1 ∧ (4 * (n + 1) + 3) % 146097 = r + 4 - 146097 :=
      (Nat.div_mod_unique (by decide)).mpr ⟨by omega, by omega⟩
    have hfirst : (r + 4 - 146097) / 4 = 0 := Nat.div_eq_of_lt (by omega)
    rw [hdiv, hmod, hfirst, next_century (by omega)]
    show marchDate (400 * era + 100 * (c + 1 : ℕ) + (0 : ℕ)) 0 = _
    rw [Nat.cast_zero, add_zero]

theorem next_iterate (era : ℤ) (n k : ℕ) :
    Date.next^[k] (dateFrom era n) = dateFrom era (n + k) := by
  induction k with
  | zero => rfl
  | succ k ih => rw [Function.iterate_succ_apply', ih, ← dateFrom_succ, ← add_assoc]

end Gregorian
