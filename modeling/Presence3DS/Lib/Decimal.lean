import Mathlib.Data.Nat.Digits.Lemmas
import Mathlib.Tactic.Ring
import Presence3DS.Lib.CString

/-! Unsigned decimal numbers as `strtoull` reads them in base ten. -/

namespace Decimal
open CString

def isSpace (c : UInt8) : Bool := c = 0x20 || 0x09 ≤ c && c ≤ 0x0D

def isDigit (c : UInt8) : Bool := 0x30 ≤ c && c ≤ 0x39

/-- The value of the digits a text starts with, after those already read. -/
def readDigits : Nat → Bytes → Nat
  | acc, [] => acc
  | acc, c :: s => if isDigit c then readDigits (10 * acc + (c.toNat - 0x30)) s else acc

/-- A sign is optional, and negates modulo `2 ^ 64`; too large a value saturates. -/
def strtoull (s : Bytes) : UInt64 :=
  let s := (str s).dropWhile isSpace
  let negative := s.head? = some 0x2D
  let s := if negative ∨ s.head? = some 0x2B then s.tail else s
  let value := readDigits 0 s
  if 2 ^ 64 ≤ value then UInt64.ofNat (2 ^ 64 - 1)
  else if negative then -UInt64.ofNat value
  else UInt64.ofNat value

def digit (d : Nat) : UInt8 := UInt8.ofNat (0x30 + d)

/-- The text of a number without leading zeros. -/
def decimal (n : Nat) : Bytes :=
  if n = 0 then [digit 0] else (Nat.digits 10 n).reverse.map digit

/-- The last `count` digits of a number in a base, the highest first. -/
def lastDigits (base : ℕ) : ℕ → ℕ → List ℕ
  | 0, _ => []
  | count + 1, n => lastDigits base count (n / base) ++ [n % base]

theorem toNat_digit {d : Nat} (h : d < 10) : (digit d).toNat = 0x30 + d := by
  apply UInt8.toNat_ofNat_of_lt'
  change 0x30 + d < 256
  omega

theorem isDigit_iff (c : UInt8) : isDigit c = true ↔ 0x30 ≤ c.toNat ∧ c.toNat ≤ 0x39 := by
  unfold isDigit
  rw [Bool.and_eq_true, decide_eq_true_eq, decide_eq_true_eq, UInt8.le_iff_toNat_le,
    UInt8.le_iff_toNat_le]
  exact Iff.rfl

theorem isDigit_digit {d : Nat} (h : d < 10) : isDigit (digit d) = true := by
  rw [isDigit_iff, toNat_digit h]
  omega

/-- Every digit of a number is one, so none is a space, a sign or the NUL. -/
theorem isDigit_of_mem_decimal {n : Nat} {c : UInt8} (h : c ∈ decimal n) : isDigit c = true := by
  unfold decimal at h
  split_ifs at h
  · rw [List.mem_singleton.mp h]
    decide
  · obtain ⟨d, hd, rfl⟩ := List.mem_map.mp h
    exact isDigit_digit (Nat.digits_lt_base (by decide) (List.mem_reverse.mp hd))

theorem decimal_ne_nil (n : Nat) : decimal n ≠ [] := by
  unfold decimal
  split_ifs with hn
  · exact List.cons_ne_nil _ _
  · rw [ne_eq, List.map_eq_nil_iff, List.reverse_eq_nil_iff, Nat.digits_eq_nil_iff_eq_zero]
    exact hn

theorem length_decimal_le_of_lt {n count : Nat} (hcount : 0 < count) (h : n < 10 ^ count) :
    (decimal n).length ≤ count := by
  unfold decimal
  split_ifs
  · exact hcount
  · rw [List.length_map, List.length_reverse, Nat.digits_length_le_iff (by decide)]
    exact h

/-- Sixty-four bits take at most twenty digits. -/
theorem length_decimal_le {n : Nat} (h : n < 2 ^ 64) : (decimal n).length ≤ 20 :=
  length_decimal_le_of_lt (by decide) (h.trans (by decide))

theorem readDigits_map (ds : List Nat) (h : ∀ d ∈ ds, d < 10) (acc : Nat) :
    readDigits acc (ds.map digit) = ds.foldl (fun a d => 10 * a + d) acc := by
  induction ds generalizing acc with
  | nil => rfl
  | cons d ds ih =>
    obtain ⟨hd, hds⟩ := List.forall_mem_cons.mp h
    have hvalue : (digit d).toNat - 0x30 = d := by
      rw [toNat_digit hd]
      omega
    rw [List.map_cons, readDigits, if_pos (isDigit_digit hd), hvalue, List.foldl_cons]
    exact ih hds _

/-- The digits of a number's text. -/
theorem decimal_eq_map (n : ℕ) : ∃ ds : List ℕ, decimal n = ds.map digit ∧ (∀ d ∈ ds, d < 10) ∧
    ds.foldl (fun a d => 10 * a + d) 0 = n := by
  unfold decimal
  split_ifs with hn
  · exact ⟨[0], rfl, by simp, by simp [hn]⟩
  · refine ⟨(Nat.digits 10 n).reverse, rfl,
      fun d hd => Nat.digits_lt_base (by decide) (List.mem_reverse.mp hd), ?_⟩
    rw [List.foldl_reverse]
    calc (Nat.digits 10 n).foldr (fun d a => 10 * a + d) 0
        = Nat.ofDigits 10 (Nat.digits 10 n) := by
          rw [Nat.ofDigits_eq_foldr]
          simp only [Nat.cast_id, Nat.add_comm]
      _ = n := Nat.ofDigits_digits 10 n

theorem readDigits_decimal (n : Nat) : readDigits 0 (decimal n) = n := by
  obtain ⟨ds, hmap, hds, hvalue⟩ := decimal_eq_map n
  rw [hmap, readDigits_map ds hds, hvalue]

theorem length_lastDigits (base count n : ℕ) : (lastDigits base count n).length = count := by
  induction count generalizing n with
  | zero => rfl
  | succ count ih => rw [lastDigits, List.length_append, ih, List.length_singleton]

theorem lt_of_mem_lastDigits {base count n d : ℕ} (hbase : 0 < base)
    (h : d ∈ lastDigits base count n) : d < base := by
  induction count generalizing n with
  | zero => cases h
  | succ count ih =>
    rcases List.mem_append.mp h with h | h
    · exact ih h
    · rw [List.mem_singleton.mp h]
      exact Nat.mod_lt _ hbase

/-- Digits read one after another, from those already read. -/
theorem foldl_lastDigits (base count n acc : ℕ) :
    (lastDigits base count n).foldl (fun a d => base * a + d) acc =
      acc * base ^ count + n % base ^ count := by
  induction count generalizing n with
  | zero => simp [lastDigits, Nat.mod_one]
  | succ count ih =>
    rw [lastDigits, List.foldl_append, ih, List.foldl_cons, List.foldl_nil, Nat.pow_succ',
      Nat.mod_mul]
    ring

theorem foldl_digits_add (base : ℕ) (ds : List ℕ) (acc : ℕ) :
    ds.foldl (fun a d => base * a + d) acc =
      acc * base ^ ds.length + ds.foldl (fun a d => base * a + d) 0 := by
  induction ds generalizing acc with
  | nil => simp
  | cons d ds ih =>
    rw [List.foldl_cons, ih, List.foldl_cons, ih (base * 0 + d), List.length_cons, Nat.pow_succ]
    ring

theorem isSpace_of_isDigit {c : UInt8} (h : isDigit c = true) : isSpace c = false := by
  apply Bool.eq_false_iff.mpr
  intro hspace
  rw [isSpace, Bool.or_eq_true, Bool.and_eq_true, decide_eq_true_eq, decide_eq_true_eq,
    decide_eq_true_eq, UInt8.le_iff_toNat_le, UInt8.le_iff_toNat_le] at hspace
  rcases hspace with rfl | ⟨-, hle⟩
  · cases h
  · have hlow := ((isDigit_iff c).mp h).1
    exact absurd (hlow.trans hle) (by decide)

theorem str_of_digits {s : Bytes} (h : ∀ c ∈ s, isDigit c = true) : str s = s := by
  apply List.takeWhile_eq_self_iff.mpr
  intro c hc
  have hdigit := h c hc
  rw [decide_eq_true_eq]
  rintro rfl
  cases hdigit

/-- A 64-bit number is read back from its decimal text. -/
theorem strtoull_decimal {n : Nat} (h : n < 2 ^ 64) : strtoull (decimal n) = UInt64.ofNat n := by
  have hstr : str (decimal n) = decimal n := str_of_digits fun _ hc => isDigit_of_mem_decimal hc
  obtain ⟨c, s, hcons⟩ := List.exists_cons_of_ne_nil (decimal_ne_nil n)
  have hdigit : isDigit c = true := isDigit_of_mem_decimal (n := n) (hcons ▸ List.mem_cons_self)
  have hskip : (decimal n).dropWhile isSpace = decimal n := by
    rw [hcons, List.dropWhile_cons_of_neg]
    rw [isSpace_of_isDigit hdigit]
    exact Bool.false_ne_true
  have hsign : ∀ sign, isDigit sign = false → (decimal n).head? ≠ some sign := by
    intro sign hsign heq
    rw [hcons, List.head?_cons] at heq
    rw [Option.some.inj heq] at hdigit
    exact Bool.false_ne_true (hsign.symm.trans hdigit)
  have hminus := hsign 0x2D (by decide)
  have hplus := hsign 0x2B (by decide)
  unfold strtoull
  simp only [hstr, hskip, hminus, hplus, or_self, if_false, readDigits_decimal,
    if_neg (Nat.not_le.mpr h)]

end Decimal
