import Mathlib.Algebra.Order.Ring.Int
import Mathlib.Algebra.Order.Ring.Nat
import Mathlib.Data.List.DropRight
import Mathlib.Data.List.TakeWhile
import Mathlib.Order.Fin.Basic

/-! NUL-terminated strings in byte buffers, as the bounded string functions of C read them.
A buffer is the list of its bytes; the string ends at the first NUL or with the buffer. -/

namespace CString

abbrev Bytes := List UInt8

/-- The string a buffer holds. -/
def str (s : Bytes) : Bytes := s.takeWhile (· ≠ 0)

def strnlen (s : Bytes) (n : Nat) : Nat := ((str s).take n).length

/-- `strncmp(a, b, n) == 0` -/
def strncmpEq : Bytes → Bytes → Nat → Bool
  | _, _, 0 => true
  | a, b, n + 1 =>
    a.headD 0 == b.headD 0 && (a.headD 0 == 0 || strncmpEq a.tail b.tail n)

/-- The `n` bytes that `strncpy(_, s, n)` writes. -/
def strncpy (s : Bytes) (n : Nat) : Bytes :=
  (str s).take n ++ List.replicate (n - (str s).length) 0

/-- `strstr(s, t) != NULL` -/
def strstr (s t : Bytes) : Bool := (str s).tails.any t.isPrefixOf

/-- What is tried of every byte holds of all. -/
theorem forall_byte {P : UInt8 → Prop} (h : ∀ n < 256, P (UInt8.ofNat n)) (b : UInt8) : P b := by
  have hb := h b.toNat b.toNat_lt
  rwa [UInt8.ofNat_toNat] at hb

@[simp] theorem str_nil : str [] = [] := rfl

theorem str_cons (c : UInt8) (s : Bytes) : str (c :: s) = if c = 0 then [] else c :: str s := by
  by_cases h : c = 0 <;> simp [str, h]

theorem ne_zero_of_mem_str {s : Bytes} {c : UInt8} (h : c ∈ str s) : c ≠ 0 := by
  simpa using List.mem_takeWhile_imp h

theorem str_eq_take (s : Bytes) : str s = s.take (str s).length :=
  List.prefix_iff_eq_take.mp (List.takeWhile_prefix _)

/-- What stands behind the string begins with its NUL, or there is nothing. -/
theorem exists_str_append (s : Bytes) : ∃ rest, s = str s ++ rest ∧ rest.headD 0 = 0 := by
  refine ⟨s.dropWhile (· ≠ 0), (List.takeWhile_append_dropWhile).symm, ?_⟩
  induction s with
  | nil => rfl
  | cons c s ih =>
    by_cases hc : c = 0
    · rw [List.dropWhile_cons_of_neg (by simpa using hc)]
      exact hc
    · rw [List.dropWhile_cons_of_pos (by simpa using hc)]
      exact ih

theorem str_append_replicate {s : Bytes} (h : ∀ c ∈ s, c ≠ 0) (n : Nat) :
    str (s ++ List.replicate n 0) = s := by
  induction s with
  | nil => cases n <;> simp [List.replicate_succ, str_cons]
  | cons c s ih =>
    rw [List.cons_append, str_cons, if_neg (h c (by simp)), ih fun d hd => h d (by simp [hd])]

theorem str_append_zero {out : Bytes} (h : ∀ c ∈ out, c ≠ 0) (rest : Bytes) :
    str (out ++ 0 :: rest) = out := by
  unfold str
  rw [List.takeWhile_append_of_pos fun c hc => by simpa using h c hc,
    List.takeWhile_cons_of_neg (by decide), List.append_nil]

theorem str_strncpy (s : Bytes) (n : Nat) : str (strncpy s n) = (str s).take n :=
  str_append_replicate (fun _ hc => ne_zero_of_mem_str (List.mem_of_mem_take hc)) _

theorem length_strncpy (s : Bytes) (n : Nat) : (strncpy s n).length = n := by
  simp only [strncpy, List.length_append, List.length_take, List.length_replicate]
  omega

theorem strnlen_le (s : Bytes) (n : Nat) : strnlen s n ≤ n := by
  rw [strnlen, List.length_take]
  exact Nat.min_le_left _ _

theorem strnlen_eq_iff (s : Bytes) (n : Nat) : strnlen s n = n ↔ n ≤ (str s).length := by
  rw [strnlen, List.length_take]
  omega

theorem take_str_of_le {s : Bytes} {n : Nat} (h : n ≤ (str s).length) :
    (str s).take n = s.take n := by
  calc (str s).take n = (s.take (str s).length).take n := congrArg (List.take n) (str_eq_take s)
    _ = s.take n := by rw [List.take_take, Nat.min_eq_left h]

theorem strncmpEq_iff (n : Nat) : ∀ a b : Bytes,
    strncmpEq a b n = true ↔ (str a).take n = (str b).take n := by
  induction n with
  | zero => simp [strncmpEq]
  | succ n ih =>
    intro a b
    cases a with
    | nil =>
      cases b with
      | nil => simp [strncmpEq]
      | cons d b => by_cases hd : d = 0 <;> simp [strncmpEq, str_cons, hd, Ne.symm]
    | cons c a =>
      by_cases hc : c = 0
      · subst hc
        cases b with
        | nil => simp [strncmpEq, str_cons]
        | cons d b => by_cases hd : d = 0 <;> simp [strncmpEq, str_cons, hd, Ne.symm]
      · cases b with
        | nil => simp [strncmpEq, str_cons, hc]
        | cons d b =>
          by_cases hd : d = 0
          · simp [strncmpEq, str_cons, hc, hd]
          · simp [strncmpEq, str_cons, hc, hd, ih]

/-- Where `n` bytes of a string are known, its end at `n` is the NUL (or the buffer's end) there. -/
theorem getD_eq_zero_iff {s : Bytes} {n : Nat} (h : n ≤ (str s).length) :
    s.getD n 0 = 0 ↔ (str s).length = n := by
  induction s generalizing n with
  | nil => simp at h; simp [h]
  | cons c s ih =>
    rw [str_cons] at h ⊢
    by_cases hc : c = 0
    · subst hc
      simp at h
      simp [h]
    · rw [if_neg hc] at h ⊢
      cases n with
      | zero => simp [hc]
      | succ n => simpa using ih (by simpa using h)

/-- What is stripped off the end stops at a byte that is not to be stripped. -/
theorem rdropWhile_append_cons {p : UInt8 → Bool} {c : UInt8} (h : p c = false) (s t : Bytes) :
    (s ++ c :: t).rdropWhile p = s ++ c :: t.rdropWhile p := by
  induction t using List.reverseRecOn with
  | nil => exact List.rdropWhile_concat_neg _ _ _ (Bool.eq_false_iff.mp h)
  | append_singleton t d ih =>
    rw [← List.cons_append, ← List.append_assoc]
    cases hd : p d with
    | true => rw [List.rdropWhile_concat_pos _ _ _ hd, List.rdropWhile_concat_pos _ _ _ hd, ih]
    | false =>
      rw [List.rdropWhile_concat_neg _ _ _ (Bool.eq_false_iff.mp hd),
        List.rdropWhile_concat_neg _ _ _ (Bool.eq_false_iff.mp hd)]
      simp

end CString
