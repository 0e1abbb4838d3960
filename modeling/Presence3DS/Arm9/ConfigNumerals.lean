import Mathlib.RingTheory.Coprime.Lemmas
import Mathlib.Tactic.Linarith
import Presence3DS.Arm9.ConfigValues
import Presence3DS.Lib.Numerals

/-! The numeric options of the configuration: which texts `config.c` takes for numbers, and where
64 bits are too few for what it reads. -/

namespace Presence3DS.Arm9
open CString

/-! ## Numerals -/

def decDigit? (c : UInt8) : Option ℕ := if Decimal.isDigit c then some (c.toNat - 0x30) else none

def decValue (s : Bytes) : ℕ := Numerals.value decDigit? 10 s

def signOf (s : Bytes) : ℤ := if s.head? = some 0x2D then -1 else 1

/-- A text without the sign that it may have. -/
def unsigned (s : Bytes) : Bytes :=
  if s.head? = some 0x2B ∨ s.head? = some 0x2D then s.tail else s

def decNumeral (s : Bytes) : Option ℤ :=
  (Numerals.numeral decDigit? 10 (unsigned s)).map fun n : ℕ => signOf s * (n : ℤ)

def hexNumeral (s : Bytes) : Option ℕ := Numerals.numeral hexDigit? 16 s

/-- What stands in front of a point, and what stands behind it. -/
def integerPart (s : Bytes) : Bytes := s.takeWhile (· ≠ 0x2E)

def fractionPart (s : Bytes) : Bytes := (s.dropWhile (· ≠ 0x2E)).tail

/-- The digits behind a point, in multiples of `10⁻ᵏ` and truncated. -/
def fractionValue (k : ℕ) (s : Bytes) : ℕ := decValue s * 10 ^ k / 10 ^ s.length

/-- Digits in front of a point, behind it, or both; without a sign. -/
def IsFraction (s : Bytes) : Prop :=
  integerPart s ++ fractionPart s ≠ [] ∧
    (integerPart s ++ fractionPart s).all Decimal.isDigit = true

instance (s : Bytes) : Decidable (IsFraction s) := inferInstanceAs (Decidable (_ ∧ _))

/-- The value of a numeral with a fraction, in multiples of `10⁻⁸` and truncated. -/
def decFraction (s : Bytes) : Option ℤ :=
  if IsFraction (unsigned s) then
    some (signOf s * (decValue (integerPart (unsigned s)) * floatConvMult +
      fractionValue 8 (fractionPart (unsigned s))))
  else none

/-! ## The options -/

def InRange (minval maxval v : ℤ) : Prop := minval ≤ v ∧ v ≤ maxval

instance (minval maxval v : ℤ) : Decidable (InRange minval maxval v) :=
  inferInstanceAs (Decidable (_ ∧ _))

/-- `parseHexIntOption` with its range. -/
def parseHexIntOptionIn (val : Bytes) (minval maxval : UInt64) : Option (BitVec 64) :=
  (parseHexIntOption val).bind fun res =>
    if res ≤ maxval.toBitVec ∧ minval.toBitVec ≤ res then some res else none

/-! ### Readers -/

section
variable {s : Bytes}

theorem isDigit_decDigit? : Numerals.isDigit decDigit? = Decimal.isDigit := by
  funext c
  unfold Numerals.isDigit decDigit?
  cases Decimal.isDigit c <;> rfl

theorem readDecInt_eq_foldlM (res : BitVec 64) (s : Bytes) :
    readDecInt res s = s.foldlM (fun res c => (decDigit? c).map fun d =>
      BitVec.ofNat 64 10 * res + BitVec.ofNat 64 d) res := by
  induction s generalizing res with
  | nil => rfl
  | cons c s ih =>
    rw [readDecInt, List.foldlM_cons]
    unfold decDigit?
    split_ifs with hc
    · exact ih _
    · rfl

theorem readDecInt_eq (s : Bytes) : readDecInt 0 s =
    if s.all Decimal.isDigit = true then some (BitVec.ofNat 64 (decValue s)) else none := by
  rw [readDecInt_eq_foldlM]
  have hfold := @Numerals.foldlM_ofNat _ decDigit? 10 64 0 s
  rw [isDigit_decDigit?] at hfold
  exact hfold

theorem parseHexIntOption_eq (s : Bytes) : parseHexIntOption s =
    if s.all (Numerals.isDigit hexDigit?) = true then
      some (BitVec.ofNat 64 (Numerals.value hexDigit? 16 s))
    else none :=
  @Numerals.foldlM_ofNat _ hexDigit? 16 64 0 s

theorem decNumeral_eq (s : Bytes) : decNumeral s =
    if unsigned s ≠ [] ∧ (unsigned s).all Decimal.isDigit = true then
      some (signOf s * decValue (unsigned s))
    else none := by
  unfold decNumeral Numerals.numeral
  rw [isDigit_decDigit?]
  split_ifs <;> rfl

theorem bmod_eq_iff {v r : ℤ} (hmin : int64Min ≤ r) (hmax : r ≤ int64Max) :
    v.bmod (2 ^ 64) = r ↔ (2 ^ 64 : ℤ) ∣ v - r := by
  have hlow := Int.le_bmod (x := v) (m := 2 ^ 64) (by decide)
  have hhigh := Int.bmod_lt (x := v) (m := 2 ^ 64) (by decide)
  have hdiv := Int.bmod_eq_self_sub_mul_bdiv v (2 ^ 64)
  unfold int64Min at hmin
  unfold int64Max at hmax
  constructor
  · rintro rfl
    exact ⟨v.bdiv (2 ^ 64), by omega⟩
  · rintro ⟨k, hk⟩
    omega

theorem toInt_signed (s : Bytes) (n : ℕ) :
    (if signOf s = -1 then -BitVec.ofNat 64 n else BitVec.ofNat 64 n).toInt =
      (signOf s * (n : ℤ)).bmod (2 ^ 64) := by
  unfold signOf
  by_cases h : s.head? = some 0x2D
  · rw [if_pos h, if_pos rfl, BitVec.toInt_neg, BitVec.toInt_ofNat', Int.bmod_neg_bmod, neg_one_mul]
  · rw [if_neg h, if_neg (by decide), BitVec.toInt_ofNat', one_mul]

theorem parseDecIntOption_eq_unsigned (minval maxval : ℤ)
    (h : 2 ≤ s.length ∨ ¬(s.head? = some 0x2B ∨ s.head? = some 0x2D)) :
    parseDecIntOption s minval maxval = (readDecInt 0 (unsigned s)).bind fun res =>
      let res := (if signOf s = -1 then -res else res).toInt
      if InRange minval maxval res then some res else none := by
  have hsigned : (2 ≤ s.length ∧ (s.head? = some 0x2B ∨ s.head? = some 0x2D)) ↔
      (s.head? = some 0x2B ∨ s.head? = some 0x2D) := and_iff_right_of_imp fun hs =>
    h.resolve_right (not_not_intro hs)
  have hnegative : (2 ≤ s.length ∧ s.head? = some 0x2D) ↔ signOf s = -1 := by
    have hiff : signOf s = -1 ↔ s.head? = some 0x2D := by
      unfold signOf
      split_ifs with hs
      · exact iff_of_true rfl hs
      · exact iff_of_false (by decide) hs
    rw [hiff]
    exact and_iff_right_of_imp fun hs => h.resolve_right (not_not_intro (Or.inr hs))
  have hswap : ∀ v : ℤ, (v ≤ maxval ∧ minval ≤ v) ↔ InRange minval maxval v := fun v => and_comm
  unfold parseDecIntOption unsigned
  simp only [hsigned, hnegative, hswap]

theorem parseDecIntOption_eq (s : Bytes) (minval maxval : ℤ) :
    parseDecIntOption s minval maxval =
      if s = [] then (if InRange minval maxval 0 then some 0 else none)
      else (decNumeral s).bind fun v =>
        if InRange minval maxval (v.bmod (2 ^ 64)) then some (v.bmod (2 ^ 64)) else none := by
  rw [decNumeral_eq]
  by_cases hshort : 2 ≤ s.length ∨ ¬(s.head? = some 0x2B ∨ s.head? = some 0x2D)
  · rw [parseDecIntOption_eq_unsigned minval maxval hshort, readDecInt_eq]
    by_cases hnil : s = []
    · rw [hnil, if_pos rfl]
      rfl
    · have hne : unsigned s ≠ [] := by
        unfold unsigned
        split_ifs with hs
        · intro htail
          have hlength := congrArg List.length htail
          have htwo := hshort.resolve_right (not_not_intro hs)
          rw [List.length_tail] at hlength
          change _ = 0 at hlength
          omega
        · exact hnil
      rw [if_neg hnil]
      by_cases hall : (unsigned s).all Decimal.isDigit = true
      · rw [if_pos hall, if_pos ⟨hne, hall⟩, Option.bind_some, Option.bind_some]
        dsimp only
        rw [toInt_signed]
      · rw [if_neg hall, if_neg fun h => hall h.2]
        rfl
  · -- A sign alone is no digit.
    obtain ⟨hlength, hsign⟩ := not_or.mp hshort
    have hsign := not_not.mp hsign
    cases s with
    | nil => exact absurd hsign (by simp)
    | cons c s =>
      obtain rfl : s = [] := by
        rw [List.length_cons] at hlength
        exact List.length_eq_zero_iff.mp (by omega)
      have hchar : c = 0x2B ∨ c = 0x2D := hsign.imp Option.some.inj Option.some.inj
      rw [if_neg (List.cons_ne_nil _ _), if_neg]
      · rcases hchar with rfl | rfl <;> rfl
      · rcases hchar with rfl | rfl <;> exact fun h => h.1 rfl

@[simp] theorem fractionValue_nil (k : ℕ) : fractionValue k [] = 0 := by
  show 0 * 10 ^ k / 10 ^ 0 = 0
  rw [Nat.zero_mul, Nat.zero_div]

theorem fractionValue_cons {c : UInt8} (hc : Decimal.isDigit c = true) (k : ℕ) (s : Bytes) :
    fractionValue (k + 1) (c :: s) = (c.toNat - 0x30) * 10 ^ k + fractionValue k s := by
  have hdigit : decDigit? c = some (c.toNat - 0x30) := if_pos hc
  have hvalue : decValue (c :: s) = (c.toNat - 0x30) * 10 ^ s.length + decValue s := by
    unfold decValue
    rw [Numerals.value, Numerals.valueFrom_cons hdigit, Numerals.valueFrom_eq, Nat.mul_zero,
      Nat.zero_add]
  unfold fractionValue
  rw [hvalue, List.length_cons, pow_succ, pow_succ, ← Nat.mul_assoc,
    Nat.mul_div_mul_right _ _ (by decide), Nat.add_mul, Nat.mul_right_comm, Nat.add_comm,
    Nat.add_mul_div_right _ _ (Nat.pow_pos (by decide)), Nat.add_comm]

theorem readFraction_eq (s : Bytes) (k : ℕ) : readFraction s (10 ^ k / 10) =
    if (s.take k).all Decimal.isDigit = true then some (fractionValue k (s.take k)) else none := by
  induction s generalizing k with
  | nil =>
    rw [List.take_nil, readFraction, fractionValue_nil]
    rfl
  | cons c s ih =>
    cases k with
    | zero =>
      rw [readFraction, if_pos (by decide), List.take_zero, fractionValue_nil]
      rfl
    | succ k =>
      have hmul : 10 ^ (k + 1) / 10 = 10 ^ k := by
        rw [pow_succ, Nat.mul_div_cancel _ (by decide)]
      rw [readFraction, hmul, if_neg (Nat.pow_pos (by decide)).ne', ih, List.take_succ_cons,
        List.all_cons]
      cases hc : Decimal.isDigit c with
      | false => rfl
      | true =>
        rw [fractionValue_cons hc, if_pos rfl, Bool.true_and]
        split_ifs <;> rfl

theorem decDigit?_lt {c : UInt8} {d : ℕ} (h : decDigit? c = some d) : d < 10 := by
  unfold decDigit? at h
  split_ifs at h with hc
  rw [Decimal.isDigit_iff] at hc
  have hd := Option.some.inj h
  omega

theorem fractionValue_lt (k : ℕ) (hs : s.all Decimal.isDigit = true) :
    fractionValue k s < 10 ^ k := by
  have hvalue : decValue s < 10 ^ s.length :=
    Numerals.value_lt (fun c d => decDigit?_lt) (by rw [isDigit_decDigit?]; exact hs)
  unfold fractionValue
  rw [Nat.div_lt_iff_lt_mul (Nat.pow_pos (by decide)), Nat.mul_comm]
  exact Nat.mul_lt_mul_of_pos_left hvalue (Nat.pow_pos (by decide))

theorem fractionValue_take (k : ℕ) (hs : s.all Decimal.isDigit = true) :
    fractionValue k (s.take k) = fractionValue k s := by
  induction s generalizing k with
  | nil => rw [List.take_nil]
  | cons c s ih =>
    cases k with
    | zero =>
      have hlt := fractionValue_lt 0 hs
      rw [List.take_zero, fractionValue_nil, Nat.lt_one_iff.mp hlt]
    | succ k =>
      rw [List.all_cons, Bool.and_eq_true] at hs
      rw [List.take_succ_cons, fractionValue_cons hs.1, fractionValue_cons hs.1, ih k hs.2]

end

/-! ## Where a number is read right -/

/-- What is read in place of a value is taken exactly where the value is, if and only if nothing
else that is taken could be read in its place. -/
theorem misread_iff {α : Type*} {v w : α} {taken : α → Prop} [DecidablePred taken]
    {same : α → α → Prop} (hw : ∀ r, taken r → (w = r ↔ same v r)) (hself : same v v) :
    (if taken w then some w else none) = (some v).filter taken ↔
      ∀ r, taken r → same v r → r = v := by
  rw [Option.filter_some]
  simp only [decide_eq_true_eq]
  constructor
  · intro h r hr hsame
    obtain rfl : w = r := (hw r hr).mpr hsame
    rw [if_pos hr] at h
    split_ifs at h
    exact Option.some.inj h
  · intro h
    by_cases hread : taken w
    · obtain rfl : w = v := h w hread ((hw w hread).mp rfl)
      rfl
    · rw [if_neg hread, if_neg]
      intro hv
      exact hread ((hw v hv).mpr hself ▸ hv)

/-- No number of the range but a numeral's own has its residue. -/
def DecFits (s : Bytes) (minval maxval : ℤ) : Prop :=
  (s = [] → ¬InRange minval maxval 0) ∧
    ∀ v, decNumeral s = some v → ∀ r, InRange minval maxval r → (2 ^ 64 : ℤ) ∣ v - r → r = v

theorem parseDecIntOption_iff (s : Bytes) (minval maxval : Int64) :
    parseDecIntOption s minval.toInt maxval.toInt =
        (decNumeral s).filter (InRange minval.toInt maxval.toInt) ↔
      DecFits s minval.toInt maxval.toInt := by
  have hmin : int64Min ≤ minval.toInt := minval.le_toInt
  have hmax : maxval.toInt ≤ int64Max := maxval.toInt_le
  generalize minval.toInt = minval at hmin
  generalize maxval.toInt = maxval at hmax
  rw [parseDecIntOption_eq]
  unfold DecFits
  by_cases hnil : s = []
  · have hnone : decNumeral s = none := by
      rw [hnil]
      rfl
    rw [if_pos hnil, hnone]
    by_cases hzero : InRange minval maxval 0
    · rw [if_pos hzero]
      exact iff_of_false (fun h => by cases h) fun h => h.1 hnil hzero
    · rw [if_neg hzero]
      exact iff_of_true rfl ⟨fun _ => hzero, fun v hv => by cases hv⟩
  · rw [if_neg hnil]
    cases hv : decNumeral s with
    | none => exact iff_of_true rfl ⟨fun h => absurd h hnil, fun v hv => by cases hv⟩
    | some v =>
      have hread := @misread_iff ℤ v (v.bmod (2 ^ 64)) (InRange minval maxval) _
        (fun v r => (2 ^ 64 : ℤ) ∣ v - r)
        (fun r hr => bmod_eq_iff (hmin.trans hr.1) (hr.2.trans hmax)) (by simp)
      rw [Option.bind_some, hread]
      constructor
      · exact fun h => ⟨fun h => absurd h hnil, fun u hu => Option.some.inj hu ▸ h⟩
      · exact fun h => h.2 v rfl

/-- The same of a number without a sign. -/
def HexFits (s : Bytes) (minval maxval : ℕ) : Prop :=
  (s = [] → minval ≠ 0) ∧ ∀ v, hexNumeral s = some v →
    ∀ r, minval ≤ r ∧ r ≤ maxval → (2 ^ 64 : ℤ) ∣ (v : ℤ) - r → r = v

theorem parseHexIntOption_iff (s : Bytes) (minval maxval : UInt64) :
    (parseHexIntOptionIn s minval maxval).map BitVec.toNat =
        (hexNumeral s).filter (fun r => minval.toNat ≤ r ∧ r ≤ maxval.toNat) ↔
      HexFits s minval.toNat maxval.toNat := by
  have hmax : maxval.toNat < 2 ^ 64 := maxval.toNat_lt
  have hread : ∀ n : ℕ, (if BitVec.ofNat 64 n ≤ maxval.toBitVec ∧
      minval.toBitVec ≤ BitVec.ofNat 64 n then some (BitVec.ofNat 64 n) else none).map
        BitVec.toNat =
      if minval.toNat ≤ n % 2 ^ 64 ∧ n % 2 ^ 64 ≤ maxval.toNat then some (n % 2 ^ 64)
      else none := by
    intro n
    have hiff : (BitVec.ofNat 64 n ≤ maxval.toBitVec ∧ minval.toBitVec ≤ BitVec.ofNat 64 n) ↔
        (minval.toNat ≤ n % 2 ^ 64 ∧ n % 2 ^ 64 ≤ maxval.toNat) := by
      rw [BitVec.le_def, BitVec.le_def, BitVec.toNat_ofNat]
      exact and_comm
    by_cases h : minval.toNat ≤ n % 2 ^ 64 ∧ n % 2 ^ 64 ≤ maxval.toNat
    · rw [if_pos h, if_pos (hiff.mpr h), Option.map_some, BitVec.toNat_ofNat]
    · rw [if_neg h, if_neg fun h' => h (hiff.mp h')]
      rfl
  unfold parseHexIntOptionIn HexFits
  rw [parseHexIntOption_eq]
  by_cases hall : s.all (Numerals.isDigit hexDigit?) = true
  · rw [if_pos hall, Option.bind_some, hread]
    by_cases hnil : s = []
    · have hnone : hexNumeral s = none := if_neg fun h => h.1 hnil
      have hvalue : Numerals.value hexDigit? 16 s = 0 := by
        rw [hnil]
        rfl
      rw [hnone, hvalue]
      by_cases hzero : minval.toNat = 0
      · rw [if_pos ⟨hzero.le, Nat.zero_le _⟩]
        exact iff_of_false (fun h => by cases h) fun h => h.1 hnil hzero
      · rw [if_neg fun h => hzero (Nat.le_zero.mp h.1)]
        exact iff_of_true rfl ⟨fun _ => hzero, fun v hv => by cases hv⟩
    · have hsome : hexNumeral s = some (Numerals.value hexDigit? 16 s) := if_pos ⟨hnil, hall⟩
      generalize Numerals.value hexDigit? 16 s = v at hsome
      have hiff := @misread_iff ℕ v (v % 2 ^ 64)
        (fun r => minval.toNat ≤ r ∧ r ≤ maxval.toNat) _
        (fun v r => (2 ^ 64 : ℤ) ∣ (v : ℤ) - r) (fun r hr => by omega) (by simp)
      rw [hsome, hiff]
      constructor
      · exact fun h => ⟨fun h => absurd h hnil, fun u hu => Option.some.inj hu ▸ h⟩
      · exact fun h => h.2 v rfl
  · have hnone : hexNumeral s = none := if_neg fun h => hall h.2
    rw [if_neg hall, hnone]
    refine iff_of_true rfl ⟨fun hnil => ?_, fun v hv => by cases hv⟩
    rw [hnil] at hall
    exact absurd rfl hall

/-! ## Fractions -/

/-- What is read in front of the point. -/
def integerValue (s : Bytes) : Option ℤ :=
  if integerPart s = [] then some 0 else decNumeral (integerPart s)

/-- A text behind its sign is read although it may have a second one, and anything behind its
eighth decimal. -/
def Readable (s : Bytes) : Prop :=
  s ≠ [] ∧ s ≠ [0x2E] ∧ ((fractionPart s).take 8).all Decimal.isDigit = true

/-- A number that has the residue of what is read, in front of the point and in all. -/
def Residue (s : Bytes) (r : ℤ) : Prop :=
  Readable (unsigned s) ∧ ∃ i w : ℤ, integerValue (unsigned s) = some i ∧ (2 ^ 64 : ℤ) ∣ i - w ∧
    InRange int64Min int64Max (w * floatConvMult) ∧
    (2 ^ 64 : ℤ) ∣ w * floatConvMult +
      signOf s * fractionValue 8 ((fractionPart (unsigned s)).take 8) - r

/-- A numeral in the range is not negative, or has no integer part; where there is none in the
range, no number of it has the residue of what is read. -/
def FloatFits (s : Bytes) (minval maxval : ℤ) : Prop :=
  (∀ v, decFraction s = some v → InRange minval maxval v → -floatConvMult < v) ∧
    ((∀ v, decFraction s = some v → ¬InRange minval maxval v) →
      ∀ r, InRange minval maxval r → ¬Residue s r)

section
variable {s : Bytes} {minval maxval r : ℤ}

theorem signOf_cases (s : Bytes) : signOf s = -1 ∨ signOf s = 1 := by
  unfold signOf
  split_ifs
  · exact Or.inl rfl
  · exact Or.inr rfl

theorem integerPart_fullRange (hs : s ≠ []) : parseDecIntOption s int64Min int64Max =
    (decNumeral s).map fun v => v.bmod (2 ^ 64) := by
  rw [parseDecIntOption_eq, if_neg hs]
  cases decNumeral s with
  | none => rfl
  | some v =>
    refine if_pos ⟨?_, ?_⟩
    · exact Int.le_bmod (x := v) (m := 2 ^ 64) (by decide)
    · exact Int.le_sub_one_of_lt (Int.bmod_lt (x := v) (m := 2 ^ 64) (by decide))

theorem integerValue_read (s : Bytes) :
    (if integerPart s = [] then some 0
      else parseDecIntOption (integerPart s) int64Min int64Max) =
      (integerValue s).map fun v => v.bmod (2 ^ 64) := by
  unfold integerValue
  split_ifs with h
  · rfl
  · exact integerPart_fullRange h

theorem joinFloat_eq_some_iff {sign w : ℤ} {fraction : Bytes} (hsign : sign = -1 ∨ sign = 1)
    (hmin : int64Min ≤ minval) (hmax : maxval ≤ int64Max) :
    joinFloat sign w fraction minval maxval = some r ↔
      InRange minval maxval r ∧ (fraction.take 8).all Decimal.isDigit = true ∧
        InRange int64Min int64Max (w * floatConvMult) ∧
        (2 ^ 64 : ℤ) ∣ w * floatConvMult + sign * fractionValue 8 (fraction.take 8) - r := by
  have hmul : floatConvMult / 10 = 10 ^ 8 / 10 := by decide
  have hover : ((if sign = -1 then -w else w) * (floatConvMult : ℤ) < int64Min ∨
      int64Max < (if sign = -1 then -w else w) * (floatConvMult : ℤ)) ↔
      ¬InRange int64Min int64Max (w * floatConvMult) := by
    rw [floatConvMult_eq]
    unfold InRange int64Min int64Max
    rcases hsign with rfl | rfl
    · rw [if_pos rfl]
      omega
    · rw [if_neg (by decide)]
      omega
  have hjoin : ∀ f : ℕ, sign * ((if sign = -1 then -w else w) * (floatConvMult : ℤ) + f) =
      w * floatConvMult + sign * f := by
    intro f
    rcases hsign with rfl | rfl
    · rw [if_pos rfl]
      ring
    · rw [if_neg (by decide)]
      ring
  unfold joinFloat
  dsimp only
  rw [hmul, readFraction_eq]
  by_cases hfit : InRange int64Min int64Max (w * floatConvMult)
  · rw [if_neg (hover.not.mpr (not_not_intro hfit))]
    by_cases hdigits : (fraction.take 8).all Decimal.isDigit = true
    · rw [if_pos hdigits, Option.bind_some, hjoin]
      generalize w * (floatConvMult : ℤ) + sign * fractionValue 8 (fraction.take 8) = v
      have hread : ∀ r, InRange minval maxval r → (v.bmod (2 ^ 64) = r ↔ (2 ^ 64 : ℤ) ∣ v - r) :=
        fun r hr => bmod_eq_iff (hmin.trans hr.1) (hr.2.trans hmax)
      constructor
      · intro h
        split_ifs at h with hrange
        have hr : InRange minval maxval r := Option.some.inj h ▸ hrange.symm
        exact ⟨hr, hdigits, hfit, (hread r hr).mp (Option.some.inj h)⟩
      · rintro ⟨hr, -, -, hdvd⟩
        obtain rfl := (hread r hr).mpr hdvd
        exact if_pos hr.symm
    · rw [if_neg hdigits]
      exact iff_of_false (fun h => by cases h) fun h => hdigits h.2.1
  · rw [if_pos (hover.mpr hfit)]
    exact iff_of_false (fun h => by cases h) fun h => hfit h.2.2.1

theorem parseDecFloatOption_eq_some_iff (hmin : int64Min ≤ minval) (hmax : maxval ≤ int64Max) :
    parseDecFloatOption s minval maxval = some r ↔ InRange minval maxval r ∧ Residue s r := by
  have hparse : parseDecFloatOption s minval maxval =
      if unsigned s = [] ∨ unsigned s = [0x2E] then none
      else ((integerValue (unsigned s)).map fun v => v.bmod (2 ^ 64)).bind fun w =>
        joinFloat (signOf s) w (fractionPart (unsigned s)) minval maxval := by
    rw [← integerValue_read]
    rfl
  rw [hparse]
  unfold Residue Readable
  by_cases hempty : unsigned s = [] ∨ unsigned s = [0x2E]
  · rw [if_pos hempty]
    refine iff_of_false (fun h => by cases h) fun h => ?_
    exact hempty.elim h.2.1.1 h.2.1.2.1
  · rw [if_neg hempty, Option.bind_map, Option.bind_eq_some_iff]
    constructor
    · rintro ⟨i, hi, hjoin⟩
      obtain ⟨hr, hdigits, hfit, hdvd⟩ :=
        (joinFloat_eq_some_iff (signOf_cases s) hmin hmax).mp hjoin
      refine ⟨hr, ⟨fun h => hempty (Or.inl h), fun h => hempty (Or.inr h), hdigits⟩,
        i, i.bmod (2 ^ 64), hi, ?_, hfit, hdvd⟩
      rw [Int.bmod_eq_self_sub_mul_bdiv]
      exact ⟨i.bdiv (2 ^ 64), by ring_nf⟩
    · rintro ⟨hr, ⟨-, -, hdigits⟩, i, w, hi, hw, hfit, hdvd⟩
      refine ⟨i, hi, (joinFloat_eq_some_iff (signOf_cases s) hmin hmax).mpr
        ⟨hr, hdigits, ?_⟩⟩
      have hwide : InRange int64Min int64Max w := by
        rw [floatConvMult_eq] at hfit
        unfold InRange int64Min int64Max at hfit ⊢
        omega
      show InRange _ _ (i.bmod (2 ^ 64) * floatConvMult) ∧
        _ ∣ i.bmod (2 ^ 64) * floatConvMult + _ - r
      rw [(bmod_eq_iff hwide.1 hwide.2).mpr hw]
      exact ⟨hfit, hdvd⟩

theorem integerValue_digits (hs : (integerPart s).all Decimal.isDigit = true) :
    integerValue s = some (decValue (integerPart s) : ℤ) := by
  unfold integerValue
  by_cases hnil : integerPart s = []
  · rw [if_pos hnil, hnil]
    rfl
  · rw [if_neg hnil]
    generalize integerPart s = u at hs hnil
    cases u with
    | nil => exact absurd rfl hnil
    | cons c u =>
      have hc : Decimal.isDigit c = true := (Bool.and_eq_true _ _ ▸ List.all_cons ▸ hs).1
      have hplus : c ≠ 0x2B := by
        rintro rfl
        cases hc
      have hminus : c ≠ 0x2D := by
        rintro rfl
        cases hc
      have hunsigned : unsigned (c :: u) = c :: u := if_neg (by simp [hplus, hminus])
      have hsign : signOf (c :: u) = 1 := if_neg (by simp [hminus])
      rw [decNumeral_eq, hunsigned, hsign, if_pos ⟨hnil, hs⟩, one_mul]

theorem isCoprime_residue : IsCoprime (36028797018963968 : ℤ) 390625 := by
  rw [Int.isCoprime_iff_gcd_eq_one]
  rfl

theorem eq_zero_of_twice {n m : ℤ} (hn : 0 ≤ n) (hle : n ≤ 92233720368)
    (h : 2 * (n * 100000000) = 18446744073709551616 * m) : n = 0 := by
  have hdvd : (36028797018963968 : ℤ) ∣ 390625 * n := ⟨m, by omega⟩
  obtain ⟨q, hq⟩ := isCoprime_residue.dvd_of_dvd_mul_left hdvd
  clear hdvd h
  omega

/-- A numeral that 64 bits are enough for is read as itself, unless it is negative and has an
integer part. -/
theorem residue_self_iff {v : ℤ} (hv : decFraction s = some v)
    (hfit : InRange int64Min int64Max v) : Residue s v ↔ -floatConvMult < v := by
  unfold decFraction at hv
  split_ifs at hv with hfraction
  obtain ⟨hne, hall⟩ := hfraction
  rw [List.all_append, Bool.and_eq_true] at hall
  have hvalue := Option.some.inj hv
  have hlt := fractionValue_lt 8 hall.2
  have hdigits : ((fractionPart (unsigned s)).take 8).all Decimal.isDigit = true :=
    List.all_eq_true.mpr fun c hc => List.all_eq_true.mp hall.2 c (List.mem_of_mem_take hc)
  have hreadable : Readable (unsigned s) := by
    refine ⟨fun h => hne ?_, fun h => hne ?_, hdigits⟩
    · rw [h]
      rfl
    · rw [h]
      rfl
  unfold Residue
  rw [integerValue_digits hall.1, fractionValue_take 8 hall.2]
  rw [floatConvMult_eq] at hvalue ⊢
  generalize fractionValue 8 (fractionPart (unsigned s)) = f at hvalue hlt ⊢
  generalize decValue (integerPart (unsigned s)) = n at hvalue ⊢
  unfold InRange int64Min int64Max at hfit ⊢
  have hsign := signOf_cases s
  generalize signOf s = sign at hsign hvalue ⊢
  have hsmall : (n : ℤ) ≤ 92233720368 := by
    rcases hsign with rfl | rfl
    · omega
    · omega
  constructor
  · rintro ⟨-, i, w, hi, ⟨k, hk⟩, hroom, ⟨m, hm⟩⟩
    rw [← Option.some.inj hi] at hk
    -- The integer part fits, so that nothing but itself is read for it.
    have hw : w = n := by
      clear hm hvalue hfit
      omega
    rw [hw] at hm
    clear hk hroom hfit hi hw
    rcases hsign with rfl | rfl
    · have htwice : 2 * ((n : ℤ) * 100000000) = 18446744073709551616 * m := by
        rw [← hvalue] at hm
        push_cast at hm
        linarith
      have hzero := eq_zero_of_twice (Int.natCast_nonneg n) hsmall htwice
      rw [← hvalue, hzero]
      push_cast
      linarith
    · rw [← hvalue, one_mul]
      push_cast
      linarith [Int.natCast_nonneg n, Int.natCast_nonneg f]
  · intro hneg
    refine ⟨hreadable, n, n, rfl, by simp, ?_, ?_⟩
    · rcases hsign with rfl | rfl
      · omega
      · omega
    · rcases hsign with rfl | rfl
      · obtain rfl : n = 0 := by omega
        exact ⟨0, by omega⟩
      · exact ⟨0, by omega⟩

theorem parseDecFloatOption_iff (s : Bytes) (minval maxval : Int64) :
    parseDecFloatOption s minval.toInt maxval.toInt =
        (decFraction s).filter (InRange minval.toInt maxval.toInt) ↔
      FloatFits s minval.toInt maxval.toInt := by
  have hmin : int64Min ≤ minval.toInt := minval.le_toInt
  have hmax : maxval.toInt ≤ int64Max := maxval.toInt_le
  generalize minval.toInt = minval at hmin
  generalize maxval.toInt = maxval at hmax
  have hread := fun r => @parseDecFloatOption_eq_some_iff s minval maxval r hmin hmax
  unfold FloatFits
  by_cases hin : ∃ v, decFraction s = some v ∧ InRange minval maxval v
  · obtain ⟨v, hv, hrange⟩ := hin
    have hself := residue_self_iff hv ⟨hmin.trans hrange.1, hrange.2.trans hmax⟩
    rw [hv, Option.filter_some, if_pos (decide_eq_true hrange), hread v, hself]
    constructor
    · rintro ⟨-, h⟩
      refine ⟨fun u hu _ => Option.some.inj hu ▸ h, fun hnone => ?_⟩
      exact absurd hrange (hnone v rfl)
    · exact fun h => ⟨hrange, h.1 v rfl hrange⟩
  · have hnone : ∀ v, decFraction s = some v → ¬InRange minval maxval v :=
      fun v hv hrange => hin ⟨v, hv, hrange⟩
    have hfilter : (decFraction s).filter (InRange minval maxval) = none := by
      rw [Option.filter_eq_none_iff]
      exact fun v hv => by simpa using hnone v hv
    rw [hfilter, Option.eq_none_iff_forall_ne_some]
    constructor
    · refine fun h => ⟨fun v hv hrange => absurd hrange (hnone v hv), fun _ r hr hres => ?_⟩
      exact h r ((hread r).mpr ⟨hr, hres⟩)
    · intro h r hr
      obtain ⟨hrange, hres⟩ := (hread r).mp hr
      exact h.2 hnone r hrange hres

end

/-! ## All three -/

/-- A text is accepted exactly as the numeral in the range that it is, in each of the forms. -/
theorem numericOptions_iff (s : Bytes) :
    (∀ minval maxval : Int64, parseDecIntOption s minval.toInt maxval.toInt =
        (decNumeral s).filter (InRange minval.toInt maxval.toInt) ↔
      DecFits s minval.toInt maxval.toInt) ∧
    (∀ minval maxval : UInt64, (parseHexIntOptionIn s minval maxval).map BitVec.toNat =
        (hexNumeral s).filter (fun r => minval.toNat ≤ r ∧ r ≤ maxval.toNat) ↔
      HexFits s minval.toNat maxval.toNat) ∧
    ∀ minval maxval : Int64, parseDecFloatOption s minval.toInt maxval.toInt =
        (decFraction s).filter (InRange minval.toInt maxval.toInt) ↔
      FloatFits s minval.toInt maxval.toInt :=
  ⟨parseDecIntOption_iff s, parseHexIntOption_iff s, parseDecFloatOption_iff s⟩

/-- `-1` is read as `1`. -/
theorem minus_is_lost : ¬∀ (s : Bytes) (minval maxval : Int64),
    parseDecFloatOption s minval.toInt maxval.toInt =
      (decFraction s).filter (InRange minval.toInt maxval.toInt) := by
  intro h
  have hread : parseDecFloatOption [0x2D, 0x31] 0 400000000 = some 100000000 := by decide +kernel
  have hvalue : decFraction [0x2D, 0x31] = some (-100000000) := by decide +kernel
  have heq := h [0x2D, 0x31] 0 400000000
  have hzero : (0 : Int64).toInt = 0 := by decide
  have hmax : (400000000 : Int64).toInt = 400000000 := by decide
  rw [hzero, hmax, hread, hvalue] at heq
  have hrange : ¬InRange 0 400000000 (-100000000) := by decide
  rw [Option.filter_some, if_neg (by simpa using hrange)] at heq
  cases heq

end Presence3DS.Arm9
