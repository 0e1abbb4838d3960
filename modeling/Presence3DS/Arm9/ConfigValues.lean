import Presence3DS.Lib.Decimal

/-! The texts of the values of options, as `config.c` reads and prints them. -/

namespace Presence3DS.Arm9
open CString Decimal

def lit (s : String) : Bytes := s.toUTF8.data.toList

def toLower (c : UInt8) : UInt8 := if 0x41 ≤ c ∧ c ≤ 0x5A then c + 0x20 else c

/-- `strcasecmp(a, b) == 0` -/
def strcasecmpEq (a b : Bytes) : Bool := a.map toLower == b.map toLower

def floatConvMult : ℕ := 100000000

def int64Min : ℤ := -2 ^ 63

def int64Max : ℤ := 2 ^ 63 - 1

/-- The names of the 32 keys, the lowest bit first. -/
def keyNames : List String :=
  ["A", "B", "Select", "Start", "Right", "Left", "Up", "Down", "R", "L", "X", "Y",
    "?", "?",
    "ZL", "ZR",
    "?", "?", "?", "?",
    "Touch",
    "?", "?", "?",
    "CStick Right", "CStick Left", "CStick Up", "CStick Down",
    "CPad Right", "CPad Left", "CPad Up", "CPad Down"]

def keyName (i : ℕ) : Bytes := lit (keyNames.getD i "?")

/-! ## Reading -/

def parseBoolOption (val : Bytes) : Option Bool :=
  if val = [0x30] then some false
  else if val = [0x31] then some true
  else none

/-- The loop over the digits, in 64 bits. -/
def readDecInt (res : BitVec 64) : Bytes → Option (BitVec 64)
  | [] => some res
  | c :: s =>
    if isDigit c then readDecInt (10 * res + BitVec.ofNat 64 (c.toNat - 0x30)) s else none

/-- A sign is one only before something else. -/
def parseDecIntOption (val : Bytes) (minval maxval : ℤ) : Option ℤ :=
  let signed := 2 ≤ val.length ∧ (val.head? = some 0x2B ∨ val.head? = some 0x2D)
  let negative := 2 ≤ val.length ∧ val.head? = some 0x2D
  (readDecInt 0 (if signed then val.tail else val)).bind fun res =>
    let res := (if negative then -res else res).toInt
    if res ≤ maxval ∧ minval ≤ res then some res else none

/-- The loop over the digits of the fraction, which ends with what `mul` can weigh. -/
def readFraction : Bytes → ℕ → Option ℕ
  | [], _ => some 0
  | c :: s, mul =>
    if mul = 0 then some 0
    else if isDigit c then (readFraction s (mul / 10)).map ((c.toNat - 0x30) * mul + ·)
    else none

/-- The value with its sign, which the integer part takes too. -/
def joinFloat (sign intPart : ℤ) (fraction : Bytes) (minval maxval : ℤ) : Option ℤ :=
  let res := (if sign = -1 then -intPart else intPart) * floatConvMult
  if res < int64Min ∨ int64Max < res then none
  else
    (readFraction fraction (floatConvMult / 10)).bind fun fraction =>
      let res := (sign * (res + fraction)).bmod (2 ^ 64)
      if res ≤ maxval ∧ minval ≤ res then some res else none

def parseDecFloatOption (val : Bytes) (minval maxval : ℤ) : Option ℤ :=
  let sign : ℤ := if val.head? = some 0x2D then -1 else 1
  let val := if val.head? = some 0x2B ∨ val.head? = some 0x2D then val.tail else val
  let int := val.takeWhile (· ≠ 0x2E)
  let point := val.dropWhile (· ≠ 0x2E)
  if val = [] ∨ val = [0x2E] then none
  else
    (if int = [] then some 0 else parseDecIntOption int int64Min int64Max).bind fun intPart =>
      joinFloat sign intPart point.tail minval maxval

def hexDigit? (c : UInt8) : Option ℕ :=
  if 0x30 ≤ c ∧ c ≤ 0x39 then some (c.toNat - 0x30)
  else if 0x61 ≤ c ∧ c ≤ 0x66 then some (c.toNat - 0x61 + 10)
  else if 0x41 ≤ c ∧ c ≤ 0x46 then some (c.toNat - 0x41 + 10)
  else none

/-- Any 64-bit number is in the range of the options that are read in hexadecimal. -/
def parseHexIntOption (val : Bytes) : Option (BitVec 64) :=
  val.foldlM (fun res c => (hexDigit? c).map fun d => 16 * res + BitVec.ofNat 64 d) 0

/-- The bits of the keys that a name is for. -/
def parseKeyName (name : Bytes) : Option (BitVec 32) :=
  let name := name.take 16
  if name = lit "?" then none
  else
    let found := (List.range 32).filter fun i => strcasecmpEq (keyName i) name
    if found = [] then none else some (found.foldl (fun keys i => keys ||| BitVec.twoPow 32 i) 0#32)

/-- After a trailing plus the last name is empty, which no key has. -/
def parseKeyComboOption (val : Bytes) : Option (BitVec 32) :=
  (val.splitOn 0x2B).foldlM (fun keyCombo name => (parseKeyName name).map (keyCombo ||| ·)) 0#32

/-- The number of the first of some words that the value is. -/
def parseWordOption (words : List (String × ℕ)) (val : Bytes) : Option ℕ :=
  (words.find? fun word => strcasecmpEq val (lit word.1)).map (·.2)

/-! ## Printing -/

/-- `%d` -/
def signedDecimal (n : ℤ) : Bytes := if n < 0 then 0x2D :: decimal n.natAbs else decimal n.natAbs

def hexDigit (d : ℕ) : UInt8 := if d < 10 then digit d else UInt8.ofNat (0x61 + (d - 10))

/-- `%016llx` -/
def hex64 (n : BitVec 64) : Bytes := (lastDigits 16 16 n.toNat).map hexDigit

/-- `%08lx` -/
def hex32 (n : BitVec 32) : Bytes := (lastDigits 16 8 n.toNat).map hexDigit

def menuComboToString (combo : BitVec 32) : Bytes :=
  (((List.range 32).reverse.filter combo.getLsbD).flatMap fun i => keyName i ++ [0x2B]).dropLast

/-- The loop of `encodedFloatToString` before it prints, for at most `count` digits. -/
def stripFraction : ℕ → ℕ → ℕ
  | 0, frac => frac
  | count + 1, frac => if frac % 10 ≠ 0 then stripFraction count (frac / 10) else frac

/-- The eight decimals of a value, after that loop. -/
def encodedFraction (val : ℤ) : ℕ := stripFraction 8 (val.natAbs % floatConvMult)

/-- What `encodedFloatToString` prints, before it cuts the zeros at the end. -/
def encodedFloatDigits (val : ℤ) : Bytes :=
  let sign : ℤ := if 0 ≤ val then 1 else -1
  signedDecimal (sign * (val.natAbs / floatConvMult : ℕ)) ++
    if encodedFraction val = 0 then [] else 0x2E :: (lastDigits 10 8 (encodedFraction val)).map digit

def encodedFloatToString (val : ℤ) : Bytes :=
  if encodedFraction val = 0 then encodedFloatDigits val
  else (encodedFloatDigits val).rdropWhile (· == 0x30)

/-! ## What is printed is read back -/

theorem readDecInt_map {ds : List ℕ} (h : ∀ d ∈ ds, d < 10) (n : ℕ) :
    readDecInt (BitVec.ofNat 64 n) (ds.map digit) =
      some (BitVec.ofNat 64 (ds.foldl (fun a d => 10 * a + d) n)) := by
  induction ds generalizing n with
  | nil => rfl
  | cons d ds ih =>
    obtain ⟨hd, hds⟩ := List.forall_mem_cons.mp h
    have hvalue : (digit d).toNat - 0x30 = d := by
      rw [toNat_digit hd]
      omega
    have hstep : 10 * BitVec.ofNat 64 n + BitVec.ofNat 64 d = BitVec.ofNat 64 (10 * n + d) := by
      rw [BitVec.ofNat_add, BitVec.ofNat_mul]
      rfl
    rw [List.map_cons, readDecInt, if_pos (isDigit_digit hd), hvalue, hstep, ih hds,
      List.foldl_cons]

theorem readDecInt_decimal (n : ℕ) : readDecInt 0 (decimal n) = some (BitVec.ofNat 64 n) := by
  obtain ⟨ds, hmap, hds, hvalue⟩ := decimal_eq_map n
  rw [hmap]
  show readDecInt (BitVec.ofNat 64 0) _ = _
  rw [readDecInt_map hds, hvalue]

theorem decimal_head {n : ℕ} {c : UInt8} (hc : isDigit c = false) : (decimal n).head? ≠ some c := by
  intro heq
  have hdigit := isDigit_of_mem_decimal (List.mem_of_mem_head? heq)
  rw [hc] at hdigit
  cases hdigit

theorem parseDecIntOption_signedDecimal {n minval maxval : ℤ} (hmin : minval ≤ n)
    (hmax : n ≤ maxval) (hlow : -2 ^ 63 < n) (hhigh : n < 2 ^ 63) :
    parseDecIntOption (signedDecimal n) minval maxval = some n := by
  have hvalue : (BitVec.ofNat 64 n.natAbs).toInt = n.natAbs := by
    rw [BitVec.toInt_ofNat', Int.bmod_eq_of_le] <;> omega
  have hneg : (-BitVec.ofNat 64 n.natAbs).toInt = -n.natAbs := by
    rw [BitVec.toInt_neg, hvalue, Int.bmod_eq_of_le] <;> omega
  have hplus := decimal_head (n := n.natAbs) (c := 0x2B) (by decide)
  have hminus := decimal_head (n := n.natAbs) (c := 0x2D) (by decide)
  have hlength := List.length_pos_of_ne_nil (decimal_ne_nil n.natAbs)
  rcases lt_or_ge n 0 with hsign | hsign
  · rw [signedDecimal, if_pos hsign, parseDecIntOption]
    have htwo : 2 ≤ (0x2D :: decimal n.natAbs).length := by
      rw [List.length_cons]
      omega
    simp only [htwo, List.head?_cons, or_true, and_self, if_true, List.tail_cons,
      readDecInt_decimal, Option.bind_some, hneg]
    rw [if_pos (by omega)]
    congr 1
    omega
  · rw [signedDecimal, if_neg (not_lt.mpr hsign), parseDecIntOption]
    simp only [hplus, hminus, or_self, and_false, if_false, readDecInt_decimal, Option.bind_some,
      hvalue]
    rw [if_pos (by omega)]
    congr 1
    omega

theorem parseBoolOption_signedDecimal (b : Bool) :
    parseBoolOption (signedDecimal b.toNat) = some b := by
  cases b <;> decide

theorem hexDigit?_hexDigit : ∀ d < 16, hexDigit? (hexDigit d) = some d := by decide

theorem parseHexIntOption_hex64 (n : BitVec 64) : parseHexIntOption (hex64 n) = some n := by
  have hread : ∀ (ds : List ℕ) (m : ℕ), (∀ d ∈ ds, d < 16) →
      (ds.map hexDigit).foldlM (fun res c => (hexDigit? c).map fun d =>
        16 * res + BitVec.ofNat 64 d) (BitVec.ofNat 64 m) =
      some (BitVec.ofNat 64 (ds.foldl (fun a d => 16 * a + d) m)) := by
    intro ds
    induction ds with
    | nil => exact fun m _ => rfl
    | cons d ds ih =>
      intro m h
      obtain ⟨hd, hds⟩ := List.forall_mem_cons.mp h
      have hstep : 16 * BitVec.ofNat 64 m + BitVec.ofNat 64 d = BitVec.ofNat 64 (16 * m + d) := by
        rw [BitVec.ofNat_add, BitVec.ofNat_mul]
        rfl
      rw [List.map_cons, List.foldlM_cons, hexDigit?_hexDigit d hd, List.foldl_cons, ← ih _ hds,
        ← hstep]
      rfl
  rw [parseHexIntOption, hex64]
  show List.foldlM _ (BitVec.ofNat 64 0) _ = _
  rw [hread _ _ fun d hd => lt_of_mem_lastDigits (by decide) hd, foldl_lastDigits]
  congr 1
  apply BitVec.eq_of_toNat_eq
  rw [BitVec.toNat_ofNat, Nat.zero_mul, Nat.zero_add, Nat.mod_mod_of_dvd _ (by decide)]
  exact Nat.mod_eq_of_lt n.isLt

/-! ### Menu combinations -/

def pressedKeys (combo : BitVec 32) : List ℕ := (List.range 32).reverse.filter combo.getLsbD

/-- A combination of keys that have names. -/
def Named (combo : BitVec 32) : Prop :=
  ∀ i, combo.getLsbD i = true → keyName i ≠ lit "?"

theorem keyNames_plain : ∀ i < 32, (keyName i).contains 0x2B = false := by decide

theorem parseKeyName_keyName : ∀ i < 32, keyName i ≠ lit "?" →
    parseKeyName (keyName i) = some (BitVec.twoPow 32 i) := by decide

theorem dropLast_flatMap (names : List Bytes) (plus : UInt8) :
    (names.flatMap fun name => name ++ [plus]).dropLast = [plus].intercalate names := by
  induction names with
  | nil => rfl
  | cons name names ih =>
    cases names with
    | nil => simp
    | cons other names =>
      rw [List.flatMap_cons, List.dropLast_append_of_ne_nil, ih]
      · simp
      · simp

theorem menuComboToString_eq (combo : BitVec 32) :
    menuComboToString combo = [0x2B].intercalate ((pressedKeys combo).map keyName) := by
  rw [menuComboToString, ← dropLast_flatMap, List.flatMap_map]
  rfl

theorem mem_pressedKeys {combo : BitVec 32} {i : ℕ} :
    i ∈ pressedKeys combo ↔ combo.getLsbD i = true := by
  rw [pressedKeys, List.mem_filter, List.mem_reverse, List.mem_range]
  exact ⟨And.right, fun h => ⟨BitVec.lt_of_getLsbD h, h⟩⟩

theorem getLsbD_foldl_or (l : List ℕ) (keys : BitVec 32) (j : ℕ) :
    (l.foldl (fun keys i => keys ||| BitVec.twoPow 32 i) keys).getLsbD j =
      (keys.getLsbD j || (decide (j < 32) && l.contains j)) := by
  induction l generalizing keys with
  | nil => simp
  | cons i l ih =>
    rw [List.foldl_cons, ih, BitVec.getLsbD_or, BitVec.getLsbD_twoPow, List.contains_cons]
    cases keys.getLsbD j
    · by_cases hi : i = j
      · simp +contextual [hi]
      · have hne : (j == i) = false := beq_eq_false_iff_ne.mpr (Ne.symm hi)
        simp [hi, hne]
    · rfl

theorem parseKeyComboOption_menuComboToString {combo : BitVec 32} (hne : combo ≠ 0#32)
    (h : Named combo) : parseKeyComboOption (menuComboToString combo) = some combo := by
  have hread : ∀ (l : List ℕ) (keys : BitVec 32), (∀ i ∈ l, combo.getLsbD i = true) →
      (l.map keyName).foldlM (fun keyCombo name => (parseKeyName name).map (keyCombo ||| ·)) keys =
        some (l.foldl (fun keys i => keys ||| BitVec.twoPow 32 i) keys) := by
    intro l
    induction l with
    | nil => exact fun keys _ => rfl
    | cons i l ih =>
      intro keys hl
      obtain ⟨hi, hl⟩ := List.forall_mem_cons.mp hl
      rw [List.map_cons, List.foldlM_cons, List.foldl_cons, ← ih _ hl,
        parseKeyName_keyName i (BitVec.lt_of_getLsbD hi) (h i hi)]
      rfl
  have hpressed : (pressedKeys combo).map keyName ≠ [] := by
    intro hnil
    apply hne
    apply BitVec.eq_of_getLsbD_eq
    intro i _
    rw [BitVec.getLsbD_zero, Bool.eq_false_iff]
    intro hi
    have hmem := List.mem_map_of_mem (f := keyName) (mem_pressedKeys.mpr hi)
    rw [hnil] at hmem
    cases hmem
  rw [parseKeyComboOption, menuComboToString_eq, List.splitOn_intercalate _ _ hpressed,
    hread _ _ fun i hi => mem_pressedKeys.mp hi]
  · congr 1
    apply BitVec.eq_of_getLsbD_eq
    intro j hj
    rw [getLsbD_foldl_or, BitVec.getLsbD_zero, Bool.false_or, decide_eq_true hj, Bool.true_and]
    cases hcombo : combo.getLsbD j with
    | true => exact List.contains_iff_mem.mpr (mem_pressedKeys.mpr hcombo)
    | false =>
      rw [Bool.eq_false_iff]
      intro hmem
      rw [mem_pressedKeys.mp (List.contains_iff_mem.mp hmem)] at hcombo
      cases hcombo
  · intro name hname
    obtain ⟨i, hi, rfl⟩ := List.mem_map.mp hname
    have hplain := keyNames_plain i (BitVec.lt_of_getLsbD (mem_pressedKeys.mp hi))
    intro hmem
    rw [List.contains_iff_mem.mpr hmem] at hplain
    cases hplain

theorem parseKeyName_named {name : Bytes} {keys : BitVec 32} (h : parseKeyName name = some keys) :
    Named keys := by
  unfold parseKeyName at h
  simp only at h
  split_ifs at h with hquestion hfound
  cases h
  intro i hi hname
  rw [getLsbD_foldl_or, BitVec.getLsbD_zero, Bool.false_or, Bool.and_eq_true,
    List.contains_iff_mem, List.mem_filter, hname] at hi
  apply hquestion
  have hlower := hi.2.2
  rw [strcasecmpEq, beq_iff_eq] at hlower
  -- Only the question mark itself is one in lower case.
  have hmark : ∀ c : UInt8, toLower c = 0x3F → c = 0x3F := by
    intro c hc
    unfold toLower at hc
    split_ifs at hc with hupper
    · obtain ⟨hlow, hhigh⟩ := hupper
      rw [UInt8.le_iff_toNat_le] at hlow hhigh
      have hsum := congrArg UInt8.toNat hc
      rw [UInt8.toNat_add] at hsum
      simp at hlow hhigh hsum
      omega
    · exact hc
  have hlit : lit "?" = [0x3F] := by decide
  rw [hlit] at hlower ⊢
  have hlength := congrArg List.length hlower
  rw [List.length_map, List.length_map] at hlength
  obtain ⟨c, hc⟩ := List.length_eq_one_iff.mp hlength.symm
  rw [hc] at hlower ⊢
  rw [hmark c (List.head_eq_of_cons_eq hlower).symm]

theorem parseKeyComboOption_named {val : Bytes} {combo : BitVec 32}
    (h : parseKeyComboOption val = some combo) : Named combo := by
  have hread : ∀ (names : List Bytes) (keys : BitVec 32), Named keys →
      names.foldlM (fun keyCombo name => (parseKeyName name).map (keyCombo ||| ·)) keys =
        some combo → Named combo := by
    intro names
    induction names with
    | nil => exact fun keys hkeys h => Option.some.inj h ▸ hkeys
    | cons name names ih =>
      intro keys hkeys h
      rw [List.foldlM_cons] at h
      obtain ⟨keys', hname, h⟩ := Option.bind_eq_some_iff.mp h
      obtain ⟨more, hmore, rfl⟩ := Option.map_eq_some_iff.mp hname
      apply ih _ _ h
      intro i hi
      rw [BitVec.getLsbD_or, Bool.or_eq_true] at hi
      exact hi.elim (hkeys i) (parseKeyName_named hmore i)
  apply hread _ _ _ h
  intro i hi
  rw [BitVec.getLsbD_zero] at hi
  cases hi

/-! ### Gammas and contrasts -/

theorem stripFraction_le (count frac : ℕ) : stripFraction count frac ≤ frac := by
  induction count generalizing frac with
  | zero => exact le_rfl
  | succ count ih =>
    rw [stripFraction]
    split_ifs
    · exact (ih _).trans (Nat.div_le_self _ _)
    · exact le_rfl

theorem stripFraction_eq_iff (count frac : ℕ) :
    stripFraction (count + 1) frac = frac ↔ frac % 10 = 0 := by
  rw [stripFraction]
  split_ifs with h
  · have hle := stripFraction_le count (frac / 10)
    omega
  · exact iff_of_true rfl (not_not.mp h)

theorem floatConvMult_eq : floatConvMult = 100000000 := rfl

theorem encodedFraction_lt (val : ℤ) : encodedFraction val < floatConvMult :=
  (stripFraction_le _ _).trans_lt (Nat.mod_lt _ (by decide))

/-- What a value that is not negative is read back as. -/
def decodedFloat (val : ℤ) : ℤ :=
  (val.natAbs / floatConvMult : ℕ) * floatConvMult + encodedFraction val

theorem decodedFloat_le {val : ℤ} (h : 0 ≤ val) : 0 ≤ decodedFloat val ∧ decodedFloat val ≤ val := by
  have hle : encodedFraction val ≤ val.natAbs % floatConvMult := stripFraction_le _ _
  rw [floatConvMult_eq] at hle
  rw [decodedFloat, floatConvMult_eq]
  omega

theorem decodedFloat_eq_iff {val : ℤ} (h : 0 ≤ val) : decodedFloat val = val ↔ val % 10 = 0 := by
  have hiff : encodedFraction val = val.natAbs % floatConvMult ↔
      val.natAbs % floatConvMult % 10 = 0 := stripFraction_eq_iff 7 _
  rw [floatConvMult_eq] at hiff
  rw [decodedFloat, floatConvMult_eq]
  omega

theorem readFraction_map {ds : List ℕ} (h : ∀ d ∈ ds, d < 10) :
    readFraction (ds.map digit) (10 ^ ds.length / 10) =
      some (ds.foldl (fun a d => 10 * a + d) 0) := by
  induction ds with
  | nil => rfl
  | cons d ds ih =>
    obtain ⟨hd, hds⟩ := List.forall_mem_cons.mp h
    have hvalue : (digit d).toNat - 0x30 = d := by
      rw [toNat_digit hd]
      omega
    have hmul : 10 ^ (d :: ds).length / 10 = 10 ^ ds.length := by
      rw [List.length_cons, Nat.pow_succ]
      exact Nat.mul_div_cancel _ (by decide)
    rw [List.map_cons, readFraction, hmul, if_neg (Nat.ne_of_gt (Nat.pow_pos (by decide))),
      if_pos (isDigit_digit hd), hvalue, ih hds, List.foldl_cons, foldl_digits_add 10 ds (10 * 0 + d)]
    simp

theorem readFraction_zeros (zeros : Bytes) (h : ∀ c ∈ zeros, c = 0x30) (mul : ℕ) :
    readFraction zeros mul = some 0 := by
  induction zeros generalizing mul with
  | nil => rfl
  | cons c zeros ih =>
    obtain ⟨rfl, hzeros⟩ := List.forall_mem_cons.mp h
    rw [readFraction, ih hzeros]
    simp [isDigit]

theorem readFraction_append_zeros (s zeros : Bytes) (h : ∀ c ∈ zeros, c = 0x30) (mul : ℕ) :
    readFraction (s ++ zeros) mul = readFraction s mul := by
  induction s generalizing mul with
  | nil => exact readFraction_zeros zeros h mul
  | cons c s ih => rw [List.cons_append, readFraction, readFraction, ih]

theorem readFraction_rdropWhile (s : Bytes) (mul : ℕ) :
    readFraction (s.rdropWhile (· == 0x30)) mul = readFraction s mul := by
  have hsplit : s.rdropWhile (· == 0x30) ++ s.rtakeWhile (· == 0x30) = s :=
    List.rdropWhile_append_rtakeWhile
  conv_rhs => rw [← hsplit]
  rw [readFraction_append_zeros]
  intro c hc
  have hzero := List.mem_rtakeWhile_imp hc
  exact beq_iff_eq.mp hzero

theorem takeWhile_of_digits {s : Bytes} (h : ∀ c ∈ s, isDigit c = true) (rest : Bytes) :
    (s ++ 0x2E :: rest).takeWhile (· ≠ 0x2E) = s ∧
      (s ++ 0x2E :: rest).dropWhile (· ≠ 0x2E) = 0x2E :: rest ∧
      s.takeWhile (· ≠ 0x2E) = s ∧ s.dropWhile (· ≠ 0x2E) = [] := by
  induction s with
  | nil => simp
  | cons c s ih =>
    obtain ⟨hc, hs⟩ := List.forall_mem_cons.mp h
    have hne : c ≠ 0x2E := by
      rintro rfl
      cases hc
    simpa [hne] using ih hs

theorem encodedFloatToString_eq {val : ℤ} (h : 0 ≤ val) :
    encodedFloatToString val = decimal (val.natAbs / floatConvMult) ++
      if encodedFraction val = 0 then []
      else 0x2E :: ((lastDigits 10 8 (encodedFraction val)).map digit).rdropWhile (· == 0x30) := by
  have hint : signedDecimal (1 * (val.natAbs / floatConvMult : ℕ)) =
      decimal (val.natAbs / floatConvMult) := by
    rw [one_mul, signedDecimal, if_neg (not_lt.mpr (Int.natCast_nonneg _)), Int.natAbs_natCast]
  unfold encodedFloatToString encodedFloatDigits
  simp only [if_pos h, hint]
  split_ifs with hzero
  · rfl
  · exact rdropWhile_append_cons (by decide) _ _

theorem encodedFloatToString_parts {val : ℤ} (h : 0 ≤ val) : ∃ point,
    encodedFloatToString val = decimal (val.natAbs / floatConvMult) ++ point ∧
      (encodedFloatToString val).takeWhile (· ≠ 0x2E) = decimal (val.natAbs / floatConvMult) ∧
      (encodedFloatToString val).dropWhile (· ≠ 0x2E) = point ∧
      readFraction point.tail (floatConvMult / 10) = some (encodedFraction val) := by
  have hdigits : ∀ c ∈ decimal (val.natAbs / floatConvMult), isDigit c = true :=
    fun c hc => isDigit_of_mem_decimal hc
  have htext := encodedFloatToString_eq h
  split_ifs at htext with hzero
  · rw [List.append_nil] at htext
    refine ⟨[], by rw [htext, List.append_nil], ?_, ?_, by rw [hzero, List.tail_nil, readFraction]⟩
    · rw [htext]
      exact (takeWhile_of_digits hdigits []).2.2.1
    · rw [htext]
      exact (takeWhile_of_digits hdigits []).2.2.2
  · refine ⟨_, htext, ?_, ?_, ?_⟩
    · rw [htext]
      exact (takeWhile_of_digits hdigits _).1
    · rw [htext]
      exact (takeWhile_of_digits hdigits _).2.1
    · have hread := readFraction_map fun d (hd : d ∈ lastDigits 10 8 (encodedFraction val)) =>
        lt_of_mem_lastDigits (by decide) hd
      have hpow : 10 ^ 8 = floatConvMult := by norm_num [floatConvMult]
      rw [length_lastDigits, foldl_lastDigits, hpow, Nat.zero_mul, Nat.zero_add,
        Nat.mod_eq_of_lt (encodedFraction_lt val)] at hread
      rw [List.tail_cons, readFraction_rdropWhile, hread]

theorem parseDecIntOption_decimal {n : ℕ} (h : n < 2 ^ 63) :
    parseDecIntOption (decimal n) int64Min int64Max = some (n : ℤ) := by
  have hread : parseDecIntOption (signedDecimal n) int64Min int64Max = some (n : ℤ) :=
    parseDecIntOption_signedDecimal (by unfold int64Min; omega) (by unfold int64Max; omega)
      (by omega) (by omega)
  rw [signedDecimal, if_neg (not_lt.mpr (Int.natCast_nonneg n)), Int.natAbs_natCast] at hread
  exact hread

theorem joinFloat_one {point : Bytes} {int fraction : ℕ} {maxval : ℤ}
    (hfraction : readFraction point (floatConvMult / 10) = some fraction)
    (hmax : (int : ℤ) * floatConvMult + fraction ≤ maxval) (hroom : maxval < 2 ^ 63) :
    joinFloat 1 int point 0 maxval = some ((int : ℤ) * floatConvMult + fraction) := by
  have hle : 0 ≤ (int : ℤ) * floatConvMult := by positivity
  have hone : ¬(1 : ℤ) = -1 := by decide
  have hbmod : ((int : ℤ) * floatConvMult + fraction).bmod (2 ^ 64) =
      int * floatConvMult + fraction := Int.bmod_eq_of_le (by omega) (by omega)
  rw [joinFloat, if_neg hone, if_neg, hfraction, Option.bind_some, one_mul, hbmod,
    if_pos ⟨hmax, by omega⟩]
  unfold int64Min int64Max
  omega

theorem parseDecFloatOption_encodedFloatToString {val maxval : ℤ} (h : 0 ≤ val)
    (hmax : val ≤ maxval) (hroom : maxval < 2 ^ 63) :
    parseDecFloatOption (encodedFloatToString val) 0 maxval = some (decodedFloat val) := by
  obtain ⟨point, htext, hint, hpoint, hfraction⟩ := encodedFloatToString_parts h
  obtain ⟨c, rest, hcons⟩ := List.exists_cons_of_ne_nil
    (decimal_ne_nil (val.natAbs / floatConvMult))
  have hhead : isDigit c = true :=
    isDigit_of_mem_decimal (n := val.natAbs / floatConvMult) (hcons ▸ List.mem_cons_self)
  have hcons' : encodedFloatToString val = c :: (rest ++ point) := by
    rw [htext, hcons, List.cons_append]
  have hsign : ∀ sign, isDigit sign = false →
      (encodedFloatToString val).head? ≠ some sign := by
    intro sign hsign heq
    rw [hcons', List.head?_cons] at heq
    rw [Option.some.inj heq, hsign] at hhead
    cases hhead
  have hne : ¬(encodedFloatToString val = [] ∨ encodedFloatToString val = [0x2E]) := by
    rw [hcons']
    rintro (heq | heq)
    · cases heq
    · rw [List.head_eq_of_cons_eq heq] at hhead
      cases hhead
  have hplus := hsign 0x2B (by decide)
  have hminus := hsign 0x2D (by decide)
  have hle := (decodedFloat_le h).2
  have hsmall : val.natAbs / floatConvMult < 2 ^ 63 := by
    rw [floatConvMult_eq]
    omega
  unfold parseDecFloatOption
  simp only [hplus, hminus, or_self, if_false, if_neg hne, hint, hpoint,
    if_neg (decimal_ne_nil _)]
  rw [parseDecIntOption_decimal hsmall, Option.bind_some]
  exact joinFloat_one hfraction (hle.trans hmax) hroom

end Presence3DS.Arm9
