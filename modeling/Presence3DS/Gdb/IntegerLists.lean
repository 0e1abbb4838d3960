import Presence3DS.Gdb.Packets
import Presence3DS.Lib.Numerals

/-! The integers of a packet: `xstrtoul` and `xstrtoull` (`memory.c`), and the lists of them that
the handlers parse (`net.c`). -/

namespace Presence3DS.Gdb.Packets
open CString Numerals

def isSpace (c : UInt8) : Bool := 9 ≤ c && c ≤ 13 || c = 0x20

/-- A digit or a letter that is a digit in the base -/
def strtoDigit (base : ℕ) (c : UInt8) : Option ℕ :=
  let d :=
    if 0x30 ≤ c ∧ c ≤ 0x39 then some (c.toNat - 0x30)
    else if 0x41 ≤ c ∧ c ≤ 0x5A then some (c.toNat - 0x41 + 10)
    else if 0x61 ≤ c ∧ c ≤ 0x7A then some (c.toNat - 0x61 + 10)
    else none
  d.filter (· < base)

/-- The loop over the digits, with `acc` and `any`; what it has not read is left. -/
def strtoLoop (max base : ℕ) (acc : ℕ) (any : ℤ) : Bytes → ℕ × ℤ × Bytes
  | [] => (acc, any, [])
  | c :: s =>
    match strtoDigit base c with
    | none => (acc, any, c :: s)
    | some d =>
      if any < 0 ∨ max / base < acc ∨ acc = max / base ∧ max % base < d then
        strtoLoop max base acc (-1) s
      else strtoLoop max base (base * acc + d) 1 s

/-- `xstrtoul` for 32 bits and `xstrtoull` for 64: the number and what stands at `*endptr`, or
nothing where it is not `ok`. -/
def xstrtou (bits base : ℕ) (allowPrefix : Bool) (nptr : Bytes) : Option (ℕ × Bytes) :=
  let s := nptr.dropWhile isSpace
  let neg := s.headD 0 = 0x2D
  let signed := neg ∨ s.headD 0 = 0x2B
  let s := if signed then s.tail else s
  let hexPrefix := (base = 0 ∨ base = 16) ∧ s.headD 0 = 0x30 ∧
    (s.tail.headD 0 = 0x78 ∨ s.tail.headD 0 = 0x58)
  if allowPrefix = false ∧ (signed ∨ hexPrefix ∨ base = 0) then none
  else
    let base :=
      if hexPrefix then 16 else if base = 0 then (if s.headD 0 = 0x30 then 8 else 10) else base
    let (acc, any, rest) :=
      strtoLoop (2 ^ bits - 1) base 0 0 (if hexPrefix then s.drop 2 else s)
    if any < 0 then none
    else some (if neg then (2 ^ bits - acc) % 2 ^ bits else acc, if any = 0 then nptr else rest)

/-- `GDB_ParseIntegerList` for 32 bits and `GDB_ParseIntegerList64`: the integers, and what stands
behind them. -/
def gdbParseIntegerList (bits : ℕ) (sep lastSep : UInt8) (base : ℕ) (allowPrefix : Bool) :
    ℕ → Bytes → Option (List ℕ × Bytes)
  | 0, pos => some ([], pos)
  | nb + 1, pos =>
    match xstrtou bits base allowPrefix pos with
    | none => none
    | some (n, endpos) =>
      if endpos.length = pos.length then none
      else if nb ≠ 0 then
        if endpos.headD 0 ≠ sep then none
        else
          (gdbParseIntegerList bits sep lastSep base allowPrefix nb endpos.tail).map fun r =>
            (n :: r.1, r.2)
      else if endpos.headD 0 ≠ lastSep ∧ endpos.headD 0 ≠ 0 then none
      else some ([n], endpos)

/-- `GDB_ParseHexIntegerList` and `GDB_ParseHexIntegerList64` -/
def gdbParseHexIntegerList (bits nb : ℕ) (lastSep : UInt8) (src : Bytes) :
    Option (List ℕ × Bytes) :=
  gdbParseIntegerList bits 0x2C lastSep 16 false nb src

/-! ## Hexadecimal integers -/

/-- The digits that a text begins with. -/
def hexDigits (s : Bytes) : Bytes := s.takeWhile (isDigit (strtoDigit 16))

def hexValue (s : Bytes) : ℕ := value (strtoDigit 16) 16 s

/-- A sign or a prefix, which `allowPrefix` is asked for -/
def HasPrefix (s : Bytes) : Prop :=
  s.headD 0 = 0x2D ∨ s.headD 0 = 0x2B ∨
    s.headD 0 = 0x30 ∧ (s.tail.headD 0 = 0x78 ∨ s.tail.headD 0 = 0x58)

instance (s : Bytes) : Decidable (HasPrefix s) := inferInstanceAs (Decidable (_ ∨ _))

variable {max base acc : ℕ}

theorem strtoDigit_lt {c : UInt8} {d : ℕ} (h : strtoDigit base c = some d) : d < base :=
  of_decide_eq_true (Option.filter_eq_some_iff.mp h).2

theorem exceeds_iff {d : ℕ} (hd : d < base) :
    max / base < acc ∨ acc = max / base ∧ max % base < d ↔ max < base * acc + d := by
  have hmax := Nat.div_add_mod max base
  have hrem := Nat.mod_lt max (Nat.zero_lt_of_lt hd)
  rcases Nat.lt_trichotomy acc (max / base) with hlt | rfl | hgt
  · have hmul := Nat.mul_le_mul_left base (Nat.succ_le_of_lt hlt)
    rw [Nat.mul_succ] at hmul
    omega
  · omega
  · have hmul := Nat.mul_le_mul_left base (Nat.succ_le_of_lt hgt)
    rw [Nat.mul_succ] at hmul
    omega

theorem strtoLoop_over (max base acc : ℕ) (s : Bytes) :
    (strtoLoop max base acc (-1) s).2.1 < 0 := by
  induction s generalizing acc with
  | nil => exact Int.negSucc_lt_zero 0
  | cons c s ih =>
    rw [strtoLoop]
    cases strtoDigit base c with
    | none => exact Int.negSucc_lt_zero 0
    | some d =>
      dsimp only
      rw [if_pos (Or.inl (by decide))]
      exact ih acc

/-- The digits are read up to the first byte that is none, and the number is there if it is no
greater than the limit. -/
theorem strtoLoop_eq {any : ℤ} (s : Bytes) (hbase : 0 < base) (hacc : acc ≤ max)
    (hany : 0 ≤ any) :
    let ds := s.takeWhile (isDigit (strtoDigit base))
    let rest := s.dropWhile (isDigit (strtoDigit base))
    if valueFrom (strtoDigit base) base acc ds ≤ max then
      strtoLoop max base acc any s =
        (valueFrom (strtoDigit base) base acc ds, if ds = [] then any else 1, rest)
    else (strtoLoop max base acc any s).2.1 < 0 := by
  induction s generalizing acc any with
  | nil =>
    dsimp only
    rw [List.takeWhile_nil, if_pos (show valueFrom _ _ _ [] ≤ max from hacc)]
    rfl
  | cons c s ih =>
    dsimp only
    cases hc : strtoDigit base c with
    | none =>
      have hdigit : ¬isDigit (strtoDigit base) c = true := by simp [isDigit, hc]
      rw [List.takeWhile_cons_of_neg hdigit, List.dropWhile_cons_of_neg hdigit, strtoLoop, hc,
        if_pos (show valueFrom _ _ _ [] ≤ max from hacc)]
      rfl
    | some d =>
      have hdigit : isDigit (strtoDigit base) c = true := by simp [isDigit, hc]
      have hlimit : (any < 0 ∨ max / base < acc ∨ acc = max / base ∧ max % base < d) ↔
          max < base * acc + d :=
        (or_iff_right (not_lt.mpr hany)).trans (exceeds_iff (strtoDigit_lt hc))
      rw [List.takeWhile_cons_of_pos hdigit, List.dropWhile_cons_of_pos hdigit, strtoLoop, hc]
      dsimp only
      rw [valueFrom_cons hc]
      by_cases hover : max < base * acc + d
      · have hgrows : base * acc + d ≤ valueFrom (strtoDigit base) base (base * acc + d)
            (s.takeWhile (isDigit (strtoDigit base))) := le_valueFrom hbase _ _
        rw [if_pos (hlimit.mpr hover), if_neg (by omega)]
        exact strtoLoop_over max base acc s
      · rw [if_neg (hlimit.not.mpr hover), if_neg (List.cons_ne_nil _ _)]
        have hnext := ih (Nat.not_lt.mp hover) (show (0 : ℤ) ≤ 1 by decide)
        dsimp only at hnext
        rwa [ite_self] at hnext

theorem xstrtou_hex (bits : ℕ) (s : Bytes) : xstrtou bits 16 false s =
    let t := s.dropWhile isSpace
    if HasPrefix t then none
    else if hexValue (hexDigits t) < 2 ^ bits then
      some (if hexDigits t = [] then (0, s)
        else (hexValue (hexDigits t), t.dropWhile (isDigit (strtoDigit 16))))
    else none := by
  unfold xstrtou
  dsimp only
  generalize s.dropWhile isSpace = t
  by_cases hpre : HasPrefix t
  · rw [if_pos hpre, if_pos]
    refine ⟨rfl, ?_⟩
    by_cases hsigned : t.headD 0 = 0x2D ∨ t.headD 0 = 0x2B
    · exact .inl hsigned
    · rw [if_neg hsigned]
      exact .inr (.inl ⟨.inr rfl, (hpre.elim (fun h => absurd (.inl h) hsigned) fun h =>
        h.resolve_left fun h => hsigned (.inr h))⟩)
  · have hsigned : ¬(t.headD 0 = 0x2D ∨ t.headD 0 = 0x2B) :=
      fun h => hpre (h.elim .inl fun h => .inr (.inl h))
    have hhex : ¬(((16 : ℕ) = 0 ∨ (16 : ℕ) = 16) ∧ t.headD 0 = 0x30 ∧
        (t.tail.headD 0 = 0x78 ∨ t.tail.headD 0 = 0x58)) := fun h => hpre (.inr (.inr h.2))
    have hloop := strtoLoop_eq t (show 0 < 16 by decide) (Nat.zero_le (2 ^ bits - 1))
      (le_refl (0 : ℤ))
    have hpos : 0 < 2 ^ bits := Nat.two_pow_pos bits
    dsimp only at hloop
    have hasked : ¬(false = false ∧ ((t.headD 0 = 0x2D ∨ t.headD 0 = 0x2B) ∨
        (((16 : ℕ) = 0 ∨ (16 : ℕ) = 16) ∧ t.headD 0 = 0x30 ∧
          (t.tail.headD 0 = 0x78 ∨ t.tail.headD 0 = 0x58)) ∨ (16 : ℕ) = 0)) := by
      rintro ⟨-, h | h | h⟩
      · exact hsigned h
      · exact hhex h
      · exact absurd h (by decide)
    rw [if_neg hpre, if_neg hsigned, if_neg hhex, if_neg hasked, if_neg hhex,
      if_neg (show ¬(16 : ℕ) = 0 by decide), if_neg fun h => hsigned (.inl h)]
    unfold hexValue value hexDigits
    split_ifs at hloop with hmax hds
    · rw [hloop, if_pos (show _ < 2 ^ bits by omega), if_pos hds, hds]
      rfl
    · rw [hloop, if_pos (show _ < 2 ^ bits by omega), if_neg hds]
      rfl
    · rw [if_neg (show ¬_ < 2 ^ bits by omega)]
      exact if_pos hloop

theorem ne_zero_of_isDigit {c : UInt8} (h : isDigit (strtoDigit base) c = true) : c ≠ 0 := by
  rintro rfl
  have hnone : strtoDigit base 0 = none := rfl
  rw [isDigit, hnone] at h
  exact Bool.noConfusion h

theorem ne_zero_of_isSpace {c : UInt8} (h : isSpace c = true) : c ≠ 0 := by
  rintro rfl
  exact absurd h (by decide)

theorem isSpace_of_isDigit {c : UInt8} (h : isDigit (strtoDigit base) c = true) :
    ¬isSpace c = true := by
  intro hspace
  have hle : c.toNat ≤ 0x20 := by
    unfold isSpace at hspace
    simp only [Bool.or_eq_true, Bool.and_eq_true, decide_eq_true_eq,
      UInt8.le_iff_toNat_le] at hspace
    rcases hspace with ⟨-, h⟩ | rfl
    · exact h.trans (by decide)
    · exact le_rfl
  have hnot {n : UInt8} (hn : 0x20 < n.toNat) (m : UInt8) : ¬(n ≤ c ∧ c ≤ m) := fun hc =>
    absurd (UInt8.le_iff_toNat_le.mp hc.1) (by omega)
  have hnone : strtoDigit base c = none := by
    unfold strtoDigit
    dsimp only
    rw [if_neg (hnot (by decide) _), if_neg (hnot (by decide) _), if_neg (hnot (by decide) _)]
    rfl
  rw [isDigit, hnone] at h
  exact Bool.noConfusion h

theorem xstrtou_hex_reads {bits n : ℕ} {s rest : Bytes}
    (h : xstrtou bits 16 false s = some (n, rest)) :
    n < 2 ^ bits ∧ ∃ u, s = u ++ rest ∧ ∀ c ∈ u, c ≠ 0 := by
  have hspaces := List.takeWhile_append_dropWhile (l := s) (p := isSpace)
  rw [xstrtou_hex] at h
  dsimp only at h
  generalize s.dropWhile isSpace = t at h hspaces
  split_ifs at h with hpre hmax hds
  · obtain ⟨rfl, rfl⟩ := Prod.mk.inj (Option.some.inj h)
    exact ⟨Nat.two_pow_pos bits, [], rfl, fun c hc => absurd hc List.not_mem_nil⟩
  · obtain ⟨rfl, rfl⟩ := Prod.mk.inj (Option.some.inj h)
    refine ⟨hmax, s.takeWhile isSpace ++ hexDigits t, ?_, fun c hc => ?_⟩
    · rw [List.append_assoc, hexDigits, List.takeWhile_append_dropWhile, hspaces]
    · rcases List.mem_append.mp hc with hspace | hdigit
      · exact ne_zero_of_isSpace (List.mem_takeWhile_imp hspace)
      · exact ne_zero_of_isDigit (List.mem_takeWhile_imp hdigit)

theorem gdbParseHexIntegerList_reads {bits nb : ℕ} {lastSep : UInt8} {s rest : Bytes}
    {ns : List ℕ} (h : gdbParseHexIntegerList bits nb lastSep s = some (ns, rest)) :
    (∀ n ∈ ns, n < 2 ^ bits) ∧ ∃ u, s = u ++ rest ∧ ∀ c ∈ u, c ≠ 0 := by
  unfold gdbParseHexIntegerList at h
  induction nb generalizing s ns with
  | zero =>
    obtain ⟨rfl, rfl⟩ := Prod.mk.inj (Option.some.inj h)
    exact ⟨fun n hn => absurd hn List.not_mem_nil, [], rfl, fun c hc => absurd hc List.not_mem_nil⟩
  | succ nb ih =>
    rw [gdbParseIntegerList] at h
    cases hfirst : xstrtou bits 16 false s with
    | none => simp [hfirst] at h
    | some r =>
      obtain ⟨n, endpos⟩ := r
      obtain ⟨hn, u, rfl, hu⟩ := xstrtou_hex_reads hfirst
      rw [hfirst] at h
      dsimp only at h
      split_ifs at h with hempty hlast hsep hsep
      · obtain ⟨⟨ns', rest'⟩, hrest, hr⟩ := Option.map_eq_some_iff.mp h
        obtain ⟨rfl, rfl⟩ := Prod.mk.inj hr
        obtain ⟨hns, v, hv, hv'⟩ := ih hrest
        refine ⟨List.forall_mem_cons.mpr ⟨hn, hns⟩, u ++ 0x2C :: v, ?_, ?_⟩
        · cases endpos with
          | nil => exact absurd (not_not.mp hsep) (by decide)
          | cons c s =>
            obtain rfl : c = 0x2C := not_not.mp hsep
            rw [List.append_assoc, List.cons_append, ← hv]
            rfl
        · intro c hc
          rcases List.mem_append.mp hc with hc | hc
          · exact hu c hc
          · rcases List.mem_cons.mp hc with rfl | hc
            · decide
            · exact hv' c hc
      · obtain ⟨rfl, rfl⟩ := Prod.mk.inj (Option.some.inj h)
        exact ⟨List.forall_mem_singleton.mpr hn, u, rfl, hu⟩

theorem gdbParseHexIntegerList_one (bits : ℕ) (lastSep : UInt8) (src : Bytes) :
    gdbParseHexIntegerList bits 1 lastSep src =
      let t := src.dropWhile isSpace
      let rest := t.dropWhile (isDigit (strtoDigit 16))
      if hexDigits t ≠ [] ∧ ¬HasPrefix t ∧ hexValue (hexDigits t) < 2 ^ bits ∧
          (rest.headD 0 = lastSep ∨ rest.headD 0 = 0) then
        some ([hexValue (hexDigits t)], rest)
      else none := by
  have hlength := (List.dropWhile_suffix isSpace (l := src)).length_le
  unfold gdbParseHexIntegerList gdbParseIntegerList
  rw [xstrtou_hex]
  dsimp only
  generalize src.dropWhile isSpace = t at hlength ⊢
  by_cases hpre : HasPrefix t
  · rw [if_pos hpre, if_neg fun h => h.2.1 hpre]
  rw [if_neg hpre]
  by_cases hmax : hexValue (hexDigits t) < 2 ^ bits
  · rw [if_pos hmax]
    by_cases hds : hexDigits t = []
    · rw [if_pos hds, if_neg fun h => h.1 hds]
      exact if_pos rfl
    · have hsplit := congrArg List.length (List.takeWhile_append_dropWhile (l := t)
        (p := isDigit (strtoDigit 16)))
      have hpos := List.length_pos_iff.mpr hds
      rw [List.length_append] at hsplit
      have hless : (t.dropWhile (isDigit (strtoDigit 16))).length ≠ src.length := by
        unfold hexDigits at hpos
        omega
      rw [if_neg hds]
      dsimp only
      rw [if_neg hless, if_neg (not_not_intro rfl)]
      by_cases hsep : (t.dropWhile (isDigit (strtoDigit 16))).headD 0 = lastSep ∨
          (t.dropWhile (isDigit (strtoDigit 16))).headD 0 = 0
      · rw [if_neg fun h => hsep.elim h.1 h.2, if_pos ⟨hds, hpre, hmax, hsep⟩]
      · rw [if_pos (not_or.mp hsep), if_neg fun h => hsep h.2.2.2]
  · rw [if_neg hmax, if_neg fun h => hmax h.2.2.1]

theorem gdbParseHexIntegerList_digits (bits : ℕ) {ds rest : Bytes} (hds : ds ≠ [])
    (hdigits : ∀ c ∈ ds, isDigit (strtoDigit 16) c = true)
    (hrest : rest.headD 0 = 0x2C ∨ rest.headD 0 = 0) :
    gdbParseHexIntegerList bits 1 0x2C (ds ++ rest) =
      if hexValue ds < 2 ^ bits then some ([hexValue ds], rest) else none := by
  obtain ⟨c, ds', rfl⟩ := List.exists_cons_of_ne_nil hds
  have hc := hdigits c List.mem_cons_self
  have hspaces : (c :: ds' ++ rest).dropWhile isSpace = c :: ds' ++ rest :=
    List.dropWhile_cons_of_neg (isSpace_of_isDigit hc)
  have hend : ∀ d s, rest = d :: s → isDigit (strtoDigit 16) d = false := by
    rintro d s rfl
    rcases hrest with h | h
    · rw [show d = 0x2C from h]
      rfl
    · rw [show d = 0 from h]
      rfl
  have hnone : rest.takeWhile (isDigit (strtoDigit 16)) = [] ∧
      rest.dropWhile (isDigit (strtoDigit 16)) = rest := by
    cases rest with
    | nil => exact ⟨rfl, rfl⟩
    | cons d s =>
      have hd := Bool.eq_false_iff.mp (hend d s rfl)
      exact ⟨List.takeWhile_cons_of_neg hd, List.dropWhile_cons_of_neg hd⟩
  have htake : hexDigits (c :: ds' ++ rest) = c :: ds' := by
    rw [hexDigits, List.takeWhile_append_of_pos hdigits, hnone.1, List.append_nil]
  have hdrop : (c :: ds' ++ rest).dropWhile (isDigit (strtoDigit 16)) = rest := by
    rw [List.dropWhile_append_of_pos hdigits, hnone.2]
  have hpre : ¬HasPrefix (c :: ds' ++ rest) := by
    rintro (h | h | ⟨-, h⟩)
    · rw [show c = 0x2D from h] at hc
      exact absurd hc (by decide)
    · rw [show c = 0x2B from h] at hc
      exact absurd hc (by decide)
    · have hsecond : ∀ d : UInt8, (d = 0x78 ∨ d = 0x58) →
          d ≠ 0x2C ∧ d ≠ 0 ∧ isDigit (strtoDigit 16) d = false := by
        rintro d (rfl | rfl)
        · exact ⟨by decide, by decide, rfl⟩
        · exact ⟨by decide, by decide, rfl⟩
      obtain ⟨hcomma, hzero, hdigit⟩ := hsecond _ h
      cases ds' with
      | nil => exact hrest.elim hcomma hzero
      | cons d ds' =>
        have hd := hdigits d (List.mem_cons_of_mem _ List.mem_cons_self)
        exact absurd hd (Bool.eq_false_iff.mp hdigit)
  rw [gdbParseHexIntegerList_one]
  dsimp only
  rw [hspaces, htake, hdrop]
  by_cases hlt : hexValue (c :: ds') < 2 ^ bits
  · rw [if_pos ⟨hds, hpre, hlt, hrest⟩, if_pos hlt]
  · rw [if_neg fun h => hlt h.2.2.1, if_neg hlt]

end Presence3DS.Gdb.Packets
