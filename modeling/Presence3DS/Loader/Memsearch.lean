import Presence3DS.Lib.Horspool
import Presence3DS.Lib.Loops
import Presence3DS.Lib.RawMemory

/-! The search of a region for a pattern (`memsearch` of `memory.c`). -/

namespace Presence3DS.Loader
open Horspool Loops RawMemory

/-! ## The search -/

/-- Both loops that prepare `table`. -/
def skipTable (pattern : List UInt8) : UInt8 → UInt32 :=
  let patternSize := UInt32.ofNat pattern.length
  (List.range (patternSize - 1).toNat).foldl
    (fun table i =>
      Function.update table (pattern.getD i 0) (patternSize - UInt32.ofNat i - 1))
    fun _ => patternSize

/-- One pass of the loop of `memsearch` at `j`, and the places of the region that it reads: the
character under the last one of the pattern, and, where that is right, those before it. -/
def searchPassReads (m : Memory) (startPos : ℕ) (pattern : List UInt8) (size j : UInt32) :
    Pass UInt32 (Option ℕ) × List ℕ :=
  let patternSize := UInt32.ofNat pattern.length
  if j ≤ size - patternSize then
    let last := (j + patternSize - 1).toNat
    let c := m (startPos + last)
    if pattern.getD (patternSize - 1).toNat 0 = c then
      let front := (patternSize - 1).toNat
      (if read m (startPos + j.toNat) front = pattern.take front then
        .done (some (startPos + j.toNat)) else .next (j + skipTable pattern c),
        last :: (List.range front).map (j.toNat + ·))
    else (.next (j + skipTable pattern c), [last])
  else (.done none, [])

def searchPass (m : Memory) (startPos : ℕ) (pattern : List UInt8) (size j : UInt32) :
    Pass UInt32 (Option ℕ) :=
  (searchPassReads m startPos pattern size j).1

/-- `memsearch` returns this: the address of a place of the region, or `NULL`. -/
def Memsearch (m : Memory) (startPos : ℕ) (pattern : List UInt8) (size : UInt32)
    (r : Option ℕ) : Prop :=
  Returns (searchPass m startPos pattern size) 0 r

/-! ## The shifts -/

variable {m : Memory} {startPos : ℕ} {pattern : List UInt8} {size j : UInt32}

theorem toNat_patternSize_sub (hpattern : pattern ≠ []) (hlt : pattern.length < 2 ^ 32) :
    (UInt32.ofNat pattern.length - 1).toNat = pattern.length - 1 := by
  have hpos : 0 < pattern.length := List.length_pos_iff.mpr hpattern
  have hsize : (UInt32.ofNat pattern.length).toNat = pattern.length :=
    UInt32.toNat_ofNat_of_lt' hlt
  rw [UInt32.toNat_sub_of_le, hsize]
  · rfl
  · rw [UInt32.le_iff_toNat_le, hsize]
    exact hpos

theorem getD_eq_get {n : ℕ} (hn : n < pattern.length) : pattern.getD n 0 = pattern.get ⟨n, hn⟩ := by
  rw [List.getD_eq_getElem?_getD, List.getElem?_eq_getElem hn]
  rfl

theorem shiftsUpTo_foldl (hpattern : pattern ≠ []) (hlt : pattern.length < 2 ^ 32) {n : ℕ}
    (hn : n ≤ pattern.length - 1) :
    ShiftsUpTo pattern n fun c =>
      ((List.range n).foldl
        (fun table i => Function.update table (pattern.getD i 0)
          (UInt32.ofNat pattern.length - UInt32.ofNat i - 1))
        (fun _ => UInt32.ofNat pattern.length) c).toNat := by
  have hsize : (UInt32.ofNat pattern.length).toNat = pattern.length :=
    UInt32.toNat_ofNat_of_lt' hlt
  induction n with
  | zero =>
    show ShiftsUpTo pattern 0 fun _ => (UInt32.ofNat pattern.length).toNat
    rw [hsize]
    exact shiftsUpTo_zero hpattern
  | succ n ih =>
    have hn' : n + 1 < pattern.length := by omega
    have hchar : pattern.getD n 0 = pattern.get ⟨n, by omega⟩ := getD_eq_get _
    have hplace : (UInt32.ofNat n).toNat = n := UInt32.toNat_ofNat_of_lt' (show n < 2 ^ 32 by omega)
    have hvalue : (UInt32.ofNat pattern.length - UInt32.ofNat n - 1).toNat =
        pattern.length - n - 1 := by
      have hfirst : (UInt32.ofNat pattern.length - UInt32.ofNat n).toNat = pattern.length - n := by
        rw [UInt32.toNat_sub_of_le _ _ (UInt32.le_iff_toNat_le.mpr (by omega)), hsize, hplace]
      rw [UInt32.toNat_sub_of_le, hfirst]
      · rfl
      · rw [UInt32.le_iff_toNat_le, hfirst]
        show 1 ≤ pattern.length - n
        omega
    convert (ih (by omega)).update hn' using 1
    funext c
    rw [List.range_succ, List.foldl_append, List.foldl_cons, List.foldl_nil, Function.update_apply,
      Function.update_apply, hchar]
    split_ifs
    · exact hvalue
    · rfl

theorem shifts_skipTable (hpattern : pattern ≠ []) (hlt : pattern.length < 2 ^ 32) :
    Shifts pattern fun c => (skipTable pattern c).toNat := by
  have hfold := shiftsUpTo_foldl hpattern hlt le_rfl
  unfold skipTable
  rwa [toNat_patternSize_sub hpattern hlt]

theorem occurs_iff (hpattern : pattern ≠ []) (a : ℕ) :
    Occurs m pattern a ↔
      pattern.getD (pattern.length - 1) 0 = m (a + (pattern.length - 1)) ∧
        read m a (pattern.length - 1) = pattern.take (pattern.length - 1) := by
  have hpos : 0 < pattern.length := List.length_pos_iff.mpr hpattern
  rw [getD_eq_get (show pattern.length - 1 < pattern.length by omega)]
  constructor
  · intro h
    refine ⟨(h _ _).symm, List.ext_getElem (by simp) fun i hi _ => ?_⟩
    rw [length_read] at hi
    simpa [RawMemory.read] using h i (by omega)
  · rintro ⟨hlast, hfront⟩ i hi
    rcases Nat.lt_or_ge i (pattern.length - 1) with hlt | hge
    · have hchar := congrArg (fun l : List UInt8 => l[i]?) hfront
      simpa [RawMemory.read, List.getElem?_take, hlt, hi] using hchar
    · obtain rfl : i = pattern.length - 1 := by omega
      exact hlast.symm

section

variable (hpattern : pattern ≠ []) (hle : pattern.length ≤ size.toNat)
include hpattern hle

omit hpattern in
theorem le_size_sub_iff :
    j ≤ size - UInt32.ofNat pattern.length ↔ j.toNat + pattern.length ≤ size.toNat := by
  have hsize : (UInt32.ofNat pattern.length).toNat = pattern.length :=
    UInt32.toNat_ofNat_of_lt' (hle.trans_lt size.toNat_lt)
  rw [UInt32.le_iff_toNat_le, UInt32.toNat_sub_of_le, hsize]
  · omega
  · rw [UInt32.le_iff_toNat_le, hsize]
    exact hle

theorem toNat_last (hj : j.toNat + pattern.length ≤ size.toNat) :
    (j + UInt32.ofNat pattern.length - 1).toNat = j.toNat + (pattern.length - 1) := by
  have hpos : 0 < pattern.length := List.length_pos_iff.mpr hpattern
  have hsize : (UInt32.ofNat pattern.length).toNat = pattern.length :=
    UInt32.toNat_ofNat_of_lt' (hle.trans_lt size.toNat_lt)
  have hlt := size.toNat_lt
  have hsum : (j + UInt32.ofNat pattern.length).toNat = j.toNat + pattern.length := by
    rw [UInt32.toNat_add, hsize, Nat.mod_eq_of_lt (by omega)]
  rw [UInt32.toNat_sub_of_le, hsum]
  · show j.toNat + pattern.length - 1 = _
    omega
  · rw [UInt32.le_iff_toNat_le, hsum]
    show 1 ≤ j.toNat + pattern.length
    omega

theorem searchPass_found (hj : j.toNat + pattern.length ≤ size.toNat)
    (hoccurs : Occurs m pattern (startPos + j.toNat)) :
    searchPass m startPos pattern size j = .done (some (startPos + j.toNat)) := by
  obtain ⟨hlast, hfront⟩ := (occurs_iff hpattern _).mp hoccurs
  rw [Nat.add_assoc] at hlast
  simp only [searchPass, searchPassReads,
    toNat_patternSize_sub hpattern (hle.trans_lt size.toNat_lt), toNat_last hpattern hle hj]
  rw [if_pos ((le_size_sub_iff hle).mpr hj), if_pos hlast, if_pos hfront]

theorem searchPass_missed (hj : j.toNat + pattern.length ≤ size.toNat)
    (hoccurs : ¬Occurs m pattern (startPos + j.toNat)) :
    searchPass m startPos pattern size j =
      .next (j + skipTable pattern (m (startPos + j.toNat + pattern.length - 1))) := by
  have hpos : 0 < pattern.length := List.length_pos_iff.mpr hpattern
  have hplace : startPos + j.toNat + pattern.length - 1 =
      startPos + (j.toNat + (pattern.length - 1)) := by omega
  rw [occurs_iff hpattern, Nat.add_assoc] at hoccurs
  simp only [searchPass, searchPassReads,
    toNat_patternSize_sub hpattern (hle.trans_lt size.toNat_lt), toNat_last hpattern hle hj, hplace]
  rw [if_pos ((le_size_sub_iff hle).mpr hj)]
  by_cases hlast : pattern.getD (pattern.length - 1) 0 =
      m (startPos + (j.toNat + (pattern.length - 1)))
  · rw [if_pos hlast]
    exact if_neg fun hfront => hoccurs ⟨hlast, hfront⟩
  · rw [if_neg hlast]

omit hpattern in
theorem searchPass_end (hj : size.toNat < j.toNat + pattern.length) :
    searchPassReads m startPos pattern size j = (.done none, []) :=
  if_neg fun h => absurd ((le_size_sub_iff hle).mp h) (Nat.not_le_of_lt hj)

theorem searchReads_lt : ∀ i ∈ (searchPassReads m startPos pattern size j).2, i < size.toNat := by
  have hpos : 0 < pattern.length := List.length_pos_iff.mpr hpattern
  rcases Nat.lt_or_ge size.toNat (j.toNat + pattern.length) with hend | hj
  · rw [searchPass_end hle hend]
    exact fun i hi => absurd hi List.not_mem_nil
  · simp only [searchPassReads,
      toNat_patternSize_sub hpattern (hle.trans_lt size.toNat_lt), toNat_last hpattern hle hj]
    rw [if_pos ((le_size_sub_iff hle).mpr hj)]
    by_cases hlast : pattern.getD (pattern.length - 1) 0 =
        m (startPos + (j.toNat + (pattern.length - 1)))
    · rw [if_pos hlast]
      refine List.forall_mem_cons.mpr ⟨by omega, fun i hi => ?_⟩
      obtain ⟨k, hk, rfl⟩ := List.mem_map.mp hi
      have hk := List.mem_range.mp hk
      omega
    · rw [if_neg hlast]
      exact List.forall_mem_cons.mpr ⟨by omega, fun i hi => absurd hi List.not_mem_nil⟩

theorem toNat_shifted (hj : j.toNat + pattern.length ≤ size.toNat) (c : UInt8) :
    (j + skipTable pattern c).toNat = j.toNat + (skipTable pattern c).toNat ∧
      j.toNat < (j + skipTable pattern c).toNat ∧
      (j + skipTable pattern c).toNat ≤ size.toNat := by
  have hshifts := shifts_skipTable hpattern (hle.trans_lt size.toNat_lt)
  have hpos := hshifts.pos c
  have hshift := hshifts.le c
  have hlt := size.toNat_lt
  rw [UInt32.toNat_add, Nat.mod_eq_of_lt (by omega)]
  omega

theorem missed_shifted (hj : j.toNat + pattern.length ≤ size.toNat)
    (hmissed : Missed m pattern startPos (startPos + j.toNat))
    (hoccurs : ¬Occurs m pattern (startPos + j.toNat)) :
    Missed m pattern startPos (startPos +
      (j + skipTable pattern (m (startPos + j.toNat + pattern.length - 1))).toNat) := by
  rw [(toNat_shifted hpattern hle hj _).1, ← Nat.add_assoc]
  exact (shifts_skipTable hpattern (hle.trans_lt size.toNat_lt)).missed hmissed hoccurs

end

/-- The search returns a place, and it is the first one; or there is none. -/
inductive FirstPlace (m : Memory) (startPos : ℕ) (pattern : List UInt8) (size : UInt32) :
    Option ℕ → Prop
  | found {k : ℕ} (h : IsLeast (places m pattern startPos (startPos + size.toNat)) k) :
    FirstPlace m startPos pattern size (some k)
  | missing (h : places m pattern startPos (startPos + size.toNat) = ∅) :
    FirstPlace m startPos pattern size none

theorem isLeast_place (hj : j.toNat + pattern.length ≤ size.toNat)
    (hmissed : Missed m pattern startPos (startPos + j.toNat))
    (hoccurs : Occurs m pattern (startPos + j.toNat)) :
    IsLeast (places m pattern startPos (startPos + size.toNat)) (startPos + j.toNat) := by
  refine ⟨⟨Nat.le_add_right _ _, by omega, hoccurs⟩, ?_⟩
  rintro k ⟨hstart, -, hk⟩
  by_contra hlt
  exact hmissed k hstart (Nat.lt_of_not_le hlt) hk

theorem places_eq_empty (hend : size.toNat < j.toNat + pattern.length)
    (hmissed : Missed m pattern startPos (startPos + j.toNat)) :
    places m pattern startPos (startPos + size.toNat) = ∅ := by
  ext k
  refine ⟨?_, fun hk => hk.elim⟩
  rintro ⟨hstart, hfits, hk⟩
  exact hmissed k hstart (by omega) hk

theorem memsearch_firstPlace {r : Option ℕ} (hpattern : pattern ≠ [])
    (hle : pattern.length ≤ size.toNat) (h : Memsearch m startPos pattern size r) :
    FirstPlace m startPos pattern size r := by
  obtain ⟨j, hreach, hdone⟩ := h
  have hstart : Missed m pattern startPos (startPos + (0 : UInt32).toNat) :=
    missed_self m pattern startPos
  have hmissed : Missed m pattern startPos (startPos + j.toNat) := by
    refine invariant_of_guarded (C := fun _ => True)
      (I := fun j => Missed m pattern startPos (startPos + j.toNat)) (fun i t hi _ hst => ?_)
      hstart (fun _ _ => trivial) hreach
    rcases Nat.lt_or_ge size.toNat (i.toNat + pattern.length) with hend | hi'
    · rw [searchPass, searchPass_end hle hend] at hst
      cases hst
    by_cases hoccurs : Occurs m pattern (startPos + i.toNat)
    · rw [searchPass_found hpattern hle hi' hoccurs] at hst
      cases hst
    · rw [searchPass_missed hpattern hle hi' hoccurs] at hst
      cases hst
      exact missed_shifted hpattern hle hi' hi hoccurs
  rcases Nat.lt_or_ge size.toNat (j.toNat + pattern.length) with hend | hj
  · rw [searchPass, searchPass_end hle hend] at hdone
    cases hdone
    exact .missing (places_eq_empty hend hmissed)
  by_cases hoccurs : Occurs m pattern (startPos + j.toNat)
  · rw [searchPass_found hpattern hle hj hoccurs] at hdone
    cases hdone
    exact .found (isLeast_place hj hmissed hoccurs)
  · rw [searchPass_missed hpattern hle hj hoccurs] at hdone
    cases hdone

theorem searchPass_decreases (hpattern : pattern ≠ []) (hle : pattern.length ≤ size.toNat)
    {j t : UInt32} (hst : searchPass m startPos pattern size j = .next t) :
    size.toNat - t.toNat < size.toNat - j.toNat := by
  rcases Nat.lt_or_ge size.toNat (j.toNat + pattern.length) with hend | hj
  · rw [searchPass, searchPass_end hle hend] at hst
    cases hst
  by_cases hoccurs : Occurs m pattern (startPos + j.toNat)
  · rw [searchPass_found hpattern hle hj hoccurs] at hst
    cases hst
  · rw [searchPass_missed hpattern hle hj hoccurs] at hst
    cases hst
    have hlater := toNat_shifted hpattern hle hj (m (startPos + j.toNat + pattern.length - 1))
    omega

/-- `memsearch`, evaluated: the region has more places than its loop has passes. -/
def memsearch (m : Memory) (startPos : ℕ) (pattern : List UInt8) (size : UInt32) : Option ℕ :=
  (resultWithin (searchPass m startPos pattern size) (size.toNat + 1) 0).getD none

theorem memsearch_spec (m : Memory) (startPos : ℕ) (hpattern : pattern ≠ [])
    (hle : pattern.length ≤ size.toNat) :
    Memsearch m startPos pattern size (memsearch m startPos pattern size) := by
  have hstep : ∀ j t, searchPass m startPos pattern size j = .next t →
      size.toNat - t.toNat < size.toNat - j.toNat :=
    fun j t hst => searchPass_decreases hpattern hle hst
  have hfirst : size.toNat - (0 : UInt32).toNat < size.toNat + 1 :=
    Nat.lt_succ_of_le (Nat.sub_le _ _)
  obtain ⟨r, hr⟩ := resultWithin_of_decreasing hstep hfirst
  unfold memsearch
  rw [hr]
  exact returns_of_resultWithin hr

theorem memsearch_returns (m : Memory) (startPos : ℕ) (hpattern : pattern ≠ [])
    (hle : pattern.length ≤ size.toNat) : ∃ r, Memsearch m startPos pattern size r :=
  ⟨_, memsearch_spec m startPos hpattern hle⟩

/-- The search returns the first place of the pattern, or nothing where there is none. -/
theorem memsearch_leftmost (m : Memory) (startPos : ℕ) (size : UInt32) {pattern : List UInt8}
    (hpattern : pattern ≠ []) (hle : pattern.length ≤ size.toNat) :
    ∃ r, Memsearch m startPos pattern size r ∧
      (∀ k, r = some k ↔ IsLeast (places m pattern startPos (startPos + size.toNat)) k) ∧
      (r = none ↔ places m pattern startPos (startPos + size.toNat) = ∅) := by
  obtain ⟨r, hr⟩ := memsearch_returns m startPos hpattern hle
  refine ⟨r, hr, ?_⟩
  cases memsearch_firstPlace hpattern hle hr with
  | @found k hk =>
    refine ⟨fun k' => ?_, fun hnone => absurd hnone (Option.some_ne_none k), fun hempty => ?_⟩
    · rw [Option.some_inj]
      exact ⟨fun heq => heq ▸ hk, hk.unique⟩
    · exact absurd (hempty ▸ hk.1) (Set.notMem_empty k)
  | missing hempty =>
    refine ⟨fun k => ⟨fun hsome => absurd hsome.symm (Option.some_ne_none k), fun hk => ?_⟩,
      fun _ => hempty, fun _ => rfl⟩
    exact absurd (hempty ▸ hk.1) (Set.notMem_empty k)

/-- `"aabcabab"`, in which `"aba"` stands at place 4. -/
def searchedRegion : Memory := fun i => [0x61, 0x61, 0x62, 0x63, 0x61, 0x62, 0x61, 0x62].getD i 0

theorem memsearch_leftmost_small : ∃ r, Memsearch searchedRegion 0 [0x61, 0x62, 0x61] 8 r ∧
    (∀ k, r = some k ↔ IsLeast (places searchedRegion [0x61, 0x62, 0x61] 0 8) k) ∧
    (r = none ↔ places searchedRegion [0x61, 0x62, 0x61] 0 8 = ∅) :=
  memsearch_leftmost searchedRegion 0 8 (by decide) (by decide)

end Presence3DS.Loader
