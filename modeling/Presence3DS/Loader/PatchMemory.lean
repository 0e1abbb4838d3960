import Presence3DS.Loader.Memsearch

/-! The patches of the code of a title by `patchMemory` (`patcher.c`), which searches for the
pattern again behind each place that it has patched. -/

namespace Presence3DS.Loader
open Horspool Loops RawMemory

/-- What a call patches, where in each place, and how many times at most. -/
structure MemoryPatch where
  pattern : List UInt8
  offset : ℤ
  replace : List UInt8
  count : UInt32

/-- The variables of `patchMemory`, with the place that `memsearch` has come to. -/
structure PatchState where
  memory : Memory
  start : ℕ
  size : UInt32
  i : UInt32
  j : UInt32

namespace MemoryPatch

/-- `memcpy(found + offset, replace, repSize)` -/
def replaceAt (p : MemoryPatch) (m : Memory) (found : ℕ) : Memory :=
  write m (found + p.offset).toNat p.replace

/-- One pass, of a search or on from one search to the next. -/
def pass (p : MemoryPatch) (s : PatchState) : Pass PatchState (UInt32 × Memory) :=
  if s.i < p.count then
    match searchPass s.memory s.start p.pattern s.size s.j with
    | .next j => .next { s with j := j }
    | .done none => .done (s.i, s.memory)
    | .done (some found) =>
      let memory := p.replaceAt s.memory found
      let patSize := UInt32.ofNat p.pattern.length
      let at_ := UInt32.ofNat (found - s.start)
      if s.size < at_ + patSize then .done (s.i, memory)
      else .next ⟨memory, found + p.pattern.length, s.size - (at_ + patSize), s.i + 1, 0⟩
  else .done (s.i, s.memory)

/-- The addresses that the pass reads. -/
def reads (p : MemoryPatch) (s : PatchState) : List ℕ :=
  if s.i < p.count then
    (searchPassReads s.memory s.start p.pattern s.size s.j).2.map (s.start + ·)
  else []

def begin (m : Memory) (start : ℕ) (size : UInt32) : PatchState := ⟨m, start, size, 0, 0⟩

/-- The replacement stays inside of the match. -/
def Inside (p : MemoryPatch) : Prop :=
  0 ≤ p.offset ∧ p.offset.toNat + p.replace.length ≤ p.pattern.length

instance (p : MemoryPatch) : Decidable p.Inside := inferInstanceAs (Decidable (_ ∧ _))

/-- The memory with these places patched. -/
def patched (p : MemoryPatch) (m : Memory) (ks : List ℕ) : Memory := ks.foldl p.replaceAt m

/-- The call patches the first `count` of the occurrences `ks`, returns how many these are, and
reads nothing outside of the region. -/
def PatchesFirst (p : MemoryPatch) (m : Memory) (start : ℕ) (size : UInt32) (ks : List ℕ) : Prop :=
  Returns p.pass (begin m start size)
    (UInt32.ofNat (min p.count.toNat ks.length), p.patched m (ks.take p.count.toNat)) ∧
  Guarded p.pass (fun s => ∀ a ∈ p.reads s, start ≤ a ∧ a < start + size.toNat)
    (begin m start size)

/-! ## The searches -/

variable {p : MemoryPatch} {s : PatchState} {start b : ℕ}

/-- The addresses of the region. -/
def InRegion (p : MemoryPatch) (start b : ℕ) (s : PatchState) : Prop :=
  ∀ a ∈ p.reads s, start ≤ a ∧ a < b

/-- What is left of the region is searched. -/
structure Searching (p : MemoryPatch) (start b : ℕ) (s : PatchState) : Prop where
  start_le : start ≤ s.start
  region : s.start + s.size.toNat = b

theorem Searching.inRegion (hs : Searching p start b s) (hpattern : p.pattern ≠ [])
    (hle : p.pattern.length ≤ s.size.toNat) : p.InRegion start b s := by
  intro a ha
  unfold reads at ha
  split_ifs at ha
  · obtain ⟨i, hi, rfl⟩ := List.mem_map.mp ha
    have hlt := searchReads_lt hpattern hle i hi
    have hstart := hs.start_le
    have hregion := hs.region
    omega
  · exact absurd ha List.not_mem_nil

theorem Searching.leads (hs : Searching p start b s) (hpattern : p.pattern ≠ [])
    (hle : p.pattern.length ≤ s.size.toNat) (hi : s.i < p.count)
    (hmissed : Missed s.memory p.pattern s.start (s.start + s.j.toNat)) :
    ∃ j, Leads p.pass (p.InRegion start b) s { s with j := j } ∧
      Missed s.memory p.pattern s.start (s.start + j.toNat) ∧
      (s.size.toNat < j.toNat + p.pattern.length ∨ j.toNat + p.pattern.length ≤ s.size.toNat ∧
        Occurs s.memory p.pattern (s.start + j.toNat)) := by
  generalize hn : s.size.toNat - s.j.toNat = n
  induction n using Nat.strong_induction_on generalizing s with
  | _ n ih =>
    rcases Nat.lt_or_ge s.size.toNat (s.j.toNat + p.pattern.length) with hend | hj
    · exact ⟨s.j, .refl, hmissed, .inl hend⟩
    by_cases hoccurs : Occurs s.memory p.pattern (s.start + s.j.toNat)
    · exact ⟨s.j, .refl, hmissed, .inr ⟨hj, hoccurs⟩⟩
    let c := s.memory (s.start + s.j.toNat + p.pattern.length - 1)
    have hstep : p.pass s = .next { s with j := s.j + skipTable p.pattern c } := by
      rw [pass, if_pos hi, searchPass_missed hpattern hle hj hoccurs]
    have hlater := toNat_shifted hpattern hle hj c
    have hnext : Searching p start b { s with j := s.j + skipTable p.pattern c } :=
      ⟨hs.start_le, hs.region⟩
    have hshorter : s.size.toNat - (s.j + skipTable p.pattern c).toNat < n := by omega
    obtain ⟨j, hleads, hrest⟩ := ih _ hshorter hnext hle hi
      (missed_shifted hpattern hle hj hmissed hoccurs) rfl
    exact ⟨j, .head ⟨hs.inRegion hpattern hle, hstep⟩ hleads, hrest⟩

/-- The state after a place has been patched. -/
def afterPatch (p : MemoryPatch) (b : ℕ) (s : PatchState) (k : ℕ) : PatchState :=
  ⟨p.replaceAt s.memory k, k + p.pattern.length, UInt32.ofNat (b - (k + p.pattern.length)),
    s.i + 1, 0⟩

theorem Searching.leads_afterPatch {k : ℕ} (hs : Searching p start b s) (hpattern : p.pattern ≠ [])
    (hi : s.i < p.count) (hj : s.j = 0)
    (hk : IsLeast (places s.memory p.pattern s.start b) k) :
    Leads p.pass (p.InRegion start b) s (p.afterPatch b s k) := by
  obtain ⟨⟨hstart, hfits, hoccurs⟩, hleast⟩ := hk
  have hregion := hs.region
  have hle : p.pattern.length ≤ s.size.toNat := by omega
  have hfirst : Missed s.memory p.pattern s.start (s.start + s.j.toNat) := by
    rw [hj]
    exact missed_self s.memory p.pattern s.start
  obtain ⟨j, hleads, hmissed, hend | ⟨hin, hhere⟩⟩ := hs.leads hpattern hle hi hfirst
  · exact absurd hoccurs (hmissed k hstart (by omega))
  have hplace : s.start + j.toNat = k := by
    have hnot : ¬k < s.start + j.toNat := fun hlt => hmissed k hstart hlt hoccurs
    have hbound := hleast ⟨Nat.le_add_right s.start j.toNat, by omega, hhere⟩
    omega
  have hat : UInt32.ofNat (k - s.start) = j := by
    rw [← hplace, Nat.add_sub_cancel_left, UInt32.ofNat_toNat]
  have hlt := s.size.toNat_lt
  have hsize : (UInt32.ofNat p.pattern.length).toNat = p.pattern.length :=
    UInt32.toNat_ofNat_of_lt' (show p.pattern.length < 2 ^ 32 by omega)
  have hused : (j + UInt32.ofNat p.pattern.length).toNat = j.toNat + p.pattern.length := by
    rw [UInt32.toNat_add, hsize, Nat.mod_eq_of_lt (by omega)]
  have hroom : ¬s.size < j + UInt32.ofNat p.pattern.length := by
    rw [UInt32.lt_iff_toNat_lt, hused]
    omega
  have hleft : s.size - (j + UInt32.ofNat p.pattern.length) =
      UInt32.ofNat (b - (k + p.pattern.length)) := by
    apply UInt32.toNat_inj.mp
    rw [UInt32.toNat_sub_of_le _ _ (UInt32.le_iff_toNat_le.mpr (by omega)), hused,
      UInt32.toNat_ofNat_of_lt' (show b - (k + p.pattern.length) < 2 ^ 32 by omega)]
    omega
  have hstep : p.pass { s with j := j } = .next (p.afterPatch b s k) := by
    rw [pass, if_pos hi, searchPass_found hpattern hle hin hhere]
    simp only [hplace, hat]
    rw [if_neg hroom, hleft]
    rfl
  have hnow : Searching p start b { s with j := j } := ⟨hs.start_le, hs.region⟩
  exact hleads.tail ⟨hnow.inRegion hpattern hle, hstep⟩

theorem replaceAt_behind (hinside : p.Inside) (m : Memory) (k : ℕ) :
    ∀ x, k + p.pattern.length ≤ x → p.replaceAt m k x = m x := by
  obtain ⟨hoffset, hfits⟩ := hinside
  intro x hx
  apply write_outside
  omega

theorem Searching.afterPatch {k : ℕ} (hs : Searching p start b s)
    (hk : k ∈ places s.memory p.pattern s.start b) : Searching p start b (p.afterPatch b s k) := by
  obtain ⟨hstart, hfits, -⟩ := hk
  have hle := hs.start_le
  have hregion := hs.region
  have hlt := s.size.toNat_lt
  constructor
  · show start ≤ k + p.pattern.length
    omega
  · show k + p.pattern.length + (UInt32.ofNat (b - (k + p.pattern.length))).toNat = b
    rw [UInt32.toNat_ofNat_of_lt' (show b - (k + p.pattern.length) < 2 ^ 32 by omega)]
    omega

theorem last_mem_reads (hpattern : p.pattern ≠ []) (hlt : p.pattern.length < 2 ^ 32)
    (hi : s.i < p.count) (hj : s.j = 0) : s.start + (p.pattern.length - 1) ∈ p.reads s := by
  have hlast : (0 + UInt32.ofNat p.pattern.length - 1).toNat = p.pattern.length - 1 := by
    rw [UInt32.zero_add]
    exact toNat_patternSize_sub hpattern hlt
  rw [reads, if_pos hi, hj]
  apply List.mem_map_of_mem
  simp only [searchPassReads, hlast]
  rw [if_pos (UInt32.le_iff_toNat_le.mpr (Nat.zero_le _))]
  split_ifs <;> exact List.mem_cons_self

theorem Searching.ends_iff (hs : Searching p start b s) (hpattern : p.pattern ≠ [])
    (hlt : p.pattern.length < 2 ^ 32) (hi : s.i < p.count) (hj : s.j = 0)
    (hnone : places s.memory p.pattern s.start b = ∅) :
    (Returns p.pass s (s.i, s.memory) ∧ Guarded p.pass (p.InRegion start b) s) ↔
      s.start + p.pattern.length ≤ b := by
  have hregion := hs.region
  constructor
  · rintro ⟨-, hguarded⟩
    have hlast := (hguarded.here _ (last_mem_reads hpattern hlt hi hj)).2
    have hpos : 0 < p.pattern.length := List.length_pos_iff.mpr hpattern
    omega
  · intro hle
    have hle : p.pattern.length ≤ s.size.toNat := by omega
    have hfirst : Missed s.memory p.pattern s.start (s.start + s.j.toNat) := by
      rw [hj]
      exact missed_self s.memory p.pattern s.start
    obtain ⟨j, hleads, hmissed, hend | ⟨hin, hhere⟩⟩ := hs.leads hpattern hle hi hfirst
    · have hdone : p.pass { s with j := j } = .done (s.i, s.memory) := by
        rw [pass, if_pos hi, searchPass, searchPass_end hle hend]
      have hnow : Searching p start b { s with j := j } := ⟨hs.start_le, hs.region⟩
      refine ⟨(Returns.of_done hdone).of_reaches hleads.reaches, ?_⟩
      rw [hleads.guarded_iff, guarded_iff_of_done hdone]
      exact hnow.inRegion hpattern hle
    · have hplace : s.start + j.toNat ∈ places s.memory p.pattern s.start b :=
        ⟨Nat.le_add_right _ _, by omega, hhere⟩
      rw [hnone] at hplace
      exact absurd hplace (Set.notMem_empty _)

/-- The rest of the calls patches the first of the occurrences that are left. -/
def PatchesRest (p : MemoryPatch) (start b : ℕ) (s : PatchState) (ks : List ℕ) : Prop :=
  Returns p.pass s (UInt32.ofNat (s.i.toNat + min (p.count.toNat - s.i.toNat) ks.length),
    p.patched s.memory (ks.take (p.count.toNat - s.i.toNat))) ∧
  Guarded p.pass (p.InRegion start b) s

theorem patchesRest_of_over (hi : s.i = p.count) (ks : List ℕ) : p.PatchesRest start b s ks := by
  have hover : ¬s.i < p.count := hi ▸ UInt32.lt_irrefl s.i
  have hdone : p.pass s = .done (s.i, s.memory) := by rw [pass, if_neg hover]
  constructor
  · rw [← hi, Nat.sub_self, Nat.zero_min, List.take_zero, Nat.add_zero, UInt32.ofNat_toNat]
    exact Returns.of_done hdone
  · rw [guarded_iff_of_done hdone]
    intro a ha
    rw [reads, if_neg hover] at ha
    exact absurd ha List.not_mem_nil

theorem toNat_succ (hi : s.i < p.count) : (s.i + 1).toNat = s.i.toNat + 1 := by
  have hlt := UInt32.lt_iff_toNat_lt.mp hi
  have hcount := p.count.toNat_lt
  rw [UInt32.toNat_add, Nat.mod_eq_of_lt]
  · rfl
  · show s.i.toNat + 1 < 2 ^ 32
    omega

theorem patchesRest_cons_iff {k : ℕ} {ks : List ℕ} (hi : s.i < p.count)
    (hleads : Leads p.pass (p.InRegion start b) s (p.afterPatch b s k)) :
    p.PatchesRest start b s (k :: ks) ↔ p.PatchesRest start b (p.afterPatch b s k) ks := by
  have hlt := UInt32.lt_iff_toNat_lt.mp hi
  have hleft : p.count.toNat - s.i.toNat = p.count.toNat - (s.i + 1).toNat + 1 := by
    rw [toNat_succ hi]
    omega
  have hnumber : s.i.toNat + min (p.count.toNat - s.i.toNat) (k :: ks).length =
      (s.i + 1).toNat + min (p.count.toNat - (s.i + 1).toNat) ks.length := by
    rw [hleft, toNat_succ hi, List.length_cons]
    omega
  have hmemory : p.patched s.memory ((k :: ks).take (p.count.toNat - s.i.toNat)) =
      p.patched (p.replaceAt s.memory k) (ks.take (p.count.toNat - (s.i + 1).toNat)) := by
    rw [hleft, List.take_succ_cons]
    rfl
  unfold PatchesRest
  rw [hleads.guarded_iff, hnumber, hmemory]
  apply and_congr_left'
  exact ⟨fun h => h.of_reached hleads.reaches, fun h => h.of_reaches hleads.reaches⟩

theorem Searching.patchesRest_iff {ks : List ℕ} (hs : Searching p start b s)
    (hpattern : p.pattern ≠ []) (hlt : p.pattern.length < 2 ^ 32) (hinside : p.Inside)
    (hj : s.j = 0) (hi : s.i ≤ p.count) (hks : Successive s.memory p.pattern b s.start ks) :
    p.PatchesRest start b s ks ↔ p.count.toNat - s.i.toNat ≤ ks.length ∨
      lastEnd p.pattern s.start ks + p.pattern.length ≤ b := by
  induction ks generalizing s with
  | nil =>
    rcases UInt32.le_iff_lt_or_eq.mp hi with hbefore | hover
    · cases hks with
      | done hnone =>
        have hends := hs.ends_iff hpattern hlt hbefore hj hnone
        rw [PatchesRest, List.length_nil, Nat.min_zero, Nat.add_zero, UInt32.ofNat_toNat,
          List.take_nil]
        refine hends.trans ⟨.inr, fun h => h.resolve_left ?_⟩
        have hcount := UInt32.lt_iff_toNat_lt.mp hbefore
        omega
    · refine iff_of_true (patchesRest_of_over hover []) (.inl ?_)
      rw [hover, Nat.sub_self]
      exact Nat.zero_le _
  | cons k ks ih =>
    rcases UInt32.le_iff_lt_or_eq.mp hi with hbefore | hover
    · cases hks with
      | found hk hrest =>
        have hleads := hs.leads_afterPatch hpattern hbefore hj hk
        have hnext : s.i + 1 ≤ p.count := by
          rw [UInt32.le_iff_toNat_le, toNat_succ hbefore]
          exact UInt32.lt_iff_toNat_lt.mp hbefore
        rw [patchesRest_cons_iff hbefore hleads, ih (hs.afterPatch hk.1) rfl hnext
          (hrest.congr (replaceAt_behind hinside s.memory k))]
        have hcount : p.count.toNat - (s.i + 1).toNat ≤ ks.length ↔
            p.count.toNat - s.i.toNat ≤ (k :: ks).length := by
          have hlater := UInt32.lt_iff_toNat_lt.mp hbefore
          rw [toNat_succ hbefore, List.length_cons]
          omega
        exact or_congr_left hcount
    · refine iff_of_true (patchesRest_of_over hover _) (.inl ?_)
      rw [hover, Nat.sub_self]
      exact Nat.zero_le _

/-- The first `count` occurrences are patched, and nothing outside of the region is read, if and
only if no search begins with less left than the pattern is long. -/
theorem patchesFirst_iff (p : MemoryPatch) (m : Memory) (start : ℕ) (size : UInt32) {ks : List ℕ}
    (hpattern : p.pattern ≠ []) (hlt : p.pattern.length < 2 ^ 32) (hinside : p.Inside)
    (hks : Successive m p.pattern (start + size.toNat) start ks) :
    p.PatchesFirst m start size ks ↔ p.count.toNat ≤ ks.length ∨
      lastEnd p.pattern start ks + p.pattern.length ≤ start + size.toNat := by
  have hs : Searching p start (start + size.toNat) (begin m start size) := ⟨le_rfl, rfl⟩
  have hrest := hs.patchesRest_iff hpattern hlt hinside rfl
    (UInt32.le_iff_toNat_le.mpr (Nat.zero_le _)) hks
  have hbegin : p.PatchesRest start (start + size.toNat) (begin m start size) ks ↔
      p.PatchesFirst m start size ks := by
    have hzero : (begin m start size).i.toNat = 0 := rfl
    rw [PatchesRest, hzero, Nat.zero_add, Nat.sub_zero]
    rfl
  exact hbegin.symm.trans hrest

/-- `"x"` becomes `"y"`. -/
def smallPatch (count : UInt32) : MemoryPatch := ⟨[0x78], 0, [0x79], count⟩

/-- `"xa"`, or the `"x"` alone. -/
def smallRegion : Memory := fun i => [0x78, 0x61].getD i 0

theorem occurs_small (count : UInt32) (k : ℕ) :
    Occurs smallRegion (smallPatch count).pattern k ↔ smallRegion k = 0x78 := by
  refine ⟨fun h => h 0 Nat.one_pos, fun h i hi => ?_⟩
  obtain rfl : i = 0 := Nat.lt_one_iff.mp hi
  exact h

theorem successive_small (count : UInt32) {size : ℕ} (hpos : 0 < size) (hsize : size ≤ 2) :
    Successive smallRegion (smallPatch count).pattern size 0 [0] := by
  refine .found ⟨⟨le_rfl, hpos, (occurs_small count 0).mpr rfl⟩, fun k _ => Nat.zero_le k⟩
    (.done ?_)
  ext k
  refine ⟨?_, fun hk => hk.elim⟩
  rintro ⟨hstart, hfits, hk⟩
  replace hstart : 0 + 1 ≤ k := hstart
  replace hfits : k + 1 ≤ size := hfits
  obtain rfl : k = 1 := by omega
  exact absurd ((occurs_small count 1).mp hk) (by decide)

theorem patchesFirst_small : (smallPatch 2).PatchesFirst smallRegion 0 2 [0] :=
  (patchesFirst_iff (smallPatch 2) smallRegion 0 2 (by decide) (by decide) (by decide)
    (successive_small 2 (by decide) (by decide))).mpr (.inr (by decide))

/-- Behind an occurrence at the end of the region, the search goes on outside of it. -/
theorem second_search_leaves_region : ¬∀ (p : MemoryPatch) (m : Memory) (start : ℕ) (size : UInt32)
    (ks : List ℕ), p.pattern ≠ [] → p.pattern.length < 2 ^ 32 → p.Inside →
      Successive m p.pattern (start + size.toNat) start ks → p.PatchesFirst m start size ks := by
  intro h
  have hpatches := h (smallPatch 2) smallRegion 0 1 [0] (by decide) (by decide) (by decide)
    (successive_small 2 (by decide) (by decide))
  have hnext : ((smallPatch 2).pass (begin smallRegion 0 1) : Pass PatchState (UInt32 × Memory)) =
      .next ⟨(smallPatch 2).replaceAt smallRegion 0, 1, 0, 1, 0⟩ := rfl
  have hread := (hpatches.2.next hnext).here 1 (by decide)
  exact absurd hread.2 (by decide)

end MemoryPatch

end Presence3DS.Loader
