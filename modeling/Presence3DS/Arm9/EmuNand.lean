import Presence3DS.Arm9.CtrNand
import Presence3DS.Lib.BitFields

/-! Where the EmuNAND is on the SD card (`locateEmuNand` of `emunand.c`). -/

namespace Presence3DS.Arm9
open CtrNand (FirmwareSource)

/-- The console, and what there is on its SD card. -/
structure EmuNandCard where
  isN3ds : Bool
  nandSize : UInt32
  fatStart : UInt32
  /-- One sector, unless it cannot be read. -/
  readsectors : UInt32 → Option (List UInt8)

namespace EmuNandCard

/-- `memcmp(temp + 0x100, "NCSD", 4) == 0` -/
def hasNcsd (e : EmuNandCard) (sector : UInt32) : Bool :=
  match e.readsectors sector with
  | some temp => (temp.drop 0x100).take 4 = [0x4E, 0x43, 0x53, 0x44]
  | none => false

def roundTo4MB (a : UInt32) : UInt32 := (a + 0x2000 - 1) &&& ~~~(0x2000 - 1)

def roundedMinsize (e : EmuNandCard) : UInt32 := if e.isN3ds then 0x26E000 else 0x1D8000

/-- The distance of two EmuNANDs in the "legacy", "default" and "minsize" layouts. -/
def layoutOffset (e : EmuNandCard) : Fin 3 → UInt32
  | 0 => if e.nandSize > 0x200000 then 0x400000 else 0x200000
  | 1 => roundTo4MB (e.nandSize + 1)
  | 2 => e.roundedMinsize

/-- `emuOffset` and `emuHeader`, where the layout has an EmuNAND: a RedNAND, or one of the
Gateway. -/
def probe (e : EmuNandCard) (i : Fin 3) (emunandIndex : UInt32) : Option (UInt32 × UInt32) :=
  let nandOffset := e.layoutOffset i * emunandIndex
  if e.fatStart ≥ nandOffset + e.roundedMinsize then
    if e.hasNcsd (nandOffset + 1) then some (nandOffset + 1, 0)
    else if i ≠ 2 ∧ e.hasNcsd (nandOffset + e.nandSize) then some (nandOffset, e.nandSize)
    else none
  else none

/-- The loop; for the first EmuNAND, the layouts are the same. -/
def probeLayouts (e : EmuNandCard) (emunandIndex : UInt32) : List (Fin 3) → Option (UInt32 × UInt32)
  | [] => none
  | i :: is =>
    match e.probe i emunandIndex with
    | some found => some found
    | none => if emunandIndex = 0 then none else e.probeLayouts emunandIndex is

end EmuNandCard

/-- The variables that are set. -/
structure EmuNandLocation where
  nandType : FirmwareSource
  emunandIndex : UInt32
  emuOffset : UInt32
  emuHeader : UInt32
deriving DecidableEq

def locateEmuNand (e : EmuNandCard) (l : EmuNandLocation) (configureCtrNandParams : Bool) :
    EmuNandLocation :=
  match e.probeLayouts l.emunandIndex [0, 1, 2] with
  | some (offset, header) =>
    if configureCtrNandParams then { l with emuOffset := offset, emuHeader := header } else l
  | none =>
    if l.emunandIndex ≠ 0 then
      locateEmuNand e { l with emunandIndex := 0 } configureCtrNandParams
    else { l with nandType := .sysnand }
termination_by l.emunandIndex.toNat
decreasing_by
  rename_i h
  exact Nat.pos_of_ne_zero fun hzero => h (UInt32.toNat_inj.mp hzero)

/-! ## What is claimed -/

namespace EmuNandCard

/-- The distances, as numbers that do not wrap. -/
def layoutDistance (e : EmuNandCard) : Fin 3 → ℕ
  | 0 => (e.layoutOffset 0).toNat
  | 1 => (e.nandSize.toNat + 1 + 0x1FFF) / 0x2000 * 0x2000
  | 2 => e.roundedMinsize.toNat

/-- The layout has an EmuNAND with this index: it fits, and there is a header in one of the places
for it. -/
def Holds (e : EmuNandCard) (i : Fin 3) (emunandIndex : UInt32) : Prop :=
  e.layoutDistance i * emunandIndex.toNat + e.roundedMinsize.toNat ≤ e.fatStart.toNat ∧
    ∃ s, e.hasNcsd s = true ∧ (s.toNat = e.layoutDistance i * emunandIndex.toNat + 1 ∨
      i ≠ 2 ∧ s.toNat = e.layoutDistance i * emunandIndex.toNat + e.nandSize.toNat)

end EmuNandCard

/-- What is located: SysNAND, if there is no EmuNAND, or one with its header and its size in front
of the FAT partition. All layouts are in units of 4 MB, one of which a RedNAND starts a sector
behind. -/
structure Locates (e : EmuNandCard) (emunandIndex : UInt32) (configureCtrNandParams : Bool)
    (r : EmuNandLocation) : Prop where
  sysnand : r.nandType = .sysnand → ∀ i, ¬e.Holds i emunandIndex ∧ ¬e.Holds i 0
  index : r.nandType = .emunand → r.emunandIndex = emunandIndex ∨ r.emunandIndex = 0
  header : r.nandType = .emunand → configureCtrNandParams = true →
    ∃ s, e.hasNcsd s = true ∧ s.toNat = r.emuOffset.toNat + r.emuHeader.toNat ∧ s < e.fatStart
  room : r.nandType = .emunand → configureCtrNandParams = true →
    r.emuOffset.toNat / 0x2000 * 0x2000 + e.roundedMinsize.toNat ≤ e.fatStart.toNat

/-- A place for an EmuNAND: where the layout has it, and whether it is one of the Gateway. -/
structure EmuNandSpot where
  nandOffset : UInt32
  gateway : Bool
deriving DecidableEq

namespace EmuNandCard

def spotsOf (e : EmuNandCard) (emunandIndex : UInt32) (i : Fin 3) : List EmuNandSpot :=
  let nandOffset := e.layoutOffset i * emunandIndex
  if i = 2 then [⟨nandOffset, false⟩] else [⟨nandOffset, false⟩, ⟨nandOffset, true⟩]

/-- The places, in the order in which they are looked at. -/
def spots (e : EmuNandCard) (emunandIndex : UInt32) : List EmuNandSpot :=
  if emunandIndex = 0 then e.spotsOf 0 0
  else [0, 1, 2].flatMap (e.spotsOf emunandIndex) ++ e.spotsOf 0 0

def accepts (e : EmuNandCard) (spot : EmuNandSpot) : Bool :=
  decide (e.fatStart ≥ spot.nandOffset + e.roundedMinsize) &&
    e.hasNcsd (spot.nandOffset + if spot.gateway then e.nandSize else 1)

/-- The sum of the room check has not wrapped, and a Gateway header is not in the partition. -/
def Fits (e : EmuNandCard) (spot : EmuNandSpot) : Prop :=
  spot.nandOffset.toNat + e.roundedMinsize.toNat < 2 ^ 32 ∧
    (spot.gateway = true → spot.nandOffset.toNat + e.nandSize.toNat < e.fatStart.toNat)

def reported (e : EmuNandCard) (spot : EmuNandSpot) : UInt32 × UInt32 :=
  if spot.gateway then (spot.nandOffset, e.nandSize) else (spot.nandOffset + 1, 0)

/-! ## The probes -/

variable {e : EmuNandCard} {i : Fin 3} {j : UInt32} {spot : EmuNandSpot}

theorem probe_eq (e : EmuNandCard) (i : Fin 3) (j : UInt32) :
    e.probe i j = ((e.spotsOf j i).find? e.accepts).map e.reported := by
  unfold probe spotsOf
  dsimp only
  generalize hoffset : e.layoutOffset i * j = nandOffset
  have hred : e.accepts ⟨nandOffset, false⟩ =
      (decide (e.fatStart ≥ nandOffset + e.roundedMinsize) && e.hasNcsd (nandOffset + 1)) := rfl
  have hgateway : e.accepts ⟨nandOffset, true⟩ =
      (decide (e.fatStart ≥ nandOffset + e.roundedMinsize) &&
        e.hasNcsd (nandOffset + e.nandSize)) := rfl
  by_cases hroom : e.fatStart ≥ nandOffset + e.roundedMinsize
  · rw [decide_eq_true hroom, Bool.true_and] at hred hgateway
    rw [if_pos hroom]
    by_cases hi : i = 2
    · rw [if_pos hi, if_neg (fun h : i ≠ 2 ∧ _ => h.1 hi), List.find?_cons, hred]
      cases e.hasNcsd (nandOffset + 1) <;> rfl
    · rw [if_neg hi, List.find?_cons, List.find?_cons, hred, hgateway]
      cases e.hasNcsd (nandOffset + 1) with
      | true => rfl
      | false =>
        cases e.hasNcsd (nandOffset + e.nandSize) with
        | true =>
          show (if i ≠ 2 ∧ true = true then _ else _) = _
          rw [if_pos ⟨hi, rfl⟩]
          rfl
        | false =>
          show (if i ≠ 2 ∧ false = true then _ else _) = _
          rw [if_neg fun h => Bool.false_ne_true h.2]
          rfl
  · rw [decide_eq_false hroom, Bool.false_and] at hred hgateway
    rw [if_neg hroom]
    split_ifs
    · rw [List.find?_cons, hred]
      rfl
    · rw [List.find?_cons, List.find?_cons, hred, hgateway]
      rfl

theorem probeLayouts_eq (e : EmuNandCard) (hj : j ≠ 0) (is : List (Fin 3)) :
    e.probeLayouts j is = ((is.flatMap (e.spotsOf j)).find? e.accepts).map e.reported := by
  induction is with
  | nil => rfl
  | cons i is ih =>
    unfold probeLayouts
    rw [List.flatMap_cons, List.find?_append, probe_eq, if_neg hj, ih]
    cases (e.spotsOf j i).find? e.accepts <;> rfl

theorem probeLayouts_zero (e : EmuNandCard) :
    e.probeLayouts 0 [0, 1, 2] = ((e.spotsOf 0 0).find? e.accepts).map e.reported := by
  unfold probeLayouts
  rw [probe_eq, if_pos rfl]
  cases (e.spotsOf 0 0).find? e.accepts <;> rfl

end EmuNandCard

open EmuNandCard

variable {e : EmuNandCard} {j : UInt32} {l : EmuNandLocation} {configure : Bool}

theorem locateEmuNand_found {found : UInt32 × UInt32}
    (h : e.probeLayouts l.emunandIndex [0, 1, 2] = some found) : locateEmuNand e l configure =
      if configure then { l with emuOffset := found.1, emuHeader := found.2 } else l := by
  rw [locateEmuNand, h]

theorem locateEmuNand_again (h : e.probeLayouts l.emunandIndex [0, 1, 2] = none)
    (hl : l.emunandIndex ≠ 0) :
    locateEmuNand e l configure = locateEmuNand e { l with emunandIndex := 0 } configure := by
  rw [locateEmuNand, h]
  exact if_pos hl

theorem locateEmuNand_missing (h : e.probeLayouts l.emunandIndex [0, 1, 2] = none)
    (hl : l.emunandIndex = 0) : locateEmuNand e l configure = { l with nandType := .sysnand } := by
  rw [locateEmuNand, h]
  exact if_neg (not_not_intro hl)

/-- The location is that of the first place that is accepted, if there is one. -/
structure LocatedAt (e : EmuNandCard) (l : EmuNandLocation) (configure : Bool)
    (spot : EmuNandSpot) (r : EmuNandLocation) : Prop where
  nandType : r.nandType = l.nandType
  index : r.emunandIndex = l.emunandIndex ∨ r.emunandIndex = 0
  reported : configure = true →
    r.emuOffset = (e.reported spot).1 ∧ r.emuHeader = (e.reported spot).2

theorem locatedAt_of_probe {spot : EmuNandSpot}
    (h : e.probeLayouts l.emunandIndex [0, 1, 2] = some (e.reported spot)) :
    LocatedAt e l configure spot (locateEmuNand e l configure) := by
  rw [locateEmuNand_found h]
  cases configure with
  | true => exact ⟨rfl, .inl rfl, fun _ => ⟨rfl, rfl⟩⟩
  | false => exact ⟨rfl, .inl rfl, fun hfalse => absurd hfalse Bool.false_ne_true⟩

theorem locateEmuNand_none (h : (e.spots l.emunandIndex).find? e.accepts = none) :
    (locateEmuNand e l configure).nandType = .sysnand := by
  unfold spots at h
  by_cases hl : l.emunandIndex = 0
  · rw [if_pos hl] at h
    rw [locateEmuNand_missing _ hl]
    rw [hl, probeLayouts_zero, h]
    rfl
  · rw [if_neg hl, List.find?_append, Option.or_eq_none_iff] at h
    rw [locateEmuNand_again _ hl, locateEmuNand_missing _ rfl]
    · rw [probeLayouts_zero, h.2]
      rfl
    · rw [probeLayouts_eq e hl, h.1]
      rfl

theorem locateEmuNand_some {spot : EmuNandSpot}
    (h : (e.spots l.emunandIndex).find? e.accepts = some spot) :
    LocatedAt e l configure spot (locateEmuNand e l configure) := by
  unfold spots at h
  by_cases hl : l.emunandIndex = 0
  · rw [if_pos hl] at h
    apply locatedAt_of_probe
    rw [hl, probeLayouts_zero, h]
    rfl
  · rw [if_neg hl, List.find?_append] at h
    cases hindex : ([0, 1, 2].flatMap (e.spotsOf l.emunandIndex)).find? e.accepts with
    | some found =>
      rw [hindex] at h
      obtain rfl : found = spot := Option.some.inj h
      apply locatedAt_of_probe
      rw [probeLayouts_eq e hl, hindex]
      rfl
    | none =>
      rw [hindex] at h
      have hfirst : LocatedAt e { l with emunandIndex := 0 } configure spot
          (locateEmuNand e { l with emunandIndex := 0 } configure) := by
        apply locatedAt_of_probe
        rw [probeLayouts_zero]
        exact congrArg (Option.map e.reported) h
      rw [locateEmuNand_again _ hl]
      · exact ⟨hfirst.nandType, .inr (hfirst.index.elim id id), hfirst.reported⟩
      · rw [probeLayouts_eq e hl, hindex]
        rfl

/-! ## The places -/

theorem toNat_roundTo4MB (a : UInt32) :
    (roundTo4MB a).toNat = (a + 0x2000 - 1).toNat / 0x2000 * 0x2000 := by
  have hmask : (~~~(0x2000 - 1) : UInt32) = ⟨~~~(BitVec.ofNat 32 (2 ^ 13 - 1))⟩ := by decide
  unfold roundTo4MB
  rw [hmask]
  exact BitFields.toNat_and_not_low _ 13

theorem dvd_layoutOffset (e : EmuNandCard) (i : Fin 3) : 0x2000 ∣ (e.layoutOffset i).toNat := by
  unfold layoutOffset
  split
  · split_ifs <;> decide
  · rw [toNat_roundTo4MB]
    exact Nat.dvd_mul_left _ _
  · unfold roundedMinsize
    split_ifs <;> decide

theorem dvd_of_mem_spots {j : UInt32} {spot : EmuNandSpot} (h : spot ∈ e.spots j) :
    0x2000 ∣ spot.nandOffset.toNat := by
  have hproduct : ∀ i (j : UInt32), 0x2000 ∣ (e.layoutOffset i * j).toNat := by
    intro i j
    rw [UInt32.toNat_mul, Nat.dvd_mod_iff (by decide)]
    exact Dvd.dvd.mul_right (dvd_layoutOffset e i) _
  have hspots : ∀ i j, ∀ spot ∈ e.spotsOf j i, spot.nandOffset = e.layoutOffset i * j := by
    intro i j spot hspot
    unfold spotsOf at hspot
    dsimp only at hspot
    split_ifs at hspot
    · rw [List.mem_singleton.mp hspot]
    · rcases List.mem_cons.mp hspot with rfl | hspot
      · rfl
      · rw [List.mem_singleton.mp hspot]
  obtain ⟨i, j, hi⟩ : ∃ i j, spot ∈ e.spotsOf j i := by
    unfold spots at h
    split_ifs at h
    · exact ⟨0, 0, h⟩
    · rcases List.mem_append.mp h with h | h
      · obtain ⟨i, -, hi⟩ := List.mem_flatMap.mp h
        exact ⟨i, j, hi⟩
      · exact ⟨0, 0, h⟩
  rw [hspots i j spot hi]
  exact hproduct i j

theorem layoutOffset_mul {i : Fin 3} {j : UInt32}
    (h : e.layoutDistance i * j.toNat + e.roundedMinsize.toNat ≤ e.fatStart.toNat) :
    (e.layoutOffset i * j).toNat = e.layoutDistance i * j.toNat := by
  have hfat := e.fatStart.toNat_lt
  rcases Nat.eq_zero_or_pos j.toNat with hj | hj
  · rw [UInt32.toNat_mul, hj]
    rfl
  have hle : e.layoutDistance i ≤ e.layoutDistance i * j.toNat := Nat.le_mul_of_pos_right _ hj
  have hsame : (e.layoutOffset i).toNat = e.layoutDistance i := by
    have hlt : e.layoutDistance i < 2 ^ 32 := by omega
    clear h hle
    match i with
    | 0 => rfl
    | 1 =>
      show (roundTo4MB (e.nandSize + 1)).toNat = _
      have hdistance : (e.nandSize.toNat + 1 + 0x1FFF) / 0x2000 * 0x2000 < 2 ^ 32 := hlt
      have hsize := e.nandSize.toNat_lt
      have hsum : (e.nandSize + 1 + 0x2000 - 1).toNat = e.nandSize.toNat + 1 + 0x1FFF := by
        rw [UInt32.toNat_sub, UInt32.toNat_add, UInt32.toNat_add]
        show (4294967296 - 1 + ((e.nandSize.toNat + 1) % 4294967296 + 0x2000) % 4294967296) %
          4294967296 = _
        omega
      rw [toNat_roundTo4MB, hsum]
      rfl
    | 2 => rfl
  rw [UInt32.toNat_mul, hsame, Nat.mod_eq_of_lt (by omega)]

theorem exists_accepted {i : Fin 3} {j : UInt32} (h : e.Holds i j) :
    ∃ spot ∈ e.spotsOf j i, e.accepts spot = true := by
  obtain ⟨hroom, s, hs, hplace⟩ := h
  have hoffset := layoutOffset_mul hroom
  have hfat := e.fatStart.toNat_lt
  have hfits : decide (e.fatStart ≥ e.layoutOffset i * j + e.roundedMinsize) = true := by
    refine decide_eq_true (UInt32.le_iff_toNat_le.mpr ?_)
    rw [UInt32.toNat_add, hoffset, Nat.mod_eq_of_lt (by omega)]
    exact hroom
  have hsector : ∀ x : UInt32, s.toNat = e.layoutDistance i * j.toNat + x.toNat →
      s = e.layoutOffset i * j + x := by
    intro x hx
    apply UInt32.toNat_inj.mp
    rw [UInt32.toNat_add, hoffset, ← hx, Nat.mod_eq_of_lt s.toNat_lt]
  unfold spotsOf
  dsimp only
  rcases hplace with hplace | ⟨hi, hplace⟩
  · refine ⟨⟨e.layoutOffset i * j, false⟩, ?_, ?_⟩
    · split_ifs <;> exact List.mem_cons_self
    · show (decide _ && e.hasNcsd (e.layoutOffset i * j + 1)) = true
      rw [← hsector 1 hplace, hs, Bool.and_true]
      exact hfits
  · refine ⟨⟨e.layoutOffset i * j, true⟩, ?_, ?_⟩
    · rw [if_neg hi]
      exact List.mem_cons_of_mem _ List.mem_cons_self
    · show (decide _ && e.hasNcsd (e.layoutOffset i * j + e.nandSize)) = true
      rw [← hsector e.nandSize hplace, hs, Bool.and_true]
      exact hfits

theorem spotsOf_zero_subset (e : EmuNandCard) (i : Fin 3) : e.spotsOf 0 i ⊆ e.spotsOf 0 0 := by
  have hzero : ∀ i, e.layoutOffset i * 0 = 0 := fun i => UInt32.mul_zero
  intro spot hspot
  unfold spotsOf at hspot ⊢
  dsimp only at hspot ⊢
  rw [hzero] at hspot ⊢
  rw [if_neg (by decide)]
  split_ifs at hspot
  · rw [List.mem_singleton.mp hspot]
    exact List.mem_cons_self
  · exact hspot

theorem not_holds (h : (e.spots j).find? e.accepts = none) (i : Fin 3) :
    ¬e.Holds i j ∧ ¬e.Holds i 0 := by
  have hnone := List.find?_eq_none.mp h
  have hfirst : ∀ spot ∈ e.spotsOf 0 0, spot ∈ e.spots j := by
    intro spot hspot
    unfold spots
    split_ifs
    · exact hspot
    · exact List.mem_append_right _ hspot
  have hindex : ∀ spot ∈ e.spotsOf j i, spot ∈ e.spots j := by
    intro spot hspot
    by_cases hj : j = 0
    · rw [hj] at hspot
      exact hfirst spot (spotsOf_zero_subset e i hspot)
    · unfold spots
      rw [if_neg hj]
      refine List.mem_append_left _ (List.mem_flatMap.mpr ⟨i, ?_, hspot⟩)
      match i with
      | 0 => decide
      | 1 => decide
      | 2 => decide
  constructor
  · intro hholds
    obtain ⟨spot, hspot, haccepts⟩ := exists_accepted hholds
    exact hnone spot (hindex spot hspot) haccepts
  · intro hholds
    obtain ⟨spot, hspot, haccepts⟩ := exists_accepted hholds
    exact hnone spot (hfirst spot (spotsOf_zero_subset e i hspot)) haccepts

/-! ## The location -/

theorem fits_iff {spot : EmuNandSpot} (hdvd : 0x2000 ∣ spot.nandOffset.toNat)
    (haccepts : e.accepts spot = true) : e.Fits spot ↔
      (∃ s, e.hasNcsd s = true ∧
        s.toNat = (e.reported spot).1.toNat + (e.reported spot).2.toNat ∧ s < e.fatStart) ∧
      (e.reported spot).1.toNat / 0x2000 * 0x2000 + e.roundedMinsize.toNat ≤ e.fatStart.toNat := by
  obtain ⟨offset, gateway⟩ := spot
  obtain ⟨hroom, hheader⟩ := Bool.and_eq_true_iff.mp haccepts
  replace hroom : (offset.toNat + e.roundedMinsize.toNat) % 2 ^ 32 ≤ e.fatStart.toNat := by
    rw [← UInt32.toNat_add]
    exact UInt32.le_iff_toNat_le.mp (of_decide_eq_true hroom)
  replace hdvd : 0x2000 ∣ offset.toNat := hdvd
  have hfat := e.fatStart.toNat_lt
  have hoffset := offset.toNat_lt
  have hmin : 2 ≤ e.roundedMinsize.toNat := by
    unfold roundedMinsize
    split_ifs <;> decide
  show offset.toNat + e.roundedMinsize.toNat < 2 ^ 32 ∧ _ ↔ _
  cases gateway with
  | false =>
    have hnext : (offset + 1).toNat = offset.toNat + 1 := by
      rw [UInt32.toNat_add]
      show (offset.toNat + 1) % 2 ^ 32 = _
      omega
    show _ ∧ (false = true → _) ↔ (∃ s, e.hasNcsd s = true ∧ s.toNat = (offset + 1).toNat + 0 ∧
      s < e.fatStart) ∧ (offset + 1).toNat / 0x2000 * 0x2000 + _ ≤ _
    rw [hnext]
    constructor
    · rintro ⟨hfits, -⟩
      refine ⟨⟨offset + 1, hheader, hnext, UInt32.lt_iff_toNat_lt.mpr ?_⟩, ?_⟩
      · rw [hnext]
        omega
      · omega
    · rintro ⟨-, hfits⟩
      exact ⟨by omega, fun hfalse => absurd hfalse Bool.false_ne_true⟩
  | true =>
    show _ ∧ (true = true → offset.toNat + e.nandSize.toNat < _) ↔
      (∃ s, e.hasNcsd s = true ∧ s.toNat = offset.toNat + e.nandSize.toNat ∧ s < e.fatStart) ∧
        offset.toNat / 0x2000 * 0x2000 + _ ≤ _
    constructor
    · rintro ⟨hfits, hbefore⟩
      have hsum : (offset + e.nandSize).toNat = offset.toNat + e.nandSize.toNat := by
        rw [UInt32.toNat_add, Nat.mod_eq_of_lt ((hbefore rfl).trans hfat)]
      refine ⟨⟨offset + e.nandSize, hheader, hsum, UInt32.lt_iff_toNat_lt.mpr ?_⟩, by omega⟩
      rw [hsum]
      exact hbefore rfl
    · rintro ⟨⟨s, -, hs, hlt⟩, hfits⟩
      refine ⟨by omega, fun _ => ?_⟩
      rw [← hs]
      exact UInt32.lt_iff_toNat_lt.mp hlt

/-- The location is right if the place that is chosen fits. -/
theorem locateEmuNand_iff (e : EmuNandCard) (emunandIndex emuOffset emuHeader : UInt32) :
    (∀ configure, Locates e emunandIndex configure
      (locateEmuNand e ⟨.emunand, emunandIndex, emuOffset, emuHeader⟩ configure)) ↔
    ∀ spot, (e.spots emunandIndex).find? e.accepts = some spot → e.Fits spot := by
  generalize hl : EmuNandLocation.mk .emunand emunandIndex emuOffset emuHeader = l
  have hindex : l.emunandIndex = emunandIndex := by rw [← hl]
  have htype : l.nandType = .emunand := by rw [← hl]
  rw [← hindex]
  constructor
  · intro h spot hspot
    have hat := @locateEmuNand_some e l true spot hspot
    have hemunand := hat.nandType.trans htype
    have hreported := hat.reported rfl
    obtain ⟨haccepts, as, bs, hmem, -⟩ := List.find?_eq_some_iff_append.mp hspot
    have hspots : spot ∈ e.spots l.emunandIndex := by
      rw [hmem]
      exact List.mem_append_right as List.mem_cons_self
    rw [fits_iff (dvd_of_mem_spots hspots) haccepts, ← hreported.1, ← hreported.2]
    exact ⟨(h true).header hemunand rfl, (h true).room hemunand rfl⟩
  · intro h configure
    cases hspot : (e.spots l.emunandIndex).find? e.accepts with
    | none =>
      have hnot : (locateEmuNand e l configure).nandType ≠ .emunand := by
        rw [locateEmuNand_none hspot]
        exact FirmwareSource.noConfusion
      exact ⟨fun _ => not_holds hspot, fun heq => absurd heq hnot, fun heq => absurd heq hnot,
        fun heq => absurd heq hnot⟩
    | some spot =>
      have hat := @locateEmuNand_some e l configure spot hspot
      have hemunand := hat.nandType.trans htype
      obtain ⟨haccepts, as, bs, hmem, -⟩ := List.find?_eq_some_iff_append.mp hspot
      have hspots : spot ∈ e.spots l.emunandIndex := by
        rw [hmem]
        exact List.mem_append_right as List.mem_cons_self
      obtain ⟨hheader, hroom⟩ := (fits_iff (dvd_of_mem_spots hspots) haccepts).mp (h spot hspot)
      refine ⟨fun heq => ?_, fun _ => hat.index, fun _ hconfigure => ?_, fun _ hconfigure => ?_⟩
      · rw [hemunand] at heq
        exact absurd heq FirmwareSource.noConfusion
      · have hreported := hat.reported hconfigure
        rw [hreported.1, hreported.2]
        exact hheader
      · have hreported := hat.reported hconfigure
        rw [hreported.1]
        exact hroom

/-- The header of a Gateway EmuNAND of the full size of the NAND, in a FAT partition that starts
behind the minimum size. -/
def headerInPartition : EmuNandCard where
  isN3ds := false
  nandSize := 0x1DD000
  fatStart := 0x1D8000
  readsectors sector :=
    if sector = 0x1DD000 then some (List.replicate 0x100 0 ++ [0x4E, 0x43, 0x53, 0x44]) else none

theorem header_behind_fatStart :
    ¬Locates headerInPartition 0 true
      (locateEmuNand headerInPartition ⟨.emunand, 0, 0, 0⟩ true) := by
  intro h
  have hat : LocatedAt headerInPartition ⟨.emunand, 0, 0, 0⟩ true ⟨0, true⟩
      (locateEmuNand headerInPartition ⟨.emunand, 0, 0, 0⟩ true) :=
    locateEmuNand_some (by decide +kernel)
  obtain ⟨s, -, hs, hlt⟩ := h.header hat.nandType rfl
  rw [(hat.reported rfl).1, (hat.reported rfl).2] at hs
  have hlt := UInt32.lt_iff_toNat_lt.mp hlt
  rw [hs] at hlt
  exact absurd hlt (by decide)

end Presence3DS.Arm9
