import Mathlib.Algebra.Order.BigOperators.Group.List
import Mathlib.Algebra.Order.Ring.Int
import Mathlib.Algebra.Order.Ring.Nat
import Mathlib.Data.List.TakeWhile
import Mathlib.Order.CompletePartialOrder
import Mathlib.Order.Fin.Basic
import Mathlib.Order.Interval.Set.Disjoint

/-! The validation of a FIRM that has been loaded to memory (`firm.c`). -/

namespace Presence3DS.Arm9

abbrev Word := BitVec 32

abbrev Memory := Word → UInt8

/-- The SHA engine. -/
abbrev Sha256 := List UInt8 → List UInt8

/-- The address that a FIRM is loaded to. -/
def firm : Word := 0x20001000

def bytes (m : Memory) (start : Word) (size : ℕ) : List UInt8 :=
  (List.range size).map fun k => m (start + BitVec.ofNat 32 k)

def word (m : Memory) (address : Word) : Word :=
  (m (address + 3)).toBitVec ++ (m (address + 2)).toBitVec ++
    (m (address + 1)).toBitVec ++ (m address).toBitVec

structure FirmSection where
  offset : Word
  address : Word
  size : Word
  hash : List UInt8

def firmSection (m : Memory) (i : ℕ) : FirmSection :=
  let base := firm + 0x40 + 0x30 * BitVec.ofNat 32 i
  { offset := word m base
    address := word m (base + 4)
    size := word m (base + 8)
    hash := bytes m (base + 0x10) 0x20 }

def sections (m : Memory) : List FirmSection := (List.range 4).map (firmSection m)

def arm11Entry (m : Memory) : Word := word m (firm + 8)

def arm9Entry (m : Memory) : Word := word m (firm + 0xC)

def overlaps (as ae bs be : Word) : Bool :=
  if as ≤ bs ∧ bs ≤ ae then true
  else if bs ≤ as ∧ as ≤ be then true
  else false

def inRange (as ae bs be : Word) : Bool := if as ≥ bs ∧ ae ≤ be then true else false

/-- Where the sections of a FIRM may go. -/
def regions : List (Word × Word) :=
  [(0x08000000, 0x08000000 + 0x00100000), (0x18000000, 0x18000000 + 0x00600000),
    (0x1FF00000, 0x1FFFFC00), (0x20000000, 0x20000000 + 0x8000000)]

/-- The test of a section that is not empty, but for its hash. -/
def rejects (size : Word) (s : FirmSection) : Bool :=
  s.offset < 0x200 || s.address + s.size < s.address ||
    s.address &&& 3 ≠ 0 || s.offset &&& 0x1FF ≠ 0 || s.size &&& 0x1FF ≠ 0 ||
    overlaps s.address (s.address + s.size) firm (firm + size) ||
    regions.all fun region => !inRange s.address (s.address + s.size) region.1 region.2

def FirmSection.holds (s : FirmSection) (entry : Word) : Bool :=
  s.address ≤ entry && entry < s.address + s.size

/-- The loop over the sections, with `arm9EpFound` and `arm11EpFound`. -/
def checkSections (sha : Sha256) (m : Memory) (size : Word) :
    List FirmSection → Bool × Bool → Option (Bool × Bool)
  | [], found => some found
  | s :: rest, found =>
    if s.size = 0 then checkSections sha m size rest found
    else if rejects size s then none
    else if sha (bytes m (firm + s.offset) s.size.toNat) ≠ s.hash then none
    else checkSections sha m size rest
      (found.1 || s.holds (arm9Entry m), found.2 || s.holds (arm11Entry m))

def checkFirm (sha : Sha256) (m : Memory) (firmSize : Word) : Bool :=
  if bytes m firm 4 ≠ [0x46, 0x49, 0x52, 0x4D] ∨ arm9Entry m = 0 then false
  else
    let size := (sections m).foldl (fun size s => size + s.size) 0x200
    if firmSize < size then false
    else
      match checkSections sha m size (sections m) (false, false) with
      | none => false
      | some (arm9EpFound, arm11EpFound) => arm9EpFound && (arm11Entry m = 0 || arm11EpFound)

/-! ## What a FIRM that passes is like -/

namespace FirmSection

/-- The bytes of the FIRM that the section is copied from. -/
def source (s : FirmSection) : Set ℕ :=
  Set.Ico s.offset.toNat (s.offset.toNat + s.size.toNat)

/-- The addresses that the section is copied to. -/
def destination (s : FirmSection) : Set ℕ :=
  Set.Ico s.address.toNat (s.address.toNat + s.size.toNat)

end FirmSection

def region (r : Word × Word) : Set ℕ := Set.Ico r.1.toNat r.2.toNat

/-- The first bytes of what has been loaded. -/
def image (size : ℕ) : Set ℕ := Set.Ico firm.toNat (firm.toNat + size)

/-- Each section that is not empty lies in what has been loaded, goes to memory where it meets
neither that nor another section, and has its hash; the entry points lie in sections. -/
structure FirmLaw (sha : Sha256) (m : Memory) (firmSize : Word) : Prop where
  loaded : ∀ s ∈ sections m, s.size ≠ 0 → s.source ⊆ Set.Ico 0 firmSize.toNat
  allowed : ∀ s ∈ sections m, s.size ≠ 0 → ∃ r ∈ regions, s.destination ⊆ region r
  apart : ∀ s ∈ sections m, s.size ≠ 0 → Disjoint s.destination (image firmSize.toNat)
  others : (sections m).Pairwise fun s s' =>
    s.size ≠ 0 → s'.size ≠ 0 → Disjoint s.destination s'.destination
  hash : ∀ s ∈ sections m, s.size ≠ 0 →
    sha (bytes m (firm + s.offset) s.size.toNat) = s.hash
  arm9 : ∃ s ∈ sections m, s.size ≠ 0 ∧ (arm9Entry m).toNat ∈ s.destination
  arm11 : arm11Entry m ≠ 0 → ∃ s ∈ sections m, s.size ≠ 0 ∧ (arm11Entry m).toNat ∈ s.destination

/-- The sections and the header have room in what has been loaded. -/
structure CheckedFirm (sha : Sha256) (m : Memory) (firmSize : Word) : Prop where
  fits : 0x200 + ((sections m).map fun s => s.size.toNat).sum ≤ firmSize.toNat
  past : ∀ s ∈ sections m, s.size ≠ 0 → 0x200 ≤ s.offset.toNat
  allowed : ∀ s ∈ sections m, s.size ≠ 0 → ∃ r ∈ regions, s.destination ⊆ region r
  apart : ∀ s ∈ sections m, s.size ≠ 0 →
    Disjoint s.destination (image (0x200 + ((sections m).map fun s => s.size.toNat).sum))
  hash : ∀ s ∈ sections m, s.size ≠ 0 →
    sha (bytes m (firm + s.offset) s.size.toNat) = s.hash
  arm9 : ∃ s ∈ sections m, s.size ≠ 0 ∧ (arm9Entry m).toNat ∈ s.destination
  arm11 : arm11Entry m ≠ 0 → ∃ s ∈ sections m, s.size ≠ 0 ∧ (arm11Entry m).toNat ∈ s.destination

section Check
variable {sha : Sha256} {m : Memory} {size firmSize : Word} {s : FirmSection}

theorem checkSections_cases {l : List FirmSection} {found found' : Bool × Bool}
    (h : checkSections sha m size l found = some found') :
    (∀ s ∈ l, s.size ≠ 0 → rejects size s = false ∧
      sha (bytes m (firm + s.offset) s.size.toNat) = s.hash) ∧
    (found'.1 = true → found.1 = true ∨
      ∃ s ∈ l, s.size ≠ 0 ∧ s.holds (arm9Entry m) = true) ∧
    (found'.2 = true → found.2 = true ∨
      ∃ s ∈ l, s.size ≠ 0 ∧ s.holds (arm11Entry m) = true) := by
  induction l generalizing found with
  | nil =>
    cases h
    exact ⟨fun s hs => absurd hs List.not_mem_nil, .inl, .inl⟩
  | cons s rest ih =>
    have hlater : ∀ {entry : Word}, (∃ s' ∈ rest, s'.size ≠ 0 ∧ s'.holds entry = true) →
        ∃ s' ∈ s :: rest, s'.size ≠ 0 ∧ s'.holds entry = true := by
      rintro entry ⟨s', hs', hholds⟩
      exact ⟨s', List.mem_cons_of_mem _ hs', hholds⟩
    rw [checkSections] at h
    split_ifs at h with hempty hreject hhash
    · obtain ⟨hall, harm9, harm11⟩ := ih h
      refine ⟨?_, fun h9 => (harm9 h9).imp_right hlater, fun h11 => (harm11 h11).imp_right hlater⟩
      intro s' hs' hne
      rcases List.mem_cons.mp hs' with rfl | hs'
      · exact absurd hempty hne
      · exact hall s' hs' hne
    · obtain ⟨hall, harm9, harm11⟩ := ih h
      have hfound : ∀ {before : Bool} {entry : Word}, (before || s.holds entry) = true →
          before = true ∨ ∃ s' ∈ s :: rest, s'.size ≠ 0 ∧ s'.holds entry = true := by
        intro before entry hor
        rcases Bool.or_eq_true_iff.mp hor with hbefore | hholds
        · exact .inl hbefore
        · exact .inr ⟨s, List.mem_cons_self, hempty, hholds⟩
      refine ⟨?_, fun h9 => ?_, fun h11 => ?_⟩
      · intro s' hs' hne
        rcases List.mem_cons.mp hs' with rfl | hs'
        · exact ⟨Bool.not_eq_true _ ▸ hreject, not_not.mp hhash⟩
        · exact hall s' hs' hne
      · rcases harm9 h9 with hbefore | hrest
        · exact hfound hbefore
        · exact .inr (hlater hrest)
      · rcases harm11 h11 with hbefore | hrest
        · exact hfound hbefore
        · exact .inr (hlater hrest)

theorem toNat_add_of_le {a b : Word} (h : ¬a + b < a) : (a + b).toNat = a.toNat + b.toNat := by
  rw [BitVec.lt_def, BitVec.toNat_add] at h
  rw [BitVec.toNat_add]
  have ha := a.isLt
  have hb := b.isLt
  omega

theorem of_overlaps_false {as ae bs be : Word} (hb : bs ≤ be)
    (h : overlaps as ae bs be = false) :
    Disjoint (Set.Ico as.toNat ae.toNat) (Set.Ico bs.toNat be.toNat) := by
  unfold overlaps at h
  split_ifs at h with hfirst hsecond
  rw [BitVec.le_def] at hb
  simp only [BitVec.le_def, not_and, not_le] at hfirst hsecond
  rw [Set.Ico_disjoint_Ico]
  omega

theorem regions_size : ∀ r ∈ regions, r.2.toNat ≤ r.1.toNat + 0x8000000 := by
  simp only [regions, List.forall_mem_cons]
  exact ⟨by decide, by decide, by decide, by decide, fun r hr => (List.not_mem_nil hr).elim⟩

theorem inRange_region {s : FirmSection} {r : Word × Word}
    (hsum : (s.address + s.size).toNat = s.address.toNat + s.size.toNat)
    (h : inRange s.address (s.address + s.size) r.1 r.2 = true) :
    s.destination ⊆ region r ∧ (r.2.toNat ≤ r.1.toNat + 0x8000000 →
      s.size.toNat ≤ 0x8000000) := by
  unfold inRange at h
  split_ifs at h with hrange
  obtain ⟨hstart, hstop⟩ := hrange
  rw [ge_iff_le, BitVec.le_def] at hstart
  rw [BitVec.le_def, hsum] at hstop
  exact ⟨Set.Ico_subset_Ico hstart hstop, by omega⟩

theorem of_not_rejects (h : rejects size s = false) :
    0x200 ≤ s.offset.toNat ∧
      (s.address + s.size).toNat = s.address.toNat + s.size.toNat ∧
      (∃ r ∈ regions, s.destination ⊆ region r) ∧ s.size.toNat ≤ 0x8000000 ∧
      overlaps s.address (s.address + s.size) firm (firm + size) = false := by
  simp only [rejects, Bool.or_eq_false_iff, decide_eq_false_iff_not] at h
  obtain ⟨⟨⟨⟨⟨⟨hoffset, hwrap⟩, -⟩, -⟩, -⟩, hoverlaps⟩, hregions⟩ := h
  have hsum := toNat_add_of_le hwrap
  obtain ⟨r, hr, hin⟩ := List.all_eq_false.mp hregions
  obtain ⟨hsub, hsize⟩ := inRange_region hsum (by simpa using hin)
  rw [BitVec.not_lt, BitVec.le_def] at hoffset
  exact ⟨hoffset, hsum, ⟨r, hr, hsub⟩, hsize (regions_size r hr), hoverlaps⟩

theorem foldl_size (l : List FirmSection) (start : Word)
    (h : start.toNat + (l.map fun s => s.size.toNat).sum < 2 ^ 32) :
    (l.foldl (fun size s => size + s.size) start).toNat =
      start.toNat + (l.map fun s => s.size.toNat).sum := by
  induction l generalizing start with
  | nil => rfl
  | cons s rest ih =>
    rw [List.map_cons, List.sum_cons, ← Nat.add_assoc] at h ⊢
    have hadd : (start + s.size).toNat = start.toNat + s.size.toNat := by
      rw [BitVec.toNat_add]
      exact Nat.mod_eq_of_lt (lt_of_le_of_lt (Nat.le_add_right _ _) h)
    rw [← hadd] at h ⊢
    exact ih _ h

theorem mem_destination {entry : Word}
    (hsum : (s.address + s.size).toNat = s.address.toNat + s.size.toNat)
    (h : s.holds entry = true) : entry.toNat ∈ s.destination := by
  rw [FirmSection.holds, Bool.and_eq_true, decide_eq_true_eq, decide_eq_true_eq, BitVec.le_def,
    BitVec.lt_def, hsum] at h
  exact h

end Check

/-- A FIRM that passes has room for its header and sections in what has been loaded; each section
that is not empty lies past the header, goes to allowed memory away from as many bytes of the image,
and has its hash; the entry points lie in sections. -/
theorem checkFirm_sound (sha : Sha256) (m : Memory) (firmSize : Word)
    (h : checkFirm sha m firmSize = true) : CheckedFirm sha m firmSize := by
  unfold checkFirm at h
  simp only at h
  split_ifs at h with hmagic hsize
  split at h
  · cases h
  · rename_i arm9EpFound arm11EpFound hcheck
    obtain ⟨hall, harm9, harm11⟩ := checkSections_cases hcheck
    rw [Bool.and_eq_true, Bool.or_eq_true] at h
    have hfacts : ∀ s ∈ sections m, s.size ≠ 0 → _ :=
      fun s hs hne => of_not_rejects (hall s hs hne).1
    -- Each section has at most the size of a region, so the sum of the sizes does not wrap.
    have hbound : ((sections m).map fun s => s.size.toNat).sum ≤ 4 * 0x8000000 := by
      have hle : ∀ x ∈ (sections m).map fun s => s.size.toNat, x ≤ 0x8000000 := by
        intro x hx
        obtain ⟨s, hs, rfl⟩ := List.mem_map.mp hx
        by_cases hempty : s.size = 0
        · rw [hempty]
          exact Nat.zero_le _
        · exact (hfacts s hs hempty).2.2.2.1
      have hsum := List.sum_le_card_nsmul _ _ hle
      rw [List.length_map] at hsum
      exact hsum
    have hstart : (0x200 : Word).toNat = 0x200 := rfl
    have hfold := foldl_size (sections m) 0x200 (by omega)
    rw [hstart] at hfold
    rw [BitVec.not_lt, BitVec.le_def, hfold] at hsize
    have hentry : ∀ {entry : Word}, (∃ s ∈ sections m, s.size ≠ 0 ∧ s.holds entry = true) →
        ∃ s ∈ sections m, s.size ≠ 0 ∧ entry.toNat ∈ s.destination := by
      rintro entry ⟨s, hs, hne, hholds⟩
      exact ⟨s, hs, hne, mem_destination (hfacts s hs hne).2.1 hholds⟩
    refine ⟨hsize, fun s hs hne => (hfacts s hs hne).1, fun s hs hne => (hfacts s hs hne).2.2.1,
      ?_, fun s hs hne => (hall s hs hne).2, ?_, ?_⟩
    · intro s hs hne
      obtain ⟨-, hsum, -, -, hoverlaps⟩ := hfacts s hs hne
      have hend : (firm + (sections m).foldl (fun size s => size + s.size) 0x200).toNat =
          firm.toNat + (0x200 + ((sections m).map fun s => s.size.toNat).sum) := by
        have hfirm : firm.toNat = 0x20001000 := rfl
        rw [BitVec.toNat_add, hfold, Nat.mod_eq_of_lt (by omega)]
      have hdisjoint := of_overlaps_false ?_ hoverlaps
      · rw [hsum, hend] at hdisjoint
        exact hdisjoint
      · rw [BitVec.le_def, hend]
        exact Nat.le_add_right _ _
    · exact hentry ((harm9 h.1).resolve_left Bool.false_ne_true)
    · intro hne
      have hfound := h.2.resolve_left (by simpa using hne)
      exact hentry ((harm11 hfound).resolve_left Bool.false_ne_true)

/-- The bytes of a word, the lowest first. -/
def littleEndian (w : Word) : List UInt8 :=
  (List.range 4).map fun k => ⟨(w >>> (8 * k)).setWidth 8⟩

/-- The header of a section of 0x200 zeros, which are next in the FIRM. -/
def zeroSection (address : Word) : List UInt8 :=
  littleEndian 0x200 ++ littleEndian address ++ littleEndian 0x200 ++ littleEndian 0 ++
    [0x07, 0x6A, 0x27, 0xC7, 0x9E, 0x5A, 0xCE, 0x2A, 0x3D, 0x47, 0xF9, 0xDD, 0x2E, 0x83, 0xE4, 0xFF,
     0x6E, 0xA8, 0x87, 0x2B, 0x3C, 0x22, 0x18, 0xF6, 0x6C, 0x92, 0xB8, 0x9B, 0x55, 0xF3, 0x65, 0x60]

/-- A FIRM whose first two sections go to one address. -/
def twinFirm : Memory := fun address =>
  ([0x46, 0x49, 0x52, 0x4D] ++ littleEndian 0 ++ littleEndian 0 ++ littleEndian 0x08000000 ++
    List.replicate 0x30 0 ++ zeroSection 0x08000000 ++ zeroSection 0x08000000).getD
      (address - firm).toNat 0

/-- The digest of 0x200 zeros. -/
def zeroSha : Sha256 := fun _ => (zeroSection 0).drop 0x10

theorem twinFirm_checked : CheckedFirm zeroSha twinFirm 0x600 :=
  checkFirm_sound zeroSha twinFirm 0x600 (by decide +kernel)

theorem twinFirm_overlaps : ¬∀ sha m firmSize,
    checkFirm sha m firmSize = true → FirmLaw sha m firmSize := by
  intro h
  have hlaw := h zeroSha twinFirm 0x600 (by decide +kernel)
  have htwins := List.pairwise_cons.mp hlaw.others
  have hfirst : (firmSection twinFirm 0).address = 0x08000000 ∧
      (firmSection twinFirm 0).size = 0x200 := by decide +kernel
  have hsecond : (firmSection twinFirm 1).address = 0x08000000 ∧
      (firmSection twinFirm 1).size = 0x200 := by decide +kernel
  have hdisjoint := htwins.1 (firmSection twinFirm 1) List.mem_cons_self
    (by rw [hfirst.2]; decide) (by rw [hsecond.2]; decide)
  rw [FirmSection.destination, FirmSection.destination, hfirst.1, hfirst.2, hsecond.1, hsecond.2,
    Set.Ico_disjoint_Ico] at hdisjoint
  exact absurd hdisjoint (by decide)

end Presence3DS.Arm9
