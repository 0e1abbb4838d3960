import Presence3DS.Discord.CustomRpc

/-! Which bytes the reads of `read_memory.c` touch of the window that shows the running title. -/

namespace Presence3DS.Discord

/-- The bytes of a value. -/
def AddressType.width : AddressType → ℕ
  | .b => 1
  | .h => 2
  | .w => 4

/-- The value at an address, and the addresses that it is read from. -/
def Memory.readNoted (m : Memory) (p : MappedPage) (a : UInt32) (count : ℕ) : ℕ × List UInt32 :=
  (m.read p a count, (List.range count).map fun i => a + UInt32.ofNat i)

/-- `CustomRPC_ReadByte`, `CustomRPC_ReadHalfWord` and `CustomRPC_ReadWord`, with the addresses. -/
def customRpcReadNoted (m : Memory) (p : MappedPage) (address : UInt32) :
    AddressType → ℕ × List UInt32
  | .b =>
    if !p.isMapped then (0, [])
    else if p.size ≤ address - p.pageStart then (0, [])
    else m.readNoted p (destAddr + (address - p.pageStart)) 1
  | type =>
    if !p.isMapped then (0, [])
    else if p.size < address - p.pageStart + UInt32.ofNat type.width then (0, [])
    else m.readNoted p (destAddr + (address - p.pageStart)) type.width

variable (m : Memory) (p : MappedPage) (address : UInt32)

/-- Every byte of the value is one of the mapping, which shows the bytes from `pageStart` on. -/
def MappedPage.Holds (count : ℕ) : Prop :=
  p.isMapped = true ∧ ∀ i < count, address + UInt32.ofNat i - p.pageStart < p.size

/-- The read stays in the window of the mapping, and is 0 where the value is not wholly in it. -/
def Contained (type : AddressType) : Prop :=
  (∀ a ∈ (customRpcReadNoted m p address type).2, a - destAddr < p.size) ∧
  (¬p.Holds address type.width → (customRpcReadNoted m p address type).1 = 0)

/-- The end of the value, as an offset into the mapping, wraps and is not behind its end then. -/
def MappedPage.wraps (type : AddressType) : Bool :=
  let stop := (address - p.pageStart).toNat + type.width
  p.isMapped && type ≠ .b && decide (2 ^ 32 ≤ stop) && decide (stop - 2 ^ 32 ≤ p.size.toNat)

theorem offsets_lt_iff (o size : UInt32) {count : ℕ} (hpos : 0 < count) (hcount : count ≤ 4) :
    (∀ i < count, o + UInt32.ofNat i < size) ↔ o.toNat + count ≤ size.toNat := by
  have hsize := size.toNat_lt
  have ho := o.toNat_lt
  have hoffset : ∀ i < count, o.toNat + i < 2 ^ 32 →
      (o + UInt32.ofNat i).toNat = o.toNat + i := by
    intro i hi hlt
    rw [UInt32.toNat_add, UInt32.toNat_ofNat_of_lt' (show i < 2 ^ 32 by omega),
      Nat.mod_eq_of_lt hlt]
  constructor
  · intro h
    by_contra hlt
    -- one of the bytes is the one behind the bound, or the last one of the address space
    obtain ⟨i, hi, hplace, hbound⟩ : ∃ i < count, o.toNat + i < 2 ^ 32 ∧
        size.toNat ≤ o.toNat + i := by
      rcases Nat.lt_or_ge (o.toNat + (count - 1)) (2 ^ 32) with hlast | hlast
      · exact ⟨count - 1, by omega, hlast, by omega⟩
      · exact ⟨2 ^ 32 - 1 - o.toNat, by omega, by omega, by omega⟩
    have hhere := UInt32.lt_iff_toNat_lt.mp (h i hi)
    rw [hoffset i hi hplace] at hhere
    omega
  · intro h i hi
    rw [UInt32.lt_iff_toNat_lt, hoffset i hi (by omega)]
    omega

theorem AddressType.width_pos (type : AddressType) : 0 < type.width ∧ type.width ≤ 4 := by
  cases type <;> decide

theorem holds_iff (type : AddressType) : p.Holds address type.width ↔
    p.isMapped = true ∧ (address - p.pageStart).toNat + type.width ≤ p.size.toNat := by
  obtain ⟨hpos, hle⟩ := type.width_pos
  rw [← offsets_lt_iff _ _ hpos hle, MappedPage.Holds]
  have hplace : ∀ i, address + UInt32.ofNat i - p.pageStart =
      address - p.pageStart + UInt32.ofNat i := by
    intro i
    rw [UInt32.sub_eq_add_neg, UInt32.sub_eq_add_neg, UInt32.add_assoc, UInt32.add_assoc,
      UInt32.add_comm (UInt32.ofNat i)]
  simp only [hplace]

theorem readNoted_contained_iff (o : UInt32) {count : ℕ} (hpos : 0 < count) (hcount : count ≤ 4) :
    (∀ a ∈ (m.readNoted p (destAddr + o) count).2, a - destAddr < p.size) ↔
      o.toNat + count ≤ p.size.toNat := by
  rw [← offsets_lt_iff _ _ hpos hcount, Memory.readNoted]
  have hplace : ∀ i, destAddr + o + UInt32.ofNat i - destAddr = o + UInt32.ofNat i := by
    intro i
    rw [UInt32.add_assoc, UInt32.add_comm destAddr, UInt32.add_sub_cancel]
  simp only [List.forall_mem_map, List.mem_range, hplace]

theorem contained_b : Contained m p address .b := by
  rw [Contained, holds_iff]
  unfold customRpcReadNoted
  split_ifs with hmapped hbehind
  · exact ⟨fun a ha => absurd ha List.not_mem_nil, fun _ => rfl⟩
  · exact ⟨fun a ha => absurd ha List.not_mem_nil, fun _ => rfl⟩
  · have hmapped : p.isMapped = true := by simpa using hmapped
    have hinside : (address - p.pageStart).toNat + 1 ≤ p.size.toNat := by
      rw [UInt32.not_le, UInt32.lt_iff_toNat_lt] at hbehind
      exact hbehind
    refine ⟨(readNoted_contained_iff m p _ (by decide) (by decide)).mpr hinside, fun hout => ?_⟩
    exact absurd ⟨hmapped, hinside⟩ hout

/-- A read stays in the window, and is 0 where the value does not, if and only if the end of the
value does not wrap. -/
theorem contained_iff (type : AddressType) :
    Contained m p address type ↔ p.wraps address type = false := by
  by_cases htype : type = .b
  · subst htype
    refine iff_of_true (contained_b m p address) ?_
    simp [MappedPage.wraps]
  have hread : customRpcReadNoted m p address type =
      if !p.isMapped then (0, [])
      else if p.size < address - p.pageStart + UInt32.ofNat type.width then (0, [])
      else m.readNoted p (destAddr + (address - p.pageStart)) type.width := by
    cases type
    case b => exact absurd rfl htype
    all_goals rfl
  obtain ⟨hpos, hle⟩ := type.width_pos
  have hwidth : (UInt32.ofNat type.width).toNat = type.width :=
    UInt32.toNat_ofNat_of_lt' (show type.width < 2 ^ 32 by omega)
  have hsize := p.size.toNat_lt
  have hoffset := (address - p.pageStart).toNat_lt
  rw [Contained, holds_iff, hread]
  cases hmapped : p.isMapped
  · refine iff_of_true ⟨fun a ha => absurd ha List.not_mem_nil, fun _ => rfl⟩ ?_
    simp [MappedPage.wraps, hmapped]
  have hwraps : p.wraps address type = false ↔
      ¬(2 ^ 32 ≤ (address - p.pageStart).toNat + type.width ∧
        (address - p.pageStart).toNat + type.width - 2 ^ 32 ≤ p.size.toNat) := by
    simp [MappedPage.wraps, hmapped, htype]
  rw [hwraps]
  generalize address - p.pageStart = o at hoffset ⊢
  simp only [Bool.not_true, Bool.false_eq_true, if_false, true_and]
  have hcompared : p.size < o + UInt32.ofNat type.width ↔
      p.size.toNat < (o.toNat + type.width) % 2 ^ 32 := by
    rw [UInt32.lt_iff_toNat_lt, UInt32.toNat_add, hwidth]
  have hzero : ∀ a ∈ ([] : List UInt32), a - destAddr < p.size :=
    fun a ha => absurd ha List.not_mem_nil
  have hinside := readNoted_contained_iff m p o hpos hle
  rcases Nat.lt_or_ge (o.toNat + type.width) (2 ^ 32) with hlt | hge
  · rw [Nat.mod_eq_of_lt hlt] at hcompared
    refine iff_of_true ?_ fun h => absurd h.1 (Nat.not_le_of_lt hlt)
    split_ifs with hbehind
    · exact ⟨hzero, fun _ => rfl⟩
    · have hin := Nat.le_of_not_lt (mt hcompared.mpr hbehind)
      exact ⟨hinside.mpr hin, fun hout => absurd hin hout⟩
  · -- the end of the value wraps
    have hstop : (o.toNat + type.width) % 2 ^ 32 = o.toNat + type.width - 2 ^ 32 := by omega
    rw [hstop] at hcompared
    split_ifs with hbehind
    · refine iff_of_true ⟨hzero, fun _ => rfl⟩ fun h => ?_
      exact absurd h.2 (Nat.not_le_of_lt (hcompared.mp hbehind))
    · refine iff_of_false (fun h => ?_) fun h => ?_
      · have hin := hinside.mp h.1
        omega
      · exact h ⟨hge, Nat.le_of_not_lt (mt hcompared.mpr hbehind)⟩

/-- A word that begins a byte below the code of a title. -/
theorem word_below_window_not_contained :
    ¬∀ (m : Memory) (p : MappedPage) (address : UInt32) (type : AddressType),
      Contained m p address type := by
  intro h
  have hread := (h ⟨fun _ _ => 0, fun _ => 0⟩ ⟨0x30, 0x00100000, 0x2000, true, some 0x30⟩ 0x000FFFFF
    .w).1 0x000FFFFF (by decide)
  exact absurd hread (by decide)

end Presence3DS.Discord
