import Presence3DS.Lib.BitFields
import Presence3DS.Lib.Loops

/-! The translation tables of a process: their walks, and the rewriting that makes all of the
process' memory readable, writable and executable (`mmu.c`). -/

namespace Presence3DS.Kernel.Mmu
open BitFields

/-- The words at the addresses that are multiples of 4, as the kernel maps them. -/
abbrev Words := BitVec 32 → BitVec 32

inductive DescType where
  | descriptorTranslationFault
  | descriptorCoarsePageTable
  | descriptorSection
  | descriptorSupersection
  | descriptorReserved
  | descriptorLargePage
  | descriptorSmallPage
deriving DecidableEq

def l1DescriptorGetType (d : BitVec 32) : DescType :=
  if getField 0 2 d = 0b00#2 then .descriptorTranslationFault
  else if getField 0 2 d = 0b01#2 then .descriptorCoarsePageTable
  else if getField 0 2 d = 0b10#2 then
    if getField 18 1 d = 0#1 then .descriptorSection else .descriptorSupersection
  else .descriptorReserved

def l2DescriptorGetType (d : BitVec 32) : DescType :=
  if getField 0 2 d = 0b01#2 then .descriptorLargePage
  else if getField 1 1 d = 1#1 then .descriptorSmallPage
  else .descriptorTranslationFault

/-- Where a kind of descriptor has its permissions and its address. -/
structure Layout where
  xn : ℕ
  ap : ℕ
  apx : Option ℕ
  addr : ℕ

def descSection : Layout := ⟨4, 10, some 15, 20⟩

def descSupersection : Layout := ⟨4, 10, none, 24⟩

def descLargePage : Layout := ⟨15, 4, some 9, 16⟩

def descSmallPage : Layout := ⟨0, 4, some 9, 12⟩

namespace Layout

def rwx (l : Layout) (d : BitVec 32) : BitVec 32 :=
  let d := setField l.xn 0#1 d
  let d := match l.apx with
    | some apx => setField apx 0#1 d
    | none => d
  setField l.ap 3#2 d

/-- The physical address for an offset into what the descriptor maps. -/
def pa (l : Layout) (d offset : BitVec 32) : BitVec 32 :=
  ((getField l.addr (32 - l.addr) d).setWidth 32 <<< l.addr) ||| offset

/-- Bit 0 is that the user may read, bit 1 write and bit 2 execute. -/
def userPerm (l : Layout) (d : BitVec 32) : BitVec 32 :=
  let ap := getField l.ap 2 d
  let readOnly := l.apx.any fun apx => getField apx 1 d ≠ 0#1
  let perm := (ap >>> 1).setWidth 32
  if perm ≠ 0 then
    perm ||| (if readOnly = false ∧ ap &&& 1#2 ≠ 0 then 2 else 0) |||
      (if getField l.xn 1 d = 0#1 then 4 else 0)
  else perm

/-- The bits of the permissions. -/
def permissions (l : Layout) : BitVec 32 :=
  fieldMask 32 l.xn 1 ||| (l.apx.elim 0 (fieldMask 32 · 1)) ||| fieldMask 32 l.ap 2

end Layout

def l1Layout : DescType → Option Layout
  | .descriptorSection => some descSection
  | .descriptorSupersection => some descSupersection
  | _ => none

def l2Layout : DescType → Option Layout
  | .descriptorLargePage => some descLargePage
  | .descriptorSmallPage => some descSmallPage
  | _ => none

/-- The address of an entry of a table. -/
def entry (table : BitVec 32) (i : ℕ) : BitVec 32 := table + BitVec.ofNat 32 (4 * i)

/-- Where the kernel maps the table of second level that a descriptor is for. -/
def l2Table (d : BitVec 32) : BitVec 32 := ((getField 10 21 d).setWidth 32 <<< 10) - 0x40000000

def l2MMUTableRWXForAll (m : Words) (table : BitVec 32) : Words :=
  (List.range 256).foldl (fun m i =>
    let descriptor := m (entry table i)
    match l2DescriptorGetType descriptor with
    | .descriptorLargePage => Function.update m (entry table i) (descLargePage.rwx descriptor)
    | .descriptorSmallPage => Function.update m (entry table i) (descSmallPage.rwx descriptor)
    | _ => m) m

/-- One descriptor of the loop below. -/
def l1MMUTableRWX (table : BitVec 32) (m : Words) (i : ℕ) : Words :=
  let descriptor := m (entry table i)
  match l1DescriptorGetType descriptor with
  | .descriptorCoarsePageTable => l2MMUTableRWXForAll m (l2Table descriptor)
  | .descriptorSection => Function.update m (entry table i) (descSection.rwx descriptor)
  | .descriptorSupersection => Function.update m (entry table i) (descSupersection.rwx descriptor)
  | _ => m

def l1MMUTableRWXForAll (m : Words) (table : BitVec 32) : Words :=
  (List.range 1024).foldl (l1MMUTableRWX table) m

def l2Index (va : BitVec 32) : ℕ := ((va <<< 12) >>> 24).toNat

def l2MMUTableGetPAFromVA (m : Words) (table va : BitVec 32) : BitVec 32 :=
  let descriptor := m (entry table (l2Index va))
  match l2DescriptorGetType descriptor with
  | .descriptorLargePage => descLargePage.pa descriptor (va &&& 0xFFFF)
  | .descriptorSmallPage => descSmallPage.pa descriptor (va &&& 0xFFF)
  | _ => 0

def l1Index (va : BitVec 32) : ℕ := (va >>> 20).toNat

def l1MMUTableGetPAFromVA (m : Words) (table va : BitVec 32) : BitVec 32 :=
  let descriptor := m (entry table (l1Index va))
  match l1DescriptorGetType descriptor with
  | .descriptorCoarsePageTable => l2MMUTableGetPAFromVA m (l2Table descriptor) va
  | .descriptorSection => descSection.pa descriptor ((va <<< 12) >>> 12)
  | .descriptorSupersection => descSupersection.pa descriptor ((va <<< 8) >>> 8)
  | _ => 0

def l2MMUTableGetAddressUserPerm (m : Words) (table va : BitVec 32) : BitVec 32 :=
  let descriptor := m (entry table (l2Index va))
  match l2DescriptorGetType descriptor with
  | .descriptorLargePage => descLargePage.userPerm descriptor
  | .descriptorSmallPage => descSmallPage.userPerm descriptor
  | _ => 0

def l1MMUTableGetAddressUserPerm (m : Words) (table va : BitVec 32) : BitVec 32 :=
  let descriptor := m (entry table (l1Index va))
  match l1DescriptorGetType descriptor with
  | .descriptorCoarsePageTable => l2MMUTableGetAddressUserPerm m (l2Table descriptor) va
  | .descriptorSection => descSection.userPerm descriptor
  | .descriptorSupersection => descSupersection.userPerm descriptor
  | _ => 0

/-! ## The law -/

/-- No table of second level lies over the table of first level. -/
def ValidTables (m : Words) (table : BitVec 32) : Prop :=
  ∀ i < 4096, l1DescriptorGetType (m (entry table i)) = .descriptorCoarsePageTable →
    ∀ j < 256, ∀ k < 4096, entry (l2Table (m (entry table i))) j ≠ entry table k

/-- The walk comes to a descriptor of memory. -/
def mapped (m : Words) (table va : BitVec 32) : Bool :=
  let descriptor := m (entry table (l1Index va))
  match l1DescriptorGetType descriptor with
  | .descriptorCoarsePageTable =>
    (l2Layout (l2DescriptorGetType (m (entry (l2Table descriptor) (l2Index va))))).isSome
  | type => (l1Layout type).isSome

/-- The address is that of an entry of a table of second level for one of the first `n` entries of
the table. -/
def L2Cell (m : Words) (table : BitVec 32) (n : ℕ) (a : BitVec 32) : Prop :=
  ∃ i < n, l1DescriptorGetType (m (entry table i)) = .descriptorCoarsePageTable ∧
    ∃ j < 256, a = entry (l2Table (m (entry table i))) j

/-- The descriptors differ in the bits of the permissions at most. -/
def SameBut (layout : Option Layout) (d d' : BitVec 32) : Prop :=
  d' &&& ~~~(layout.elim 0 Layout.permissions) = d &&& ~~~(layout.elim 0 Layout.permissions)

/-- What the rewriting makes of the tables: the addresses stay, all of the mapped memory of the
process is readable, writable and executable, and no other bits change. -/
structure RwxLaw (m m' : Words) (table : BitVec 32) : Prop where
  translation : ∀ va, l1MMUTableGetPAFromVA m' table va = l1MMUTableGetPAFromVA m table va
  permission : ∀ va, va < 0x40000000 → mapped m table va = true →
    l1MMUTableGetAddressUserPerm m' table va = 7
  l1Bits : ∀ i < 1024, SameBut (l1Layout (l1DescriptorGetType (m (entry table i))))
    (m (entry table i)) (m' (entry table i))
  l2Bits : ∀ a, L2Cell m table 1024 a → SameBut (l2Layout (l2DescriptorGetType (m a))) (m a) (m' a)
  others : ∀ a, (∀ i < 1024, a ≠ entry table i) → ¬ L2Cell m table 1024 a → m' a = m a

/-! ## Descriptors -/

namespace Layout
variable {l : Layout} {d : BitVec 32}

/-- The permissions lie below the address, apart from each other. -/
structure Well (l : Layout) : Prop where
  addr : l.addr ≤ 32
  ap : l.ap + 2 ≤ l.addr
  xn : l.xn < l.addr ∧ (l.xn < l.ap ∨ l.ap + 2 ≤ l.xn)
  apx : ∀ apx, l.apx = some apx → apx < l.addr ∧ (apx < l.ap ∨ l.ap + 2 ≤ apx) ∧ apx ≠ l.xn

theorem getLsbD_rwx {i : ℕ} (hi : i < 32) : (l.rwx d).getLsbD i =
    if l.ap ≤ i ∧ i < l.ap + 2 then true
    else if l.apx = some i ∨ i = l.xn then false else d.getLsbD i := by
  have hone : ∀ {j}, j < 2 → (3#2).getLsbD j = true := by decide
  have hbit : ∀ (start : ℕ) (d : BitVec 32), (setField start 0#1 d).getLsbD i =
      if i = start then false else d.getLsbD i := by
    intro start d
    rw [getLsbD_setField _ _ hi, BitVec.getLsbD_zero]
    have hiff : (start ≤ i ∧ i < start + 1) ↔ i = start := by omega
    simp only [hiff]
  rw [rwx]
  rw [getLsbD_setField _ _ hi]
  split_ifs with hap hclear
  · exact hone (by omega)
  · cases hapx : l.apx with
    | none =>
      rw [hapx] at hclear
      rw [hbit, if_pos (hclear.resolve_left (by rintro ⟨⟩))]
    | some apx =>
      rw [hapx, Option.some.injEq] at hclear
      dsimp only
      rw [hbit, hbit]
      rcases hclear with rfl | rfl
      · rw [if_pos rfl]
      · rw [if_pos rfl, ite_self]
  · rw [not_or] at hclear
    cases hapx : l.apx with
    | none => exact (hbit _ _).trans (if_neg hclear.2)
    | some apx =>
      rw [hapx, Option.some.injEq] at hclear
      dsimp only
      rw [hbit, hbit, if_neg (Ne.symm hclear.1), if_neg hclear.2]

theorem rwx_rwx : l.rwx (l.rwx d) = l.rwx d := by
  apply BitVec.eq_of_getLsbD_eq
  intro i hi
  rw [getLsbD_rwx hi, getLsbD_rwx hi]
  split_ifs <;> rfl

theorem getField_rwx {start len : ℕ} (hap : start + len ≤ l.ap ∨ l.ap + 2 ≤ start)
    (hxn : start + len ≤ l.xn ∨ l.xn + 1 ≤ start)
    (hapx : ∀ apx, l.apx = some apx → start + len ≤ apx ∨ apx + 1 ≤ start) :
    getField start len (l.rwx d) = getField start len d := by
  rw [rwx]
  rw [getField_setField_of_disjoint hap]
  cases h : l.apx with
  | none => exact getField_setField_of_disjoint hxn _ _
  | some apx =>
    dsimp only
    rw [getField_setField_of_disjoint (hapx apx h), getField_setField_of_disjoint hxn]

theorem Well.pa_rwx (h : l.Well) (offset : BitVec 32) : l.pa (l.rwx d) offset = l.pa d offset := by
  have hxn := h.xn.1
  rw [pa, pa, getField_rwx (Or.inr h.ap) (Or.inr hxn) fun apx hapx => Or.inr (h.apx apx hapx).1]

theorem Well.userPerm_rwx (h : l.Well) : l.userPerm (l.rwx d) = 7 := by
  have haddr := h.addr
  have hapfit := h.ap
  obtain ⟨hxnlt, hxnap⟩ := h.xn
  have hap : getField l.ap 2 (l.rwx d) = 3#2 := getField_setField (by omega) _ _
  have hxn : getField l.xn 1 (l.rwx d) = 0#1 := by
    apply BitVec.eq_of_getLsbD_eq
    intro i hi
    rw [getField, BitVec.getLsbD_extractLsb', getLsbD_rwx (by omega), if_neg (by omega),
      if_pos (Or.inr (by omega))]
    simp
  have hapx : (l.apx.any fun apx => decide (getField apx 1 (l.rwx d) ≠ 0#1)) = false := by
    cases hsome : l.apx with
    | none => rfl
    | some apx =>
      obtain ⟨hlt, hapxap, -⟩ := h.apx apx hsome
      rw [Option.any_some, decide_eq_false_iff_not, not_not]
      apply BitVec.eq_of_getLsbD_eq
      intro i hi
      obtain rfl : i = 0 := by omega
      rw [getField, BitVec.getLsbD_extractLsb', getLsbD_rwx (by omega), if_neg (by omega),
        if_pos (Or.inl (by rw [hsome]; rfl))]
      simp
  rw [userPerm]
  rw [hap, hxn, hapx]
  decide

theorem permissions_and_not : l.rwx d &&& ~~~l.permissions = d &&& ~~~l.permissions := by
  apply BitVec.eq_of_getLsbD_eq
  intro i hi
  rw [BitVec.getLsbD_and, BitVec.getLsbD_and, getLsbD_rwx hi]
  have hmask : l.permissions.getLsbD i =
      decide ((l.ap ≤ i ∧ i < l.ap + 2) ∨ l.apx = some i ∨ i = l.xn) := by
    rw [permissions, BitVec.getLsbD_or, BitVec.getLsbD_or, getLsbD_fieldMask hi,
      getLsbD_fieldMask hi, Bool.eq_iff_iff]
    cases hapx : l.apx with
    | none =>
      simp only [Option.elim_none, Bool.or_eq_true, decide_eq_true_eq, BitVec.ofNat_eq_ofNat,
        BitVec.getLsbD_zero, reduceCtorEq, or_false, false_or, Bool.false_eq_true]
      omega
    | some apx =>
      simp only [Option.elim_some, getLsbD_fieldMask hi, Bool.or_eq_true, decide_eq_true_eq,
        Option.some.injEq]
      omega
  rw [BitVec.getLsbD_not, hmask]
  split_ifs with h h'
  · simp [h]
  · simp [h']
  · rfl

end Layout
theorem well_descSection : descSection.Well :=
  ⟨by decide, by decide, by decide, by decide⟩

theorem well_descSupersection : descSupersection.Well :=
  ⟨by decide, by decide, by decide, by decide⟩

theorem well_descLargePage : descLargePage.Well :=
  ⟨by decide, by decide, by decide, by decide⟩

theorem well_descSmallPage : descSmallPage.Well :=
  ⟨by decide, by decide, by decide, by decide⟩

theorem l1Layout_eq_some {type : DescType} {l : Layout} (h : l1Layout type = some l) :
    (type = .descriptorSection ∧ l = descSection) ∨
      (type = .descriptorSupersection ∧ l = descSupersection) := by
  cases type with
  | descriptorSection => exact Or.inl ⟨rfl, (Option.some.inj h).symm⟩
  | descriptorSupersection => exact Or.inr ⟨rfl, (Option.some.inj h).symm⟩
  | _ => exact absurd h (by rintro ⟨⟩)

theorem l2Layout_eq_some {type : DescType} {l : Layout} (h : l2Layout type = some l) :
    (type = .descriptorLargePage ∧ l = descLargePage) ∨
      (type = .descriptorSmallPage ∧ l = descSmallPage) := by
  cases type with
  | descriptorLargePage => exact Or.inl ⟨rfl, (Option.some.inj h).symm⟩
  | descriptorSmallPage => exact Or.inr ⟨rfl, (Option.some.inj h).symm⟩
  | _ => exact absurd h (by rintro ⟨⟩)

/-- A descriptor as the rewriting leaves it, by its layout. -/
def rewritten (layout : Option Layout) (d : BitVec 32) : BitVec 32 :=
  layout.elim d fun l => l.rwx d

def l1Rewritten (d : BitVec 32) : BitVec 32 := rewritten (l1Layout (l1DescriptorGetType d)) d

def l2Rewritten (d : BitVec 32) : BitVec 32 := rewritten (l2Layout (l2DescriptorGetType d)) d

theorem sameBut_rewritten (layout : Option Layout) (d : BitVec 32) :
    SameBut layout d (rewritten layout d) := by
  cases layout with
  | none => rfl
  | some l => exact Layout.permissions_and_not

section Types
variable {d : BitVec 32}

theorem l1DescriptorGetType_rewritten :
    l1DescriptorGetType (l1Rewritten d) = l1DescriptorGetType d := by
  cases hl : l1Layout (l1DescriptorGetType d) with
  | none => rw [l1Rewritten, hl, rewritten, Option.elim_none]
  | some l =>
    have hkeep : getField 0 2 (l.rwx d) = getField 0 2 d ∧
        getField 18 1 (l.rwx d) = getField 18 1 d := by
      rcases l1Layout_eq_some hl with ⟨-, rfl⟩ | ⟨-, rfl⟩
      · constructor <;> apply Layout.getField_rwx <;> decide
      · constructor <;> apply Layout.getField_rwx <;> decide
    rw [l1Rewritten, hl, rewritten, Option.elim_some, l1DescriptorGetType, l1DescriptorGetType,
      hkeep.1, hkeep.2]

theorem getField_ne (h : getField 1 1 d = 1#1) : getField 0 2 d ≠ 1#2 := by
  intro h'
  have hbit := congrArg (·.getLsbD 0) h
  have hbit' := congrArg (·.getLsbD 1) h'
  simp only [getField, BitVec.getLsbD_extractLsb'] at hbit hbit'
  exact absurd (hbit.symm.trans hbit') (by decide)

theorem l2DescriptorGetType_rewritten :
    l2DescriptorGetType (l2Rewritten d) = l2DescriptorGetType d := by
  cases hl : l2Layout (l2DescriptorGetType d) with
  | none => rw [l2Rewritten, hl, rewritten, Option.elim_none]
  | some l =>
    have hbit : getField 1 1 (l.rwx d) = getField 1 1 d := by
      rcases l2Layout_eq_some hl with ⟨-, rfl⟩ | ⟨-, rfl⟩ <;> apply Layout.getField_rwx <;>
        decide
    rw [l2Rewritten, hl, rewritten, Option.elim_some]
    rcases l2Layout_eq_some hl with ⟨htype, rfl⟩ | ⟨htype, rfl⟩
    · have hkind : getField 0 2 (descLargePage.rwx d) = getField 0 2 d := by
        apply Layout.getField_rwx <;> decide
      rw [l2DescriptorGetType, l2DescriptorGetType, hkind, hbit]
    · have hsmall : getField 1 1 d = 1#1 := by
        rw [l2DescriptorGetType] at htype
        split_ifs at htype with hlarge hsmall
        exact hsmall
      rw [l2DescriptorGetType, l2DescriptorGetType, if_neg (getField_ne hsmall),
        if_neg (getField_ne (hbit.trans hsmall)), hbit]

theorem l2Rewritten_l2Rewritten : l2Rewritten (l2Rewritten d) = l2Rewritten d := by
  rw [l2Rewritten, l2DescriptorGetType_rewritten, l2Rewritten]
  cases l2Layout (l2DescriptorGetType d) with
  | none => rfl
  | some l => exact Layout.rwx_rwx

end Types

/-! ## The loops -/

section Loops
variable {m : Words} {table : BitVec 32}

theorem entry_injective {i j : ℕ} (hi : i < 4096) (hj : j < 4096)
    (h : entry table i = entry table j) : i = j := by
  have heq := congrArg BitVec.toNat (BitVec.add_right_inj table |>.mp h)
  rw [BitVec.toNat_ofNat, BitVec.toNat_ofNat] at heq
  omega

theorem l2MMUTableRWXForAll_eq :
    l2MMUTableRWXForAll m table = Loops.rewriteCells (entry table) l2Rewritten 256 m := by
  rw [l2MMUTableRWXForAll, Loops.rewriteCells]
  congr 1
  funext m i
  dsimp only
  rw [l2Rewritten]
  cases l2DescriptorGetType (m (entry table i)) with
  | descriptorLargePage => rfl
  | descriptorSmallPage => rfl
  | _ => exact (Function.update_eq_self _ _).symm

theorem l1MMUTableRWX_eq {i : ℕ}
    (h : l1DescriptorGetType (m (entry table i)) ≠ .descriptorCoarsePageTable) :
    l1MMUTableRWX table m i = Function.update m (entry table i) (l1Rewritten (m (entry table i))) := by
  rw [l1MMUTableRWX, l1Rewritten]
  cases htype : l1DescriptorGetType (m (entry table i)) with
  | descriptorCoarsePageTable => exact absurd htype h
  | descriptorSection => rfl
  | descriptorSupersection => rfl
  | _ => exact (Function.update_eq_self _ _).symm

/-- What the words are once the first `n` descriptors have been rewritten. -/
structure Rewriting (m : Words) (table : BitVec 32) (n : ℕ) (m' : Words) : Prop where
  l1 : ∀ i < 4096, m' (entry table i) =
    if i < n then l1Rewritten (m (entry table i)) else m (entry table i)
  l2 : ∀ a, L2Cell m table n a → m' a = l2Rewritten (m a)
  others : ∀ a, (∀ i < n, a ≠ entry table i) → ¬ L2Cell m table n a → m' a = m a

theorem Rewriting.step {m' : Words} {n : ℕ} (hvalid : ValidTables m table) (hn : n < 1024)
    (h : Rewriting m table n m') : Rewriting m table (n + 1) (l1MMUTableRWX table m' n) := by
  have hcur : m' (entry table n) = m (entry table n) := by
    rw [h.l1 n (by omega), if_neg (Nat.lt_irrefl n)]
  have hcell : ∀ a, L2Cell m table (n + 1) a → L2Cell m table n a ∨
      l1DescriptorGetType (m (entry table n)) = .descriptorCoarsePageTable ∧
        ∃ j < 256, a = entry (l2Table (m (entry table n))) j := by
    rintro a ⟨i, hi, hcoarse, hj⟩
    rcases Nat.lt_succ_iff_lt_or_eq.mp hi with hlt | rfl
    · exact Or.inl ⟨i, hlt, hcoarse, hj⟩
    · exact Or.inr ⟨hcoarse, hj⟩
  have hup : ∀ {a}, L2Cell m table n a → L2Cell m table (n + 1) a := by
    rintro a ⟨i, hi, hrest⟩
    exact ⟨i, Nat.lt_succ_of_lt hi, hrest⟩
  have hapart : ∀ {a}, L2Cell m table (n + 1) a → ∀ k < 4096, a ≠ entry table k := by
    rintro a ⟨i, hi, hcoarse, j, hj, rfl⟩ k hk
    exact hvalid i (by omega) hcoarse j hj k hk
  by_cases hcoarse : l1DescriptorGetType (m (entry table n)) = .descriptorCoarsePageTable
  · have hstep : l1MMUTableRWX table m' n = Loops.rewriteCells
        (entry (l2Table (m (entry table n)))) l2Rewritten 256 m' := by
      rw [← l2MMUTableRWXForAll_eq, l1MMUTableRWX, hcur, hcoarse]
    have hnew : ∀ j < 256, L2Cell m table (n + 1) (entry (l2Table (m (entry table n))) j) :=
      fun j hj => ⟨n, Nat.lt_succ_self n, hcoarse, j, hj, rfl⟩
    rw [hstep]
    refine ⟨?_, ?_, ?_⟩
    · intro i hi
      rw [Loops.rewriteCells_other m' fun j hj heq => hapart (hnew j hj) i hi heq.symm, h.l1 i hi]
      rcases Nat.lt_trichotomy i n with hlt | rfl | hgt
      · rw [if_pos hlt, if_pos (Nat.lt_succ_of_lt hlt)]
      · rw [if_neg (Nat.lt_irrefl i), if_pos (Nat.lt_succ_self i), l1Rewritten, hcoarse]
        rfl
      · rw [if_neg (by omega), if_neg (by omega)]
    · intro a ha
      by_cases hin : ∃ j < 256, a = entry (l2Table (m (entry table n))) j
      · obtain ⟨j, hj, rfl⟩ := hin
        rw [Loops.rewriteCells_cell (fun _ => l2Rewritten_l2Rewritten) m' hj]
        by_cases hbefore : L2Cell m table n (entry (l2Table (m (entry table n))) j)
        · rw [h.l2 _ hbefore, l2Rewritten_l2Rewritten]
        · rw [h.others _ (fun i hi => hapart ha i (by omega)) hbefore]
      · rw [Loops.rewriteCells_other m' fun j hj heq => hin ⟨j, hj, heq⟩]
        exact h.l2 a ((hcell a ha).resolve_right fun h' => hin h'.2)
    · intro a ha hnot
      rw [Loops.rewriteCells_other m' fun j hj heq => hnot (by rw [heq]; exact hnew j hj)]
      exact h.others a (fun i hi => ha i (Nat.lt_succ_of_lt hi)) fun hbefore => hnot (hup hbefore)
  · rw [l1MMUTableRWX_eq (hcur ▸ hcoarse), hcur]
    refine ⟨?_, ?_, ?_⟩
    · intro i hi
      by_cases hin : i = n
      · rw [hin, Function.update_self, if_pos (Nat.lt_succ_self n)]
      · rw [Function.update_of_ne fun heq => hin (entry_injective hi (by omega) heq), h.l1 i hi]
        congr 1
        rw [Nat.lt_succ_iff_lt_or_eq, or_iff_left hin]
    · intro a ha
      rw [Function.update_of_ne (hapart ha n (by omega))]
      exact h.l2 a ((hcell a ha).resolve_right fun h' => hcoarse h'.1)
    · intro a ha hnot
      rw [Function.update_of_ne (ha n (Nat.lt_succ_self n))]
      exact h.others a (fun i hi => ha i (Nat.lt_succ_of_lt hi)) fun hbefore => hnot (hup hbefore)

theorem l1MMUTableRWXForAll_rewriting (hvalid : ValidTables m table) :
    Rewriting m table 1024 (l1MMUTableRWXForAll m table) := by
  have hall : ∀ n ≤ 1024, Rewriting m table n ((List.range n).foldl (l1MMUTableRWX table) m) := by
    intro n
    induction n with
    | zero =>
      intro _
      exact ⟨fun i _ => rfl, fun a ⟨i, hi, _⟩ => absurd hi (Nat.not_lt_zero i), fun a _ _ => rfl⟩
    | succ n ih =>
      intro hn
      rw [List.range_succ, List.foldl_append]
      exact (ih (by omega)).step hvalid (by omega)
  exact hall 1024 le_rfl

end Loops
/-! ## The walks -/

section Walks
variable {m m' : Words} {table va : BitVec 32}

theorem l1Index_lt (va : BitVec 32) : l1Index va < 4096 := by
  rw [l1Index, BitVec.toNat_ushiftRight, Nat.shiftRight_eq_div_pow]
  have hva := va.isLt
  omega

theorem l1Index_lt_of_lt (h : va < 0x40000000) : l1Index va < 1024 := by
  rw [l1Index, BitVec.toNat_ushiftRight, Nat.shiftRight_eq_div_pow]
  have hva : va.toNat < 0x40000000 := h
  omega

theorem l2Index_lt (va : BitVec 32) : l2Index va < 256 := by
  rw [l2Index, BitVec.toNat_ushiftRight, Nat.shiftRight_eq_div_pow]
  have hva := (va <<< 12).isLt
  omega

theorem l2Rewritten_largePage {d : BitVec 32} (h : l2DescriptorGetType d = .descriptorLargePage) :
    l2Rewritten d = descLargePage.rwx d := by
  rw [l2Rewritten, h]
  rfl

theorem l2Rewritten_smallPage {d : BitVec 32} (h : l2DescriptorGetType d = .descriptorSmallPage) :
    l2Rewritten d = descSmallPage.rwx d := by
  rw [l2Rewritten, h]
  rfl

theorem l2MMUTableGetPAFromVA_congr (h : m' (entry table (l2Index va)) = m (entry table (l2Index va)) ∨
    m' (entry table (l2Index va)) = l2Rewritten (m (entry table (l2Index va)))) :
    l2MMUTableGetPAFromVA m' table va = l2MMUTableGetPAFromVA m table va := by
  rw [l2MMUTableGetPAFromVA, l2MMUTableGetPAFromVA]
  rcases h with h | h
  · rw [h]
  · rw [h, l2DescriptorGetType_rewritten]
    cases htype : l2DescriptorGetType (m (entry table (l2Index va))) with
    | descriptorLargePage =>
      dsimp only
      rw [l2Rewritten_largePage htype, well_descLargePage.pa_rwx]
    | descriptorSmallPage =>
      dsimp only
      rw [l2Rewritten_smallPage htype, well_descSmallPage.pa_rwx]
    | _ => rfl

theorem l2MMUTableGetAddressUserPerm_rewritten
    (h : m' (entry table (l2Index va)) = l2Rewritten (m (entry table (l2Index va))))
    (hmapped : (l2Layout (l2DescriptorGetType (m (entry table (l2Index va))))).isSome = true) :
    l2MMUTableGetAddressUserPerm m' table va = 7 := by
  rw [l2MMUTableGetAddressUserPerm, h, l2DescriptorGetType_rewritten]
  cases htype : l2DescriptorGetType (m (entry table (l2Index va))) with
  | descriptorLargePage =>
    dsimp only
    rw [l2Rewritten_largePage htype, well_descLargePage.userPerm_rwx]
  | descriptorSmallPage =>
    dsimp only
    rw [l2Rewritten_smallPage htype, well_descSmallPage.userPerm_rwx]
  | _ =>
    rw [htype] at hmapped
    exact absurd hmapped Bool.false_ne_true

theorem Rewriting.translation (hvalid : ValidTables m table) (h : Rewriting m table 1024 m') :
    l1MMUTableGetPAFromVA m' table va = l1MMUTableGetPAFromVA m table va := by
  have hentry : m' (entry table (l1Index va)) = m (entry table (l1Index va)) ∨
      m' (entry table (l1Index va)) = l1Rewritten (m (entry table (l1Index va))) := by
    rw [h.l1 _ (l1Index_lt va)]
    split
    · exact Or.inr rfl
    · exact Or.inl rfl
  have htypes : l1DescriptorGetType (m' (entry table (l1Index va))) =
      l1DescriptorGetType (m (entry table (l1Index va))) := by
    rcases hentry with heq | heq
    · rw [heq]
    · rw [heq, l1DescriptorGetType_rewritten]
  rw [l1MMUTableGetPAFromVA, l1MMUTableGetPAFromVA, htypes]
  cases htype : l1DescriptorGetType (m (entry table (l1Index va))) with
  | descriptorCoarsePageTable =>
    have hsame : m' (entry table (l1Index va)) = m (entry table (l1Index va)) := by
      rcases hentry with heq | heq
      · exact heq
      · rw [heq, l1Rewritten, htype]
        rfl
    dsimp only
    rw [hsame]
    apply l2MMUTableGetPAFromVA_congr
    by_cases hcell : L2Cell m table 1024
        (entry (l2Table (m (entry table (l1Index va)))) (l2Index va))
    · exact Or.inr (h.l2 _ hcell)
    · refine Or.inl (h.others _ (fun i hi => ?_) hcell)
      exact hvalid _ (l1Index_lt va) htype _ (l2Index_lt va) i (by omega)
  | descriptorSection =>
    dsimp only
    rcases hentry with heq | heq
    · rw [heq]
    · rw [heq, l1Rewritten, htype]
      exact well_descSection.pa_rwx _
  | descriptorSupersection =>
    dsimp only
    rcases hentry with heq | heq
    · rw [heq]
    · rw [heq, l1Rewritten, htype]
      exact well_descSupersection.pa_rwx _
  | _ => rfl

theorem Rewriting.permission (h : Rewriting m table 1024 m') (hva : va < 0x40000000)
    (hmapped : mapped m table va = true) : l1MMUTableGetAddressUserPerm m' table va = 7 := by
  have hentry : m' (entry table (l1Index va)) = l1Rewritten (m (entry table (l1Index va))) := by
    rw [h.l1 _ (l1Index_lt va), if_pos (l1Index_lt_of_lt hva)]
  rw [mapped] at hmapped
  rw [l1MMUTableGetAddressUserPerm, hentry, l1DescriptorGetType_rewritten]
  cases htype : l1DescriptorGetType (m (entry table (l1Index va))) with
  | descriptorCoarsePageTable =>
    rw [htype] at hmapped
    rw [l1Rewritten, htype]
    refine l2MMUTableGetAddressUserPerm_rewritten (h.l2 _ ?_) hmapped
    exact ⟨_, l1Index_lt_of_lt hva, htype, _, l2Index_lt va, rfl⟩
  | descriptorSection =>
    rw [l1Rewritten, htype]
    exact well_descSection.userPerm_rwx
  | descriptorSupersection =>
    rw [l1Rewritten, htype]
    exact well_descSupersection.userPerm_rwx
  | _ =>
    rw [htype] at hmapped
    exact absurd hmapped Bool.false_ne_true

/-- The rewriting of valid tables leaves the translation, gives all permissions to the user, and
changes no other bits. -/
theorem l1MMUTableRWXForAll_law (hvalid : ValidTables m table) :
    RwxLaw m (l1MMUTableRWXForAll m table) table := by
  have h := l1MMUTableRWXForAll_rewriting hvalid
  refine ⟨fun va => h.translation hvalid, fun va => h.permission, ?_, ?_, h.others⟩
  · intro i hi
    rw [h.l1 i (by omega), if_pos hi]
    exact sameBut_rewritten _ _
  · intro a ha
    rw [h.l2 a ha]
    exact sameBut_rewritten _ _

/-- A table with a section and a table of second level, which has a large and a small page. -/
def twoLevels (a : BitVec 32) : BitVec 32 :=
  if a = 0xDFFF8000 then 0x20000001
  else if a = 0xDFFF8004 then 0x20100C1E
  else if a = 0xE0000000 then 0x2020FFF3
  else if a = 0xE0000004 then 0x2030820D
  else 0

theorem toNat_entry {i : ℕ} (hi : i < 4096) (h : table.toNat + 16384 ≤ 2 ^ 32) :
    (entry table i).toNat = table.toNat + 4 * i := by
  rw [entry, BitVec.toNat_add, BitVec.toNat_ofNat]
  omega

theorem l1MMUTableRWXForAll_law_twoLevels :
    RwxLaw twoLevels (l1MMUTableRWXForAll twoLevels 0xDFFF8000) 0xDFFF8000 := by
  apply l1MMUTableRWXForAll_law
  intro i hi hcoarse j hj k hk
  have hl1 : ∀ n < 4096, (entry 0xDFFF8000 n).toNat = 0xDFFF8000 + 4 * n :=
    fun n hn => toNat_entry hn (by decide)
  have hword : twoLevels (entry 0xDFFF8000 i) = 0x20000001 := by
    have hne : entry 0xDFFF8000 i ≠ 0xE0000004 := by
      intro heq
      have hnat := (hl1 i hi).symm.trans (congrArg BitVec.toNat heq)
      rw [show (0xE0000004 : BitVec 32).toNat = 0xE0000004 from rfl] at hnat
      omega
    rw [twoLevels, if_neg hne] at hcoarse ⊢
    split_ifs at hcoarse ⊢ with hfirst
    · rfl
    all_goals exact absurd hcoarse (by decide)
  rw [hword, show l2Table 0x20000001 = 0xE0000000 by decide]
  intro heq
  have hnat := congrArg BitVec.toNat heq
  rw [hl1 k hk, toNat_entry (by omega) (by decide),
    show (0xE0000000 : BitVec 32).toNat = 0xE0000000 from rfl] at hnat
  omega

end Walks

end Presence3DS.Kernel.Mmu
