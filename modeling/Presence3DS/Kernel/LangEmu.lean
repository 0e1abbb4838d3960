import Mathlib.Data.List.Basic
import Mathlib.Tactic.IntervalCases
import Presence3DS.Kernel.State

/-! The language emulation: the attributes that the loader passes at a launch (`patcher.c`), the
table that the kernel keeps them in (`KernelSetState.c`), and their use (`ipc.c`). -/

namespace Presence3DS.Kernel

structure LangemuAttributes where
  titleId : BitVec 64
  mask : BitVec 8
  region : BitVec 8
  language : BitVec 8
  country : BitVec 8
  state : BitVec 8
deriving DecidableEq

/-- The table `processLangemuAttributes`. -/
abbrev LangemuTable := List LangemuAttributes

def langemuSlots : ℕ := 0x40

def emptyAttributes : LangemuAttributes := ⟨0, 0, 0, 0, 0, 0⟩

def LangemuTable.boot : LangemuTable := List.replicate langemuSlots emptyAttributes

/-- Type 0x10001 of `KernelSetState`. -/
def setLangemuAttributes (table : LangemuTable) (varg1 varg2 varg3 : BitVec 32) :
    Result × LangemuTable :=
  let i := table.findIdx fun a => a.titleId == 0
  if i < langemuSlots then
    (0, table.set i
      { titleId := varg3 ++ varg2
        state := (varg1 >>> 24).setWidth 8
        country := (varg1 >>> 16).setWidth 8
        language := (varg1 >>> 8).setWidth 8
        region := ((varg1 >>> 4) &&& 0xF).setWidth 8
        mask := (varg1 &&& 0xF).setWidth 8 })
  else (s32 0xD8609013, table)

/-- The last entry of a title. -/
def attribsOf (table : LangemuTable) (titleId : BitVec 64) : Option LangemuAttributes :=
  table.foldl (fun attribs a => if a.titleId = titleId then some a else attribs) none

/-- What the emulation makes of a request: whether it is skipped, the command buffer, and the bytes
written to the caller's memory, in order. -/
structure LangEmu where
  skip : Bool
  cmdbuf : ℕ → BitVec 32
  writes : List (BitVec 32 × BitVec 8)

def LangEmu.pass (cmdbuf : ℕ → BitVec 32) : LangEmu := ⟨false, cmdbuf, []⟩

/-- The answer to a request whose header has the low half `size`. -/
def answerBuf (cmdbuf : ℕ → BitVec 32) (size : BitVec 32) : ℕ → BitVec 32
  | 0 => (cmdbuf 0 &&& 0xFFFF0000) ||| size
  | 1 => 0
  | n + 2 => cmdbuf (n + 2)

def langEmu (attribs : LangemuAttributes) (cmdbuf : ℕ → BitVec 32) : LangEmu :=
  if (cmdbuf 0 = 0x20000 ∨ cmdbuf 0 = 0x4060000 ∨ cmdbuf 0 = 0x8160000) ∧
      attribs.mask &&& 1 ≠ 0 then
    ⟨true, fun i => if i = 2 then attribs.region.setWidth 32 else answerBuf cmdbuf 0x80 i, []⟩
  else if cmdbuf 1 = 1 ∧ cmdbuf 2 = 0xA0002 ∧ cmdbuf 3 = 0x1C ∧ attribs.mask &&& 2 ≠ 0 then
    ⟨true, answerBuf cmdbuf 0x40, [(cmdbuf 4, attribs.language)]⟩
  else if cmdbuf 1 = 4 ∧ cmdbuf 2 = 0xB0000 ∧ cmdbuf 3 = 0x4C ∧ attribs.mask &&& 0xC ≠ 0 then
    ⟨true, cmdbuf,
      (if attribs.mask &&& 4 ≠ 0 then [(cmdbuf 4 + 3, attribs.country)] else []) ++
        (if attribs.mask &&& 8 ≠ 0 then [(cmdbuf 4 + 2, attribs.state)] else []) ++
        [(cmdbuf 4 + 1, 0), (cmdbuf 4, 0)]⟩
  else .pass cmdbuf

def doLangEmu (table : LangemuTable) (titleId : BitVec 64) (cmdbuf : ℕ → BitVec 32) : LangEmu :=
  match attribsOf table titleId with
  | none => .pass cmdbuf
  | some attribs => langEmu attribs cmdbuf

/-! ## Launches -/

def isApp (progId : BitVec 64) : Bool := (progId >>> 32) &&& ~~~0x12 = 0x00040000

def isApplet (progId : BitVec 64) : Bool := progId >>> 32 = 0x00040030

/-- What `loadTitleLocaleConfig` reads for a title: at most seven regions, and four mask bits. -/
structure TitleLocale where
  mask : BitVec 8
  regionId : BitVec 8
  languageId : BitVec 8
  countryId : BitVec 8
  stateId : BitVec 8
  mask_lt : mask.toNat < 16
  regionId_lt : regionId.toNat < 7

/-- The launch of a title that has a locale: `patchCode` passes it for applications and applets. -/
structure Launch where
  progId : BitVec 64
  locale : TitleLocale
  isTitle : (isApp progId || isApplet progId) = true

def Launch.attributes (l : Launch) : LangemuAttributes where
  titleId := l.progId
  mask := l.locale.mask
  region := l.locale.regionId
  language := l.locale.languageId
  country := l.locale.countryId
  state := l.locale.stateId

/-- The word that `patchCode` packs a locale into. -/
def TitleLocale.packed (c : TitleLocale) : BitVec 32 :=
  (c.stateId.setWidth 32 <<< 24) ||| (c.countryId.setWidth 32 <<< 16) |||
    (c.languageId.setWidth 32 <<< 8) ||| (c.regionId.setWidth 32 <<< 4) ||| c.mask.setWidth 32

def launch (table : LangemuTable) (l : Launch) : Result × LangemuTable :=
  setLangemuAttributes table l.locale.packed (l.progId.setWidth 32)
    ((l.progId >>> 32).setWidth 32)

/-- The results of the launches, and the table after them. -/
def launches (table : LangemuTable) : List Launch → List Result × LangemuTable
  | [] => ([], table)
  | l :: ls =>
    let (res, table) := launch table l
    let (results, table) := launches table ls
    (res :: results, table)

/-- The emulation that uses the attributes of the most recent of some launches. -/
def langEmuOfLatest (ls : List Launch) (titleId : BitVec 64) (cmdbuf : ℕ → BitVec 32) : LangEmu :=
  match ls.reverse.find? fun l => l.progId = titleId with
  | none => .pass cmdbuf
  | some l => langEmu l.attributes cmdbuf

/-! ## The table after some launches -/

theorem Launch.progId_ne_zero (l : Launch) : l.progId ≠ 0 := by
  intro h
  have htitle := l.isTitle
  rw [h] at htitle
  exact absurd htitle (by decide)

theorem getLsbD_of_toNat_lt {x : BitVec 8} {n i : ℕ} (h : x.toNat < 2 ^ n) (hi : n ≤ i) :
    x.getLsbD i = false :=
  Nat.testBit_lt_two_pow (h.trans_le (Nat.pow_le_pow_right Nat.two_pos hi))

theorem TitleLocale.getLsbD_packed (c : TitleLocale) {i : ℕ} (hi : i < 32) :
    c.packed.getLsbD i =
      if i < 4 then c.mask.getLsbD i
      else if i < 8 then c.regionId.getLsbD (i - 4)
      else if i < 16 then c.languageId.getLsbD (i - 8)
      else if i < 24 then c.countryId.getLsbD (i - 16)
      else c.stateId.getLsbD (i - 24) := by
  have hmask : ∀ k, 4 ≤ k → c.mask.getLsbD k = false :=
    fun k hk => getLsbD_of_toNat_lt (n := 4) c.mask_lt hk
  have hregion : ∀ k, 3 ≤ k → c.regionId.getLsbD k = false :=
    fun k hk => getLsbD_of_toNat_lt (n := 3) (c.regionId_lt.trans (by decide)) hk
  simp only [TitleLocale.packed, BitVec.getLsbD_or, BitVec.getLsbD_shiftLeft,
    BitVec.getLsbD_setWidth]
  interval_cases i <;> simp [-BitVec.getLsbD_eq_getElem, hmask, hregion]

theorem unpack_locale (c : TitleLocale) :
    (c.packed >>> 24).setWidth 8 = c.stateId ∧ (c.packed >>> 16).setWidth 8 = c.countryId ∧
      (c.packed >>> 8).setWidth 8 = c.languageId ∧
      ((c.packed >>> 4) &&& 0xF).setWidth 8 = c.regionId ∧
      (c.packed &&& 0xF).setWidth 8 = c.mask := by
  refine ⟨?_, ?_, ?_, ?_, ?_⟩
  all_goals
    apply BitVec.eq_of_getLsbD_eq
    intro i hi
    simp only [BitVec.getLsbD_setWidth, BitVec.getLsbD_ushiftRight, BitVec.getLsbD_and]
    have hmask := getLsbD_of_toNat_lt (n := 4) (i := i) c.mask_lt
    have hregion := getLsbD_of_toNat_lt (n := 3) (i := i) (c.regionId_lt.trans (by decide))
    interval_cases i <;> simp [-BitVec.getLsbD_eq_getElem, c.getLsbD_packed, *]

theorem append_halves (x : BitVec 64) :
    (x >>> 32).setWidth 32 ++ x.setWidth 32 = x := by
  apply BitVec.eq_of_getLsbD_eq
  intro i hi
  rw [BitVec.getLsbD_append, BitVec.getLsbD_setWidth, BitVec.getLsbD_setWidth,
    BitVec.getLsbD_ushiftRight]
  split_ifs with hlow
  · rw [decide_eq_true hlow, Bool.true_and]
  · rw [decide_eq_true (show i - 32 < 32 by omega), Bool.true_and,
      Nat.add_sub_cancel' (not_lt.mp hlow)]

theorem launch_eq (table : LangemuTable) (l : Launch) :
    launch table l =
      if table.findIdx (fun a => a.titleId == 0) < langemuSlots then
        (0, table.set (table.findIdx fun a => a.titleId == 0) l.attributes)
      else (s32 0xD8609013, table) := by
  obtain ⟨hstate, hcountry, hlanguage, hregion, hmask⟩ := unpack_locale l.locale
  rw [launch, setLangemuAttributes, hstate, hcountry, hlanguage, hregion, hmask, append_halves]
  rfl

/-- The table that holds the attributes of some launches, oldest first. -/
def holding (ls : List Launch) : LangemuTable :=
  ls.map Launch.attributes ++ List.replicate (langemuSlots - ls.length) emptyAttributes

theorem findIdx_holding (ls : List Launch) :
    (holding ls).findIdx (fun a => a.titleId == 0) = ls.length := by
  have hnone : ∀ a ∈ ls.map Launch.attributes, (a.titleId == 0) = false := by
    intro a ha
    obtain ⟨l, -, rfl⟩ := List.mem_map.mp ha
    exact beq_false_of_ne l.progId_ne_zero
  rw [holding, List.findIdx_append, List.length_map,
    List.findIdx_eq_length_of_false hnone, List.length_map, if_neg (Nat.lt_irrefl _)]
  cases langemuSlots - ls.length with
  | zero => exact Nat.zero_add _
  | succ n =>
    rw [List.replicate_succ, List.findIdx_cons]
    exact Nat.zero_add _

theorem launch_holding {ls : List Launch} (l : Launch) (hroom : ls.length < langemuSlots) :
    launch (holding ls) l = (0, holding (ls ++ [l])) := by
  rw [launch_eq, findIdx_holding, if_pos hroom, Prod.mk.injEq]
  refine ⟨rfl, ?_⟩
  obtain ⟨n, hn⟩ : ∃ n, langemuSlots - ls.length = n + 1 :=
    Nat.exists_eq_add_one_of_ne_zero (Nat.sub_ne_zero_of_lt hroom)
  have hrest : langemuSlots - (ls ++ [l]).length = n := by
    rw [List.length_append, List.length_singleton]
    omega
  rw [holding, holding, hn, hrest, List.set_append_right _ _ (List.length_map _).le,
    List.length_map, Nat.sub_self, List.replicate_succ, List.set_cons_zero, List.map_append,
    List.append_assoc]
  rfl

theorem launch_full {ls : List Launch} (l : Launch) (hfull : ls.length = langemuSlots) :
    launch (holding ls) l = (s32 0xD8609013, holding ls) := by
  rw [launch_eq, findIdx_holding, if_neg hfull.not_lt]

theorem launches_cons (table : LangemuTable) (l : Launch) (ls : List Launch) :
    launches table (l :: ls) =
      ((launch table l).1 :: (launches (launch table l).2 ls).1,
        (launches (launch table l).2 ls).2) := rfl

theorem launches_full {ls : List Launch} (hfull : ls.length = langemuSlots) (more : List Launch) :
    launches (holding ls) more =
      (List.replicate more.length (s32 0xD8609013), holding ls) := by
  induction more with
  | nil => rfl
  | cons l more ih =>
    rw [launches_cons, launch_full l hfull, ih, List.length_cons, List.replicate_succ]

theorem launches_holding (ls more : List Launch) (hlen : ls.length ≤ langemuSlots) :
    launches (holding ls) more =
      (List.replicate (min (langemuSlots - ls.length) more.length) 0 ++
        List.replicate (more.length - (langemuSlots - ls.length)) (s32 0xD8609013),
       holding (ls ++ more.take (langemuSlots - ls.length))) := by
  induction more generalizing ls with
  | nil =>
    rw [List.take_nil, List.append_nil, List.length_nil, Nat.min_zero, Nat.zero_sub]
    rfl
  | cons l more ih =>
    rcases Nat.lt_or_eq_of_le hlen with hroom | hfull
    · have hlen' : (ls ++ [l]).length ≤ langemuSlots := by
        rw [List.length_append]
        exact hroom
      have hsub : langemuSlots - ls.length = langemuSlots - (ls ++ [l]).length + 1 := by
        rw [List.length_append, List.length_singleton]
        omega
      rw [launches_cons, launch_holding l hroom, ih (ls ++ [l]) hlen', hsub, List.take_succ_cons,
        List.length_cons, Nat.add_min_add_right, Nat.add_sub_add_right, List.replicate_succ,
        List.append_assoc]
      rfl
    · rw [launches_full hfull, hfull, Nat.sub_self, List.take_zero, List.append_nil,
        Nat.zero_min, Nat.sub_zero]
      rfl

/-! ## The entry that the emulation uses -/

theorem foldl_latest {α : Type*} (p : α → Prop) [DecidablePred p] (l : List α) (init : Option α) :
    l.foldl (fun found a => if p a then some a else found) init =
      (l.reverse.find? fun a => p a).or init := by
  induction l generalizing init with
  | nil => rfl
  | cons a l ih =>
    rw [List.foldl_cons, ih, List.reverse_cons, List.find?_append, Option.or_assoc]
    congr 1
    rw [List.find?_singleton]
    by_cases hp : p a
    · rw [if_pos hp, if_pos (decide_eq_true hp), Option.some_or]
    · rw [if_neg hp, if_neg (mt of_decide_eq_true hp), Option.none_or]

theorem attribsOf_holding {titleId : BitVec 64} (ht : titleId ≠ 0) (ls : List Launch) :
    attribsOf (holding ls) titleId =
      (ls.reverse.find? fun l => l.progId = titleId).map Launch.attributes := by
  have hempty : ∀ a ∈ (List.replicate (langemuSlots - ls.length) emptyAttributes).reverse,
      ¬(decide (a.titleId = titleId) = true) := by
    intro a ha htitle
    rw [List.reverse_replicate] at ha
    rw [List.eq_of_mem_replicate ha] at htitle
    exact ht (of_decide_eq_true htitle).symm
  rw [attribsOf, foldl_latest, holding, List.reverse_append, List.find?_append,
    List.find?_eq_none.mpr hempty, Option.none_or, Option.or_none, ← List.map_reverse,
    List.find?_map]
  rfl

theorem langEmu_emptyAttributes (cmdbuf : ℕ → BitVec 32) :
    langEmu emptyAttributes cmdbuf = .pass cmdbuf := by
  unfold langEmu
  have hmask : ∀ bits : BitVec 8, ¬(emptyAttributes.mask &&& bits ≠ 0) :=
    fun bits h => h (BitVec.zero_and)
  rw [if_neg fun h => hmask 1 h.2, if_neg fun h => hmask 2 h.2.2.2,
    if_neg fun h => hmask 0xC h.2.2.2]

theorem doLangEmu_holding (ls : List Launch) (titleId : BitVec 64) (cmdbuf : ℕ → BitVec 32) :
    doLangEmu (holding ls) titleId cmdbuf = langEmuOfLatest ls titleId cmdbuf := by
  by_cases ht : titleId = 0
  -- No launch is of title 0, and the slots that are free have no mask bit.
  · have hlatest : (ls.reverse.find? fun l => l.progId = titleId) = none := by
      apply List.find?_eq_none.mpr
      intro l _ hl
      exact l.progId_ne_zero ((of_decide_eq_true hl).trans ht)
    rw [langEmuOfLatest, hlatest, doLangEmu]
    cases hattribs : attribsOf (holding ls) titleId with
    | none => rfl
    | some a =>
      rw [attribsOf, foldl_latest, Option.or_none] at hattribs
      have htitle : a.titleId = titleId := of_decide_eq_true (List.find?_some hattribs :)
      have hmem := List.mem_reverse.mp (List.mem_of_find?_eq_some hattribs)
      rcases List.mem_append.mp hmem with hl | hfree
      · obtain ⟨l, -, rfl⟩ := List.mem_map.mp hl
        exact absurd (htitle.trans ht) l.progId_ne_zero
      · rw [List.eq_of_mem_replicate hfree]
        exact langEmu_emptyAttributes cmdbuf
  · rw [doLangEmu, attribsOf_holding ht, langEmuOfLatest]
    cases ls.reverse.find? fun l => l.progId = titleId with
    | none => rfl
    | some l => rfl

/-- The first launches with a locale are kept, as many as there are slots, and the emulation for a
title uses its latest of these; each launch after them is refused. -/
theorem langEmu_uses_latest_kept (ls : List Launch) :
    (launches .boot ls).1 = List.replicate (min langemuSlots ls.length) 0 ++
        List.replicate (ls.length - langemuSlots) (s32 0xD8609013) ∧
      ∀ titleId cmdbuf, doLangEmu (launches .boot ls).2 titleId cmdbuf =
        langEmuOfLatest (ls.take langemuSlots) titleId cmdbuf := by
  have hls := launches_holding [] ls (Nat.zero_le _)
  have hboot : holding [] = .boot := rfl
  rw [hboot, List.length_nil, Nat.sub_zero, List.nil_append] at hls
  rw [hls]
  exact ⟨rfl, doLangEmu_holding _⟩

/-- The launch of an application with a region. -/
def regionLaunch (regionId : Fin 7) : Launch where
  progId := 0x0004000000030800
  locale :=
    { mask := 1, regionId := BitVec.ofNat 8 regionId, languageId := 0, countryId := 0, stateId := 0
      mask_lt := by decide
      regionId_lt := by
        rw [BitVec.toNat_ofNat]
        exact (Nat.mod_le _ _).trans_lt regionId.isLt }
  isTitle := by decide

theorem later_launch_not_used : ¬∀ ls titleId cmdbuf,
    doLangEmu (launches .boot ls).2 titleId cmdbuf = langEmuOfLatest ls titleId cmdbuf := by
  intro h
  have hregion := congrArg (fun e => e.cmdbuf 2)
    (h (List.replicate 64 (regionLaunch 1) ++ [regionLaunch 2]) 0x0004000000030800
      fun _ => 0x20000)
  revert hregion
  decide +kernel

end Presence3DS.Kernel
