import Mathlib.Data.List.Find
import Presence3DS.Arm9.ConfigValues
import Presence3DS.Kernel.LangEmu

/-! The locale of a title, from its text file (`loadTitleLocaleConfig` in `patcher.c`) to what the
language emulation answers. -/

namespace Presence3DS.Kernel.AppLocale
open Arm9 (lit hexDigit? hexDigit)

abbrev Bytes := List UInt8

def regions : List String := ["---", "JPN", "USA", "EUR", "AUS", "CHN", "KOR", "TWN"]

def languages : List String :=
  ["--", "JP", "EN", "FR", "DE", "IT", "ES", "ZH", "KO", "NL", "PT", "RU", "TW"]

def countries : List String :=
  ["--", "JP", "--", "--", "--", "--", "--", "--", "AI", "AG", "AR", "AW",
    "BS", "BB", "BZ", "BO", "BR", "VG", "CA", "KY", "CL", "CO", "CR", "DM",
    "DO", "EC", "SV", "GF", "GD", "GP", "GT", "GY", "HT", "HN", "JM", "MQ",
    "MX", "MS", "AN", "NI", "PA", "PY", "PE", "KN", "LC", "VC", "SR", "TT",
    "TC", "US", "UY", "VI", "VE", "--", "--", "--", "--", "--", "--", "--",
    "--", "--", "--", "--", "AL", "AU", "AT", "BE", "BA", "BW", "BG", "HR",
    "CY", "CZ", "DK", "EE", "FI", "FR", "DE", "GR", "HU", "IS", "IE", "IT",
    "LV", "LS", "LI", "LT", "LU", "MK", "MT", "ME", "MZ", "NA", "NL", "NZ",
    "NO", "PL", "PT", "RO", "RU", "RS", "SK", "SI", "ZA", "ES", "SZ", "SE",
    "CH", "TR", "GB", "ZM", "ZW", "AZ", "MR", "ML", "NE", "TD", "SD", "ER",
    "DJ", "SO", "AD", "GI", "GG", "IM", "JE", "MC", "TW", "--", "--", "--",
    "--", "--", "--", "--", "KR", "--", "--", "--", "--", "--", "--", "--",
    "HK", "MO", "--", "--", "--", "--", "--", "--", "ID", "SG", "TH", "PH",
    "MY", "--", "--", "--", "CN", "--", "--", "--", "--", "--", "--", "--",
    "AE", "IN", "EG", "OM", "QA", "KW", "SA", "SY", "BH", "JO", "--", "--",
    "--", "--", "--", "--", "SM", "VA", "BM"]

/-- The loop over a table: the first index of a text, other than 0. -/
def nameIndex (names : List String) (text : Bytes) : Option ℕ :=
  (List.range names.length).find? fun i => lit (names.getD i "") = text ∧ i ≠ 0

/-- `locale.txt` of a title; the size or the read may fail. -/
structure LocaleFile where
  content : Bytes
  sizeFails : Bool
  readFails : Bool

/-- The bytes that have been read, over the dashes. -/
def localeBuf (data : Bytes) : Bytes :=
  data ++ (List.replicate 12 (0x2D : UInt8) ++ [0]).drop data.length

/-- The value of the two digits at an index, if both are hexadecimal. -/
def stateDigits (buf : Bytes) (i : ℕ) : Option ℕ :=
  (hexDigit? (buf.getD i 0)).bind fun hi =>
    (hexDigit? (buf.getD (i + 1) 0)).map fun lo => 16 * hi + lo

/-- The mask of the fields that are there. -/
def localeMask (region language country state : Bool) : BitVec 8 :=
  (if region then 1 else 0) ||| (if language then 2 else 0) ||| (if country then 4 else 0) |||
    (if state then 8 else 0)

theorem localeMask_lt : ∀ region language country state,
    (localeMask region language country state).toNat < 16 := by decide

theorem nameIndex_eq_some {names : List String} {text : Bytes} {i : ℕ}
    (h : nameIndex names text = some i) :
    i < names.length ∧ i ≠ 0 ∧ lit (names.getD i "") = text := by
  have hfound : lit (names.getD i "") = text ∧ i ≠ 0 := of_decide_eq_true (List.find?_some h :)
  exact ⟨List.mem_range.mp (List.mem_of_find?_eq_some h), hfound.2, hfound.1⟩

/-- The fields of a file of `fileSize` bytes, of which the buffer holds the first 12. -/
def localeOfBuf (fileSize : ℕ) (buf : Bytes) : TitleLocale :=
  let region := nameIndex regions (buf.take 3)
  let language := if 6 ≤ fileSize then nameIndex languages ((buf.drop 4).take 2) else none
  let country := if 9 ≤ fileSize then nameIndex countries ((buf.drop 7).take 2) else none
  let state := if 12 ≤ fileSize then stateDigits buf 10 else none
  { mask := localeMask region.isSome language.isSome country.isSome state.isSome
    regionId := BitVec.ofNat 8 (region.getD 0 - 1)
    languageId := BitVec.ofNat 8 (language.getD 0 - 1)
    countryId := BitVec.ofNat 8 (country.getD 0)
    stateId := BitVec.ofNat 8 (state.getD 0)
    mask_lt := localeMask_lt _ _ _ _
    regionId_lt := by
      have hregion : region.getD 0 < 8 := by
        rcases h : region with - | i
        · decide
        · exact (nameIndex_eq_some h).1
      rw [BitVec.toNat_ofNat]
      exact (Nat.mod_le _ _).trans_lt (by omega) }

/-- `openLumaFile` has found the file or not. -/
def loadTitleLocaleConfig : Option LocaleFile → Option TitleLocale
  | none => none
  | some file =>
    if file.sizeFails ∨ file.content.length < 3 then none
    else
      let fileSize := min file.content.length 12
      if file.readFails then none
      else some (localeOfBuf fileSize (localeBuf (file.content.take fileSize)))

/-- The locale that `patchCode` looks for at the start of an application or an applet. -/
structure TitleStart where
  progId : BitVec 64
  isTitle : (isApp progId || isApplet progId) = true
  file : Option LocaleFile

/-- The launch, if the title has a locale. -/
def TitleStart.launch? (t : TitleStart) : Option Launch :=
  (loadTitleLocaleConfig t.file).map fun locale => ⟨t.progId, locale, t.isTitle⟩

def TitleStart.patchCode (table : LangemuTable) (t : TitleStart) : LangemuTable :=
  match t.launch? with
  | none => table
  | some l => (launch table l).2

/-! ## What a file names -/

/-- A name of a table, with the index at which it is found. -/
structure Name (names : List String) where
  index : ℕ
  found : nameIndex names (lit (names.getD index "")) = some index

def Name.text {names : List String} (n : Name names) : Bytes := lit (names.getD n.index "")

/-- A locale: of each field, what a file names. -/
structure Locale where
  region : Option (Name regions)
  language : Option (Name languages)
  country : Option (Name countries)
  state : Option (BitVec 8)

/-- The locale that a file names: it has the text of each of its fields, in full and at the
place of the field, and of no other. -/
structure Locale.Named (l : Locale) (content : Bytes) : Prop where
  region : ∀ n, l.region = some n ↔ content.take 3 = n.text
  language : ∀ n, l.language = some n ↔ (content.drop 4).take 2 = n.text
  country : ∀ n, l.country = some n ↔ (content.drop 7).take 2 = n.text
  state : ∀ b, l.state = some b ↔ ∃ hi lo, (content.drop 10).take 2 = [hi, lo] ∧
    ∃ h ∈ hexDigit? hi, ∃ k ∈ hexDigit? lo, b = BitVec.ofNat 8 (16 * h + k)

/-- The numbers of a locale. -/
def Locale.regionId (n : Name regions) : ℕ := n.index - 1

def Locale.languageId (n : Name languages) : ℕ := n.index - 1

def Locale.countryId (n : Name countries) : ℕ := n.index

namespace Locale

def isRegionRequest (cmdbuf : ℕ → BitVec 32) : Prop :=
  cmdbuf 0 = 0x20000 ∨ cmdbuf 0 = 0x4060000 ∨ cmdbuf 0 = 0x8160000

instance (cmdbuf : ℕ → BitVec 32) : Decidable (isRegionRequest cmdbuf) :=
  inferInstanceAs (Decidable (_ ∨ _ ∨ _))

/-- A request for the block `block` of the configuration, of `size` bytes. -/
def isBlockRequest (cmdbuf : ℕ → BitVec 32) (size block length : BitVec 32) : Prop :=
  cmdbuf 1 = size ∧ cmdbuf 2 = block ∧ cmdbuf 3 = length

instance (cmdbuf : ℕ → BitVec 32) (size block length : BitVec 32) :
    Decidable (isBlockRequest cmdbuf size block length) :=
  inferInstanceAs (Decidable (_ ∧ _ ∧ _))

def regionAnswer (l : Locale) (cmdbuf : ℕ → BitVec 32) : Option LangEmu :=
  if isRegionRequest cmdbuf then
    l.region.map fun n =>
      ⟨true, fun i => if i = 2 then BitVec.ofNat 32 (regionId n) else answerBuf cmdbuf 0x80 i, []⟩
  else none

def languageAnswer (l : Locale) (cmdbuf : ℕ → BitVec 32) : Option LangEmu :=
  if isBlockRequest cmdbuf 1 0xA0002 0x1C then
    l.language.map fun n =>
      ⟨true, answerBuf cmdbuf 0x40, [(cmdbuf 4, BitVec.ofNat 8 (languageId n))]⟩
  else none

/-- The block of the country and the state, of which one may be missing. -/
def placeAnswer (l : Locale) (cmdbuf : ℕ → BitVec 32) : Option LangEmu :=
  if isBlockRequest cmdbuf 4 0xB0000 0x4C ∧ (l.country.isSome ∨ l.state.isSome) then
    some ⟨true, cmdbuf,
      (l.country.map fun n => (cmdbuf 4 + 3, BitVec.ofNat 8 (countryId n))).toList ++
        (l.state.map fun b => (cmdbuf 4 + 2, b)).toList ++ [(cmdbuf 4 + 1, 0), (cmdbuf 4, 0)]⟩
  else none

/-- What a title with a locale is answered: a request passes where the locale has not the field. -/
def emulate (l : Locale) (cmdbuf : ℕ → BitVec 32) : LangEmu :=
  ((l.regionAnswer cmdbuf).or ((l.languageAnswer cmdbuf).or (l.placeAnswer cmdbuf))).getD
    (.pass cmdbuf)

end Locale

/-! ## The fields of a file -/

section

variable {names : List String} {text : Bytes}

theorem Name.text_injective {m n : Name names} (h : m.text = n.text) : m = n := by
  have hindex : m.index = n.index := by
    have hm := m.found
    rw [← Name.text, h, Name.text, n.found] at hm
    exact (Option.some.inj hm).symm
  cases m
  cases n
  cases hindex
  rfl

theorem exists_name {i : ℕ} (h : nameIndex names text = some i) :
    ∃ n : Name names, n.text = text ∧ n.index = i := by
  obtain ⟨-, -, htext⟩ := nameIndex_eq_some h
  exact ⟨⟨i, by rw [htext, h]⟩, htext, rfl⟩

theorem nameIndex_of_named {named : Option (Name names)} (h : ∀ n, named = some n ↔ text = n.text) :
    nameIndex names text = named.map Name.index := by
  cases hindex : nameIndex names text with
  | some i =>
    obtain ⟨n, htext, rfl⟩ := exists_name hindex
    rw [(h n).mpr htext.symm, Option.map_some]
  | none =>
    cases named with
    | none => rfl
    | some n =>
      rw [(h n).mp rfl, Name.text, n.found] at hindex
      exact absurd hindex (Option.some_ne_none _)

theorem Name.length_text {k : ℕ} (hlength : ∀ i < names.length, (lit (names.getD i "")).length = k)
    (n : Name names) : n.text.length = k :=
  hlength n.index (nameIndex_eq_some n.found).1

theorem named_eq_none {named : Option (Name names)} {k : ℕ}
    (hlength : ∀ i < names.length, (lit (names.getD i "")).length = k)
    (h : ∀ n, named = some n ↔ text = n.text) (hshort : text.length < k) : named = none := by
  cases named with
  | none => rfl
  | some n =>
    have hn := n.length_text hlength
    rw [← (h n).mp rfl] at hn
    exact absurd hn hshort.ne

end

/-- A name of a table has its size and is not blank. -/
def Sized (names : List String) (size : ℕ) : Prop :=
  ∀ i < names.length, (lit (names.getD i "")).length = size ∧
    lit (names.getD i "") ≠ List.replicate size 0x20

instance (names : List String) (size : ℕ) : Decidable (Sized names size) :=
  inferInstanceAs (Decidable (∀ i < names.length, _ ∧ _))

theorem tables_sized : Sized regions 3 ∧ Sized languages 2 ∧ Sized countries 2 := by
  decide +kernel

theorem length_languages : ∀ i < languages.length, (lit (languages.getD i "")).length = 2 :=
  fun i hi => (tables_sized.2.1 i hi).1

theorem length_countries : ∀ i < countries.length, (lit (countries.getD i "")).length = 2 :=
  fun i hi => (tables_sized.2.2 i hi).1

theorem field_localeBuf {content : Bytes} {at_ len : ℕ} (hfield : at_ + len ≤ content.length)
    (hend : at_ + len ≤ 12) :
    ((localeBuf (content.take (min content.length 12))).drop at_).take len =
      (content.drop at_).take len := by
  have hlen : (content.take (min content.length 12)).length = min content.length 12 := by
    rw [List.length_take]
    omega
  rw [localeBuf, List.drop_append_of_le_length (by omega),
    List.take_append_of_le_length (by rw [List.length_drop]; omega), List.drop_take, List.take_take]
  congr 1
  omega

theorem TitleLocale.eq_of_fields {c d : TitleLocale} (hmask : c.mask = d.mask)
    (hregion : c.regionId = d.regionId) (hlanguage : c.languageId = d.languageId)
    (hcountry : c.countryId = d.countryId) (hstate : c.stateId = d.stateId) : c = d := by
  cases c
  cases d
  cases hmask
  cases hregion
  cases hlanguage
  cases hcountry
  cases hstate
  rfl

namespace Locale

variable {l : Locale} {content : Bytes}

/-- The numbers of what a locale has. -/
def ids (l : Locale) : TitleLocale where
  mask := localeMask l.region.isSome l.language.isSome l.country.isSome l.state.isSome
  regionId := BitVec.ofNat 8 (l.region.elim 0 regionId)
  languageId := BitVec.ofNat 8 (l.language.elim 0 languageId)
  countryId := BitVec.ofNat 8 (l.country.elim 0 countryId)
  stateId := l.state.getD 0
  mask_lt := localeMask_lt _ _ _ _
  regionId_lt := by
    have hregion : l.region.elim 0 regionId < 7 := by
      rcases l.region with - | n
      · decide
      · have hindex : n.index < 8 := (nameIndex_eq_some n.found).1
        have hne := (nameIndex_eq_some n.found).2.1
        show n.index - 1 < 7
        omega
    rw [BitVec.toNat_ofNat]
    exact (Nat.mod_le _ _).trans_lt hregion

theorem Named.language_eq (h : l.Named content) :
    (if 6 ≤ min content.length 12 then
      nameIndex languages (((localeBuf (content.take (min content.length 12))).drop 4).take 2)
    else none) = l.language.map Name.index := by
  split_ifs with hfield
  · rw [field_localeBuf (by omega) (by decide)]
    exact nameIndex_of_named h.language
  · rw [named_eq_none length_languages h.language
      (by rw [List.length_take, List.length_drop]; omega)]
    rfl

theorem Named.country_eq (h : l.Named content) :
    (if 9 ≤ min content.length 12 then
      nameIndex countries (((localeBuf (content.take (min content.length 12))).drop 7).take 2)
    else none) = l.country.map Name.index := by
  split_ifs with hfield
  · rw [field_localeBuf (by omega) (by decide)]
    exact nameIndex_of_named h.country
  · rw [named_eq_none length_countries h.country
      (by rw [List.length_take, List.length_drop]; omega)]
    rfl

theorem stateDigits_of_field {buf : Bytes} {i : ℕ} {hi lo : UInt8}
    (hfield : (buf.drop i).take 2 = [hi, lo]) :
    stateDigits buf i =
      (hexDigit? hi).bind fun h => (hexDigit? lo).map fun k => 16 * h + k := by
  have hget : ∀ j < 2, buf.getD (i + j) 0 = [hi, lo].getD j 0 := by
    intro j hj
    rw [← hfield, List.getD_eq_getElem?_getD, List.getD_eq_getElem?_getD,
      List.getElem?_take_of_lt hj, List.getElem?_drop]
  rw [stateDigits, show buf.getD i 0 = hi from hget 0 (by decide),
    show buf.getD (i + 1) 0 = lo from hget 1 (by decide)]

theorem Named.state_eq (h : l.Named content) :
    (if 12 ≤ min content.length 12 then
      stateDigits (localeBuf (content.take (min content.length 12))) 10
    else none).map (BitVec.ofNat 8) = l.state := by
  have hnone : (∀ b, l.state ≠ some b) → l.state = none := Option.eq_none_iff_forall_ne_some.mpr
  split_ifs with hfield
  · obtain ⟨hi, lo, hbytes⟩ := List.length_eq_two.mp
      (show ((content.drop 10).take 2).length = 2 by
        rw [List.length_take, List.length_drop]
        omega)
    rw [stateDigits_of_field ((field_localeBuf (by omega) (by decide)).trans hbytes)]
    cases hhi : hexDigit? hi with
    | none =>
      refine (hnone fun b hb => ?_).symm
      obtain ⟨hi', lo', hbytes', d, hd, -⟩ := (h.state b).mp hb
      obtain ⟨rfl, -⟩ := List.cons.inj (hbytes.symm.trans hbytes')
      rw [hhi] at hd
      exact absurd hd (Option.not_mem_none d)
    | some d =>
      cases hlo : hexDigit? lo with
      | none =>
        refine (hnone fun b hb => ?_).symm
        obtain ⟨hi', lo', hbytes', -, -, k, hk, -⟩ := (h.state b).mp hb
        obtain ⟨-, htail⟩ := List.cons.inj (hbytes.symm.trans hbytes')
        obtain ⟨rfl, -⟩ := List.cons.inj htail
        rw [hlo] at hk
        exact absurd hk (Option.not_mem_none k)
      | some k => exact ((h.state _).mpr ⟨hi, lo, hbytes, d, hhi, k, hlo, rfl⟩).symm
  · refine (hnone fun b hb => ?_).symm
    obtain ⟨hi, lo, hbytes, -⟩ := (h.state b).mp hb
    have hlen := congrArg List.length hbytes
    rw [List.length_take, List.length_drop, List.length_cons, List.length_singleton] at hlen
    omega

theorem localeOfBuf_named (h : l.Named content) (hlen : 3 ≤ content.length) :
    localeOfBuf (min content.length 12) (localeBuf (content.take (min content.length 12))) =
      l.ids := by
  have hregion : nameIndex regions ((localeBuf (content.take (min content.length 12))).take 3) =
      l.region.map Name.index := by
    have hfield : (localeBuf (content.take (min content.length 12))).take 3 = content.take 3 :=
      field_localeBuf (by omega : 0 + 3 ≤ content.length) (by decide)
    rw [hfield]
    exact nameIndex_of_named h.region
  have hsome := congrArg Option.isSome h.state_eq
  rw [Option.isSome_map] at hsome
  refine TitleLocale.eq_of_fields ?_ ?_ ?_ ?_ ?_
  · show localeMask _ _ _ _ = localeMask _ _ _ _
    rw [hregion, h.language_eq, h.country_eq, hsome, Option.isSome_map, Option.isSome_map,
      Option.isSome_map]
  · show BitVec.ofNat 8 (Option.getD _ 0 - 1) = BitVec.ofNat 8 _
    rw [hregion]
    cases l.region <;> rfl
  · show BitVec.ofNat 8 (Option.getD _ 0 - 1) = BitVec.ofNat 8 _
    rw [h.language_eq]
    cases l.language <;> rfl
  · show BitVec.ofNat 8 (Option.getD _ 0) = BitVec.ofNat 8 _
    rw [h.country_eq]
    cases l.country <;> rfl
  · show BitVec.ofNat 8 (Option.getD _ 0) = l.state.getD 0
    rw [← h.state_eq]
    cases (if 12 ≤ min content.length 12 then
      stateDigits (localeBuf (content.take (min content.length 12))) 10 else none) <;> rfl

theorem Named.load (h : l.Named content) (hlen : 3 ≤ content.length) :
    loadTitleLocaleConfig (some ⟨content, false, false⟩) = some l.ids := by
  rw [loadTitleLocaleConfig, if_neg (not_or.mpr ⟨Bool.false_ne_true, hlen.not_gt⟩)]
  exact congrArg some (localeOfBuf_named h hlen)

/-! ## The emulation of a locale -/

theorem testBit_localeMask : ∀ region language country state,
    (localeMask region language country state &&& 1 ≠ 0 ↔ region = true) ∧
      (localeMask region language country state &&& 2 ≠ 0 ↔ language = true) ∧
      (localeMask region language country state &&& 4 ≠ 0 ↔ country = true) ∧
      (localeMask region language country state &&& 8 ≠ 0 ↔ state = true) ∧
      (localeMask region language country state &&& 0xC ≠ 0 ↔ country = true ∨ state = true) := by
  decide

theorem or_ite {α : Type} {P Q R : Prop} [Decidable P] [Decidable Q] [Decidable R] (a b c d : α) :
    ((if P then some a else none).or
      ((if Q then some b else none).or (if R then some c else none))).getD d =
      if P then a else if Q then b else if R then c else d := by
  split_ifs <;> rfl

theorem regionAnswer_eq (l : Locale) (cmdbuf : ℕ → BitVec 32) :
    l.regionAnswer cmdbuf =
      if isRegionRequest cmdbuf ∧ l.region.isSome = true then
        some ⟨true, fun i => if i = 2 then l.ids.regionId.setWidth 32
          else answerBuf cmdbuf 0x80 i, []⟩
      else none := by
  rw [regionAnswer]
  cases h : l.region with
  | none =>
    rw [Option.map_none, ite_self, if_neg fun hn => Bool.false_ne_true hn.2]
  | some n =>
    have hid : l.ids.regionId.setWidth 32 = BitVec.ofNat 32 (regionId n) := by
      have hlt := l.ids.regionId_lt
      have hids : l.ids.regionId = BitVec.ofNat 8 (regionId n) := by
        show BitVec.ofNat 8 (l.region.elim 0 regionId) = _
        rw [h]
        rfl
      have hindex : n.index < 8 := (nameIndex_eq_some n.found).1
      rw [hids]
      apply BitVec.eq_of_toNat_eq
      simp only [BitVec.toNat_setWidth, BitVec.toNat_ofNat, regionId]
      omega
    rw [hid, Option.map_some]
    exact if_congr (and_iff_left rfl).symm rfl rfl

theorem languageAnswer_eq (l : Locale) (cmdbuf : ℕ → BitVec 32) :
    l.languageAnswer cmdbuf =
      if isBlockRequest cmdbuf 1 0xA0002 0x1C ∧ l.language.isSome = true then
        some ⟨true, answerBuf cmdbuf 0x40, [(cmdbuf 4, l.ids.languageId)]⟩
      else none := by
  rw [languageAnswer]
  cases h : l.language with
  | none =>
    rw [Option.map_none, ite_self, if_neg fun hn => Bool.false_ne_true hn.2]
  | some n =>
    have hid : l.ids.languageId = BitVec.ofNat 8 (languageId n) := by
      show BitVec.ofNat 8 (l.language.elim 0 languageId) = _
      rw [h]
      rfl
    rw [hid, Option.map_some]
    exact if_congr (and_iff_left rfl).symm rfl rfl

theorem placeAnswer_eq (l : Locale) (cmdbuf : ℕ → BitVec 32) :
    l.placeAnswer cmdbuf =
      if isBlockRequest cmdbuf 4 0xB0000 0x4C ∧ (l.country.isSome ∨ l.state.isSome) then
        some ⟨true, cmdbuf,
          (if l.country.isSome then [(cmdbuf 4 + 3, l.ids.countryId)] else []) ++
            (if l.state.isSome then [(cmdbuf 4 + 2, l.ids.stateId)] else []) ++
            [(cmdbuf 4 + 1, 0), (cmdbuf 4, 0)]⟩
      else none := by
  obtain ⟨region, language, country, state⟩ := l
  cases country <;> cases state <;> rfl

theorem langEmu_ids (l : Locale) {t : Launch} (ht : t.locale = l.ids) (cmdbuf : ℕ → BitVec 32) :
    langEmu t.attributes cmdbuf = l.emulate cmdbuf := by
  obtain ⟨hregion, hlanguage, hcountry, hstate, hplace⟩ := testBit_localeMask l.region.isSome
    l.language.isSome l.country.isSome l.state.isSome
  have hattributes : t.attributes = ⟨t.progId, l.ids.mask, l.ids.regionId, l.ids.languageId,
      l.ids.countryId, l.ids.stateId⟩ := by
    rw [Launch.attributes, ht]
  rw [emulate, regionAnswer_eq, languageAnswer_eq, placeAnswer_eq, or_ite, hattributes, langEmu]
  refine if_congr (and_congr Iff.rfl hregion) rfl (if_congr ?_ rfl (if_congr ?_ ?_ rfl))
  · rw [isBlockRequest, and_assoc, and_assoc]
    exact and_congr Iff.rfl (and_congr Iff.rfl (and_congr Iff.rfl hlanguage))
  · rw [isBlockRequest, and_assoc, and_assoc]
    exact and_congr Iff.rfl (and_congr Iff.rfl (and_congr Iff.rfl hplace))
  · congr 3
    · exact if_congr hcountry rfl rfl
    · exact if_congr hstate rfl rfl

/-! ## Texts of locales -/

end Locale

section

variable {names : List String} {len : ℕ}

/-- A field of a text, blank where there is no name. -/
def fieldText (len : ℕ) (named : Option (Name names)) : Bytes :=
  named.elim (List.replicate len 0x20) Name.text

theorem length_fieldText
    (hlength : ∀ i < names.length, (lit (names.getD i "")).length = len)
    (named : Option (Name names)) : (fieldText len named).length = len := by
  cases named with
  | none => exact List.length_replicate
  | some n => exact n.length_text hlength

theorem fieldText_named
    (hblank : ∀ i < names.length, lit (names.getD i "") ≠ List.replicate len 0x20)
    (named : Option (Name names)) (n : Name names) :
    named = some n ↔ fieldText len named = n.text := by
  cases named with
  | none =>
    refine iff_of_false (Option.some_ne_none n).symm fun h => ?_
    exact hblank n.index (nameIndex_eq_some n.found).1 h.symm
  | some m => exact ⟨fun h => congrArg Name.text (Option.some.inj h),
      fun h => congrArg some (Name.text_injective h)⟩

end

theorem length_regions : ∀ i < regions.length, (lit (regions.getD i "")).length = 3 :=
  fun i hi => (tables_sized.1 i hi).1

theorem regions_ne_blank :
    ∀ i < regions.length, lit (regions.getD i "") ≠ List.replicate 3 0x20 :=
  fun i hi => (tables_sized.1 i hi).2

theorem languages_ne_blank :
    ∀ i < languages.length, lit (languages.getD i "") ≠ List.replicate 2 0x20 :=
  fun i hi => (tables_sized.2.1 i hi).2

theorem countries_ne_blank :
    ∀ i < countries.length, lit (countries.getD i "") ≠ List.replicate 2 0x20 :=
  fun i hi => (tables_sized.2.2 i hi).2

def stateText : Option (BitVec 8) → Bytes
  | none => [0x20, 0x20]
  | some b => [hexDigit (b.toNat / 16), hexDigit (b.toNat % 16)]

theorem stateText_named (state : Option (BitVec 8)) (b : BitVec 8) :
    state = some b ↔ ∃ hi lo, stateText state = [hi, lo] ∧
      ∃ h ∈ hexDigit? hi, ∃ k ∈ hexDigit? lo, b = BitVec.ofNat 8 (16 * h + k) := by
  cases state with
  | none =>
    refine iff_of_false (Option.some_ne_none b).symm ?_
    rintro ⟨hi, lo, htext, h, hh, -⟩
    obtain ⟨rfl, -⟩ := List.cons.inj htext
    exact absurd hh (Option.not_mem_none h)
  | some c =>
    have hc := c.isLt
    have hhi : hexDigit? (hexDigit (c.toNat / 16)) = some (c.toNat / 16) :=
      Arm9.hexDigit?_hexDigit _ (by omega)
    have hlo : hexDigit? (hexDigit (c.toNat % 16)) = some (c.toNat % 16) :=
      Arm9.hexDigit?_hexDigit _ (Nat.mod_lt _ (by decide))
    have hvalue : BitVec.ofNat 8 (16 * (c.toNat / 16) + c.toNat % 16) = c := by
      rw [Nat.div_add_mod, BitVec.ofNat_toNat, BitVec.setWidth_eq]
    constructor
    · rintro ⟨⟩
      exact ⟨_, _, rfl, _, hhi, _, hlo, hvalue.symm⟩
    · rintro ⟨hi, lo, htext, h, hh, k, hk, rfl⟩
      obtain ⟨rfl, htail⟩ := List.cons.inj htext
      obtain ⟨rfl, -⟩ := List.cons.inj htail
      obtain rfl := Option.some.inj (hhi.symm.trans hh)
      obtain rfl := Option.some.inj (hlo.symm.trans hk)
      rw [hvalue]

namespace Locale

/-- The text of a locale, such as `EUR IT IT 05`. -/
def text (l : Locale) : Bytes :=
  fieldText 3 l.region ++ 0x20 :: fieldText 2 l.language ++ 0x20 :: fieldText 2 l.country ++
    0x20 :: stateText l.state

theorem named_text (l : Locale) (rest : Bytes) : l.Named (l.text ++ rest) := by
  obtain ⟨r₀, r₁, r₂, hregion⟩ := List.length_eq_three.mp (length_fieldText length_regions l.region)
  obtain ⟨l₀, l₁, hlanguage⟩ := List.length_eq_two.mp
    (length_fieldText length_languages l.language)
  obtain ⟨c₀, c₁, hcountry⟩ := List.length_eq_two.mp (length_fieldText length_countries l.country)
  obtain ⟨s₀, s₁, hstate⟩ : ∃ s₀ s₁, stateText l.state = [s₀, s₁] := by
    cases l.state <;> exact ⟨_, _, rfl⟩
  have htext : l.text ++ rest = [r₀, r₁, r₂, 0x20, l₀, l₁, 0x20, c₀, c₁, 0x20, s₀, s₁] ++ rest := by
    rw [text, hregion, hlanguage, hcountry, hstate]
    rfl
  rw [htext]
  constructor
  · intro n
    rw [fieldText_named regions_ne_blank, hregion]
    rfl
  · intro n
    rw [fieldText_named languages_ne_blank, hlanguage]
    rfl
  · intro n
    rw [fieldText_named countries_ne_blank, hcountry]
    rfl
  · intro b
    rw [stateText_named, hstate]
    rfl

/-- The text of a locale is loaded as its numbers, whatever is after it. -/
theorem load_text (l : Locale) (rest : Bytes) :
    loadTitleLocaleConfig (some ⟨l.text ++ rest, false, false⟩) = some l.ids := by
  refine (l.named_text rest).load ?_
  have hregion := length_fieldText length_regions l.region
  rw [List.length_append, text, List.length_append, List.length_append, List.length_append, hregion]
  omega

end Locale

/-! ## Runs of titles -/

theorem exists_named_field (names : List String) (text : Bytes) :
    ∃ named : Option (Name names), ∀ n, named = some n ↔ text = n.text := by
  cases h : nameIndex names text with
  | some i =>
    obtain ⟨m, rfl, -⟩ := exists_name h
    exact ⟨some m, fun n => ⟨fun hn => congrArg Name.text (Option.some.inj hn),
      fun hn => congrArg some (Name.text_injective hn)⟩⟩
  | none =>
    refine ⟨none, fun n => iff_of_false (Option.some_ne_none n).symm ?_⟩
    rintro rfl
    exact absurd (h.symm.trans n.found) (Option.some_ne_none _).symm

theorem exists_named_state (field : Bytes) :
    ∃ state : Option (BitVec 8), ∀ b, state = some b ↔ ∃ hi lo, field = [hi, lo] ∧
      ∃ h ∈ hexDigit? hi, ∃ k ∈ hexDigit? lo, b = BitVec.ofNat 8 (16 * h + k) := by
  by_cases hfield : ∃ hi lo h k, field = [hi, lo] ∧ hexDigit? hi = some h ∧ hexDigit? lo = some k
  · obtain ⟨hi, lo, h, k, rfl, hh, hk⟩ := hfield
    refine ⟨some (BitVec.ofNat 8 (16 * h + k)), fun b => ⟨?_, ?_⟩⟩
    · rintro ⟨⟩
      exact ⟨hi, lo, rfl, h, hh, k, hk, rfl⟩
    · rintro ⟨hi', lo', htext, h', hh', k', hk', rfl⟩
      obtain ⟨rfl, htail⟩ := List.cons.inj htext
      obtain ⟨rfl, -⟩ := List.cons.inj htail
      obtain rfl := Option.some.inj (hh.symm.trans hh')
      obtain rfl := Option.some.inj (hk.symm.trans hk')
      rfl
  · refine ⟨none, fun b => iff_of_false (Option.some_ne_none b).symm ?_⟩
    rintro ⟨hi, lo, htext, h, hh, k, hk, -⟩
    exact hfield ⟨hi, lo, h, k, htext, hh, hk⟩

theorem Locale.exists_named (content : Bytes) : ∃ l : Locale, l.Named content := by
  obtain ⟨region, hregion⟩ := exists_named_field regions (content.take 3)
  obtain ⟨language, hlanguage⟩ := exists_named_field languages ((content.drop 4).take 2)
  obtain ⟨country, hcountry⟩ := exists_named_field countries ((content.drop 7).take 2)
  obtain ⟨state, hstate⟩ := exists_named_state ((content.drop 10).take 2)
  exact ⟨⟨region, language, country, state⟩, hregion, hlanguage, hcountry, hstate⟩

/-- A file that is read: one of at least three bytes. -/
def LocaleFile.read (file : LocaleFile) : Bool :=
  file.sizeFails = false ∧ file.readFails = false ∧ 3 ≤ file.content.length

theorem isSome_load (file : Option LocaleFile) :
    (loadTitleLocaleConfig file).isSome = file.any LocaleFile.read := by
  cases file with
  | none => rfl
  | some file =>
    obtain ⟨content, sizeFails, readFails⟩ := file
    show _ = decide _
    by_cases hlen : 3 ≤ content.length
    · cases sizeFails <;> cases readFails <;>
        simp [loadTitleLocaleConfig, hlen]
    · cases sizeFails <;> cases readFails <;>
        simp [loadTitleLocaleConfig, hlen]

/-- A start whose file is read. -/
def TitleStart.hasLocale (t : TitleStart) : Bool := t.file.any LocaleFile.read

theorem isSome_launch? (t : TitleStart) : t.launch?.isSome = t.hasLocale :=
  (Option.isSome_map ..).trans (isSome_load t.file)

theorem foldl_patchCode (table : LangemuTable) (ts : List TitleStart) :
    ts.foldl TitleStart.patchCode table =
      (launches table (ts.filterMap TitleStart.launch?)).2 := by
  induction ts generalizing table with
  | nil => rfl
  | cons t ts ih =>
    rw [List.foldl_cons, ih, List.filterMap_cons, TitleStart.patchCode]
    cases t.launch? with
    | none => rfl
    | some l => rfl

theorem take_filterMap {α β : Type} (f : α → Option β) (n : ℕ) (l : List α) :
    (l.filterMap f).take n = ((l.filter fun a => (f a).isSome).take n).filterMap f := by
  induction l generalizing n with
  | nil => rw [List.filter_nil, List.take_nil, List.filterMap_nil, List.take_nil]
  | cons a l ih =>
    cases h : f a with
    | none =>
      rw [List.filterMap_cons_none h, ih,
        List.filter_cons_of_neg (by rw [h]; exact Bool.false_ne_true)]
    | some b =>
      rw [List.filterMap_cons_some h, List.filter_cons_of_pos (by rw [h]; rfl)]
      cases n with
      | zero => rfl
      | succ n => rw [List.take_succ_cons, List.take_succ_cons, List.filterMap_cons_some h, ih]

/-- The starts whose locales the kernel keeps. -/
def keptStarts (ts : List TitleStart) : List TitleStart :=
  (ts.filter TitleStart.hasLocale).take langemuSlots

theorem doLangEmu_starts (ts : List TitleStart) (titleId : BitVec 64) (cmdbuf : ℕ → BitVec 32) :
    doLangEmu (ts.foldl TitleStart.patchCode .boot) titleId cmdbuf =
      langEmuOfLatest ((keptStarts ts).filterMap TitleStart.launch?) titleId cmdbuf := by
  have hkept : (keptStarts ts).filterMap TitleStart.launch? =
      (ts.filterMap TitleStart.launch?).take langemuSlots := by
    rw [take_filterMap, keptStarts]
    simp only [isSome_launch?]
  have hls := launches_holding [] (ts.filterMap TitleStart.launch?) (Nat.zero_le _)
  rw [List.length_nil, Nat.sub_zero, List.nil_append, ← hkept] at hls
  rw [foldl_patchCode, show LangemuTable.boot = holding [] from rfl, hls]
  exact doLangEmu_holding _ titleId cmdbuf

theorem find?_launches (ts : List TitleStart) (titleId : BitVec 64) :
    ((keptStarts ts).filterMap TitleStart.launch?).reverse.find? (fun l => l.progId = titleId) =
      ((keptStarts ts).reverse.find? fun t => t.progId = titleId).bind TitleStart.launch? := by
  rw [← List.filterMap_reverse, List.find?_filterMap]
  congr 1
  refine List.find?_congr fun t ht => ?_
  have hmem := List.mem_of_mem_take (List.mem_reverse.mp ht)
  have hsome : t.launch?.isSome = true :=
    (isSome_launch? t).trans (List.mem_filter.mp hmem).2
  rw [TitleStart.launch?, Option.isSome_map] at hsome
  obtain ⟨locale, hlocale⟩ := Option.isSome_iff_exists.mp hsome
  rw [TitleStart.launch?, hlocale]
  rfl

/-- After any starts of titles, what a title is answered is what the file names that was read at
the latest of its starts that the kernel has kept; without one, its requests pass. -/
theorem emulation_of_files (ts : List TitleStart) (titleId : BitVec 64) (cmdbuf : ℕ → BitVec 32) :
    match (keptStarts ts).reverse.find? fun t => t.progId = titleId with
    | none => doLangEmu (ts.foldl TitleStart.patchCode .boot) titleId cmdbuf = .pass cmdbuf
    | some t => ∃ file ∈ t.file, ∃ l : Locale, l.Named file.content ∧
        doLangEmu (ts.foldl TitleStart.patchCode .boot) titleId cmdbuf = l.emulate cmdbuf := by
  have hfind := find?_launches ts titleId
  rw [doLangEmu_starts, langEmuOfLatest, hfind]
  cases hlatest : (keptStarts ts).reverse.find? fun t => t.progId = titleId with
  | none => rfl
  | some t =>
    have hmem := List.mem_of_mem_take (List.mem_reverse.mp (List.mem_of_find?_eq_some hlatest))
    have hlocale := (List.mem_filter.mp hmem).2
    obtain ⟨progId, isTitle, file⟩ := t
    cases file with
    | none => exact absurd hlocale Bool.false_ne_true
    | some file =>
      obtain ⟨content, sizeFails, readFails⟩ := file
      obtain ⟨rfl, rfl, hlen⟩ := of_decide_eq_true (show decide _ = true from hlocale)
      obtain ⟨l, hnamed⟩ := Locale.exists_named content
      refine ⟨_, rfl, l, hnamed, ?_⟩
      have hload := hnamed.load hlen
      rw [Option.bind_some, TitleStart.launch?, hload]
      exact l.langEmu_ids rfl cmdbuf

end Presence3DS.Kernel.AppLocale
