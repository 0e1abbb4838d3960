import Mathlib.Algebra.Order.BigOperators.Group.List
import Mathlib.Logic.Function.Basic
import Presence3DS.Discord.ConfigReader

/-! The user preferences and their file (`user_prefs.c`). -/

namespace Presence3DS.Discord
open CString Decimal

inductive UserPrefId where
  | hideMii
  | hideHome
  | autoStart
  | disableUpdateLed
  | allowUnsafe
  | disableCustomRpc
  | rpcLanguage
deriving DecidableEq

namespace UserPrefId

/-- From 0 to `PREFS_COUNT`. -/
def all : List UserPrefId :=
  [.hideMii, .hideHome, .autoStart, .disableUpdateLed, .allowUnsafe, .disableCustomRpc,
    .rpcLanguage]

end UserPrefId

inductive UserPrefType where
  | bool
  | int
deriving DecidableEq

structure UserPrefMeta where
  key : Bytes
  type : UserPrefType
  default : UInt8
  max : UInt8

/-- `g_user_prefs` -/
def userPrefs : UserPrefId → UserPrefMeta
  | .hideMii => ⟨ascii "HIDE_MII".toList, .bool, 0, 0⟩
  | .hideHome => ⟨ascii "HIDE_HOME".toList, .bool, 0, 0⟩
  | .autoStart => ⟨ascii "AUTO_START_AT_BOOT".toList, .bool, 0, 0⟩
  | .disableUpdateLed => ⟨ascii "DISABLE_UPDATE_LED".toList, .bool, 0, 0⟩
  | .disableCustomRpc => ⟨ascii "DISABLE_CUSTOMRPC".toList, .bool, 0, 0⟩
  | .allowUnsafe => ⟨ascii "ALLOW_UNSAFE".toList, .bool, 0, 0⟩
  | .rpcLanguage => ⟨ascii "RPC_LANGUAGE".toList, .int, 0, 12⟩

/-- The greatest value that the preference takes. -/
def UserPrefMeta.bound (pref : UserPrefMeta) : UInt8 :=
  match pref.type with
  | .bool => 1
  | .int => pref.max

/-- `g_pref_values` -/
@[ext] structure PrefValues where
  value : UserPrefId → UInt8
  le_bound : ∀ i, value i ≤ (userPrefs i).bound

namespace PrefValues

def defaults : PrefValues := ⟨fun i => (userPrefs i).default, fun i => by cases i <;> decide⟩

def set (p : PrefValues) (i : UserPrefId) (v : UInt8) (h : v ≤ (userPrefs i).bound) :
    PrefValues where
  value := Function.update p.value i v
  le_bound j := by
    by_cases hj : j = i
    · subst hj
      rwa [Function.update_self]
    · rw [Function.update_of_ne hj]
      exact p.le_bound j

end PrefValues

/-! ## Loading -/

def parseBool (value : Bytes) : Option UInt8 :=
  let value := value.dropWhile isBlank
  if strcasecmpEq value (ascii "true".toList) || str value == ascii "1".toList then some 1
  else if strcasecmpEq value (ascii "false".toList) || str value == ascii "0".toList then some 0
  else none

/-- `strtoul(s, NULL, 10)`, of a text that starts with a digit. -/
def strtoul (s : Bytes) : ℕ := min (readDigits 0 s) (2 ^ 32 - 1)

def parseInt (value : Bytes) (max : UInt8) : Option UInt8 :=
  let value := value.dropWhile isBlank
  if isDigit (value.headD 0) = false ∨ max.toNat < strtoul value then none
  else some (UInt8.ofNat (strtoul value))

/-- What a line with the key of the preference makes its value, if anything. -/
def UserPrefMeta.read (pref : UserPrefMeta) (value : Bytes) : Option UInt8 :=
  match pref.type with
  | .int => some ((parseInt value pref.max).getD pref.default)
  | .bool => parseBool value

theorem parseBool_le {value : Bytes} {v : UInt8} (h : parseBool value = some v) : v ≤ 1 := by
  unfold parseBool at h
  simp only at h
  split_ifs at h <;> cases h <;> decide

theorem parseInt_le {value : Bytes} {max v : UInt8} (h : parseInt value max = some v) :
    v ≤ max := by
  unfold parseInt at h
  simp only at h
  split_ifs at h with hrange
  cases h
  have hle : strtoul (value.dropWhile isBlank) ≤ max.toNat := Nat.le_of_not_lt (not_or.mp hrange).2
  rw [UInt8.le_iff_toNat_le, UInt8.toNat_ofNat_of_lt' (hle.trans_lt max.toNat_lt)]
  exact hle

theorem read_le_bound {i : UserPrefId} {value : Bytes} {v : UInt8}
    (h : (userPrefs i).read value = some v) : v ≤ (userPrefs i).bound := by
  unfold UserPrefMeta.read UserPrefMeta.bound at *
  cases htype : (userPrefs i).type <;> rw [htype] at h
  · exact parseBool_le h
  · cases hint : parseInt value (userPrefs i).max with
    | none =>
      rw [hint] at h
      cases h
      cases i <;> decide
    | some v =>
      rw [hint] at h
      cases h
      exact parseInt_le hint

def prefsHandler (p : PrefValues) (key value : Bytes) : PrefValues × Bool :=
  match UserPrefId.all.find? fun i => strcasecmpEq key (userPrefs i).key with
  | none => (p, true)
  | some i =>
    match h : (userPrefs i).read value with
    | none => (p, true)
    | some v => (p.set i v (read_le_bound h), true)

/-- `UserPrefs_Load`, of the file where it can be read. -/
def userPrefsLoad : Option Bytes → PrefValues
  | none => .defaults
  | some file => configReaderParse prefsHandler .defaults file

/-! ## Saving -/

/-- What stands for the value in the file. -/
def valueText (p : PrefValues) (i : UserPrefId) : Bytes :=
  match (userPrefs i).type with
  | .int => decimal (p.value i).toNat
  | .bool => if p.value i ≠ 0 then ascii "true".toList else ascii "false".toList

def prefText (p : PrefValues) (i : UserPrefId) : Bytes := (userPrefs i).key ++ 0x3D :: valueText p i

/-- One turn of the loop that fills the buffer, of what it holds and the length that was asked for:
`snprintf` cuts its text off before the last byte of the buffer. -/
def printLine (printed : Bytes × ℕ) (line : Bytes) : Bytes × ℕ :=
  let (buf, len) := printed
  if len < 256 then (buf ++ line.take (256 - len - 1), len + line.length) else (buf, len)

def prefsText (p : PrefValues) : Bytes :=
  let (buf, len) := (UserPrefId.all.map fun i => prefText p i ++ [0x0A]).foldl printLine ([], 0)
  buf.take len

/-- `UserPrefs_Save`, where the file could be opened and written: the flags create the file, and do
not truncate it. -/
def userPrefsSave (p : PrefValues) (old : Bytes) : Bytes :=
  prefsText p ++ old.drop (prefsText p).length

/-! ## What a line sets -/

/-- The value that a line gives a preference, if it gives it one. -/
def setting (i : UserPrefId) (line : Bytes) : Option UInt8 :=
  match keyValue line with
  | none => none
  | some (key, value) =>
    if UserPrefId.all.find? (fun j => strcasecmpEq key (userPrefs j).key) = some i then
      (userPrefs i).read value
    else none

/-- The value that the last line that sets the preference gives it. -/
def lastSetting (i : UserPrefId) (lines : List Bytes) : Option UInt8 :=
  lines.reverse.findSome? (setting i)

theorem lastSetting_cons (i : UserPrefId) (line : Bytes) (lines : List Bytes) :
    lastSetting i (line :: lines) = (lastSetting i lines).or (setting i line) := by
  unfold lastSetting
  rw [List.reverse_cons, List.findSome?_append, List.findSome?_singleton]

theorem prefsHandler_continues (p : PrefValues) (key value : Bytes) :
    (prefsHandler p key value).2 = true := by
  unfold prefsHandler
  split
  · rfl
  · split <;> rfl

theorem prefsHandler_value (p : PrefValues) (i : UserPrefId) {line key value : Bytes}
    (hline : keyValue line = some (key, value)) :
    (prefsHandler p key value).1.value i = (setting i line).getD (p.value i) := by
  unfold setting prefsHandler
  simp only [hline]
  cases hfind : UserPrefId.all.find? fun j => strcasecmpEq key (userPrefs j).key with
  | none => rfl
  | some j =>
    simp only [Option.some.injEq]
    by_cases hj : j = i
    · subst hj
      rw [if_pos rfl]
      split
      · rename_i hnone
        rw [hnone]
        rfl
      · rename_i v hsome
        have hget : ((userPrefs j).read value).getD (p.value j) = v := by
          rw [hsome, Option.getD_some]
        exact (Function.update_self ..).trans hget.symm
    · rw [if_neg hj]
      split
      · rfl
      · exact Function.update_of_ne (Ne.symm hj) ..

theorem handleLines_value (p : PrefValues) (lines : List Bytes) (i : UserPrefId) :
    (handleLines prefsHandler p lines).value i = (lastSetting i lines).getD (p.value i) := by
  induction lines generalizing p with
  | nil => rfl
  | cons line lines ih =>
    rw [handleLines, lastSetting_cons]
    cases hline : keyValue line with
    | none =>
      have hset : setting i line = none := by rw [setting, hline]
      rw [ih, hset, Option.or_none]
    | some kv =>
      obtain ⟨key, value⟩ := kv
      simp only [prefsHandler_continues, if_true]
      rw [ih, prefsHandler_value p i hline]
      cases lastSetting i lines <;> rfl

/-! ## What is saved -/

section Save
variable (p : PrefValues) (i : UserPrefId)

theorem le_of_mem_valueText {c : UInt8} (h : c ∈ valueText p i) : 0x30 ≤ c := by
  unfold valueText at h
  split at h
  · rw [UInt8.le_iff_toNat_le]
    exact ((isDigit_iff c).mp (isDigit_of_mem_decimal h)).1
  · have hfalse : (ascii "false".toList).all (fun c => 0x30 ≤ c) = true := by decide
    have htrue : (ascii "true".toList).all (fun c => 0x30 ≤ c) = true := by decide
    split_ifs at h
    · exact of_decide_eq_true (List.all_eq_true.mp htrue c h)
    · exact of_decide_eq_true (List.all_eq_true.mp hfalse c h)

theorem valueText_length : (valueText p i).length ≤ 5 := by
  unfold valueText
  split
  · exact length_decimal_le_of_lt (by decide) ((p.value i).toNat_lt.trans (by decide))
  · split_ifs <;> decide

theorem plain_of_mem_valueText {c : UInt8} (h : c ∈ valueText p i) :
    c ≠ 0 ∧ isLineEnd c = false := by
  have hle := le_of_mem_valueText p i h
  constructor
  · rintro rfl
    exact absurd hle (by decide)
  · apply Bool.eq_false_iff.mpr
    intro hend
    simp only [isLineEnd, isBlank, Bool.or_eq_true, decide_eq_true_eq] at hend
    rcases hend with (rfl | rfl) | rfl | rfl <;> exact absurd hle (by decide)

theorem parseInt_decimal {v max : UInt8} (h : v ≤ max) :
    parseInt (decimal v.toNat) max = some v := by
  obtain ⟨c, cs, hcons⟩ := List.exists_cons_of_ne_nil (decimal_ne_nil v.toNat)
  have hdigit : isDigit c = true :=
    isDigit_of_mem_decimal (n := v.toNat) (hcons ▸ List.mem_cons_self)
  have hblank : isBlank c = false := by
    apply Bool.eq_false_iff.mpr
    intro hblank
    simp only [isBlank, Bool.or_eq_true, decide_eq_true_eq] at hblank
    rcases hblank with rfl | rfl <;> cases hdigit
  have hskip : (decimal v.toNat).dropWhile isBlank = decimal v.toNat := by
    rw [hcons, List.dropWhile_cons_of_neg (Bool.eq_false_iff.mp hblank)]
  have hhead : isDigit ((decimal v.toNat).headD 0) = true := by rw [hcons, List.headD_cons, hdigit]
  have hvalue : strtoul (decimal v.toNat) = v.toNat := by
    rw [strtoul, readDigits_decimal]
    have hlt := v.toNat_lt
    omega
  have hrange : ¬(isDigit ((decimal v.toNat).headD 0) = false ∨ max.toNat < v.toNat) := by
    rw [hhead]
    exact not_or.mpr ⟨nofun, Nat.not_lt.mpr (UInt8.le_iff_toNat_le.mp h)⟩
  unfold parseInt
  simp only [hskip, hvalue]
  rw [if_neg hrange, UInt8.ofNat_toNat]

theorem read_valueText : (userPrefs i).read (valueText p i) = some (p.value i) := by
  have hbound := p.le_bound i
  unfold UserPrefMeta.read valueText
  unfold UserPrefMeta.bound at hbound
  cases htype : (userPrefs i).type <;> simp only [htype] at hbound ⊢
  · split_ifs with hzero
    · have hone : p.value i = 1 := by
        rw [UInt8.le_iff_toNat_le] at hbound
        rw [ne_eq, ← UInt8.toNat_inj] at hzero
        rw [← UInt8.toNat_inj]
        exact Nat.le_antisymm hbound (Nat.pos_of_ne_zero hzero)
      rw [hone]
      decide
    · rw [not_not.mp hzero]
      decide
  · rw [parseInt_decimal hbound, Option.getD_some]

theorem key_plain {c : UInt8} (h : c ∈ (userPrefs i).key) : c ≠ 0 ∧ c ≠ 0x0A ∧ c ≠ 0x3D := by
  have hall : (userPrefs i).key.all (fun c => c ≠ 0 && c ≠ 0x0A && c ≠ 0x3D) = true := by
    cases i <;> decide
  have hc := List.all_eq_true.mp hall c h
  simp only [Bool.and_eq_true, decide_eq_true_eq] at hc
  exact ⟨hc.1.1, hc.1.2, hc.2⟩

theorem keyValue_prefText : keyValue (prefText p i) = some ((userPrefs i).key, valueText p i) := by
  apply keyValue_pair
  · exact fun c hc => (key_plain i hc).2.2
  · cases i <;> decide
  · cases i <;> decide
  · rw [List.rdropWhile_eq_self_iff]
    intro hne
    rw [(plain_of_mem_valueText p i (List.getLast_mem hne)).2]
    decide

theorem find_key :
    UserPrefId.all.find? (fun j => strcasecmpEq (userPrefs i).key (userPrefs j).key) = some i := by
  cases i <;> decide

theorem setting_prefText (j : UserPrefId) :
    setting j (prefText p i) = if i = j then some (p.value i) else none := by
  unfold setting
  rw [keyValue_prefText]
  simp only [find_key, Option.some.injEq]
  split_ifs with hij
  · exact hij ▸ read_valueText p i
  · rfl

theorem lastSetting_saved : lastSetting i (UserPrefId.all.map (prefText p)) = some (p.value i) := by
  simp only [UserPrefId.all, List.map_cons, List.map_nil, lastSetting_cons, setting_prefText]
  cases i <;> rfl

theorem prefText_plain : (∀ c ∈ prefText p i, c ≠ 0 ∧ c ≠ 0x0A) ∧ prefText p i ≠ [] := by
  refine ⟨fun c hc => ?_, by simp [prefText]⟩
  rcases List.mem_append.mp hc with hkey | hrest
  · exact ⟨(key_plain i hkey).1, (key_plain i hkey).2.1⟩
  · rcases List.mem_cons.mp hrest with rfl | hvalue
    · decide
    · obtain ⟨hzero, hend⟩ := plain_of_mem_valueText p i hvalue
      refine ⟨hzero, ?_⟩
      rintro rfl
      cases hend

theorem length_prefText_le : (prefText p i).length ≤ (userPrefs i).key.length + 6 := by
  have hvalue := valueText_length p i
  rw [prefText, List.length_append, List.length_cons]
  omega

end Save

theorem foldl_printLine {buf : Bytes} {lines : List Bytes}
    (h : (buf ++ lines.flatten).length < 256) :
    lines.foldl printLine (buf, buf.length) =
      (buf ++ lines.flatten, (buf ++ lines.flatten).length) := by
  induction lines generalizing buf with
  | nil => simp
  | cons line lines ih =>
    rw [List.flatten_cons, ← List.append_assoc] at h ⊢
    rw [List.foldl_cons, ← ih h]
    rw [List.length_append, List.length_append] at h
    have hroom : line.length ≤ 256 - buf.length - 1 := by omega
    simp only [printLine, if_pos (show buf.length < 256 by omega), List.take_of_length_le hroom,
      List.length_append]

theorem prefsText_eq (p : PrefValues) :
    prefsText p = ((UserPrefId.all.map (prefText p)).map (· ++ [0x0A])).flatten ∧
      (prefsText p).length < 256 := by
  have hlength : ((UserPrefId.all.map fun i => prefText p i ++ [0x0A]).flatten).length < 256 := by
    have hle := length_prefText_le p
    have hkeys : (UserPrefId.all.map fun i => (userPrefs i).key.length + 7).sum < 256 := by decide
    refine lt_of_le_of_lt ?_ hkeys
    rw [List.length_flatten, List.map_map]
    apply List.sum_le_sum
    intro i _
    have hi := hle i
    rw [Function.comp_apply, List.length_append, List.length_singleton]
    omega
  have hprint := @foldl_printLine [] (UserPrefId.all.map fun i => prefText p i ++ [0x0A])
    (by rwa [List.nil_append])
  have htext : prefsText p = (UserPrefId.all.map fun i => prefText p i ++ [0x0A]).flatten := by
    unfold prefsText
    rw [List.length_nil] at hprint
    simp only [hprint, List.nil_append, List.take_length]
  exact ⟨htext.trans (by rw [List.map_map]; rfl), htext ▸ hlength⟩

/-- The lines of the previous content that are read behind the new one. -/
def staleLines (p : PrefValues) (old : Bytes) : List Bytes :=
  strtok 0x0A ((old.drop (prefsText p).length).take (255 - (prefsText p).length))

theorem load_saved_value (p : PrefValues) (old : Bytes) (i : UserPrefId) :
    (userPrefsLoad (some (userPrefsSave p old))).value i =
      (lastSetting i (staleLines p old)).getD (p.value i) := by
  obtain ⟨htext, hlength⟩ := prefsText_eq p
  have hread : (userPrefsSave p old).take 255 =
      prefsText p ++ (old.drop (prefsText p).length).take (255 - (prefsText p).length) := by
    rw [userPrefsSave, List.take_append, List.take_of_length_le (Nat.le_of_lt_succ hlength)]
  have hplain : ∀ line ∈ UserPrefId.all.map (prefText p),
      (∀ c ∈ line, c ≠ 0 ∧ c ≠ 0x0A) ∧ line ≠ [] := by
    intro line hline
    obtain ⟨j, -, rfl⟩ := List.mem_map.mp hline
    exact prefText_plain p j
  have hlines : strtok 0x0A ((userPrefsSave p old).take 255) =
      UserPrefId.all.map (prefText p) ++ staleLines p old := by
    rw [hread, staleLines, ← strtok_lines hplain, ← htext]
  rw [userPrefsLoad, configReaderParse, hlines, handleLines_append prefsHandler_continues,
    handleLines_value, handleLines_value, lastSetting_saved, Option.getD_some]

/-- What is saved is loaded again exactly where no line that is left of the previous content, as far
as it is read, has the last word on a preference with another value. -/
theorem load_save_iff (p : PrefValues) (old : Bytes) :
    userPrefsLoad (some (userPrefsSave p old)) = p ↔
      ∀ i v, lastSetting i (staleLines p old) = some v → v = p.value i := by
  constructor
  · intro h i v hv
    have hvalue := load_saved_value p old i
    rw [h, hv, Option.getD_some] at hvalue
    exact hvalue.symm
  · intro h
    apply PrefValues.ext
    funext i
    rw [load_saved_value]
    cases hlast : lastSetting i (staleLines p old) with
    | none => rfl
    | some v => rw [Option.getD_some, h i v hlast]

/-- The Mii is hidden, and the rest as by default. -/
def miiHidden : PrefValues := PrefValues.defaults.set .hideMii 1 (by decide)

/-- A file with one more line than the text of the preferences. -/
theorem stale_line_is_loaded : ¬∀ p old, userPrefsLoad (some (userPrefsSave p old)) = p := by
  intro h
  have hloaded := congrArg (fun q => q.value .hideMii)
    (h miiHidden (prefsText miiHidden ++ ascii "HIDE_MII=false\n".toList))
  revert hloaded
  decide +kernel

end Presence3DS.Discord
