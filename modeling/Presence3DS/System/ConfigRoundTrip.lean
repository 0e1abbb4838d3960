import Mathlib.Algebra.Order.BigOperators.Group.List
import Presence3DS.Arm9.ConfigRanges

/-! A configuration that is printed and read again. -/

namespace Presence3DS.Arm9
open CString Decimal

/-- The options in the order of the template. -/
def iniOptions : List IniOption :=
  [.configVersionMajor, .configVersionMinor,
    .singleBoot 0, .singleBoot 1, .singleBoot 2, .singleBoot 3, .singleBoot 4, .singleBoot 5,
    .defaultEmunandNumber, .brightnessLevel, .splashPosition, .splashDurationMs,
    .pinLockNumDigits, .appLaunchNew3dsCpu, .autobootMode,
    .hbldr3dsxTitleid, .rosalinaMenuCombo, .pluginLoaderEnabled, .ntpTzOffsetMin,
    .screenFiltersCct .top, .screenFiltersCct .bottom,
    .screenFiltersGamma .top 0, .screenFiltersGamma .top 1, .screenFiltersGamma .top 2,
    .screenFiltersGamma .bottom 0, .screenFiltersGamma .bottom 1, .screenFiltersGamma .bottom 2,
    .screenFiltersContrast .top 0, .screenFiltersContrast .top 1, .screenFiltersContrast .top 2,
    .screenFiltersContrast .bottom 0, .screenFiltersContrast .bottom 1,
    .screenFiltersContrast .bottom 2,
    .screenFiltersInvert .top, .screenFiltersInvert .bottom,
    .autobootDsiTitleid, .autoboot3dsAppMemType, .autoboot3dsUseNs,
    .singleMisc 0, .singleMisc 1, .singleMisc 2, .singleMisc 3]

/-- The text of the value that is printed for an option. -/
def IniOption.print (cfg : CfgData) : IniOption → Bytes
  | configVersionMajor => signedDecimal Arm9.configVersionMajor
  | configVersionMinor => signedDecimal Arm9.configVersionMinor
  | singleBoot i => signedDecimal (cfg.flag i).toNat
  | defaultEmunandNumber => signedDecimal (1 + cfg.multi .defaultEmu)
  | brightnessLevel => signedDecimal (4 - cfg.multi .brightness)
  | splashPosition => wordOf splashPositions (cfg.multi .splash)
  | splashDurationMs => decimal cfg.splashDurationMsec
  | pinLockNumDigits => signedDecimal (pinOptionToDigits (cfg.multi .pin))
  | appLaunchNew3dsCpu => wordOf new3dsCpus (cfg.multi .newCpu)
  | autobootMode => wordOf autobootModes (cfg.multi .autobootMode)
  | hbldr3dsxTitleid => hex64 cfg.hbldr3dsxTitleId
  | rosalinaMenuCombo => menuComboToString cfg.rosalinaMenuCombo
  | pluginLoaderEnabled => signedDecimal (cfg.pluginLoaderFlags &&& 1#32).toNat
  | ntpTzOffsetMin => signedDecimal cfg.ntpTzOffetMinutes
  | screenFiltersCct screen => signedDecimal (cfg.screenFilter screen).cct
  | screenFiltersGamma screen ch => encodedFloatToString ((cfg.screenFilter screen).gammaEnc ch)
  | screenFiltersContrast screen ch =>
    encodedFloatToString ((cfg.screenFilter screen).contrastEnc ch)
  | screenFiltersInvert screen => signedDecimal (cfg.screenFilter screen).invert.toNat
  | autobootDsiTitleid => hex64 cfg.autobootTwlTitleId
  | autoboot3dsAppMemType => signedDecimal cfg.autobootCtrAppmemtype
  | autoboot3dsUseNs => signedDecimal cfg.autobootCtrUseNs.toNat
  | singleMisc i => signedDecimal (cfg.flag (i + 6)).toNat

/-- The sections and names of the template. -/
def templateNames (sectionName : Bytes) : List TemplateLine → List (Bytes × Bytes)
  | [] => []
  | .header name :: lines => templateNames (lit name) lines
  | .setting name _ :: lines => (sectionName, lit name) :: templateNames sectionName lines
  | _ :: lines => templateNames sectionName lines

theorem optionOfName_template :
    (templateNames [] configTemplateIni).map (fun s => optionOfName s.1 s.2) =
      iniOptions.map some := by decide +kernel

set_option maxRecDepth 8000 in
theorem iniSettings_savedItems (build : Build) (cfg : CfgData) :
    iniSettings [] (savedItems build cfg) =
      List.zipWith (fun s value => (s.1, s.2, value)) (templateNames [] configTemplateIni)
        (iniOptions.map (IniOption.print cfg)) := rfl

/-! ## One option -/

section Bits
variable {cfg : CfgData} {a : MultiOption}

theorem multi_lt (cfg : CfgData) (a : MultiOption) : cfg.multi a < 4 := by
  rw [CfgData.multi, BitVec.toNat_and]
  exact Nat.lt_succ_of_le Nat.and_le_right

theorem testBit_multi (cfg : CfgData) (a : MultiOption) (j : ℕ) :
    (cfg.multi a).testBit j =
      (cfg.multiConfig.getLsbD (2 * a.index + j) && decide (j < 2)) := by
  rw [CfgData.multi, BitVec.testBit_toNat, BitVec.getLsbD_and, BitVec.getLsbD_ushiftRight]
  congr 1
  rcases j with _ | _ | j
  · rfl
  · rfl
  · have hj : ¬j + 1 + 1 < 2 := by omega
    rw [BitVec.getLsbD_ofNat, testBit_of_lt_four (by decide) (by omega), Bool.and_false,
      decide_eq_false hj]

theorem multi_orMulti (cfg : CfgData) (a b : MultiOption) {opt : ℕ} (hopt : opt < 4) :
    (cfg.orMulti a opt).multi b = if b = a then cfg.multi b ||| opt else cfg.multi b := by
  apply Nat.eq_of_testBit_eq
  intro j
  rw [testBit_multi, getLsbD_orMulti cfg a hopt]
  by_cases hj : j < 2
  · split_ifs with hab
    · rw [hab, Nat.testBit_or, testBit_multi, decide_eq_true hj, Nat.add_sub_cancel_left,
        decide_eq_true (Nat.le_add_right _ _)]
      simp
    · have hindex : a.index ≠ b.index := by
        intro heq
        apply hab
        cases a <;> cases b <;> first | rfl | cases heq
      have hother : (decide (2 * a.index ≤ 2 * b.index + j) &&
          opt.testBit (2 * b.index + j - 2 * a.index)) = false := by
        by_cases hle : 2 * a.index ≤ 2 * b.index + j
        · rw [testBit_of_lt_four hopt (by omega), Bool.and_false]
        · rw [decide_eq_false hle, Bool.false_and]
      rw [hother, Bool.or_false, testBit_multi]
  · rw [decide_eq_false hj, Bool.and_false]
    have hbit : (cfg.multi b).testBit j = false :=
      testBit_of_lt_four (multi_lt cfg b) (not_lt.mp hj)
    split_ifs
    · rw [Nat.testBit_or, hbit, testBit_of_lt_four hopt (not_lt.mp hj)]
      rfl
    · exact hbit.symm

theorem multiConfig_ext {cfg cfg' : CfgData}
    (h : ∀ i, 12 ≤ i → cfg.multiConfig.getLsbD i = false)
    (h' : ∀ i, 12 ≤ i → cfg'.multiConfig.getLsbD i = false)
    (hmulti : ∀ a, cfg.multi a = cfg'.multi a) : cfg.multiConfig = cfg'.multiConfig := by
  apply BitVec.eq_of_getLsbD_eq
  intro i _
  by_cases hi : 12 ≤ i
  · rw [h i hi, h' i hi]
  · obtain ⟨a, ha⟩ : ∃ a : MultiOption, a.index = i / 2 := by
      have hhalf : i / 2 < 6 := by omega
      interval_cases i / 2
      · exact ⟨.defaultEmu, rfl⟩
      · exact ⟨.brightness, rfl⟩
      · exact ⟨.splash, rfl⟩
      · exact ⟨.pin, rfl⟩
      · exact ⟨.newCpu, rfl⟩
      · exact ⟨.autobootMode, rfl⟩
    have hbit := congrArg (fun n => n.testBit (i % 2)) (hmulti a)
    have hsplit : 2 * a.index + i % 2 = i := by omega
    have hlow : i % 2 < 2 := Nat.mod_lt _ (by decide)
    simpa only [testBit_multi, hsplit, decide_eq_true hlow, Bool.and_true] using hbit

end Bits

/-- What reading an option back makes of a configuration. -/
def IniOption.reread (cfg into : CfgData) : IniOption → CfgData
  | configVersionMajor => { into with formatVersionMajor := Arm9.configVersionMajor }
  | configVersionMinor => { into with formatVersionMinor := Arm9.configVersionMinor }
  | singleBoot i => into.orFlag i (cfg.flag i)
  | defaultEmunandNumber => into.orMulti .defaultEmu (cfg.multi .defaultEmu)
  | brightnessLevel => into.orMulti .brightness (cfg.multi .brightness)
  -- There is no third word, so the default is printed.
  | splashPosition => into.orMulti .splash (cfg.multi .splash % 3)
  | splashDurationMs => { into with splashDurationMsec := cfg.splashDurationMsec }
  | pinLockNumDigits => into.orMulti .pin (cfg.multi .pin)
  | appLaunchNew3dsCpu => into.orMulti .newCpu (cfg.multi .newCpu)
  | autobootMode => into.orMulti .autobootMode (cfg.multi .autobootMode % 3)
  | hbldr3dsxTitleid => { into with hbldr3dsxTitleId := cfg.hbldr3dsxTitleId }
  | rosalinaMenuCombo => { into with rosalinaMenuCombo := cfg.rosalinaMenuCombo }
  | pluginLoaderEnabled =>
    { into with
      pluginLoaderFlags :=
        if cfg.pluginLoaderFlags.getLsbD 0 then into.pluginLoaderFlags ||| 1#32
        else into.pluginLoaderFlags &&& ~~~1#32 }
  | ntpTzOffsetMin => { into with ntpTzOffetMinutes := cfg.ntpTzOffetMinutes }
  | screenFiltersCct screen =>
    into.setFilter screen fun filter => { filter with cct := (cfg.screenFilter screen).cct }
  | screenFiltersGamma screen ch =>
    into.setFilter screen fun filter =>
      { filter with
        gammaEnc := setChannel filter.gammaEnc ch
          (decodedFloat ((cfg.screenFilter screen).gammaEnc ch)) }
  | screenFiltersContrast screen ch =>
    into.setFilter screen fun filter =>
      { filter with
        contrastEnc := setChannel filter.contrastEnc ch
          (decodedFloat ((cfg.screenFilter screen).contrastEnc ch)) }
  | screenFiltersInvert screen =>
    into.setFilter screen fun filter => { filter with invert := (cfg.screenFilter screen).invert }
  | autobootDsiTitleid => { into with autobootTwlTitleId := cfg.autobootTwlTitleId }
  | autoboot3dsAppMemType => { into with autobootCtrAppmemtype := cfg.autobootCtrAppmemtype }
  | autoboot3dsUseNs => { into with autobootCtrUseNs := cfg.autobootCtrUseNs }
  | singleMisc i => into.orFlag (i + 6) (cfg.flag (i + 6))

theorem parseDecIntOption_natCast {n : ℕ} {minval maxval : ℤ} (hmin : minval ≤ n)
    (hmax : n ≤ maxval) (hroom : n < 2 ^ 63) :
    parseDecIntOption (signedDecimal n) minval maxval = some (n : ℤ) :=
  parseDecIntOption_signedDecimal hmin hmax (by omega) (by omega)

theorem splashPositions_printed : ∀ n < 4,
    parseWordOption splashPositions (wordOf splashPositions n) = some (n % 3) := by decide

theorem new3dsCpus_printed : ∀ n < 4,
    parseWordOption new3dsCpus (wordOf new3dsCpus n) = some n := by decide

theorem autobootModes_printed : ∀ n < 4,
    parseWordOption autobootModes (wordOf autobootModes n) = some (n % 3) := by decide

theorem pinDigits_printed : ∀ n < 4,
    ((parseDecIntOption (signedDecimal (pinOptionToDigits n)) 0 8).bind fun opt =>
      pinDigits.lookup opt) = some n := by decide

/-- A configuration where no option that has to be in range was left out. -/
structure ConfigPresent (cfg : CfgData) : Prop where
  cct : ∀ screen, (cfg.screenFilter screen).cct ≠ 0
  menuCombo : cfg.rosalinaMenuCombo ≠ 0#32

theorem set_print {cfg : CfgData} (h : ConfigRanges cfg) (hpresent : ConfigPresent cfg)
    (into : CfgData) (option : IniOption) :
    option.set into (option.print cfg) = some (option.reread cfg into) := by
  cases option <;> simp only [IniOption.set, IniOption.print, IniOption.reread]
  case configVersionMajor | configVersionMinor =>
    rw [parseDecIntOption_natCast (by decide) (by decide) (by decide)]
    rfl
  case singleBoot i | singleMisc i =>
    rw [parseBoolOption_signedDecimal]
    rfl
  case defaultEmunandNumber =>
    have hlt := multi_lt cfg .defaultEmu
    rw [parseDecIntOption_signedDecimal (by omega) (by omega) (by omega) (by omega),
      Option.map_some, add_sub_cancel_left, Int.toNat_natCast]
  case brightnessLevel =>
    have hlt := multi_lt cfg .brightness
    rw [parseDecIntOption_signedDecimal (by omega) (by omega) (by omega) (by omega),
      Option.map_some, sub_sub_cancel, Int.toNat_natCast]
  case splashPosition => rw [splashPositions_printed _ (multi_lt cfg _), Option.map_some]
  case appLaunchNew3dsCpu => rw [new3dsCpus_printed _ (multi_lt cfg _), Option.map_some]
  case autobootMode => rw [autobootModes_printed _ (multi_lt cfg _), Option.map_some]
  case splashDurationMs =>
    have hsigned : decimal cfg.splashDurationMsec = signedDecimal cfg.splashDurationMsec := by
      rw [signedDecimal, if_neg (not_lt.mpr (Int.natCast_nonneg _)), Int.natAbs_natCast]
    have hlt := h.splashDuration
    rw [hsigned, parseDecIntOption_natCast (by omega) (by omega) (by omega), Option.map_some,
      Int.toNat_natCast]
  case pinLockNumDigits =>
    have hpin := pinDigits_printed _ (multi_lt cfg .pin)
    obtain ⟨opt, hopt, hlookup⟩ := Option.bind_eq_some_iff.mp hpin
    rw [hopt, Option.bind_some, hlookup, Option.map_some]
  case hbldr3dsxTitleid | autobootDsiTitleid => rw [parseHexIntOption_hex64, Option.map_some]
  case rosalinaMenuCombo =>
    rw [parseKeyComboOption_menuComboToString hpresent.menuCombo h.menuCombo, Option.map_some]
  case pluginLoaderEnabled =>
    have hbit : (cfg.pluginLoaderFlags &&& 1#32).toNat =
        (cfg.pluginLoaderFlags.getLsbD 0).toNat := by
      rw [BitVec.and_one_eq_setWidth_ofBool_getLsbD]
      cases cfg.pluginLoaderFlags.getLsbD 0 <;> rfl
    rw [hbit, parseBoolOption_signedDecimal, Option.map_some]
  case ntpTzOffsetMin =>
    obtain ⟨hmin, hmax⟩ := h.timeZone
    rw [parseDecIntOption_signedDecimal hmin hmax (by omega) (by omega), Option.map_some]
  case screenFiltersCct screen =>
    obtain ⟨hmax, hmin⟩ := h.cct screen
    have hlow := hmin (hpresent.cct screen)
    rw [parseDecIntOption_natCast (by omega) (by omega) (by omega), Option.map_some,
      Int.toNat_natCast]
  case screenFiltersGamma screen ch =>
    obtain ⟨hmin, hmax⟩ := h.gamma screen ch
    rw [parseDecFloatOption_encodedFloatToString hmin hmax (by decide), Option.map_some]
  case screenFiltersContrast screen ch =>
    obtain ⟨hmin, hmax⟩ := h.contrast screen ch
    rw [parseDecFloatOption_encodedFloatToString hmin hmax (by decide), Option.map_some]
  case screenFiltersInvert screen => rw [parseBoolOption_signedDecimal, Option.map_some]
  case autoboot3dsAppMemType =>
    have hle := h.appmemtype
    rw [parseDecIntOption_natCast (by omega) (by omega) (by omega), Option.map_some,
      Int.toNat_natCast]
  case autoboot3dsUseNs => rw [parseBoolOption_signedDecimal, Option.map_some]

/-! ## The whole file -/

/-- What reading back all options makes of an empty configuration. -/
def rereadConfig (cfg : CfgData) : CfgData :=
  iniOptions.foldl (fun into option => option.reread cfg into) .zero

theorem foldlM_accept {names : List (Bytes × Bytes)} {options : List IniOption}
    (h : names.map (fun s => optionOfName s.1 s.2) = options.map some) (print : IniOption → Bytes)
    (reading : IniReading) :
    (List.zipWith (fun s value => (s.1, s.2, value)) names (options.map print)).foldlM
        IniReading.accept reading =
      (options.foldlM (fun cfg (option : IniOption) => option.set cfg (print option)) reading.cfg).map
        fun cfg => { reading with cfg } := by
  induction options generalizing names reading with
  | nil =>
    rw [List.map_nil, List.zipWith_nil_right]
    rfl
  | cons option options ih =>
    cases names with
    | nil => cases h
    | cons s names =>
      rw [List.map_cons, List.map_cons, List.cons.injEq] at h
      rw [List.map_cons, List.zipWith_cons_cons, List.foldlM_cons, List.foldlM_cons,
        IniReading.accept, h.1, Option.bind_some]
      cases hset : option.set reading.cfg (print option) with
      | none => rfl
      | some cfg => exact ih h.2 { reading with cfg }

theorem foldlM_some {σ α : Type*} {f : σ → α → Option σ} {g : σ → α → σ} (l : List α)
    (h : ∀ a ∈ l, ∀ s, f s a = some (g s a)) (s : σ) : l.foldlM f s = some (l.foldl g s) := by
  induction l generalizing s with
  | nil => rfl
  | cons a l ih =>
    obtain ⟨ha, hl⟩ := List.forall_mem_cons.mp h
    rw [List.foldlM_cons, ha, List.foldl_cons]
    exact ih hl _

theorem foldlM_none {σ α : Type*} {f : σ → α → Option σ} {l : List α} {a : α} (ha : a ∈ l)
    (h : ∀ s, f s a = none) (s : σ) : l.foldlM f s = none := by
  induction l generalizing s with
  | nil => cases ha
  | cons b l ih =>
    rw [List.foldlM_cons]
    rcases List.mem_cons.mp ha with rfl | ha
    · rw [h]
      rfl
    · cases f s b with
      | none => rfl
      | some t => exact ih ha t

theorem readLumaIniConfig_saved {build : Build} {cfg : CfgData}
    (hplain : ∀ item ∈ savedItems build cfg, item.Plain)
    (hempty : (saveLumaIniConfigToStr build cfg).length ≠ 0)
    (hroom : (saveLumaIniConfigToStr build cfg).length < tmpIniBufferSize) :
    readLumaIniConfig .zero (saveLumaIniConfigToStr build cfg) =
      iniOptions.foldlM (fun into (option : IniOption) => option.set into (option.print cfg)) .zero := by
  have hread := iniParseStream_settings IniReading.accept IniReading.reject
    (savedItems build cfg) hplain ⟨[], [], 0, 0, ⟨.zero, false, 0⟩⟩ rfl
  have hbounds : ¬((saveLumaIniConfigToStr build cfg).length = 0 ∨
      tmpIniBufferSize - 1 < (saveLumaIniConfigToStr build cfg).length) := by omega
  rw [readLumaIniConfig, if_neg hbounds, saveLumaIniConfigToStr, iniParseString_text _ _ hplain]
  simp only [iniSettings_savedItems,
    foldlM_accept optionOfName_template (IniOption.print cfg)] at hread
  cases hset : iniOptions.foldlM
      (fun into (option : IniOption) => option.set into (option.print cfg)) CfgData.zero with
  | some into =>
    rw [hset] at hread
    have huser := hread.2
    simp [configIniHandler, huser]
  | none =>
    rw [hset] at hread
    obtain ⟨reading, lineno, -, -, huser⟩ := hread
    simp [configIniHandler, huser, IniReading.reject]

/-! ## What is printed has room, and is plain -/

def solidByte (c : UInt8) : Bool := !isSpace c && c != 0 && c != 0x3B

theorem PlainValue.of_solid {value : Bytes} (h : ∀ c ∈ value, solidByte c = true) :
    PlainValue value := by
  have hsolid : ∀ c ∈ value, isSpace c = false ∧ c ≠ 0 ∧ c ≠ 0x3B := by
    intro c hc
    simpa [solidByte, and_assoc] using h c hc
  refine ⟨fun c hc => ?_, fun c hc => (hsolid c (List.mem_of_mem_head? hc)).1,
    fun c hc => (hsolid c (List.mem_of_mem_getLast? hc)).1⟩
  obtain ⟨hspace, hzero, hsemicolon⟩ := hsolid c hc
  refine ⟨hzero, ?_, hsemicolon⟩
  rintro rfl
  cases hspace

theorem solidByte_of_isDigit {c : UInt8} (h : isDigit c = true) : solidByte c = true := by
  have hspace := isSpace_of_isDigit h
  have hzero : c ≠ 0 := by
    rintro rfl
    cases h
  have hsemicolon : c ≠ 0x3B := by
    rintro rfl
    cases h
  simp [solidByte, hspace, hzero, hsemicolon]

theorem solid_decimal (n : ℕ) : ∀ c ∈ decimal n, solidByte c = true :=
  fun _ hc => solidByte_of_isDigit (isDigit_of_mem_decimal hc)

theorem solid_signedDecimal (n : ℤ) : ∀ c ∈ signedDecimal n, solidByte c = true := by
  rw [signedDecimal]
  split_ifs
  · exact List.forall_mem_cons.mpr ⟨by decide, solid_decimal _⟩
  · exact solid_decimal _

theorem solid_hex64 (n : BitVec 64) : ∀ c ∈ hex64 n, solidByte c = true := by
  have hdigits : ∀ d < 16, solidByte (hexDigit d) = true := by decide
  intro c hc
  obtain ⟨d, hd, rfl⟩ := List.mem_map.mp hc
  exact hdigits d (lt_of_mem_lastDigits (by decide) hd)

theorem solid_encodedFloatToString {val : ℤ} (h : 0 ≤ val) :
    ∀ c ∈ encodedFloatToString val, solidByte c = true := by
  have hdigits : ∀ c ∈ (lastDigits 10 8 (encodedFraction val)).map digit, solidByte c = true := by
    intro c hc
    obtain ⟨d, hd, rfl⟩ := List.mem_map.mp hc
    exact solidByte_of_isDigit (isDigit_digit (lt_of_mem_lastDigits (by decide) hd))
  rw [encodedFloatToString_eq h]
  intro c hc
  rcases List.mem_append.mp hc with hc | hc
  · exact solid_decimal _ c hc
  · split_ifs at hc
    · cases hc
    · rcases List.mem_cons.mp hc with rfl | hc
      · decide
      · exact hdigits c ((List.rdropWhile_prefix _ _).mem hc)

/-- `PlainValue`, as a test. -/
def plainValue (value : Bytes) : Bool :=
  value.all (fun c => c != 0 && c != 0x0A && c != 0x3B) &&
    value.head?.all (fun c => !isSpace c) && value.getLast?.all fun c => !isSpace c

theorem PlainValue.of_test {value : Bytes} (h : plainValue value = true) : PlainValue value := by
  simp only [plainValue, Bool.and_eq_true, List.all_eq_true, bne_iff_ne, Option.all_eq_true,
    Bool.not_eq_true', and_assoc] at h
  exact ⟨h.1, h.2.1, h.2.2⟩

theorem plainValue_nil : PlainValue [] := .of_test (by decide)

theorem keyName_plain : ∀ i < 32, keyName i ≠ [] ∧ plainValue (keyName i) = true := by
  decide

theorem plainValue_intercalate {names : List Bytes}
    (h : ∀ name ∈ names, name ≠ [] ∧ PlainValue name) :
    PlainValue ([0x2B].intercalate names) := by
  induction names with
  | nil => exact plainValue_nil
  | cons name names ih =>
    obtain ⟨⟨hne, hname⟩, hnames⟩ := List.forall_mem_cons.mp h
    cases names with
    | nil => simpa using hname
    | cons other names =>
      have hrest := ih hnames
      obtain ⟨hother, -⟩ := (List.forall_mem_cons.mp hnames).1
      have hrest' : [0x2B].intercalate (other :: names) ≠ [] := by
        cases names with
        | nil => simpa using hother
        | cons third names =>
          rw [List.intercalate_cons_cons]
          simp
      rw [List.intercalate_cons_cons]
      refine ⟨fun c hc => ?_, fun c hc => ?_, fun c hc => ?_⟩
      · simp only [List.mem_append, List.mem_singleton] at hc
        rcases hc with (hc | rfl) | hc
        · exact hname.bytes c hc
        · decide
        · exact hrest.bytes c hc
      · rw [List.append_assoc, List.head?_append_of_ne_nil _ hne] at hc
        exact hname.head c hc
      · rw [List.getLast?_append_of_ne_nil _ hrest'] at hc
        exact hrest.last c hc

theorem plainValue_menuComboToString (combo : BitVec 32) :
    PlainValue (menuComboToString combo) := by
  rw [menuComboToString_eq]
  apply plainValue_intercalate
  intro name hname
  obtain ⟨i, hi, rfl⟩ := List.mem_map.mp hname
  obtain ⟨hne, hplain⟩ := keyName_plain i (BitVec.lt_of_getLsbD (mem_pressedKeys.mp hi))
  exact ⟨hne, .of_test hplain⟩

/-- The bytes that the names of the pressed keys take, each with a plus or the NUL after it. -/
def keysRoom (combo : BitVec 32) : ℕ :=
  ((pressedKeys combo).map fun i => (keyName i).length + 1).sum

theorem length_menuComboToString (combo : BitVec 32) :
    (menuComboToString combo).length = keysRoom combo - 1 := by
  have hlength : ∀ l : List ℕ, (l.flatMap fun i => keyName i ++ [0x2B]).length =
      (l.map fun i => (keyName i).length + 1).sum := by
    intro l
    induction l with
    | nil => rfl
    | cons i l ih =>
      rw [List.flatMap_cons, List.length_append, ih, List.map_cons, List.sum_cons,
        List.length_append, List.length_singleton]
  rw [menuComboToString, List.length_dropLast, hlength]
  rfl

theorem keysRoom_le {combo : BitVec 32} (h : Named combo) : keysRoom combo ≤ 142 := by
  have hnamed : (((List.range 32).reverse.filter fun i => keyName i ≠ lit "?").map
      fun i => (keyName i).length + 1).sum = 142 := by decide +kernel
  have hsublist : (pressedKeys combo).Sublist
      ((List.range 32).reverse.filter fun i => keyName i ≠ lit "?") := by
    apply List.monotone_filter_right
    intro i hi
    exact decide_eq_true (h i hi)
  rw [← hnamed]
  exact (hsublist.map _).sum_le_sum fun _ _ => Nat.zero_le _

theorem length_signedDecimal_le {n : ℤ} (h : n.natAbs < 2 ^ 64) :
    (signedDecimal n).length ≤ 21 := by
  have hlength := length_decimal_le h
  rw [signedDecimal]
  split_ifs
  · rw [List.length_cons]
    omega
  · omega

theorem length_hex64 (n : BitVec 64) : (hex64 n).length = 16 := by
  rw [hex64, List.length_map, length_lastDigits]

theorem length_encodedFloatDigits_le {val : ℤ} (hmin : 0 ≤ val) (hmax : val < 2 ^ 63) :
    (encodedFloatDigits val).length ≤ 30 := by
  have hint : val.natAbs / floatConvMult < 2 ^ 64 :=
    lt_of_le_of_lt (Nat.div_le_self _ _) (by omega)
  have hlength := length_signedDecimal_le (n := 1 * (val.natAbs / floatConvMult : ℕ))
    (by rw [one_mul, Int.natAbs_natCast]; exact hint)
  unfold encodedFloatDigits
  simp only [if_pos hmin, List.length_append]
  split_ifs
  · rw [List.length_nil]
    omega
  · rw [List.length_cons, List.length_map, length_lastDigits]
    omega

theorem length_encodedFloatToString_le {val : ℤ} (hmin : 0 ≤ val) (hmax : val < 2 ^ 63) :
    (encodedFloatToString val).length ≤ 30 := by
  have hlength := length_encodedFloatDigits_le hmin hmax
  unfold encodedFloatToString
  split_ifs
  · exact hlength
  · exact (List.rdropWhile_prefix _ _).length_le.trans hlength

theorem length_lumaVerStr_le (build : Build) : (lumaVerStr build).length ≤ 41 := by
  have hdecimal : ∀ n : Fin (2 ^ 31), (decimal n).length ≤ 10 := fun n =>
    length_decimal_le_of_lt (by decide) (n.isLt.trans (by decide))
  have hname : (lit "Luma3DS v").length = 9 := by decide
  have hpoint : (lit ".").length = 1 := by decide
  have hmajor := hdecimal build.versionMajor
  have hminor := hdecimal build.versionMinor
  have hbuild := hdecimal build.versionBuild
  unfold lumaVerStr
  split_ifs <;> simp only [List.length_append, List.length_nil, hname, hpoint] <;> omega

theorem length_lumaRevSuffixStr_le (build : Build) : (lumaRevSuffixStr build).length ≤ 9 := by
  have hdash : (lit "-").length = 1 := by decide
  unfold lumaRevSuffixStr
  split_ifs
  · exact Nat.zero_le _
  · rw [List.length_append, hdash, hex32, List.length_map, length_lastDigits]

/-! ### The lines -/

/-- An argument whose text is plain and takes at most so many bytes. -/
def Arg.Plain : Arg → ℕ → Prop
  | int n, room => n.natAbs < 2 ^ 63 ∧ room = 21
  | str s, room => PlainValue s ∧ s.length ≤ room ∧ room ≤ 146
  | long _, room => room = 16

theorem Arg.Plain.format {arg : Arg} {room : ℕ} (h : arg.Plain room) (conversion : Conversion) :
    PlainValue (formatArg conversion arg) ∧ (formatArg conversion arg).length ≤ room ∧
      room ≤ 146 := by
  have hnil := plainValue_nil
  cases arg with
  | int n =>
    obtain ⟨hn, rfl⟩ := h
    cases conversion with
    | d =>
      exact ⟨.of_solid (solid_signedDecimal n), length_signedDecimal_le (by omega), by decide⟩
    | u =>
      have hlength := length_decimal_le (n := n.toNat) (by omega)
      exact ⟨.of_solid (solid_decimal _), hlength.trans (by decide), by decide⟩
    | s => exact ⟨hnil, Nat.zero_le _, by decide⟩
    | llx => exact ⟨hnil, Nat.zero_le _, by decide⟩
  | str s =>
    obtain ⟨hs, hlength, hroom⟩ := h
    cases conversion with
    | s => exact ⟨hs, hlength, hroom⟩
    | d => exact ⟨hnil, Nat.zero_le _, hroom⟩
    | u => exact ⟨hnil, Nat.zero_le _, hroom⟩
    | llx => exact ⟨hnil, Nat.zero_le _, hroom⟩
  | long n =>
    cases h
    cases conversion with
    | llx => exact ⟨.of_solid (solid_hex64 n), (length_hex64 n).le, by decide⟩
    | d => exact ⟨hnil, Nat.zero_le _, by decide⟩
    | u => exact ⟨hnil, Nat.zero_le _, by decide⟩
    | s => exact ⟨hnil, Nat.zero_le _, by decide⟩

namespace TemplateLine

def plain : TemplateLine → Bool
  | generated _ => false
  | note text => plainNote (lit text)
  | header name => plainName (lit name)
  | setting name _ => plainName (lit name)

def size : TemplateLine → ℕ
  | generated text => (lit text).length + 1
  | note text => (lit text).length + 1
  | header name => (lit name).length + 3
  | setting name _ => (lit name).length + 4

end TemplateLine

theorem fillTemplate_plain {lines : List TemplateLine} {args : List Arg} {rooms : List ℕ}
    (hlines : lines.all TemplateLine.plain = true) (hargs : List.Forall₂ Arg.Plain args rooms) :
    (∀ item ∈ fillTemplate lines args, item.Plain) ∧
      ((fillTemplate lines args).flatMap IniItem.line).length ≤
        (lines.map TemplateLine.size).sum + rooms.sum := by
  induction lines generalizing args rooms with
  | nil => exact ⟨fun _ h => (List.not_mem_nil h).elim, Nat.zero_le _⟩
  | cons line lines ih =>
    rw [List.all_cons, Bool.and_eq_true] at hlines
    obtain ⟨hline, hlines⟩ := hlines
    cases line with
    | generated text => cases hline
    | note text =>
      obtain ⟨hplain, hlength⟩ := ih hlines hargs
      refine ⟨List.forall_mem_cons.mpr ⟨hline, hplain⟩, ?_⟩
      rw [fillTemplate, List.flatMap_cons, List.length_append, List.map_cons, List.sum_cons]
      simp only [IniItem.line, IniItem.text, List.length_append, List.length_singleton,
        TemplateLine.size]
      omega
    | header name =>
      obtain ⟨hplain, hlength⟩ := ih hlines hargs
      refine ⟨List.forall_mem_cons.mpr ⟨hline, hplain⟩, ?_⟩
      rw [fillTemplate, List.flatMap_cons, List.length_append, List.map_cons, List.sum_cons]
      simp only [IniItem.line, IniItem.text, List.length_append, List.length_cons,
        List.length_nil, TemplateLine.size]
      omega
    | setting name conversion =>
      cases hargs with
      | nil => exact ⟨fun _ h => (List.not_mem_nil h).elim, Nat.zero_le _⟩
      | cons harg hargs =>
        obtain ⟨hplain, hlength⟩ := ih hlines hargs
        obtain ⟨hvalue, hsize, hroom⟩ := harg.format conversion
        refine ⟨List.forall_mem_cons.mpr ⟨⟨hline, hvalue, hsize.trans hroom⟩, hplain⟩, ?_⟩
        rw [fillTemplate, List.flatMap_cons, List.length_append, List.map_cons, List.sum_cons,
          List.sum_cons]
        simp only [IniItem.line, IniItem.text, List.length_append, List.length_cons,
          List.length_nil, TemplateLine.size]
        omega

/-- Lines that the parser reads as they are meant, of `room` bytes at most without the values. -/
def PlainLines (lines : List TemplateLine) (room : ℕ) : Prop :=
  lines.all TemplateLine.plain = true ∧ (lines.map TemplateLine.size).sum ≤ room

instance (lines : List TemplateLine) (room : ℕ) : Decidable (PlainLines lines room) :=
  inferInstanceAs (Decidable (_ ∧ _))

theorem PlainLines.of_parts {lines : List TemplateLine} {i room room' : ℕ}
    (h : PlainLines (lines.take i) room) (h' : PlainLines (lines.drop i) room') :
    PlainLines lines (room + room') := by
  rw [← List.take_append_drop i lines, PlainLines, List.all_append, List.map_append,
    List.sum_append, h.1, h'.1]
  exact ⟨rfl, Nat.add_le_add h.2 h'.2⟩

theorem words_plain : ∀ n < 4,
    (plainValue (wordOf splashPositions n) = true ∧ (wordOf splashPositions n).length ≤ 15) ∧
    (plainValue (wordOf new3dsCpus n) = true ∧ (wordOf new3dsCpus n).length ≤ 8) ∧
    (plainValue (wordOf autobootModes n) = true ∧ (wordOf autobootModes n).length ≤ 3) := by
  decide +kernel

theorem pinOptionToDigits_lt : ∀ n < 4, (pinOptionToDigits n).natAbs < 2 ^ 63 := by decide

section Saved
variable {build : Build} {cfg : CfgData}

theorem floatArg_plain {val bound : ℤ} (h : 0 ≤ val ∧ val ≤ bound) (hbound : bound < 2 ^ 63) :
    (floatArg val).Plain 30 :=
  ⟨.of_solid (solid_encodedFloatToString h.1), length_encodedFloatToString_le h.1 (by omega),
    by decide⟩

theorem boolArg_plain (b : Bool) : (boolArg b).Plain 21 := by
  refine ⟨?_, rfl⟩
  show (b.toNat : ℤ).natAbs < 2 ^ 63
  cases b <;> decide

theorem natArg_plain {n : ℕ} (h : n < 2 ^ 63) : (Arg.int n).Plain 21 :=
  ⟨(Int.natAbs_natCast n).trans_lt h, rfl⟩

/-- The room of the arguments but the first two, which make the first line. -/
def argRooms : List ℕ :=
  [21, 21, 21, 21, 21, 21, 21, 21, 21, 21, 15, 21, 21, 8, 3, 16, 141, 21, 21, 21, 21,
    30, 30, 30, 30, 30, 30, 30, 30, 30, 30, 30, 30, 21, 21, 16, 21, 21, 21, 21, 21, 21]

theorem iniArgs_plain (build : Build) (h : ConfigRanges cfg) :
    List.Forall₂ Arg.Plain (iniArgs build cfg).tail.tail argRooms := by
  have hgamma : ∀ screen ch, (floatArg ((cfg.screenFilter screen).gammaEnc ch)).Plain 30 :=
    fun screen ch => floatArg_plain (h.gamma screen ch) (by decide)
  have hcontrast : ∀ screen ch, (floatArg ((cfg.screenFilter screen).contrastEnc ch)).Plain 30 :=
    fun screen ch => floatArg_plain (h.contrast screen ch) (by decide)
  have hcct : ∀ screen, (Arg.int (cfg.screenFilter screen).cct).Plain 21 :=
    fun screen => natArg_plain ((h.cct screen).1.trans_lt (by decide))
  have hemu : (Arg.int (1 + cfg.multi .defaultEmu)).Plain 21 := by
    have hlt := multi_lt cfg .defaultEmu
    exact ⟨by omega, rfl⟩
  have hbrightness : (Arg.int (4 - cfg.multi .brightness)).Plain 21 := by
    have hlt := multi_lt cfg .brightness
    exact ⟨by omega, rfl⟩
  have hpin : (Arg.int (pinOptionToDigits (cfg.multi .pin))).Plain 21 :=
    ⟨pinOptionToDigits_lt _ (multi_lt cfg _), rfl⟩
  obtain ⟨hsplash, hsplashRoom⟩ := (words_plain _ (multi_lt cfg .splash)).1
  obtain ⟨hcpu, hcpuRoom⟩ := (words_plain _ (multi_lt cfg .newCpu)).2.1
  obtain ⟨hmode, hmodeRoom⟩ := (words_plain _ (multi_lt cfg .autobootMode)).2.2
  have hflags : (cfg.pluginLoaderFlags &&& 1#32).toNat < 2 ^ 63 :=
    (BitVec.isLt _).trans (by decide)
  have hzone : (Arg.int cfg.ntpTzOffetMinutes).Plain 21 := by
    obtain ⟨hmin, hmax⟩ := h.timeZone
    exact ⟨by omega, rfl⟩
  have hcombo : (menuComboToString cfg.rosalinaMenuCombo).length ≤ 141 := by
    have hroom := keysRoom_le h.menuCombo
    rw [length_menuComboToString]
    omega
  simp only [iniArgs, argRooms, List.tail_cons, List.forall₂_cons, List.Forall₂.nil, and_true]
  exact ⟨natArg_plain (by decide), natArg_plain (by decide),
    boolArg_plain _, boolArg_plain _, boolArg_plain _, boolArg_plain _, boolArg_plain _,
    boolArg_plain _, hemu, hbrightness, ⟨.of_test hsplash, hsplashRoom, by decide⟩,
    natArg_plain (h.splashDuration.trans (by decide)), hpin, ⟨.of_test hcpu, hcpuRoom, by decide⟩,
    ⟨.of_test hmode, hmodeRoom, by decide⟩, rfl, ⟨plainValue_menuComboToString _, hcombo, by decide⟩,
    natArg_plain hflags, hzone, hcct .top, hcct .bottom,
    hgamma .top 0, hgamma .top 1, hgamma .top 2, hgamma .bottom 0, hgamma .bottom 1,
    hgamma .bottom 2, hcontrast .top 0, hcontrast .top 1, hcontrast .top 2, hcontrast .bottom 0,
    hcontrast .bottom 1, hcontrast .bottom 2, boolArg_plain _, boolArg_plain _, rfl,
    natArg_plain (h.appmemtype.trans_lt (by decide)), boolArg_plain _, boolArg_plain _,
    boolArg_plain _, boolArg_plain _, boolArg_plain _⟩

def noteByte (c : UInt8) : Bool := c != 0 && c != 0x0A

theorem noteByte_of_solid {c : UInt8} (h : solidByte c = true) : noteByte c = true := by
  have hvalue : PlainValue [c] := .of_solid (by simpa using h)
  obtain ⟨hzero, hnewline, -⟩ := hvalue.bytes c List.mem_cons_self
  simp [noteByte, hzero, hnewline]

theorem noteBytes_lumaVerStr (build : Build) : (lumaVerStr build).all noteByte = true := by
  have hname : (lit "Luma3DS v").all noteByte = true := by decide
  have hpoint : (lit ".").all noteByte = true := by decide
  have hdecimal : ∀ n, (decimal n).all noteByte = true := fun n =>
    List.all_eq_true.mpr fun c hc => noteByte_of_solid (solid_decimal n c hc)
  unfold lumaVerStr
  split_ifs
  · simp [List.all_append, hname, hpoint, hdecimal]
  · simp [List.all_append, hname, hpoint, hdecimal]

theorem noteBytes_lumaRevSuffixStr (build : Build) :
    (lumaRevSuffixStr build).all noteByte = true := by
  have hdash : (lit "-").all noteByte = true := by decide
  have hdigits : ∀ d < 16, noteByte (hexDigit d) = true := by decide
  have hhex : (hex32 build.commitHash).all noteByte = true := by
    apply List.all_eq_true.mpr
    intro c hc
    obtain ⟨d, hd, rfl⟩ := List.mem_map.mp hc
    exact hdigits d (lt_of_mem_lastDigits (by decide) hd)
  unfold lumaRevSuffixStr
  split_ifs
  · rfl
  · rw [List.all_append, hdash, hhex]
    rfl

theorem plainNote_generated (build : Build) :
    plainNote (lit "; This configuration file was automatically generated by " ++
      lumaVerStr build ++ lumaRevSuffixStr build) = true := by
  obtain ⟨hhead, hlength, hbytes⟩ :
      (lit "; This configuration file was automatically generated by ").head? = some 0x3B ∧
      (lit "; This configuration file was automatically generated by ").length = 57 ∧
      (lit "; This configuration file was automatically generated by ").all noteByte = true := by
    decide
  have hversionLength := length_lumaVerStr_le build
  have hsuffixLength := length_lumaRevSuffixStr_le build
  rw [plainNote, Bool.and_eq_true, Bool.and_eq_true]
  refine ⟨⟨?_, ?_⟩, ?_⟩
  · rw [List.append_assoc, List.head?_append, hhead]
    exact Bool.or_true _
  · rw [decide_eq_true_eq, List.length_append, List.length_append]
    omega
  · show List.all _ noteByte = true
    rw [List.all_append, List.all_append, hbytes, noteBytes_lumaVerStr,
      noteBytes_lumaRevSuffixStr]
    rfl

-- The template is tested in parts, as each of its bytes takes the kernel a while.
theorem configTemplateIni_plain : PlainLines configTemplateIni.tail 7200 := by
  have h0 : PlainLines (configTemplateIni.tail.take 51) 1900 := by decide +kernel
  have h1 : PlainLines ((configTemplateIni.tail.drop 51).take 51) 1400 := by decide +kernel
  have h2 : PlainLines (((configTemplateIni.tail.drop 51).drop 51).take 51) 1800 := by
    decide +kernel
  have h3 : PlainLines (((configTemplateIni.tail.drop 51).drop 51).drop 51) 2100 := by
    decide +kernel
  exact h0.of_parts (h1.of_parts (h2.of_parts h3))

theorem savedItems_plain (build : Build) (h : ConfigRanges cfg) :
    (∀ item ∈ savedItems build cfg, item.Plain) ∧
      (saveLumaIniConfigToStr build cfg).length ≠ 0 ∧
      (saveLumaIniConfigToStr build cfg).length < tmpIniBufferSize := by
  obtain ⟨hlines, hsize⟩ := configTemplateIni_plain
  obtain ⟨hplain, hlength⟩ := fillTemplate_plain hlines (iniArgs_plain build h)
  have hnote := plainNote_generated build
  have hitems : savedItems build cfg =
      .note (lit "; This configuration file was automatically generated by " ++
        lumaVerStr build ++ lumaRevSuffixStr build) ::
        fillTemplate configTemplateIni.tail (iniArgs build cfg).tail.tail := rfl
  have hrooms : argRooms.sum ≤ 1100 := by decide
  have hfirst := (show (IniItem.note _).Plain from hnote).text_bytes.2
  rw [saveLumaIniConfigToStr, hitems, List.flatMap_cons, List.length_append, IniItem.line,
    List.length_append, List.length_singleton, tmpIniBufferSize]
  exact ⟨List.forall_mem_cons.mpr ⟨hnote, hplain⟩, by omega, by omega⟩

/-! ## What is read back -/

theorem config_reread (h : ConfigRanges cfg) : (rereadConfig cfg).config = cfg.config := by
  have hfold : (rereadConfig cfg).config =
      ((((((((((CfgData.zero.orFlag 0 (cfg.flag 0)).orFlag 1 (cfg.flag 1)).orFlag 2
        (cfg.flag 2)).orFlag 3 (cfg.flag 3)).orFlag 4 (cfg.flag 4)).orFlag 5 (cfg.flag 5)).orFlag 6
        (cfg.flag 6)).orFlag 7 (cfg.flag 7)).orFlag 8 (cfg.flag 8)).orFlag 9
        (cfg.flag 9)).config := rfl
  apply BitVec.eq_of_getLsbD_eq
  intro i _
  have hzero : CfgData.zero.config.getLsbD i = false := BitVec.getLsbD_zero
  rw [hfold]
  iterate 10 rw [getLsbD_orFlag _ (by decide)]
  rw [hzero]
  by_cases hi : i < 10
  · interval_cases i <;> simp [CfgData.flag]
  · rw [h.config i (not_lt.mp hi)]
    have hne : ∀ a < 10, decide (i = a) = false := fun a ha => decide_eq_false (by omega)
    simp [hne]

theorem multi_reread (a : MultiOption) : (rereadConfig cfg).multi a =
    if a = .splash ∨ a = .autobootMode then cfg.multi a % 3 else cfg.multi a := by
  have hfold : (rereadConfig cfg).multi a =
      ((((((CfgData.zero.orMulti .defaultEmu (cfg.multi .defaultEmu)).orMulti .brightness
        (cfg.multi .brightness)).orMulti .splash (cfg.multi .splash % 3)).orMulti .pin
        (cfg.multi .pin)).orMulti .newCpu (cfg.multi .newCpu)).orMulti .autobootMode
        (cfg.multi .autobootMode % 3)).multi a := rfl
  have hzero : CfgData.zero.multi a = 0 := by cases a <;> rfl
  have hmod : ∀ n : ℕ, n % 3 < 4 := fun n => (Nat.mod_lt n (by decide)).trans (by decide)
  rw [hfold, multi_orMulti _ _ _ (hmod _), multi_orMulti _ _ _ (multi_lt cfg _),
    multi_orMulti _ _ _ (multi_lt cfg _), multi_orMulti _ _ _ (hmod _),
    multi_orMulti _ _ _ (multi_lt cfg _), multi_orMulti _ _ _ (multi_lt cfg _), hzero]
  cases a <;> simp

theorem gamma_reread (screen : Screen) (ch : Fin 3) :
    ((rereadConfig cfg).screenFilter screen).gammaEnc ch =
      decodedFloat ((cfg.screenFilter screen).gammaEnc ch) := by
  cases screen <;> match ch with | 0 | 1 | 2 => rfl

theorem contrast_reread (screen : Screen) (ch : Fin 3) :
    ((rereadConfig cfg).screenFilter screen).contrastEnc ch =
      decodedFloat ((cfg.screenFilter screen).contrastEnc ch) := by
  cases screen <;> match ch with | 0 | 1 | 2 => rfl

theorem screenFilter_reread {screen : Screen} (h : ConfigRanges cfg)
    (hgamma : ∀ ch, (cfg.screenFilter screen).gammaEnc ch % 10 = 0)
    (hcontrast : ∀ ch, (cfg.screenFilter screen).contrastEnc ch % 10 = 0) :
    (rereadConfig cfg).screenFilter screen = cfg.screenFilter screen := by
  apply ScreenFiltersCfgData.ext
  · cases screen <;> rfl
  · cases screen <;> rfl
  · funext ch
    rw [gamma_reread, decodedFloat_eq_iff (h.gamma screen ch).1]
    exact hgamma ch
  · funext ch
    rw [contrast_reread, decodedFloat_eq_iff (h.contrast screen ch).1]
    exact hcontrast ch

theorem pluginLoaderFlags_reread (h : ConfigRanges cfg) :
    (rereadConfig cfg).pluginLoaderFlags = cfg.pluginLoaderFlags := by
  apply BitVec.eq_of_getLsbD_eq
  intro i _
  show (if cfg.pluginLoaderFlags.getLsbD 0 = true then 0#32 ||| 1#32
    else 0#32 &&& ~~~1#32).getLsbD i = _
  cases i with
  | zero => cases cfg.pluginLoaderFlags.getLsbD 0 <;> rfl
  | succ i =>
    rw [h.pluginLoader _ (Nat.le_add_left 1 i)]
    cases cfg.pluginLoaderFlags.getLsbD 0 <;> simp

theorem multiConfig_reread (h : ConfigRanges cfg) (hsplash : cfg.multi .splash ≠ 3)
    (hmode : cfg.multi .autobootMode ≠ 3) :
    (rereadConfig cfg).multiConfig = cfg.multiConfig := by
  have hmod : ∀ n : ℕ, n % 3 < 4 := fun n => (Nat.mod_lt n (by decide)).trans (by decide)
  have hsplashLt := multi_lt cfg .splash
  have hmodeLt := multi_lt cfg .autobootMode
  have hranges := (((((ConfigRanges.zero.orMulti .defaultEmu (multi_lt cfg .defaultEmu)).orMulti
    .brightness (multi_lt cfg .brightness)).orMulti .splash (hmod (cfg.multi .splash))).orMulti
    .pin (multi_lt cfg .pin)).orMulti .newCpu (multi_lt cfg .newCpu)).orMulti
    .autobootMode (hmod (cfg.multi .autobootMode))
  apply multiConfig_ext hranges.multiConfig h.multiConfig
  intro a
  show (rereadConfig cfg).multi a = cfg.multi a
  rw [multi_reread]
  split_ifs with ha
  · rcases ha with rfl | rfl
    · exact Nat.mod_eq_of_lt (by omega)
    · exact Nat.mod_eq_of_lt (by omega)
  · rfl

theorem rereadConfig_eq_iff (h : ConfigRanges cfg)
    (hmajor : cfg.formatVersionMajor = configVersionMajor)
    (hminor : cfg.formatVersionMinor = configVersionMinor) :
    rereadConfig cfg = cfg ↔ cfg.multi .splash ≠ 3 ∧ cfg.multi .autobootMode ≠ 3 ∧
      (∀ screen ch, (cfg.screenFilter screen).gammaEnc ch % 10 = 0) ∧
      ∀ screen ch, (cfg.screenFilter screen).contrastEnc ch % 10 = 0 := by
  have hsplashLt := multi_lt cfg .splash
  have hmodeLt := multi_lt cfg .autobootMode
  constructor
  · intro heq
    have hsplash : cfg.multi .splash % 3 = cfg.multi .splash := by
      conv_rhs => rw [← heq, multi_reread, if_pos (.inl rfl)]
    have hmode : cfg.multi .autobootMode % 3 = cfg.multi .autobootMode := by
      conv_rhs => rw [← heq, multi_reread, if_pos (.inr rfl)]
    refine ⟨by omega, by omega, fun screen ch => ?_, fun screen ch => ?_⟩
    · rw [← decodedFloat_eq_iff (h.gamma screen ch).1, ← gamma_reread, heq]
    · rw [← decodedFloat_eq_iff (h.contrast screen ch).1, ← contrast_reread, heq]
  · rintro ⟨hsplash, hmode, hgamma, hcontrast⟩
    exact CfgData.ext hmajor.symm hminor.symm (config_reread h)
      (multiConfig_reread h hsplash hmode) rfl rfl rfl (pluginLoaderFlags_reread h) rfl
      (screenFilter_reread h (hgamma .top) (hcontrast .top))
      (screenFilter_reread h (hgamma .bottom) (hcontrast .bottom)) rfl rfl rfl

theorem present_of_reread (h : iniOptions.foldlM
    (fun into (option : IniOption) => option.set into (option.print cfg)) CfgData.zero ≠ none) :
    ConfigPresent cfg := by
  constructor
  · intro screen hcct
    apply h
    refine foldlM_none (a := .screenFiltersCct screen) ?_ ?_ _
    · cases screen <;> decide
    · intro into
      have hrange : parseDecIntOption (signedDecimal (0 : ℕ)) 1000 25100 = none := by decide
      simp only [IniOption.set, IniOption.print, hcct, hrange, Option.map_none]
  · intro hcombo
    apply h
    refine foldlM_none (a := .rosalinaMenuCombo) (by decide) ?_ _
    intro into
    have hnone : parseKeyComboOption (menuComboToString 0#32) = none := by decide
    simp only [IniOption.set, IniOption.print, hcombo, hnone, Option.map_none]

end Saved

/-! ## The round trip -/

/-- A configuration that `readConfig` keeps of a file. -/
structure Accepted (file : Bytes) (cfg : CfgData) : Prop where
  read : readLumaIniConfig .zero file = some cfg
  major : cfg.formatVersionMajor = configVersionMajor
  minor : cfg.formatVersionMinor = configVersionMinor

/-- Every string fits its buffer, and what is written is accepted and gives the configuration. -/
structure RoundTrip (build : Build) (cfg : CfgData) : Prop where
  fits : ∀ s ∈ savedStrings build cfg, s.1.length < s.2
  accepted : readLumaIniConfig .zero (saveLumaIniConfigToStr build cfg) = some cfg

/-- The options that have to be in range were present, those with words have one of them, there are
no more than seven decimals, and the names of the keys have room. -/
structure ConfigKept (cfg : CfgData) : Prop where
  present : ConfigPresent cfg
  splash : cfg.multi .splash ≠ 3
  autobootMode : cfg.multi .autobootMode ≠ 3
  gamma : ∀ screen ch, (cfg.screenFilter screen).gammaEnc ch % 10 = 0
  contrast : ∀ screen ch, (cfg.screenFilter screen).contrastEnc ch % 10 = 0
  room : keysRoom cfg.rosalinaMenuCombo ≤ 128

section RoundTrip
variable {build : Build} {cfg : CfgData}

theorem savedStrings_fit (build : Build) (h : ConfigRanges cfg) :
    (∀ s ∈ savedStrings build cfg, s.1.length < s.2) ↔ keysRoom cfg.rosalinaMenuCombo ≤ 128 := by
  have hversion := (length_lumaVerStr_le build).trans_lt (show 41 < 64 by decide)
  have hsuffix := (length_lumaRevSuffixStr_le build).trans_lt (show 9 < 16 by decide)
  have hcombo := length_menuComboToString cfg.rosalinaMenuCombo
  have hgamma : ∀ screen ch,
      (encodedFloatDigits ((cfg.screenFilter screen).gammaEnc ch)).length < 32 := fun screen ch =>
    (length_encodedFloatDigits_le (h.gamma screen ch).1
      ((h.gamma screen ch).2.trans_lt (by decide))).trans_lt (by decide)
  have hcontrast : ∀ screen ch,
      (encodedFloatDigits ((cfg.screenFilter screen).contrastEnc ch)).length < 32 :=
    fun screen ch => (length_encodedFloatDigits_le (h.contrast screen ch).1
      ((h.contrast screen ch).2.trans_lt (by decide))).trans_lt (by decide)
  have htext := (savedItems_plain build h).2.2
  have hfloats : ∀ s ∈ [Screen.top, Screen.bottom].flatMap fun screen =>
      (List.finRange 3).flatMap fun ch =>
        [(encodedFloatDigits ((cfg.screenFilter screen).gammaEnc ch), 32),
          (encodedFloatDigits ((cfg.screenFilter screen).contrastEnc ch), 32)],
      s.1.length < s.2 := by
    intro s hs
    obtain ⟨screen, -, hs⟩ := List.mem_flatMap.mp hs
    obtain ⟨ch, -, hs⟩ := List.mem_flatMap.mp hs
    simp only [List.mem_cons, List.not_mem_nil, or_false] at hs
    rcases hs with rfl | rfl
    · exact hgamma screen ch
    · exact hcontrast screen ch
  rw [savedStrings, List.cons_append, List.cons_append, List.cons_append, List.forall_mem_cons,
    List.forall_mem_cons, List.forall_mem_cons, List.forall_mem_append]
  constructor
  · rintro ⟨-, -, hroom, -⟩
    have hlt : (menuComboToString cfg.rosalinaMenuCombo).length < 128 := hroom
    omega
  · intro hroom
    refine ⟨hversion, hsuffix, ?_, hfloats, by simpa using htext⟩
    show (menuComboToString cfg.rosalinaMenuCombo).length < 128
    omega

theorem kept_of_roundTrip (h : ConfigRanges cfg) (htrip : RoundTrip build cfg) :
    ConfigKept cfg := by
  obtain ⟨hplain, hempty, hlength⟩ := savedItems_plain build h
  have hread := htrip.accepted
  rw [readLumaIniConfig_saved hplain hempty hlength] at hread
  have hpresent : ConfigPresent cfg := present_of_reread (by rw [hread]; exact Option.some_ne_none _)
  rw [foldlM_some iniOptions (fun option _ into => set_print h hpresent into option)] at hread
  have heq : rereadConfig cfg = cfg := Option.some.inj hread
  have hmajor : cfg.formatVersionMajor = configVersionMajor :=
    (congrArg CfgData.formatVersionMajor heq).symm
  have hminor : cfg.formatVersionMinor = configVersionMinor :=
    (congrArg CfgData.formatVersionMinor heq).symm
  obtain ⟨hsplash, hmode, hgamma, hcontrast⟩ := (rereadConfig_eq_iff h hmajor hminor).mp heq
  exact ⟨hpresent, hsplash, hmode, hgamma, hcontrast, (savedStrings_fit build h).mp htrip.fits⟩

end RoundTrip

/-- A configuration that was accepted is printed and accepted again, without change, exactly where
no option that has to be in range was left out, no decimal is dropped and the buffers suffice. -/
theorem config_round_trip (build : Build) (file : Bytes) (cfg : CfgData) (h : Accepted file cfg) :
    RoundTrip build cfg ↔ ConfigKept cfg := by
  have hranges := readLumaIniConfig_ranges h.read
  constructor
  · exact kept_of_roundTrip hranges
  · intro hkept
    obtain ⟨hplain, hempty, hlength⟩ := savedItems_plain build hranges
    refine ⟨(savedStrings_fit build hranges).mpr hkept.room, ?_⟩
    rw [readLumaIniConfig_saved hplain hempty hlength,
      foldlM_some iniOptions fun option _ into => set_print hranges hkept.present into option]
    exact congrArg some ((rereadConfig_eq_iff hranges h.major h.minor).mpr
      ⟨hkept.splash, hkept.autobootMode, hkept.gamma, hkept.contrast⟩)

/-- A file with the options that have to be there, and a gamma. -/
def gammaFile (gamma : String) : Bytes :=
  lit "[meta]\nconfig_version_major = 3\nconfig_version_minor = 16\n" ++
    lit "[rosalina]\nrosalina_menu_combo = L+Down+Select\n" ++
    lit "[screen_filters]\nscreen_filters_top_cct = 6500\nscreen_filters_bot_cct = 6500\n" ++
    lit "screen_filters_top_gamma_r = " ++ lit gamma

theorem gammaFile_kept : ∃ cfg, Accepted (gammaFile "1.2345") cfg ∧
    RoundTrip ⟨13, 3, 3, true, 0⟩ cfg := by
  have hany : (readLumaIniConfig .zero (gammaFile "1.2345")).any (fun cfg =>
      (cfg.formatVersionMajor = 3 ∧ cfg.formatVersionMinor = 16) ∧
      (cfg.topScreenFilter.cct ≠ 0 ∧ cfg.bottomScreenFilter.cct ≠ 0 ∧
        cfg.rosalinaMenuCombo ≠ 0#32) ∧
      cfg.multi .splash ≠ 3 ∧ cfg.multi .autobootMode ≠ 3 ∧
      (∀ ch, cfg.topScreenFilter.gammaEnc ch % 10 = 0 ∧
        cfg.bottomScreenFilter.gammaEnc ch % 10 = 0) ∧
      (∀ ch, cfg.topScreenFilter.contrastEnc ch % 10 = 0 ∧
        cfg.bottomScreenFilter.contrastEnc ch % 10 = 0) ∧
      keysRoom cfg.rosalinaMenuCombo ≤ 128) = true := by decide +kernel
  obtain ⟨cfg, hread, hcfg⟩ := (Option.any_eq_true _ _).mp hany
  obtain ⟨⟨hmajor, hminor⟩, ⟨htop, hbottom, hcombo⟩, hsplash, hmode, hgamma, hcontrast, hroom⟩ :=
    of_decide_eq_true hcfg
  have haccepted : Accepted (gammaFile "1.2345") cfg := ⟨hread, hmajor, hminor⟩
  refine ⟨cfg, haccepted, (config_round_trip _ _ cfg haccepted).mpr
    ⟨⟨fun screen => ?_, hcombo⟩, hsplash, hmode, fun screen ch => ?_, fun screen ch => ?_, hroom⟩⟩
  · cases screen
    · exact htop
    · exact hbottom
  · cases screen
    · exact (hgamma ch).1
    · exact (hgamma ch).2
  · cases screen
    · exact (hcontrast ch).1
    · exact (hcontrast ch).2

/-- Of a value whose eighth decimal is not zero, decimals are dropped. -/
theorem eighth_decimal_is_dropped :
    ¬∀ build file cfg, Accepted file cfg → RoundTrip build cfg := by
  intro h
  have hany : (readLumaIniConfig .zero (gammaFile "1.00000005")).any (fun cfg =>
      (cfg.formatVersionMajor = 3 ∧ cfg.formatVersionMinor = 16) ∧
      cfg.topScreenFilter.gammaEnc 0 = 100000005) = true := by decide +kernel
  obtain ⟨cfg, hread, hcfg⟩ := (Option.any_eq_true _ _).mp hany
  obtain ⟨⟨hmajor, hminor⟩, hgamma⟩ := of_decide_eq_true hcfg
  have htrip := h ⟨13, 3, 3, true, 0⟩ _ cfg ⟨hread, hmajor, hminor⟩
  have hkept := (kept_of_roundTrip (readLumaIniConfig_ranges hread) htrip).gamma .top 0
  have hmod : cfg.topScreenFilter.gammaEnc 0 % 10 = 0 := hkept
  rw [hgamma] at hmod
  exact absurd hmod (by decide)

end Presence3DS.Arm9
