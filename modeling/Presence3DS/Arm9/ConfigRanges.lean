import Presence3DS.Arm9.Config

/-! What a configuration that has been read is like, whatever the file. -/

namespace Presence3DS.Arm9
open CString

/-- The ranges of the values of a configuration that has been read. -/
structure ConfigRanges (cfg : CfgData) : Prop where
  config : ∀ i, 10 ≤ i → cfg.config.getLsbD i = false
  multiConfig : ∀ i, 12 ≤ i → cfg.multiConfig.getLsbD i = false
  splashDuration : cfg.splashDurationMsec < 2 ^ 32
  menuCombo : Named cfg.rosalinaMenuCombo
  pluginLoader : ∀ i, 1 ≤ i → cfg.pluginLoaderFlags.getLsbD i = false
  timeZone : -779 ≤ cfg.ntpTzOffetMinutes ∧ cfg.ntpTzOffetMinutes ≤ 899
  cct : ∀ screen, (cfg.screenFilter screen).cct ≤ 25100 ∧
    ((cfg.screenFilter screen).cct ≠ 0 → 1000 ≤ (cfg.screenFilter screen).cct)
  gamma : ∀ screen ch, 0 ≤ (cfg.screenFilter screen).gammaEnc ch ∧
    (cfg.screenFilter screen).gammaEnc ch ≤ 4 * floatConvMult
  contrast : ∀ screen ch, 0 ≤ (cfg.screenFilter screen).contrastEnc ch ∧
    (cfg.screenFilter screen).contrastEnc ch ≤ 8 * floatConvMult
  appmemtype : cfg.autobootCtrAppmemtype ≤ 4

theorem ConfigRanges.zero : ConfigRanges .zero where
  config i _ := BitVec.getLsbD_zero
  multiConfig i _ := BitVec.getLsbD_zero
  splashDuration := by decide
  menuCombo i hi := by
    rw [CfgData.zero, BitVec.ofNat_eq_ofNat, BitVec.getLsbD_zero] at hi
    cases hi
  pluginLoader i _ := BitVec.getLsbD_zero
  timeZone := by decide
  cct screen := by cases screen <;> decide
  gamma screen _ := by
    have hzero : (0 : ℤ) ≤ 4 * floatConvMult := by decide
    cases screen <;> exact ⟨le_rfl, hzero⟩
  contrast screen _ := by
    have hzero : (0 : ℤ) ≤ 8 * floatConvMult := by decide
    cases screen <;> exact ⟨le_rfl, hzero⟩
  appmemtype := by decide

/-! ## What the readers of values return -/

theorem parseDecIntOption_range {val : Bytes} {minval maxval opt : ℤ}
    (h : parseDecIntOption val minval maxval = some opt) : minval ≤ opt ∧ opt ≤ maxval := by
  obtain ⟨res, -, h⟩ := Option.bind_eq_some_iff.mp h
  simp only at h
  generalize BitVec.toInt _ = value at h
  split_ifs at h with hrange
  rw [← Option.some.inj h]
  exact hrange.symm

theorem parseDecFloatOption_range {val : Bytes} {minval maxval opt : ℤ}
    (h : parseDecFloatOption val minval maxval = some opt) : minval ≤ opt ∧ opt ≤ maxval := by
  have hjoin : ∀ {sign int : ℤ} {fraction : Bytes},
      joinFloat sign int fraction minval maxval = some opt → minval ≤ opt ∧ opt ≤ maxval := by
    intro sign int fraction h
    unfold joinFloat at h
    simp only at h
    generalize (if sign = -1 then -int else int) * (floatConvMult : ℤ) = res at h
    split_ifs at h
    obtain ⟨part, -, h⟩ := Option.bind_eq_some_iff.mp h
    split_ifs at h with hrange
    rw [← Option.some.inj h]
    exact hrange.symm
  unfold parseDecFloatOption at h
  simp only at h
  generalize (if val.head? = some 0x2B ∨ val.head? = some 0x2D then val.tail else val) = val' at h
  split_ifs at h
  all_goals
    obtain ⟨int, -, h⟩ := Option.bind_eq_some_iff.mp h
    exact hjoin h

theorem parseWordOption_lt {words : List (String × ℕ)} {val : Bytes} {opt : ℕ}
    (hwords : ∀ word ∈ words, word.2 < 4) (h : parseWordOption words val = some opt) : opt < 4 := by
  obtain ⟨word, hword, rfl⟩ := Option.map_eq_some_iff.mp h
  exact hwords word (List.mem_of_find?_eq_some hword)

theorem pinDigits_lookup_lt {opt : ℤ} {n : ℕ} (h : pinDigits.lookup opt = some n) : n < 4 := by
  simp only [pinDigits, List.lookup_cons, List.lookup_nil] at h
  split at h
  · cases h
    decide
  · split at h
    · cases h
      decide
    · split at h
      · cases h
        decide
      · split at h
        · cases h
          decide
        · cases h

/-! ## What the bit fields are -/

theorem getLsbD_orFlag (cfg : CfgData) {a : ℕ} (ha : a < 32) (opt : Bool) (i : ℕ) :
    (cfg.orFlag a opt).config.getLsbD i = (cfg.config.getLsbD i || (decide (i = a) && opt)) := by
  rw [CfgData.orFlag, BitVec.getLsbD_or]
  congr 1
  cases opt with
  | false => simp
  | true =>
    have hone : (BitVec.ofNat 32 true.toNat <<< a) = BitVec.twoPow 32 a := rfl
    rw [hone, BitVec.getLsbD_twoPow, Bool.and_true]
    by_cases hi : i = a
    · simp [hi, ha]
    · simp [hi, Ne.symm hi]

theorem testBit_of_lt_four {n j : ℕ} (hn : n < 4) (hj : 2 ≤ j) : n.testBit j = false := by
  apply Nat.testBit_lt_two_pow
  calc n < 2 ^ 2 := hn
    _ ≤ 2 ^ j := Nat.pow_le_pow_right (by decide) hj

theorem getLsbD_orMulti (cfg : CfgData) (a : MultiOption) {opt : ℕ} (hopt : opt < 4) (i : ℕ) :
    (cfg.orMulti a opt).multiConfig.getLsbD i = (cfg.multiConfig.getLsbD i ||
      (decide (2 * a.index ≤ i) && opt.testBit (i - 2 * a.index))) := by
  rw [CfgData.orMulti, BitVec.getLsbD_or, BitVec.getLsbD_shiftLeft, BitVec.getLsbD_ofNat]
  congr 1
  have ha : a.index ≤ 5 := by cases a <;> decide
  by_cases hi : 2 * a.index ≤ i
  · by_cases hj : i - 2 * a.index < 2
    · have h32 : i < 32 ∧ i - 2 * a.index < 32 := by omega
      simp [h32, hi, not_lt.mpr hi]
    · simp [testBit_of_lt_four hopt (not_lt.mp hj)]
  · simp [hi, not_le.mp hi]

/-! ## Every option keeps the ranges -/

variable {cfg : CfgData}

theorem ConfigRanges.orFlag (h : ConfigRanges cfg) {a : ℕ} (ha : a < 10) (opt : Bool) :
    ConfigRanges (cfg.orFlag a opt) where
  config i hi := by
    have hne : decide (i = a) = false := decide_eq_false (by omega)
    rw [getLsbD_orFlag cfg (by omega), h.config i hi, hne]
    rfl
  multiConfig := h.multiConfig
  splashDuration := h.splashDuration
  menuCombo := h.menuCombo
  pluginLoader := h.pluginLoader
  timeZone := h.timeZone
  cct := h.cct
  gamma := h.gamma
  contrast := h.contrast
  appmemtype := h.appmemtype

theorem ConfigRanges.orMulti (h : ConfigRanges cfg) (a : MultiOption) {opt : ℕ} (hopt : opt < 4) :
    ConfigRanges (cfg.orMulti a opt) where
  config := h.config
  multiConfig i hi := by
    have ha : a.index ≤ 5 := by cases a <;> decide
    have hbit : opt.testBit (i - 2 * a.index) = false := testBit_of_lt_four hopt (by omega)
    rw [getLsbD_orMulti cfg a hopt, h.multiConfig i hi, hbit, Bool.and_false]
    rfl
  splashDuration := h.splashDuration
  menuCombo := h.menuCombo
  pluginLoader := h.pluginLoader
  timeZone := h.timeZone
  cct := h.cct
  gamma := h.gamma
  contrast := h.contrast
  appmemtype := h.appmemtype

theorem ConfigRanges.setFilter (h : ConfigRanges cfg) (screen : Screen)
    {f : ScreenFiltersCfgData → ScreenFiltersCfgData}
    (hcct : (f (cfg.screenFilter screen)).cct ≤ 25100 ∧
      ((f (cfg.screenFilter screen)).cct ≠ 0 → 1000 ≤ (f (cfg.screenFilter screen)).cct))
    (hgamma : ∀ ch, 0 ≤ (f (cfg.screenFilter screen)).gammaEnc ch ∧
      (f (cfg.screenFilter screen)).gammaEnc ch ≤ 4 * floatConvMult)
    (hcontrast : ∀ ch, 0 ≤ (f (cfg.screenFilter screen)).contrastEnc ch ∧
      (f (cfg.screenFilter screen)).contrastEnc ch ≤ 8 * floatConvMult) :
    ConfigRanges (cfg.setFilter screen f) := by
  have hcase : ∀ other, (cfg.setFilter screen f).screenFilter other = cfg.screenFilter other ∨
      (cfg.setFilter screen f).screenFilter other = f (cfg.screenFilter screen) := by
    intro other
    cases screen <;> cases other
    · exact .inr rfl
    · exact .inl rfl
    · exact .inl rfl
    · exact .inr rfl
  have hcct' : ∀ other, ((cfg.setFilter screen f).screenFilter other).cct ≤ 25100 ∧
      (((cfg.setFilter screen f).screenFilter other).cct ≠ 0 →
        1000 ≤ ((cfg.setFilter screen f).screenFilter other).cct) := by
    intro other
    rcases hcase other with heq | heq <;> rw [heq]
    · exact h.cct other
    · exact hcct
  have hgamma' : ∀ other ch, 0 ≤ ((cfg.setFilter screen f).screenFilter other).gammaEnc ch ∧
      ((cfg.setFilter screen f).screenFilter other).gammaEnc ch ≤ 4 * floatConvMult := by
    intro other ch
    rcases hcase other with heq | heq <;> rw [heq]
    · exact h.gamma other ch
    · exact hgamma ch
  have hcontrast' : ∀ other ch, 0 ≤ ((cfg.setFilter screen f).screenFilter other).contrastEnc ch ∧
      ((cfg.setFilter screen f).screenFilter other).contrastEnc ch ≤ 8 * floatConvMult := by
    intro other ch
    rcases hcase other with heq | heq <;> rw [heq]
    · exact h.contrast other ch
    · exact hcontrast ch
  cases screen with
  | top => exact { h with cct := hcct', gamma := hgamma', contrast := hcontrast' }
  | bottom => exact { h with cct := hcct', gamma := hgamma', contrast := hcontrast' }

theorem setChannel_range {enc : Fin 3 → ℤ} {ch : Fin 3} {opt bound : ℤ}
    (henc : ∀ c, 0 ≤ enc c ∧ enc c ≤ bound) (hopt : 0 ≤ opt ∧ opt ≤ bound) (c : Fin 3) :
    0 ≤ setChannel enc ch opt c ∧ setChannel enc ch opt c ≤ bound := by
  unfold setChannel
  split_ifs
  · exact hopt
  · exact henc c

theorem ConfigRanges.set (h : ConfigRanges cfg) {value : Bytes} {option : IniOption}
    {cfg' : CfgData} (hset : option.set cfg value = some cfg') : ConfigRanges cfg' := by
  cases option <;> simp only [IniOption.set] at hset
  case configVersionMajor | configVersionMinor | hbldr3dsxTitleid | autobootDsiTitleid
      | autoboot3dsUseNs =>
    obtain ⟨opt, -, rfl⟩ := Option.map_eq_some_iff.mp hset
    exact { h with }
  case singleBoot i =>
    obtain ⟨opt, -, rfl⟩ := Option.map_eq_some_iff.mp hset
    exact h.orFlag (by omega) opt
  case singleMisc i =>
    obtain ⟨opt, -, rfl⟩ := Option.map_eq_some_iff.mp hset
    exact h.orFlag (by omega) opt
  case defaultEmunandNumber | brightnessLevel =>
    obtain ⟨opt, hopt, rfl⟩ := Option.map_eq_some_iff.mp hset
    obtain ⟨hmin, hmax⟩ := parseDecIntOption_range hopt
    exact h.orMulti _ (by omega)
  case splashPosition | appLaunchNew3dsCpu | autobootMode =>
    obtain ⟨opt, hopt, rfl⟩ := Option.map_eq_some_iff.mp hset
    exact h.orMulti _ (parseWordOption_lt (by decide) hopt)
  case splashDurationMs =>
    obtain ⟨opt, hopt, rfl⟩ := Option.map_eq_some_iff.mp hset
    obtain ⟨hmin, hmax⟩ := parseDecIntOption_range hopt
    exact { h with splashDuration := by show opt.toNat < 2 ^ 32; omega }
  case pinLockNumDigits =>
    obtain ⟨opt, -, hset⟩ := Option.bind_eq_some_iff.mp hset
    obtain ⟨n, hn, rfl⟩ := Option.map_eq_some_iff.mp hset
    exact h.orMulti _ (pinDigits_lookup_lt hn)
  case rosalinaMenuCombo =>
    obtain ⟨opt, hopt, rfl⟩ := Option.map_eq_some_iff.mp hset
    exact { h with menuCombo := parseKeyComboOption_named hopt }
  case pluginLoaderEnabled =>
    obtain ⟨opt, -, rfl⟩ := Option.map_eq_some_iff.mp hset
    refine { h with pluginLoader := fun i hi => ?_ }
    have hone : (1#32).getLsbD i = false := by
      have hne : decide (i = 0) = false := decide_eq_false (by omega)
      rw [BitVec.getLsbD_one, hne, Bool.and_false]
    show (if opt = true then cfg.pluginLoaderFlags ||| 1#32
      else cfg.pluginLoaderFlags &&& ~~~1#32).getLsbD i = false
    cases opt with
    | true => rw [if_pos rfl, BitVec.getLsbD_or, h.pluginLoader i hi, hone]; rfl
    | false => rw [if_neg Bool.false_ne_true, BitVec.getLsbD_and, h.pluginLoader i hi]; rfl
  case ntpTzOffsetMin =>
    obtain ⟨opt, hopt, rfl⟩ := Option.map_eq_some_iff.mp hset
    exact { h with timeZone := parseDecIntOption_range hopt }
  case screenFiltersCct screen =>
    obtain ⟨opt, hopt, rfl⟩ := Option.map_eq_some_iff.mp hset
    obtain ⟨hmin, hmax⟩ := parseDecIntOption_range hopt
    refine h.setFilter screen ?_ (h.gamma screen) (h.contrast screen)
    show opt.toNat ≤ 25100 ∧ (opt.toNat ≠ 0 → 1000 ≤ opt.toNat)
    omega
  case screenFiltersGamma screen ch =>
    obtain ⟨opt, hopt, rfl⟩ := Option.map_eq_some_iff.mp hset
    exact h.setFilter screen (h.cct screen)
      (setChannel_range (h.gamma screen) (parseDecFloatOption_range hopt)) (h.contrast screen)
  case screenFiltersContrast screen ch =>
    obtain ⟨opt, hopt, rfl⟩ := Option.map_eq_some_iff.mp hset
    exact h.setFilter screen (h.cct screen) (h.gamma screen)
      (setChannel_range (h.contrast screen) (parseDecFloatOption_range hopt))
  case screenFiltersInvert screen =>
    obtain ⟨opt, -, rfl⟩ := Option.map_eq_some_iff.mp hset
    exact h.setFilter screen (h.cct screen) (h.gamma screen) (h.contrast screen)
  case autoboot3dsAppMemType =>
    obtain ⟨opt, hopt, rfl⟩ := Option.map_eq_some_iff.mp hset
    obtain ⟨hmin, hmax⟩ := parseDecIntOption_range hopt
    exact { h with appmemtype := by show opt.toNat ≤ 4; omega }

theorem readLumaIniConfig_ranges {file : Bytes} (h : readLumaIniConfig .zero file = some cfg) :
    ConfigRanges cfg := by
  unfold readLumaIniConfig at h
  split_ifs at h
  simp only at h
  split_ifs at h
  rw [← Option.some.inj h]
  refine iniParseString_invariant (P := fun reading : IniReading => ConfigRanges reading.cfg) ?_ file .zero
  intro reading sectionName name value lineno hreading
  show ConfigRanges (iniHandlerOf IniReading.accept IniReading.reject reading sectionName name
    value lineno).2.cfg
  unfold iniHandlerOf
  split
  · rename_i reading' haccept
    obtain ⟨cfg', hset, rfl⟩ := Option.map_eq_some_iff.mp haccept
    obtain ⟨option, -, hset⟩ := Option.bind_eq_some_iff.mp hset
    exact hreading.set hset
  · exact hreading

end Presence3DS.Arm9
