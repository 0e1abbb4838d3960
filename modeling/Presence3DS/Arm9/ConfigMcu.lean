import Presence3DS.Arm9.Config
import Presence3DS.Lib.Runs

/-! The part of the configuration that is kept in the free registers of the MCU (`config.c`): boots
of any version, the boot options that they write, and the bytes that Rosalina writes at run time. -/

namespace Presence3DS.Arm9.ConfigMcu
open Runs

/-- The bytes that are not checksummed. -/
structure Overrides where
  flags : UInt8
  volumeSliderOverride : UInt8
  volumeSliderOverrideStereoBalance : Int8
  ledMasterBrightnessOverride : UInt8
deriving DecidableEq

structure CfgDataMcu extends Overrides where
  lumaVersion : UInt16
  bootCfg : UInt8
  checksum : UInt8
deriving DecidableEq

structure Version where
  major : Nat
  minor : Nat
  build : Nat
deriving DecidableEq

/-- `MAKE_LUMA_VERSION_MCU` -/
def makeLumaVersionMcu (v : Version) : UInt16 :=
  .ofNat ((v.major &&& 0xFF) <<< 8 ||| (v.minor &&& 0x1F) <<< 5 ||| (v.build &&& 7))

def CfgDataMcu.bytes (c : CfgDataMcu) : List UInt8 :=
  [c.flags, c.volumeSliderOverride, c.volumeSliderOverrideStereoBalance.toUInt8,
    c.ledMasterBrightnessOverride, c.lumaVersion.toUInt8, (c.lumaVersion >>> 8).toUInt8, c.bootCfg,
    c.checksum]

/-- The bytes from offset 4, that of `lumaVersion`, up to the last one. -/
def computeConfigMcuChecksum (data : List UInt8) : UInt8 :=
  ~~~((data.drop 4).take 3).foldl (· + ·) 0

/-- `MCUCFG_FLAGS_AUDIO_ROUTING_MASK` -/
def audioRoutingMask : UInt8 := (3 : UInt8) <<< 2

def Overrides.sanitize (o : Overrides) : Overrides where
  flags :=
    if o.flags &&& audioRoutingMask = audioRoutingMask then o.flags &&& ~~~audioRoutingMask
    else o.flags
  volumeSliderOverride := o.volumeSliderOverride
  volumeSliderOverrideStereoBalance :=
    if o.volumeSliderOverrideStereoBalance < -100 ∨ o.volumeSliderOverrideStereoBalance > 100 then 0
    else o.volumeSliderOverrideStereoBalance
  ledMasterBrightnessOverride := o.ledMasterBrightnessOverride

/-- `resetConfigMcu` -/
def resetConfigMcu : CfgDataMcu where
  flags := 0
  volumeSliderOverride := 0xFF
  volumeSliderOverrideStereoBalance := 0
  ledMasterBrightnessOverride := 0xFF
  lumaVersion := 0
  bootCfg := 0
  checksum := 0

/-- `writeConfigMcu`: the block that is left in the MCU and in `configDataMcu`. -/
def writeConfigMcu (version : Version) (bootConfig : UInt32) (configDataMcu : CfgDataMcu) :
    CfgDataMcu :=
  let data := { configDataMcu with
    lumaVersion := makeLumaVersionMcu version
    bootCfg := bootConfig.toUInt8 }
  { data with checksum := computeConfigMcuChecksum data.bytes }

/-- The checksum is right, and the version is one that this layout was written by. -/
def CfgDataMcu.valid (c : CfgDataMcu) : Bool :=
  computeConfigMcuChecksum c.bytes = c.checksum &&
    !(c.lumaVersion < makeLumaVersionMcu ⟨10, 3, 0⟩)

structure McuRead where
  configDataMcu : CfgDataMcu
  stored : CfgDataMcu
  /-- Whether the upgrade process ran. -/
  upgraded : Bool
  returned : Bool

/-- `readConfigMcu`; `bootConfig` is that of `configData`, which is filled afterwards. -/
def readConfigMcu (version : Version) (bootConfig : UInt32) (stored : CfgDataMcu) : McuRead :=
  if stored.valid then
    let sane := { stored with toOverrides := stored.sanitize }
    if sane.lumaVersion < makeLumaVersionMcu version then
      let written := writeConfigMcu version bootConfig sane
      ⟨written, written, true, true⟩
    else ⟨sane, stored, false, true⟩
  else
    let written := writeConfigMcu version 0 resetConfigMcu
    ⟨written, written, true, false⟩

structure ConfigRead where
  bootConfig : UInt32
  overrides : Overrides
  mcu : McuRead
  returned : Bool

/-- `readConfig`, with whether `config.ini` could be read and is of the right version. -/
def readConfig (version : Version) (ini : Bool) (stored : CfgDataMcu) : ConfigRead :=
  let mcu := readConfigMcu version 0 stored
  { bootConfig := mcu.configDataMcu.bootCfg.toUInt32
    overrides := mcu.configDataMcu.toOverrides
    mcu
    returned := mcu.returned && ini }

inductive ConfigurationStatus where
  | modifyConfiguration
  | createConfiguration
deriving DecidableEq

/-- What the boot loader holds after `readConfig`. -/
structure Session where
  version : Version
  configDataMcu : CfgDataMcu
  /-- `oldConfig.bootConfig` -/
  oldBootConfig : UInt32
  needConfig : ConfigurationStatus

/-- Whether `writeConfig` writes the MCU. -/
def updateMcu (session : Session) (isConfigOptions : Bool) (bootConfig : UInt32) : Bool :=
  match session.needConfig with
  | .createConfiguration => !isConfigOptions
  | .modifyConfiguration => !isConfigOptions && bootConfig ≠ session.oldBootConfig

/-- What `main` boots, and keeps for the next firmlaunch. -/
structure BootOptions where
  emunand : Bool
  emunandIndex : Fin 4
  noForceFlag : Bool
  ntrcardBoot : Bool

def BootOptions.bootConfig (o : BootOptions) : UInt32 :=
  o.ntrcardBoot.toUInt32 <<< 4 ||| o.noForceFlag.toUInt32 <<< 3 |||
    UInt32.ofNat o.emunandIndex <<< 1 ||| o.emunand.toUInt32

/-- What was written last, and by which version, where it is known. -/
structure Written where
  version : Option Version
  bootConfig : UInt32
  overrides : Overrides

structure Console where
  stored : CfgDataMcu
  /-- The boot loader, until it launches the firmware. -/
  session : Option Session
  written : Written

inductive Action where
  | boot (version : Version) (ini : Bool)
  | configMenu
  | bootOptions (options : BootOptions)
  /-- `LumaConfig_SaveMcuConfig` -/
  | saveMcuConfig (overrides : Overrides)

def boot (s : Console) (version : Version) (ini : Bool) : Console :=
  let read := readConfig version ini s.stored
  let needConfig := if read.returned then .modifyConfiguration else .createConfiguration
  { stored := read.mcu.stored
    session := some ⟨version, read.mcu.configDataMcu, read.bootConfig, needConfig⟩
    written :=
      if read.mcu.returned then
        { s.written with version := if read.mcu.upgraded then some version else s.written.version }
      else ⟨some version, 0, resetConfigMcu.toOverrides⟩ }

def step (s : Console) : Action → Option Console
  | .boot version ini => some (boot s version ini)
  | .configMenu => s.session.map fun session =>
    { s with session := some { session with needConfig := .modifyConfiguration } }
  | .bootOptions options => s.session.map fun session =>
    let written := { s.written with bootConfig := options.bootConfig }
    if updateMcu session false options.bootConfig then
      { stored := writeConfigMcu session.version options.bootConfig session.configDataMcu
        session := none
        written := { written with version := some session.version } }
    else { s with session := none, written }
  | .saveMcuConfig overrides =>
    some
      { stored := { s.stored with toOverrides := overrides }
        session := none
        written := { s.written with overrides } }

/-- Any block, which stands for what was written before. -/
def initial (stored : CfgDataMcu) : Console where
  stored
  session := none
  written := ⟨none, stored.bootCfg.toUInt32, stored.toOverrides⟩

/-! ## Versions -/

/-- The order of versions. -/
def Version.Precedes (v w : Version) : Prop :=
  v.major < w.major ∨ v.major = w.major ∧
    (v.minor < w.minor ∨ v.minor = w.minor ∧ v.build < w.build)

instance (v w : Version) : Decidable (v.Precedes w) :=
  inferInstanceAs (Decidable (_ ∨ _))

/-- The numbers do not run into each other where `MAKE_LUMA_VERSION_MCU` packs them. -/
def Version.Packs (v : Version) : Prop := v.major < 256 ∧ v.minor < 8 ∧ v.build < 8

instance (v : Version) : Decidable v.Packs := inferInstanceAs (Decidable (_ ∧ _))

theorem makeLumaVersionMcu_toNat {v : Version} (h : v.Packs) :
    (makeLumaVersionMcu v).toNat = v.major * 256 + v.minor * 32 + v.build := by
  obtain ⟨hmajor, hminor, hbuild⟩ := h
  have hmask : ∀ n x : Nat, x < 2 ^ n → x &&& (2 ^ n - 1) = x := fun n x hx => by
    rw [Nat.and_two_pow_sub_one_eq_mod, Nat.mod_eq_of_lt hx]
  have hparts : (v.major &&& 0xFF) <<< 8 ||| (v.minor &&& 0x1F) <<< 5 ||| (v.build &&& 7) =
      v.major * 256 + v.minor * 32 + v.build := by
    rw [show v.major &&& 0xFF = v.major from hmask 8 v.major hmajor,
      show v.minor &&& 0x1F = v.minor from hmask 5 v.minor (by omega),
      show v.build &&& 7 = v.build from hmask 3 v.build hbuild]
    have hlow : v.minor <<< 5 < 2 ^ 8 := by
      rw [Nat.shiftLeft_eq]
      omega
    have hhigh : v.major <<< 8 + v.minor <<< 5 = (v.major * 8 + v.minor) <<< 5 := by
      simp only [Nat.shiftLeft_eq]
      omega
    rw [← Nat.shiftLeft_add_eq_or_of_lt hlow, hhigh,
      ← Nat.shiftLeft_add_eq_or_of_lt (show v.build < 2 ^ 5 by omega), Nat.shiftLeft_eq]
    omega
  rw [makeLumaVersionMcu, hparts]
  exact UInt16.toNat_ofNat_of_lt' (show _ < 65536 by omega)

theorem makeLumaVersionMcu_lt_iff {v w : Version} (hv : v.Packs) (hw : w.Packs) :
    makeLumaVersionMcu v < makeLumaVersionMcu w ↔ v.Precedes w := by
  rw [UInt16.lt_iff_toNat_lt, makeLumaVersionMcu_toNat hv, makeLumaVersionMcu_toNat hw]
  obtain ⟨-, hminor, hbuild⟩ := hv
  obtain ⟨-, hminor', hbuild'⟩ := hw
  unfold Version.Precedes
  omega

example : makeLumaVersionMcu ⟨10, 8, 0⟩ = makeLumaVersionMcu ⟨11, 0, 0⟩ := by decide

/-! ## The block -/

theorem Overrides.sanitize_sanitize (o : Overrides) : o.sanitize.sanitize = o.sanitize := by
  have hflags : ∀ f : UInt8,
      (f &&& ~~~audioRoutingMask) &&& audioRoutingMask ≠ audioRoutingMask := by
    intro f hf
    rw [UInt8.and_assoc, show ~~~audioRoutingMask &&& audioRoutingMask = 0 by decide,
      UInt8.and_zero] at hf
    exact absurd hf (by decide)
  simp only [sanitize]
  split_ifs <;> simp_all

theorem BootOptions.bootConfig_toUInt8 (o : BootOptions) :
    o.bootConfig.toUInt8.toUInt32 = o.bootConfig := by
  obtain ⟨emunand, ⟨index, hindex⟩, noForceFlag, ntrcardBoot⟩ := o
  have hcases : index = 0 ∨ index = 1 ∨ index = 2 ∨ index = 3 := by omega
  rcases hcases with rfl | rfl | rfl | rfl
  all_goals cases emunand <;> cases noForceFlag <;> cases ntrcardBoot <;>
    (dsimp only [bootConfig]; decide)

/-! ## Boots -/

/-- What is claimed of a boot that finds a valid block. -/
def Kept (s : Console) : Action → Console → Prop
  | .boot version ini, _ => s.stored.valid = true →
    (readConfig version ini s.stored).bootConfig = s.written.bootConfig ∧
      (readConfig version ini s.stored).overrides = s.written.overrides.sanitize ∧
      ∀ w, s.written.version = some w →
        ((readConfig version ini s.stored).mcu.upgraded = true ↔ w.Precedes version)
  | _, _ => True

/-- The version can be packed, and an upgrade finds no boot configuration to lose. -/
def fits (s : Console) : Action → Bool
  | .boot version _ =>
    version.Packs &&
      !(s.stored.valid && s.stored.lumaVersion < makeLumaVersionMcu version && s.stored.bootCfg ≠ 0)
  | _ => true

structure Inv (s : Console) : Prop where
  bootConfig : s.stored.bootCfg.toUInt32 = s.written.bootConfig
  overrides : s.stored.sanitize = s.written.overrides.sanitize
  version : ∀ w, s.written.version = some w →
    w.Packs ∧ s.stored.lumaVersion = makeLumaVersionMcu w
  packs : ∀ session, s.session = some session → session.version.Packs
  oldBootConfig : ∀ session, s.session = some session →
    session.oldBootConfig = s.stored.bootCfg.toUInt32
  configDataMcu : ∀ session, s.session = some session →
    session.configDataMcu.sanitize = s.stored.sanitize

/-- What a boot that loses nothing reads and leaves behind. -/
structure ReadKeeps (version : Version) (stored : CfgDataMcu) (read : McuRead) : Prop where
  returned : read.returned = true
  upgraded : read.upgraded = true ↔ stored.lumaVersion < makeLumaVersionMcu version
  bootCfg : read.configDataMcu.bootCfg = stored.bootCfg
  overrides : read.configDataMcu.toOverrides = stored.sanitize
  storedBootCfg : read.stored.bootCfg = stored.bootCfg
  storedOverrides : read.stored.sanitize = stored.sanitize
  storedVersion : read.stored.lumaVersion =
    if read.upgraded then makeLumaVersionMcu version else stored.lumaVersion

theorem readConfigMcu_keeps {version : Version} {stored : CfgDataMcu}
    (hvalid : stored.valid = true)
    (hkept : stored.lumaVersion < makeLumaVersionMcu version → stored.bootCfg = 0) :
    ReadKeeps version stored (readConfigMcu version 0 stored) := by
  unfold readConfigMcu
  rw [if_pos hvalid]
  dsimp only
  split_ifs with hold
  · have hzero : (0 : UInt32).toUInt8 = stored.bootCfg := (hkept hold).symm
    exact ⟨rfl, iff_of_true rfl hold, hzero, rfl, hzero, stored.sanitize_sanitize, rfl⟩
  · exact ⟨rfl, iff_of_false Bool.false_ne_true hold, rfl, rfl, rfl, rfl, rfl⟩

section Boot
variable {s t : Console} {version : Version} {ini : Bool}

theorem fits_boot (h : fits s (.boot version ini) = true) : version.Packs ∧
    (s.stored.valid = true → s.stored.lumaVersion < makeLumaVersionMcu version →
      s.stored.bootCfg = 0) := by
  simp only [fits, Bool.and_eq_true, decide_eq_true_eq, Bool.not_eq_true',
    Bool.and_eq_false_imp, decide_eq_false_iff_not, not_not] at h
  exact ⟨h.1, fun hvalid hold => h.2 ⟨hvalid, hold⟩⟩

theorem Inv.kept (hs : Inv s) (hfits : fits s (.boot version ini) = true) :
    Kept s (.boot version ini) t := by
  intro hvalid
  obtain ⟨hpacks, hlost⟩ := fits_boot hfits
  have hread := readConfigMcu_keeps hvalid (hlost hvalid)
  refine ⟨?_, hread.overrides.trans hs.overrides, fun w hw => ?_⟩
  · show (readConfigMcu version 0 s.stored).configDataMcu.bootCfg.toUInt32 = _
    rw [hread.bootCfg, hs.bootConfig]
  · obtain ⟨hwpacks, hstored⟩ := hs.version w hw
    show (readConfigMcu version 0 s.stored).upgraded = true ↔ _
    rw [hread.upgraded, hstored, makeLumaVersionMcu_lt_iff hwpacks hpacks]

theorem Inv.boot (hs : Inv s) (hfits : fits s (.boot version ini) = true) :
    Inv (boot s version ini) := by
  obtain ⟨hpacks, hlost⟩ := fits_boot hfits
  by_cases hvalid : s.stored.valid = true
  · have hread := readConfigMcu_keeps hvalid (hlost hvalid)
    have hwritten : (ConfigMcu.boot s version ini).written =
        { s.written with version :=
            if (readConfigMcu version 0 s.stored).upgraded then some version
            else s.written.version } := if_pos hread.returned
    constructor
    case bootConfig =>
      rw [hwritten]
      exact (congrArg UInt8.toUInt32 hread.storedBootCfg).trans hs.bootConfig
    case overrides =>
      rw [hwritten]
      exact hread.storedOverrides.trans hs.overrides
    case version =>
      intro w hw
      rw [hwritten] at hw
      show w.Packs ∧ (readConfigMcu version 0 s.stored).stored.lumaVersion = _
      rw [hread.storedVersion]
      split_ifs at hw ⊢ with hupgraded
      · exact Option.some.inj hw ▸ ⟨hpacks, rfl⟩
      · exact hs.version w hw
    all_goals rintro session ⟨⟩
    case packs => exact hpacks
    case oldBootConfig =>
      show (readConfigMcu version 0 s.stored).configDataMcu.bootCfg.toUInt32 =
        (readConfigMcu version 0 s.stored).stored.bootCfg.toUInt32
      rw [hread.bootCfg, hread.storedBootCfg]
    case configDataMcu =>
      show (readConfigMcu version 0 s.stored).configDataMcu.sanitize =
        (readConfigMcu version 0 s.stored).stored.sanitize
      rw [hread.overrides, hread.storedOverrides, Overrides.sanitize_sanitize]
  · have hreset : readConfigMcu version 0 s.stored =
        ⟨writeConfigMcu version 0 resetConfigMcu, writeConfigMcu version 0 resetConfigMcu, true,
          false⟩ := if_neg hvalid
    have hboot : ConfigMcu.boot s version ini =
        { stored := writeConfigMcu version 0 resetConfigMcu
          session := some ⟨version, writeConfigMcu version 0 resetConfigMcu, 0,
            .createConfiguration⟩
          written := ⟨some version, 0, resetConfigMcu.toOverrides⟩ } := by
      simp [ConfigMcu.boot, readConfig, hreset, writeConfigMcu]
    rw [hboot]
    refine ⟨rfl, rfl, fun w hw => Option.some.inj hw ▸ ⟨hpacks, rfl⟩, ?_, ?_, ?_⟩
    all_goals rintro session ⟨⟩
    · exact hpacks
    · rfl
    · rfl

end Boot

theorem Inv.step {s t : Console} {a : Action} (hs : Inv s) (hfits : fits s a = true)
    (h : ConfigMcu.step s a = some t) : Inv t := by
  cases a with
  | boot version ini => exact Option.some.inj h ▸ hs.boot hfits
  | configMenu =>
    obtain ⟨session, hsession, rfl⟩ := Option.map_eq_some_iff.mp h
    refine ⟨hs.bootConfig, hs.overrides, hs.version, ?_, ?_, ?_⟩
    all_goals rintro session' ⟨⟩
    · exact hs.packs session hsession
    · exact hs.oldBootConfig session hsession
    · exact hs.configDataMcu session hsession
  | bootOptions options =>
    obtain ⟨session, hsession, rfl⟩ := Option.map_eq_some_iff.mp h
    split_ifs with hupdate
    · refine ⟨options.bootConfig_toUInt8, ?_, ?_, nofun, nofun, nofun⟩
      · exact (hs.configDataMcu session hsession).trans hs.overrides
      · exact fun w hw => Option.some.inj hw ▸ ⟨hs.packs session hsession, rfl⟩
    · refine ⟨?_, hs.overrides, hs.version, nofun, nofun, nofun⟩
      have hsame : options.bootConfig = session.oldBootConfig := by
        revert hupdate
        unfold updateMcu
        cases session.needConfig <;> simp
      exact (hs.oldBootConfig session hsession).symm.trans hsame.symm
  | saveMcuConfig overrides =>
    rcases Option.some.inj h with rfl
    exact ⟨hs.bootConfig, rfl, hs.version, nofun, nofun, nofun⟩

/-! ## All runs -/

theorem kept_of_fits (stored : CfgDataMcu) {as : List Action}
    (hfits : Guarded step (fun s a => fits s a = true) (initial stored) as) :
    AllSteps step Kept (initial stored) as := by
  have hinitial : Inv (initial stored) := ⟨rfl, rfl, nofun, nofun, nofun, nofun⟩
  refine allSteps_of_guarded (fun s a t hs hC h => ⟨hs.step hC h, ?_⟩) hinitial hfits
  cases a with
  | boot version ini => exact hs.kept hC
  | _ => trivial

/-- Two boots with EmuNAND kept, the flags changed in between, and an upgrade without. -/
theorem kept_twoBoots : AllSteps step Kept (initial resetConfigMcu)
    [.boot ⟨13, 3, 2⟩ true, .configMenu, .bootOptions ⟨true, 2, false, false⟩,
      .saveMcuConfig ⟨0x1F, 0xB2, 120, 50⟩, .boot ⟨13, 3, 2⟩ true,
      .bootOptions ⟨false, 0, false, false⟩, .boot ⟨13, 3, 3⟩ true] :=
  kept_of_fits resetConfigMcu (guarded_of_guards (by decide))

/-- EmuNAND is forgotten on the first boot of a newer version. -/
theorem upgrade_notKept : ¬ ∀ stored as, AllSteps step Kept (initial stored) as := by
  intro h
  have hsteps := h resetConfigMcu [.boot ⟨13, 3, 2⟩ true, .bootOptions ⟨true, 0, false, false⟩,
    .boot ⟨13, 3, 3⟩ true]
  have hkept := (hsteps _ rfl).2 _ rfl
  have hlost := ((hkept.2 _ rfl).1 (by decide)).1
  exact absurd hlost (by decide)

end Presence3DS.Arm9.ConfigMcu
