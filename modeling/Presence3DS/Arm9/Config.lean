import Mathlib.Data.Fin.VecNotation
import Presence3DS.Arm9.ConfigValues
import Presence3DS.Arm9.Ini

/-! The text that a configuration is printed with (`config_template.ini`). -/

namespace Presence3DS.Arm9
open CString Decimal

inductive Conversion
  | d
  | u
  | s
  | llx

inductive TemplateLine
  | generated (text : String)
  | note (text : String)
  | header (name : String)
  | setting (name : String) (conversion : Conversion)

inductive Arg
  | int (n : ℤ)
  | str (s : Bytes)
  | long (n : BitVec 64)

/-- What a conversion makes of an argument of its type. -/
def formatArg : Conversion → Arg → Bytes
  | .d, .int n => signedDecimal n
  | .u, .int n => decimal n.toNat
  | .s, .str s => s
  | .llx, .long n => hex64 n
  | _, _ => []

/-- The lines of the template with the arguments in them, which are taken in order. -/
def fillTemplate : List TemplateLine → List Arg → List IniItem
  | .generated text :: lines, .str version :: .str suffix :: args =>
    .note (lit text ++ version ++ suffix) :: fillTemplate lines args
  | .note text :: lines, args => .note (lit text) :: fillTemplate lines args
  | .header name :: lines, args => .header (lit name) :: fillTemplate lines args
  | .setting name conversion :: lines, arg :: args =>
    .setting (lit name) (formatArg conversion arg) :: fillTemplate lines args
  | _, _ => []

def configTemplateIni : List TemplateLine :=
  [.generated "; This configuration file was automatically generated by ",
    .note "",
    .header "meta",
    .note "; Do not edit these two lines.",
    .setting "config_version_major" .d,
    .setting "config_version_minor" .d,
    .note "",
    .header "boot",
    .note "; Options appearing on the Luma3DS initial boot menu",
    .note "; (save for 'splash_duration_ms').",
    .note "",
    .note "; If enabled (= 1), the selected emuNAND will be launched",
    .note "; on boot. Otherwise, sysNAND will be launched instead.",
    .note "; Hold L on boot to switch between sysNAND and emuNAND.",
    .note "; Hold Up/Right/Down/Left to select emuNAND no. 1/2/3/4.",
    .setting "autoboot_emunand" .d,
    .note "",
    .note "; Enable loading external FIRMs and system modules from",
    .note "; Luma3DS's folders. Usually not needed. Refer to wiki",
    .note "; for further details.",
    .setting "enable_external_firm_and_modules" .d,
    .note "",
    .note "; Enable multiple game patching functions: locale",
    .note "; emulation, IPS support, LayeredFS, and more.",
    .setting "enable_game_patching" .d,
    .note "",
    .note "; Redirect application threads that would spawn on core1,",
    .note "; to core2 (which is an extra CPU core for applications",
    .note "; that usually remains unused). New 3DS only.",
    .note "; This improves the performance of very demanding games (those",
    .note "; that use 3x clockrate and L2C by default), like Pokémon US/UM",
    .note "; by about 10%. Can break some games and other applications.",
    .note "; Context: core1 is the core where all sysmodules (device drivers,",
    .note "; etc.) except head tracking run on. Applications can request to",
    .note "; run threads on that core a percentage of the total CPU time,",
    .note "; but this reduces the time sysmodules can run. This patch",
    .note "; prevents this from happening.",
    .setting "app_syscore_threads_on_core_2" .d,
    .note "",
    .note "; Enables showing the current NAND in System Settings:",
    .note "; - Sys  = sysNAND",
    .note "; - Emu  = emuNAND 1",
    .note "; - EmuX = emuNAND X",
    .note "; You can also opt to display your own custom string",
    .note "; (max 19 characters) by creating and writing to the",
    .note "; following files: /luma/customversion_NANDtype.txt",
    .note "; where NANDtype is one of: sys, emu, emu2, emu3, emu4.",
    .setting "show_system_settings_string" .d,
    .note "",
    .note "; Enables showing the GBA boot animation when launching",
    .note "; GBA games.",
    .setting "show_gba_boot_screen" .d,
    .note "",
    .note "; Default emuNAND number (1 to 4) to be booted when",
    .note "; no directional buttons are pressed.",
    .setting "default_emunand_number" .d,
    .note "",
    .note "; Brightness level the Luma3DS boot menu should use",
    .note "; (1 to 4).",
    .setting "brightness_level" .d,
    .note "",
    .note "; When to display the splash screen. One of:",
    .note "; \"off\", \"before payloads\", \"after payloads\".",
    .setting "splash_position" .s,
    .note "",
    .note "; The duration of the splash screen, in milliseconds.",
    .setting "splash_duration_ms" .u,
    .note "",
    .note "; Number of PIN digits (0, 4, 6, 8).",
    .setting "pin_lock_num_digits" .d,
    .note "",
    .note "; N3DS mode to use when launching applications. One of:",
    .note "; \"off\", \"clock\", \"l2\", \"clock+l2\". Does not apply to New 3DS",
    .note "; exclusive/enhanced games. Clock+L2 can cause issues as",
    .note "; it can reveal hidden bugs within some games.",
    .setting "app_launch_new_3ds_cpu" .s,
    .note "",
    .note "; Autoboot mode, one of:",
    .note "; - \"off\"",
    .note "; - \"3ds\": boot into the 3DS title specfied by hbldr_3dsx_titleid",
    .note "; - \"dsi\": boot into the DSi title specified by autoboot_dsi_titleid",
    .setting "autoboot_mode" .s,
    .note "",
    .header "rosalina",
    .note "; Rosalina options",
    .note "",
    .note "; Title ID of the application to take over when launching",
    .note "; boot.3dsx.",
    .setting "hbldr_3dsx_titleid" .llx,
    .note "",
    .note "; Button combo to open the Rosalina menu.",
    .setting "rosalina_menu_combo" .s,
    .note "",
    .note "; Plugin loader enabled state.",
    .setting "plugin_loader_enabled" .d,
    .note "",
    .note "; NTP timezone offset, in minutes (-779 to 899).",
    .setting "ntp_tz_offset_min" .d,
    .note "",
    .header "screen_filters",
    .note "; For screen filters, we use the GPU's color correction lookup",
    .note "; tables (one LUT for each color component).",
    .note "; These LUTs replace each color intensity by the corresponding",
    .note "; value in the LUT (0 to 255).",
    .note "; The following formula is used:",
    .note ";   y_c = (contrast_c * whitepoint_c(cct) * x_c) ^ gamma_c",
    .note "; where:",
    .note ";   * x_c = intensity_c / 255",
    .note ";   * output is multiplied by 255, rounded, and clamped",
    .note ";   * color curve adjustment (if any), then color inversion (if",
    .note "; enabled), are then applied to the output",
    .note "",
    .note "; Note: the color curve adjustment settings (\"enhance top/bottom screen",
    .note "; colors\") have been moved to MCU storage, and are no longer configured",
    .note "; here. Use the Rosalina menu to change them.",
    .note "",
    .note "; Correlated Color Temperature (CCT) for the screen filters",
    .note "; (1000 to 25100).",
    .setting "screen_filters_top_cct" .d,
    .setting "screen_filters_bot_cct" .d,
    .note "",
    .note "; Per-channel (red, green, blue) gamma adjustment for the screen",
    .note "; filters (0 to 4).",
    .note "; Increasing this above 1 will make colors look more saturated.",
    .setting "screen_filters_top_gamma_r" .s,
    .setting "screen_filters_top_gamma_g" .s,
    .setting "screen_filters_top_gamma_b" .s,
    .setting "screen_filters_bot_gamma_r" .s,
    .setting "screen_filters_bot_gamma_g" .s,
    .setting "screen_filters_bot_gamma_b" .s,
    .note "",
    .note "; Per-channel (red, green, blue) contrast adjustment for the screen",
    .note "; filters (0 to 8). For contrast > 1, results are clamped as necessary.",
    .setting "screen_filters_top_contrast_r" .s,
    .setting "screen_filters_top_contrast_g" .s,
    .setting "screen_filters_top_contrast_b" .s,
    .setting "screen_filters_bot_contrast_r" .s,
    .setting "screen_filters_bot_contrast_g" .s,
    .setting "screen_filters_bot_contrast_b" .s,
    .note "",
    .note "; Whether or not the screen filters should invert colors.",
    .setting "screen_filters_top_invert" .d,
    .setting "screen_filters_bot_invert" .d,
    .note "",
    .header "autoboot",
    .note "; Autoboot options",
    .note "",
    .note "; DSi title ID of the application to use when autobooting",
    .note "; into DSi mode. The title must be installed on NAND.",
    .setting "autoboot_dsi_titleid" .llx,
    .note "",
    .note "; Memory layout to use when autobooting into 3DS homebrew:",
    .note "; - 0: Normal memory layout (64 MB of application memory on O3DS,",
    .note "; 124 MB on N3DS)",
    .note "; - 1: Dev1 memory layout (96 MB / 178 MB)",
    .note "; - 2: Dev2 memory layout (80 MB / 124 MB)",
    .note "; - 3: Dev3 memory layout (72 MB / 124 MB)",
    .note "; - 4: Dev4 memory layout (32 MB / 124 MB)",
    .setting "autoboot_3ds_app_mem_type" .d,
    .note "",
    .note "; If enabled (= 1), NS will directly launch the 3DS homebrew",
    .note "; title when autobooting, without starting HOME Menu first.",
    .note "; Otherwise, HOME Menu is started and then launches the title.",
    .note "; Please note that using anything other than the normal memory",
    .note "; layout with this option enabled will cause HOME Menu to crash",
    .note "; if it launched (usually via the HOME button or the POWER",
    .note "; button - just use the poweroff/reboot option from Rosalina",
    .note "; menu instead).",
    .note "; Furthermore, if this option is enabled, the title must exist,",
    .note "; or a fatal error will occur.",
    .setting "autoboot_3ds_use_ns" .d,
    .note "",
    .header "misc",
    .note "; \"Hidden\" miscellaneous options.",
    .note "",
    .note "; Note: the audio routing (\"force_audio_output\") and volume slider",
    .note "; override (\"volume_slider_override\") settings have been moved to",
    .note "; MCU storage, along with the new stereo balance, LED master",
    .note "; brightness override and temperature unit settings, and are no",
    .note "; longer configured here.",
    .note "; Use the Rosalina menu to change them.",
    .note "",
    .note "; Make the console be always detected as a development unit,",
    .note "; and conversely (Arm11-side only).",
    .note "; This breaks online features, amiibo and retail CIAs, but",
    .note "; allows installing and booting some developer software.",
    .note "; Only enable this if you know what you are doing!",
    .setting "use_dev_unitinfo" .d,
    .note "",
    .note "; Enables replacing the default convolution-based upscaling",
    .note "; filter used for DS(i) software by the contents of the binary file",
    .note "; /luma/twl_upscaling_filter.bin",
    .setting "enable_dsi_external_filter" .d,
    .note "",
    .note "; Disables the fatal error exception handlers for the Arm11",
    .note "; CPU. Disabling this will disqualify you from submitting",
    .note "; issues to the Luma3DS repository.",
    .setting "disable_arm11_exception_handlers" .d,
    .note "",
    .note "; Enables Rosalina, the kernel ext. and sysmodule reimpls",
    .note "; on SAFE_FIRM (New 3DS only). Also suppresses QTM error",
    .note "; 0xF96183FE, allowing to use 8.1-11.3 N3DS on New 2DS XL",
    .note "; consoles.",
    .note "; Only select this if you know what you are doing!",
    .setting "enable_safe_firm_rosalina" .d]

/-! The configuration and its file, `config.ini` (`config.c`). -/

inductive Screen
  | top
  | bottom
  deriving DecidableEq

@[ext]
structure ScreenFiltersCfgData where
  cct : ℕ
  invert : Bool
  gammaEnc : Fin 3 → ℤ
  contrastEnc : Fin 3 → ℤ

@[ext]
structure CfgData where
  formatVersionMajor : ℕ
  formatVersionMinor : ℕ
  config : BitVec 32
  multiConfig : BitVec 32
  splashDurationMsec : ℕ
  hbldr3dsxTitleId : BitVec 64
  rosalinaMenuCombo : BitVec 32
  pluginLoaderFlags : BitVec 32
  ntpTzOffetMinutes : ℤ
  topScreenFilter : ScreenFiltersCfgData
  bottomScreenFilter : ScreenFiltersCfgData
  autobootTwlTitleId : BitVec 64
  autobootCtrAppmemtype : ℕ
  autobootCtrUseNs : Bool

/-- What the configuration is before anything has been read. -/
def CfgData.zero : CfgData where
  formatVersionMajor := 0
  formatVersionMinor := 0
  config := 0
  multiConfig := 0
  splashDurationMsec := 0
  hbldr3dsxTitleId := 0
  rosalinaMenuCombo := 0
  pluginLoaderFlags := 0
  ntpTzOffetMinutes := 0
  topScreenFilter := ⟨0, false, fun _ => 0, fun _ => 0⟩
  bottomScreenFilter := ⟨0, false, fun _ => 0, fun _ => 0⟩
  autobootTwlTitleId := 0
  autobootCtrAppmemtype := 0
  autobootCtrUseNs := false

def configVersionMajor : ℕ := 3

def configVersionMinor : ℕ := 16

inductive MultiOption
  | defaultEmu
  | brightness
  | splash
  | pin
  | newCpu
  | autobootMode
  deriving DecidableEq

def MultiOption.index : MultiOption → ℕ
  | defaultEmu => 0
  | brightness => 1
  | splash => 2
  | pin => 3
  | newCpu => 4
  | autobootMode => 5

namespace CfgData

/-- `CONFIG(a)` -/
def flag (cfg : CfgData) (a : ℕ) : Bool := cfg.config.getLsbD a

/-- `MULTICONFIG(a)` -/
def multi (cfg : CfgData) (a : MultiOption) : ℕ :=
  ((cfg.multiConfig >>> (2 * a.index)) &&& 3#32).toNat

def orFlag (cfg : CfgData) (a : ℕ) (opt : Bool) : CfgData :=
  { cfg with config := cfg.config ||| BitVec.ofNat 32 opt.toNat <<< a }

def orMulti (cfg : CfgData) (a : MultiOption) (opt : ℕ) : CfgData :=
  { cfg with multiConfig := cfg.multiConfig ||| BitVec.ofNat 32 opt <<< (2 * a.index) }

def screenFilter (cfg : CfgData) : Screen → ScreenFiltersCfgData
  | .top => cfg.topScreenFilter
  | .bottom => cfg.bottomScreenFilter

def setFilter (cfg : CfgData) (screen : Screen)
    (f : ScreenFiltersCfgData → ScreenFiltersCfgData) : CfgData :=
  match screen with
  | .top => { cfg with topScreenFilter := f cfg.topScreenFilter }
  | .bottom => { cfg with bottomScreenFilter := f cfg.bottomScreenFilter }

end CfgData

scoped instance channels : NeZero 3 := ⟨Nat.succ_ne_zero 2⟩

scoped instance miscOptions : NeZero 4 := ⟨Nat.succ_ne_zero 3⟩

scoped instance bootOptions : NeZero 6 := ⟨Nat.succ_ne_zero 5⟩

/-- An array of the three channels after one of them has been set. -/
def setChannel (enc : Fin 3 → ℤ) (ch : Fin 3) (opt : ℤ) : Fin 3 → ℤ :=
  fun c => if c = ch then opt else enc c

/-! ## Reading an option -/

def singleOptionIniNamesBoot : Fin 6 → String :=
  !["autoboot_emunand",
    "enable_external_firm_and_modules",
    "enable_game_patching",
    "app_syscore_threads_on_core_2",
    "show_system_settings_string",
    "show_gba_boot_screen"]

def singleOptionIniNamesMisc : Fin 4 → String :=
  !["use_dev_unitinfo",
    "enable_dsi_external_filter",
    "disable_arm11_exception_handlers",
    "enable_safe_firm_rosalina"]

/-- The options of the file. -/
inductive IniOption
  | configVersionMajor
  | configVersionMinor
  | singleBoot (i : Fin 6)
  | defaultEmunandNumber
  | brightnessLevel
  | splashPosition
  | splashDurationMs
  | pinLockNumDigits
  | appLaunchNew3dsCpu
  | autobootMode
  | hbldr3dsxTitleid
  | rosalinaMenuCombo
  | pluginLoaderEnabled
  | ntpTzOffsetMin
  | screenFiltersCct (screen : Screen)
  | screenFiltersGamma (screen : Screen) (ch : Fin 3)
  | screenFiltersContrast (screen : Screen) (ch : Fin 3)
  | screenFiltersInvert (screen : Screen)
  | autobootDsiTitleid
  | autoboot3dsAppMemType
  | autoboot3dsUseNs
  | singleMisc (i : Fin 4)
  deriving DecidableEq

def getScreenFilterChannelFromOptionName (name stem : Bytes) : Option (Fin 3) :=
  if name = stem ++ lit "r" then some 0
  else if name = stem ++ lit "g" then some 1
  else if name = stem ++ lit "b" then some 2
  else none

/-- The options of one of the screens. -/
def screenFilterOption (name : Bytes) (screen : Screen) (stem : String) : Option IniOption :=
  if name = lit (stem ++ "cct") then some (.screenFiltersCct screen)
  else
    match getScreenFilterChannelFromOptionName name (lit (stem ++ "gamma_")) with
    | some ch => some (.screenFiltersGamma screen ch)
    | none =>
      match getScreenFilterChannelFromOptionName name (lit (stem ++ "contrast_")) with
      | some ch => some (.screenFiltersContrast screen ch)
      | none => if name = lit (stem ++ "invert") then some (.screenFiltersInvert screen) else none

/-- Which option `configIniHandler` takes a name of a section for. -/
def optionOfName (sectionName name : Bytes) : Option IniOption :=
  if sectionName = lit "meta" then
    if name = lit "config_version_major" then some .configVersionMajor
    else if name = lit "config_version_minor" then some .configVersionMinor
    else none
  else if sectionName = lit "boot" then
    match (List.finRange 6).find? fun i => name == lit (singleOptionIniNamesBoot i) with
    | some i => some (.singleBoot i)
    | none =>
      if name = lit "default_emunand_number" then some .defaultEmunandNumber
      else if name = lit "brightness_level" then some .brightnessLevel
      else if name = lit "splash_position" then some .splashPosition
      else if name = lit "splash_duration_ms" then some .splashDurationMs
      else if name = lit "pin_lock_num_digits" then some .pinLockNumDigits
      else if name = lit "app_launch_new_3ds_cpu" then some .appLaunchNew3dsCpu
      else if name = lit "autoboot_mode" then some .autobootMode
      else none
  else if sectionName = lit "rosalina" then
    if name = lit "hbldr_3dsx_titleid" then some .hbldr3dsxTitleid
    else if name = lit "rosalina_menu_combo" then some .rosalinaMenuCombo
    else if name = lit "plugin_loader_enabled" then some .pluginLoaderEnabled
    else if name = lit "ntp_tz_offset_min" then some .ntpTzOffsetMin
    else none
  else if sectionName = lit "screen_filters" then
    match screenFilterOption name .top "screen_filters_top_" with
    | some opt => some opt
    | none => screenFilterOption name .bottom "screen_filters_bot_"
  else if sectionName = lit "autoboot" then
    if name = lit "autoboot_dsi_titleid" then some .autobootDsiTitleid
    else if name = lit "autoboot_3ds_app_mem_type" then some .autoboot3dsAppMemType
    else if name = lit "autoboot_3ds_use_ns" then some .autoboot3dsUseNs
    else none
  else if sectionName = lit "misc" then
    match (List.finRange 4).find? fun i => name == lit (singleOptionIniNamesMisc i) with
    | some i => some (.singleMisc i)
    | none => none
  else none

def splashPositions : List (String × ℕ) := [("off", 0), ("before payloads", 1), ("after payloads", 2)]

def new3dsCpus : List (String × ℕ) := [("off", 0), ("clock", 1), ("l2", 2), ("clock+l2", 3)]

def autobootModes : List (String × ℕ) := [("off", 0), ("3ds", 1), ("dsi", 2)]

/-- The numbers of digits of a PIN, as they are encoded. -/
def pinDigits : List (ℤ × ℕ) := [(0, 0), (4, 1), (6, 2), (8, 3)]

/-- What `configIniHandler` does with the value of an option; there is none where it is wrong. -/
def IniOption.set (cfg : CfgData) (value : Bytes) : IniOption → Option CfgData
  | configVersionMajor =>
    (parseDecIntOption value 0 0xFFFF).map fun opt => { cfg with formatVersionMajor := opt.toNat }
  | configVersionMinor =>
    (parseDecIntOption value 0 0xFFFF).map fun opt => { cfg with formatVersionMinor := opt.toNat }
  | singleBoot i => (parseBoolOption value).map (cfg.orFlag i)
  | defaultEmunandNumber =>
    (parseDecIntOption value 1 4).map fun opt => cfg.orMulti .defaultEmu (opt - 1).toNat
  | brightnessLevel =>
    (parseDecIntOption value 1 4).map fun opt => cfg.orMulti .brightness (4 - opt).toNat
  | splashPosition => (parseWordOption splashPositions value).map (cfg.orMulti .splash)
  | splashDurationMs =>
    (parseDecIntOption value 0 0xFFFFFFFF).map fun opt =>
      { cfg with splashDurationMsec := opt.toNat }
  | pinLockNumDigits =>
    (parseDecIntOption value 0 8).bind fun opt =>
      (pinDigits.lookup opt).map (cfg.orMulti .pin)
  | appLaunchNew3dsCpu => (parseWordOption new3dsCpus value).map (cfg.orMulti .newCpu)
  | autobootMode => (parseWordOption autobootModes value).map (cfg.orMulti .autobootMode)
  | hbldr3dsxTitleid =>
    (parseHexIntOption value).map fun opt => { cfg with hbldr3dsxTitleId := opt }
  | rosalinaMenuCombo =>
    (parseKeyComboOption value).map fun opt => { cfg with rosalinaMenuCombo := opt }
  | pluginLoaderEnabled =>
    (parseBoolOption value).map fun opt =>
      { cfg with
        pluginLoaderFlags :=
          if opt then cfg.pluginLoaderFlags ||| 1#32 else cfg.pluginLoaderFlags &&& ~~~1#32 }
  | ntpTzOffsetMin =>
    (parseDecIntOption value (-779) 899).map fun opt => { cfg with ntpTzOffetMinutes := opt }
  | screenFiltersCct screen =>
    (parseDecIntOption value 1000 25100).map fun opt =>
      cfg.setFilter screen fun filter => { filter with cct := opt.toNat }
  | screenFiltersGamma screen ch =>
    (parseDecFloatOption value 0 (4 * floatConvMult)).map fun opt =>
      cfg.setFilter screen fun filter =>
        { filter with gammaEnc := setChannel filter.gammaEnc ch opt }
  | screenFiltersContrast screen ch =>
    (parseDecFloatOption value 0 (8 * floatConvMult)).map fun opt =>
      cfg.setFilter screen fun filter =>
        { filter with contrastEnc := setChannel filter.contrastEnc ch opt }
  | screenFiltersInvert screen =>
    (parseBoolOption value).map fun opt =>
      cfg.setFilter screen fun filter => { filter with invert := opt }
  | autobootDsiTitleid =>
    (parseHexIntOption value).map fun opt => { cfg with autobootTwlTitleId := opt }
  | autoboot3dsAppMemType =>
    (parseDecIntOption value 0 4).map fun opt => { cfg with autobootCtrAppmemtype := opt.toNat }
  | autoboot3dsUseNs => (parseBoolOption value).map fun opt => { cfg with autobootCtrUseNs := opt }
  | singleMisc i => (parseBoolOption value).map (cfg.orFlag (i + 6))

/-- The configuration that is read, with `hasIniParseError` and `iniParseErrorLine`. -/
structure IniReading where
  cfg : CfgData
  hasIniParseError : Bool
  iniParseErrorLine : ℕ

def IniReading.accept (reading : IniReading) (s : Bytes × Bytes × Bytes) : Option IniReading :=
  ((optionOfName s.1 s.2.1).bind (IniOption.set reading.cfg s.2.2)).map
    fun cfg => { reading with cfg }

def IniReading.reject (reading : IniReading) (lineno : ℕ) : IniReading :=
  { reading with hasIniParseError := true, iniParseErrorLine := lineno }

def configIniHandler : IniHandler IniReading := iniHandlerOf IniReading.accept IniReading.reject

/-- `sizeof(tmpIniBuffer)` -/
def tmpIniBufferSize : ℕ := 0x2000 + 0x400

/-- What is read of a file with some content, into a configuration. -/
def readLumaIniConfig (configData : CfgData) (file : Bytes) : Option CfgData :=
  -- A file that is larger than the buffer is not read at all.
  if file.length = 0 ∨ tmpIniBufferSize - 1 < file.length then none
  else
    let (_, reading) := iniParseString configIniHandler file ⟨configData, false, 0⟩
    -- The parser returns no negative number.
    if reading.hasIniParseError then none else some reading.cfg

/-! ## Printing the options -/

/-- What is known of the build. -/
structure Build where
  versionMajor : Fin (2 ^ 31)
  versionMinor : Fin (2 ^ 31)
  versionBuild : Fin (2 ^ 31)
  isRelease : Bool
  commitHash : BitVec 32

def lumaVerStr (build : Build) : Bytes :=
  lit "Luma3DS v" ++ decimal build.versionMajor ++ lit "." ++ decimal build.versionMinor ++
    if build.versionBuild = 0 then [] else lit "." ++ decimal build.versionBuild

def lumaRevSuffixStr (build : Build) : Bytes :=
  if build.isRelease then [] else lit "-" ++ hex32 build.commitHash

/-- The word of a number, where the default is the first. -/
def wordOf (words : List (String × ℕ)) (n : ℕ) : Bytes :=
  match words.find? fun word => word.2 == n with
  | some word => lit word.1
  | none => lit "off"

def pinOptionToDigits (n : ℕ) : ℤ := ([0, 4, 6, 8] : List ℤ).getD n 0

def boolArg (b : Bool) : Arg := .int b.toNat

def floatArg (val : ℤ) : Arg := .str (encodedFloatToString val)

/-- The arguments that the template is printed with. -/
def iniArgs (build : Build) (cfg : CfgData) : List Arg :=
  let top := cfg.topScreenFilter
  let bottom := cfg.bottomScreenFilter
  [ .str (lumaVerStr build), .str (lumaRevSuffixStr build),
    .int configVersionMajor, .int configVersionMinor,
    boolArg (cfg.flag 0), boolArg (cfg.flag 1),
    boolArg (cfg.flag 2), boolArg (cfg.flag 3),
    boolArg (cfg.flag 4), boolArg (cfg.flag 5),
    .int (1 + cfg.multi .defaultEmu), .int (4 - cfg.multi .brightness),
    .str (wordOf splashPositions (cfg.multi .splash)), .int cfg.splashDurationMsec,
    .int (pinOptionToDigits (cfg.multi .pin)), .str (wordOf new3dsCpus (cfg.multi .newCpu)),
    .str (wordOf autobootModes (cfg.multi .autobootMode)),
    .long cfg.hbldr3dsxTitleId, .str (menuComboToString cfg.rosalinaMenuCombo),
    .int (cfg.pluginLoaderFlags &&& 1#32).toNat,
    .int cfg.ntpTzOffetMinutes,
    .int top.cct, .int bottom.cct,
    floatArg (top.gammaEnc 0), floatArg (top.gammaEnc 1), floatArg (top.gammaEnc 2),
    floatArg (bottom.gammaEnc 0), floatArg (bottom.gammaEnc 1), floatArg (bottom.gammaEnc 2),
    floatArg (top.contrastEnc 0), floatArg (top.contrastEnc 1), floatArg (top.contrastEnc 2),
    floatArg (bottom.contrastEnc 0), floatArg (bottom.contrastEnc 1),
    floatArg (bottom.contrastEnc 2),
    boolArg top.invert, boolArg bottom.invert,
    .long cfg.autobootTwlTitleId, .int cfg.autobootCtrAppmemtype, boolArg cfg.autobootCtrUseNs,
    boolArg (cfg.flag 6), boolArg (cfg.flag 7),
    boolArg (cfg.flag 8), boolArg (cfg.flag 9)]

def savedItems (build : Build) (cfg : CfgData) : List IniItem :=
  fillTemplate configTemplateIni (iniArgs build cfg)

def saveLumaIniConfigToStr (build : Build) (cfg : CfgData) : Bytes :=
  (savedItems build cfg).flatMap IniItem.line

/-- The strings that are made on the way, each with the size of its buffer. -/
def savedStrings (build : Build) (cfg : CfgData) : List (Bytes × ℕ) :=
  (lumaVerStr build, 64) :: (lumaRevSuffixStr build, 16) ::
    (menuComboToString cfg.rosalinaMenuCombo, 128) ::
    ([Screen.top, Screen.bottom].flatMap fun screen =>
      (List.finRange 3).flatMap fun ch =>
        [(encodedFloatDigits ((cfg.screenFilter screen).gammaEnc ch), 32),
          (encodedFloatDigits ((cfg.screenFilter screen).contrastEnc ch), 32)]) ++
    [(saveLumaIniConfigToStr build cfg, tmpIniBufferSize)]

end Presence3DS.Arm9
