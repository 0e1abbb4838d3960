import Presence3DS.Discord.ConfigReader
import Presence3DS.Discord.ScriptEntries
import Presence3DS.Lib.Buffer

/-! The configuration of the client (`discord_config.c`), and the key that `discord_session.c`
decodes from it. -/

namespace Presence3DS.Discord
open Buffer CString Decimal

/-- `g_uuid`, `g_aes_key_hex`, `g_server_host`, `g_server_port` and `g_config_loaded` -/
structure DiscordConfig where
  uuid : Bytes
  aesKeyHex : Bytes
  serverHost : Bytes
  serverPort : UInt16
  loaded : Bool
deriving DecidableEq

structure ConfigContext where
  hasUuid : Bool
  hasKey : Bool
  hasHost : Bool
  hasPort : Bool
deriving DecidableEq

def uuidKey : Bytes := ascii "UUID".toList
def aesKeyKey : Bytes := ascii "AES_KEY".toList
def serverHostKey : Bytes := ascii "SERVER_HOST".toList
def serverPortKey : Bytes := ascii "SERVER_PORT".toList

/-- A value that a buffer of this size has room for, and that is not empty. -/
def fitsText (size : ℕ) (value : Bytes) : Bool := 0 < value.length && value.length < size

/-- `memcpy` of a value, and its terminator. -/
def storeText (buffer value : Bytes) : Bytes := splice buffer 0 (value ++ [0])

/-- The digits of a port, which are added up in 32 bits; none where there is another character. -/
def portDigits : UInt32 → Bytes → Option UInt32
  | port, [] => some port
  | port, c :: p =>
    if isDigit c then portDigits (port * 10 + UInt32.ofNat (c.toNat - 0x30)) p else none

def parsePort (value : Bytes) : Option UInt16 :=
  match portDigits 0 value with
  | some port => if 0 < port ∧ port ≤ 65535 then some port.toUInt16 else none
  | none => none

def configHandler (s : DiscordConfig × ConfigContext) (key value : Bytes) :
    (DiscordConfig × ConfigContext) × Bool :=
  let (config, ctx) := s
  if key = uuidKey then
    if fitsText 37 value then
      (({ config with uuid := storeText config.uuid value }, { ctx with hasUuid := true }), true)
    else (s, true)
  else if key = aesKeyKey then
    if fitsText 65 value then
      (({ config with aesKeyHex := storeText config.aesKeyHex value },
        { ctx with hasKey := true }), true)
    else (s, true)
  else if key = serverHostKey then
    if fitsText 256 value then
      (({ config with serverHost := storeText config.serverHost value },
        { ctx with hasHost := true }), true)
    else (s, true)
  else if key = serverPortKey then
    match parsePort value with
    | some port => (({ config with serverPort := port }, { ctx with hasPort := true }), true)
    | none => (s, true)
  else (s, true)

/-- The strings are emptied, and keep what is behind their first character. -/
def resetConfig (config : DiscordConfig) : DiscordConfig :=
  ⟨config.uuid.set 0 0, config.aesKeyHex.set 0 0, config.serverHost.set 0 0, 0, false⟩

/-- `DiscordConfig_Load`; there is no file where it cannot be opened or read. -/
def discordConfigLoad (config : DiscordConfig) (file : Option Bytes) : DiscordConfig :=
  match file with
  | none => resetConfig config
  | some file =>
    let (config, ctx) := configReaderParse configHandler
      (resetConfig config, ⟨false, false, false, false⟩) file
    if ctx.hasUuid ∧ ctx.hasKey ∧ ctx.hasHost ∧ ctx.hasPort then { config with loaded := true }
    else config

/-- `decode_aes_key` -/
def decodeAesKey (aesKeyHex : Bytes) : List UInt8 :=
  (List.range 32).map fun i =>
    (strtoulHex (str [aesKeyHex.getD (i * 2) 0, aesKeyHex.getD (i * 2 + 1) 0])).toUInt8

/-! ## What is written in a file -/

/-- The value of the last setting of a name that the handler takes. -/
def lastTaken (name : Bytes) (takes : Bytes → Bool) (kvs : List (Bytes × Bytes)) : Option Bytes :=
  ((kvs.filter fun kv => kv.1 = name && takes kv.2).getLast?).map Prod.snd

def uuidOf (kvs : List (Bytes × Bytes)) : Option Bytes := lastTaken uuidKey (fitsText 37) kvs

def aesKeyOf (kvs : List (Bytes × Bytes)) : Option Bytes := lastTaken aesKeyKey (fitsText 65) kvs

def hostOf (kvs : List (Bytes × Bytes)) : Option Bytes :=
  lastTaken serverHostKey (fitsText 256) kvs

def portOf (kvs : List (Bytes × Bytes)) : Option Bytes :=
  lastTaken serverPortKey (fun value => (parsePort value).isSome) kvs

/-- Sixty-four hexadecimal digits. -/
def IsHexKey (key : Bytes) : Prop := key.length = 64 ∧ ∀ c ∈ key, (hexValue? c).isSome = true

/-- The bytes that the pairs of digits of a key stand for. -/
def keyBytes (key : Bytes) : List UInt8 :=
  (List.range 32).map fun i => UInt8.ofNat (16 * (hexValue? (key.getD (i * 2) 0)).getD 0 +
    (hexValue? (key.getD (i * 2 + 1) 0)).getD 0)

/-- The decimal numeral of a number. -/
def IsNumeral (value : Bytes) (n : ℕ) : Prop :=
  value ≠ [] ∧ (∀ c ∈ value, isDigit c = true) ∧ readDigits 0 value = n

/-! ## The port -/

theorem portDigits_eq {value : Bytes} (h : ∀ c ∈ value, isDigit c = true) (acc : ℕ) :
    portDigits (UInt32.ofNat acc) value = some (UInt32.ofNat (readDigits acc value)) := by
  induction value generalizing acc with
  | nil => rfl
  | cons c value ih =>
    obtain ⟨hc, hrest⟩ := List.forall_mem_cons.mp h
    rw [portDigits, readDigits, if_pos hc, if_pos hc, ← ih hrest, Nat.mul_comm 10, UInt32.ofNat_add,
      UInt32.ofNat_mul]
    rfl

theorem portDigits_none {value : Bytes} (h : ¬∀ c ∈ value, isDigit c = true) (port : UInt32) :
    portDigits port value = none := by
  induction value generalizing port with
  | nil => exact absurd (fun c hc => absurd hc List.not_mem_nil) h
  | cons c value ih =>
    rw [portDigits]
    split_ifs with hc
    · exact ih (fun hall => h (List.forall_mem_cons.mpr ⟨hc, hall⟩)) _
    · rfl

theorem parsePort_eq_some_iff (value : Bytes) (port : UInt16) :
    parsePort value = some port ↔ (∀ c ∈ value, isDigit c = true) ∧
      0 < readDigits 0 value % 2 ^ 32 ∧ port.toNat = readDigits 0 value % 2 ^ 32 := by
  unfold parsePort
  by_cases hdigits : ∀ c ∈ value, isDigit c = true
  · have hnumber : (UInt32.ofNat (readDigits 0 value)).toNat = readDigits 0 value % 2 ^ 32 :=
      UInt32.toNat_ofNat'
    have hport := port.toNat_lt
    have hrange : (0 < UInt32.ofNat (readDigits 0 value) ∧
        UInt32.ofNat (readDigits 0 value) ≤ 65535) ↔
        0 < readDigits 0 value % 2 ^ 32 ∧ readDigits 0 value % 2 ^ 32 ≤ 65535 := by
      rw [UInt32.lt_iff_toNat_lt, UInt32.le_iff_toNat_le, hnumber]
      exact Iff.rfl
    rw [show portDigits 0 value = _ from portDigits_eq hdigits 0, and_iff_right hdigits]
    dsimp only
    split_ifs with htaken
    · obtain ⟨hpos, hsmall⟩ := hrange.mp htaken
      have hcast : (UInt32.ofNat (readDigits 0 value)).toUInt16.toNat =
          readDigits 0 value % 2 ^ 32 := by
        rw [UInt32.toNat_toUInt16, hnumber]
        exact Nat.mod_eq_of_lt (Nat.lt_succ_of_le hsmall)
      rw [Option.some_inj, ← UInt16.toNat_inj, hcast, eq_comm]
      exact (and_iff_right hpos).symm
    · have hlarge : ¬(0 < readDigits 0 value % 2 ^ 32 ∧ port.toNat = readDigits 0 value % 2 ^ 32) :=
        fun h => htaken (hrange.mpr ⟨h.1, by omega⟩)
      simpa using hlarge
  · rw [portDigits_none hdigits]
    exact iff_of_false (Option.some_ne_none _).symm fun h => hdigits h.1

/-! ## The settings that are taken -/

theorem lastTaken_concat (name : Bytes) (takes : Bytes → Bool) (kvs : List (Bytes × Bytes))
    (key value : Bytes) :
    lastTaken name takes (kvs ++ [(key, value)]) =
      if key = name ∧ takes value = true then some value else lastTaken name takes kvs := by
  unfold lastTaken
  rw [List.filter_append]
  split_ifs with h
  · rw [List.filter_cons_of_pos (by simpa using h), List.filter_nil, List.getLast?_concat]
    rfl
  · rw [List.filter_cons_of_neg (by simpa using h), List.filter_nil, List.append_nil]

theorem configHandler_eq (config : DiscordConfig) (ctx : ConfigContext) (key value : Bytes) :
    configHandler (config, ctx) key value =
      ((⟨if key = uuidKey ∧ fitsText 37 value then storeText config.uuid value else config.uuid,
          if key = aesKeyKey ∧ fitsText 65 value then storeText config.aesKeyHex value
          else config.aesKeyHex,
          if key = serverHostKey ∧ fitsText 256 value then storeText config.serverHost value
          else config.serverHost,
          if key = serverPortKey then (parsePort value).getD config.serverPort
          else config.serverPort, config.loaded⟩,
        ⟨ctx.hasUuid || (key = uuidKey && fitsText 37 value),
          ctx.hasKey || (key = aesKeyKey && fitsText 65 value),
          ctx.hasHost || (key = serverHostKey && fitsText 256 value),
          ctx.hasPort || (key = serverPortKey && (parsePort value).isSome)⟩), true) := by
  have huk : uuidKey ≠ aesKeyKey := by decide
  have huh : uuidKey ≠ serverHostKey := by decide
  have hup : uuidKey ≠ serverPortKey := by decide
  have hkh : aesKeyKey ≠ serverHostKey := by decide
  have hkp : aesKeyKey ≠ serverPortKey := by decide
  have hhp : serverHostKey ≠ serverPortKey := by decide
  unfold configHandler
  by_cases h1 : key = uuidKey
  · subst h1
    cases hfits : fitsText 37 value <;> simp [huk, huh, hup]
  by_cases h2 : key = aesKeyKey
  · subst h2
    cases hfits : fitsText 65 value <;> simp [h1, hkh, hkp]
  by_cases h3 : key = serverHostKey
  · subst h3
    cases hfits : fitsText 256 value <;> simp [h1, h2, hhp]
  by_cases h4 : key = serverPortKey
  · subst h4
    cases hport : parsePort value <;> simp [h1, h2, h3]
  · simp [h1, h2, h3, h4]

/-! ## After some settings -/

theorem storeText_eq (buffer value : Bytes) :
    storeText buffer value = value ++ 0 :: buffer.drop (value.length + 1) := by
  rw [storeText, splice, List.take_zero, Nat.zero_add, List.length_append, List.length_singleton]
  simp

theorem length_storeText {buffer value : Bytes} (h : fitsText buffer.length value = true) :
    (storeText buffer value).length = buffer.length := by
  rw [fitsText, Bool.and_eq_true, decide_eq_true_eq, decide_eq_true_eq] at h
  rw [storeText_eq, List.length_append, List.length_cons, List.length_drop]
  omega

/-- What the variables say of the settings that were handed over. -/
structure Taken (kvs : List (Bytes × Bytes)) (config : DiscordConfig) (ctx : ConfigContext) :
    Prop where
  hasUuid : ctx.hasUuid = (uuidOf kvs).isSome
  hasKey : ctx.hasKey = (aesKeyOf kvs).isSome
  hasHost : ctx.hasHost = (hostOf kvs).isSome
  hasPort : ctx.hasPort = (portOf kvs).isSome
  size : config.aesKeyHex.length = 65
  key : ∀ key, aesKeyOf kvs = some key → ∃ rest, config.aesKeyHex = key ++ 0 :: rest
  port : ∀ port, portOf kvs = some port → parsePort port = some config.serverPort
  loaded : config.loaded = false

theorem Taken.step {kvs : List (Bytes × Bytes)} {config : DiscordConfig} {ctx : ConfigContext}
    (h : Taken kvs config ctx) (key value : Bytes) :
    Taken (kvs ++ [(key, value)]) (configHandler (config, ctx) key value).1.1
      (configHandler (config, ctx) key value).1.2 := by
  have hsome : ∀ (name : Bytes) (takes : Bytes → Bool),
      (lastTaken name takes (kvs ++ [(key, value)])).isSome =
        ((lastTaken name takes kvs).isSome || (decide (key = name) && takes value)) := by
    intro name takes
    rw [lastTaken_concat]
    by_cases htaken : key = name ∧ takes value = true
    · rw [if_pos htaken, htaken.2, decide_eq_true htaken.1]
      simp
    · have hno : (decide (key = name) && takes value) = false := by
        rw [Bool.eq_false_iff, ne_eq, Bool.and_eq_true, decide_eq_true_eq]
        exact htaken
      rw [if_neg htaken, hno, Bool.or_false]
  have hsize := h.size
  rw [configHandler_eq]
  refine ⟨?_, ?_, ?_, ?_, ?_, ?_, ?_, h.loaded⟩
  · rw [uuidOf, hsome, ← uuidOf, ← h.hasUuid]
  · rw [aesKeyOf, hsome, ← aesKeyOf, ← h.hasKey]
  · rw [hostOf, hsome, ← hostOf, ← h.hasHost]
  · rw [portOf, hsome, ← portOf, ← h.hasPort]
  · dsimp only
    split_ifs with htaken
    · exact (length_storeText (hsize ▸ htaken.2)).trans hsize
    · exact hsize
  · intro k hk
    rw [aesKeyOf, lastTaken_concat] at hk
    dsimp only
    split_ifs at hk ⊢ with htaken
    · obtain rfl := Option.some.inj hk
      exact ⟨_, storeText_eq _ _⟩
    · exact h.key k hk
  · intro port hport
    rw [portOf, lastTaken_concat] at hport
    dsimp only
    by_cases hname : key = serverPortKey
    · rw [if_pos hname]
      by_cases htakes : (parsePort value).isSome = true
      · rw [if_pos ⟨hname, htakes⟩] at hport
        obtain rfl := Option.some.inj hport
        obtain ⟨n, hn⟩ := Option.isSome_iff_exists.mp htakes
        rw [hn]
        rfl
      · rw [if_neg fun h => htakes h.2] at hport
        rw [Option.not_isSome_iff_eq_none.mp htakes, Option.getD_none]
        exact h.port port hport
    · rw [if_neg fun h => hname h.1] at hport
      rw [if_neg hname]
      exact h.port port hport

theorem taken_reset {config : DiscordConfig} (hsize : config.aesKeyHex.length = 65) :
    Taken [] (resetConfig config) ⟨false, false, false, false⟩ where
  hasUuid := rfl
  hasKey := rfl
  hasHost := rfl
  hasPort := rfl
  size := (List.length_set ..).trans hsize
  key := fun key hkey => absurd hkey (Option.some_ne_none key).symm
  port := fun port hport => absurd hport (Option.some_ne_none port).symm
  loaded := rfl

/-- The settings that the reader hands over. -/
def readSettings (file : Bytes) : List (Bytes × Bytes) :=
  (strtok 0x0A (file.take 255)).filterMap keyValue

theorem configHandler_continues (s : DiscordConfig × ConfigContext) (key value : Bytes) :
    (configHandler s key value).2 = true := by
  rw [show s = (s.1, s.2) from rfl, configHandler_eq]

theorem taken_parse {config : DiscordConfig} (hsize : config.aesKeyHex.length = 65)
    (file : Bytes) :
    let r := configReaderParse configHandler (resetConfig config, ⟨false, false, false, false⟩) file
    Taken (readSettings file) r.1 r.2 := by
  have hread : (strtok 0x0A (file.take 255)).filterMap keyValue = readSettings file := rfl
  intro r
  rw [show r = _ from handleLines_eq configHandler_continues _ _, hread]
  induction readSettings file using List.reverseRecOn with
  | nil => exact taken_reset hsize
  | append_singleton kvs kv ih =>
    rw [List.foldl_append]
    exact ih.step kv.1 kv.2

/-! ## The key -/

theorem strtoulHex_pair {c d : UInt8} (hc : (hexValue? c).isSome = true)
    (hd : (hexValue? d).isSome = true) : strtoulHex (str [c, d]) =
      UInt32.ofNat (16 * (hexValue? c).getD 0 + (hexValue? d).getD 0) := by
  have hstr : str [c, d] = [c, d] := by
    rw [str_cons, if_neg (hexValue?_spec c hc).1, str_cons, if_neg (hexValue?_spec d hd).1, str_nil]
  have hdigits : ∀ x ∈ [c, d], (hexValue? x).isSome = true := by
    rintro x (- | ⟨-, - | ⟨-, hx⟩⟩)
    · exact hc
    · exact hd
    · cases hx
  rw [hstr, strtoulHex_eq hdigits, readHex_cons hc, readHex_cons hd, Nat.mul_zero, Nat.zero_add]
  rfl

theorem decodeAesKey_eq {key : Bytes} (h : IsHexKey key) (rest : Bytes) :
    decodeAesKey (key ++ 0 :: rest) = keyBytes key := by
  obtain ⟨hlen, hdigits⟩ := h
  apply List.map_congr_left
  intro i hi
  have hi := List.mem_range.mp hi
  have hget : ∀ j < 64, (key ++ 0 :: rest).getD j 0 = key.getD j 0 ∧
      (hexValue? (key.getD j 0)).isSome = true := by
    intro j hj
    have hj : j < key.length := hlen ▸ hj
    rw [List.getD_eq_getElem?_getD, List.getD_eq_getElem?_getD, List.getElem?_append_left hj,
      List.getElem?_eq_getElem hj]
    exact ⟨rfl, hdigits _ (List.getElem_mem hj)⟩
  obtain ⟨hlow, hlow'⟩ := hget (i * 2) (by omega)
  obtain ⟨hhigh, hhigh'⟩ := hget (i * 2 + 1) (by omega)
  obtain ⟨-, -, -, -, -, -, hc⟩ := hexValue?_spec _ hlow'
  obtain ⟨-, -, -, -, -, -, hd⟩ := hexValue?_spec _ hhigh'
  rw [hlow, hhigh, strtoulHex_pair hlow' hhigh', ← UInt8.toNat_inj, UInt32.toNat_toUInt8,
    UInt32.toNat_ofNat', UInt8.toNat_ofNat']
  omega

/-! ## The configuration is loaded -/

theorem mem_of_mem_splitOn {α : Type*} [BEq α] {sep c : α} {text line : List α}
    (hline : line ∈ text.splitOn sep) (hc : c ∈ line) : c ∈ text := by
  induction text generalizing line with
  | nil =>
    rw [List.mem_singleton.mp hline] at hc
    exact hc
  | cons x text ih =>
    rw [List.splitOn_cons_eq_if_modifyHead] at hline
    split_ifs at hline
    · rcases List.mem_cons.mp hline with rfl | hline
      · cases hc
      · exact List.mem_cons_of_mem _ (ih hline hc)
    · obtain ⟨first, rest, hsplit⟩ := List.exists_cons_of_ne_nil (List.splitOn_ne_nil sep text)
      rw [hsplit] at hline ih
      rcases List.mem_cons.mp hline with rfl | hline
      · rcases List.mem_cons.mp hc with rfl | hc
        · exact List.mem_cons_self
        · exact List.mem_cons_of_mem _ (ih List.mem_cons_self hc)
      · exact List.mem_cons_of_mem _ (ih (List.mem_cons_of_mem _ hline) hc)

theorem ne_zero_of_mem_readSettings {file key value : Bytes}
    (h : (key, value) ∈ readSettings file) {c : UInt8} (hc : c ∈ value) : c ≠ 0 := by
  obtain ⟨line, hline, hkv⟩ := List.mem_filterMap.mp h
  obtain ⟨hhead, heq⟩ := not_or.mp fun hnone =>
    Option.some_ne_none _ (hkv.symm.trans ((keyValue_eq_none_iff line).mpr hnone))
  rw [keyValue_eq_some hhead (not_not.mp heq), Option.some_inj, Prod.mk.injEq] at hkv
  rw [← hkv.2] at hc
  have hmem : c ∈ line := (List.dropWhile_suffix _).subset
    (List.mem_of_mem_tail ((List.rdropWhile_prefix _ _).subset hc))
  exact ne_zero_of_mem_str (mem_of_mem_splitOn (List.mem_filter.mp hline).1 hmem)

theorem mem_of_lastTaken {name value : Bytes} {takes : Bytes → Bool} {kvs : List (Bytes × Bytes)}
    (h : lastTaken name takes kvs = some value) :
    (name, value) ∈ kvs ∧ takes value = true := by
  obtain ⟨⟨key, value⟩, hlast, rfl⟩ := Option.map_eq_some_iff.mp h
  obtain ⟨hmem, htaken⟩ := List.mem_filter.mp (List.mem_of_getLast? hlast)
  rw [Bool.and_eq_true, decide_eq_true_eq] at htaken
  obtain ⟨rfl, htakes⟩ := htaken
  exact ⟨hmem, htakes⟩

/-- The settings that a configuration needs. -/
def Loadable (kvs : List (Bytes × Bytes)) : Prop :=
  (uuidOf kvs).isSome = true ∧ (aesKeyOf kvs).isSome = true ∧ (hostOf kvs).isSome = true ∧
    (portOf kvs).isSome = true

/-- A loaded configuration has the key and the port that are written in the file: sixty-four
hexadecimal digits, and a number that is a port. -/
def LoadsWritten (config : DiscordConfig) (file : Bytes) : Prop :=
  (discordConfigLoad config (some file)).loaded = true →
    ∃ key port n, aesKeyOf (settings file) = some key ∧ IsHexKey key ∧
      portOf (settings file) = some port ∧ IsNumeral port n ∧ 1 ≤ n ∧ n ≤ 65535 ∧
      str (discordConfigLoad config (some file)).aesKeyHex = key ∧
      decodeAesKey (discordConfigLoad config (some file)).aesKeyHex = keyBytes key ∧
      (discordConfigLoad config (some file)).serverPort.toNat = n

theorem discordConfigLoad_spec {config : DiscordConfig} (hsize : config.aesKeyHex.length = 65)
    (file : Bytes) :
    ((discordConfigLoad config (some file)).loaded = true ↔ Loadable (readSettings file)) ∧
      (∀ key, aesKeyOf (readSettings file) = some key →
        ∃ rest, (discordConfigLoad config (some file)).aesKeyHex = key ++ 0 :: rest) ∧
      ∀ port, portOf (readSettings file) = some port →
        parsePort port = some (discordConfigLoad config (some file)).serverPort := by
  have htaken := taken_parse hsize file
  rw [discordConfigLoad]
  dsimp only at htaken ⊢
  generalize configReaderParse configHandler (resetConfig config, ⟨false, false, false, false⟩)
    file = r at htaken ⊢
  have hloadable : (r.2.hasUuid = true ∧ r.2.hasKey = true ∧ r.2.hasHost = true ∧
      r.2.hasPort = true) ↔ Loadable (readSettings file) := by
    rw [htaken.hasUuid, htaken.hasKey, htaken.hasHost, htaken.hasPort]
    exact Iff.rfl
  split_ifs with hall
  · exact ⟨iff_of_true rfl (hloadable.mp hall), htaken.key, htaken.port⟩
  · refine ⟨iff_of_false (fun hloaded => ?_) (hall ∘ hloadable.mpr), htaken.key, htaken.port⟩
    exact Bool.false_ne_true (htaken.loaded.symm.trans hloaded)

/-- When the key and the port that are loaded are right: where the first 255 bytes of the file have
the key of the file, it has sixty-four digits, and the numeral of the port is below `2 ^ 32` and
reads the same in these bytes. -/
theorem loadsWritten_iff (config : DiscordConfig) (hsize : config.aesKeyHex.length = 65)
    (file : Bytes) :
    LoadsWritten config file ↔ (Loadable (readSettings file) →
      ∃ key port read, aesKeyOf (settings file) = some key ∧
        aesKeyOf (readSettings file) = some key ∧ IsHexKey key ∧
        portOf (settings file) = some port ∧ portOf (readSettings file) = some read ∧
        readDigits 0 read % 2 ^ 32 = readDigits 0 port) := by
  obtain ⟨hloaded, hkey, hport⟩ := discordConfigLoad_spec hsize file
  unfold LoadsWritten
  rw [hloaded]
  apply forall_congr'
  intro hloadable
  obtain ⟨-, hsomeKey, -, hsomePort⟩ := hloadable
  obtain ⟨k, hk⟩ := Option.isSome_iff_exists.mp hsomeKey
  obtain ⟨read, hread⟩ := Option.isSome_iff_exists.mp hsomePort
  obtain ⟨rest, hbuffer⟩ := hkey k hk
  obtain ⟨hdigits, hpos, hnumber⟩ := (parsePort_eq_some_iff _ _).mp (hport read hread)
  have hstr : str (discordConfigLoad config (some file)).aesKeyHex = k := by
    rw [hbuffer]
    exact str_append_zero (fun c hc => ne_zero_of_mem_readSettings (mem_of_lastTaken hk).1 hc) rest
  have hlt := (discordConfigLoad config (some file)).serverPort.toNat_lt
  constructor
  · rintro ⟨key, port, n, hfile, hhex, hfilePort, ⟨-, -, hn⟩, -, -, hsame, -, hsamePort⟩
    have hkk : k = key := hstr.symm.trans hsame
    refine ⟨key, port, read, hfile, hkk ▸ hk, hhex, hfilePort, hread, ?_⟩
    rw [hn, ← hsamePort, hnumber]
  · rintro ⟨key, port, read', hfile, hk', hhex, hfilePort, hread', hsame⟩
    obtain rfl := Option.some.inj (hk.symm.trans hk')
    obtain rfl := Option.some.inj (hread.symm.trans hread')
    have htakes := (mem_of_lastTaken hfilePort).2
    obtain ⟨p, hp⟩ := Option.isSome_iff_exists.mp htakes
    obtain ⟨hportDigits, -, -⟩ := (parsePort_eq_some_iff _ _).mp hp
    refine ⟨k, port, readDigits 0 port, hfile, hhex, hfilePort, ⟨?_, hportDigits, rfl⟩, ?_, ?_,
      hstr, ?_, hnumber.trans hsame⟩
    · rintro rfl
      rw [hsame] at hpos
      exact absurd hpos (by decide)
    · rw [← hsame]
      exact hpos
    · rw [← hsame, ← hnumber]
      exact Nat.le_of_lt_succ hlt
    · rw [hbuffer]
      exact decodeAesKey_eq hhex rest

/-- The variables before the first file is loaded. -/
def bootConfig : DiscordConfig :=
  ⟨List.replicate 37 0, List.replicate 65 0, List.replicate 256 0, 0, false⟩

def goodConfig : Bytes :=
  ascii "UUID=u\nSERVER_HOST=h\nSERVER_PORT=80\nAES_KEY=".toList ++ List.replicate 64 0x61

theorem loadsWritten_iff_good : LoadsWritten bootConfig goodConfig :=
  (loadsWritten_iff bootConfig (by decide) goodConfig).mpr fun _ =>
    ⟨List.replicate 64 0x61, ascii "80".toList, ascii "80".toList, by decide +kernel,
      by decide +kernel, by unfold IsHexKey; decide +kernel, by decide +kernel, by decide +kernel,
      by decide +kernel⟩

/-- A key of two letters, and the port `2 ^ 32 + 80`. -/
def badConfig : Bytes :=
  ascii "UUID=u\nSERVER_HOST=h\nSERVER_PORT=4294967376\nAES_KEY=zz".toList

theorem bad_config_is_loaded :
    (discordConfigLoad bootConfig (some badConfig)).loaded = true ∧
      (discordConfigLoad bootConfig (some badConfig)).serverPort = 80 ∧
      ¬LoadsWritten bootConfig badConfig := by
  have hloaded : (discordConfigLoad bootConfig (some badConfig)).loaded = true := by
    decide +kernel
  have hkey : aesKeyOf (settings badConfig) = some (ascii "zz".toList) := by decide +kernel
  refine ⟨hloaded, by decide +kernel, fun hwritten => ?_⟩
  obtain ⟨key, -, -, hfile, ⟨hlen, -⟩, -⟩ := hwritten hloaded
  rw [← Option.some.inj (hkey.symm.trans hfile)] at hlen
  exact absurd hlen (by decide)

end Presence3DS.Discord
