import Presence3DS.Discord.Aes256Cbc
import Presence3DS.Discord.Session
import Presence3DS.Discord.Sha256

/-! The script of a title (`discord_get_script`, `fetch_script_for_title`), from the bytes of the
reply to the text that the memory configuration is loaded from. -/

namespace Presence3DS.Discord
open CString

/-! ## Authentication -/

/-- `bytes_to_hex` -/
def bytesToHex (bytes : Bytes) : Bytes :=
  let hexChar (n : UInt8) : UInt8 := if n < 10 then 0x30 + n else 0x57 + n
  bytes.flatMap fun (b : UInt8) => [hexChar (b >>> 4), hexChar (b &&& 0x0F)]

def discordPackCounter (counter : UInt64) : Bytes :=
  (List.range 8).map fun i => (counter >>> UInt64.ofNat (56 - 8 * i)).toUInt8

def sha256Text (msg : Bytes) : Bytes :=
  Sha256.sha256Final (Sha256.sha256Update (Sha256.sha256Init fun _ => 0) msg)

/-- `build_auth`; the initialisation vector is zero. -/
def buildAuth (key : ℕ → UInt8) (msg : Bytes) (counter : UInt64) : Bytes :=
  bytesToHex (Aes256Cbc.aes256CbcEncrypt key (fun _ => 0)
    (discordPackCounter counter ++ sha256Text msg)).1

def crypto (key : ℕ → UInt8) : Crypto := ⟨sha256Text, buildAuth key⟩

/-! ## The reply -/

/-- The reply as `discord_http_post` leaves it in the buffer of 512 bytes. -/
def received (bytes : Bytes) : Option Bytes := if bytes = [] then none else some (bytes.take 511)

/-- `code_out`, from a buffer of 1024 bytes -/
def codeOut (reply : Option Bytes) : Option Bytes :=
  reply.bind fun text => discordParseField text codeField customRpcExtraSize

/-- The value that a field has in a text, however long it is. -/
def wholeField (text field : Bytes) : Option Bytes :=
  discordParseField text field (text.length + 2)

def signatureField (reply : Option Bytes) : Option Bytes :=
  reply.bind fun text => wholeField text sigHexField

/-- What the server signs. -/
def signedText (titleid : UInt64) (code : Bytes) : Bytes :=
  ascii ['t', 'i', 't', 'l', 'e', 'i', 'd', '='] ++ hex16 titleid ++
    ascii ['&', 'c', 'o', 'd', 'e', '='] ++ code

/-! ## The memory configuration -/

/-- The variables of `memory_config.c`; of the entries, the text that they were parsed from. -/
structure CustomRpc where
  tried : Bool
  loadedTitleId : UInt64
  entries : Option Bytes
deriving DecidableEq

def customRpcClearConfig : CustomRpc := ⟨false, 0, none⟩

def customRpcTriedForTitle (rpc : CustomRpc) (titleId : UInt64) : Bool :=
  rpc.tried && rpc.loadedTitleId = titleId

def customRpcMarkTried (rpc : CustomRpc) (titleId : UInt64) : CustomRpc :=
  { rpc with tried := true, loadedTitleId := titleId }

/-- The text is copied to a buffer of 1024 bytes before it is parsed. -/
def customRpcLoadConfigFromString (titleId : UInt64) (data : Bytes) : CustomRpc :=
  ⟨true, titleId, some ((str data).take (customRpcExtraSize - 1))⟩

def fetchScriptForTitle (crypto : Crypto) (s : Session) (rpc : CustomRpc) (tid : UInt64)
    (reply : Option Bytes) : Int × Session × CustomRpc :=
  if tid = 0 then (0, s, customRpcClearConfig)
  else if customRpcTriedForTitle rpc tid then (0, s, rpc)
  else
    let (scriptRes, s) := discordGetScript crypto s tid reply
    if scriptRes ≠ 0 then (-1, s, customRpcClearConfig)
    else
      let code := (codeOut reply).getD []
      if code.head? = some 0x2D ∨ code = [] then (0, s, customRpcMarkTried customRpcClearConfig tid)
      else (0, s, customRpcLoadConfigFromString tid code)

/-! ## Fields have their places -/

/-- The bytes that end a value. -/
def isSeparator (c : UInt8) : Bool := isBoundary (some c)

theorem fieldValue_eq_some {p v : Bytes} {maxLen : ℕ} (h : fieldValue p maxLen = some v) :
    v <+: p ∧ v.length ≤ maxLen - 1 ∧ ∀ c ∈ v, isSeparator c = false := by
  unfold fieldValue at h
  simp only at h
  split_ifs at h with hempty
  obtain rfl := Option.some.inj h
  refine ⟨(List.take_prefix _ _).trans (List.takeWhile_prefix _), ?_, ?_⟩
  · rw [List.length_take]
    exact Nat.min_le_left _ _
  · intro c hc
    have hc := List.mem_takeWhile_imp (List.mem_of_mem_take hc)
    simp only [Bool.and_eq_true, decide_eq_true_eq] at hc
    simp only [isSeparator, isBoundary, hc.1.1, hc.1.2, hc.2, decide_false, Bool.or_self]

theorem fieldValue_take {p : Bytes} {maxLen room : ℕ} (hmax : 2 ≤ maxLen)
    (hroom : p.length + 2 ≤ room) :
    fieldValue p maxLen = (fieldValue p room).map (List.take (maxLen - 1)) := by
  unfold fieldValue
  have hlength := (List.takeWhile_prefix (l := p)
    (fun c => c ≠ 0x26 && c ≠ 0x0D && c ≠ 0x0A)).length_le
  generalize p.takeWhile (fun c => c ≠ 0x26 && c ≠ 0x0D && c ≠ 0x0A) = value at hlength ⊢
  simp only [List.take_of_length_le (show value.length ≤ room - 1 by omega), List.take_eq_nil_iff]
  by_cases hempty : value = []
  · rw [if_pos (Or.inr hempty), if_pos hempty]
    rfl
  · rw [if_neg (by rintro (h | h) <;> [omega; exact hempty h]), if_neg hempty]
    rfl

theorem parseFrom_take {field : Bytes} {maxLen room fuel : ℕ} {prev : Option UInt8} {p : Bytes}
    (hmax : 2 ≤ maxLen) (hroom : p.length + 2 ≤ room) :
    parseFrom field maxLen fuel prev p =
      (parseFrom field room fuel prev p).map (List.take (maxLen - 1)) := by
  induction fuel generalizing prev p with
  | zero => rfl
  | succ fuel ih =>
    have hdrop : (p.drop field.length).length + 2 ≤ room := by
      rw [List.length_drop]
      omega
    unfold parseFrom
    by_cases hprefix : field.isPrefixOf p = true
    · simp only [if_pos hprefix]
      split_ifs
      · refine fieldValue_take hmax ?_
        rw [List.length_tail]
        omega
      · exact ih hdrop
    · simp only [if_neg hprefix]
      cases p with
      | nil => rfl
      | cons c p =>
        rw [List.length_cons] at hroom
        exact ih (by omega)

theorem length_str_le (s : Bytes) : (str s).length ≤ s.length :=
  (List.takeWhile_prefix _).length_le

theorem parseField_take (text field : Bytes) {maxLen : ℕ} (hmax : 2 ≤ maxLen) :
    discordParseField text field maxLen =
      (wholeField text field).map (List.take (maxLen - 1)) := by
  have hlength := length_str_le text
  exact parseFrom_take hmax (by omega)

theorem parseFrom_place {field v p : Bytes} {maxLen fuel : ℕ} {prev : Option UInt8}
    (hfield : field ≠ []) (h : parseFrom field maxLen fuel prev p = some v) :
    ∃ i, (field ++ 0x3D :: v) <+: p.drop i ∧ (∀ c ∈ v, isSeparator c = false) ∧
      isBoundary (if i = 0 then prev else p[i - 1]?) = true := by
  induction fuel generalizing prev p with
  | zero => exact absurd h (Option.some_ne_none v).symm
  | succ fuel ih =>
    unfold parseFrom at h
    by_cases hprefix : field.isPrefixOf p = true
    · simp only [if_pos hprefix] at h
      obtain ⟨rest, rfl⟩ := List.isPrefixOf_iff_prefix.mp hprefix
      rw [List.drop_left] at h
      have hpos : 0 < field.length := List.length_pos_iff.mpr hfield
      split_ifs at h with hfound
      · rw [Bool.and_eq_true, decide_eq_true_eq] at hfound
        obtain ⟨hvalue, -, hfree⟩ := fieldValue_eq_some h
        cases rest with
        | nil => exact absurd hfound.2 (Option.some_ne_none _).symm
        | cons c rest =>
          obtain rfl := Option.some.inj hfound.2
          exact ⟨0, (List.prefix_append_right_inj field).mpr ((List.prefix_cons_inj _).mpr hvalue),
            hfree, hfound.1⟩
      · obtain ⟨i, hplace, hfree, hboundary⟩ := ih h
        refine ⟨field.length + i, ?_, hfree, ?_⟩
        · rwa [← List.drop_drop, List.drop_left]
        · rw [if_neg (by omega)]
          by_cases hi : i = 0
          · subst hi
            rw [if_pos rfl, List.getLast?_eq_getElem?] at hboundary
            rwa [Nat.add_zero, List.getElem?_append_left (by omega)]
          · rw [if_neg hi] at hboundary
            rwa [List.getElem?_append_right (by omega),
              show field.length + i - 1 - field.length = i - 1 by omega]
    · simp only [if_neg hprefix] at h
      cases p with
      | nil => exact absurd h (Option.some_ne_none v).symm
      | cons c p =>
        obtain ⟨i, hplace, hfree, hboundary⟩ := ih h
        refine ⟨i + 1, hplace, hfree, ?_⟩
        rw [if_neg (Nat.succ_ne_zero i), Nat.add_sub_cancel]
        cases i with
        | zero => exact hboundary
        | succ i => exact hboundary

theorem parseField_place {text field v : Bytes} {maxLen : ℕ} (hfield : field ≠ [])
    (h : discordParseField text field maxLen = some v) :
    ∃ i, (field ++ 0x3D :: v) <+: (str text).drop i ∧ (∀ c ∈ v, isSeparator c = false) ∧
      (i = 0 ∨ isBoundary (str text)[i - 1]? = true) := by
  obtain ⟨i, hplace, hfree, hboundary⟩ := parseFrom_place hfield h
  refine ⟨i, hplace, hfree, ?_⟩
  by_cases hi : i = 0
  · exact .inl hi
  · rw [if_neg hi] at hboundary
    exact .inr hboundary

end Presence3DS.Discord
