import Presence3DS.Lib.Decimal

/-! The requests of the session protocol (`discord_session.c`) and what the client makes of the
text that it receives in return. No text stands for a request that fails in the network. -/

namespace Presence3DS.Discord
open CString Decimal

def ascii (s : List Char) : Bytes := s.map Char.toUInt8

/-! ## Fields of a reply -/

/-- A key starts the text or follows a separator. -/
def isBoundary : Option UInt8 → Bool
  | none => true
  | some c => c = 0x26 || c = 0x0A || c = 0x0D

def fieldValue (p : Bytes) (maxLen : Nat) : Option Bytes :=
  let value := (p.takeWhile fun c => c ≠ 0x26 && c ≠ 0x0D && c ≠ 0x0A).take (maxLen - 1)
  if value = [] then none else some value

/-- The search of `discord_parse_field` from `p`, which `prev` stands before. -/
def parseFrom (field : Bytes) (maxLen : Nat) : Nat → Option UInt8 → Bytes → Option Bytes
  | 0, _, _ => none
  | fuel + 1, prev, p =>
    if field.isPrefixOf p then
      let rest := p.drop field.length
      if isBoundary prev && rest.head? = some 0x3D then fieldValue rest.tail maxLen
      else parseFrom field maxLen fuel field.getLast? rest
    else
      match p with
      | [] => none
      | c :: p => parseFrom field maxLen fuel (some c) p

def discordParseField (resp field : Bytes) (maxLen : Nat) : Option Bytes :=
  parseFrom field maxLen ((str resp).length + 1) none (str resp)

theorem parseField_first {field value : Bytes} {maxLen : Nat} (hfield : ∀ c ∈ field, c ≠ 0)
    (hvalue : ∀ c ∈ value, c ≠ 0 ∧ c ≠ 0x26 ∧ c ≠ 0x0D ∧ c ≠ 0x0A) (hne : value ≠ [])
    (hlen : value.length < maxLen) :
    discordParseField (field ++ 0x3D :: value) field maxLen = some value := by
  have hstr : str (field ++ 0x3D :: value) = field ++ 0x3D :: value := by
    apply List.takeWhile_eq_self_iff.mpr
    intro c hc
    rw [decide_eq_true_eq]
    rcases List.mem_append.mp hc with hc | hc
    · exact hfield c hc
    · rcases List.mem_cons.mp hc with rfl | hc
      · decide
      · exact (hvalue c hc).1
  have hwhole : value.takeWhile (fun c => c ≠ 0x26 && c ≠ 0x0D && c ≠ 0x0A) = value := by
    apply List.takeWhile_eq_self_iff.mpr
    intro c hc
    obtain ⟨-, h26, h0d, h0a⟩ := hvalue c hc
    simp [h26, h0d, h0a]
  have hprefix : field.isPrefixOf (field ++ 0x3D :: value) = true :=
    List.isPrefixOf_iff_prefix.mpr (List.prefix_append field _)
  rw [discordParseField, hstr]
  unfold parseFrom
  rw [if_pos hprefix, List.drop_left]
  simp only [isBoundary, List.head?_cons, decide_true, Bool.and_self, if_true, List.tail_cons,
    fieldValue, hwhole]
  rw [List.take_of_length_le (by omega), if_neg hne]

def nonceField : Bytes := ascii ['n', 'o', 'n', 'c', 'e']
def successField : Bytes := ascii ['s', 'u', 'c', 'c', 'e', 's', 's']
def codeField : Bytes := ascii ['c', 'o', 'd', 'e']
def sigHexField : Bytes := ascii ['s', 'i', 'g', '_', 'h', 'e', 'x']
def errorField : Bytes := ascii ['e', 'r', 'r', 'o', 'r']
def trueText : Bytes := ascii ['t', 'r', 'u', 'e']
def sessionExpired : Bytes :=
  ascii ['s', 'e', 's', 's', 'i', 'o', 'n', '_', 'e', 'x', 'p', 'i', 'r', 'e', 'd']

def customRpcExtraSize : Nat := 1024

/-! ## Requests -/

structure Session where
  counter : UInt64
  activeSession : Bool
deriving DecidableEq

/-- The hash of an activity, and the hex string that authenticates a message and a counter with
the key of the configuration. -/
structure Crypto where
  sha256 : Bytes → Bytes
  buildAuth : Bytes → UInt64 → Bytes

/-- What the server sees of a request: its message, and the counter it is authenticated with. -/
inductive Request where
  | login
  | verify (counter : UInt64)
  | script (titleid : UInt64) (counter : UInt64)
  | activity (data : Bytes) (counter : UInt64)
  | heartbeat (counter : UInt64)
  | logout (sleep : Bool) (counter : UInt64)
deriving DecidableEq

/-- 0 is success, 1 a refusal by the server, 2 a network error. -/
def discordLogin (s : Session) (resp : Option Bytes) : Int × Session :=
  match resp with
  | none => (2, s)
  | some resp =>
    match discordParseField resp nonceField 32 with
    | none => (1, s)
    | some nonce => (0, { s with counter := strtoull nonce })

def isSuccess (resp : Bytes) : Bool := discordParseField resp successField 8 = some trueText

def discordVerify (s : Session) (resp : Option Bytes) : Bool × Session :=
  match resp with
  | none => (false, s)
  | some resp =>
    if isSuccess resp then (true, ⟨s.counter + 1, true⟩) else (false, s)

def hexDigit (n : Nat) : UInt8 := UInt8.ofNat (if n < 10 then 0x30 + n else 0x37 + n)

/-- `"%016llX"` -/
def hex16 (x : UInt64) : Bytes :=
  (List.range 16).map fun i => hexDigit (x.toNat / 16 ^ (15 - i) % 16)

/-- The signed message, as far as its buffer of 512 bytes holds it. -/
def checkMsg (titleid : UInt64) (code : Bytes) : Bytes :=
  (ascii ['t', 'i', 't', 'l', 'e', 'i', 'd', '='] ++ hex16 titleid ++
    ascii ['&', 'c', 'o', 'd', 'e', '='] ++ code).take 511

/-- 0 is success; the code matters to the activity string only. -/
def discordGetScript (crypto : Crypto) (s : Session) (titleid : UInt64) (resp : Option Bytes) :
    Int × Session :=
  match resp with
  | none => (2, s)
  | some resp =>
    match discordParseField resp codeField customRpcExtraSize,
        discordParseField resp sigHexField 97 with
    | some code, some sigHex =>
      if sigHex.length ≠ 96 ∨ sigHex ≠ crypto.buildAuth (checkMsg titleid code) s.counter then
        (1, s)
      else (0, { s with counter := s.counter + 1 })
    | _, _ => (-1, s)

/-- What both requests of the activity make of the reply: 0 is success, 1 an expired session, 2 a
network error. -/
def activityReply (s : Session) (resp : Option Bytes) : Int × Session :=
  match resp with
  | none => (2, s)
  | some resp =>
    if isSuccess resp then (0, { s with counter := s.counter + 1 })
    else
      match discordParseField resp errorField 64 with
      | none => (-1, s)
      | some err => if strstr err sessionExpired then (1, s) else (-1, s)

def discordActivityUpdate (s : Session) (resp : Option Bytes) : Int × Session :=
  activityReply s resp

def discordActivityHeartbeat (s : Session) (resp : Option Bytes) : Int × Session :=
  activityReply s resp

/-! ## What a reply does to the counter -/

theorem login_cases (s : Session) (resp : Option Bytes) :
    (∃ ret, ret ≠ 0 ∧ discordLogin s resp = (ret, s)) ∨
      ∃ text nonce, resp = some text ∧ discordParseField text nonceField 32 = some nonce ∧
        discordLogin s resp = (0, { s with counter := strtoull nonce }) := by
  unfold discordLogin
  cases resp with
  | none => exact .inl ⟨2, by decide, rfl⟩
  | some text =>
    cases hnonce : discordParseField text nonceField 32 with
    | none => exact .inl ⟨1, by decide, by simp only [hnonce]⟩
    | some nonce => exact .inr ⟨text, nonce, rfl, hnonce, by simp only [hnonce]⟩

theorem verify_cases (s : Session) (resp : Option Bytes) :
    discordVerify s resp = (false, s) ∨
      ∃ text, resp = some text ∧ isSuccess text = true ∧
        discordVerify s resp = (true, ⟨s.counter + 1, true⟩) := by
  unfold discordVerify
  cases resp with
  | none => exact .inl rfl
  | some text =>
    by_cases hsuccess : isSuccess text = true
    · exact .inr ⟨text, rfl, hsuccess, if_pos hsuccess⟩
    · exact .inl (if_neg hsuccess)

theorem script_cases (crypto : Crypto) (s : Session) (titleid : UInt64) (resp : Option Bytes) :
    (∃ ret, ret ≠ 0 ∧ discordGetScript crypto s titleid resp = (ret, s)) ∨
      ∃ text code sigHex, resp = some text ∧
        discordParseField text codeField customRpcExtraSize = some code ∧
        discordParseField text sigHexField 97 = some sigHex ∧
        discordGetScript crypto s titleid resp = (0, { s with counter := s.counter + 1 }) := by
  unfold discordGetScript
  cases resp with
  | none => exact .inl ⟨2, by decide, rfl⟩
  | some text =>
    cases hcode : discordParseField text codeField customRpcExtraSize with
    | none => exact .inl ⟨-1, by decide, by simp only [hcode]⟩
    | some code =>
      cases hsig : discordParseField text sigHexField 97 with
      | none => exact .inl ⟨-1, by decide, by simp only [hcode, hsig]⟩
      | some sigHex =>
        by_cases hvalid : sigHex.length ≠ 96 ∨
            sigHex ≠ crypto.buildAuth (checkMsg titleid code) s.counter
        · exact .inl ⟨1, by decide, by simp only [hcode, hsig, if_pos hvalid]⟩
        · exact .inr ⟨text, code, sigHex, rfl, hcode, hsig,
            by simp only [hcode, hsig, if_neg hvalid]⟩

theorem activity_cases (s : Session) (resp : Option Bytes) :
    (∃ ret, ret ≠ 0 ∧ activityReply s resp = (ret, s)) ∨
      ∃ text, resp = some text ∧ isSuccess text = true ∧
        activityReply s resp = (0, { s with counter := s.counter + 1 }) := by
  unfold activityReply
  cases resp with
  | none => exact .inl ⟨2, by decide, rfl⟩
  | some text =>
    by_cases hsuccess : isSuccess text = true
    · exact .inr ⟨text, rfl, hsuccess, if_pos hsuccess⟩
    · left
      simp only [if_neg hsuccess]
      cases discordParseField text errorField 64 with
      | none => exact ⟨-1, by decide, rfl⟩
      | some err =>
        by_cases hexpired : strstr err sessionExpired = true
        · exact ⟨1, by decide, if_pos hexpired⟩
        · exact ⟨-1, by decide, if_neg hexpired⟩

end Presence3DS.Discord
