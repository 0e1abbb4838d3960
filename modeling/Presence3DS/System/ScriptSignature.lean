import Presence3DS.Discord.Script

/-! What a reply has to be signed with for its script to be accepted and loaded. -/

namespace Presence3DS.Discord
open CString

/-- A script is accepted, and its code loaded, only under the signature of that very code. -/
structure Authentic (key : ℕ → UInt8) (s : Session) (titleid : UInt64) (reply : Option Bytes) :
    Prop where
  failure : (discordGetScript (crypto key) s titleid reply).1 ≠ 0 →
    (discordGetScript (crypto key) s titleid reply).2 = s
  success : (discordGetScript (crypto key) s titleid reply).1 = 0 →
    (discordGetScript (crypto key) s titleid reply).2 = { s with counter := s.counter + 1 } ∧
    ∃ code, codeOut reply = some code ∧
      signatureField reply = some (buildAuth key (signedText titleid code) s.counter)
  loaded : ∀ rpc code, customRpcTriedForTitle rpc titleid = false →
    (fetchScriptForTitle (crypto key) s rpc titleid reply).2.2.entries = some code →
    (discordGetScript (crypto key) s titleid reply).1 = 0 ∧ codeOut reply = some code

/-- The signature of the code is there, and more bytes behind it in the same field. -/
def SignedWithMore (key : ℕ → UInt8) (s : Session) (titleid : UInt64) (reply : Option Bytes) :
    Prop :=
  ∃ code sig, codeOut reply = some code ∧ signatureField reply = some sig ∧ 96 < sig.length ∧
    sig.take 96 = buildAuth key (signedText titleid code) s.counter

/-! ## The fields share no byte -/

theorem place_lt {text seg : Bytes} {i j : ℕ} (hplace : seg <+: text.drop i)
    (hfree : ∀ c ∈ seg, isSeparator c = false) (hboundary : isBoundary text[j - 1]? = true)
    (hij : i < j) : i + seg.length < j := by
  by_contra hle
  obtain ⟨k, hk⟩ := Nat.exists_eq_add_of_le (show i ≤ j - 1 by omega)
  have hseg : k < seg.length := by omega
  obtain ⟨rest, hrest⟩ := hplace
  rw [hk, ← List.getElem?_drop, ← hrest, List.getElem?_append_left hseg,
    List.getElem?_eq_getElem hseg] at hboundary
  have hseparator := hfree _ (List.getElem_mem hseg)
  rw [isSeparator, hboundary] at hseparator
  exact absurd hseparator (by decide)

theorem fields_disjoint {text code sig : Bytes} {n m : ℕ}
    (hcode : discordParseField text codeField n = some code)
    (hsig : discordParseField text sigHexField m = some sig) :
    code.length + sig.length + 13 ≤ text.length := by
  obtain ⟨i, hi, hicode, hib⟩ := parseField_place (by decide) hcode
  obtain ⟨j, hj, hjsig, hjb⟩ := parseField_place (by decide) hsig
  have hlength := length_str_le text
  have hilen := hi.length_le
  have hjlen := hj.length_le
  have hfree : ∀ (field v : Bytes), (field ++ [0x3D]).any isSeparator = false →
      (∀ c ∈ v, isSeparator c = false) → ∀ c ∈ field ++ 0x3D :: v, isSeparator c = false := by
    intro field v hfield hv c hc
    rw [List.append_cons, List.mem_append] at hc
    exact hc.elim (fun hmem => Bool.eq_false_iff.mpr (List.any_eq_false.mp hfield c hmem)) (hv c)
  have hcodelen : codeField.length = 4 := by decide
  have hsiglen : sigHexField.length = 7 := by decide
  simp only [List.length_append, List.length_cons, List.length_drop, hcodelen] at hilen
  simp only [List.length_append, List.length_cons, List.length_drop, hsiglen] at hjlen
  rcases lt_trichotomy i j with hlt | rfl | hgt
  · have hend := place_lt hi (hfree _ _ (by decide) hicode) (hjb.resolve_left (by omega)) hlt
    simp only [List.length_append, List.length_cons, hcodelen] at hend
    omega
  · obtain ⟨_, hcodeEq⟩ := hi
    obtain ⟨_, hsigEq⟩ := hj
    rw [← hsigEq] at hcodeEq
    have hhead : some (0x63 : UInt8) = some 0x73 := congrArg List.head? hcodeEq
    exact absurd hhead (by decide)
  · have hend := place_lt hj (hfree _ _ (by decide) hjsig) (hib.resolve_left (by omega)) hgt
    simp only [List.length_append, List.length_cons, hsiglen] at hend
    omega

/-! ## The signature -/

theorem length_buildAuth (key : ℕ → UInt8) (msg : Bytes) (counter : UInt64) :
    (buildAuth key msg counter).length = 96 := by
  have hsha : (sha256Text msg).length = 32 := rfl
  have hinput : (discordPackCounter counter ++ sha256Text msg).length = 40 := by
    rw [List.length_append, hsha]
    rfl
  have hencrypted : (Aes256Cbc.aes256CbcEncrypt key (fun _ => 0)
      (discordPackCounter counter ++ sha256Text msg)).1.length = 48 := by
    rw [Aes256Cbc.aes256CbcEncrypt_eq key _ (by rw [hinput]; decide)]
    show ((Rijndael.aes256 key).encryptMessage _ _).length = 48
    rw [Cbc.BlockCipher.length_encryptMessage]
    show (Cbc.pad 16 _).length = 48
    rw [Cbc.length_pad_eq (by decide), hinput]
  have hhex : ∀ bytes : Bytes, (bytesToHex bytes).length = 2 * bytes.length := by
    intro bytes
    unfold bytesToHex
    induction bytes with
    | nil => rfl
    | cons b bytes ih => rw [List.flatMap_cons, List.length_append, ih, List.length_cons,
        List.length_cons, List.length_cons, List.length_nil, Nat.mul_succ, Nat.add_comm]
  rw [buildAuth, hhex, hencrypted]

theorem checkMsg_eq {titleid : UInt64} {code : Bytes} (h : code.length ≤ 481) :
    checkMsg titleid code = signedText titleid code := by
  apply List.take_of_length_le
  simp only [List.length_append, hex16, ascii, List.length_map, List.length_range,
    List.length_cons, List.length_nil]
  omega

variable {key : ℕ → UInt8} {s : Session} {titleid : UInt64} {reply : Option Bytes}

theorem length_received {bytes text : Bytes} (h : received bytes = some text) :
    text.length ≤ 511 := by
  unfold received at h
  split_ifs at h
  obtain rfl := Option.some.inj h
  rw [List.length_take]
  exact Nat.min_le_left _ _

theorem getScript_eq_zero_iff {text : Bytes} (htext : text.length ≤ 511) :
    (discordGetScript (crypto key) s titleid (some text)).1 = 0 ↔
      ∃ code sig, codeOut (some text) = some code ∧ signatureField (some text) = some sig ∧
        sig.take 96 = buildAuth key (signedText titleid code) s.counter := by
  have hfield : discordParseField text sigHexField 97 =
      (signatureField (some text)).map (List.take 96) :=
    parseField_take text sigHexField (by decide)
  have hout : codeOut (some text) = discordParseField text codeField customRpcExtraSize := rfl
  unfold discordGetScript
  rw [hout]
  simp only
  cases hcode : discordParseField text codeField customRpcExtraSize with
  | none => simp
  | some code =>
    cases hwhole : signatureField (some text) with
    | none => simp [hfield, hwhole]
    | some sig =>
      rw [hwhole, Option.map_some] at hfield
      have hroom := fields_disjoint hcode hfield
      simp only [hfield]
      constructor
      · intro hzero
        split_ifs at hzero with hinvalid
        · exact absurd hzero (show (1 : Int) ≠ 0 by decide)
        · rw [not_or, not_not, not_not] at hinvalid
          rw [checkMsg_eq (by omega)] at hinvalid
          exact ⟨code, sig, rfl, rfl, hinvalid.2⟩
      · rintro ⟨code', sig', hcode', hsig', hvalid⟩
        obtain rfl := Option.some.inj hcode'
        obtain rfl := Option.some.inj hsig'
        have hlength : (sig.take 96).length = 96 := by rw [hvalid, length_buildAuth]
        rw [if_neg]
        rw [not_or, not_not, not_not, checkMsg_eq (by omega)]
        exact ⟨hlength, hvalid⟩

theorem codeOut_str {code : Bytes} (h : codeOut reply = some code) :
    (str code).take (customRpcExtraSize - 1) = code := by
  obtain ⟨text, rfl, hcode⟩ := Option.bind_eq_some_iff.mp h
  obtain ⟨i, hplace, -, -⟩ := parseField_place (by decide) hcode
  have hlength : code.length ≤ customRpcExtraSize - 1 := by
    rw [parseField_take text codeField (by decide)] at hcode
    obtain ⟨whole, -, rfl⟩ := Option.map_eq_some_iff.mp hcode
    rw [List.length_take]
    exact Nat.min_le_left _ _
  have hstr : str code = code := by
    apply List.takeWhile_eq_self_iff.mpr
    intro c hc
    rw [decide_eq_true_eq]
    apply ne_zero_of_mem_str (s := text)
    apply List.mem_of_mem_drop (i := i)
    exact hplace.mem (List.mem_append_right _ (List.mem_cons_of_mem _ hc))
  rw [hstr, List.take_of_length_le hlength]

theorem fetchScript_entries {rpc : CustomRpc} {code : Bytes}
    (hnew : customRpcTriedForTitle rpc titleid = false)
    (h : (fetchScriptForTitle (crypto key) s rpc titleid reply).2.2.entries = some code)
    (hzero : (discordGetScript (crypto key) s titleid reply).1 = 0 →
      ∃ out, codeOut reply = some out) :
    (discordGetScript (crypto key) s titleid reply).1 = 0 ∧ codeOut reply = some code := by
  unfold fetchScriptForTitle at h
  by_cases htitle : titleid = 0
  · rw [if_pos htitle] at h
    exact absurd h (Option.some_ne_none code).symm
  rw [if_neg htitle, if_neg (Bool.eq_false_iff.mp hnew)] at h
  by_cases hres : (discordGetScript (crypto key) s titleid reply).1 = 0
  · obtain ⟨out, hout⟩ := hzero hres
    simp only [hres, ne_eq, not_true_eq_false, if_false, hout, Option.getD_some] at h
    split_ifs at h
    · exact absurd h (Option.some_ne_none code).symm
    · obtain rfl := Option.some.inj h
      exact ⟨hres, by rw [codeOut_str hout]; exact hout⟩
  · simp only [ne_eq, hres, not_false_eq_true, if_true] at h
    exact absurd h (Option.some_ne_none code).symm

theorem SignedWithMore.accepted {bytes : Bytes}
    (hmore : SignedWithMore key s titleid (received bytes)) :
    (discordGetScript (crypto key) s titleid (received bytes)).1 = 0 := by
  obtain ⟨code, sig, hcode, hsig, -, hvalid⟩ := hmore
  obtain ⟨text, hreply, -⟩ := Option.bind_eq_some_iff.mp hcode
  rw [hreply] at hcode hsig ⊢
  exact (getScript_eq_zero_iff (length_received hreply)).mpr ⟨code, sig, hcode, hsig, hvalid⟩

theorem SignedWithMore.not_authentic {bytes : Bytes}
    (hmore : SignedWithMore key s titleid (received bytes)) :
    ¬Authentic key s titleid (received bytes) := by
  intro hauthentic
  obtain ⟨-, code', -, hsig'⟩ := hauthentic.success hmore.accepted
  obtain ⟨code, sig, -, hsig, hlong, -⟩ := hmore
  rw [hsig] at hsig'
  rw [Option.some.inj hsig', length_buildAuth] at hlong
  exact absurd hlong (by decide)

/-- A reply is dealt with as the protocol means it, unless its signature field is a right signature
with more bytes behind it: the length is checked after the buffer has cut the field. -/
theorem authentic_iff (key : ℕ → UInt8) (s : Session) (titleid : UInt64) (bytes : Bytes) :
    Authentic key s titleid (received bytes) ↔
      ¬SignedWithMore key s titleid (received bytes) := by
  cases hreply : received bytes with
  | none =>
    refine iff_of_true ⟨fun _ => rfl, fun h => absurd h (show (2 : Int) ≠ 0 by decide), ?_⟩ ?_
    · intro rpc code hnew hloaded
      exact fetchScript_entries hnew hloaded fun h => absurd h (show (2 : Int) ≠ 0 by decide)
    · rintro ⟨code, sig, hcode, -⟩
      exact absurd hcode (Option.some_ne_none code).symm
  | some text =>
    have hzero := @getScript_eq_zero_iff key s titleid text (length_received hreply)
    constructor
    · rw [← hreply]
      exact fun hauthentic hmore => hmore.not_authentic hauthentic
    · intro hmore
      have hcases := script_cases (crypto key) s titleid (some text)
      refine ⟨?_, ?_, ?_⟩
      · intro hne
        rcases hcases with ⟨ret, -, h⟩ | ⟨_, _, _, -, -, -, h⟩
        · rw [h]
        · rw [h] at hne
          exact absurd rfl hne
      · intro h
        obtain ⟨code, sig, hcode, hsig, hvalid⟩ := hzero.mp h
        have hlength : sig.length ≤ 96 := by
          by_contra hlong
          exact hmore ⟨code, sig, hcode, hsig, Nat.lt_of_not_le hlong, hvalid⟩
        rw [List.take_of_length_le hlength] at hvalid
        refine ⟨?_, code, hcode, hvalid ▸ hsig⟩
        rcases hcases with ⟨ret, hret, hout⟩ | ⟨_, _, _, -, -, -, hout⟩
        · rw [hout] at h
          exact absurd h hret
        · rw [hout]
      · intro rpc code hnew hloaded
        apply fetchScript_entries hnew hloaded
        intro h
        obtain ⟨code, -, hcode, -⟩ := hzero.mp h
        exact ⟨code, hcode⟩

/-- The signature of the code `a` for the first request, and one more byte. -/
def overlongSignature : Bytes :=
  ascii "5eb52724ec0de7d0b3ab2bee100f37eb96f8e2278a4fe3dd".toList ++
    ascii "211eeac378df5c1892fbbbd5efe83d826767e5f2feced59c0".toList

def overlongReply : Bytes :=
  ascii "code=a&sig_hex=".toList ++ overlongSignature

/-- The counter 0 and the digest of the text that is signed for the code `a`. -/
def signedInput : Bytes :=
  [0, 0, 0, 0, 0, 0, 0, 0, 221, 237, 197, 5, 232, 19, 20, 192, 92, 89, 230, 22, 143, 24, 138, 151,
    110, 126, 118, 2, 8, 169, 136, 69, 93, 229, 201, 153, 204, 27, 39, 42]

theorem signedInput_eq : discordPackCounter 0 ++
    sha256Text (signedText 0x0004000000055D00 (ascii ['a'])) = signedInput := by decide +kernel

def signatureBlock (i : ℕ) : Bytes :=
  [[94, 181, 39, 36, 236, 13, 231, 208, 179, 171, 43, 238, 16, 15, 55, 235],
    [150, 248, 226, 39, 138, 79, 227, 221, 33, 30, 234, 195, 120, 223, 92, 24],
    [146, 251, 187, 213, 239, 232, 61, 130, 103, 103, 229, 242, 254, 206, 213, 156]].getD i []

/-- A step of the encryption of that input. -/
def signStep : Aes256Cbc.CbcState → ℕ → Aes256Cbc.CbcState :=
  Aes256Cbc.cbcStep (Aes256Cbc.keyExpansion fun i => UInt8.ofNat i) signedInput 8

theorem cbcStep_of_chain {rk : List (BitVec 32)} {input block : Bytes} {padval : UInt8}
    {c : Aes256Cbc.CbcState} {i : ℕ} (h : (Aes256Cbc.cbcStep rk input padval c i).chain = block) :
    Aes256Cbc.cbcStep rk input padval c i = ⟨block, c.output ++ block⟩ := by
  rw [← h, Aes256Cbc.cbcStep]

theorem signStep_of_chain {c : Aes256Cbc.CbcState} {i : ℕ} {block : Bytes}
    (h : (signStep c i).chain = block) : signStep c i = ⟨block, c.output ++ block⟩ :=
  cbcStep_of_chain h

theorem signStep_chains : (signStep ⟨List.replicate 16 0, []⟩ 0).chain = signatureBlock 0 ∧
    (signStep ⟨signatureBlock 0, [] ++ signatureBlock 0⟩ 1).chain = signatureBlock 1 ∧
    (signStep ⟨signatureBlock 1, [] ++ signatureBlock 0 ++ signatureBlock 1⟩ 2).chain =
      signatureBlock 2 :=
  ⟨by decide +kernel, by decide +kernel, by decide +kernel⟩

theorem take_overlongSignature : overlongSignature.take 96 =
    buildAuth (fun i => UInt8.ofNat i) (signedText 0x0004000000055D00 (ascii ['a'])) 0 := by
  have hsteps : (Aes256Cbc.aes256CbcEncrypt (fun i => UInt8.ofNat i) (fun _ => 0) signedInput).1 =
      (signStep (signStep (signStep ⟨List.replicate 16 0, []⟩ 0) 1) 2).output := rfl
  obtain ⟨hfirst, hsecond, hthird⟩ := signStep_chains
  rw [buildAuth, signedInput_eq, hsteps, signStep_of_chain hfirst, signStep_of_chain hsecond,
    signStep_of_chain hthird]
  rfl

theorem overlongReply_signed : SignedWithMore (fun i => UInt8.ofNat i) ⟨0, true⟩
    0x0004000000055D00 (received overlongReply) :=
  ⟨ascii ['a'], overlongSignature, by decide, by decide, by decide, take_overlongSignature⟩

theorem overlong_signature_is_accepted :
    (discordGetScript (crypto fun i => UInt8.ofNat i) ⟨0, true⟩ 0x0004000000055D00
      (received overlongReply)).1 = 0 ∧
    ¬Authentic (fun i => UInt8.ofNat i) ⟨0, true⟩ 0x0004000000055D00 (received overlongReply) :=
  ⟨overlongReply_signed.accepted, overlongReply_signed.not_authentic⟩

end Presence3DS.Discord
