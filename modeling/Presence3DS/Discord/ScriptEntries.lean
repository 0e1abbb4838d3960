import Presence3DS.Discord.CustomRpc

/-! The entries that `parse_entries` takes from a script, and those that its comment describes:
eight hexadecimal digits and the letter of a type, between commas and whitespace. -/

namespace Presence3DS.Discord
open CString Decimal

/-- The tokens of a script. -/
def scriptTokens (s : Bytes) : List Bytes := ((str s).splitOnP isDelimiter).filter (· ≠ [])

/-- The loop of `parse_entries`, with the places of the tokens that are stored. -/
def storeTokens (stored : List (ℕ × AddressEntry)) : ℕ → List Bytes → List (ℕ × AddressEntry)
  | _, [] => stored
  | i, token :: tokens =>
    if stored.length < customRpcMaxEntries then
      match parseEntry token with
      | some e => storeTokens (stored ++ [(i, e)]) (i + 1) tokens
      | none => storeTokens stored (i + 1) tokens
    else stored

def storedTokens (s : Bytes) : List (ℕ × AddressEntry) := storeTokens [] 0 (scriptTokens s)

/-- The entries that are read of tokens, with the places of the tokens. -/
def placedEntries (read : Bytes → Option AddressEntry) : ℕ → List Bytes → List (ℕ × AddressEntry)
  | _, [] => []
  | i, token :: tokens =>
    match read token with
    | some e => (i, e) :: placedEntries read (i + 1) tokens
    | none => placedEntries read (i + 1) tokens

/-! ## Hexadecimal numbers -/

theorem hexValue?_spec (c : UInt8) (h : (hexValue? c).isSome = true) :
    c ≠ 0 ∧ c ≠ 0x2D ∧ c ≠ 0x2B ∧ c ≠ 0x78 ∧ c ≠ 0x58 ∧ isSpace c = false ∧
      (hexValue? c).getD 0 < 16 := by
  revert h
  exact forall_byte (P := fun c => (hexValue? c).isSome = true → c ≠ 0 ∧ c ≠ 0x2D ∧ c ≠ 0x2B ∧
    c ≠ 0x78 ∧ c ≠ 0x58 ∧ isSpace c = false ∧ (hexValue? c).getD 0 < 16) (by decide +kernel) c

theorem readHex_cons {c : UInt8} (h : (hexValue? c).isSome = true) (acc : ℕ) (s : Bytes) :
    readHex acc (c :: s) = readHex (16 * acc + (hexValue? c).getD 0) s := by
  obtain ⟨d, hd⟩ := Option.isSome_iff_exists.mp h
  rw [readHex, hd]
  rfl

theorem readHex_lt {s : Bytes} (h : ∀ c ∈ s, (hexValue? c).isSome = true) (acc : ℕ) :
    readHex acc s < (acc + 1) * 16 ^ s.length := by
  induction s generalizing acc with
  | nil =>
    rw [readHex, List.length_nil, Nat.pow_zero, Nat.mul_one]
    exact Nat.lt_succ_self acc
  | cons c s ih =>
    obtain ⟨hc, hs⟩ := List.forall_mem_cons.mp h
    obtain ⟨-, -, -, -, -, -, hlt⟩ := hexValue?_spec c hc
    rw [readHex_cons hc, List.length_cons, Nat.pow_succ', ← Nat.mul_assoc]
    exact (ih hs _).trans_le (Nat.mul_le_mul_right _ (by omega))

theorem strtoulHex_eq {s : Bytes} (h : ∀ c ∈ s, (hexValue? c).isSome = true) :
    strtoulHex s = UInt32.ofNat (readHex 0 s) := by
  have hskip : s.dropWhile isSpace = s := by
    cases s with
    | nil => rfl
    | cons c s =>
      obtain ⟨-, -, -, -, -, hspace, -⟩ := hexValue?_spec c (h c List.mem_cons_self)
      rw [List.dropWhile_cons_of_neg (by rw [hspace]; exact Bool.false_ne_true)]
  have hfirst : s.head? ≠ some 0x2D ∧ s.head? ≠ some 0x2B := by
    constructor
    · exact fun hhead => (hexValue?_spec 0x2D (h _ (List.mem_of_head? hhead))).2.1 rfl
    · exact fun hhead => (hexValue?_spec 0x2B (h _ (List.mem_of_head? hhead))).2.2.1 rfl
  have hsecond : s[1]? ≠ some 0x78 ∧ s[1]? ≠ some 0x58 := by
    constructor
    · exact fun hget => (hexValue?_spec 0x78 (h _ (List.mem_of_getElem? hget))).2.2.2.1 rfl
    · exact fun hget => (hexValue?_spec 0x58 (h _ (List.mem_of_getElem? hget))).2.2.2.2.1 rfl
  unfold strtoulHex
  simp only [hskip, hfirst, hsecond, or_self, and_false, if_false]

/-! ## Entries as documented -/

/-- Eight hexadecimal digits of an address, which is not zero, and the letter of a type. -/
structure IsEntry (token : Bytes) (e : AddressEntry) : Prop where
  length : token.length = 9
  digits : ∀ c ∈ token.take 8, (hexValue? c).isSome = true
  type : parseType (token.getD 8 0) = some e.type
  address : e.address.toNat = readHex 0 (token.take 8)
  ne_zero : e.address ≠ 0

/-- The entry that a token is. -/
def documentedEntry (token : Bytes) : Option AddressEntry :=
  if token.length = 9 ∧ (token.take 8).all (fun c => (hexValue? c).isSome) = true ∧
      readHex 0 (token.take 8) ≠ 0 then
    (parseType (token.getD 8 0)).map fun type => ⟨UInt32.ofNat (readHex 0 (token.take 8)), type⟩
  else none

theorem parseEntry_eq_some_iff (token : Bytes) (e : AddressEntry) :
    parseEntry token = some e ↔ token.length = 9 ∧ parseType (token.getD 8 0) = some e.type ∧
      strtoulHex (token.take 8) = e.address ∧ e.address ≠ 0 := by
  unfold parseEntry
  by_cases hlen : token.length = 9
  · rw [if_neg (not_not.mpr hlen), and_iff_right hlen, Option.bind_eq_some_iff]
    constructor
    · rintro ⟨type, htype, h⟩
      dsimp only at h
      split_ifs at h with hzero
      obtain rfl := Option.some.inj h
      exact ⟨htype, rfl, hzero⟩
    · rintro ⟨htype, haddress, hzero⟩
      refine ⟨e.type, htype, ?_⟩
      rw [haddress, if_neg hzero]
  · rw [if_pos hlen]
    exact iff_of_false (Option.some_ne_none e).symm fun h => hlen h.1

theorem toNat_ofNat_readHex {digits : Bytes} (h : ∀ c ∈ digits, (hexValue? c).isSome = true)
    (hlen : digits.length = 8) :
    (UInt32.ofNat (readHex 0 digits)).toNat = readHex 0 digits := by
  have hlt := readHex_lt h 0
  rw [hlen] at hlt
  exact UInt32.toNat_ofNat_of_lt' (hlt.trans_eq (by decide))

theorem documentedEntry_eq_some_iff (token : Bytes) (e : AddressEntry) :
    documentedEntry token = some e ↔ IsEntry token e := by
  unfold documentedEntry
  constructor
  · intro h
    split_ifs at h with hall
    obtain ⟨hlen, hdigits, hzero⟩ := hall
    rw [List.all_eq_true] at hdigits
    obtain ⟨type, htype, rfl⟩ := Option.map_eq_some_iff.mp h
    have hnumber := toNat_ofNat_readHex hdigits (List.length_take_of_le (by omega))
    refine ⟨hlen, hdigits, htype, hnumber, fun h => hzero ?_⟩
    rw [← hnumber, show UInt32.ofNat (readHex 0 (token.take 8)) = 0 from h]
    rfl
  · rintro ⟨hlen, hdigits, htype, haddress, hzero⟩
    have hne : readHex 0 (token.take 8) ≠ 0 := by
      rw [← haddress]
      exact fun h => hzero (UInt32.toNat_inj.mp h)
    rw [if_pos ⟨hlen, List.all_eq_true.mpr hdigits, hne⟩, htype, ← haddress, UInt32.ofNat_toNat]
    rfl

theorem parseEntry_eq_of_digits {token : Bytes}
    (hdigits : ∀ c ∈ token.take 8, (hexValue? c).isSome = true) :
    parseEntry token = documentedEntry token := by
  apply Option.ext
  intro e
  rw [documentedEntry_eq_some_iff, parseEntry_eq_some_iff, strtoulHex_eq hdigits]
  constructor
  · rintro ⟨hlen, htype, haddress, hzero⟩
    refine ⟨hlen, hdigits, htype, ?_, hzero⟩
    rw [← haddress, toNat_ofNat_readHex hdigits (List.length_take_of_le (by omega))]
  · rintro ⟨hlen, -, htype, haddress, hzero⟩
    refine ⟨hlen, htype, ?_, hzero⟩
    rw [← haddress, UInt32.ofNat_toNat]

theorem documentedEntry_eq_none {token : Bytes}
    (h : ¬∀ c ∈ token.take 8, (hexValue? c).isSome = true) : documentedEntry token = none :=
  if_neg fun hall => h (List.all_eq_true.mp hall.2.1)

/-- A token that `strtoul` reads an address from, though it does not begin with eight digits. -/
def isLoose (token : Bytes) : Bool :=
  token.length = 9 && (parseType (token.getD 8 0)).isSome &&
    !((token.take 8).all fun c => (hexValue? c).isSome) && strtoulHex (token.take 8) != 0

theorem documentedEntry_eq {token : Bytes} (h : isLoose token = false) :
    documentedEntry token = parseEntry token := by
  by_cases hdigits : ∀ c ∈ token.take 8, (hexValue? c).isSome = true
  · exact (parseEntry_eq_of_digits hdigits).symm
  · rw [documentedEntry_eq_none hdigits]
    cases hentry : parseEntry token with
    | none => rfl
    | some e =>
      have hall : ((token.take 8).all fun c => (hexValue? c).isSome) = false :=
        Bool.eq_false_iff.mpr fun hall => hdigits (List.all_eq_true.mp hall)
      obtain ⟨hlen, htype, haddress, hzero⟩ := (parseEntry_eq_some_iff token e).mp hentry
      rw [isLoose, hlen, htype, haddress, hall] at h
      simp [hzero] at h

theorem of_isLoose {token : Bytes} (h : isLoose token = true) :
    documentedEntry token = none ∧ ∃ e, parseEntry token = some e := by
  simp only [isLoose, Bool.and_eq_true, decide_eq_true_eq, Bool.not_eq_true', bne_iff_ne,
    ne_eq] at h
  obtain ⟨⟨⟨hlen, htype⟩, hdigits⟩, hzero⟩ := h
  obtain ⟨type, htype⟩ := Option.isSome_iff_exists.mp htype
  refine ⟨documentedEntry_eq_none fun hall => ?_, ⟨_, type⟩,
    (parseEntry_eq_some_iff _ _).mpr ⟨hlen, htype, rfl, hzero⟩⟩
  exact Bool.false_ne_true (hdigits.symm.trans (List.all_eq_true.mpr hall))

/-! ## What is stored -/

section Placed
variable {read : Bytes → Option AddressEntry} {token : Bytes} {e : AddressEntry} {i : ℕ}

theorem placedEntries_some (h : read token = some e) (tokens : List Bytes) :
    placedEntries read i (token :: tokens) = (i, e) :: placedEntries read (i + 1) tokens := by
  rw [placedEntries, h]

theorem placedEntries_none (h : read token = none) (tokens : List Bytes) :
    placedEntries read i (token :: tokens) = placedEntries read (i + 1) tokens := by
  rw [placedEntries, h]

theorem le_of_mem_placedEntries {tokens : List Bytes} {j : ℕ}
    (h : (j, e) ∈ placedEntries read i tokens) : i ≤ j := by
  induction tokens generalizing i with
  | nil => cases h
  | cons token tokens ih =>
    cases hread : read token with
    | none =>
      rw [placedEntries_none hread] at h
      exact Nat.le_of_succ_le (ih h)
    | some e' =>
      rw [placedEntries_some hread] at h
      rcases List.mem_cons.mp h with heq | h
      · exact (congrArg Prod.fst heq).ge
      · exact Nat.le_of_succ_le (ih h)

end Placed

theorem storeTokens_eq (stored : List (ℕ × AddressEntry)) (i : ℕ) (tokens : List Bytes) :
    storeTokens stored i tokens =
      stored ++ (placedEntries parseEntry i tokens).take (customRpcMaxEntries - stored.length) := by
  induction tokens generalizing stored i with
  | nil => rw [storeTokens, placedEntries, List.take_nil, List.append_nil]
  | cons token tokens ih =>
    rw [storeTokens]
    split_ifs with hroom
    · cases hentry : parseEntry token with
      | none =>
        dsimp only
        rw [ih, placedEntries_none hentry]
      | some e =>
        have hone : customRpcMaxEntries - stored.length =
            customRpcMaxEntries - (stored ++ [(i, e)]).length + 1 := by
          rw [List.length_append, List.length_singleton]
          omega
        dsimp only
        rw [ih, hone, placedEntries_some hentry, List.take_succ_cons, ← List.append_cons]
    · rw [Nat.sub_eq_zero_of_le (Nat.not_lt.mp hroom), List.take_zero, List.append_nil]

/-- The tokens that the comment describes, with their places. -/
def documentedTokens (s : Bytes) : List (ℕ × AddressEntry) :=
  placedEntries documentedEntry 0 (scriptTokens s)

/-- Every loose token stands behind so many entries. -/
def LooseBehind (count : ℕ) (tokens : List Bytes) : Prop :=
  ∀ j token, tokens[j]? = some token → isLoose token = true →
    count ≤ (tokens.take j).countP fun token => (documentedEntry token).isSome

theorem looseBehind_zero (tokens : List Bytes) : LooseBehind 0 tokens :=
  fun _ _ _ _ => Nat.zero_le _

theorem looseBehind_cons {count : ℕ} {token : Bytes} (tokens : List Bytes) :
    LooseBehind count (token :: tokens) ↔ (isLoose token = true → count = 0) ∧
      LooseBehind (count - if (documentedEntry token).isSome then 1 else 0) tokens := by
  constructor
  · intro h
    refine ⟨fun hloose => Nat.le_zero.mp (h 0 token rfl hloose), fun j t ht hloose => ?_⟩
    have hcount := h (j + 1) t ht hloose
    rw [List.take_succ_cons, List.countP_cons] at hcount
    exact Nat.sub_le_iff_le_add.mpr hcount
  · rintro ⟨hfirst, hrest⟩ j t ht hloose
    cases j with
    | zero =>
      obtain rfl := Option.some.inj ht
      exact (hfirst hloose).le
    | succ j =>
      rw [List.take_succ_cons, List.countP_cons]
      exact Nat.sub_le_iff_le_add.mp (hrest j t ht hloose)

theorem take_placedEntries_iff (tokens : List Bytes) (i count : ℕ) :
    (placedEntries parseEntry i tokens).take count =
      (placedEntries documentedEntry i tokens).take count ↔ LooseBehind count tokens := by
  induction tokens generalizing i count with
  | nil => exact iff_of_true rfl fun _ _ ht => absurd ht.symm (Option.some_ne_none _)
  | cons token tokens ih =>
    cases count with
    | zero => exact iff_of_true rfl (looseBehind_zero _)
    | succ count =>
      rw [looseBehind_cons]
      cases hloose : isLoose token with
      | true =>
        -- the place of the token is stored, and is none of the documented ones
        obtain ⟨hnone, e, hsome⟩ := of_isLoose hloose
        refine iff_of_false (fun heq => ?_) fun h => Nat.succ_ne_zero _ (h.1 rfl)
        rw [placedEntries_some hsome, placedEntries_none hnone, List.take_succ_cons] at heq
        have hmem : (i, e) ∈ placedEntries documentedEntry (i + 1) tokens :=
          List.mem_of_mem_take (heq ▸ List.mem_cons_self)
        exact absurd (le_of_mem_placedEntries hmem) (Nat.not_succ_le_self i)
      | false =>
        have hsame := documentedEntry_eq hloose
        rw [and_iff_right fun h => absurd h Bool.false_ne_true]
        cases hentry : parseEntry token with
        | none =>
          rw [hentry] at hsame
          rw [placedEntries_none hentry, placedEntries_none hsame, hsame]
          exact ih (i + 1) (count + 1)
        | some e =>
          rw [hentry] at hsame
          rw [placedEntries_some hentry, placedEntries_some hsame, hsame, List.take_succ_cons,
            List.take_succ_cons, List.cons_eq_cons, and_iff_right rfl]
          exact ih (i + 1) count

/-- The tokens that are stored are the documented ones, the first 32 of them, exactly where every
loose token stands behind as many. -/
theorem storedTokens_eq_iff (s : Bytes) :
    storedTokens s = (documentedTokens s).take customRpcMaxEntries ↔
      LooseBehind customRpcMaxEntries (scriptTokens s) := by
  rw [storedTokens, storeTokens_eq]
  exact take_placedEntries_iff _ _ _

/-- A prefix and six digits are stored as an address. -/
theorem prefixed_token_is_stored :
    storedTokens (ascii "0x001234w".toList) = [(0, ⟨0x1234, .w⟩)] ∧
      documentedTokens (ascii "0x001234w".toList) = [] := by
  decide +kernel

end Presence3DS.Discord
