import Presence3DS.Discord.CustomRpc
import Presence3DS.Lib.Buffer

/-! The extra string as `CustomRPC_BuildExtraString` writes it into the buffer of its caller. -/

namespace Presence3DS.Discord
open Buffer CString Decimal

/-! ## The buffer -/

/-- `snprintf(out + pos, size, …)` -/
def snprintfAt (pos size : ℕ) (text : Bytes) : BufferM UInt8 Unit :=
  if size = 0 then pure () else write pos (text.take (size - 1) ++ [0])

/-- A `&` behind what is there, where there is space for it, with the new `pos`. -/
def appendSeparator (extraSize pos : ℕ) : BufferM UInt8 ℕ :=
  if 0 < pos ∧ pos + 1 < extraSize then do
    write pos [0x26]
    write (pos + 1) [0]
    pure (pos + 1)
  else pure pos

/-- The loop over `g_entries`, with `pos`. -/
def appendPairs (format : AddressEntry → Bytes) (extraSize : ℕ) :
    ℕ → List AddressEntry → BufferM UInt8 Unit
  | _, [] => pure ()
  | pos, e :: es =>
    if extraSize ≤ pos then pure ()
    else do
      let pos ← appendSeparator extraSize pos
      snprintfAt pos (extraSize - pos) (format e)
      if extraSize ≤ pos + (format e).length then pure ()
      else appendPairs format extraSize (pos + (format e).length) es

/-- `CustomRPC_BuildExtraString` -/
def writeExtraString (m : Memory) (p : MappedPage) (rpc : CustomRpc) (extraSize : ℕ) :
    BufferM UInt8 Unit := do
  write 0 [0]
  if !customRpcHasConfig rpc then pure ()
  else appendPairs (formatEntry m p) extraSize 0 rpc.addresses

/-- The buffer holds a string, with its NUL. -/
def HoldsText (extraSize : ℕ) (b out : Bytes) : Prop :=
  b.length = extraSize ∧ ∃ rest, b = out ++ 0 :: rest

theorem HoldsText.str_eq {extraSize : ℕ} {b out : Bytes} (h : HoldsText extraSize b out)
    (hout : ∀ c ∈ out, c ≠ 0) : str b = out := by
  obtain ⟨-, rest, rfl⟩ := h
  exact str_append_zero hout rest

theorem HoldsText.lt {extraSize : ℕ} {b out : Bytes} (h : HoldsText extraSize b out) :
    out.length < extraSize := by
  obtain ⟨hlen, rest, rfl⟩ := h
  rw [List.length_append, List.length_cons] at hlen
  omega

theorem HoldsText.append {extraSize : ℕ} {b out : Bytes} (h : HoldsText extraSize b out)
    {text : Bytes} (hroom : out.length + text.length < extraSize) :
    ∃ b', result (write out.length (text ++ [0])) b = (.ok (), b') ∧
      HoldsText extraSize b' (out ++ text) := by
  obtain ⟨hlen, rest, rfl⟩ := h
  have hfits : out.length + (text ++ [0]).length ≤ (out ++ 0 :: rest).length := by
    rw [hlen, List.length_append, List.length_singleton]
    exact hroom
  refine ⟨_, result_write hfits, (length_splice hfits).trans hlen,
    (0 :: rest).drop (text ++ [0]).length, ?_⟩
  rw [splice_append]
  simp

theorem appendSeparator_spec {extraSize : ℕ} {b out : Bytes} (h : HoldsText extraSize b out) :
    ∃ out' b', (out' = if 0 < out.length ∧ out.length + 1 < extraSize then out ++ [0x26] else out) ∧
      result (appendSeparator extraSize out.length) b = (.ok out'.length, b') ∧
        HoldsText extraSize b' out' := by
  unfold appendSeparator
  split_ifs with hroom
  · obtain ⟨hlen, rest, rfl⟩ := h
    have hfirst : out.length + [(0x26 : UInt8)].length ≤ (out ++ 0 :: rest).length := by
      rw [hlen]
      exact hroom.2.le
    have hbetween : splice (out ++ 0 :: rest) out.length [0x26] = (out ++ [0x26]) ++ rest :=
      splice_append _ _ _
    have hrest : 0 < rest.length := by
      rw [List.length_append, List.length_cons] at hlen
      omega
    obtain ⟨c, rest, rfl⟩ := List.exists_cons_of_length_pos hrest
    have hlength : (out ++ [(0x26 : UInt8)]).length = out.length + 1 := by simp
    have hsecond : out.length + 1 + [(0 : UInt8)].length ≤
        ((out ++ [0x26]) ++ c :: rest).length := by
      simp
    have hsplice : splice ((out ++ [(0x26 : UInt8)]) ++ c :: rest) (out.length + 1) [0] =
        (out ++ [0x26]) ++ 0 :: rest := by
      rw [← hlength, splice_append]
      simp
    rw [result_bind_ok (result_write hfirst), hbetween, result_bind_ok (result_write hsecond),
      hsplice]
    refine ⟨_, _, rfl, by rw [hlength, result_pure], ?_, rest, rfl⟩
    rw [← hlen]
    simp
  · exact ⟨out, b, rfl, rfl, h⟩

theorem snprintfAt_spec {extraSize : ℕ} {b out : Bytes} (h : HoldsText extraSize b out)
    (text : Bytes) : ∃ b', result (snprintfAt out.length (extraSize - out.length) text) b =
      (.ok (), b') ∧ HoldsText extraSize b' (out ++ text.take (extraSize - out.length - 1)) := by
  have hlt := h.lt
  rw [snprintfAt, if_neg (by omega)]
  apply h.append
  rw [List.length_take]
  omega

/-- For a buffer of any size: no byte outside of it is written, and what it holds at the end is the
text of the entries that it has room for. -/
theorem appendPairs_spec {format : AddressEntry → Bytes} {extraSize : ℕ}
    (es : List AddressEntry) {b out : Bytes} (h : HoldsText extraSize b out) :
    ∃ b', result (appendPairs format extraSize out.length es) b = (.ok (), b') ∧
      HoldsText extraSize b' (appendEntries format extraSize out es) := by
  induction es generalizing b out with
  | nil => exact ⟨b, rfl, h⟩
  | cons e es ih =>
    have hin : ¬extraSize ≤ out.length := Nat.not_le.mpr h.lt
    obtain ⟨out₁, b₁, hout₁, hrun₁, hholds₁⟩ := appendSeparator_spec h
    obtain ⟨b₂, hrun₂, hholds₂⟩ := snprintfAt_spec hholds₁ (format e)
    rw [appendPairs, appendEntries, if_neg hin, if_neg hin, result_bind_ok hrun₁,
      result_bind_ok hrun₂, ← hout₁]
    dsimp only
    split_ifs with hfull
    · exact ⟨b₂, rfl, hholds₂⟩
    · rw [List.take_of_length_le (by omega)] at hholds₂
      rw [← List.length_append]
      exact ih hholds₂

/-! ## The pairs -/

/-- Upper-case digits, so many of them, of a value. -/
structure IsHex (text : Bytes) (digits value : ℕ) : Prop where
  length : text.length = digits
  upper : ∀ c ∈ text, isDigit c = true ∨ 0x41 ≤ c ∧ c ≤ 0x46
  value : readHex 0 text = value

def AddressType.size : AddressType → ℕ
  | .b => 1
  | .h => 2
  | .w => 4

theorem AddressType.size_le (type : AddressType) : type.size ≤ 4 := by
  cases type <;> decide

/-- What the memory holds at the address of an entry. -/
def entryValue (m : Memory) (p : MappedPage) (e : AddressEntry) : ℕ :=
  match e.type with
  | .b => customRpcReadByte m p e.address
  | .h => customRpcReadHalfWord m p e.address
  | .w => customRpcReadWord m p e.address

/-- `ADDR=VALUE` -/
def IsPair (m : Memory) (p : MappedPage) (e : AddressEntry) (pair : Bytes) : Prop :=
  ∃ address value, pair = address ++ 0x3D :: value ∧ IsHex address 8 e.address.toNat ∧
    IsHex value (2 * e.type.size) (entryValue m p e)

theorem hexDigit_spec : ∀ d < 16, hexValue? (hexDigit d) = some d ∧
    (isDigit (hexDigit d) = true ∨ 0x41 ≤ hexDigit d ∧ hexDigit d ≤ 0x46) := by decide

theorem readHex_map {ds : List ℕ} (h : ∀ d ∈ ds, d < 16) (acc : ℕ) :
    readHex acc (ds.map hexDigit) = ds.foldl (fun a d => 16 * a + d) acc := by
  induction ds generalizing acc with
  | nil => rfl
  | cons d ds ih =>
    obtain ⟨hd, hds⟩ := List.forall_mem_cons.mp h
    rw [List.map_cons, readHex, (hexDigit_spec d hd).1, List.foldl_cons]
    exact ih hds _

theorem isHex_hexUpper {digits value : ℕ} (h : value < 16 ^ digits) :
    IsHex (hexUpper digits value) digits value where
  length := by rw [hexUpper, List.length_map, length_lastDigits]
  upper := by
    intro c hc
    obtain ⟨d, hd, rfl⟩ := List.mem_map.mp hc
    exact (hexDigit_spec d (lt_of_mem_lastDigits (by decide) hd)).2
  value := by
    rw [hexUpper, readHex_map fun d hd => lt_of_mem_lastDigits (by decide) hd, foldl_lastDigits,
      Nat.zero_mul, Nat.zero_add, Nat.mod_eq_of_lt h]

theorem IsHex.ne_zero {text : Bytes} {digits value : ℕ} (h : IsHex text digits value) {c : UInt8}
    (hc : c ∈ text) : c ≠ 0 := by
  rintro rfl
  rcases h.upper 0 hc with hdigit | hletter
  · cases hdigit
  · exact absurd hletter.1 (by decide)

theorem Memory.read_lt (m : Memory) (p : MappedPage) (a : UInt32) (count : ℕ) :
    m.read p a count < 16 ^ (2 * count) := by
  have hfold : ∀ is : List ℕ, is.foldr (fun i v =>
      (m.byte p (a + UInt32.ofNat i)).toNat + 256 * v) 0 < 256 ^ is.length := by
    intro is
    induction is with
    | nil => exact Nat.one_pos
    | cons i is ih =>
      have hbyte := (m.byte p (a + UInt32.ofNat i)).toNat_lt
      rw [List.foldr_cons, List.length_cons, Nat.pow_succ]
      omega
  have hrange := hfold (List.range count)
  rw [List.length_range] at hrange
  rwa [Nat.pow_mul]

theorem entryValue_lt (m : Memory) (p : MappedPage) (e : AddressEntry) :
    entryValue m p e < 16 ^ (2 * e.type.size) := by
  have hpos : ∀ digits : ℕ, 0 < 16 ^ digits := fun _ => Nat.pow_pos (by decide)
  have hwide : ∀ a count, customRpcReadWide m p a count < 16 ^ (2 * count) := by
    intro a count
    unfold customRpcReadWide
    split_ifs
    · exact hpos _
    · exact hpos _
    · exact m.read_lt p _ count
  rcases e with ⟨address, _ | _ | _⟩
  · show customRpcReadByte m p address < _
    unfold customRpcReadByte
    split_ifs
    · exact hpos _
    · exact hpos _
    · exact m.read_lt p _ 1
  · exact hwide address 2
  · exact hwide address 4

theorem isPair_formatEntry (m : Memory) (p : MappedPage) (e : AddressEntry) :
    IsPair m p e (formatEntry m p e) := by
  have haddress : IsHex (hexUpper 8 e.address.toNat) 8 e.address.toNat :=
    isHex_hexUpper e.address.toNat_lt
  have hvalue := isHex_hexUpper (entryValue_lt m p e)
  refine ⟨_, _, ?_, haddress, hvalue⟩
  rcases e with ⟨address, _ | _ | _⟩
  · rfl
  · rfl
  · rfl

theorem IsPair.length_le {m : Memory} {p : MappedPage} {e : AddressEntry} {pair : Bytes}
    (h : IsPair m p e pair) : pair.length ≤ 17 := by
  obtain ⟨address, value, rfl, haddress, hvalue⟩ := h
  have hsize := e.type.size_le
  rw [List.length_append, List.length_cons, haddress.length, hvalue.length]
  omega

theorem IsPair.plain {m : Memory} {p : MappedPage} {e : AddressEntry} {pair : Bytes}
    (h : IsPair m p e pair) : pair ≠ [] ∧ ∀ c ∈ pair, c ≠ 0 := by
  obtain ⟨address, value, rfl, haddress, hvalue⟩ := h
  refine ⟨by simp, fun c hc => ?_⟩
  rcases List.mem_append.mp hc with hc | hc
  · exact haddress.ne_zero hc
  · rcases List.mem_cons.mp hc with rfl | hc
    · decide
    · exact hvalue.ne_zero hc

theorem intercalate_cons {α : Type*} (sep x : List α) (xs : List (List α)) :
    sep.intercalate (x :: xs) = x ++ xs.flatMap fun y => sep ++ y := by
  induction xs generalizing x with
  | nil => simp [List.intercalate]
  | cons y ys ih =>
    have htail : sep.intercalate (x :: y :: ys) = x ++ (sep ++ sep.intercalate (y :: ys)) := by
      simp [List.intercalate, List.intersperse]
    rw [htail, ih, List.flatMap_cons, List.append_assoc]

theorem appendEntries_behind {format : AddressEntry → Bytes} {extraSize : ℕ}
    (hformat : ∀ e, (format e).length ≤ 17) (es : List AddressEntry) {out : Bytes}
    (hout : out ≠ []) (hroom : out.length + 18 * es.length < extraSize) :
    appendEntries format extraSize out es = out ++ es.flatMap fun e => 0x26 :: format e := by
  induction es generalizing out with
  | nil => rw [appendEntries, List.flatMap_nil, List.append_nil]
  | cons e es ih =>
    have hpos : 0 < out.length := List.length_pos_iff.mpr hout
    have he := hformat e
    rw [List.length_cons] at hroom
    have hlength : ((out ++ [0x26]) ++ format e).length = out.length + 1 + (format e).length := by
      simp only [List.length_append, List.length_singleton]
    rw [List.length_append] at hlength
    rw [appendEntries, if_neg (by omega)]
    simp only [if_pos (show 0 < out.length ∧ out.length + 1 < extraSize by omega)]
    rw [if_neg (by omega), ih (by simp [hout]) (by rw [List.length_append]; omega)]
    simp

theorem appendEntries_eq {format : AddressEntry → Bytes} {extraSize : ℕ}
    (hformat : ∀ e, format e ≠ [] ∧ (format e).length ≤ 17) {es : List AddressEntry}
    (hroom : 18 * es.length < extraSize) :
    appendEntries format extraSize [] es = [0x26].intercalate (es.map format) := by
  cases es with
  | nil => rfl
  | cons e es =>
    obtain ⟨hne, hlen⟩ := hformat e
    rw [List.length_cons] at hroom
    rw [appendEntries, if_neg (by rw [List.length_nil]; omega)]
    simp only [List.length_nil, lt_irrefl, false_and, if_false, List.nil_append]
    rw [if_neg (by omega), appendEntries_behind (fun e => (hformat e).2) es hne (by omega),
      List.map_cons, intercalate_cons, List.flatMap_map]
    simp only [List.singleton_append]

theorem length_parseEntries_le (text : Bytes) :
    (parseEntries text).length ≤ customRpcMaxEntries := List.length_take_le _ _

theorem CustomRpc.length_addresses_le (rpc : CustomRpc) :
    rpc.addresses.length ≤ customRpcMaxEntries := by
  unfold CustomRpc.addresses
  cases rpc.entries with
  | none => exact Nat.zero_le _
  | some text => exact length_parseEntries_le text

theorem formatEntry_fits (m : Memory) (p : MappedPage) (e : AddressEntry) :
    formatEntry m p e ≠ [] ∧ (formatEntry m p e).length ≤ 17 :=
  ⟨(isPair_formatEntry m p e).plain.1, (isPair_formatEntry m p e).length_le⟩

theorem ne_zero_of_mem_pairs {m : Memory} {p : MappedPage} {es : List AddressEntry} {c : UInt8}
    (hc : c ∈ [(0x26 : UInt8)].intercalate (es.map (formatEntry m p))) : c ≠ 0 := by
  cases es with
  | nil => cases hc
  | cons e es =>
    rw [List.map_cons, intercalate_cons, List.flatMap_map] at hc
    rcases List.mem_append.mp hc with hc | hc
    · exact (isPair_formatEntry m p e).plain.2 c hc
    · obtain ⟨e', -, hc⟩ := List.mem_flatMap.mp hc
      rcases List.mem_cons.mp hc with rfl | hc
      · decide
      · exact (isPair_formatEntry m p e').plain.2 c hc

/-- What the caller's buffer holds, for every loaded configuration: no byte outside of it was
written, and the string in it consists of one whole pair for each entry, in their order. -/
theorem writeExtraString_pairs (m : Memory) (p : MappedPage) (rpc : CustomRpc)
    (hloaded : customRpcHasConfig rpc = true) (b : Bytes) (hb : b.length = customRpcExtraSize + 1) :
    ∃ b' pairs, result (writeExtraString m p rpc (customRpcExtraSize + 1)) b = (.ok (), b') ∧
      b'.length = b.length ∧ (str b').length < b'.length ∧ str b' = [0x26].intercalate pairs ∧
      List.Forall₂ (IsPair m p) rpc.addresses pairs := by
  have hfirst : 0 + [(0 : UInt8)].length ≤ b.length := by
    rw [hb]
    decide
  have hempty : HoldsText (customRpcExtraSize + 1) (splice b 0 [0]) [] :=
    ⟨(length_splice hfirst).trans hb, b.drop 1, rfl⟩
  obtain ⟨b', hrun, hholds⟩ := @appendPairs_spec (formatEntry m p) _ rpc.addresses _ _ hempty
  have hroom : 18 * rpc.addresses.length < customRpcExtraSize + 1 :=
    (Nat.mul_le_mul_left 18 rpc.length_addresses_le).trans_lt (by decide)
  rw [appendEntries_eq (formatEntry_fits m p) hroom] at hholds
  have hstr := hholds.str_eq fun c hc => ne_zero_of_mem_pairs hc
  refine ⟨b', rpc.addresses.map (formatEntry m p), ?_, hholds.1.trans hb.symm, ?_, hstr, ?_⟩
  · rw [writeExtraString, result_bind_ok (result_write hfirst), hloaded]
    exact hrun
  · rw [hstr, hholds.1]
    exact hholds.lt
  · rw [List.forall₂_map_right_iff, List.forall₂_same]
    exact fun e _ => isPair_formatEntry m p e

/-- A byte and a word. -/
def twoEntries : CustomRpc := ⟨true, 5, some (ascii "00100000b,00100010w".toList)⟩

def wholePage : MappedPage := ⟨7, 0x00100000, 0x1000, true, some 7⟩

theorem writeExtraString_pairs_two :
    ∃ b' pairs, result (writeExtraString watchedTitle.memory wholePage twoEntries
        (customRpcExtraSize + 1)) (List.replicate 1025 0xFF) = (.ok (), b') ∧
      b'.length = (List.replicate 1025 (0xFF : UInt8)).length ∧ (str b').length < b'.length ∧
      str b' = [0x26].intercalate pairs ∧
      List.Forall₂ (IsPair watchedTitle.memory wholePage) twoEntries.addresses pairs :=
  writeExtraString_pairs watchedTitle.memory wholePage twoEntries (by decide +kernel)
    (List.replicate 1025 0xFF) (List.length_replicate ..)

end Presence3DS.Discord
