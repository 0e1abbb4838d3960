import Presence3DS.Discord.ExtraString
import Presence3DS.Lib.FormData

/-! The body of an activity request, as a server reads it (`discord_url_encode` of `discord_util.c`
and the end of `create_activity_string`). -/

namespace Presence3DS.Discord
open Buffer CString Decimal

/-! ## The buffers -/

/-- The loop of `discord_url_encode`, with `di`. -/
def encodeLoop (dstSize : ℕ) : ℕ → Bytes → BufferM UInt8 ℕ
  | di, [] => pure di
  | di, c :: src =>
    if dstSize - 3 ≤ di then pure di
    else if c = 0x20 then do
      write di [0x2B]
      encodeLoop dstSize (di + 1) src
    else if isUnreserved c then do
      write di [c]
      encodeLoop dstSize (di + 1) src
    else do
      write di [0x25]
      write (di + 1) [hexDigit (c.toNat / 16)]
      write (di + 2) [hexDigit (c.toNat % 16)]
      encodeLoop dstSize (di + 3) src

/-- `discord_url_encode` -/
def writeUrlEncode (src : Bytes) (dstSize : ℕ) : BufferM UInt8 Unit := do
  let di ← encodeLoop dstSize 0 (str src)
  write di [0]

/-- What a buffer of zeros holds of a string. -/
def encodedText (src : Bytes) (dstSize : ℕ) : Bytes :=
  str (result (writeUrlEncode src dstSize) (List.replicate dstSize 0)).2

/-- `"&extra=%s"` behind what is in the buffer. -/
def appendExtra (extraEnc : Bytes) (bufferSize : ℕ) : BufferM UInt8 Unit := do
  let buffer ← get
  snprintfAt (str buffer).length (bufferSize - (str buffer).length)
    (ascii "&extra=".toList ++ extraEnc)

/-- The end of `create_activity_string`. -/
def writeActivity (titleid name publisher extra : Bytes) (bufferSize : ℕ) :
    BufferM UInt8 Unit := do
  snprintfAt 0 bufferSize (ascii "titleid=".toList ++ titleid ++ ascii "&name=".toList ++
    encodedText name 1536 ++ ascii "&publisher=".toList ++ encodedText publisher 768)
  if str extra = [] then pure ()
  else appendExtra (encodedText extra (3 * customRpcExtraSize)) bufferSize

/-! ## The escapes -/

def urlScheme : FormData.Scheme where
  keep := isUnreserved
  digit := hexDigit
  value? := hexValue?
  keep_plain := forall_byte (by decide +kernel)
  digit_plain := by decide
  value_digit := fun d hd => (hexDigit_spec d hd).1

/-- Each byte of a string finds room in front of it. -/
def EncodedFits (src : Bytes) (dstSize : ℕ) : Prop :=
  src = [] ∨ (urlScheme.encode src.dropLast).length + 3 < dstSize

instance (src : Bytes) (dstSize : ℕ) : Decidable (EncodedFits src dstSize) :=
  inferInstanceAs (Decidable (_ ∨ _))

theorem encodedFits_of_length {src : Bytes} {dstSize : ℕ} (h : 3 * src.length + 1 ≤ dstSize) :
    EncodedFits src dstSize := by
  cases src with
  | nil => exact .inl rfl
  | cons c src =>
    have hlength := urlScheme.length_encode_le (c :: src).dropLast
    rw [List.length_dropLast] at hlength
    rw [List.length_cons] at h hlength
    right
    omega

theorem urlEncode_cons (room : ℕ) (c : UInt8) (src : Bytes) : urlEncode (room + 1) (c :: src) =
    urlScheme.encodeByte c ++ urlEncode (room + 1 - (urlScheme.encodeByte c).length) src := by
  rw [urlEncode]
  by_cases hspace : c = 0x20
  · have hbyte : urlScheme.encodeByte c = [0x2B] := if_pos hspace
    rw [if_pos hspace, hbyte]
    rfl
  · rw [if_neg hspace]
    by_cases hkeep : isUnreserved c = true
    · have hbyte : urlScheme.encodeByte c = [c] := (if_neg hspace).trans (if_pos hkeep)
      rw [if_pos hkeep, hbyte]
      rfl
    · have hbyte : urlScheme.encodeByte c =
          [0x25, hexDigit (c.toNat / 16), hexDigit (c.toNat % 16)] :=
        (if_neg hspace).trans (if_neg hkeep)
      rw [if_neg hkeep, hbyte]
      rfl

theorem urlEncode_spec (room : ℕ) (src : Bytes) : ∃ front back, src = front ++ back ∧
    urlEncode room src = urlScheme.encode front ∧
    (back ≠ [] → room ≤ (urlScheme.encode front).length) ∧
    (front ≠ [] → (urlScheme.encode front.dropLast).length < room) := by
  induction src generalizing room with
  | nil =>
    refine ⟨[], [], rfl, ?_, fun h => absurd rfl h, fun h => absurd rfl h⟩
    rw [urlEncode]
    rfl
  | cons c src ih =>
    cases room with
    | zero =>
      refine ⟨[], c :: src, rfl, ?_, fun _ => Nat.zero_le _, fun h => absurd rfl h⟩
      rw [urlEncode]
      · rfl
      · simp
    | succ room =>
      -- the room behind the escape; with none left, nothing follows
      obtain ⟨front, back, rfl, hencode, hback, hfront⟩ :=
        ih (room + 1 - (urlScheme.encodeByte c).length)
      have hpos := urlScheme.length_encodeByte_pos c
      refine ⟨c :: front, back, rfl, ?_, fun h => ?_, fun _ => ?_⟩
      · rw [urlScheme.encode_cons, ← hencode, urlEncode_cons]
      · have hlength := hback h
        rw [urlScheme.encode_cons, List.length_append]
        omega
      · cases front with
        | nil => exact Nat.succ_pos room
        | cons d front =>
          have hlength := hfront (by simp)
          rw [List.dropLast_cons_of_ne_nil (by simp), urlScheme.encode_cons, List.length_append]
          omega

theorem length_discordUrlEncode_lt {dstSize : ℕ} (h : 3 ≤ dstSize) (src : Bytes) :
    (discordUrlEncode src dstSize).length < dstSize := by
  obtain ⟨front, back, -, hencode, -, hfront⟩ := urlEncode_spec (dstSize - 3) src
  rw [discordUrlEncode, hencode]
  rcases List.eq_nil_or_concat front with rfl | ⟨front, c, rfl⟩
  · show 0 < dstSize
    omega
  · have hlength := hfront (by simp)
    have hc := urlScheme.length_encodeByte_le c
    rw [List.concat_eq_append, List.dropLast_concat] at hlength
    rw [List.concat_eq_append, urlScheme.encode_append, List.length_append, urlScheme.encode_cons,
      List.length_append]
    show _ + (_ + 0) < _
    omega

theorem decode_discordUrlEncode (src : Bytes) (dstSize : ℕ) :
    FormData.decode hexValue? (discordUrlEncode src dstSize) <+: src ∧
      (FormData.decode hexValue? (discordUrlEncode src dstSize) = src ↔
        EncodedFits src dstSize) := by
  obtain ⟨front, back, rfl, hencode, hback, hfront⟩ := urlEncode_spec (dstSize - 3) src
  have hdecode : FormData.decode hexValue? (discordUrlEncode (front ++ back) dstSize) = front := by
    rw [discordUrlEncode, hencode]
    exact urlScheme.decode_encode front
  rw [hdecode]
  refine ⟨List.prefix_append _ _, fun hall => ?_, fun hfits => ?_⟩
  · rw [← hall]
    by_cases hempty : front = []
    · exact .inl hempty
    · have hlength := hfront hempty
      right
      omega
  · by_contra hcut
    have hne : back ≠ [] := by
      rintro rfl
      exact hcut (List.append_nil front).symm
    have hlength := hback hne
    rcases hfits with hnil | hroom
    · exact hne (List.append_eq_nil_iff.mp hnil).2
    · rw [List.dropLast_append_of_ne_nil hne, urlScheme.encode_append, List.length_append] at hroom
      omega

/-! ## What the buffers hold -/

theorem write_behind {i : ℕ} {out rest data : Bytes} (hi : out.length = i)
    (h : data.length ≤ rest.length) :
    result (write i data) (out ++ rest) = (.ok (), (out ++ data) ++ rest.drop data.length) := by
  rw [← hi, result_write, splice_append]
  rw [List.length_append]
  omega

theorem encodeLoop_cons {dstSize : ℕ} {out rest : Bytes} {c : UInt8} {src : Bytes}
    (hlen : out.length + rest.length = dstSize) (hroom : out.length < dstSize - 3) :
    result (encodeLoop dstSize out.length (c :: src)) (out ++ rest) =
      result (encodeLoop dstSize (out ++ urlScheme.encodeByte c).length src)
        ((out ++ urlScheme.encodeByte c) ++ rest.drop (urlScheme.encodeByte c).length) := by
  rw [encodeLoop, if_neg (by omega), List.length_append]
  by_cases hspace : c = 0x20
  · have hbyte : urlScheme.encodeByte c = [0x2B] := if_pos hspace
    have hfits : [(0x2B : UInt8)].length ≤ rest.length := by
      rw [List.length_singleton]
      omega
    rw [if_pos hspace, hbyte, result_bind_ok (write_behind rfl hfits)]
    rfl
  · rw [if_neg hspace]
    by_cases hkeep : isUnreserved c = true
    · have hbyte : urlScheme.encodeByte c = [c] := (if_neg hspace).trans (if_pos hkeep)
      have hfits : [c].length ≤ rest.length := by
        rw [List.length_singleton]
        omega
      rw [if_pos hkeep, hbyte, result_bind_ok (write_behind rfl hfits)]
      rfl
    · have hbyte : urlScheme.encodeByte c =
          [0x25, hexDigit (c.toNat / 16), hexDigit (c.toNat % 16)] :=
        (if_neg hspace).trans (if_neg hkeep)
      obtain ⟨r₁, r₂, r₃, rest, rfl⟩ : ∃ r₁ r₂ r₃ rest', rest = r₁ :: r₂ :: r₃ :: rest' := by
        rcases rest with _ | ⟨r₁, _ | ⟨r₂, _ | ⟨r₃, rest⟩⟩⟩
        · exact absurd hlen (by simp only [List.length_nil]; omega)
        · exact absurd hlen (by simp only [List.length_cons, List.length_nil]; omega)
        · exact absurd hlen (by simp only [List.length_cons, List.length_nil]; omega)
        · exact ⟨r₁, r₂, r₃, rest, rfl⟩
      have hsecond : (out ++ [(0x25 : UInt8)]).length = out.length + 1 := List.length_append
      have hthird : ((out ++ [(0x25 : UInt8)]) ++ [hexDigit (c.toNat / 16)]).length =
          out.length + 2 := by
        rw [List.length_append, hsecond]
        rfl
      rw [if_neg hkeep, hbyte, result_bind_ok (write_behind rfl (by simp)),
        result_bind_ok (write_behind hsecond (by simp)),
        result_bind_ok (write_behind hthird (by simp)), List.append_assoc out [0x25],
        List.append_assoc out ([0x25] ++ _)]
      rfl

theorem encodeLoop_spec {dstSize : ℕ} (src : Bytes) {out rest : Bytes}
    (hlen : out.length + rest.length = dstSize) :
    ∃ rest', result (encodeLoop dstSize out.length src) (out ++ rest) =
        (.ok (out ++ urlEncode (dstSize - 3 - out.length) src).length,
          (out ++ urlEncode (dstSize - 3 - out.length) src) ++ rest') ∧
      (out ++ urlEncode (dstSize - 3 - out.length) src).length + rest'.length = dstSize := by
  induction src generalizing out rest with
  | nil =>
    refine ⟨rest, ?_, ?_⟩
    · rw [urlEncode, List.append_nil]
      rfl
    · rw [urlEncode, List.append_nil]
      exact hlen
  | cons c src ih =>
    by_cases hfull : dstSize - 3 ≤ out.length
    · have hnone : urlEncode (dstSize - 3 - out.length) (c :: src) = [] := by
        rw [Nat.sub_eq_zero_of_le hfull, urlEncode]
        simp
      rw [hnone, List.append_nil, encodeLoop, if_pos hfull]
      exact ⟨rest, rfl, hlen⟩
    · obtain ⟨room, hroom⟩ := Nat.exists_eq_add_of_lt (Nat.lt_of_not_le hfull)
      have hescape : (urlScheme.encodeByte c).length ≤ rest.length :=
        (urlScheme.length_encodeByte_le c).trans (by omega)
      have hencode : out ++ urlEncode (dstSize - 3 - out.length) (c :: src) =
          (out ++ urlScheme.encodeByte c) ++
            urlEncode (dstSize - 3 - (out ++ urlScheme.encodeByte c).length) src := by
        have hleft : dstSize - 3 - out.length = room + 1 := by omega
        have hbehind : dstSize - 3 - (out ++ urlScheme.encodeByte c).length =
            room + 1 - (urlScheme.encodeByte c).length := by
          rw [List.length_append]
          omega
        rw [hleft, hbehind, urlEncode_cons, List.append_assoc]
      rw [hencode, encodeLoop_cons hlen (Nat.lt_of_not_le hfull)]
      apply ih
      rw [List.length_append, List.length_drop]
      omega

theorem writeUrlEncode_spec {dstSize : ℕ} (hsize : 3 ≤ dstSize) (src : Bytes) {b : Bytes}
    (hb : b.length = dstSize) : ∃ b', result (writeUrlEncode src dstSize) b = (.ok (), b') ∧
      HoldsText dstSize b' (discordUrlEncode (str src) dstSize) := by
  have hlen : ([] : Bytes).length + b.length = dstSize := by
    rw [List.length_nil, hb, Nat.zero_add]
  obtain ⟨rest, hloop, hlength⟩ := encodeLoop_spec (str src) hlen
  have hlt := length_discordUrlEncode_lt hsize (str src)
  simp only [List.length_nil, List.nil_append, Nat.sub_zero] at hloop hlength
  rw [← discordUrlEncode] at hloop hlength
  obtain ⟨c, rest, rfl⟩ : ∃ c rest', rest = c :: rest' := by
    apply List.exists_cons_of_length_pos
    omega
  refine ⟨discordUrlEncode (str src) dstSize ++ 0 :: rest, ?_, ?_, rest, rfl⟩
  · rw [writeUrlEncode, result_bind_ok hloop, write_behind rfl (by simp), List.append_assoc]
    rfl
  · rw [List.length_append]
    exact hlength

theorem encode_ne_zero {src : Bytes} {x : UInt8} (h : x ∈ urlScheme.encode src) : x ≠ 0 := by
  have hdigit : ∀ d < 16, hexDigit d ≠ 0 := by decide
  rcases urlScheme.mem_encode h with rfl | rfl | hkeep | ⟨d, hd, rfl⟩
  · decide
  · decide
  · rintro rfl
    cases hkeep
  · exact hdigit d hd

theorem mem_discordUrlEncode {src : Bytes} {dstSize : ℕ} {x : UInt8}
    (h : x ∈ discordUrlEncode src dstSize) : x ≠ 0 ∧ x ≠ 0x26 ∧ x ≠ 0x3D := by
  obtain ⟨front, -, -, hencode, -⟩ := urlEncode_spec (dstSize - 3) src
  rw [discordUrlEncode, hencode] at h
  exact ⟨encode_ne_zero h, urlScheme.encode_separators h⟩

theorem encodedText_eq {dstSize : ℕ} (hsize : 3 ≤ dstSize) (src : Bytes) :
    encodedText src dstSize = discordUrlEncode (str src) dstSize := by
  obtain ⟨b', hrun, hholds⟩ := writeUrlEncode_spec hsize src (List.length_replicate ..)
  rw [encodedText, hrun]
  exact hholds.str_eq fun c hc => (mem_discordUrlEncode hc).1

theorem discordUrlEncode_of_fits {src : Bytes} {dstSize : ℕ} (h : EncodedFits src dstSize) :
    discordUrlEncode src dstSize = urlScheme.encode src := by
  obtain ⟨front, back, rfl, hencode, -⟩ := urlEncode_spec (dstSize - 3) src
  have hdecode := (decode_discordUrlEncode (front ++ back) dstSize).2.mpr h
  have hfront : FormData.decode hexValue? (urlScheme.encode front) = front :=
    urlScheme.decode_encode front
  rw [discordUrlEncode, hencode, hfront] at hdecode
  rw [discordUrlEncode, hencode, ← hdecode]

theorem hexDigit_plain : ∀ d < 16, hexDigit d ≠ 0 ∧ hexDigit d ≠ 0x20 ∧
    isUnreserved (hexDigit d) = true := by decide

theorem mem_hex16 {x : UInt64} {c : UInt8} (h : c ∈ hex16 x) :
    c ≠ 0 ∧ c ≠ 0x20 ∧ isUnreserved c = true := by
  obtain ⟨i, -, rfl⟩ := List.mem_map.mp h
  exact hexDigit_plain _ (Nat.mod_lt _ (by decide))

theorem length_hex16 (x : UInt64) : (hex16 x).length = 16 := by
  rw [hex16, List.length_map, List.length_range]

theorem snprintfAt_front {size : ℕ} (hsize : 0 < size) (text : Bytes) {b : Bytes}
    (hb : b.length = size) : ∃ b', result (snprintfAt 0 size text) b = (.ok (), b') ∧
      HoldsText size b' (text.take (size - 1)) := by
  have hfits : 0 + (text.take (size - 1) ++ [(0 : UInt8)]).length ≤ b.length := by
    rw [List.length_append, List.length_take, List.length_singleton]
    omega
  refine ⟨_, ?_, (length_splice hfits).trans hb, b.drop (text.take (size - 1) ++ [0]).length, ?_⟩
  · rw [snprintfAt, if_neg hsize.ne']
    exact result_write hfits
  · rw [splice, Nat.zero_add]
    simp

theorem activityHead_ne_zero {titleid : UInt64} {name publisher : Bytes} {c : UInt8}
    (hc : c ∈ ascii "titleid=".toList ++ hex16 titleid ++ ascii "&name=".toList ++
      discordUrlEncode name 1536 ++ ascii "&publisher=".toList ++ discordUrlEncode publisher 768) :
    c ≠ 0 := by
  simp only [List.mem_append] at hc
  rcases hc with ((((hkey | hid) | hkey) | htext) | hkey) | htext
  · exact (by decide +kernel : ∀ c ∈ ascii "titleid=".toList, c ≠ 0) c hkey
  · exact (mem_hex16 hid).1
  · exact (by decide +kernel : ∀ c ∈ ascii "&name=".toList, c ≠ 0) c hkey
  · exact (mem_discordUrlEncode htext).1
  · exact (by decide +kernel : ∀ c ∈ ascii "&publisher=".toList, c ≠ 0) c hkey
  · exact (mem_discordUrlEncode htext).1

theorem activityText_ne_zero {titleid : UInt64} {name publisher extra : Bytes} {bufferSize : ℕ}
    {c : UInt8} (hc : c ∈ activityText (hex16 titleid) name publisher extra bufferSize) :
    c ≠ 0 := by
  unfold activityText at hc
  split_ifs at hc
  · exact activityHead_ne_zero (List.mem_of_mem_take hc)
  · rcases List.mem_append.mp hc with hc | hc
    · exact activityHead_ne_zero (List.mem_of_mem_take hc)
    · rcases List.mem_append.mp (List.mem_of_mem_take hc) with hkey | htext
      · exact (by decide +kernel : ∀ c ∈ ascii "&extra=".toList, c ≠ 0) c hkey
      · exact (mem_discordUrlEncode htext).1

theorem writeActivity_spec {bufferSize : ℕ} (hsize : 0 < bufferSize) (titleid : UInt64)
    (name publisher extra : Bytes) {b : Bytes} (hb : b.length = bufferSize) :
    ∃ b', result (writeActivity (hex16 titleid) name publisher extra bufferSize) b =
        (.ok (), b') ∧
      HoldsText bufferSize b'
        (activityText (hex16 titleid) (str name) (str publisher) (str extra) bufferSize) := by
  have hname := encodedText_eq (show 3 ≤ 1536 by decide) name
  have hpublisher := encodedText_eq (show 3 ≤ 768 by decide) publisher
  have hextra := encodedText_eq (show 3 ≤ 3 * customRpcExtraSize by decide) extra
  obtain ⟨b₁, hrun₁, hholds₁⟩ := snprintfAt_front hsize (ascii "titleid=".toList ++
    hex16 titleid ++ ascii "&name=".toList ++ discordUrlEncode (str name) 1536 ++
    ascii "&publisher=".toList ++ discordUrlEncode (str publisher) 768) hb
  have hstr := hholds₁.str_eq fun c hc => activityHead_ne_zero (List.mem_of_mem_take hc)
  rw [writeActivity, hname, hpublisher, hextra, result_bind_ok hrun₁, activityText]
  by_cases hempty : str extra = []
  · rw [if_pos hempty, if_pos hempty]
    exact ⟨b₁, rfl, hholds₁⟩
  · obtain ⟨b₂, hrun₂, hholds₂⟩ := snprintfAt_spec hholds₁
      (ascii "&extra=".toList ++ discordUrlEncode (str extra) (3 * customRpcExtraSize))
    rw [if_neg hempty, if_neg hempty]
    refine ⟨b₂, ?_, hholds₂⟩
    rw [← hrun₂, ← hstr]
    rfl

/-! ## What a server reads -/

def activityFields (titleid : UInt64) (name publisher extra : Bytes) : List (Bytes × Bytes) :=
  [(ascii "titleid".toList, hex16 titleid), (ascii "name".toList, name),
    (ascii "publisher".toList, publisher)] ++
  if extra = [] then [] else [(ascii "extra".toList, extra)]

theorem activityText_eq {name publisher extra : Bytes} (titleid : UInt64)
    (hname : EncodedFits name 1536) (hpublisher : EncodedFits publisher 768)
    (hextra : EncodedFits extra (3 * customRpcExtraSize)) :
    activityText (hex16 titleid) name publisher extra 5500 =
      urlScheme.body (activityFields titleid name publisher extra) := by
  have hnameLength := length_discordUrlEncode_lt (show 3 ≤ 1536 by decide) name
  have hpublisherLength := length_discordUrlEncode_lt (show 3 ≤ 768 by decide) publisher
  have hextraLength := length_discordUrlEncode_lt (show 3 ≤ 3 * customRpcExtraSize by decide) extra
  have hid : urlScheme.encode (hex16 titleid) = hex16 titleid :=
    urlScheme.encode_eq_self fun c hc => (mem_hex16 hc).2
  have hkeys : urlScheme.encode (ascii "titleid".toList) = ascii "titleid".toList ∧
      urlScheme.encode (ascii "name".toList) = ascii "name".toList ∧
      urlScheme.encode (ascii "publisher".toList) = ascii "publisher".toList ∧
      urlScheme.encode (ascii "extra".toList) = ascii "extra".toList := by decide
  have htexts : ascii "titleid=".toList = ascii "titleid".toList ++ [0x3D] ∧
      ascii "&name=".toList = 0x26 :: (ascii "name".toList ++ [0x3D]) ∧
      ascii "&publisher=".toList = 0x26 :: (ascii "publisher".toList ++ [0x3D]) ∧
      ascii "&extra=".toList = 0x26 :: (ascii "extra".toList ++ [0x3D]) := by decide
  have hlengths : (ascii "titleid=".toList).length = 8 ∧ (ascii "&name=".toList).length = 6 ∧
      (ascii "&publisher=".toList).length = 11 ∧ (ascii "&extra=".toList).length = 7 := by decide
  have hsize : 3 * customRpcExtraSize = 3072 := rfl
  have hhead : (ascii "titleid=".toList ++ hex16 titleid ++ ascii "&name=".toList ++
      discordUrlEncode name 1536 ++ ascii "&publisher=".toList ++
      discordUrlEncode publisher 768).length ≤ 2343 := by
    simp only [List.length_append, length_hex16, hlengths]
    omega
  have htail : (ascii "&extra=".toList ++
      discordUrlEncode extra (3 * customRpcExtraSize)).length ≤ 3078 := by
    rw [List.length_append, hlengths.2.2.2]
    omega
  rw [activityText, List.take_of_length_le (hhead.trans (by decide)), FormData.Scheme.body,
    activityFields, List.map_append, List.map_cons, List.cons_append, intercalate_cons]
  by_cases hempty : extra = []
  · rw [if_pos hempty, if_pos hempty, discordUrlEncode_of_fits hname,
      discordUrlEncode_of_fits hpublisher]
    simp only [FormData.Scheme.item, hid, hkeys, htexts, List.map_cons, List.map_nil,
      List.flatMap_cons, List.flatMap_nil, List.append_assoc, List.cons_append, List.nil_append,
      List.append_nil]
  · rw [if_neg hempty, if_neg hempty, List.take_of_length_le (by omega),
      discordUrlEncode_of_fits hname, discordUrlEncode_of_fits hpublisher,
      discordUrlEncode_of_fits hextra]
    simp only [FormData.Scheme.item, hid, hkeys, htexts, List.map_cons, List.map_nil,
      List.flatMap_cons, List.flatMap_nil, List.append_assoc, List.cons_append, List.nil_append,
      List.append_nil]

theorem fields_activityText {name publisher extra : Bytes} (titleid : UInt64)
    (hname : EncodedFits name 1536) (hpublisher : EncodedFits publisher 768)
    (hextra : EncodedFits extra (3 * customRpcExtraSize)) :
    FormData.fields hexValue? (activityText (hex16 titleid) name publisher extra 5500) =
      activityFields titleid name publisher extra := by
  rw [activityText_eq titleid hname hpublisher hextra]
  exact urlScheme.fields_body (by simp [activityFields])

/-- The body has room for whatever fits into the buffers of the escapes, and it is read as what it
was made of. Into a buffer of its own, of any size, `discord_url_encode` writes nothing but whole
escapes and the NUL. -/
theorem writeActivity_fields :
    (∀ (titleid : UInt64) (name publisher extra b : Bytes), b.length = 5500 →
      EncodedFits (str name) 1536 → EncodedFits (str publisher) 768 →
      EncodedFits (str extra) (3 * customRpcExtraSize) →
      ∃ b', result (writeActivity (hex16 titleid) name publisher extra 5500) b = (.ok (), b') ∧
        b'.length = b.length ∧ FormData.fields hexValue? (str b') =
          activityFields titleid (str name) (str publisher) (str extra)) ∧
    ∀ src b : Bytes, 3 ≤ b.length →
      ∃ b', result (writeUrlEncode src b.length) b = (.ok (), b') ∧ b'.length = b.length ∧
        (str b').length < b'.length ∧ (∀ c ∈ str b', c ≠ 0x26 ∧ c ≠ 0x3D) ∧
        FormData.decode hexValue? (str b') <+: str src ∧
        (3 * (str src).length + 1 ≤ b.length → FormData.decode hexValue? (str b') = str src) := by
  constructor
  · intro titleid name publisher extra b hb hname hpublisher hextra
    obtain ⟨b', hrun, hholds⟩ :=
      writeActivity_spec (show 0 < 5500 by decide) titleid name publisher extra hb
    refine ⟨b', hrun, hholds.1.trans hb.symm, ?_⟩
    rw [hholds.str_eq fun c hc => activityText_ne_zero hc]
    exact fields_activityText titleid hname hpublisher hextra
  · intro src b hsize
    obtain ⟨b', hrun, hholds⟩ := writeUrlEncode_spec hsize src rfl
    have hstr := hholds.str_eq fun c hc => (mem_discordUrlEncode hc).1
    have hlt := hholds.lt
    obtain ⟨hfront, hall⟩ := decode_discordUrlEncode (str src) b.length
    rw [← hstr] at hlt hfront hall
    refine ⟨b', hrun, hholds.1, hlt.trans_eq hholds.1.symm, fun c hc => ?_, hfront, fun h => ?_⟩
    · rw [hstr] at hc
      exact (mem_discordUrlEncode hc).2
    · exact hall.mpr (encodedFits_of_length h)

theorem writeActivity_fields_separators :
    ∃ b', result (writeActivity (hex16 5) (ascii "A&B=C".toList) (ascii "50% + 1".toList)
        (ascii "00100000=7F".toList) 5500) (List.replicate 5500 0xFF) = (.ok (), b') ∧
      b'.length = (List.replicate 5500 (0xFF : UInt8)).length ∧
      FormData.fields hexValue? (str b') =
        activityFields 5 (str (ascii "A&B=C".toList)) (str (ascii "50% + 1".toList))
          (str (ascii "00100000=7F".toList)) :=
  writeActivity_fields.1 5 (ascii "A&B=C".toList) (ascii "50% + 1".toList)
    (ascii "00100000=7F".toList) (List.replicate 5500 0xFF) (List.length_replicate ..)
    (encodedFits_of_length (by decide)) (encodedFits_of_length (by decide))
    (encodedFits_of_length (by decide))

/-! ## The activity of a tick -/

end Presence3DS.Discord
