import Presence3DS.Lib.CString

/-! Forms as `application/x-www-form-urlencoded` has them: fields with a `&` between them, each of
them a key and a value with a `=` between them, and escapes for the bytes that mean something. -/

namespace FormData
open CString

/-! ## Reading -/

section
variable (value? : UInt8 → Option ℕ)

/-- A `%` without two digits behind it stands for itself. -/
def decode : Bytes → Bytes
  | [] => []
  | c :: s =>
    if c = 0x2B then 0x20 :: decode s
    else if c = 0x25 then
      match s with
      | hi :: lo :: s' =>
        match value? hi, value? lo with
        | some x, some y => UInt8.ofNat (16 * x + y) :: decode s'
        | _, _ => c :: decode (hi :: lo :: s')
      | [d] => c :: decode [d]
      | [] => [c]
    else c :: decode s

/-- An item without a `=` is a key alone. -/
def field (item : Bytes) : Bytes × Bytes :=
  (decode value? (item.takeWhile (· ≠ 0x3D)), decode value? ((item.dropWhile (· ≠ 0x3D)).drop 1))

def fields (body : Bytes) : List (Bytes × Bytes) :=
  ((body.splitOn 0x26).filter (· ≠ [])).map (field value?)

end

/-! ## Writing -/

/-- The bytes with a meaning of their own: `%`, `&`, `+` and `=`. -/
def isSpecial (c : UInt8) : Bool := c = 0x25 || c = 0x26 || c = 0x2B || c = 0x3D

/-- Which bytes are written as they are, and the digits that the others are escaped with. -/
structure Scheme where
  keep : UInt8 → Bool
  digit : ℕ → UInt8
  value? : UInt8 → Option ℕ
  keep_plain : ∀ c, keep c = true → isSpecial c = false
  digit_plain : ∀ d < 16, isSpecial (digit d) = false
  value_digit : ∀ d < 16, value? (digit d) = some d

namespace Scheme
variable (S : Scheme)

def encodeByte (c : UInt8) : Bytes :=
  if c = 0x20 then [0x2B]
  else if S.keep c then [c]
  else [0x25, S.digit (c.toNat / 16), S.digit (c.toNat % 16)]

def encode (src : Bytes) : Bytes := src.flatMap S.encodeByte

def item (f : Bytes × Bytes) : Bytes := S.encode f.1 ++ 0x3D :: S.encode f.2

def body (fs : List (Bytes × Bytes)) : Bytes := [0x26].intercalate (fs.map S.item)

theorem encode_cons (c : UInt8) (src : Bytes) :
    S.encode (c :: src) = S.encodeByte c ++ S.encode src := List.flatMap_cons

theorem encode_append (s t : Bytes) : S.encode (s ++ t) = S.encode s ++ S.encode t :=
  List.flatMap_append

theorem encode_eq_self {src : Bytes} (h : ∀ c ∈ src, c ≠ 0x20 ∧ S.keep c = true) :
    S.encode src = src := by
  induction src with
  | nil => rfl
  | cons c src ih =>
    obtain ⟨⟨hspace, hkeep⟩, hsrc⟩ := List.forall_mem_cons.mp h
    rw [encode_cons, encodeByte, if_neg hspace, if_pos hkeep, ih hsrc]
    rfl

theorem length_encodeByte_pos (c : UInt8) : 0 < (S.encodeByte c).length := by
  unfold encodeByte
  split_ifs
  all_goals exact Nat.succ_pos _

theorem length_encodeByte_le (c : UInt8) : (S.encodeByte c).length ≤ 3 := by
  unfold encodeByte
  split_ifs
  all_goals simp

theorem length_encode_le (src : Bytes) : (S.encode src).length ≤ 3 * src.length := by
  induction src with
  | nil => exact Nat.le_refl 0
  | cons c src ih =>
    have hc := S.length_encodeByte_le c
    rw [encode_cons, List.length_append, List.length_cons]
    omega

/-! ## What is written -/

theorem digits_lt (c : UInt8) : c.toNat / 16 < 16 ∧ c.toNat % 16 < 16 := by
  have hc := c.toNat_lt
  omega

theorem mem_encode {src : Bytes} {x : UInt8} (h : x ∈ S.encode src) :
    x = 0x2B ∨ x = 0x25 ∨ S.keep x = true ∨ ∃ d < 16, x = S.digit d := by
  obtain ⟨c, -, hx⟩ := List.mem_flatMap.mp h
  obtain ⟨hhi, hlo⟩ := digits_lt c
  unfold encodeByte at hx
  split_ifs at hx with hspace hkeep
  · exact .inl (List.mem_singleton.mp hx)
  · rw [List.mem_singleton.mp hx]
    exact .inr (.inr (.inl hkeep))
  · simp only [List.mem_cons, List.not_mem_nil, or_false] at hx
    rcases hx with rfl | rfl | rfl
    · exact .inr (.inl rfl)
    · exact .inr (.inr (.inr ⟨_, hhi, rfl⟩))
    · exact .inr (.inr (.inr ⟨_, hlo, rfl⟩))

theorem separators_of_plain {c : UInt8} (h : isSpecial c = false) : c ≠ 0x26 ∧ c ≠ 0x3D := by
  simp only [isSpecial, Bool.or_eq_false_iff, decide_eq_false_iff_not] at h
  exact ⟨h.1.1.2, h.2⟩

/-- Nothing that is written within a key or a value ends it. -/
theorem encode_separators {src : Bytes} {x : UInt8} (h : x ∈ S.encode src) :
    x ≠ 0x26 ∧ x ≠ 0x3D := by
  rcases S.mem_encode h with rfl | rfl | hkeep | ⟨d, hd, rfl⟩
  · decide
  · decide
  · exact separators_of_plain (S.keep_plain x hkeep)
  · exact separators_of_plain (S.digit_plain d hd)

/-! ## Reading what was written -/

theorem decode_space (value? : UInt8 → Option ℕ) (s : Bytes) :
    decode value? (0x2B :: s) = 0x20 :: decode value? s :=
  (decode.eq_def value? (0x2B :: s)).trans (if_pos rfl)

theorem decode_plain {value? : UInt8 → Option ℕ} {c : UInt8} (h : isSpecial c = false) (s : Bytes) :
    decode value? (c :: s) = c :: decode value? s := by
  simp only [isSpecial, Bool.or_eq_false_iff, decide_eq_false_iff_not] at h
  exact (decode.eq_def value? (c :: s)).trans ((if_neg h.1.2).trans (if_neg h.1.1.1))

theorem decode_escape {value? : UInt8 → Option ℕ} {hi lo : UInt8} {x y : ℕ}
    (hx : value? hi = some x) (hy : value? lo = some y) (s : Bytes) :
    decode value? (0x25 :: hi :: lo :: s) = UInt8.ofNat (16 * x + y) :: decode value? s := by
  rw [decode, if_neg (by decide), if_pos rfl]
  simp only [hx, hy]

theorem decode_encodeByte (c : UInt8) (s : Bytes) :
    decode S.value? (S.encodeByte c ++ s) = c :: decode S.value? s := by
  obtain ⟨hhi, hlo⟩ := digits_lt c
  unfold encodeByte
  split_ifs with hspace hkeep
  · rw [List.singleton_append, decode_space, hspace]
  · exact decode_plain (S.keep_plain c hkeep) s
  · show decode S.value? (0x25 :: S.digit _ :: S.digit _ :: s) = _
    rw [decode_escape (S.value_digit _ hhi) (S.value_digit _ hlo), Nat.div_add_mod,
      UInt8.ofNat_toNat]

theorem decode_encode (src : Bytes) : decode S.value? (S.encode src) = src := by
  induction src with
  | nil => rfl
  | cons c src ih => rw [encode_cons, decode_encodeByte, ih]

theorem field_item (f : Bytes × Bytes) : field S.value? (S.item f) = f := by
  have hkey : ∀ c ∈ S.encode f.1, decide (c ≠ 0x3D) = true := fun c hc =>
    decide_eq_true (S.encode_separators hc).2
  have htake : (S.item f).takeWhile (· ≠ 0x3D) = S.encode f.1 := by
    rw [item, List.takeWhile_append_of_pos hkey, List.takeWhile_cons_of_neg (by simp),
      List.append_nil]
  have hdrop : (S.item f).dropWhile (· ≠ 0x3D) = 0x3D :: S.encode f.2 := by
    rw [item, List.dropWhile_append_of_pos hkey, List.dropWhile_cons_of_neg (by simp)]
  rw [field, htake, hdrop, List.drop_one, List.tail_cons, S.decode_encode, S.decode_encode]

theorem item_ne_nil (f : Bytes × Bytes) : S.item f ≠ [] := by
  simp [item]

theorem not_mem_item (f : Bytes × Bytes) : 0x26 ∉ S.item f := by
  intro hmem
  rcases List.mem_append.mp hmem with hkey | hvalue
  · exact (S.encode_separators hkey).1 rfl
  · rcases List.mem_cons.mp hvalue with heq | hvalue
    · exact absurd heq (by decide)
    · exact (S.encode_separators hvalue).1 rfl

/-- A form is read as the fields that it was written of. -/
theorem fields_body {fs : List (Bytes × Bytes)} (h : fs ≠ []) :
    fields S.value? (S.body fs) = fs := by
  have hsplit : (S.body fs).splitOn 0x26 = fs.map S.item := by
    apply List.splitOn_intercalate
    · intro item hitem
      obtain ⟨f, -, rfl⟩ := List.mem_map.mp hitem
      exact S.not_mem_item f
    · simpa using h
  have hall : (fs.map S.item).filter (· ≠ []) = fs.map S.item := by
    apply List.filter_eq_self.mpr
    intro item hitem
    obtain ⟨f, -, rfl⟩ := List.mem_map.mp hitem
    exact decide_eq_true (S.item_ne_nil f)
  rw [fields, hsplit, hall, List.map_map]
  exact List.map_id'' S.field_item fs

end Scheme

end FormData
