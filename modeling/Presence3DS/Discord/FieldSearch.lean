import Presence3DS.Discord.Script
import Presence3DS.Lib.Buffer
import Presence3DS.Lib.Loops

/-! The search of `discord_parse_field` pass by pass, and what it leaves in the buffer of its
caller. -/

namespace Presence3DS.Discord
open Buffer CString Loops

/-- `strstr` from a place on, as a place of the text. -/
def strstrFrom (text field : Bytes) (p : ℕ) : Option ℕ :=
  (List.range' p (text.length + 1 - p)).find? fun i => field.isPrefixOf (text.drop i)

/-- The byte before a place. -/
def before (text : Bytes) (i : ℕ) : Option UInt8 := if i = 0 then none else text[i - 1]?

/-- The beginning of the text or a place behind a separator. -/
def boundaryAt (text : Bytes) (i : ℕ) : Bool := isBoundary (before text i)

/-- The loop that copies a value, and the terminator behind it. -/
def copyValue (maxLen : ℕ) : ℕ → Bytes → BufferM UInt8 Bool
  | i, [] => do
    write i [0]
    return decide (0 < i)
  | i, c :: p =>
    if i < maxLen - 1 ∧ isSeparator c = false then do
      write i [c]
      copyValue maxLen (i + 1) p
    else do
      write i [0]
      return decide (0 < i)

/-- A pass of the search from `p`, which is done with what is left to do. -/
def parseFieldPass (text field : Bytes) (maxLen p : ℕ) : Pass ℕ (BufferM UInt8 Bool) :=
  match strstrFrom text field p with
  | none => .done (pure false)
  | some i =>
    if boundaryAt text i && text[i + field.length]? = some 0x3D then
      .done (copyValue maxLen 0 (text.drop (i + field.length + 1)))
    else .next (i + field.length)

/-! ## Occurrences -/

/-- The key of a field and its `=` are at a place of the text. -/
def Occurs (text field : Bytes) (i : ℕ) : Prop :=
  boundaryAt text i = true ∧ (field ++ [0x3D]) <+: text.drop i

def FirstOccurs (text field : Bytes) (i : ℕ) : Prop :=
  Occurs text field i ∧ ∀ j < i, ¬Occurs text field j

def untilSeparator (p : Bytes) : Bytes := p.takeWhile fun c => isSeparator c = false

/-- The value behind the key at a place. -/
def valueAt (text field : Bytes) (i : ℕ) : Bytes :=
  untilSeparator (text.drop (i + field.length + 1))

theorem FirstOccurs.unique {text field : Bytes} {i j : ℕ} (hi : FirstOccurs text field i)
    (hj : FirstOccurs text field j) : i = j := by
  apply Nat.le_antisymm
  · exact Nat.le_of_not_lt fun hlt => hi.2 j hlt hj.1
  · exact Nat.le_of_not_lt fun hlt => hj.2 i hlt hi.1

theorem occurs_iff {text field : Bytes} {i : ℕ} (hkey : field <+: text.drop i) :
    Occurs text field i ↔
      (boundaryAt text i && text[i + field.length]? = some 0x3D) = true := by
  obtain ⟨rest, hrest⟩ := hkey
  have hhead : text[i + field.length]? = rest.head? := by
    rw [← List.getElem?_drop, ← hrest, List.getElem?_append_right le_rfl, Nat.sub_self,
      List.head?_eq_getElem?]
  rw [Bool.and_eq_true, decide_eq_true_eq, hhead, Occurs, ← hrest,
    List.prefix_append_right_inj]
  apply and_congr_right
  intro _
  cases rest with
  | nil => simp
  | cons c rest => simp [List.cons_prefix_cons, eq_comm]

variable {text field : Bytes} {p : ℕ}

theorem strstrFrom_some {i : ℕ} (h : strstrFrom text field p = some i) :
    p ≤ i ∧ field <+: text.drop i ∧ ∀ j, p ≤ j → j < i → ¬field <+: text.drop j := by
  obtain ⟨hfound, hmem, hbefore⟩ := List.find?_range'_eq_some.mp h
  refine ⟨(List.mem_range'_1.mp hmem).1, List.isPrefixOf_iff_prefix.mp hfound,
    fun j hp hj hj' => ?_⟩
  have hno := hbefore j hp hj
  rw [List.isPrefixOf_iff_prefix.mpr hj'] at hno
  cases hno

theorem strstrFrom_none (hfield : field ≠ []) (h : strstrFrom text field p = none) {j : ℕ}
    (hj : p ≤ j) : ¬field <+: text.drop j := by
  intro hkey
  by_cases hin : j ≤ text.length
  · have hnone := List.find?_eq_none.mp h j (List.mem_range'_1.mpr ⟨hj, by omega⟩)
    exact hnone (List.isPrefixOf_iff_prefix.mpr hkey)
  · rw [List.drop_of_length_le (Nat.le_of_not_le hin)] at hkey
    exact hfield (List.prefix_nil.mp hkey)

theorem not_occurs_inside (hplain : ∀ c ∈ field, isSeparator c = false) {i j : ℕ}
    (hkey : field <+: text.drop i) (hlow : i < j) (hhigh : j < i + field.length) :
    ¬Occurs text field j := by
  rintro ⟨hboundary, -⟩
  obtain ⟨rest, hrest⟩ := hkey
  obtain ⟨k, rfl⟩ := Nat.exists_eq_add_of_lt hlow
  have hk : k < field.length := by omega
  have hbefore : text[i + k + 1 - 1]? = some field[k] := by
    rw [Nat.add_sub_cancel, ← List.getElem?_drop, ← hrest, List.getElem?_append_left hk,
      List.getElem?_eq_getElem hk]
  rw [boundaryAt, before, if_neg (Nat.succ_ne_zero _), hbefore] at hboundary
  have hsep := hplain _ (List.getElem_mem hk)
  exact Bool.false_ne_true (hsep.symm.trans hboundary)

/-! ## The search -/

/-- What is known before a pass: the place is one of the text, and no field begins before it. -/
def Searched (text field : Bytes) (p : ℕ) : Prop := p ≤ text.length ∧ ∀ j < p, ¬Occurs text field j

theorem Occurs.key {i : ℕ} (h : Occurs text field i) : field <+: text.drop i :=
  (List.prefix_append field [0x3D]).trans h.2

theorem Searched.found {i : ℕ} (h : Searched text field p)
    (hfound : strstrFrom text field p = some i) : Searched text field i := by
  obtain ⟨hp, hkey, hbetween⟩ := strstrFrom_some hfound
  refine ⟨?_, fun j hj => ?_⟩
  · have hlast := List.mem_range'_1.mp (List.find?_range'_eq_some.mp hfound).2.1
    have hin := h.1
    omega
  · by_cases hold : j < p
    · exact h.2 j hold
    · exact fun hoccurs => hbetween j (Nat.not_lt.mp hold) hj hoccurs.key

theorem Searched.skip (hplain : ∀ c ∈ field, isSeparator c = false) (h : Searched text field p)
    (hkey : field <+: text.drop p) (hhere : ¬Occurs text field p) :
    Searched text field (p + field.length) := by
  have hin := h.1
  have hlength := hkey.length_le
  rw [List.length_drop] at hlength
  refine ⟨by omega, fun j hj => ?_⟩
  rcases Nat.lt_trichotomy j p with hlow | rfl | hhigh
  · exact h.2 j hlow
  · exact hhere
  · exact not_occurs_inside hplain hkey hhigh hj

theorem searched_next (hfield : field ≠ []) (hplain : ∀ c ∈ field, isSeparator c = false)
    {maxLen p q : ℕ} (h : Searched text field p)
    (hnext : parseFieldPass text field maxLen p = .next q) :
    Searched text field q ∧ text.length - q < text.length - p := by
  unfold parseFieldPass at hnext
  cases hfound : strstrFrom text field p with
  | none =>
    rw [hfound] at hnext
    cases hnext
  | some i =>
    obtain ⟨hp, hkey, -⟩ := strstrFrom_some hfound
    simp only [hfound] at hnext
    split_ifs at hnext with hhere
    obtain rfl := Pass.next.inj hnext
    have hq := (h.found hfound).skip hplain hkey fun hoccurs => hhere ((occurs_iff hkey).mp hoccurs)
    have hpos : 0 < field.length := List.length_pos_iff.mpr hfield
    have hin := hq.1
    exact ⟨hq, by omega⟩

theorem parseFieldPass_returns (hfield : field ≠ [])
    (hplain : ∀ c ∈ field, isSeparator c = false) (maxLen : ℕ) :
    ∃ program, Returns (parseFieldPass text field maxLen) 0 program ∧
      ((∀ i, ¬Occurs text field i) ∧ program = pure false ∨
        ∃ i, FirstOccurs text field i ∧
          program = copyValue maxLen 0 (text.drop (i + field.length + 1))) := by
  have hstart : Searched text field 0 := ⟨Nat.zero_le _, fun j hj => absurd hj (Nat.not_lt_zero j)⟩
  have hall : Guarded (parseFieldPass text field maxLen) (fun _ => True) 0 := fun _ _ => trivial
  obtain ⟨program, hreturns⟩ := returns_of_decreasing Nat.lt_wfRel.wf (text.length - ·)
    (fun p q hp _ hnext => searched_next hfield hplain hp hnext) hstart hall
  refine ⟨program, hreturns, ?_⟩
  obtain ⟨p, hreach, hdone⟩ := hreturns
  have hp : Searched text field p := invariant_of_guarded
    (fun p q hp _ hnext => (searched_next hfield hplain hp hnext).1) hstart hall hreach
  unfold parseFieldPass at hdone
  cases hfound : strstrFrom text field p with
  | none =>
    left
    simp only [hfound] at hdone
    refine ⟨fun i hoccurs => ?_, (Pass.done.inj hdone).symm⟩
    by_cases hold : i < p
    · exact hp.2 i hold hoccurs
    · exact strstrFrom_none hfield hfound (Nat.not_lt.mp hold) hoccurs.key
  | some i =>
    right
    obtain ⟨-, hkey, -⟩ := strstrFrom_some hfound
    simp only [hfound] at hdone
    split_ifs at hdone with hhere
    exact ⟨i, ⟨(occurs_iff hkey).mpr hhere, (hp.found hfound).2⟩, (Pass.done.inj hdone).symm⟩

/-! ## The copy -/

theorem write_end {front back : Bytes} (hback : back ≠ []) (c : UInt8) :
    result (write front.length [c]) (front ++ back) = (.ok (), front ++ [c] ++ back.tail) := by
  have hpos : 0 < back.length := List.length_pos_iff.mpr hback
  rw [result_write (by rw [List.length_append, List.length_singleton]; omega), splice_append,
    List.length_singleton, List.drop_one]

/-- The buffer has the text with a terminator behind it, and whether there is any is returned. -/
def Copied (maxLen : ℕ) (text : Bytes) (r : Except Stop Bool × Bytes) : Prop :=
  r.1 = .ok (decide (text ≠ [])) ∧ r.2.length = maxLen ∧ ∃ rest, r.2 = text ++ 0 :: rest

theorem copied_stop {maxLen : ℕ} {front back : Bytes} (hne : back ≠ [])
    (hlen : front.length + back.length = maxLen) :
    Copied maxLen front (result (do write front.length [0]; return decide (0 < front.length))
      (front ++ back)) := by
  rw [result_bind_ok (write_end hne 0), result_pure]
  refine ⟨?_, ?_, back.tail, (List.append_cons _ _ _).symm⟩
  · simp only [List.length_pos_iff]
  · have hpos : 0 < back.length := List.length_pos_iff.mpr hne
    rw [List.length_append, List.length_append, List.length_singleton, List.length_tail]
    omega

theorem untilSeparator_cons {c : UInt8} (h : isSeparator c = false) (p : Bytes) :
    untilSeparator (c :: p) = c :: untilSeparator p :=
  List.takeWhile_cons_of_pos (by simpa using h)

theorem untilSeparator_cons_separator {c : UInt8} (h : ¬isSeparator c = false) (p : Bytes) :
    untilSeparator (c :: p) = [] :=
  List.takeWhile_cons_of_neg (by simpa using h)

theorem copyValue_spec {maxLen : ℕ} (hmax : 0 < maxLen) (p : Bytes) {front back : Bytes}
    (hfront : front.length ≤ maxLen - 1) (hlen : front.length + back.length = maxLen) :
    Copied maxLen ((front ++ untilSeparator p).take (maxLen - 1))
      (result (copyValue maxLen front.length p) (front ++ back)) := by
  have hne : ∀ {front back : Bytes}, front.length ≤ maxLen - 1 →
      front.length + back.length = maxLen → back ≠ [] :=
    fun hfront hlen => List.ne_nil_of_length_pos (by omega)
  induction p generalizing front back with
  | nil =>
    rw [untilSeparator, List.takeWhile_nil, List.append_nil, List.take_of_length_le hfront]
    exact copied_stop (hne hfront hlen) hlen
  | cons c p ih =>
    rw [copyValue]
    split_ifs with hgo
    · have hback := List.length_pos_iff.mpr (hne hfront hlen)
      have hlonger : (front ++ [c]).length = front.length + 1 := List.length_append
      rw [result_bind_ok (write_end (hne hfront hlen) c), untilSeparator_cons hgo.2,
        List.append_cons, ← hlonger]
      apply ih
      · omega
      · rw [hlonger, List.length_tail]
        omega
    · have hkept : (front ++ untilSeparator (c :: p)).take (maxLen - 1) = front := by
        rcases not_and_or.mp hgo with hfull | hsep
        · exact List.take_left' (by omega)
        · rw [untilSeparator_cons_separator hsep, List.append_nil, List.take_of_length_le hfront]
      rw [hkept]
      exact copied_stop (hne hfront hlen) hlen

/-! ## The field -/

/-- The search returns; it succeeds exactly where the first field with the key has a value, which
then is in the caller's buffer, cut to the room there and with its terminator. -/
theorem parseField_extracts (resp field : Bytes) (maxLen : ℕ) (hfield : field ≠ [])
    (hplain : ∀ c ∈ field, isSeparator c = false) (hmax : 2 ≤ maxLen) (value : Bytes)
    (hvalue : value.length = maxLen) :
    ∃ program found value',
      Returns (parseFieldPass (str resp) field maxLen) 0 program ∧
        result program value = (.ok found, value') ∧ value'.length = maxLen ∧
        (found = true ↔ ∃ i, FirstOccurs (str resp) field i ∧ valueAt (str resp) field i ≠ []) ∧
        ∀ i, FirstOccurs (str resp) field i → ∃ rest,
          value' = (valueAt (str resp) field i).take (maxLen - 1) ++ 0 :: rest := by
  obtain ⟨program, hreturns, ⟨hnone, rfl⟩ | ⟨i, hfirst, rfl⟩⟩ :=
    @parseFieldPass_returns (str resp) field hfield hplain maxLen
  · refine ⟨_, false, value, hreturns, rfl, hvalue, ⟨fun h => absurd h Bool.false_ne_true, ?_⟩,
      fun i hfirst => absurd hfirst.1 (hnone i)⟩
    rintro ⟨i, hfirst, -⟩
    exact absurd hfirst.1 (hnone i)
  · have hcopied := @copyValue_spec maxLen (by omega)
      ((str resp).drop (i + field.length + 1)) [] value (Nat.zero_le _)
      ((Nat.zero_add _).trans hvalue)
    obtain ⟨hfound, hlength, hrest⟩ := hcopied
    refine ⟨_, _, _, hreturns, Prod.ext hfound rfl, hlength, ?_, fun j hj => ?_⟩
    · rw [decide_eq_true_eq, ne_eq, List.take_eq_nil_iff, not_or]
      constructor
      · exact fun h => ⟨i, hfirst, h.2⟩
      · rintro ⟨j, hj, hne⟩
        rw [hj.unique hfirst] at hne
        exact ⟨by omega, hne⟩
    · rw [hj.unique hfirst]
      exact hrest

/-- A reply with a key that ends like the one that is asked for. -/
def serverReply : Bytes := ascii "server=9&ver=1.2".toList

def verKey : Bytes := ascii "ver".toList

theorem parseField_extracts_version :
    ∃ program found value',
      Returns (parseFieldPass (str serverReply) verKey 4) 0 program ∧
        result program [9, 9, 9, 9] = (.ok found, value') ∧ value'.length = 4 ∧
        (found = true ↔
          ∃ i, FirstOccurs (str serverReply) verKey i ∧ valueAt (str serverReply) verKey i ≠ []) ∧
        ∀ i, FirstOccurs (str serverReply) verKey i → ∃ rest,
          value' = (valueAt (str serverReply) verKey i).take (4 - 1) ++ 0 :: rest :=
  parseField_extracts serverReply verKey 4 (by decide +kernel) (by decide +kernel) (by decide)
    [9, 9, 9, 9] rfl

/-! ## The field that the requests read -/

end Presence3DS.Discord
