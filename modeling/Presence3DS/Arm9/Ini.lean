import Presence3DS.Lib.Decimal

/-! The parser of `.ini` files (`ini.c`), which is built to stop at the first error. -/

namespace Presence3DS.Arm9
open CString
open Decimal (isSpace)

def iniMaxLine : ℕ := 200

def rstrip (s : Bytes) : Bytes := s.rdropWhile isSpace

def lskip (s : Bytes) : Bytes := s.dropWhile isSpace

/-- What stands before the first of `chars` or inline comment, and the rest from there. -/
def findCharsOrComment (chars : Bytes) : Bool → Bytes → Bytes × Bytes
  | _, [] => ([], [])
  | wasSpace, c :: s =>
    if chars.contains c || (wasSpace && c == 0x3B) then ([], c :: s)
    else
      let (before, rest) := findCharsOrComment chars (isSpace c) s
      (c :: before, rest)

/-- `strncpy0` into a buffer of `MAX_SECTION` or `MAX_NAME` bytes. -/
def strncpy0 (s : Bytes) : Bytes := s.take 49

/-- The lines that `ini_reader_string` reads one after another. -/
def iniLines (line : Bytes) : Bytes → List Bytes
  | [] => if line = [] then [] else [line]
  | c :: s =>
    let line := line ++ [c]
    if c = 0x0A ∨ line.length = iniMaxLine - 1 then line :: iniLines [] s else iniLines line s

section Parser
variable {σ : Type*}

/-- What is called with the user's data, a section, a name, a value and the line number. -/
abbrev IniHandler (σ : Type*) := σ → Bytes → Bytes → Bytes → ℕ → Bool × σ

structure IniState (σ : Type*) where
  sectionName : Bytes
  prevName : Bytes
  lineno : ℕ
  error : ℕ
  user : σ

def IniState.fail (s : IniState σ) : IniState σ :=
  if s.error = 0 then { s with error := s.lineno } else s

def IniState.call (handler : IniHandler σ) (s : IniState σ) (name value : Bytes) : IniState σ :=
  let (ok, user) := handler s.user s.sectionName name value s.lineno
  let s := { s with user }
  if ok then s else s.fail

/-- A line that starts with `[`, from there on. -/
def iniSection (s : IniState σ) (start : Bytes) : IniState σ :=
  let (name, rest) := findCharsOrComment [0x5D] false start
  if rest.head? = some 0x5D then { s with sectionName := strncpy0 name, prevName := [] }
  else s.fail

def iniPair (handler : IniHandler σ) (s : IniState σ) (start : Bytes) : IniState σ :=
  let (before, rest) := findCharsOrComment [0x3D, 0x3A] false start
  if rest.head? = some 0x3D ∨ rest.head? = some 0x3A then
    let name := rstrip before
    let value := (findCharsOrComment [] false rest.tail).1
    let s := { s with prevName := strncpy0 name }
    s.call handler name (rstrip (lskip value))
  else s.fail

/-- A line that has been stripped; `indented` where there was white space before it. -/
def iniStart (handler : IniHandler σ) (s : IniState σ) (indented : Bool) : Bytes → IniState σ
  | [] => s
  | c :: rest =>
    if c = 0x3B ∨ c = 0x23 then s
    else if s.prevName ≠ [] ∧ indented then
      -- The line goes on with the last value.
      s.call handler s.prevName (c :: rest)
    else if c = 0x5B then iniSection s rest
    else iniPair handler s (c :: rest)

def iniLine (handler : IniHandler σ) (s : IniState σ) (line : Bytes) : IniState σ :=
  let s := { s with lineno := s.lineno + 1 }
  let bom := s.lineno == 1 && line.take 3 == [0xEF, 0xBB, 0xBF]
  let stripped := rstrip (if bom then line.drop 3 else line)
  let start := lskip stripped
  iniStart handler s (bom || start.length < stripped.length) start

def iniParseStream (handler : IniHandler σ) : IniState σ → List Bytes → IniState σ
  | s, [] => s
  | s, line :: lines =>
    let s := iniLine handler s line
    if s.error ≠ 0 then s else iniParseStream handler s lines

/-- The number of the first line with an error, or 0, and the user's data. -/
def iniParseString (handler : IniHandler σ) (text : Bytes) (user : σ) : ℕ × σ :=
  let s := iniParseStream handler ⟨[], [], 0, 0, user⟩ (iniLines [] (str text))
  (s.error, s.user)

end Parser

theorem iniParseString_invariant {σ : Type*} {handler : IniHandler σ} {P : σ → Prop}
    (hkeep : ∀ user sectionName name value lineno, P user →
      P (handler user sectionName name value lineno).2) (text : Bytes) {user : σ} (h : P user) :
    P (iniParseString handler text user).2 := by
  have hfail : ∀ s : IniState σ, s.fail.user = s.user := by
    intro s
    unfold IniState.fail
    split_ifs <;> rfl
  have hcall : ∀ (s : IniState σ) (name value : Bytes), P s.user →
      P (s.call handler name value).user := by
    intro s name value hs
    unfold IniState.call
    simp only
    split_ifs
    · exact hkeep _ _ _ _ _ hs
    · rw [hfail]
      exact hkeep _ _ _ _ _ hs
  have hstart : ∀ (s : IniState σ) (indented : Bool) (start : Bytes), P s.user →
      P (iniStart handler s indented start).user := by
    intro s indented start hs
    cases start with
    | nil => exact hs
    | cons c rest =>
      rw [iniStart]
      split_ifs
      · exact hs
      · exact hcall _ _ _ hs
      · unfold iniSection
        simp only
        split_ifs
        · exact hs
        · rw [hfail]
          exact hs
      · unfold iniPair
        simp only
        split_ifs
        · exact hcall _ _ _ hs
        · rw [hfail]
          exact hs
  have hstream : ∀ (lines : List Bytes) (s : IniState σ), P s.user →
      P (iniParseStream handler s lines).user := by
    intro lines
    induction lines with
    | nil => exact fun s hs => hs
    | cons line lines ih =>
      intro s hs
      have hline : P (iniLine handler s line).user := hstart _ _ _ hs
      rw [iniParseStream]
      split_ifs
      · exact hline
      · exact ih _ hline
  exact hstream _ _ h

/-! ## Files that a program writes -/

/-- A line of a written file: a comment or blank line, the start of a section, or an option. -/
inductive IniItem
  | note (text : Bytes)
  | header (name : Bytes)
  | setting (name value : Bytes)

namespace IniItem

def text : IniItem → Bytes
  | note text => text
  | header name => 0x5B :: (name ++ [0x5D])
  | setting name value => name ++ [0x20, 0x3D] ++ 0x20 :: value

def line (item : IniItem) : Bytes := item.text ++ [0x0A]

end IniItem

def plainByte (c : UInt8) : Bool :=
  !isSpace c && !([0, 0x23, 0x3A, 0x3B, 0x3D, 0x5B, 0x5D, 0xEF] : Bytes).contains c

def plainName (name : Bytes) : Bool := !name.isEmpty && name.length ≤ 49 && name.all plainByte

def plainNote (text : Bytes) : Bool :=
  (text.isEmpty || text.head? == some 0x3B) && text.length ≤ 198 &&
    text.all fun c => c != 0 && c != 0x0A

/-- A value that is neither trimmed nor cut at a comment. -/
structure PlainValue (value : Bytes) : Prop where
  bytes : ∀ c ∈ value, c ≠ 0 ∧ c ≠ 0x0A ∧ c ≠ 0x3B
  head : ∀ c ∈ value.head?, isSpace c = false
  last : ∀ c ∈ value.getLast?, isSpace c = false

def IniItem.Plain : IniItem → Prop
  | note text => plainNote text = true
  | header name => plainName name = true
  | setting name value => plainName name = true ∧ PlainValue value ∧ value.length ≤ 146

theorem plainByte_iff (c : UInt8) : plainByte c = true ↔ isSpace c = false ∧ c ≠ 0 ∧ c ≠ 0x23 ∧
    c ≠ 0x3A ∧ c ≠ 0x3B ∧ c ≠ 0x3D ∧ c ≠ 0x5B ∧ c ≠ 0x5D ∧ c ≠ 0xEF := by
  simp [plainByte]

theorem plainName_iff (name : Bytes) : plainName name = true ↔
    name ≠ [] ∧ name.length ≤ 49 ∧ ∀ c ∈ name, plainByte c = true := by
  simp [plainName, and_assoc]

theorem rstrip_concat_space {s : Bytes} {c : UInt8} (h : isSpace c = true) :
    rstrip (s ++ [c]) = rstrip s :=
  List.rdropWhile_concat_pos _ _ _ h

theorem rstrip_concat {s : Bytes} {c : UInt8} (h : isSpace c = false) :
    rstrip (s ++ [c]) = s ++ [c] :=
  List.rdropWhile_concat_neg _ _ _ (Bool.eq_false_iff.mp h)

theorem rstrip_of_last {s : Bytes} (h : ∀ c ∈ s.getLast?, isSpace c = false) : rstrip s = s := by
  rcases List.eq_nil_or_concat s with rfl | ⟨s, c, rfl⟩
  · rfl
  · rw [List.concat_eq_append] at h ⊢
    exact rstrip_concat (h c (by simp))

theorem rstrip_cons {c : UInt8} {s : Bytes} (h : isSpace c = false) :
    rstrip (c :: s) = c :: rstrip s :=
  rdropWhile_append_cons h [] s

theorem lskip_cons {c : UInt8} {s : Bytes} (h : isSpace c = false) : lskip (c :: s) = c :: s :=
  List.dropWhile_cons_of_neg (Bool.eq_false_iff.mp h)

theorem lskip_of_head {s : Bytes} (h : ∀ c ∈ s.head?, isSpace c = false) : lskip s = s := by
  cases s with
  | nil => rfl
  | cons c s => exact lskip_cons (h c rfl)

theorem findCharsOrComment_stop {chars t : Bytes} {c : UInt8} (s : Bytes) (hc : c ∈ chars)
    (ht : ∀ d ∈ t, d ∉ chars ∧ d ≠ 0x3B) (wasSpace : Bool) :
    findCharsOrComment chars wasSpace (t ++ c :: s) = (t, c :: s) := by
  induction t generalizing wasSpace with
  | nil => simp [findCharsOrComment, hc]
  | cons d t ih =>
    obtain ⟨hd, ht⟩ := List.forall_mem_cons.mp ht
    simp [findCharsOrComment, hd, ih ht]

theorem findCharsOrComment_all {s : Bytes} (h : ∀ d ∈ s, d ≠ 0x3B) (wasSpace : Bool) :
    findCharsOrComment [] wasSpace s = (s, []) := by
  induction s generalizing wasSpace with
  | nil => rfl
  | cons d s ih =>
    obtain ⟨hd, hs⟩ := List.forall_mem_cons.mp h
    simp [findCharsOrComment, hd, ih hs]

theorem iniLines_cons {t : Bytes} (h : ∀ c ∈ t, c ≠ 0x0A) (line s : Bytes)
    (hlength : line.length + t.length ≤ 198) :
    iniLines line (t ++ 0x0A :: s) = (line ++ t ++ [0x0A]) :: iniLines [] s := by
  induction t generalizing line with
  | nil => simp [iniLines]
  | cons c t ih =>
    obtain ⟨hc, ht⟩ := List.forall_mem_cons.mp h
    rw [List.length_cons] at hlength
    have hroom : (line ++ [c]).length ≠ iniMaxLine - 1 := by
      rw [List.length_append, List.length_singleton, iniMaxLine]
      omega
    rw [List.cons_append, iniLines]
    simp only [hc, hroom, or_self, if_false]
    rw [ih ht]
    · simp
    · rw [List.length_append, List.length_singleton]
      omega

theorem IniItem.Plain.text_bytes {item : IniItem} (h : item.Plain) :
    (∀ c ∈ item.text, c ≠ 0 ∧ c ≠ 0x0A) ∧ item.text.length ≤ 198 := by
  have hname : ∀ {name : Bytes}, plainName name = true →
      (∀ c ∈ name, c ≠ 0 ∧ c ≠ 0x0A) ∧ name.length ≤ 49 := by
    intro name hname
    obtain ⟨-, hlength, hbytes⟩ := (plainName_iff name).mp hname
    refine ⟨fun c hc => ?_, hlength⟩
    obtain ⟨hspace, hzero, -⟩ := (plainByte_iff c).mp (hbytes c hc)
    refine ⟨hzero, ?_⟩
    rintro rfl
    cases hspace
  cases item with
  | note text =>
    have hnote : plainNote text = true := h
    simp only [plainNote, Bool.and_eq_true, List.all_eq_true, bne_iff_ne,
      decide_eq_true_eq] at hnote
    exact ⟨hnote.2, hnote.1.2⟩
  | header name =>
    obtain ⟨hbytes, hlength⟩ := hname h
    constructor
    · intro c hc
      rcases List.mem_cons.mp hc with rfl | hc
      · decide
      · rcases List.mem_append.mp hc with hc | hc
        · exact hbytes c hc
        · rw [List.mem_singleton.mp hc]
          decide
    · simp only [IniItem.text, List.length_cons, List.length_append, List.length_nil]
      omega
  | setting name value =>
    obtain ⟨hname', hvalue, hroom⟩ := h
    obtain ⟨hbytes, hlength⟩ := hname hname'
    constructor
    · intro c hc
      simp only [IniItem.text, List.mem_append, List.mem_cons, List.not_mem_nil, or_false] at hc
      rcases hc with (hc | rfl | rfl) | rfl | hc
      · exact hbytes c hc
      · decide
      · decide
      · decide
      · exact ⟨(hvalue.bytes c hc).1, (hvalue.bytes c hc).2.1⟩
    · simp only [IniItem.text, List.length_cons, List.length_append, List.length_nil]
      omega

section Reading
variable {σ : Type*} (handler : IniHandler σ)

/-- What a line of a written file does to the parser. -/
def IniItem.read (s : IniState σ) : IniItem → IniState σ
  | note _ => { s with lineno := s.lineno + 1 }
  | header name => { s with lineno := s.lineno + 1, sectionName := name, prevName := [] }
  | setting name value =>
    { s with lineno := s.lineno + 1, prevName := name }.call handler name value

theorem iniLine_cons (s : IniState σ) {c : UInt8} {rest line : Bytes}
    (hc : isSpace c = false ∧ c ≠ 0x23 ∧ c ≠ 0x3B ∧ c ≠ 0xEF)
    (hhead : line.head? = some c) (hline : rstrip line = c :: rest) :
    iniLine handler s line =
      if c = 0x5B then iniSection { s with lineno := s.lineno + 1 } rest
      else iniPair handler { s with lineno := s.lineno + 1 } (c :: rest) := by
  obtain ⟨hspace, hhash, hsemicolon, hmark⟩ := hc
  have hbom : (line.take 3 == [0xEF, 0xBB, 0xBF]) = false := by
    cases line with
    | nil => cases hhead
    | cons d line =>
      rw [List.take_succ_cons, beq_eq_false_iff_ne]
      intro heq
      exact hmark ((Option.some.inj hhead).symm.trans (List.head_eq_of_cons_eq heq))
  simp [iniLine, iniStart, hbom, hline, lskip_cons hspace, hhash, hsemicolon]

theorem iniLine_note (s : IniState σ) {text : Bytes} (h : plainNote text = true) :
    iniLine handler s (IniItem.note text).line = (IniItem.note text).read handler s := by
  have hnote : text = [] ∨ text.head? = some 0x3B := by
    simp only [plainNote, Bool.and_eq_true, Bool.or_eq_true, List.isEmpty_iff, beq_iff_eq] at h
    exact h.1.1
  rcases hnote with rfl | hhead
  · have hstrip : rstrip [0x0A] = [] := rstrip_concat_space (s := []) (by decide)
    simp [iniLine, iniStart, IniItem.line, IniItem.text, IniItem.read, hstrip, lskip]
  · obtain ⟨c, rest, rfl⟩ := List.exists_cons_of_ne_nil (List.head?_eq_some_iff.mp hhead |>.elim
      fun _ h => h ▸ List.cons_ne_nil _ _)
    cases hhead
    have hspace : isSpace 0x3B = false := by decide
    simp [iniLine, iniStart, IniItem.line, IniItem.text, IniItem.read, rstrip_cons hspace,
      lskip_cons hspace]

theorem iniLine_header (s : IniState σ) {name : Bytes} (h : plainName name = true) :
    iniLine handler s (IniItem.header name).line = (IniItem.header name).read handler s := by
  obtain ⟨-, hlength, hbytes⟩ := (plainName_iff name).mp h
  have hline : rstrip (IniItem.header name).line = 0x5B :: (name ++ [0x5D]) := by
    rw [IniItem.line, IniItem.text, rstrip_concat_space (by decide), ← List.cons_append,
      rstrip_concat (by decide)]
  have hfind : findCharsOrComment [0x5D] false (name ++ [0x5D]) = (name, [0x5D]) := by
    apply findCharsOrComment_stop _ (by simp)
    intro c hc
    obtain ⟨-, -, -, -, hsemicolon, -, -, hclose, -⟩ := (plainByte_iff c).mp (hbytes c hc)
    exact ⟨by simpa using hclose, hsemicolon⟩
  rw [iniLine_cons handler s (by decide) rfl hline, if_pos rfl, iniSection, hfind]
  simp [IniItem.read, strncpy0, List.take_of_length_le hlength]

theorem iniLine_setting (s : IniState σ) {name value : Bytes} (hname : plainName name = true)
    (hvalue : PlainValue value) :
    iniLine handler s (IniItem.setting name value).line =
      (IniItem.setting name value).read handler s := by
  obtain ⟨hne, hlength, hbytes⟩ := (plainName_iff name).mp hname
  have hplain := fun c hc => (plainByte_iff c).mp (hbytes c hc)
  -- The blank after the equals sign is stripped where the value is empty.
  obtain ⟨w, hw, hskip⟩ : ∃ w, rstrip (IniItem.setting name value).line =
      name ++ [0x20] ++ 0x3D :: w ∧ (∀ d ∈ w, d ≠ 0x3B) ∧ lskip w = value := by
    rcases List.eq_nil_or_concat value with rfl | ⟨value, d, rfl⟩
    · refine ⟨[], ?_, by simp, rfl⟩
      rw [IniItem.line, IniItem.text, rstrip_concat_space (by decide),
        rstrip_concat_space (by decide), List.append_cons name, rstrip_concat (by decide)]
    · rw [List.concat_eq_append] at hvalue ⊢
      refine ⟨0x20 :: (value ++ [d]), ?_, ?_, ?_⟩
      · rw [IniItem.line, IniItem.text, rstrip_concat_space (by decide), ← List.cons_append,
          ← List.append_assoc, rstrip_concat (hvalue.last d (by simp))]
        simp
      · intro e he
        rcases List.mem_cons.mp he with rfl | he
        · decide
        · exact (hvalue.bytes e he).2.2
      · rw [lskip, List.dropWhile_cons_of_pos (by decide)]
        exact lskip_of_head hvalue.head
  obtain ⟨c, rest, hcons⟩ := List.exists_cons_of_ne_nil hne
  obtain ⟨hspace, -, hhash, -, hsemicolon, -, hopen, -, hmark⟩ := hplain c (hcons ▸ by simp)
  have hfind : findCharsOrComment [0x3D, 0x3A] false (name ++ [0x20] ++ 0x3D :: w) =
      (name ++ [0x20], 0x3D :: w) := by
    apply findCharsOrComment_stop _ (by simp)
    intro d hd
    rcases List.mem_append.mp hd with hd | hd
    · obtain ⟨-, -, -, hcolon, hsemicolon, hequals, -⟩ := hplain d hd
      exact ⟨by simp [hequals, hcolon], hsemicolon⟩
    · rw [List.mem_singleton.mp hd]
      decide
  have hrstrip : rstrip (name ++ [0x20]) = name := by
    rw [rstrip_concat_space (by decide)]
    exact rstrip_of_last fun d hd => (hplain d (List.mem_of_mem_getLast? hd)).1
  have hline : rstrip (IniItem.setting name value).line = c :: (rest ++ [0x20] ++ 0x3D :: w) := by
    rw [hw, hcons]
    rfl
  rw [iniLine_cons handler s ⟨hspace, hhash, hsemicolon, hmark⟩
    (by simp [IniItem.line, IniItem.text, hcons]) hline, if_neg hopen]
  show iniPair handler _ (c :: rest ++ [0x20] ++ 0x3D :: w) = _
  rw [← hcons, iniPair, hfind]
  simp [IniItem.read, hrstrip, findCharsOrComment_all hskip.1, hskip.2, rstrip_of_last hvalue.last,
    strncpy0, List.take_of_length_le hlength]

theorem iniLine_line (s : IniState σ) {item : IniItem} (h : item.Plain) :
    iniLine handler s item.line = item.read handler s := by
  cases item with
  | note text => exact iniLine_note handler s h
  | header name => exact iniLine_header handler s h
  | setting name value => exact iniLine_setting handler s h.1 h.2.1

theorem iniParseString_text (items : List IniItem) (h : ∀ item ∈ items, item.Plain) (user : σ) :
    iniParseString handler (items.flatMap IniItem.line) user =
      (let s := iniParseStream handler ⟨[], [], 0, 0, user⟩ (items.map IniItem.line)
       (s.error, s.user)) := by
  have hlines : iniLines [] (items.flatMap IniItem.line) = items.map IniItem.line := by
    induction items with
    | nil => rfl
    | cons item items ih =>
      obtain ⟨hitem, hitems⟩ := List.forall_mem_cons.mp h
      obtain ⟨hbytes, hlength⟩ := hitem.text_bytes
      rw [List.flatMap_cons, IniItem.line, List.append_assoc, List.singleton_append,
        iniLines_cons (fun c hc => (hbytes c hc).2) _ _ (by simpa using hlength), ih hitems]
      rfl
  have hstr : str (items.flatMap IniItem.line) = items.flatMap IniItem.line := by
    apply List.takeWhile_eq_self_iff.mpr
    intro c hc
    obtain ⟨item, hitem, hc⟩ := List.mem_flatMap.mp hc
    rcases List.mem_append.mp hc with hc | hc
    · exact decide_eq_true ((h item hitem).text_bytes.1 c hc).1
    · rw [List.mem_singleton.mp hc]
      decide
  rw [iniParseString, hstr, hlines]

/-- The options of a written file, each with its section. -/
def iniSettings (sectionName : Bytes) : List IniItem → List (Bytes × Bytes × Bytes)
  | [] => []
  | .note _ :: items => iniSettings sectionName items
  | .header name :: items => iniSettings name items
  | .setting name value :: items => (sectionName, name, value) :: iniSettings sectionName items

/-- A handler that takes some options and, where it does not take one, notes the line. -/
def iniHandlerOf (accept : σ → Bytes × Bytes × Bytes → Option σ) (reject : σ → ℕ → σ) :
    IniHandler σ := fun user sectionName name value lineno =>
  match accept user (sectionName, name, value) with
  | some user => (true, user)
  | none => (false, reject user lineno)

theorem iniParseStream_settings (accept : σ → Bytes × Bytes × Bytes → Option σ)
    (reject : σ → ℕ → σ) (items : List IniItem) (h : ∀ item ∈ items, item.Plain)
    (s : IniState σ) (hs : s.error = 0) :
    let t := iniParseStream (iniHandlerOf accept reject) s (items.map IniItem.line)
    match (iniSettings s.sectionName items).foldlM accept s.user with
    | some user => t.error = 0 ∧ t.user = user
    | none => ∃ user lineno, t.error = lineno ∧ lineno ≠ 0 ∧ t.user = reject user lineno := by
  induction items generalizing s with
  | nil => exact ⟨hs, rfl⟩
  | cons item items ih =>
    obtain ⟨hitem, hitems⟩ := List.forall_mem_cons.mp h
    simp only [List.map_cons, iniParseStream, iniLine_line _ _ hitem]
    cases item with
    | note text =>
      rw [if_neg (by simpa [IniItem.read] using hs)]
      exact ih hitems ((IniItem.note text).read _ s) hs
    | header name =>
      rw [if_neg (by simpa [IniItem.read] using hs)]
      exact ih hitems ((IniItem.header name).read _ s) hs
    | setting name value =>
      rw [iniSettings, List.foldlM_cons]
      cases haccept : accept s.user (s.sectionName, name, value) with
      | some user =>
        have hread : (IniItem.setting name value).read (iniHandlerOf accept reject) s =
            { s with lineno := s.lineno + 1, prevName := name, user } := by
          simp [IniItem.read, IniState.call, iniHandlerOf, haccept]
        rw [hread, if_neg (by simpa using hs)]
        exact ih hitems { s with lineno := s.lineno + 1, prevName := name, user } hs
      | none =>
        have hread : (IniItem.setting name value).read (iniHandlerOf accept reject) s =
            { s with lineno := s.lineno + 1, prevName := name, error := s.lineno + 1,
                     user := reject s.user (s.lineno + 1) } := by
          simp [IniItem.read, IniState.call, IniState.fail, iniHandlerOf, haccept, hs]
        rw [hread, if_pos (Nat.succ_ne_zero _)]
        exact ⟨s.user, s.lineno + 1, rfl, Nat.succ_ne_zero _, rfl⟩

end Reading

end Presence3DS.Arm9
