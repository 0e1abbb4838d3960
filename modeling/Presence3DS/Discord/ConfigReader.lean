import Presence3DS.Discord.Session

/-! The reader of configuration files (`config_reader.c`), which hands the lines `KEY=VALUE` at the
beginning of a file to a handler. -/

namespace Presence3DS.Discord
open CString

/-- Of the letters of ASCII. -/
def toLower (c : UInt8) : UInt8 := if 0x41 ≤ c && c ≤ 0x5A then c + 0x20 else c

/-- `strcasecmp(a, b) == 0` -/
def strcasecmpEq (a b : Bytes) : Bool := (str a).map toLower == (str b).map toLower

/-- The tokens that `strtok_r` finds one after the other. -/
def strtok (delim : UInt8) (s : Bytes) : List Bytes := ((str s).splitOn delim).filter (· ≠ [])

/-- A space or a tab. -/
def isBlank (c : UInt8) : Bool := c = 0x20 || c = 0x09

def isLineEnd (c : UInt8) : Bool := c = 0x0D || c = 0x0A || isBlank c

/-- The key and the value of a line, unless it is a comment or has no `=`. -/
def keyValue (line : Bytes) : Option (Bytes × Bytes) :=
  if line.headD 0 = 0x23 ∨ line.headD 0 = 0 then none
  else if 0x3D ∈ line then
    some ((line.takeWhile (· ≠ 0x3D)).rdropWhile isBlank,
      (line.dropWhile (· ≠ 0x3D)).tail.rdropWhile isLineEnd)
  else none

variable {σ : Type*}

/-- The handler returns whether it is to be called again. -/
def handleLines (handler : σ → Bytes → Bytes → σ × Bool) : σ → List Bytes → σ
  | s, [] => s
  | s, line :: lines =>
    match keyValue line with
    | none => handleLines handler s lines
    | some (key, value) =>
      let (s, continues) := handler s key value
      if continues then handleLines handler s lines else s

/-- `ConfigReader_Parse`, of a file that could be opened and read. -/
def configReaderParse (handler : σ → Bytes → Bytes → σ × Bool) (s : σ) (file : Bytes) : σ :=
  handleLines handler s (strtok 0x0A (file.take 255))

/-! ## What is read -/

theorem strtok_cons {line rest : Bytes} (hline : ∀ c ∈ line, c ≠ 0 ∧ c ≠ 0x0A) (hne : line ≠ []) :
    strtok 0x0A (line ++ 0x0A :: rest) = line :: strtok 0x0A rest := by
  have hstr : str (line ++ 0x0A :: rest) = line ++ 0x0A :: str rest := by
    unfold str
    rw [List.takeWhile_append_of_pos fun c hc => by simpa using (hline c hc).1,
      List.takeWhile_cons_of_pos (by decide)]
  have hsplit : (line ++ 0x0A :: str rest).splitOn 0x0A = line :: (str rest).splitOn 0x0A :=
    List.splitOn_append_cons_self_of_not_mem (fun hmem => (hline _ hmem).2 rfl) _
  unfold strtok
  rw [hstr, hsplit, List.filter_cons_of_pos (by simpa using hne)]

theorem strtok_lines {lines : List Bytes} (h : ∀ line ∈ lines, (∀ c ∈ line, c ≠ 0 ∧ c ≠ 0x0A) ∧
    line ≠ []) (rest : Bytes) :
    strtok 0x0A ((lines.map (· ++ [0x0A])).flatten ++ rest) = lines ++ strtok 0x0A rest := by
  induction lines with
  | nil => rfl
  | cons line lines ih =>
    obtain ⟨⟨hplain, hne⟩, h⟩ := List.forall_mem_cons.mp h
    rw [List.map_cons, List.flatten_cons, List.append_assoc, List.append_assoc,
      List.singleton_append, strtok_cons hplain hne, ih h, List.cons_append]

theorem keyValue_pair {key value : Bytes} (hkey : ∀ c ∈ key, c ≠ 0x3D)
    (hhead : key.headD 0x23 ≠ 0x23 ∧ key.headD 0 ≠ 0) (hblank : key.rdropWhile isBlank = key)
    (hend : value.rdropWhile isLineEnd = value) :
    keyValue (key ++ 0x3D :: value) = some (key, value) := by
  have hcons : key ≠ [] := by
    rintro rfl
    exact hhead.1 rfl
  obtain ⟨c, cs, rfl⟩ := List.exists_cons_of_ne_nil hcons
  have hmem : (0x3D : UInt8) ∈ (c :: cs) ++ 0x3D :: value := by simp
  have htake : ((c :: cs) ++ 0x3D :: value).takeWhile (· ≠ 0x3D) = c :: cs := by
    rw [List.takeWhile_append_of_pos fun c hc => by simpa using hkey c hc,
      List.takeWhile_cons_of_neg (by decide), List.append_nil]
  have hdrop : ((c :: cs) ++ 0x3D :: value).dropWhile (· ≠ 0x3D) = 0x3D :: value := by
    rw [List.dropWhile_append_of_pos fun c hc => by simpa using hkey c hc,
      List.dropWhile_cons_of_neg (by decide)]
  have hstart : ¬(((c :: cs) ++ 0x3D :: value).headD 0 = 0x23 ∨
      ((c :: cs) ++ 0x3D :: value).headD 0 = 0) := not_or.mpr hhead
  unfold keyValue
  rw [if_neg hstart, if_pos hmem, htake, hdrop, List.tail_cons, hblank, hend]

theorem handleLines_append {handler : σ → Bytes → Bytes → σ × Bool}
    (hcontinues : ∀ s key value, (handler s key value).2 = true) (s : σ) (lines rest : List Bytes) :
    handleLines handler s (lines ++ rest) =
      handleLines handler (handleLines handler s lines) rest := by
  induction lines generalizing s with
  | nil => rfl
  | cons line lines ih =>
    rw [List.cons_append, handleLines, handleLines]
    cases keyValue line with
    | none => exact ih s
    | some kv => simp only [hcontinues, if_true, ih]

/-! Which settings of a file the reader of configuration files hands to its handler: the buffer
that it reads into has room for the first 255 bytes. -/

/-- The settings that a text consists of, line by line. -/
def settings (file : Bytes) : List (Bytes × Bytes) := (file.splitOn 0x0A).filterMap keyValue

/-- The part of a line that is cut at the end of the buffer which is read. -/
def cutFront (file : Bytes) : Bytes := ((file.take 255).splitOn 0x0A).getLastD []

/-- The part of that line which is not. -/
def cutBack (file : Bytes) : Bytes := ((file.drop 255).splitOn 0x0A).headD []

/-- The lines that begin behind the buffer. -/
def laterLines (file : Bytes) : List Bytes := ((file.drop 255).splitOn 0x0A).tail

/-! ## Lines -/

theorem splitOn_append {α : Type*} [BEq α] (sep : α) (a b : List α) :
    (a ++ b).splitOn sep = (a.splitOn sep).dropLast ++
      ((a.splitOn sep).getLastD [] ++ (b.splitOn sep).headD []) :: (b.splitOn sep).tail := by
  induction a with
  | nil =>
    obtain ⟨first, rest, hsplit⟩ := List.exists_cons_of_ne_nil (List.splitOn_ne_nil sep b)
    rw [List.nil_append, List.splitOn_nil, hsplit]
    rfl
  | cons c a ih =>
    obtain ⟨first, rest, hsplit⟩ := List.exists_cons_of_ne_nil (List.splitOn_ne_nil sep a)
    rw [List.cons_append, List.splitOn_cons_eq_if_modifyHead, List.splitOn_cons_eq_if_modifyHead,
      ih, hsplit]
    cases rest with
    | nil => split_ifs <;> rfl
    | cons second rest => split_ifs <;> rfl

theorem handleLines_eq {σ : Type*} {handler : σ → Bytes → Bytes → σ × Bool}
    (hcontinues : ∀ s key value, (handler s key value).2 = true) (s : σ) (lines : List Bytes) :
    handleLines handler s lines =
      (lines.filterMap keyValue).foldl (fun s kv => (handler s kv.1 kv.2).1) s := by
  induction lines generalizing s with
  | nil => rfl
  | cons line lines ih =>
    rw [handleLines]
    cases hline : keyValue line with
    | none => rw [List.filterMap_cons_none hline, ih]
    | some kv =>
      simp only [hcontinues, if_true, ih, List.filterMap_cons_some hline, List.foldl_cons]

theorem filterMap_strtok {file : Bytes} (h : ∀ c ∈ file, c ≠ 0) :
    (strtok 0x0A file).filterMap keyValue = settings file := by
  have hstr : str file = file := List.takeWhile_eq_self_iff.mpr (by simpa using h)
  have hskip : ∀ lines : List Bytes,
      (lines.filter (· ≠ [])).filterMap keyValue = lines.filterMap keyValue := by
    intro lines
    induction lines with
    | nil => rfl
    | cons line lines ih =>
      by_cases hempty : line = []
      · rw [List.filter_cons_of_neg (by simpa using hempty), ih, hempty]
        rfl
      · rw [List.filter_cons_of_pos (by simpa using hempty), List.filterMap_cons,
          List.filterMap_cons, ih]
  rw [strtok, hstr, hskip]
  rfl

/-! ## The line that is cut -/

theorem keyValue_eq_none_iff (line : Bytes) :
    keyValue line = none ↔ (line.headD 0 = 0x23 ∨ line.headD 0 = 0) ∨ 0x3D ∉ line := by
  unfold keyValue
  by_cases hhead : line.headD 0 = 0x23 ∨ line.headD 0 = 0
  · rw [if_pos hhead]
    exact iff_of_true rfl (Or.inl hhead)
  · rw [if_neg hhead]
    by_cases heq : 0x3D ∈ line
    · rw [if_pos heq]
      exact iff_of_false (Option.some_ne_none _) (not_or.mpr ⟨hhead, not_not.mpr heq⟩)
    · rw [if_neg heq]
      exact iff_of_true rfl (Or.inr heq)

theorem rdropWhile_append_eq_iff {α : Type*} {p : α → Bool} (v w : List α) :
    (v ++ w).rdropWhile p = v.rdropWhile p ↔ ∀ c ∈ w, p c = true := by
  have hall : w.reverse.dropWhile p = [] ↔ ∀ c ∈ w, p c = true := by
    rw [List.dropWhile_eq_nil_iff]
    exact forall_congr' fun c => by rw [List.mem_reverse]
  rw [← hall, List.rdropWhile, List.rdropWhile, List.reverse_inj, List.reverse_append,
    List.dropWhile_append]
  by_cases hstripped : w.reverse.dropWhile p = []
  · rw [if_pos (List.isEmpty_iff.mpr hstripped)]
    exact iff_of_true rfl hstripped
  · rw [if_neg fun h => hstripped (List.isEmpty_iff.mp h)]
    refine iff_of_false (fun heq => ?_) hstripped
    have hlen := congrArg List.length heq
    have hle := (List.dropWhile_suffix (l := v.reverse) p).length_le
    have hpos := List.length_pos_iff.mpr hstripped
    rw [List.length_append] at hlen
    omega

theorem keyValue_eq_some {line : Bytes} (hhead : ¬(line.headD 0 = 0x23 ∨ line.headD 0 = 0))
    (heq : 0x3D ∈ line) : keyValue line = some ((line.takeWhile (· ≠ 0x3D)).rdropWhile isBlank,
      (line.dropWhile (· ≠ 0x3D)).tail.rdropWhile isLineEnd) := by
  rw [keyValue, if_neg hhead, if_pos heq]

theorem keyValue_cut {front back : Bytes} (hhead : ¬(front.headD 0 = 0x23 ∨ front.headD 0 = 0))
    (heq : 0x3D ∈ front) :
    ∃ kv kv', keyValue front = some kv ∧ keyValue (front ++ back) = some kv' ∧
      (kv = kv' ↔ ∀ c ∈ back, isLineEnd c = true) := by
  have hhead' : ¬((front ++ back).headD 0 = 0x23 ∨ (front ++ back).headD 0 = 0) := by
    obtain ⟨c, rest, rfl⟩ := List.exists_cons_of_ne_nil (List.ne_nil_of_mem heq)
    exact hhead
  refine ⟨_, _, keyValue_eq_some hhead heq,
    keyValue_eq_some hhead' (List.mem_append_left back heq), ?_⟩
  obtain ⟨key, value, rfl, hkey⟩ := List.eq_append_cons_of_mem heq
  have hplain : ∀ c ∈ key, (decide (c ≠ 0x3D)) = true := by
    intro c hc
    rw [decide_eq_true_eq]
    rintro rfl
    exact hkey hc
  have htake : ∀ rest : Bytes, (key ++ 0x3D :: rest).takeWhile (· ≠ 0x3D) = key := by
    intro rest
    rw [List.takeWhile_append_of_pos hplain, List.takeWhile_cons_of_neg (by decide),
      List.append_nil]
  have hdrop : ∀ rest : Bytes, (key ++ 0x3D :: rest).dropWhile (· ≠ 0x3D) = 0x3D :: rest := by
    intro rest
    rw [List.dropWhile_append_of_pos hplain, List.dropWhile_cons_of_neg (by decide)]
  rw [List.append_assoc, List.cons_append, htake, htake, hdrop, hdrop, List.tail_cons,
    List.tail_cons, Prod.mk.injEq, and_iff_right rfl, eq_comm, rdropWhile_append_eq_iff]

/-! ## What is handed over -/

/-- The reader sees all of the settings of a file: none begins behind the buffer, and the line that
is cut is none, or loses only blanks behind its value. -/
def ReadWhole (file : Bytes) : Prop :=
  (∀ line ∈ laterLines file, keyValue line = none) ∧
    (keyValue (cutFront file ++ cutBack file) = none ∨
      0x3D ∈ cutFront file ∧ ∀ c ∈ cutBack file, isLineEnd c = true)

theorem cut_line_iff (front back : Bytes) (later : List Bytes) :
    (keyValue front).toList = (keyValue (front ++ back)).toList ++ later.filterMap keyValue ↔
      (∀ line ∈ later, keyValue line = none) ∧
        (keyValue (front ++ back) = none ∨ 0x3D ∈ front ∧ ∀ c ∈ back, isLineEnd c = true) := by
  rw [← List.filterMap_eq_nil_iff]
  by_cases hfront : keyValue front = none
  · -- the front is no setting, so there must be none at all
    rw [hfront, Option.toList_none, eq_comm, List.append_eq_nil_iff, Option.toList_eq_nil_iff,
      and_comm]
    apply and_congr_right
    intro _
    constructor
    · exact Or.inl
    · rintro (hnone | ⟨heq, -⟩)
      · exact hnone
      · rcases (keyValue_eq_none_iff front).mp hfront with hhead | hno
        · obtain ⟨c, rest, rfl⟩ := List.exists_cons_of_ne_nil (List.ne_nil_of_mem heq)
          exact (keyValue_eq_none_iff _).mpr (Or.inl hhead)
        · exact absurd heq hno
  · obtain ⟨hhead, heq⟩ := not_or.mp fun h => hfront ((keyValue_eq_none_iff front).mpr h)
    obtain ⟨kv, kv', hkv, hkv', hiff⟩ := @keyValue_cut front back hhead (not_not.mp heq)
    rw [hkv, hkv', Option.toList_some, Option.toList_some, List.singleton_append,
      List.cons_eq_cons, hiff, eq_comm, and_comm]
    apply and_congr_right
    intro _
    simp only [reduceCtorEq, false_or, not_not.mp heq, true_and]

theorem filterMap_cons_eq {α β : Type*} (f : α → Option β) (x : α) (xs : List α) :
    (x :: xs).filterMap f = (f x).toList ++ xs.filterMap f := by
  rw [List.filterMap_cons]
  cases f x with
  | none => rfl
  | some y => rfl

theorem settings_take_eq_iff (file : Bytes) :
    settings (file.take 255) = settings file ↔ ReadWhole file := by
  have hfile : settings file = settings (file.take 255 ++ file.drop 255) := by
    rw [List.take_append_drop]
  rw [hfile]
  unfold ReadWhole cutFront cutBack laterLines settings
  rw [splitOn_append]
  rcases List.eq_nil_or_concat' ((file.take 255).splitOn 0x0A) with hnil | ⟨lines, front, hlines⟩
  · exact absurd hnil (List.splitOn_ne_nil _ _)
  · rw [hlines, List.dropLast_concat, List.getLastD_concat, List.filterMap_append,
      List.filterMap_append, List.append_cancel_left_eq, filterMap_cons_eq, filterMap_cons_eq,
      List.filterMap_nil, List.append_nil]
    exact cut_line_iff _ _ _

/-- Every handler that is always called again is called with the settings of the file in their
order exactly where the buffer has all of them. -/
theorem configReaderParse_calls_iff (file : Bytes) (h : ∀ c ∈ file, c ≠ 0) :
    (∀ (σ : Type) (handler : σ → Bytes → Bytes → σ × Bool) (s : σ),
        (∀ s key value, (handler s key value).2 = true) →
          configReaderParse handler s file =
            (settings file).foldl (fun s kv => (handler s kv.1 kv.2).1) s) ↔
      ReadWhole file := by
  have hparse : ∀ (σ : Type) (handler : σ → Bytes → Bytes → σ × Bool) (s : σ),
      (∀ s key value, (handler s key value).2 = true) → configReaderParse handler s file =
        (settings (file.take 255)).foldl (fun s kv => (handler s kv.1 kv.2).1) s := by
    intro σ handler s hcontinues
    rw [configReaderParse, handleLines_eq hcontinues,
      filterMap_strtok fun c hc => h c (List.mem_of_mem_take hc)]
  rw [← settings_take_eq_iff]
  constructor
  · -- a handler that keeps what it is called with
    intro hall
    have hlog := hall (List (Bytes × Bytes)) (fun s key value => (s ++ [(key, value)], true)) []
      fun _ _ _ => rfl
    rw [hparse _ _ _ fun _ _ _ => rfl] at hlog
    have hfold : ∀ kvs s : List (Bytes × Bytes),
        kvs.foldl (fun s kv => s ++ [(kv.1, kv.2)]) s = s ++ kvs := by
      intro kvs
      induction kvs with
      | nil => exact fun s => (List.append_nil s).symm
      | cons kv kvs ih =>
        intro s
        rw [List.foldl_cons, ih, List.append_assoc, List.singleton_append]
    rwa [hfold, hfold, List.nil_append, List.nil_append] at hlog
  · intro heq σ handler s hcontinues
    rw [hparse σ handler s hcontinues, heq]

def shortConfig : Bytes := ascii "SERVER_HOST=h\nSERVER_PORT=80".toList

theorem configReaderParse_calls_iff_short :
    (∀ c ∈ shortConfig, c ≠ 0) ∧
      ((∀ (σ : Type) (handler : σ → Bytes → Bytes → σ × Bool) (s : σ),
          (∀ s key value, (handler s key value).2 = true) →
            configReaderParse handler s shortConfig =
              (settings shortConfig).foldl (fun s kv => (handler s kv.1 kv.2).1) s) ↔
        ReadWhole shortConfig) :=
  ⟨by decide +kernel, configReaderParse_calls_iff shortConfig (by decide +kernel)⟩

/-- A comment that leaves room for the first digit of a port. -/
def longConfig : Bytes :=
  0x23 :: List.replicate 240 0x2D ++ 0x0A :: ascii "SERVER_PORT=8080".toList

theorem cut_port_is_handed_over :
    (∀ c ∈ longConfig, c ≠ 0) ∧
      configReaderParse (fun s key value => (s ++ [(key, value)], true)) [] longConfig =
        [(ascii "SERVER_PORT".toList, ascii "8".toList)] ∧
      settings longConfig = [(ascii "SERVER_PORT".toList, ascii "8080".toList)] := by
  decide +kernel

end Presence3DS.Discord
