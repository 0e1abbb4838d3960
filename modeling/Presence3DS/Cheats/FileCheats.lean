import Presence3DS.Cheats.LoadFile

/-! The cheats of a file, line by line, and which of them there is room for. -/

namespace Presence3DS.Cheats
open CString RawMemory

/-! ## The cheats of a file -/

/-- A line of a file, without the newline that ends it, unless the file or its text ends it. -/
structure FileLine where
  raw : Bytes
  ended : Bool
deriving DecidableEq

namespace FileLine

/-- A carriage return belongs to the newline that it stands before. -/
def text (l : FileLine) : Bytes :=
  if l.ended ∧ l.raw.getLast? = some 0x0D then l.raw.dropLast else l.raw

def kind (l : FileLine) : LineKind := lineKind l.text

end FileLine

/-- The lines up to the first NUL, behind the beginning of the first one. -/
def fileLines : Bytes → Bytes → List FileLine
  | raw, [] => [⟨raw, false⟩]
  | raw, c :: file =>
    if c = 0x0A then ⟨raw, true⟩ :: fileLines [] file
    else if c = 0 then [⟨raw, false⟩]
    else fileLines (raw ++ [c]) file

structure FileCheat where
  name : Bytes
  codes : List UInt64
deriving DecidableEq

/-- The bytes that a cheat takes. -/
def FileCheat.size (c : FileCheat) : ℕ := descriptionSize + 8 * c.codes.length

def totalSize (cs : List FileCheat) : ℕ := (cs.map FileCheat.size).sum

/-- The cheats that are complete, and the one that the next codes belong to. -/
structure Parsed where
  done : List FileCheat
  last : Option FileCheat
deriving DecidableEq

namespace Parsed

def cheats (p : Parsed) : List FileCheat := p.done ++ p.last.toList

def step (p : Parsed) : LineKind → Parsed
  | .skip => p
  | .code c => { p with last := p.last.map fun cheat => { cheat with codes := cheat.codes ++ [c] } }
  | .name line =>
    match p.last with
    | none => { p with last := some ⟨line, []⟩ }
    | some cheat =>
      if cheat.codes = [] then { p with last := some { cheat with name := line } }
      else ⟨p.done ++ [cheat], some ⟨line, []⟩⟩

/-- What a list of lines adds to the cheats before it. -/
def lines (p : Parsed) (ls : List FileLine) : Parsed := ls.foldl (fun p l => p.step l.kind) p

end Parsed

/-- The cheats that some lines begin; the last of them may have no codes. -/
def begunCheats (ls : List FileLine) : List FileCheat := (Parsed.lines ⟨[], none⟩ ls).cheats

/-- The cheats, each with codes. -/
def parsedCheats (ls : List FileLine) : List FileCheat :=
  (begunCheats ls).filter fun c => c.codes ≠ []

/-- The first cheats, as many as there is room for. -/
def takeFitting : ℕ → List FileCheat → List FileCheat
  | _, [] => []
  | room, c :: cs => if c.size ≤ room then c :: takeFitting (room - c.size) cs else []

/-- The cheats of a file that fit the buffer. -/
def fittingCheats (file : Bytes) : List FileCheat :=
  takeFitting cheatBufferSize (parsedCheats (fileLines [] file))

/-! ## What is asked of a load -/

/-- The cheats in memory are these: so many, one behind the other inside of the buffer, each with
its codes. -/
structure CheatList.Holds (s : CheatList) (cs : List FileCheat) : Prop where
  count : s.cheatCount.toNat = cs.length
  codes : ∀ i c, cs[i]? = some c → codes s.buffer (s.cheats i) = c.codes
  disjoint : ∀ i j, i < j → j < cs.length → cheatEnd s.buffer (s.cheats i) ≤ s.cheats j
  inside : ∀ i, i < cs.length → cheatEnd s.buffer (s.cheats i) ≤ cheatBufferSize

/-- The lines are no longer than the buffer of a line, as far as the cheats before them leave room;
no cheat ends with the last byte of the buffer; and fewer than 256 cheats begin in it. -/
structure LoadsWhole (file : Bytes) : Prop where
  short : ∀ before l after, fileLines [] file = before ++ l :: after →
    totalSize (begunCheats before) < cheatBufferSize → l.raw.length < 1024
  loose : ∀ cs, cs <+: parsedCheats (fileLines [] file) → totalSize cs ≠ cheatBufferSize
  few : (takeFitting (cheatBufferSize - 1) (begunCheats (fileLines [] file))).length < 256

/-! ## Sizes -/

@[simp] theorem totalSize_nil : totalSize [] = 0 := rfl

@[simp] theorem totalSize_cons (c : FileCheat) (cs : List FileCheat) :
    totalSize (c :: cs) = c.size + totalSize cs := rfl

@[simp] theorem totalSize_append (cs ds : List FileCheat) :
    totalSize (cs ++ ds) = totalSize cs + totalSize ds := by
  simp [totalSize]

theorem totalSize_take_le {cs : List FileCheat} {i : ℕ} {c : FileCheat} (h : cs[i]? = some c) :
    totalSize (cs.take i) + c.size ≤ totalSize cs := by
  obtain ⟨hi, rfl⟩ := List.getElem?_eq_some_iff.mp h
  have hsplit := congrArg totalSize (List.take_append_drop i cs)
  rw [List.drop_eq_getElem_cons hi, totalSize_append, totalSize_cons] at hsplit
  omega

@[simp] theorem cheats_some (d : List FileCheat) (c : FileCheat) :
    Parsed.cheats ⟨d, some c⟩ = d ++ [c] := rfl

/-! ## What further lines leave of the cheats -/

theorem lines_cons (p : Parsed) (l : FileLine) (ls : List FileLine) :
    p.lines (l :: ls) = (p.step l.kind).lines ls := rfl

theorem lines_append (p : Parsed) (ls ms : List FileLine) :
    p.lines (ls ++ ms) = (p.lines ls).lines ms := List.foldl_append

theorem lines_extends (ls : List FileLine) : ∀ (d : List FileCheat) (c : FileCheat),
    ∃ c' rest, (Parsed.lines ⟨d, some c⟩ ls).cheats = d ++ c' :: rest ∧ c.codes <+: c'.codes := by
  induction ls with
  | nil => exact fun d c => ⟨c, [], rfl, List.prefix_rfl⟩
  | cons l ls ih =>
    intro d c
    rw [lines_cons]
    cases l.kind with
    | skip => exact ih d c
    | code x =>
      obtain ⟨c', rest, hcheats, hcodes⟩ := ih d { c with codes := c.codes ++ [x] }
      exact ⟨c', rest, hcheats, (List.prefix_append _ _).trans hcodes⟩
    | name line =>
      by_cases hempty : c.codes = []
      · obtain ⟨c', rest, hcheats, hcodes⟩ := ih d { c with name := line }
        refine ⟨c', rest, ?_, hcodes⟩
        simp only [Parsed.step, if_pos hempty, hcheats]
      · obtain ⟨c', rest, hcheats, -⟩ := ih (d ++ [c]) ⟨line, []⟩
        refine ⟨c, c' :: rest, ?_, List.prefix_rfl⟩
        simp only [Parsed.step, if_neg hempty, hcheats, List.append_assoc, List.singleton_append]

theorem totalSize_step (p : Parsed) (k : LineKind) :
    totalSize p.cheats ≤ totalSize (p.step k).cheats := by
  rcases p with ⟨d, _ | c⟩
  · cases k <;> simp [Parsed.step, Parsed.cheats]
  · cases k with
    | skip => exact le_rfl
    | code x => simp [Parsed.step, FileCheat.size]
    | name line =>
      by_cases hempty : c.codes = [] <;> simp [Parsed.step, hempty, FileCheat.size]

theorem totalSize_lines (ls : List FileLine) : ∀ p : Parsed,
    totalSize p.cheats ≤ totalSize (p.lines ls).cheats := by
  induction ls with
  | nil => exact fun p => le_rfl
  | cons l ls ih => exact fun p => (totalSize_step p l.kind).trans (ih (p.step l.kind))

theorem filter_complete {cs : List FileCheat} (h : ∀ c ∈ cs, c.codes ≠ []) :
    cs.filter (fun c => decide (c.codes ≠ [])) = cs :=
  List.filter_eq_self.mpr fun c hc => decide_eq_true (h c hc)

theorem lines_complete (ls : List FileLine) : ∀ p : Parsed, (∀ c ∈ p.done, c.codes ≠ []) →
    ∀ c ∈ (p.lines ls).done, c.codes ≠ [] := by
  induction ls with
  | nil => exact fun p h => h
  | cons l ls ih =>
    intro p h
    rw [lines_cons]
    apply ih
    rcases p with ⟨d, last⟩
    cases l.kind with
    | skip => exact h
    | code x => exact h
    | name line =>
      rcases last with _ | c
      · exact h
      · by_cases hempty : c.codes = []
        · simpa only [Parsed.step, if_pos hempty] using h
        · simp only [Parsed.step, if_neg hempty]
          intro e he
          rcases List.mem_append.mp he with he | he
          · exact h e he
          · rwa [List.mem_singleton.mp he]

theorem begunCheats_eq (all : List FileLine) :
    begunCheats all = parsedCheats all ∨ ∃ e, begunCheats all = parsedCheats all ++ [e] := by
  have hcomplete := lines_complete all ⟨[], none⟩ (by simp)
  have hfront := filter_complete hcomplete
  have hsplit : begunCheats all = (Parsed.lines ⟨[], none⟩ all).done ++
      (Parsed.lines ⟨[], none⟩ all).last.toList := rfl
  rw [parsedCheats, hsplit, List.filter_append, hfront]
  rcases (Parsed.lines ⟨[], none⟩ all).last with _ | c
  · left
    rfl
  · by_cases hempty : c.codes = []
    · right
      exact ⟨c, by simp [hempty]⟩
    · left
      simp [hempty]

/-! ## The cheats that fit -/

theorem size_pos (c : FileCheat) : descriptionSize ≤ c.size := Nat.le_add_right _ _

theorem takeFitting_append {room : ℕ} {cs : List FileCheat} (h : totalSize cs ≤ room)
    (ds : List FileCheat) :
    takeFitting room (cs ++ ds) = cs ++ takeFitting (room - totalSize cs) ds := by
  induction cs generalizing room with
  | nil => rfl
  | cons c cs ih =>
    rw [totalSize_cons] at h
    rw [List.cons_append, takeFitting, if_pos (by omega), ih (by omega), totalSize_cons,
      Nat.sub_sub, List.cons_append]

theorem takeFitting_full {room : ℕ} {c : FileCheat} (h : room < c.size) (cs : List FileCheat) :
    takeFitting room (c :: cs) = [] := if_neg (by omega)

theorem takeFitting_small {room : ℕ} (h : room < descriptionSize) (cs : List FileCheat) :
    takeFitting room cs = [] := by
  cases cs with
  | nil => rfl
  | cons c cs => exact takeFitting_full (h.trans_le (size_pos c)) cs

theorem takeFitting_self {room : ℕ} {cs : List FileCheat} (h : totalSize cs ≤ room) :
    takeFitting room cs = cs := by
  have happend := takeFitting_append h []
  rwa [List.append_nil, takeFitting, List.append_nil] at happend

theorem takeFitting_front (room : ℕ) (cs : List FileCheat) : takeFitting room cs <+: cs := by
  induction cs generalizing room with
  | nil => exact List.prefix_rfl
  | cons c cs ih =>
    unfold takeFitting
    split_ifs
    · exact (List.prefix_cons_inj c).mpr (ih _)
    · exact List.nil_prefix

theorem totalSize_takeFitting_le (room : ℕ) (cs : List FileCheat) :
    totalSize (takeFitting room cs) ≤ room := by
  induction cs generalizing room with
  | nil => exact Nat.zero_le _
  | cons c cs ih =>
    unfold takeFitting
    split_ifs with hfits
    · have hrest := ih (room - c.size)
      rw [totalSize_cons]
      omega
    · exact Nat.zero_le _

theorem length_takeFitting_front {room : ℕ} {cs ds : List FileCheat} (h : ds <+: cs) :
    (takeFitting room ds).length ≤ (takeFitting room cs).length := by
  obtain ⟨rest, rfl⟩ := h
  induction ds generalizing room with
  | nil => exact Nat.zero_le _
  | cons c ds ih =>
    rw [List.cons_append, takeFitting, takeFitting]
    split_ifs
    · rw [List.length_cons, List.length_cons]
      exact Nat.succ_le_succ ih
    · exact le_rfl

theorem length_takeFitting_concat (room : ℕ) (cs : List FileCheat) (e : FileCheat) :
    (takeFitting room (cs ++ [e])).length ≤ (takeFitting room cs).length + 1 := by
  induction cs generalizing room with
  | nil =>
    exact (takeFitting_front room [e]).length_le
  | cons c cs ih =>
    rw [List.cons_append, takeFitting, takeFitting]
    split_ifs
    · rw [List.length_cons, List.length_cons]
      exact Nat.succ_le_succ (ih _)
    · exact Nat.zero_le _

theorem length_takeFitting_mono {room room' : ℕ} (h : room ≤ room') (cs : List FileCheat) :
    (takeFitting room cs).length ≤ (takeFitting room' cs).length := by
  induction cs generalizing room room' with
  | nil => exact le_rfl
  | cons c cs ih =>
    rw [takeFitting, takeFitting]
    by_cases hfits : c.size ≤ room
    · rw [if_pos hfits, if_pos (hfits.trans h), List.length_cons, List.length_cons]
      exact Nat.succ_le_succ (ih (Nat.sub_le_sub_right h _))
    · rw [if_neg hfits]
      exact Nat.zero_le _

theorem takeFitting_loose {room : ℕ} {cs : List FileCheat}
    (h : ∀ ds, ds <+: cs → totalSize ds ≠ room + 1) :
    takeFitting (room + 1) cs = takeFitting room cs := by
  induction cs generalizing room with
  | nil => rfl
  | cons c cs ih =>
    have hc : c.size ≠ room + 1 := h [c] ((List.prefix_cons_inj c).mpr List.nil_prefix)
    rw [takeFitting, takeFitting]
    by_cases hfits : c.size ≤ room
    · have hrest : takeFitting (room - c.size + 1) cs = takeFitting (room - c.size) cs := by
        apply ih
        intro ds hds hsize
        refine h (c :: ds) ((List.prefix_cons_inj c).mpr hds) ?_
        rw [totalSize_cons]
        omega
      rw [if_pos hfits, if_pos (hfits.trans (Nat.le_succ _)), ← hrest]
      congr 2
      omega
    · rw [if_neg hfits, if_neg (by omega)]

theorem takeFitting_exact {room : ℕ} {cs ds : List FileCheat} (hds : ds <+: cs)
    (hsize : totalSize ds = room + 1) :
    (takeFitting room cs).length < (takeFitting (room + 1) cs).length := by
  have hmore : ds.length ≤ (takeFitting (room + 1) cs).length := by
    obtain ⟨rest, rfl⟩ := hds
    rw [takeFitting_append hsize.le, List.length_append]
    exact Nat.le_add_right _ _
  refine lt_of_lt_of_le ?_ hmore
  by_contra hle
  obtain ⟨rest, hrest⟩ : ds <+: takeFitting room cs :=
    List.prefix_of_prefix_length_le hds (takeFitting_front room cs) (not_lt.mp hle)
  have htotal := totalSize_takeFitting_le room cs
  rw [← hrest, totalSize_append] at htotal
  omega

end Presence3DS.Cheats
