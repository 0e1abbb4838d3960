import Presence3DS.Cheats.LoadsWhole

/-! The lines of a file of cheats, read through a buffer of the file into that of a line. -/

namespace Presence3DS.Cheats
open CString RawMemory

/-- `sizeof(((BufferedFile *)0)->buffer)` -/
def fileBufferSize : ℕ := 512

/-- What `IFile_Read` gives before the end of the file. -/
structure Fill where
  bytes : Bytes
  nonempty : bytes ≠ []
  fits : bytes.length ≤ fileBufferSize

/-- The bytes of some fills, which the file consists of. -/
def fillBytes (fills : List Fill) : Bytes := (fills.map Fill.bytes).flatten

/-- The file gives these fills yet, and then nothing. -/
structure BufferedFile where
  file : List Fill
  curPos : ℕ
  maxPos : ℕ
  buffer : Bytes

namespace BufferedFile

/-- `IFile_Read` into the buffer, from its first byte on. -/
def refill (f : BufferedFile) : BufferedFile :=
  match f.file with
  | [] => { f with curPos := 0, maxPos := 0 }
  | fill :: fills =>
    ⟨fills, 0, fill.bytes.length, fill.bytes ++ f.buffer.drop fill.bytes.length⟩

/-- `BufferedFile_Open` -/
def opened (fills : List Fill) : BufferedFile :=
  refill ⟨fills, 0, 0, List.replicate fileBufferSize 0⟩

/-- The loop of `BufferedFile_Read`, with the number of bytes that are left to read. -/
def readRefilling : ℕ → ℕ → BufferedFile → Bytes × BufferedFile
  | 0, _, f => ([], f)
  | fuel + 1, left, f =>
    if f.maxPos = 0 ∨ left = 0 then ([], f)
    else
      let toRead := min (f.maxPos - f.curPos) left
      let data := (f.buffer.drop f.curPos).take toRead
      let f := { f with curPos := f.curPos + toRead }
      let f := if f.maxPos ≤ f.curPos then f.refill else f
      let (more, f) := readRefilling fuel (left - toRead) f
      (data ++ more, f)

/-- `BufferedFile_Read`, whose `totalRead` is the number of the bytes. -/
def read (len : ℕ) (f : BufferedFile) : Bytes × BufferedFile :=
  if len = 0 then ([], f)
  else if f.curPos + len < f.maxPos then
    ((f.buffer.drop f.curPos).take len, { f with curPos := f.curPos + len })
  else readRefilling len len f

/-- A character goes to its place in the buffer of the line, if that is one. -/
def putChar (line : Bytes) (idx : ℕ) (c : UInt8) : Option Bytes :=
  if idx < line.length then some (line.set idx c) else none

/-- The loop of `Cheat_ReadLine`, with the room that is left: its result, the buffer of the line and
the file; there is nothing where it writes outside of the buffer. -/
def readLineFrom : ℕ → ℕ → Bool → Bytes → BufferedFile → Option (ℤ × Bytes × BufferedFile)
  | 0, _, _, line, f => some (0, line, f)
  | room + 1, idx, lastWasCarriageReturn, line, f =>
    match f.read 1 with
    | ([], f) => (putChar line idx 0).map fun line => (-1, line, f)
    | (c :: _, f) =>
      (putChar line idx c).bind fun line =>
        if c = 0x0D then readLineFrom room (idx + 1) true line f
        else if c = 0x0A then
          if lastWasCarriageReturn then
            (putChar line (idx - 1) 0).map fun line => ((idx - 1 : ℕ), line, f)
          else (putChar line idx 0).map fun line => (idx, line, f)
        else if c = 0 then some (-1, line, f)
        else readLineFrom room (idx + 1) false line f

/-- `Cheat_ReadLine`, for the whole buffer of the line. -/
def cheatReadLine (line : Bytes) (f : BufferedFile) : Option (ℤ × Bytes × BufferedFile) :=
  readLineFrom line.length 0 false line f

/-- The first calls, one after the other with the same buffer: their results, and what they leave in
the buffer. -/
def calls : ℕ → Bytes → BufferedFile → Option (List (ℤ × Bytes))
  | 0, _, _ => some []
  | n + 1, line, f =>
    (f.cheatReadLine line).bind fun (res, line, f) =>
      (calls n line f).map fun rest => (res, line) :: rest

end BufferedFile

/-- What `strlen` and `stripWhitespace` take for the string in a buffer, where they do not run out of
it. -/
def terminated (line : Bytes) : Option Bytes := if 0 ∈ line then some (str line) else none

/-- The result of a call: the length of the line, and -1 for the last one. -/
def FileLine.result (l : FileLine) : ℤ := if l.ended then l.text.length else -1

/-- The calls give the lines of the file, each as a string inside of the buffer. -/
def ReadsLines (fills : List Fill) (line : Bytes) : Prop :=
  let lines := fileLines [] (fillBytes fills)
  ((BufferedFile.opened fills).calls lines.length line).map (·.map fun r => (r.1, terminated r.2)) =
    some (lines.map fun l => (l.result, some l.text))

/-! ## The buffer of the file -/

namespace BufferedFile

/-- There is something to read in the buffer, or the file is at its end. -/
structure Valid (f : BufferedFile) : Prop where
  length_buffer : f.buffer.length = fileBufferSize
  fits : f.maxPos ≤ fileBufferSize
  next : f.curPos < f.maxPos ∨ f.maxPos = 0 ∧ f.curPos = 0 ∧ f.file = []

/-- The bytes that have not been read. -/
def remaining (f : BufferedFile) : Bytes :=
  (f.buffer.take f.maxPos).drop f.curPos ++ fillBytes f.file

theorem fillBytes_cons (fill : Fill) (fills : List Fill) :
    fillBytes (fill :: fills) = fill.bytes ++ fillBytes fills := rfl

theorem refill_spec {f : BufferedFile} (hlength : f.buffer.length = fileBufferSize) :
    f.refill.Valid ∧ f.refill.remaining = fillBytes f.file := by
  obtain ⟨file, curPos, maxPos, buffer⟩ := f
  cases file with
  | nil => exact ⟨⟨hlength, Nat.zero_le _, .inr ⟨rfl, rfl, rfl⟩⟩, rfl⟩
  | cons fill fills =>
    have hfits := fill.fits
    change buffer.length = fileBufferSize at hlength
    refine ⟨⟨?_, hfits, .inl (List.length_pos_of_ne_nil fill.nonempty)⟩, ?_⟩
    · show (fill.bytes ++ buffer.drop fill.bytes.length).length = _
      rw [List.length_append, List.length_drop]
      omega
    · show ((fill.bytes ++ buffer.drop fill.bytes.length).take fill.bytes.length).drop 0 ++
        fillBytes fills = _
      rw [List.take_left, List.drop_zero, fillBytes_cons]

theorem opened_spec (fills : List Fill) :
    (opened fills).Valid ∧ (opened fills).remaining = fillBytes fills :=
  refill_spec (f := ⟨fills, 0, 0, List.replicate fileBufferSize 0⟩) (List.length_replicate ..)

theorem take_remaining {f : BufferedFile} {n : ℕ} (hn : f.curPos + n ≤ f.maxPos)
    (hlength : f.maxPos ≤ f.buffer.length) :
    f.remaining.take n = (f.buffer.drop f.curPos).take n ∧
      f.remaining.drop n = { f with curPos := f.curPos + n }.remaining := by
  have hroom : n ≤ ((f.buffer.take f.maxPos).drop f.curPos).length := by
    rw [List.length_drop, List.length_take]
    omega
  constructor
  · rw [remaining, List.take_append_of_le_length hroom, List.drop_take, List.take_take]
    congr 1
    omega
  · show ((f.buffer.take f.maxPos).drop f.curPos ++ _).drop n = _
    rw [List.drop_append_of_le_length hroom, List.drop_drop]
    rfl

theorem remaining_end {f : BufferedFile} (hf : f.Valid) (hmax : f.maxPos = 0) :
    f.remaining = [] := by
  rcases hf.next with h | ⟨-, -, hfile⟩
  · exact absurd h (by omega)
  · rw [remaining, hmax, hfile, List.take_zero, List.drop_nil]
    rfl

theorem readRefilling_spec (fuel : ℕ) : ∀ (left : ℕ) {f : BufferedFile}, f.Valid → left ≤ fuel →
    (f.readRefilling fuel left).1 = f.remaining.take left ∧
      (f.readRefilling fuel left).2.Valid ∧
      (f.readRefilling fuel left).2.remaining = f.remaining.drop left := by
  induction fuel with
  | zero =>
    intro left f hf hleft
    obtain rfl := Nat.le_zero.mp hleft
    exact ⟨List.take_zero.symm, hf, List.drop_zero.symm⟩
  | succ fuel ih =>
    intro left f hf hleft
    have hfits := hf.fits
    have hlength := hf.length_buffer
    rw [readRefilling]
    split_ifs with hend
    · have hnone : f.remaining.take left = [] ∧ f.remaining.drop left = f.remaining := by
        rcases hend with hmax | rfl
        · rw [remaining_end hf hmax]
          exact ⟨List.take_nil, List.drop_nil⟩
        · exact ⟨List.take_zero, List.drop_zero⟩
      exact ⟨hnone.1.symm, hf, hnone.2.symm⟩
    · obtain ⟨hmax, hpos⟩ := not_or.mp hend
      have hcur : f.curPos < f.maxPos := hf.next.resolve_right fun h => hmax h.1
      generalize htoRead : min (f.maxPos - f.curPos) left = toRead
      obtain ⟨htake, hdrop⟩ := f.take_remaining (n := toRead) (by omega) (by omega)
      have hnext : ∀ g : BufferedFile,
          g = (if f.maxPos ≤ f.curPos + toRead then
            refill { f with curPos := f.curPos + toRead }
          else { f with curPos := f.curPos + toRead }) →
          g.Valid ∧ g.remaining = f.remaining.drop toRead := by
        rintro g rfl
        split_ifs with hdrained
        · obtain ⟨hvalid, hremaining⟩ :=
            refill_spec (f := { f with curPos := f.curPos + toRead }) hlength
          refine ⟨hvalid, ?_⟩
          rw [hremaining, hdrop, remaining, List.drop_eq_nil_of_le, List.nil_append]
          rw [List.length_take]
          exact (Nat.min_le_left _ _).trans hdrained
        · exact ⟨⟨hlength, hfits, .inl (Nat.lt_of_not_le hdrained)⟩, hdrop.symm⟩
      obtain ⟨hvalid, hremaining⟩ := hnext _ rfl
      obtain ⟨hdata, hvalid', hrest⟩ := ih (left - toRead) hvalid (by omega)
      have hle : toRead ≤ left := htoRead ▸ Nat.min_le_right _ _
      refine ⟨?_, hvalid', ?_⟩
      · show (f.buffer.drop f.curPos).take toRead ++ _ = _
        rw [hdata, hremaining, ← htake, ← List.take_add, Nat.add_sub_cancel' hle]
      · rw [hrest, hremaining, List.drop_drop, Nat.add_sub_cancel' hle]

theorem read_spec (len : ℕ) {f : BufferedFile} (hf : f.Valid) :
    (f.read len).1 = f.remaining.take len ∧ (f.read len).2.Valid ∧
      (f.read len).2.remaining = f.remaining.drop len := by
  have hfits := hf.fits
  have hlength := hf.length_buffer
  rw [read]
  split_ifs with hzero hfast
  · subst hzero
    exact ⟨List.take_zero.symm, hf, List.drop_zero.symm⟩
  · obtain ⟨htake, hdrop⟩ := f.take_remaining (n := len) (by omega) (by omega)
    exact ⟨htake.symm, ⟨hlength, hfits, .inl hfast⟩, hdrop.symm⟩
  · exact readRefilling_spec len len hf le_rfl

theorem read_one_end {f : BufferedFile} (hf : f.Valid) (h : f.remaining = []) :
    ∃ f', f.read 1 = ([], f') ∧ f'.Valid ∧ f'.remaining = [] := by
  obtain ⟨hdata, hvalid, hrest⟩ := read_spec 1 hf
  rw [h] at hdata hrest
  exact ⟨(f.read 1).2, Prod.ext hdata rfl, hvalid, hrest⟩

theorem read_one_cons {f : BufferedFile} (hf : f.Valid) {c : UInt8} {rest : Bytes}
    (h : f.remaining = c :: rest) :
    ∃ f', f.read 1 = ([c], f') ∧ f'.Valid ∧ f'.remaining = rest := by
  obtain ⟨hdata, hvalid, hrest⟩ := read_spec 1 hf
  rw [h] at hdata hrest
  exact ⟨(f.read 1).2, Prod.ext hdata rfl, hvalid, hrest⟩

end BufferedFile

/-! ## The buffer of the line -/

theorem terminated_set {line : Bytes} {idx : ℕ} (hidx : idx < line.length)
    (hpre : ∀ c ∈ line.take idx, c ≠ 0) : terminated (line.set idx 0) = some (line.take idx) := by
  have hset : line.set idx 0 = line.take idx ++ 0 :: line.drop (idx + 1) :=
    List.set_eq_take_append_cons_drop.trans (if_pos hidx)
  have hmem : (0 : UInt8) ∈ line.take idx ++ 0 :: line.drop (idx + 1) :=
    List.mem_append_right _ List.mem_cons_self
  rw [hset, terminated, if_pos hmem, str_append_zero hpre]

theorem take_succ_set {line : Bytes} {idx : ℕ} (hidx : idx < line.length) (c : UInt8) :
    (line.set idx c).take (idx + 1) = line.take idx ++ [c] := by
  have hset : line.set idx c = line.take idx ++ c :: line.drop (idx + 1) :=
    List.set_eq_take_append_cons_drop.trans (if_pos hidx)
  have hlength : (line.take idx).length = idx := List.length_take_of_le hidx.le
  rw [hset, List.take_append, List.take_of_length_le (by omega), hlength, Nat.add_sub_cancel_left]
  rfl

namespace BufferedFile

theorem putChar_of_lt {line : Bytes} {idx : ℕ} (h : idx < line.length) (c : UInt8) :
    putChar line idx c = some (line.set idx c) := if_pos h

/-- A call does to the two buffers what `cheatReadLine` does to the rest of the file. -/
structure CallsAs (size : ℕ) (r : ReadLine) (res : Option (ℤ × Bytes × BufferedFile)) : Prop where
  returns : ∃ code line f, res = some (code, line, f) ∧ line.length = size ∧ f.Valid ∧
    f.remaining = r.rest ∧ terminated line = r.line ∧
    ∀ text, r.line = some text → code = if r.final then -1 else (text.length : ℤ)

theorem readLineFrom_spec (room : ℕ) : ∀ {idx : ℕ} {lastWasCarriageReturn : Bool} {line : Bytes}
    {f : BufferedFile}, f.Valid → idx + room = line.length → (∀ c ∈ line.take idx, c ≠ 0) →
    (lastWasCarriageReturn = true → 0 < idx) →
    CallsAs line.length (Cheats.cheatReadLine room lastWasCarriageReturn (line.take idx) f.remaining)
      (readLineFrom room idx lastWasCarriageReturn line f) := by
  induction room with
  | zero =>
    intro idx last line f hf hroom hpre hlast
    refine ⟨0, line, f, rfl, rfl, hf, rfl, ?_, fun text h => by cases h⟩
    rw [List.take_of_length_le (Nat.add_zero idx ▸ hroom.ge)] at hpre
    exact if_neg fun h => hpre 0 h rfl
  | succ room ih =>
    intro idx last line f hf hroom hpre hlast
    have hidx : idx < line.length := by omega
    cases hremaining : f.remaining with
    | nil =>
      obtain ⟨f', hread, hf', hrest⟩ := read_one_end hf hremaining
      refine ⟨-1, line.set idx 0, f', ?_, List.length_set, hf', hrest, ?_, fun _ _ => rfl⟩
      · rw [readLineFrom, hread]
        simp only [putChar_of_lt hidx]
        rfl
      · exact terminated_set hidx hpre
    | cons c rest =>
      obtain ⟨f', hread, hf', hrest⟩ := read_one_cons hf hremaining
      rw [readLineFrom, hread]
      simp only [putChar_of_lt hidx, Option.bind_some]
      rw [Cheats.cheatReadLine]
      have hlength : (line.set idx c).length = line.length := List.length_set
      have hmore : ∀ last', c ≠ 0 → CallsAs line.length
          (Cheats.cheatReadLine room last' (line.take idx ++ [c]) rest)
          (readLineFrom room (idx + 1) last' (line.set idx c) f') := by
        intro last' hc
        have hcall := @ih (idx + 1) last' (line.set idx c) f' hf' (by omega) ?_
          fun _ => Nat.succ_pos idx
        · rwa [hlength, take_succ_set hidx, hrest] at hcall
        · rw [take_succ_set hidx]
          intro d hd
          rcases List.mem_append.mp hd with hd | hd
          · exact hpre d hd
          · exact List.mem_singleton.mp hd ▸ hc
      split_ifs with hreturn hnewline hlast' hnul
      · exact hmore true (by rw [hreturn]; decide)
      · have hpos := hlast hlast'
        have htake : (line.set idx c).take (idx - 1) = (line.take idx).dropLast := by
          rw [List.take_set_of_le (Nat.sub_le idx 1), List.dropLast_eq_take,
            List.length_take_of_le hidx.le, List.take_take, Nat.min_eq_left (Nat.sub_le idx 1)]
        rw [putChar_of_lt (by omega)]
        refine ⟨_, _, f', rfl, List.length_set.trans hlength, hf', hrest, ?_, ?_⟩
        · refine (terminated_set (by omega) ?_).trans (congrArg some htake)
          rw [htake]
          exact fun d hd => hpre d (List.dropLast_subset _ hd)
        · rintro text htext
          cases htext
          show ((idx - 1 : ℕ) : ℤ) = ((line.take idx).dropLast.length : ℤ)
          rw [List.length_dropLast, List.length_take_of_le hidx.le]
      · rw [putChar_of_lt (by omega), List.set_set]
        refine ⟨_, _, f', rfl, List.length_set, hf', hrest, terminated_set hidx hpre, ?_⟩
        rintro text htext
        cases htext
        show (idx : ℤ) = ((line.take idx).length : ℤ)
        rw [List.length_take_of_le hidx.le]
      · subst hnul
        exact ⟨-1, _, f', rfl, hlength, hf', hrest, terminated_set hidx hpre, fun _ _ => rfl⟩
      · exact hmore false hnul

theorem cheatReadLine_spec (line : Bytes) {f : BufferedFile} (hf : f.Valid) :
    CallsAs line.length (Cheats.cheatReadLine line.length false [] f.remaining)
      (f.cheatReadLine line) :=
  readLineFrom_spec line.length hf (Nat.zero_add _) (fun _ h => absurd h List.not_mem_nil)
    fun h => absurd h Bool.false_ne_true

end BufferedFile

/-! ## The calls -/

namespace FileLine

/-- What a call is to give for the line. -/
def outcome (l : FileLine) : ℤ × Option Bytes := (l.result, some l.text)

end FileLine

/-- What a call has given. -/
def callOutcome (r : ℤ × Bytes) : ℤ × Option Bytes := (r.1, terminated r.2)

theorem map_cons_eq_some {α β : Type} {g : α → β} {x : Option (List α)} {a : α} {b : β}
    {bs : List β} :
    (x.map fun rest => a :: rest).map (·.map g) = some (b :: bs) ↔
      g a = b ∧ x.map (·.map g) = some bs := by
  cases x with
  | none => simp
  | some rest => simp

theorem calls_iff (n : ℕ) : ∀ (line : Bytes) {f : BufferedFile}, f.Valid →
    f.remaining.length < n →
    ((f.calls (fileLines [] f.remaining).length line).map (·.map callOutcome) =
        some ((fileLines [] f.remaining).map FileLine.outcome) ↔
      ∀ l ∈ fileLines [] f.remaining, l.raw.length < line.length) := by
  induction n with
  | zero => exact fun _ _ _ h => absurd h (Nat.not_lt_zero _)
  | succ n ih =>
    intro line f hf hn
    obtain ⟨l, rest, hlines, -, hshorter, hshort, hlong⟩ := readsLine f.remaining line.length []
    obtain ⟨code, line', f', hcall, hlength, hf', hrest, hline, hcode⟩ :=
      (BufferedFile.cheatReadLine_spec line hf).returns
    have hfirst : decide (([] : Bytes).getLast? = some 0x0D) = false := rfl
    rw [hfirst, List.length_nil, Nat.zero_add] at hshort hlong
    rw [hlines, List.length_cons, List.map_cons, BufferedFile.calls, hcall, Option.bind_some,
      map_cons_eq_some, List.forall_mem_cons]
    by_cases hroom : l.raw.length < line.length
    · have hread := hshort hroom
      have hhead : callOutcome (code, line') = l.outcome := by
        have hresult := hcode l.text (congrArg ReadLine.line hread)
        refine Prod.ext ?_ (hline.trans (congrArg ReadLine.line hread))
        show code = l.result
        rw [hresult, hread, FileLine.result]
        cases l.ended
        · rfl
        · rfl
      rw [and_iff_right hhead, and_iff_right hroom]
      cases hended : l.ended with
      | false => exact iff_of_true rfl fun _ h => absurd h List.not_mem_nil
      | true =>
        rw [hread] at hrest
        change f'.remaining = rest at hrest
        have hless := hshorter hended
        rw [if_pos rfl, ← hrest, ← hlength]
        exact ih line' hf' (by rw [hrest]; omega)
    · refine iff_of_false (fun h => ?_) fun h => hroom h.1
      have hnone := hline.trans (hlong (Nat.le_of_not_lt hroom))
      have hsome := congrArg Prod.snd h.1
      change terminated line' = some l.text at hsome
      rw [hnone] at hsome
      cases hsome

/-- The calls give the lines of a file, whatever its fills are, exactly where every line up to the
first NUL is shorter than the buffer, the carriage return before its newline included. -/
theorem readsLines_iff (fills : List Fill) (line : Bytes) :
    ReadsLines fills line ↔
      ∀ l ∈ fileLines [] (fillBytes fills), l.raw.length < line.length := by
  obtain ⟨hvalid, hremaining⟩ := BufferedFile.opened_spec fills
  have hcalls := calls_iff ((BufferedFile.opened fills).remaining.length + 1) line hvalid
    (Nat.lt_succ_self _)
  rw [hremaining] at hcalls
  exact hcalls

/-! ### A line of 1024 characters -/

def longFill : Fill where
  bytes := List.replicate 512 0x41
  nonempty := List.cons_ne_nil _ _
  fits := (List.length_replicate ..).le

theorem fileLines_plain {file : Bytes} (h : ∀ c ∈ file, c ≠ 0x0A ∧ c ≠ 0) (raw : Bytes) :
    fileLines raw file = [⟨raw ++ file, false⟩] := by
  induction file generalizing raw with
  | nil => rw [fileLines, List.append_nil]
  | cons c file ih =>
    obtain ⟨hc, hfile⟩ := List.forall_mem_cons.mp h
    rw [fileLines, if_neg hc.1, if_neg hc.2, ih hfile, List.append_assoc]
    rfl

theorem fillBytes_long : fillBytes [longFill, longFill] = List.replicate 1024 0x41 := by
  show List.replicate 512 (0x41 : UInt8) ++ (List.replicate 512 (0x41 : UInt8) ++ []) = _
  rw [List.append_nil, List.replicate_append_replicate]

/-- There is no room for the NUL, and `strlen` runs out of the buffer. -/
theorem long_line_not_terminated : ¬ReadsLines [longFill, longFill] (List.replicate 1024 0) := by
  intro h
  obtain ⟨hvalid, hremaining⟩ := BufferedFile.opened_spec [longFill, longFill]
  have hcalls := calls_iff 1025 (List.replicate 1024 0) hvalid
    (by rw [hremaining, fillBytes_long, List.length_replicate]; decide)
  rw [hremaining] at hcalls
  have hplain : ∀ c ∈ List.replicate 1024 (0x41 : UInt8), c ≠ 0x0A ∧ c ≠ 0 := by
    intro c hc
    rw [List.eq_of_mem_replicate hc]
    decide
  have hshort := hcalls.mp h
  rw [fillBytes_long, fileLines_plain hplain] at hshort
  have hlong := hshort _ List.mem_cons_self
  change ([] ++ List.replicate 1024 (0x41 : UInt8)).length < _ at hlong
  rw [List.nil_append, List.length_replicate, List.length_replicate] at hlong
  exact absurd hlong (Nat.lt_irrefl _)

end Presence3DS.Cheats
