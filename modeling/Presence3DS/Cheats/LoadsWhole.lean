import Presence3DS.Cheats.FileCheats

/-! When the cheats in memory are those of the file. -/

namespace Presence3DS.Cheats
open CString RawMemory

/-! ## Reading the lines -/

/-- The first line of a file, as it is read into the room of a buffer. -/
structure ReadsLine (room : ℕ) (raw file : Bytes) (l : FileLine) (rest : Bytes) : Prop where
  lines : fileLines raw file = l :: if l.ended then fileLines [] rest else []
  starts : raw <+: l.raw
  shorter : l.ended = true → rest.length < file.length
  short : l.raw.length < raw.length + room →
    cheatReadLine room (decide (raw.getLast? = some 0x0D)) raw file = ⟨some l.text, !l.ended, rest⟩
  long : raw.length + room ≤ l.raw.length →
    (cheatReadLine room (decide (raw.getLast? = some 0x0D)) raw file).line = none

theorem readsLine (file : Bytes) : ∀ (room : ℕ) (raw : Bytes),
    ∃ l rest, ReadsLine room raw file l rest := by
  induction file with
  | nil =>
    intro room raw
    refine ⟨⟨raw, false⟩, [], rfl, List.prefix_rfl, fun h => absurd h Bool.false_ne_true, ?_, ?_⟩
    · intro h
      cases room with
      | zero => exact absurd h (by simp)
      | succ room => rfl
    · intro h
      cases room with
      | zero => rfl
      | succ room => exact absurd h (by simp)
  | cons c file ih =>
    intro room raw
    by_cases hnewline : c = 0x0A
    · subst hnewline
      refine ⟨⟨raw, true⟩, file, rfl, List.prefix_rfl, fun _ => Nat.lt_succ_self _, ?_, ?_⟩
      · intro h
        cases room with
        | zero => exact absurd h (by simp)
        | succ room => simp [cheatReadLine, FileLine.text]
      · intro h
        cases room with
        | zero => rfl
        | succ room => exact absurd h (by simp)
    by_cases hnul : c = 0
    · subst hnul
      refine ⟨⟨raw, false⟩, file, rfl, List.prefix_rfl, fun h => absurd h Bool.false_ne_true, ?_,
        ?_⟩
      · intro h
        cases room with
        | zero => exact absurd h (by simp)
        | succ room => simp [cheatReadLine, FileLine.text]
      · intro h
        cases room with
        | zero => rfl
        | succ room => exact absurd h (by simp)
    -- any other character is kept, a carriage return too until a newline follows it
    obtain ⟨l, rest, hlines, hstarts, hshorter, hshort, hlong⟩ := ih (room - 1) (raw ++ [c])
    have hprefix : raw <+: l.raw := (List.prefix_append raw [c]).trans hstarts
    have hkept : fileLines raw (c :: file) = fileLines (raw ++ [c]) file := by
      rw [fileLines, if_neg hnewline, if_neg hnul]
    have hread : 0 < room → cheatReadLine room (decide (raw.getLast? = some 0x0D)) raw (c :: file) =
        cheatReadLine (room - 1) (decide ((raw ++ [c]).getLast? = some 0x0D)) (raw ++ [c])
          file := by
      intro hroom
      obtain ⟨room, rfl⟩ := Nat.exists_eq_succ_of_ne_zero hroom.ne'
      rw [Nat.succ_sub_one, cheatReadLine]
      by_cases hreturn : c = 0x0D
      · simp [hreturn]
      · simp [hreturn, hnewline, hnul]
    have hlength : (raw ++ [c]).length = raw.length + 1 := by simp
    have hmore : raw.length + 1 ≤ l.raw.length := hlength ▸ hstarts.length_le
    refine ⟨l, rest, hkept.trans hlines, hprefix, fun h => (hshorter h).trans (Nat.lt_succ_self _),
      fun h => ?_, fun h => ?_⟩
    · rw [hread (by omega)]
      exact hshort (by omega)
    · rcases Nat.eq_zero_or_pos room with rfl | hroom
      · rfl
      · rw [hread hroom]
        exact hlong (by omega)

/-- The loop, over the lines of the file. -/
def loadFileLines : LoadState → List FileLine → Option LoadState
  | s, [] => some s
  | s, l :: ls =>
    if l.raw.length < 1024 then
      match s.step l.kind with
      | .stop s => some s
      | .more s => if cheatBufferSize ≤ s.cheatSize then some s else loadFileLines s ls
    else none

theorem loadLines_eq (fuel : ℕ) : ∀ (s : LoadState) (file : Bytes), file.length < fuel →
    loadLines fuel s file = loadFileLines s (fileLines [] file) := by
  induction fuel with
  | zero => exact fun s file h => absurd h (Nat.not_lt_zero _)
  | succ fuel ih =>
    intro s file hfuel
    obtain ⟨l, rest, hlines, -, hshorter, hshort, hlong⟩ := readsLine file 1024 []
    have hfirst : (decide (([] : Bytes).getLast? = some 0x0D)) = false := rfl
    rw [hlines, loadFileLines]
    rw [hfirst] at hshort hlong
    by_cases hl : l.raw.length < 1024
    · have hread := hshort (by simpa using hl)
      simp only [loadLines, hread, if_pos hl, Option.bind_some]
      show (match s.step l.kind with
        | .stop s => some s
        | .more s => _) = _
      cases s.step l.kind with
      | stop s => rfl
      | more s =>
        cases hended : l.ended with
        | false => by_cases hfull : cheatBufferSize ≤ s.cheatSize <;> simp [hfull, loadFileLines]
        | true =>
          have hrest := hshorter hended
          by_cases hfull : cheatBufferSize ≤ s.cheatSize
          · simp [hfull]
          · simp [hfull, ih s rest (by omega)]
    · have hread := hlong (by simpa using hl)
      simp only [loadLines, hread, if_neg hl, Option.bind_none]

/-! ## The loop follows the file -/

theorem cheatEnd_eq {m : Memory} {cheat : ℕ} {c : FileCheat} (h : codes m cheat = c.codes) :
    cheatEnd m cheat = cheat + c.size := by
  rw [cheatEnd, codeOffset, ← length_codes, h, FileCheat.size, Nat.add_assoc]

/-- The cheats lie one behind the other from the beginning of the buffer. -/
def Placed (l : CheatList) (cs : List FileCheat) : Prop :=
  ∀ i c, cs[i]? = some c →
    l.cheats i = totalSize (cs.take i) ∧ codes l.buffer (totalSize (cs.take i)) = c.codes

theorem Placed.congr {l l' : CheatList} {cs : List FileCheat} {a b : ℕ} (h : Placed l cs)
    (hbuffer : EqOutside l'.buffer l.buffer a b) (ha : totalSize cs ≤ a)
    (hcheats : ∀ i, i < cs.length → l'.cheats i = l.cheats i) : Placed l' cs := by
  intro i c hc
  obtain ⟨hplace, hcodes⟩ := h i c hc
  refine ⟨(hcheats i (List.getElem?_eq_some_iff.mp hc).1).trans hplace, ?_⟩
  rw [codes_congr hbuffer, hcodes]
  left
  rw [cheatEnd_eq hcodes]
  exact (totalSize_take_le hc).trans ha

theorem Placed.concat {l : CheatList} {cs : List FileCheat} {c : FileCheat} (h : Placed l cs)
    (hplace : l.cheats cs.length = totalSize cs)
    (hcodes : codes l.buffer (totalSize cs) = c.codes) : Placed l (cs ++ [c]) := by
  intro i d hd
  rcases Nat.lt_trichotomy i cs.length with hi | rfl | hi
  · rw [List.getElem?_append_left hi] at hd
    rw [List.take_append_of_le_length hi.le]
    exact h i d hd
  · rw [List.getElem?_concat_length] at hd
    rw [List.take_left, ← Option.some.inj hd]
    exact ⟨hplace, hcodes⟩
  · rw [List.getElem?_eq_none (by rw [List.length_append, List.length_singleton]; omega)] at hd
    cases hd

/-- The variables of the loop, after lines whose cheats are `p`. -/
structure LoadState.Follows (s : LoadState) (p : Parsed) : Prop where
  size : s.cheatSize = totalSize p.cheats
  room : totalSize p.cheats < cheatBufferSize
  count : s.list.cheatCount = UInt8.ofNat p.cheats.length
  few : p.cheats.length ≤ 256
  done : Placed s.list p.done
  complete : ∀ c ∈ p.done, c.codes ≠ []
  first : p.last = none → p.done = []
  cheat : s.cheat = p.last.map fun _ => totalSize p.done
  last : ∀ c, p.last = some c → s.list.cheats p.done.length = totalSize p.done ∧
    codes s.list.buffer (totalSize p.done) = c.codes

variable {s : LoadState} {p : Parsed}

theorem LoadState.Follows.placed (h : LoadState.Follows s p) : Placed s.list p.cheats := by
  rw [Parsed.cheats]
  rcases hlast : p.last with _ | c
  · rw [Option.toList_none, List.append_nil]
    exact h.done
  · obtain ⟨hplace, hcodes⟩ := h.last c hlast
    exact h.done.concat hplace hcodes

theorem LoadState.Follows.needsCheat (h : LoadState.Follows s p) :
    s.needsCheat = true ↔ ∀ c, p.last = some c → c.codes ≠ [] := by
  rw [LoadState.needsCheat, h.cheat]
  rcases hlast : p.last with _ | c
  · simp
  · obtain ⟨-, hcodes⟩ := h.last c hlast
    simp [← length_codes, hcodes, List.length_pos_iff]

theorem LoadState.Follows.addCode {d : List FileCheat} {c : FileCheat} (h : s.Follows ⟨d, some c⟩)
    (x : UInt64) (hroom : s.cheatSize + 8 < cheatBufferSize) :
    LoadState.Follows (s.addCode x) ⟨d, some { c with codes := c.codes ++ [x] }⟩ := by
  obtain ⟨hplace, hcodes⟩ := h.last c rfl
  have hcheat : s.cheat = some (totalSize d) := h.cheat
  have hsize : totalSize (Parsed.cheats ⟨d, some { c with codes := c.codes ++ [x] }⟩) =
      totalSize (Parsed.cheats ⟨d, some c⟩) + 8 := by
    simp [FileCheat.size]
    omega
  have hbuffer := addCodeLine_eqOutside s.list.buffer (totalSize d) x
  have hadd : s.addCode x =
      ⟨{ s.list with buffer := CheatList.addCodeLine s.list.buffer (totalSize d) x },
        some (totalSize d), s.cheatSize + 8⟩ := by
    simp only [LoadState.addCode, hcheat]
  have hcount : codesCount s.list.buffer (totalSize d) + 1 < 2 ^ 32 := by
    have hfits : c.codes.length ≤ totalSize (Parsed.cheats ⟨d, some c⟩) := by
      simp [FileCheat.size]
      omega
    have hbound := hfits.trans_lt h.room
    rw [← length_codes, hcodes]
    rw [cheatBufferSize] at hbound
    omega
  rw [hadd]
  refine ⟨?_, ?_, by simpa using h.count, by simpa using h.few,
    h.done.congr hbuffer le_rfl fun _ _ => rfl, h.complete,
    fun hnone => absurd hnone (Option.some_ne_none _), rfl, ?_⟩
  · rw [hsize, h.size]
  · rw [hsize, ← h.size]
    exact hroom
  · rintro c' ⟨⟩
    refine ⟨hplace, ?_⟩
    show codes (CheatList.addCodeLine s.list.buffer (totalSize d) x) (totalSize d) = c.codes ++ [x]
    rw [codes_addCodeLine hcount, hcodes]

theorem LoadState.Follows.setName {d : List FileCheat} {c : FileCheat} (h : s.Follows ⟨d, some c⟩)
    (line : Bytes) : LoadState.Follows (s.setName line) ⟨d, some { c with name := line }⟩ := by
  obtain ⟨hplace, hcodes⟩ := h.last c rfl
  have hcheat : s.cheat = some (totalSize d) := h.cheat
  have hset : s.setName line =
      { s with list := { s.list with
        buffer := CheatList.setName s.list.buffer (totalSize d) line } } := by
    simp only [LoadState.setName, hcheat]
  have hbuffer := setName_eqOutside s.list.buffer (totalSize d) line
  rw [hset]
  have hsize : totalSize (Parsed.cheats ⟨d, some { c with name := line }⟩) =
      totalSize (Parsed.cheats ⟨d, some c⟩) := by
    simp [FileCheat.size]
  refine ⟨hsize ▸ h.size, hsize ▸ h.room, by simpa using h.count,
    by simpa using h.few, h.done.congr hbuffer le_rfl fun _ _ => rfl, h.complete,
    fun hnone => absurd hnone (Option.some_ne_none _), hcheat, ?_⟩
  rintro c' ⟨⟩
  refine ⟨hplace, ?_⟩
  show codes (CheatList.setName s.list.buffer (totalSize d) line) (totalSize d) = c.codes
  rw [codes_setName, hcodes]

theorem ofNat_succ_sub_one (n : ℕ) : UInt8.ofNat (n + 1) - 1 = UInt8.ofNat n := by
  rw [UInt8.ofNat_add]
  exact UInt8.add_sub_cancel _ _

theorem Placed.last {l : CheatList} {cs : List FileCheat} {c : FileCheat}
    (h : Placed l (cs ++ [c])) :
    l.cheats cs.length = totalSize cs ∧ codes l.buffer (totalSize cs) = c.codes := by
  have hlast := h cs.length c List.getElem?_concat_length
  rwa [List.take_left] at hlast

theorem LoadState.Follows.place (h : LoadState.Follows s p) (hfew : p.cheats.length < 256) :
    s.list.cheatAllocCheat.1 = totalSize p.cheats := by
  have hplaced := h.placed
  unfold CheatList.cheatAllocCheat
  rw [h.count]
  rcases List.eq_nil_or_concat p.cheats with hempty | ⟨cs, c, hcons⟩
  · rw [hempty]
    rfl
  · rw [hcons, List.concat_eq_append] at hplaced hfew ⊢
    rw [List.length_append, List.length_singleton] at hfew ⊢
    obtain ⟨hplace, hcodes⟩ := hplaced.last
    have hne : UInt8.ofNat (cs.length + 1) ≠ 0 := by
      intro hzero
      have hlength := congrArg UInt8.toNat hzero
      rw [UInt8.toNat_ofNat_of_lt' hfew] at hlength
      exact absurd hlength (Nat.succ_ne_zero _)
    have hindex : (UInt8.ofNat cs.length).toNat = cs.length :=
      UInt8.toNat_ofNat_of_lt' (show cs.length < 256 by omega)
    simp only [if_neg hne, ofNat_succ_sub_one, hindex, hplace, cheatEnd_eq hcodes]
    simp

theorem LoadState.Follows.newCheat (h : s.Follows p) (hlast : ∀ c, p.last = some c → c.codes ≠ [])
    (hfew : p.cheats.length < 256) (hroom : s.cheatSize + descriptionSize < cheatBufferSize) :
    LoadState.Follows s.newCheat ⟨p.cheats, some ⟨[], []⟩⟩ := by
  have hplace := h.place hfew
  have hcount : (UInt8.ofNat p.cheats.length).toNat = p.cheats.length :=
    UInt8.toNat_ofNat_of_lt' hfew
  have hbuffer := describe_eqOutside s.list.buffer (totalSize p.cheats)
  have halloc : s.list.cheatAllocCheat.2 =
      { s.list with
        buffer := CheatList.describe s.list.buffer (totalSize p.cheats)
        cheats := Function.update s.list.cheats p.cheats.length (totalSize p.cheats)
        cheatCount := UInt8.ofNat (p.cheats.length + 1) } := by
    have hsame : s.list.cheatAllocCheat.2 =
        { s.list with
          buffer := CheatList.describe s.list.buffer s.list.cheatAllocCheat.1
          cheats := Function.update s.list.cheats s.list.cheatCount.toNat s.list.cheatAllocCheat.1
          cheatCount := s.list.cheatCount + 1 } := rfl
    rw [hsame, hplace, h.count, hcount, UInt8.ofNat_add]
    rfl
  have hsize : totalSize (Parsed.cheats ⟨p.cheats, some ⟨[], []⟩⟩) =
      totalSize p.cheats + descriptionSize := by
    simp [FileCheat.size]
  have hcomplete : ∀ c ∈ p.cheats, c.codes ≠ [] := by
    intro c hc
    rcases List.mem_append.mp hc with hc | hc
    · exact h.complete c hc
    · exact hlast c (Option.mem_toList.mp hc)
  rw [LoadState.newCheat, hplace, halloc]
  refine ⟨?_, ?_, ?_, ?_, ?_, hcomplete, fun hnone => absurd hnone (Option.some_ne_none _), rfl, ?_⟩
  · rw [hsize, ← h.size]
  · rw [hsize, ← h.size]
    exact hroom
  · simp
  · simp
    omega
  · refine h.placed.congr hbuffer le_rfl fun i hi => ?_
    exact Function.update_of_ne hi.ne _ _
  · rintro c ⟨⟩
    exact ⟨Function.update_self _ _ _, codes_describe _ _⟩

/-! ## What a load leaves -/

/-- The cheats that the load keeps: those that leave a byte of the buffer. -/
def keptCheats (all : List FileLine) : List FileCheat :=
  takeFitting (cheatBufferSize - 1) (parsedCheats all)

/-- The cheats that it has begun at its end; the last one may be empty. -/
def begunFitting (all : List FileLine) : List FileCheat :=
  takeFitting (cheatBufferSize - 1) (begunCheats all)

theorem kept_of_full {all : List FileLine} {cs rest : List FileCheat}
    (hall : begunCheats all = cs ++ rest) (hcomplete : ∀ c ∈ cs, c.codes ≠ [])
    (hroom : totalSize cs < cheatBufferSize)
    (hrest : takeFitting (cheatBufferSize - 1 - totalSize cs) rest = [])
    (hfilter : takeFitting (cheatBufferSize - 1 - totalSize cs)
      (rest.filter fun c => c.codes ≠ []) = []) :
    keptCheats all = cs ∧ begunFitting all = cs := by
  have hle : totalSize cs ≤ cheatBufferSize - 1 := by omega
  constructor
  · rw [keptCheats, parsedCheats, hall, List.filter_append, filter_complete hcomplete,
      takeFitting_append hle, hfilter, List.append_nil]
  · rw [begunFitting, hall, takeFitting_append hle, hrest, List.append_nil]

theorem length_le_kept {all : List FileLine} {cs rest : List FileCheat}
    (hall : begunCheats all = cs ++ rest) (hcomplete : ∀ c ∈ cs, c.codes ≠ [])
    (hroom : totalSize cs < cheatBufferSize) : cs.length ≤ (keptCheats all).length := by
  rw [keptCheats, parsedCheats, hall, List.filter_append, filter_complete hcomplete,
    takeFitting_append (by omega), List.length_append]
  exact Nat.le_add_right _ _

section

variable {s : LoadState} {all before ls : List FileLine} {l : FileLine} {d : List FileCheat}
  {c : FileCheat}

theorem kept_of_stop_code (h : LoadState.Follows s ⟨d, some c⟩)
    (hbefore : Parsed.lines ⟨[], none⟩ before = ⟨d, some c⟩) (hall : all = before ++ l :: ls)
    {x : UInt64} (hkind : l.kind = .code x) (hfull : cheatBufferSize ≤ s.cheatSize + 8) :
    keptCheats all = d ∧ begunFitting all = d := by
  obtain ⟨c', rest, hcheats, hcodes⟩ := lines_extends ls d { c with codes := c.codes ++ [x] }
  have hbegun : begunCheats all = d ++ c' :: rest := by
    rw [begunCheats, hall, lines_append, hbefore, lines_cons, hkind]
    exact hcheats
  have hsize := h.size
  have hroom := h.room
  rw [cheats_some, totalSize_append, totalSize_cons, totalSize_nil] at hsize hroom
  have hlength : c.codes.length + 1 ≤ c'.codes.length := by
    have hle := hcodes.length_le
    rwa [List.length_append, List.length_singleton] at hle
  have hsmall : cheatBufferSize - 1 - totalSize d < c'.size := by
    have hc : c.size = descriptionSize + 8 * c.codes.length := rfl
    have hc' : c'.size = descriptionSize + 8 * c'.codes.length := rfl
    omega
  have hne : c'.codes ≠ [] := by
    intro hnil
    rw [hnil] at hlength
    exact absurd hlength (by simp)
  refine kept_of_full hbegun h.complete (by omega) (takeFitting_full hsmall rest) ?_
  have hfilter : (c' :: rest).filter (fun c => decide (c.codes ≠ [])) =
      c' :: rest.filter fun c => decide (c.codes ≠ []) :=
    List.filter_cons_of_pos (by simpa using hne)
  rw [hfilter]
  exact takeFitting_full hsmall _

theorem complete_concat (h : LoadState.Follows s ⟨d, some c⟩) (hc : c.codes ≠ []) :
    ∀ e ∈ d ++ [c], e.codes ≠ [] := by
  intro e he
  rcases List.mem_append.mp he with he | he
  · exact h.complete e he
  · rwa [List.mem_singleton.mp he]

theorem begun_of_name (hbefore : Parsed.lines ⟨[], none⟩ before = ⟨d, some c⟩)
    (hall : all = before ++ l :: ls) {line : Bytes} (hkind : l.kind = .name line)
    (hc : c.codes ≠ []) : ∃ rest, begunCheats all = (d ++ [c]) ++ rest := by
  obtain ⟨c', rest, hcheats, -⟩ := lines_extends ls (d ++ [c]) ⟨line, []⟩
  refine ⟨c' :: rest, ?_⟩
  rw [begunCheats, hall, lines_append, hbefore, lines_cons, hkind, ← hcheats]
  simp only [Parsed.step, if_neg hc]

theorem kept_of_stop_name (h : LoadState.Follows s ⟨d, some c⟩)
    (hbefore : Parsed.lines ⟨[], none⟩ before = ⟨d, some c⟩) (hall : all = before ++ l :: ls)
    {line : Bytes} (hkind : l.kind = .name line) (hc : c.codes ≠ [])
    (hfull : cheatBufferSize ≤ s.cheatSize + descriptionSize) :
    keptCheats all = d ++ [c] ∧ begunFitting all = d ++ [c] := by
  obtain ⟨rest, hbegun⟩ := begun_of_name hbefore hall hkind hc
  have hsize := h.size
  have hroom := h.room
  rw [cheats_some] at hsize hroom
  have hsmall : cheatBufferSize - 1 - totalSize (d ++ [c]) < descriptionSize := by omega
  exact kept_of_full hbegun (complete_concat h hc) hroom (takeFitting_small hsmall _)
    (takeFitting_small hsmall _)

end

/-- What a load has made of the lines: the cheats that it keeps are placed, and counted unless an
empty cheat behind them has brought the count round. -/
structure Loaded (l : CheatList) (all : List FileLine) : Prop where
  placed : Placed l (keptCheats all)
  count : l.cheatCount.toNat =
    if (begunFitting all).length = 256 then 0 else (keptCheats all).length

theorem Placed.front {l : CheatList} {cs : List FileCheat} {c : FileCheat}
    (h : Placed l (cs ++ [c])) : Placed l cs := by
  intro i d hd
  have hi := (List.getElem?_eq_some_iff.mp hd).1
  have hplaced := h i d (by rwa [List.getElem?_append_left hi])
  rwa [List.take_append_of_le_length hi.le] at hplaced

theorem Placed.codesCount_last {l : CheatList} {cs : List FileCheat} {c : FileCheat}
    (h : Placed l (cs ++ [c])) (hcount : l.cheatCount = UInt8.ofNat (cs.length + 1))
    (hfew : cs.length < 256) :
    codesCount l.buffer (l.cheats (l.cheatCount - 1).toNat) = c.codes.length := by
  obtain ⟨hplace, hcodes⟩ := h.last
  have hindex : (UInt8.ofNat cs.length).toNat = cs.length := UInt8.toNat_ofNat_of_lt' hfew
  rw [hcount, ofNat_succ_sub_one, hindex, hplace, ← length_codes, hcodes]

theorem ofNat_ne_zero {n : ℕ} (hpos : 0 < n) (hlt : n < 256) : UInt8.ofNat n ≠ 0 := by
  intro hzero
  have hvalue := congrArg UInt8.toNat hzero
  rw [UInt8.toNat_ofNat_of_lt' hlt] at hvalue
  exact absurd hvalue hpos.ne'

theorem removeEmpty_of_complete {l : CheatList} {cs : List FileCheat} (hplaced : Placed l cs)
    (hcount : l.cheatCount = UInt8.ofNat cs.length) (hcomplete : ∀ c ∈ cs, c.codes ≠ [])
    (hfew : cs.length < 256) : l.removeEmpty = l := by
  apply if_neg
  rintro ⟨hne, hempty⟩
  rcases List.eq_nil_or_concat cs with rfl | ⟨ds, c, rfl⟩
  · exact hne hcount
  · rw [List.concat_eq_append] at hplaced hcount hcomplete hfew
    rw [List.length_append, List.length_singleton] at hcount hfew
    rw [hplaced.codesCount_last hcount (by omega), List.length_eq_zero_iff] at hempty
    exact hcomplete c (by simp) hempty

theorem removeEmpty_of_empty {l : CheatList} {cs : List FileCheat} {c : FileCheat}
    (hplaced : Placed l (cs ++ [c])) (hcount : l.cheatCount = UInt8.ofNat (cs.length + 1))
    (hempty : c.codes = []) (hfew : cs.length < 256) :
    Placed l.removeEmpty cs ∧
      l.removeEmpty.cheatCount.toNat = if cs.length + 1 = 256 then 0 else cs.length := by
  have hlast := hplaced.codesCount_last hcount hfew
  unfold CheatList.removeEmpty
  rw [hlast, hempty]
  by_cases hround : cs.length + 1 = 256
  · have hzero : l.cheatCount = 0 := by rw [hcount, hround]; rfl
    rw [if_neg (fun h => h.1 hzero), if_pos hround, hzero]
    exact ⟨hplaced.front, rfl⟩
  · have hne : l.cheatCount ≠ 0 := hcount ▸ ofNat_ne_zero (Nat.succ_pos _) (by omega)
    rw [if_pos ⟨hne, rfl⟩, if_neg hround]
    refine ⟨hplaced.front, ?_⟩
    show (l.cheatCount - 1).toNat = cs.length
    rw [hcount, ofNat_succ_sub_one]
    exact UInt8.toNat_ofNat_of_lt' hfew

theorem loaded_of_complete {l : CheatList} {all : List FileLine} {cs : List FileCheat}
    (hplaced : Placed l cs) (hcount : l.cheatCount = UInt8.ofNat cs.length)
    (hcomplete : ∀ c ∈ cs, c.codes ≠ []) (hkept : keptCheats all = cs)
    (hbegun : begunFitting all = cs) (hfew : cs.length < 256) : Loaded l.removeEmpty all := by
  rw [removeEmpty_of_complete hplaced hcount hcomplete hfew]
  refine ⟨hkept ▸ hplaced, ?_⟩
  rw [hbegun, hkept, if_neg hfew.ne, hcount]
  exact UInt8.toNat_ofNat_of_lt' hfew

theorem loaded_of_end {s : LoadState} {all : List FileLine}
    (h : LoadState.Follows s (Parsed.lines ⟨[], none⟩ all)) (hfew : (keptCheats all).length < 256) :
    Loaded s.list.removeEmpty all := by
  have hplaced := h.placed
  have hcount := h.count
  have hbegun : begunFitting all = begunCheats all :=
    takeFitting_self (Nat.le_sub_one_of_lt h.room)
  have hcheats : begunCheats all = (Parsed.lines ⟨[], none⟩ all).cheats := rfl
  rw [← hcheats] at hplaced hcount
  by_cases hcomplete : ∀ c ∈ begunCheats all, c.codes ≠ []
  · have hkept : keptCheats all = begunCheats all := by
      rw [keptCheats, parsedCheats, filter_complete hcomplete]
      exact hbegun
    exact loaded_of_complete hplaced hcount hcomplete hkept hbegun (hkept ▸ hfew)
  · -- only the last cheat can be without codes
    obtain ⟨c, hlast, hempty⟩ :
        ∃ c, (Parsed.lines ⟨[], none⟩ all).last = some c ∧ c.codes = [] := by
      by_contra hnone
      apply hcomplete
      intro c hc
      rcases List.mem_append.mp hc with hc | hc
      · exact h.complete c hc
      · exact fun hempty => hnone ⟨c, Option.mem_toList.mp hc, hempty⟩
    have hsplit : begunCheats all = (Parsed.lines ⟨[], none⟩ all).done ++ [c] := by
      rw [hcheats, Parsed.cheats, hlast]
      rfl
    have hkept : keptCheats all = (Parsed.lines ⟨[], none⟩ all).done := by
      have hroom := h.room
      rw [← hcheats, hsplit, totalSize_append] at hroom
      have hfilter : [c].filter (fun c => decide (c.codes ≠ [])) = [] :=
        List.filter_cons_of_neg (by simpa using hempty)
      rw [keptCheats, parsedCheats, hsplit, List.filter_append, filter_complete h.complete, hfilter,
        List.append_nil, takeFitting_self (by omega)]
    rw [hsplit] at hplaced hcount
    rw [List.length_append, List.length_singleton] at hcount
    obtain ⟨hfront, hnumber⟩ := removeEmpty_of_empty hplaced hcount hempty (hkept ▸ hfew)
    refine ⟨hkept ▸ hfront, ?_⟩
    rw [hnumber, hbegun, hsplit, hkept, List.length_append, List.length_singleton]

/-- The lines that are read are short. -/
def ReadShort (before ls : List FileLine) : Prop :=
  ∀ b l a, ls = b ++ l :: a → totalSize (begunCheats (before ++ b)) < cheatBufferSize →
    l.raw.length < 1024

theorem readShort_nil (before : List FileLine) : ReadShort before [] := by
  intro b l a h
  exact absurd h.symm (by simp)

theorem readShort_cons {before ls : List FileLine} {l : FileLine} :
    ReadShort before (l :: ls) ↔
      (totalSize (begunCheats before) < cheatBufferSize → l.raw.length < 1024) ∧
        ReadShort (before ++ [l]) ls := by
  constructor
  · refine fun h => ⟨fun hroom => h [] l ls rfl (by rwa [List.append_nil]), ?_⟩
    rintro b l' a rfl hroom
    exact h (l :: b) l' a rfl (by rwa [List.append_assoc] at hroom)
  · rintro ⟨hfirst, hrest⟩ b l' a hsplit hroom
    cases b with
    | nil =>
      obtain ⟨rfl, rfl⟩ := List.cons.inj hsplit
      exact hfirst (by rwa [List.append_nil] at hroom)
    | cons l₁ b =>
      obtain ⟨rfl, rfl⟩ := List.cons.inj hsplit
      exact hrest b l' a rfl (by rwa [List.append_assoc])

theorem readShort_of_full {before ls : List FileLine}
    (h : cheatBufferSize ≤ totalSize (begunCheats before)) : ReadShort before ls := by
  intro b l a _ hroom
  have hle : totalSize (begunCheats before) ≤ totalSize (begunCheats (before ++ b)) := by
    rw [begunCheats, begunCheats, lines_append]
    exact totalSize_lines b _
  omega

/-- What the loop makes of a line: it goes on as the parse of the file does, or leaves with the
cheats that are kept. -/
inductive Outcome (all : List FileLine) (p : Parsed) : LoadStep → Prop
  | more {s : LoadState} (h : LoadState.Follows s p) : Outcome all p (.more s)
  | stop {s : LoadState} (hfull : cheatBufferSize ≤ totalSize p.cheats)
    (h : Loaded s.list.removeEmpty all) : Outcome all p (.stop s)

theorem step_outcome {s : LoadState} {all before ls : List FileLine} {l : FileLine}
    (h : LoadState.Follows s (Parsed.lines ⟨[], none⟩ before)) (hall : all = before ++ l :: ls)
    (hfew : (keptCheats all).length < 256) :
    Outcome all ((Parsed.lines ⟨[], none⟩ before).step l.kind) (s.step l.kind) := by
  rcases hbefore : Parsed.lines ⟨[], none⟩ before with ⟨d, last⟩
  rw [hbefore] at h
  rcases hkind : l.kind with _ | x | line
  · exact .more h
  · by_cases hfull : cheatBufferSize ≤ s.cheatSize + 8
    · rcases last with _ | c
      · obtain rfl : d = [] := h.first rfl
        rw [h.size] at hfull
        exact absurd hfull (by decide)
      · obtain ⟨hkept, hbegun⟩ := kept_of_stop_code h hbefore hall hkind hfull
        simp only [LoadState.step, if_pos hfull]
        refine .stop ?_ (loaded_of_complete h.done ?_ h.complete hkept hbegun (hkept ▸ hfew))
        · have hsize := h.size
          simp [Parsed.step, FileCheat.size] at hsize ⊢
          omega
        · show s.list.cheatCount - 1 = UInt8.ofNat d.length
          rw [h.count, cheats_some, List.length_append, List.length_singleton, ofNat_succ_sub_one]
    · simp only [LoadState.step, if_neg hfull]
      rcases last with _ | c
      · have hcheat : s.cheat = none := h.cheat
        simp only [LoadState.addCode, hcheat]
        exact .more h
      · exact .more (h.addCode x (not_le.mp hfull))
  · by_cases hneeds : s.needsCheat = true
    · have hcomplete := h.needsCheat.mp hneeds
      simp only [LoadState.step, if_pos hneeds]
      rcases last with _ | c
      · obtain rfl : d = [] := h.first rfl
        have hroom : s.cheatSize + descriptionSize < cheatBufferSize := by
          rw [h.size]
          decide
        rw [if_neg (not_le.mpr hroom)]
        exact .more ((h.newCheat hcomplete (by decide) hroom).setName line)
      · have hc := hcomplete c rfl
        have hstep : Parsed.step ⟨d, some c⟩ (.name line) = ⟨d ++ [c], some ⟨line, []⟩⟩ := by
          simp only [Parsed.step, if_neg hc]
        rw [hstep]
        by_cases hfull : cheatBufferSize ≤ s.cheatSize + descriptionSize
        · obtain ⟨hkept, hbegun⟩ := kept_of_stop_name h hbefore hall hkind hc hfull
          rw [if_pos hfull]
          rw [hkept] at hfew
          refine .stop ?_ (loaded_of_complete h.placed h.count (complete_concat h hc) hkept hbegun
            hfew)
          have hsize := h.size
          simp [FileCheat.size] at hsize ⊢
          omega
        · obtain ⟨rest, hbegun⟩ := begun_of_name hbefore hall hkind hc
          have hlength := length_le_kept hbegun (complete_concat h hc) h.room
          rw [if_neg hfull]
          have hnew := h.newCheat hcomplete (hlength.trans_lt hfew) (not_le.mp hfull)
          exact .more (hnew.setName line)
    · simp only [LoadState.step, if_neg hneeds]
      rcases last with _ | c
      · exact absurd (h.needsCheat.mpr fun c hc => absurd hc.symm (Option.some_ne_none c)) hneeds
      · have hempty : c.codes = [] := by
          by_contra hc
          refine hneeds (h.needsCheat.mpr ?_)
          rintro c' ⟨⟩
          exact hc
        simp only [Parsed.step, if_pos hempty]
        exact .more (h.setName line)

/-- The loop, from the lines before: without a result only where it reads a line that is too long,
and else with the cheats that are kept. -/
theorem loadFileLines_spec {all : List FileLine} (hfew : (keptCheats all).length < 256)
    (ls : List FileLine) : ∀ (before : List FileLine) (s : LoadState), all = before ++ ls →
      LoadState.Follows s (Parsed.lines ⟨[], none⟩ before) →
      (loadFileLines s ls = none ∧ ¬ReadShort before ls) ∨
        ∃ s', loadFileLines s ls = some s' ∧ ReadShort before ls ∧
          Loaded s'.list.removeEmpty all := by
  induction ls with
  | nil =>
    intro before s hall h
    rw [List.append_nil] at hall
    exact .inr ⟨s, rfl, readShort_nil before, loaded_of_end (hall ▸ h) hfew⟩
  | cons l ls ih =>
    intro before s hall h
    have hroom : totalSize (begunCheats before) < cheatBufferSize := h.room
    have hnext : Parsed.lines ⟨[], none⟩ (before ++ [l]) =
        (Parsed.lines ⟨[], none⟩ before).step l.kind := lines_append _ _ _
    rw [loadFileLines, readShort_cons]
    by_cases hshort : l.raw.length < 1024
    · have houtcome := step_outcome h hall hfew
      rw [← hnext] at houtcome
      rw [if_pos hshort]
      cases hstep : s.step l.kind with
      | stop s' =>
        rw [hstep] at houtcome
        obtain ⟨hfull, hloaded⟩ : cheatBufferSize ≤ totalSize (begunCheats (before ++ [l])) ∧
            Loaded s'.list.removeEmpty all := by
          cases houtcome with
          | stop hfull hloaded => exact ⟨hfull, hloaded⟩
        exact .inr ⟨s', rfl, ⟨fun _ => hshort, readShort_of_full hfull⟩, hloaded⟩
      | more s' =>
        rw [hstep] at houtcome
        have hfollows : LoadState.Follows s' (Parsed.lines ⟨[], none⟩ (before ++ [l])) := by
          cases houtcome with
          | more hfollows => exact hfollows
        have hsize : ¬cheatBufferSize ≤ s'.cheatSize := by
          rw [hfollows.size]
          exact not_le.mpr hfollows.room
        simp only [if_neg hsize]
        rcases ih (before ++ [l]) s' (by rw [hall, List.append_assoc]; rfl) hfollows with
          ⟨hnone, hlong⟩ | ⟨s'', hsome, hread, hloaded⟩
        · exact .inl ⟨hnone, fun h => hlong h.2⟩
        · exact .inr ⟨s'', hsome, ⟨fun _ => hshort, hread⟩, hloaded⟩
    · rw [if_neg hshort]
      exact .inl ⟨rfl, fun h => hshort (h.1 hroom)⟩

/-! ## The load -/

theorem length_kept_le (all : List FileLine) :
    (keptCheats all).length ≤ (begunFitting all).length := by
  apply length_takeFitting_front
  rcases begunCheats_eq all with h | ⟨e, h⟩
  · exact ⟨[], by rw [h, List.append_nil]⟩
  · rw [h]
    exact List.prefix_append _ _

theorem length_begunFitting_le (all : List FileLine) :
    (begunFitting all).length ≤ (keptCheats all).length + 1 := by
  rw [begunFitting]
  rcases begunCheats_eq all with h | ⟨e, h⟩
  · rw [h]
    exact Nat.le_succ _
  · rw [h]
    exact length_takeFitting_concat _ _ e

theorem Loaded.holds {l : CheatList} {all : List FileLine} (h : Loaded l all)
    (hround : (begunFitting all).length ≠ 256) : l.Holds (keptCheats all) := by
  have hplaced := h.placed
  have hend : ∀ i, i < (keptCheats all).length →
      cheatEnd l.buffer (l.cheats i) = totalSize ((keptCheats all).take (i + 1)) := by
    intro i hi
    obtain ⟨hplace, hcodes⟩ := hplaced i _ (List.getElem?_eq_getElem hi)
    rw [hplace, cheatEnd_eq hcodes, List.take_succ_eq_append_getElem hi, totalSize_append]
    rfl
  have hmono : ∀ i j, i ≤ j →
      totalSize ((keptCheats all).take i) ≤ totalSize ((keptCheats all).take j) := by
    intro i j hij
    obtain ⟨rest, hrest⟩ := List.take_prefix_take_left (l := keptCheats all) hij
    rw [← hrest, totalSize_append]
    exact Nat.le_add_right _ _
  refine ⟨?_, ?_, ?_, ?_⟩
  · rw [h.count, if_neg hround]
  · intro i c hc
    obtain ⟨hplace, hcodes⟩ := hplaced i c hc
    rw [hplace, hcodes]
  · intro i j hij hj
    rw [hend i (hij.trans hj), (hplaced j _ (List.getElem?_eq_getElem hj)).1]
    exact hmono (i + 1) j hij
  · intro i hi
    rw [hend i hi]
    calc totalSize ((keptCheats all).take (i + 1)) ≤ totalSize (keptCheats all) := by
          have hle := hmono (i + 1) (keptCheats all).length hi
          rwa [List.take_length] at hle
      _ ≤ cheatBufferSize - 1 := totalSize_takeFitting_le _ _
      _ ≤ cheatBufferSize := Nat.sub_le _ _

theorem follows_start (s : CheatList) (titleId : UInt64) :
    LoadState.Follows ⟨{ s with cheatCount := 0, titleInfo := titleId }, none, 0⟩ ⟨[], none⟩ where
  size := rfl
  room := by decide
  count := rfl
  few := by decide
  done := fun i c hc => by simp at hc
  complete := fun c hc => by simp at hc
  first := fun _ => rfl
  cheat := rfl
  last := fun c hc => absurd hc.symm (Option.some_ne_none c)

theorem load_file {s : CheatList} {titleId : UInt64} {titles cheats : Option Bytes} {file : Bytes}
    (hfile : titles.or cheats = some file)
    (hfew : (keptCheats (fileLines [] file)).length < 256) :
    (cheatLoadCheatsIntoMemory s titleId titles cheats = none ∧
        ¬ReadShort [] (fileLines [] file)) ∨
      ∃ t, cheatLoadCheatsIntoMemory s titleId titles cheats = some t ∧
        ReadShort [] (fileLines [] file) ∧ Loaded t (fileLines [] file) := by
  have hload : cheatLoadCheatsIntoMemory s titleId titles cheats =
      (loadFileLines ⟨{ s with cheatCount := 0, titleInfo := titleId }, none, 0⟩
        (fileLines [] file)).map fun s => s.list.removeEmpty := by
    simp only [cheatLoadCheatsIntoMemory, hfile, loadLines_eq _ _ file (Nat.lt_succ_self _)]
  rcases loadFileLines_spec hfew (fileLines [] file) [] _ rfl (follows_start s titleId) with
    ⟨hnone, hlong⟩ | ⟨t, hsome, hshort, hloaded⟩
  · exact .inl ⟨by rw [hload, hnone]; rfl, hlong⟩
  · exact .inr ⟨t.list.removeEmpty, by rw [hload, hsome]; rfl, hshort, hloaded⟩

theorem holds_empty {l : CheatList} (h : l.cheatCount = 0) : l.Holds (fittingCheats []) where
  count := by
    rw [h]
    rfl
  codes := fun i c hc => absurd hc.symm (Option.some_ne_none c)
  disjoint := fun i j _ hj => absurd hj (Nat.not_lt_zero j)
  inside := fun i hi => absurd hi (Nat.not_lt_zero i)

theorem loadsWhole_nil : LoadsWhole [] where
  short := by
    intro before l after hsplit _
    have hl : l ∈ fileLines [] [] := hsplit ▸ List.mem_append_right _ List.mem_cons_self
    rw [List.mem_singleton.mp hl]
    decide
  loose := by
    intro cs hcs
    rw [List.prefix_nil.mp hcs]
    decide
  few := by decide

/-- The cheats in memory after a load are those of the file that fit, if and only if the lines that
are read are short, no cheat ends with the last byte of the buffer and fewer than 256 begin. -/
theorem cheatLoadCheatsIntoMemory_holds_iff (s : CheatList) (titleId : UInt64)
    (titles cheats : Option Bytes) :
    (∃ t, cheatLoadCheatsIntoMemory s titleId titles cheats = some t ∧
        t.Holds (fittingCheats ((titles.or cheats).getD []))) ↔
      LoadsWhole ((titles.or cheats).getD []) := by
  cases hfile : titles.or cheats with
  | none =>
    have hload : cheatLoadCheatsIntoMemory s titleId titles cheats =
        some { s with cheatCount := 0, titleInfo := titleId } := by
      simp only [cheatLoadCheatsIntoMemory, hfile]
    exact iff_of_true ⟨_, hload, holds_empty rfl⟩ loadsWhole_nil
  | some file =>
    rw [Option.getD_some]
    have hfits : (keptCheats (fileLines [] file)).length ≤ (fittingCheats file).length :=
      length_takeFitting_mono (Nat.sub_le _ _) _
    constructor
    · rintro ⟨t, ht, hholds⟩
      have hfew : (keptCheats (fileLines [] file)).length < 256 := by
        have hcount := t.cheatCount.toNat_lt
        rw [hholds.count] at hcount
        exact hfits.trans_lt hcount
      rcases load_file hfile hfew with ⟨hnone, -⟩ | ⟨t', ht', hshort, hloaded⟩
      · exact absurd (hnone.symm.trans ht) (Option.some_ne_none t).symm
      · obtain rfl := Option.some.inj (ht.symm.trans ht')
        have hcount := hloaded.count
        rw [hholds.count] at hcount
        have hbegun := length_begunFitting_le (fileLines [] file)
        have hround : (begunFitting (fileLines [] file)).length ≠ 256 := by
          intro hround
          rw [if_pos hround] at hcount
          omega
        rw [if_neg hround] at hcount
        refine ⟨hshort, fun cs hcs hsize => ?_, ?_⟩
        · have hmore : (keptCheats (fileLines [] file)).length < (fittingCheats file).length :=
            @takeFitting_exact (cheatBufferSize - 1) _ _ hcs hsize
          omega
        · show (begunFitting (fileLines [] file)).length < 256
          omega
    · intro hwhole
      have hbegun : (begunFitting (fileLines [] file)).length < 256 := hwhole.few
      have hfew := (length_kept_le (fileLines [] file)).trans_lt hbegun
      have hsame : fittingCheats file = keptCheats (fileLines [] file) :=
        @takeFitting_loose (cheatBufferSize - 1) _ hwhole.loose
      rcases load_file hfile hfew with ⟨-, hlong⟩ | ⟨t, ht, -, hloaded⟩
      · exact absurd hwhole.short hlong
      · exact ⟨t, ht, hsame ▸ hloaded.holds hbegun.ne⟩

/-- A file of 256 cheats of one code each. -/
def manyCheats : Bytes :=
  (List.replicate 256 ([0x41, 0x0A] ++ List.replicate 8 0x30 ++ [0x20] ++ List.replicate 8 0x30 ++
    [0x0A])).flatten

def noCheats : CheatList := ⟨fun _ => 0, fun _ => 0, 0, 0⟩

theorem fittingCheats_manyCheats : (fittingCheats manyCheats).length = 256 := by decide +kernel

/-- The count of the cheats has eight bits. -/
theorem cheatLoadCheatsIntoMemory_manyCheats :
    ¬∃ t, cheatLoadCheatsIntoMemory noCheats 0 (some manyCheats) none = some t ∧
      t.Holds (fittingCheats manyCheats) := by
  rintro ⟨t, -, hholds⟩
  have hcount := t.cheatCount.toNat_lt
  rw [hholds.count, fittingCheats_manyCheats] at hcount
  exact absurd hcount (by decide)

end Presence3DS.Cheats
