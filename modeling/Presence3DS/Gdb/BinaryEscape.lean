import Presence3DS.Gdb.Packets

/-! The escaped form of the debugger's binary data (`net.c`), and the data that a packet has stored
in the memory of its target (`mem.c`). -/

namespace Presence3DS.Gdb.Packets
open Buffer CString

/-- `$`, `#`, `}` and `*` -/
def isSpecial (c : UInt8) : Bool := c == 0x24 || c == 0x23 || c == 0x7d || c == 0x2a

/-- The loop of `GDB_EscapeBinaryData` for the bytes `src` and the room that is left: what it
writes, and how many bytes it takes. -/
def escapeUpTo : ℕ → Bytes → Bytes × ℕ
  | 0, _ => ([], 0)
  | _ + 1, [] => ([], 0)
  | room + 1, c :: src =>
    if isSpecial c then
      if room = 0 then ([], 0)
      else
        let (dst, n) := escapeUpTo (room - 1) src
        (0x7d :: (c ^^^ 0x20) :: dst, n + 1)
    else
      let (dst, n) := escapeUpTo room src
      (c :: dst, n + 1)

def gdbEscapeBinaryData (src : Bytes) (maxLen : ℕ) : Bytes × ℕ :=
  let maxLen := if src.length ≤ maxLen then src.length else maxLen
  escapeUpTo maxLen src

/-- `GDB_UnescapeBinaryData` of the first `len` bytes of what stands at `src`. The byte behind an
escape is read even where it is the one behind them. -/
def gdbUnescapeBinaryData : ℕ → Bytes → Bytes
  | 0, _ => []
  | _ + 1, [] => []
  | len + 1, c :: src =>
    if c = 0x7d then
      match src with
      | d :: src => (d ^^^ 0x20) :: gdbUnescapeBinaryData (len - 1) src
      | [] => [0x20]
    else c :: gdbUnescapeBinaryData len src

/-- What becomes of a request to write escaped data. -/
inductive RawWrite where
  | noMemory
  | errno (n : ℕ)
  | write (addr : ℕ) (data : Bytes)
deriving DecidableEq

/-- `GDB_DECLARE_HANDLER(WriteMemoryRaw)` once the address and the length have been parsed, with
the bytes from `dataStart` on and how many of them are in the buffer. -/
def writeMemoryRaw (room addr len : ℕ) (dataStart : Bytes) : RawWrite :=
  if room ≤ len then .noMemory
  else
    let data := gdbUnescapeBinaryData len dataStart
    let n := data.length
    if n ≠ len then .errno n else .write addr data

/-! ## The escaped form -/

/-- The escaped form of one byte. -/
def escaped (c : UInt8) : Bytes := if isSpecial c then [0x7d, c ^^^ 0x20] else [c]

def escapedForm (src : Bytes) : Bytes := src.flatMap escaped

/-- Each special byte begins an escape, and each escape is whole. -/
inductive WellEscaped : Bytes → Prop where
  | nil : WellEscaped []
  | byte {c : UInt8} {s : Bytes} (hc : isSpecial c = false) (hs : WellEscaped s) :
    WellEscaped (c :: s)
  | escape {c : UInt8} {s : Bytes} (hc : isSpecial c = false) (hs : WellEscaped s) :
    WellEscaped (0x7d :: c :: s)

variable {c : UInt8} {src dst tail : Bytes} {room maxLen len : ℕ}

theorem escaped_special (h : isSpecial c = true) : escaped c = [0x7d, c ^^^ 0x20] := if_pos h

theorem escaped_plain (h : isSpecial c = false) : escaped c = [c] :=
  if_neg (by rw [h]; exact Bool.false_ne_true)

theorem isSpecial_xor (h : isSpecial c = true) : isSpecial (c ^^^ 0x20) = false :=
  forall_byte (P := fun c => isSpecial c = true → isSpecial (c ^^^ 0x20) = false)
    (by decide +kernel) c h

theorem xor_xor (c : UInt8) : c ^^^ 0x20 ^^^ 0x20 = c := by
  rw [UInt8.xor_assoc]
  exact UInt8.xor_zero

theorem ne_escape (h : isSpecial c = false) : c ≠ 0x7d := by
  rintro rfl
  exact absurd h (by decide)

theorem wellEscaped_escapedForm (src : Bytes) : WellEscaped (escapedForm src) := by
  induction src with
  | nil => exact .nil
  | cons c src ih =>
    show WellEscaped (escaped c ++ escapedForm src)
    cases hc : isSpecial c with
    | true =>
      rw [escaped_special hc]
      exact .escape (isSpecial_xor hc) ih
    | false =>
      rw [escaped_plain hc]
      exact .byte hc ih

theorem length_le_escapedForm (src : Bytes) : src.length ≤ (escapedForm src).length := by
  induction src with
  | nil => exact le_rfl
  | cons c src ih =>
    show src.length + 1 ≤ (escaped c ++ escapedForm src).length
    rw [List.length_append, Nat.add_comm]
    refine Nat.add_le_add ?_ ih
    unfold escaped
    split_ifs
    · exact (by decide : 1 ≤ 2)
    · exact le_rfl

theorem unescape_zero (src : Bytes) : gdbUnescapeBinaryData 0 src = [] := by
  cases src with
  | nil => rfl
  | cons c src => rfl

theorem unescape_escape (len : ℕ) (d : UInt8) (src : Bytes) :
    gdbUnescapeBinaryData (len + 1) (0x7d :: d :: src) =
      (d ^^^ 0x20) :: gdbUnescapeBinaryData (len - 1) src := by
  rw [gdbUnescapeBinaryData.eq_def]
  rfl

theorem unescape_plain (len : ℕ) (hc : isSpecial c = false) (src : Bytes) :
    gdbUnescapeBinaryData (len + 1) (c :: src) = c :: gdbUnescapeBinaryData len src := by
  rw [gdbUnescapeBinaryData.eq_def]
  exact if_neg (ne_escape hc)

theorem escapedForm_cons (c : UInt8) (src : Bytes) :
    escapedForm (c :: src) = escaped c ++ escapedForm src := rfl

theorem unescape_escapedForm (src tail : Bytes) :
    gdbUnescapeBinaryData (escapedForm src).length (escapedForm src ++ tail) = src := by
  induction src with
  | nil => exact unescape_zero tail
  | cons c src ih =>
    rw [escapedForm_cons]
    cases hc : isSpecial c with
    | true =>
      rw [escaped_special hc]
      show gdbUnescapeBinaryData ((escapedForm src).length + 1 + 1)
        (0x7d :: (c ^^^ 0x20) :: (escapedForm src ++ tail)) = _
      rw [unescape_escape, Nat.add_sub_cancel, xor_xor, ih]
    | false =>
      rw [escaped_plain hc]
      show gdbUnescapeBinaryData ((escapedForm src).length + 1) (c :: (escapedForm src ++ tail)) = _
      rw [unescape_plain _ hc, ih]

/-! ## What is escaped up to a limit -/

theorem escapeUpTo_special (hc : isSpecial c = true) :
    escapeUpTo (room + 2) (c :: src) =
      (0x7d :: (c ^^^ 0x20) :: (escapeUpTo room src).1, (escapeUpTo room src).2 + 1) := by
  rw [escapeUpTo, if_pos hc, if_neg (Nat.succ_ne_zero room)]
  rfl

theorem escapeUpTo_full (hc : isSpecial c = true) : escapeUpTo 1 (c :: src) = ([], 0) := by
  rw [escapeUpTo, if_pos hc, if_pos rfl]

theorem escapeUpTo_plain (hc : isSpecial c = false) : escapeUpTo (room + 1) (c :: src) =
    (c :: (escapeUpTo room src).1, (escapeUpTo room src).2 + 1) := by
  rw [escapeUpTo, if_neg (by rw [hc]; exact Bool.false_ne_true)]

theorem escapeUpTo_spec (room : ℕ) (src : Bytes) :
    (escapeUpTo room src).1 = escapedForm (src.take (escapeUpTo room src).2) ∧
      (escapeUpTo room src).1.length ≤ room ∧ (escapeUpTo room src).2 ≤ src.length ∧
      ((escapeUpTo room src).2 = src.length ↔ (escapedForm src).length ≤ room) := by
  induction src generalizing room with
  | nil =>
    have hnil : escapeUpTo room [] = ([], 0) := by
      cases room with
      | zero => rfl
      | succ room => rfl
    rw [hnil]
    exact ⟨rfl, Nat.zero_le _, le_rfl, iff_of_true rfl (Nat.zero_le _)⟩
  | cons c src ih =>
    rw [escapedForm_cons, List.length_append, List.length_cons]
    cases hc : isSpecial c with
    | true =>
      rw [escaped_special hc]
      rcases room with _ | _ | room
      · exact ⟨rfl, le_rfl, Nat.zero_le _, iff_of_false (Nat.succ_ne_zero _).symm (by simp)⟩
      · rw [escapeUpTo_full hc]
        refine ⟨rfl, Nat.zero_le _, Nat.zero_le _, iff_of_false (Nat.succ_ne_zero _).symm ?_⟩
        show ¬2 + _ ≤ 1
        omega
      · obtain ⟨hform, hlen, hle, hall⟩ := ih room
        rw [escapeUpTo_special hc]
        refine ⟨?_, Nat.add_le_add_right hlen 2, Nat.succ_le_succ hle, ?_⟩
        · rw [List.take_succ_cons, escapedForm_cons, escaped_special hc, ← hform]
          rfl
        · rw [Nat.add_right_cancel_iff, hall]
          show _ ↔ 2 + _ ≤ room + 2
          rw [Nat.add_comm 2, Nat.add_le_add_iff_right]
    | false =>
      rw [escaped_plain hc]
      rcases room with _ | room
      · exact ⟨rfl, le_rfl, Nat.zero_le _, iff_of_false (Nat.succ_ne_zero _).symm (by simp)⟩
      · obtain ⟨hform, hlen, hle, hall⟩ := ih room
        rw [escapeUpTo_plain hc]
        refine ⟨?_, Nat.succ_le_succ hlen, Nat.succ_le_succ hle, ?_⟩
        · rw [List.take_succ_cons, escapedForm_cons, escaped_plain hc, ← hform]
          rfl
        · rw [Nat.add_right_cancel_iff, hall]
          show _ ↔ 1 + _ ≤ room + 1
          rw [Nat.add_comm 1, Nat.add_le_add_iff_right]

theorem escapedForm_length_le_iff (src : Bytes) :
    (escapedForm src).length ≤ src.length ↔ ∀ c ∈ src, isSpecial c = false := by
  induction src with
  | nil => exact iff_of_true le_rfl fun c hc => absurd hc List.not_mem_nil
  | cons c src ih =>
    rw [List.forall_mem_cons, escapedForm_cons, List.length_append, List.length_cons, ← ih]
    have hle := length_le_escapedForm src
    cases hc : isSpecial c with
    | true =>
      rw [escaped_special hc]
      refine iff_of_false ?_ fun h => absurd h.1 Bool.true_eq_false.mp
      show ¬2 + _ ≤ _
      omega
    | false =>
      rw [escaped_plain hc]
      show 1 + _ ≤ _ ↔ _
      rw [Nat.add_comm 1, Nat.add_le_add_iff_right]
      exact (and_iff_right rfl).symm

/-- What the escaping of data up to a limit is to do. -/
structure EscapesWell (src : Bytes) (maxLen : ℕ) (r : Bytes × ℕ) : Prop where
  unescapes : ∀ tail, gdbUnescapeBinaryData r.1.length (r.1 ++ tail) = src.take r.2
  consumes : r.2 ≤ src.length
  within : r.1.length ≤ maxLen
  well : WellEscaped r.1
  all : (escapedForm src).length ≤ maxLen → r.2 = src.length

theorem escapesWell_iff (src : Bytes) (maxLen : ℕ) :
    EscapesWell src maxLen (gdbEscapeBinaryData src maxLen) ↔
      (∀ c ∈ src, isSpecial c = false) ∨ maxLen < (escapedForm src).length := by
  unfold gdbEscapeBinaryData
  generalize hroom : (if src.length ≤ maxLen then src.length else maxLen) = room
  have hmin : room = min src.length maxLen := by
    rw [← hroom, Nat.min_def]
  obtain ⟨hform, hlen, hle, hall⟩ := escapeUpTo_spec room src
  dsimp only
  have hlimit : room ≤ maxLen := hmin.trans_le (Nat.min_le_right _ _)
  rw [← escapedForm_length_le_iff]
  constructor
  · intro h
    by_contra hmore
    obtain ⟨hspecial, hfits⟩ := not_or.mp hmore
    have hwhole := hall.mp (h.all (Nat.not_lt.mp hfits))
    exact hspecial (hwhole.trans (hmin.trans_le (Nat.min_le_left _ _)))
  · intro h
    refine ⟨fun tail => ?_, hle, hlen.trans hlimit, ?_, fun hfits => hall.mpr ?_⟩
    · rw [hform, unescape_escapedForm]
    · rw [hform]
      exact wellEscaped_escapedForm _
    · rw [hmin, Nat.le_min]
      exact ⟨h.resolve_right (Nat.not_lt.mpr hfits), hfits⟩

/-! ## What a packet has written -/

theorem unescape_length_le (len : ℕ) (src : Bytes) :
    (gdbUnescapeBinaryData len src).length ≤ len := by
  fun_induction gdbUnescapeBinaryData len src with
  | case1 src => exact le_rfl
  | case2 len => exact Nat.zero_le _
  | case3 len d src ih => exact Nat.succ_le_succ (ih.trans (Nat.sub_le len 1))
  | case4 len => exact Nat.succ_le_succ (Nat.zero_le len)
  | case5 len c src hc ih => exact Nat.succ_le_succ ih

theorem unescape_declared (data tail : Bytes) :
    gdbUnescapeBinaryData data.length (escapedForm data ++ tail) = data ↔
      ∀ c ∈ data.dropLast, isSpecial c = false := by
  induction data with
  | nil => exact iff_of_true (unescape_zero _) fun c hc => absurd hc List.not_mem_nil
  | cons c data ih =>
    rw [escapedForm_cons, List.length_cons]
    cases hc : isSpecial c with
    | true =>
      rw [escaped_special hc]
      show gdbUnescapeBinaryData (data.length + 1)
        (0x7d :: (c ^^^ 0x20) :: (escapedForm data ++ tail)) = _ ↔ _
      rw [unescape_escape, xor_xor, List.cons_inj_right]
      cases data with
      | nil => exact iff_of_true (unescape_zero _) fun c hc => absurd hc List.not_mem_nil
      | cons d data =>
        -- the bytes that the escape has taken are missing behind it
        refine iff_of_false (fun h => ?_) fun h => ?_
        · have hle := unescape_length_le data.length (escapedForm (d :: data) ++ tail)
          have hlen := congrArg List.length h
          exact absurd (hlen.symm.trans_le hle) (Nat.not_succ_le_self _)
        · have hplain := h c List.mem_cons_self
          exact Bool.false_ne_true (hplain.symm.trans hc)
    | false =>
      rw [escaped_plain hc]
      show gdbUnescapeBinaryData (data.length + 1) (c :: (escapedForm data ++ tail)) = _ ↔ _
      rw [unescape_plain _ hc, List.cons_inj_right, ih]
      cases data with
      | nil => rfl
      | cons d data =>
        rw [List.dropLast_cons_cons, List.forall_mem_cons]
        exact (and_iff_right hc).symm

theorem writeMemoryRaw_iff (room addr : ℕ) (data tail : Bytes) :
    writeMemoryRaw room addr data.length (escapedForm data ++ tail) = .write addr data ↔
      data.length < room ∧ ∀ c ∈ data.dropLast, isSpecial c = false := by
  rw [← unescape_declared data tail]
  unfold writeMemoryRaw
  generalize gdbUnescapeBinaryData data.length (escapedForm data ++ tail) = read
  by_cases hroom : room ≤ data.length
  · rw [if_pos hroom]
    exact iff_of_false (fun h => RawWrite.noConfusion h) fun h => absurd hroom (Nat.not_le.mpr h.1)
  · rw [if_neg hroom]
    constructor
    · intro h
      dsimp only at h
      split_ifs at h with hlen
      exact ⟨Nat.not_le.mp hroom, (RawWrite.write.inj h).2⟩
    · rintro ⟨-, rfl⟩
      exact if_neg (not_not_intro rfl)

/-! ## Both together -/

/-- Data is escaped as it is to be, and escaped data is stored as it was declared, exactly where
the two lengths of it are not confused. -/
theorem binaryData_iff (src : Bytes) (maxLen room addr : ℕ) (data tail : Bytes) :
    (EscapesWell src maxLen (gdbEscapeBinaryData src maxLen) ↔
      (∀ c ∈ src, isSpecial c = false) ∨ maxLen < (escapedForm src).length) ∧
    (writeMemoryRaw room addr data.length (escapedForm data ++ tail) = .write addr data ↔
      data.length < room ∧ ∀ c ∈ data.dropLast, isSpecial c = false) :=
  ⟨escapesWell_iff src maxLen, writeMemoryRaw_iff room addr data tail⟩

/-- A read of `$` with room for a hundred bytes gives nothing, and a write of `$A` is refused with
the number of the bytes that were found as the error. -/
theorem dollar_is_lost :
    (escapedForm [0x24]).length ≤ 100 ∧ gdbEscapeBinaryData [0x24] 100 = ([], 0) ∧
    ¬EscapesWell [0x24] 100 (gdbEscapeBinaryData [0x24] 100) ∧
    escapedForm [0x24, 0x41] = [0x7d, 0x04, 0x41] ∧
    writeMemoryRaw 0x400 0x100000 2 [0x7d, 0x04, 0x41] = .errno 1 := by
  have hescape : gdbEscapeBinaryData [0x24] 100 = ([], 0) := by decide +kernel
  refine ⟨by decide, hescape, fun h => ?_, by decide +kernel, by decide +kernel⟩
  have hall := h.all (by decide)
  rw [hescape] at hall
  exact absurd hall (by decide)

end Presence3DS.Gdb.Packets
