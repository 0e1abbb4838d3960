import Mathlib.Data.List.Induction
import Presence3DS.Lib.CString
import Presence3DS.Lib.CellRing

/-! The log that the menu shows (`discord_log.c`): a ring of characters, which is made straight in
place for a reader. -/

namespace Presence3DS.Discord
open CString

def discordLogSize : ℕ := 1024

def maxCharsPerLogLine : ℕ := 50

/-- `g_logBuffer`, `g_logHead`, `g_logTail` and `g_logCount` -/
structure DiscordLog where
  buffer : Bytes
  head : ℕ
  tail : ℕ
  count : ℕ
deriving DecidableEq

namespace DiscordLog

def ringPut (l : DiscordLog) (c : UInt8) : DiscordLog :=
  let buffer := l.buffer.set l.head c
  let head := (l.head + 1) % discordLogSize
  if l.count < discordLogSize - 1 then ⟨buffer, head, l.tail, l.count + 1⟩
  else ⟨buffer, head, (l.tail + 1) % discordLogSize, l.count⟩

/-- `log_out_cb`, with the column in the line. -/
def logOutCb (s : DiscordLog × ℕ) (c : UInt8) : DiscordLog × ℕ :=
  if c = 0x0A then (s.1.ringPut 0x0A, 0)
  else if maxCharsPerLogLine ≤ s.2 then ((s.1.ringPut 0x0A).ringPut c, 1)
  else (s.1.ringPut c, s.2 + 1)

/-- `DiscordLog_Clear` -/
def clear (l : DiscordLog) : DiscordLog := ⟨l.buffer.set 0 0, 0, 0, 0⟩

/-- `DiscordLog_Init`, of variables that were never written. -/
def init : DiscordLog := clear ⟨List.replicate discordLogSize 0, 0, 0, 0⟩

/-- `DiscordLog_Printf`, with the characters that the format makes. -/
def printf (l : DiscordLog) (chars : Bytes) : DiscordLog := (chars.foldl logOutCb (l, 0)).1

/-- `reverse_range` -/
def reverseRange (buffer : Bytes) (lo hi : ℕ) : Bytes :=
  if lo < hi then
    reverseRange ((buffer.set lo (buffer.getD hi 0)).set hi (buffer.getD lo 0)) (lo + 1) (hi - 1)
  else buffer
termination_by hi - lo

/-- The part of `DiscordLog_GetBuffer` before the terminator. -/
def linearize (l : DiscordLog) : DiscordLog :=
  if l.count = 0 then { l with head := 0, tail := 0 }
  else if l.tail ≠ 0 then
    let buffer := reverseRange l.buffer 0 (discordLogSize - 1)
    let buffer := reverseRange buffer 0 (discordLogSize - 1 - l.tail)
    let buffer := reverseRange buffer (discordLogSize - l.tail) (discordLogSize - 1)
    { l with buffer := buffer, tail := 0, head := l.count }
  else l

/-- `DiscordLog_GetBuffer`, whose caller gets the buffer itself. -/
def getBuffer (l : DiscordLog) : DiscordLog :=
  let l := l.linearize
  { l with buffer := l.buffer.set l.count 0 }

end DiscordLog

/-! ## What is written -/

/-- The characters of a print, with the ends of line that are put between them. -/
def wrapped : ℕ → Bytes → Bytes
  | _, [] => []
  | col, c :: chars =>
    if c = 0x0A then c :: wrapped 0 chars
    else if maxCharsPerLogLine ≤ col then 0x0A :: c :: wrapped 1 chars
    else c :: wrapped (col + 1) chars

inductive LogEvent where
  | print (chars : Bytes)
  | read
  | clear

def DiscordLog.step (l : DiscordLog) : LogEvent → DiscordLog
  | .print chars => l.printf chars
  | .read => l.getBuffer
  | .clear => l.clear

def DiscordLog.run (events : List LogEvent) : DiscordLog := events.foldl DiscordLog.step init

/-- The characters written since the last clear. -/
def written (events : List LogEvent) : Bytes :=
  events.foldl (fun text e => match e with
    | .print chars => text ++ wrapped 0 chars
    | .read => text
    | .clear => []) []

/-- The last characters of a text that a ring keeps. -/
def lastChars (text : Bytes) : Bytes := text.drop (text.length - (discordLogSize - 1))

theorem length_lastChars (text : Bytes) :
    (lastChars text).length = min text.length (discordLogSize - 1) := by
  rw [lastChars, List.length_drop]
  omega

theorem printf_eq (l : DiscordLog) (chars : Bytes) :
    l.printf chars = (wrapped 0 chars).foldl DiscordLog.ringPut l := by
  have hfold : ∀ col, (chars.foldl DiscordLog.logOutCb (l, col)).1 =
      (wrapped col chars).foldl DiscordLog.ringPut l := by
    induction chars generalizing l with
    | nil => exact fun _ => rfl
    | cons c chars ih =>
      intro col
      rw [List.foldl_cons, wrapped, DiscordLog.logOutCb]
      split_ifs with hline
      · rw [hline]
        exact ih _ 0
      · exact ih _ 1
      · exact ih _ (col + 1)
  exact hfold 0

/-! ## Reversals -/

theorem set_append_cons {α : Type*} (front back : List α) (a b : α) :
    (front ++ a :: back).set front.length b = front ++ b :: back := by
  rw [List.set_append_right _ _ le_rfl, Nat.sub_self, List.set_cons_zero]

theorem reverseRange_append (front back : Bytes) (middle : Bytes) :
    DiscordLog.reverseRange (front ++ (middle ++ back)) front.length
      (front.length + middle.length - 1) = front ++ (middle.reverse ++ back) := by
  induction middle using List.bidirectionalRec generalizing front back with
  | nil =>
    rw [DiscordLog.reverseRange, if_neg (by rw [List.length_nil]; omega)]
    rfl
  | singleton a =>
    rw [DiscordLog.reverseRange, if_neg (by rw [List.length_singleton]; omega)]
    rfl
  | cons_append a middle z ih =>
    have hbytes : ∀ c d : UInt8, front ++ (c :: (middle ++ [d]) ++ back) =
        (front ++ c :: middle) ++ d :: back := by
      intro c d
      simp
    have hlength (c : UInt8) :
        (front ++ c :: middle).length = front.length + middle.length + 1 := by
      rw [List.length_append, List.length_cons, Nat.add_assoc]
    have hlast : front.length + (a :: (middle ++ [z])).length - 1 =
        front.length + middle.length + 1 := by
      simp only [List.length_cons, List.length_append, List.length_nil]
      omega
    have hlo : (front ++ (a :: (middle ++ [z]) ++ back)).getD front.length 0 = a := by simp
    have hhi : (front ++ (a :: (middle ++ [z]) ++ back)).getD
        (front.length + middle.length + 1) 0 = z := by
      rw [hbytes, ← hlength a]
      simp
    -- the ends change places, and what is between them is reversed
    have hswap : ((front ++ (a :: (middle ++ [z]) ++ back)).set front.length z).set
        (front.length + middle.length + 1) a = (front ++ [z]) ++ (middle ++ a :: back) := by
      rw [List.cons_append, set_append_cons, ← List.cons_append, hbytes, ← hlength z,
        set_append_cons]
      simp
    have hnext := ih (front ++ [z]) (a :: back)
    rw [List.length_append, List.length_singleton] at hnext
    have hhigh : front.length + middle.length + 1 - 1 = front.length + 1 + middle.length - 1 := by
      omega
    rw [hlast, DiscordLog.reverseRange, if_pos (by omega), hlo, hhi, hswap, hhigh, hnext]
    simp

theorem reverseRange_rotates {front back : Bytes} (h : (front ++ back).length = discordLogSize) :
    DiscordLog.reverseRange (DiscordLog.reverseRange
      (DiscordLog.reverseRange (front ++ back) 0 (discordLogSize - 1))
        0 (discordLogSize - 1 - front.length))
      (discordLogSize - front.length) (discordLogSize - 1) = back ++ front := by
  have hwhole := reverseRange_append [] [] (front ++ back)
  have hfirst := reverseRange_append [] front.reverse back.reverse
  have hsecond := reverseRange_append back [] front.reverse
  rw [List.length_append] at h
  simp only [List.nil_append, List.append_nil, List.length_nil, List.length_append,
    List.length_reverse, List.reverse_append, List.reverse_reverse, Nat.zero_add, h]
    at hwhole hfirst hsecond
  have hback : back.length - 1 = discordLogSize - 1 - front.length := by omega
  have hlow : back.length = discordLogSize - front.length := by omega
  have hhigh : back.length + front.length - 1 = discordLogSize - 1 := by omega
  rw [hwhole, ← hback, hfirst, ← hlow, ← hhigh, hsecond]

/-! ## The ring -/

namespace DiscordLog

def ring (l : DiscordLog) : CellRing UInt8 := ⟨fun i => l.buffer.getD i 0, l.tail, l.head, l.count⟩

/-- The log holds the last characters of a text. -/
structure Holds (l : DiscordLog) (text : Bytes) : Prop where
  length : l.buffer.length = discordLogSize
  well : l.ring.Well discordLogSize
  count : l.ring.count < discordLogSize
  contents : l.ring.contents discordLogSize = lastChars text

theorem Holds.count_eq {l : DiscordLog} {text : Bytes} (h : l.Holds text) :
    l.count = min text.length (discordLogSize - 1) := by
  rw [← length_lastChars, ← h.contents, CellRing.length_contents]
  rfl

theorem lastChars_concat_of_lt {text : Bytes} (h : text.length < discordLogSize - 1) (c : UInt8) :
    lastChars (text ++ [c]) = lastChars text ++ [c] := by
  unfold lastChars
  rw [List.length_append, List.length_singleton, Nat.sub_eq_zero_of_le h,
    Nat.sub_eq_zero_of_le h.le, List.drop_zero, List.drop_zero]

theorem lastChars_concat_of_le {text : Bytes} (h : discordLogSize - 1 ≤ text.length) (c : UInt8) :
    lastChars (text ++ [c]) = (lastChars text ++ [c]).tail := by
  unfold lastChars
  have hsub : text.length - (discordLogSize - 1) ≤ text.length := Nat.sub_le _ _
  rw [List.length_append, List.length_singleton, Nat.sub_add_comm h,
    ← List.drop_append_of_le_length hsub, List.tail_drop]

@[simp] theorem ringPut_buffer (l : DiscordLog) (c : UInt8) :
    (l.ringPut c).buffer = l.buffer.set l.head c := by
  unfold DiscordLog.ringPut
  split_ifs <;> rfl

theorem ring_ringPut {l : DiscordLog} (hhead : l.head < l.buffer.length) (c : UInt8) :
    (l.ringPut c).ring = if l.count < discordLogSize - 1 then l.ring.push discordLogSize c
      else (l.ring.push discordLogSize c).pop discordLogSize := by
  have hcell : (fun i => (l.buffer.set l.head c).getD i 0) =
      Function.update (fun i => l.buffer.getD i 0) l.head c := by
    funext i
    rw [Function.update_apply, List.getD_eq_getElem?_getD]
    split_ifs with hi
    · rw [hi, List.getElem?_set_self hhead, Option.getD_some]
    · rw [List.getElem?_set_ne (Ne.symm hi), List.getD_eq_getElem?_getD]
  by_cases hfull : l.count < discordLogSize - 1
  · rw [if_pos hfull, DiscordLog.ringPut, if_pos hfull]
    show CellRing.mk (fun i => (l.buffer.set l.head c).getD i 0) _ _ _ = _
    rw [hcell]
    rfl
  · rw [if_neg hfull, DiscordLog.ringPut, if_neg hfull]
    show CellRing.mk (fun i => (l.buffer.set l.head c).getD i 0) _ _ _ = _
    rw [hcell]
    rfl

theorem Holds.ringPut {l : DiscordLog} {text : Bytes} (h : l.Holds text) (c : UInt8) :
    (l.ringPut c).Holds (text ++ [c]) := by
  have hroom : l.ring.count < discordLogSize := h.count
  have hhead : l.head < l.buffer.length := by
    have hnext : l.head = (l.tail + l.count) % discordLogSize := h.well.next
    rw [hnext, h.length]
    exact Nat.mod_lt _ (by decide)
  have hring := ring_ringPut hhead c
  have hpush := h.well.push hroom c
  have hcontents := h.well.contents_push hroom c
  have hcount := h.count_eq
  have hlength : (l.ringPut c).buffer.length = discordLogSize := by
    rw [ringPut_buffer, List.length_set, h.length]
  by_cases hfull : l.count < discordLogSize - 1
  · rw [if_pos hfull] at hring
    have hshort : text.length < discordLogSize - 1 := by omega
    refine ⟨hlength, hring ▸ hpush, ?_, ?_⟩
    · rw [hring]
      exact Nat.add_lt_of_lt_sub hfull
    · rw [hring, hcontents, h.contents, lastChars_concat_of_lt hshort]
  · rw [if_neg hfull] at hring
    have hlong : discordLogSize - 1 ≤ text.length := by omega
    have hne : (l.ring.push discordLogSize c).count ≠ 0 := Nat.succ_ne_zero _
    refine ⟨hlength, hring ▸ hpush.pop hne, ?_, ?_⟩
    · rw [hring]
      exact hroom
    · rw [hring, lastChars_concat_of_le hlong, ← h.contents, ← hcontents, hpush.contents_pop hne,
        List.tail_cons]

theorem contents_eq {l : DiscordLog} (hlength : l.buffer.length = discordLogSize)
    (hcount : l.count ≤ discordLogSize) :
    l.ring.contents discordLogSize = (l.buffer.rotate l.tail).take l.count := by
  rw [← hlength]
  exact CellRing.contents_eq_take_rotate (hlength ▸ hcount)

theorem linearize_buffer {l : DiscordLog} (hlength : l.buffer.length = discordLogSize)
    (htail : l.tail < discordLogSize) (hcount : l.count ≠ 0) :
    l.linearize.buffer = l.buffer.rotate l.tail := by
  unfold linearize
  rw [if_neg hcount]
  split_ifs with hzero
  · have hparts : l.buffer = l.buffer.take l.tail ++ l.buffer.drop l.tail :=
      (List.take_append_drop _ _).symm
    have hfront : (l.buffer.take l.tail).length = l.tail :=
      List.length_take_of_le (hlength ▸ htail.le)
    have hrotates := @reverseRange_rotates (l.buffer.take l.tail) (l.buffer.drop l.tail)
      (by rw [← hparts, hlength])
    rw [← hparts, hfront] at hrotates
    rw [List.rotate_eq_drop_append_take (hlength ▸ htail.le)]
    exact hrotates
  · rw [not_ne_iff.mp hzero, List.rotate_zero]

theorem Holds.linearize {l : DiscordLog} {text : Bytes} (h : l.Holds text) :
    l.linearize.buffer.length = discordLogSize ∧
      l.linearize.buffer.take l.count = lastChars text ∧
        l.linearize.head = l.count ∧ l.linearize.tail = 0 ∧ l.linearize.count = l.count := by
  have htail : l.tail < discordLogSize := h.well.first
  have hcontents := h.contents
  rw [contents_eq h.length h.count.le] at hcontents
  by_cases hcount : l.count = 0
  · have hlinear : l.linearize = { l with head := 0, tail := 0 } := if_pos hcount
    rw [hlinear, hcount]
    rw [hcount, List.take_zero] at hcontents
    exact ⟨h.length, hcontents, rfl, rfl, rfl⟩
  · have hbuffer := linearize_buffer h.length htail hcount
    rw [hbuffer, List.length_rotate]
    refine ⟨h.length, hcontents, ?_⟩
    unfold DiscordLog.linearize
    rw [if_neg hcount]
    split_ifs with hzero
    · exact ⟨rfl, rfl, rfl⟩
    · have hhead : l.head = (l.tail + l.count) % discordLogSize := h.well.next
      have hlt : l.count < discordLogSize := h.count
      rw [not_ne_iff.mp hzero, Nat.zero_add, Nat.mod_eq_of_lt hlt] at hhead
      exact ⟨hhead, not_ne_iff.mp hzero, rfl⟩

theorem Holds.getBuffer {l : DiscordLog} {text : Bytes} (h : l.Holds text) :
    l.getBuffer.Holds text ∧ ∃ rest, l.getBuffer.buffer = lastChars text ++ 0 :: rest := by
  obtain ⟨hlength, htake, hhead, htail, hcount⟩ := h.linearize
  have hlt : l.count < discordLogSize := h.count
  have hbuffer : l.getBuffer.buffer =
      lastChars text ++ 0 :: l.linearize.buffer.drop (l.count + 1) := by
    show l.linearize.buffer.set l.linearize.count 0 = _
    rw [hcount, List.set_eq_take_append_cons_drop, if_pos (hlength ▸ hlt), htake]
  have hkept : l.getBuffer.buffer.length = discordLogSize :=
    (List.length_set ..).trans hlength
  have hcount' : l.getBuffer.count = l.count := hcount
  have htail' : l.getBuffer.tail = 0 := htail
  refine ⟨⟨hkept, ⟨?_, ?_, ?_⟩, ?_, ?_⟩, _, hbuffer⟩
  · show l.getBuffer.tail < discordLogSize
    rw [htail']
    decide
  · show l.linearize.head = (l.linearize.tail + l.linearize.count) % discordLogSize
    rw [hhead, htail, hcount, Nat.zero_add, Nat.mod_eq_of_lt hlt]
  · show l.getBuffer.count ≤ discordLogSize
    rw [hcount']
    exact hlt.le
  · show l.getBuffer.count < discordLogSize
    rw [hcount']
    exact hlt
  · have hlast : (lastChars text).length = l.count := by
      rw [length_lastChars, h.count_eq]
    rw [contents_eq hkept (hcount' ▸ hlt.le), htail', hcount', List.rotate_zero, hbuffer, ← hlast,
      List.take_left]

theorem holds_clear {l : DiscordLog} (h : l.buffer.length = discordLogSize) :
    l.clear.Holds [] where
  length := (List.length_set ..).trans h
  well := ⟨show 0 < discordLogSize by decide, rfl, Nat.zero_le _⟩
  count := show 0 < discordLogSize by decide
  contents := rfl

theorem Holds.printf {l : DiscordLog} {text : Bytes} (h : l.Holds text) (chars : Bytes) :
    (l.printf chars).Holds (text ++ wrapped 0 chars) := by
  rw [printf_eq]
  induction wrapped 0 chars generalizing l text with
  | nil => rwa [List.append_nil]
  | cons c rest ih =>
    rw [List.foldl_cons, List.append_cons]
    exact ih (h.ringPut c)

theorem holds_run (events : List LogEvent) : (run events).Holds (written events) := by
  induction events using List.reverseRecOn with
  | nil => exact holds_clear (List.length_replicate ..)
  | append_singleton events e ih =>
    rw [run, written, List.foldl_append, List.foldl_append]
    cases e with
    | print chars => exact ih.printf chars
    | read => exact ih.getBuffer.1
    | clear => exact holds_clear ih.length

/-- After any prints, reads and clears, a read gives the last characters written since the last
clear, as many of them as there are or the ring has room for, with their terminator. -/
theorem getBuffer_run (events : List LogEvent) :
    ∃ kept rest, (run events).getBuffer.buffer = kept ++ 0 :: rest ∧ kept <:+ written events ∧
      kept.length = min (written events).length (discordLogSize - 1) := by
  obtain ⟨-, rest, hbuffer⟩ := (holds_run events).getBuffer
  exact ⟨lastChars (written events), rest, hbuffer, List.drop_suffix _ _, length_lastChars _⟩

end DiscordLog

end Presence3DS.Discord
