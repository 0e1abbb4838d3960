import Presence3DS.Cheats.Codes
import Presence3DS.Lib.Loops

/-! The interpreter (`Cheat_ApplyCheat`): how the lines of a cheat steer it. -/

namespace Presence3DS.Cheats
open Loops

/-- The lines of a cheat, which are followed by other memory. -/
structure Cheat where
  codes : ℕ → BitVec 64
  codesCount : ℕ
  fits : 8 * codesCount < 2 ^ 32

/-- `typeELine` and `typeEIdx` -/
structure TypeE where
  line : BitVec 8
  idx : ℕ

/-- The registers of `CheatState` that steer the interpreter, and its data. -/
structure CheatState (W : Type) where
  index : ℕ
  typeE : TypeE
  loopLine : BitVec 8
  loopCount : ℕ
  ifStack : BitVec 32
  storedStack : BitVec 32
  ifCount : BitVec 8
  storedIfCount : BitVec 8
  data : CheatData W

variable {W : Type}

/-! ## The codes with operand lines -/

def typeEMapping : List ℕ := [32, 40, 48, 56, 0, 8, 16, 24]

/-- `Cheat_GetNextTypeE` moves on, and then reads. -/
def TypeE.next (e : TypeE) : TypeE :=
  if e.idx = 7 then ⟨e.line + 1, 0⟩ else ⟨e.line, e.idx + 1⟩

def TypeE.byte (cheat : Cheat) (e : TypeE) : BitVec 32 :=
  ((cheat.codes e.line.toNat >>> typeEMapping.getD e.idx 0).setWidth 8).setWidth 32

/-- Type E for the bytes that are left, from byte `i` on. -/
def writeLines (c : Console W) (cheat : Cheat) (skipExecution : Bool) (beginOffset : BitVec 32) :
    ℕ → ℕ → TypeE → CheatM W TypeE
  | 0, _, e => pure e
  | n + 1, i, e => do
    if !skipExecution then
      cheatWrite8 c (beginOffset + BitVec.ofNat 32 i) (e.next.byte cheat)
    writeLines c cheat skipExecution beginOffset n (i + 1) e.next

/-- A byte of the lines from `line` on. -/
def searchData (cheat : Cheat) (line j : ℕ) : BitVec 32 :=
  ((cheat.codes (line + j / 8) >>> (8 * (j % 8))).setWidth 8).setWidth 32

/-- The rest of the pattern stands in memory, from its byte `j` on. -/
def patternAt (c : Console W) (cheat : Cheat) (line i : ℕ) : ℕ → ℕ → CheatM W Bool
  | 0, _ => pure true
  | n + 1, j => do
    let curVal ← cheatRead8 c (BitVec.ofNat 32 (i + j))
    if curVal = searchData cheat line j then patternAt c cheat line i n (j + 1) else pure false

/-- Type FE: `newSkip`, for the places that are left, from place `i` on. -/
def searchPattern (c : Console W) (cheat : Cheat) (line searchSize : ℕ) : ℕ → ℕ → CheatM W Bool
  | 0, _ => pure true
  | n + 1, i => do
    if ← patternAt c cheat line i searchSize 0 then pure false
    else searchPattern c cheat line searchSize n (i + 1)

/-- Where a loop break stops: after the first end of a loop, whatever that line is part of. -/
def scanLoopEnd (cheat : Cheat) : ℕ → ℕ → ℕ
  | 0, i => i
  | n + 1, i =>
    if cheat.codes i = 0xD100000000000000 ∨ cheat.codes i = 0xD200000000000000 then i + 1
    else scanLoopEnd cheat n (i + 1)

/-! ## One line -/

namespace CheatState

def skipExecution (s : CheatState W) : Bool := s.ifStack.getLsbD 0

def advance (s : CheatState W) : CheatState W := { s with index := s.index + 1 }

def push (s : CheatState W) (newSkip : Bool) : CheatState W :=
  { s with
    ifStack := s.ifStack <<< 1 ||| if newSkip || s.skipExecution then 1 else 0
    ifCount := s.ifCount + 1 }

def pop (s : CheatState W) : CheatState W :=
  { s with ifStack := s.ifStack >>> 1, ifCount := s.ifCount - 1 }

/-- A pass of the loop is over. -/
def closePass (s : CheatState W) : CheatState W :=
  if s.loopCount - 1 = 0 then { s with loopCount := s.loopCount - 1, loopLine := -1 }
  else if s.loopLine ≠ -1 then
    { s with loopCount := s.loopCount - 1, index := (s.loopLine.signExtend 32).toNat }
  else { s with loopCount := s.loopCount - 1 }

def startLoop (s : CheatState W) (count : ℕ) : CheatState W :=
  { s with
    loopLine := BitVec.ofNat 8 s.index
    loopCount := count
    storedStack := s.ifStack
    storedIfCount := s.ifCount }

/-- D0 -/
def endIf (s : CheatState W) : CheatState W :=
  if s.loopLine ≠ -1 then
    if 0 < s.ifCount ∧ s.storedIfCount < s.ifCount then s.pop
    else if 0 < s.loopCount then s.closePass else s
  else if 0 < s.ifCount then s.pop else s

/-- D1 -/
def endLoop (s : CheatState W) : CheatState W :=
  if 0 < s.loopCount then
    closePass { s with ifStack := s.storedStack, ifCount := s.storedIfCount }
  else s

def clearActive (d : CheatData W) : CheatData W :=
  ((do setActiveData 0; setActiveOffset 0 : CheatM W Unit).run d).2

/-- D2 -/
def endAll (s : CheatState W) : CheatState W :=
  if 0 < s.loopCount then
    if s.loopCount - 1 = 0 then
      { s with
        loopCount := 0, loopLine := -1, ifStack := 0, ifCount := 0, data := clearActive s.data }
    else s.closePass
  else { s with ifStack := 0, ifCount := 0, data := clearActive s.data }

/-- A loop break, which goes on after the line that follows the end it has found. -/
def breakLoop (cheat : Cheat) (s : CheatState W) : CheatState W :=
  { s with
    loopCount := 0
    loopLine := -1
    index := scanLoopEnd cheat (cheat.codesCount - (s.index + 1)) (s.index + 1) }

/-- The interpreter returns 0 where `x` fails. -/
def after {α : Type} (s : CheatState W) (x : CheatM W α)
    (k : α → CheatData W → CheatState W) : Pass (CheatState W) (ℕ × CheatData W) :=
  match (x.run s.data : Option α × CheatData W) with
  | (some a, d) => .next (k a d).advance
  | (none, d) => .done (0, d)

end CheatState

/-- The lines that a pattern of this many bytes takes. -/
def linesOf (bytes : ℕ) : ℕ := bytes / 8 + if bytes % 8 = 0 then 0 else 1

open CheatState in
def applyCode (c : Console W) (cheat : Cheat) (s : CheatState W) :
    CheatCode W → Pass (CheatState W) (ℕ × CheatData W)
  | .plain effect =>
    if s.skipExecution then .next s.advance else s.after effect fun _ d => { s with data := d }
  | .register effect => s.after effect fun _ d => { s with data := d }
  | .conditional newSkip => s.after newSkip fun b d => push { s with data := d } b
  | .loop count => .next (s.startLoop (count s.data).toNat).advance
  | .endIf => .next s.endIf.advance
  | .loopBreak =>
    if s.skipExecution then .next s.advance else .next (s.breakLoop cheat).advance
  | .endLoop => .next s.endLoop.advance
  | .endAll => .next s.endAll.advance
  | .ret =>
    if s.skipExecution then .next s.advance
    else .next (advance { s with index := cheat.codesCount })
  | .nothing => .next s.advance
  | .writeLines beginOffset count =>
    s.after (writeLines c cheat s.skipExecution beginOffset count.toNat 0
      ⟨BitVec.ofNat 8 s.index, 7⟩) fun e d =>
        { s with typeE := e, index := e.line.toNat, data := d }
  | .search searchSize size =>
    if searchSize ≤ size ∧ searchSize + s.index < cheat.codesCount then
      if s.skipExecution then .next (s.push true).advance
      else
        s.after (searchPattern c cheat (s.index + 1) searchSize (size - searchSize) 0) fun b d =>
          push { s with index := s.index + linesOf searchSize, data := d } b
    else .done (0, s.data)
  | .stop => .done (0, s.data)

/-- One pass of the loop of `Cheat_ApplyCheat`. -/
def applyLine (c : Console W) (cheat : Cheat) (s : CheatState W) :
    Pass (CheatState W) (ℕ × CheatData W) :=
  if s.index < cheat.codesCount then applyCode c cheat s (decode c (cheat.codes s.index))
  else .done (1, s.data)

/-- The storage, the cheat page and the random numbers stay from one run to the next. -/
def CheatState.start (typeE : TypeE) (d : CheatData W) : CheatState W where
  index := 0
  typeE := typeE
  loopLine := -1
  loopCount := 0
  ifStack := 0
  storedStack := 0
  ifCount := 0
  storedIfCount := 0
  data := { d with
    offset1 := 0, offset2 := 0, data1 := 0, data2 := 0, activeOffset := false
    activeData := false, conditionalMode := 0, data1Mode := false, data2Mode := false
    floatMode := false }

/-- `Cheat_ApplyCheat` returns this result, and leaves this data. -/
def ApplyCheat (c : Console W) (cheat : Cheat) (typeE : TypeE) (d : CheatData W)
    (result : ℕ × CheatData W) : Prop :=
  Returns (applyLine c cheat) (.start typeE d) result


/-! ## The operand lines -/

theorem run_bind {α β : Type} (x : CheatM W α) (f : α → CheatM W β) (d : CheatData W) :
    (x >>= f).run d =
      match (x.run d : Option α × CheatData W) with
      | (some a, d') => (f a).run d'
      | (none, d') => (none, d') := by
  rw [OptionT.run_bind, Option.elimM]
  show (match (x.run d : Option α × CheatData W) with
    | (o, d') => (o.elim (pure none) fun a => (f a).run : StateM _ _) d') = _
  rcases h : (x.run d : Option α × CheatData W) with ⟨_ | a, d'⟩
  · rfl
  · rfl

theorem linesOf_eq (n : ℕ) : linesOf n = (n + 7) / 8 := by
  rw [linesOf]
  split_ifs <;> omega

theorem typeE_iterate (l : BitVec 8) (n : ℕ) :
    TypeE.next^[n] ⟨l, 7⟩ = ⟨l + BitVec.ofNat 8 ((n + 7) / 8), (n + 7) % 8⟩ := by
  induction n with
  | zero => exact congrArg (TypeE.mk · 7) (BitVec.add_zero l).symm
  | succ n ih =>
    rw [Function.iterate_succ_apply', ih, TypeE.next]
    by_cases hwrap : (n + 7) % 8 = 7
    · have hline : (n + 1 + 7) / 8 = (n + 7) / 8 + 1 := by omega
      have hidx : (n + 1 + 7) % 8 = 0 := by omega
      rw [if_pos hwrap, hline, hidx, BitVec.ofNat_add, BitVec.add_assoc]
      rfl
    · have hline : (n + 1 + 7) / 8 = (n + 7) / 8 := by omega
      have hidx : (n + 1 + 7) % 8 = (n + 7) % 8 + 1 := by omega
      rw [if_neg hwrap, hline, hidx]

theorem writeLines_pointer (c : Console W) (cheat : Cheat) (skip : Bool) (off : BitVec 32) {n i : ℕ}
    {e e' : TypeE} {d d' : CheatData W}
    (h : (writeLines c cheat skip off n i e).run d = (some e', d')) : e' = TypeE.next^[n] e := by
  induction n generalizing i e d with
  | zero => 
    cases h
    rfl
  | succ n ih =>
    rw [writeLines] at h
    cases skip
    · rw [Bool.not_false, if_pos rfl, run_bind] at h
      split at h
      · exact ih h
      · cases h
    · exact ih h

theorem writeLines_skipped (c : Console W) (cheat : Cheat) (off : BitVec 32) (n i : ℕ) (e : TypeE)
    (d : CheatData W) :
    (writeLines c cheat true off n i e).run d = (some (TypeE.next^[n] e), d) := by
  induction n generalizing i e with
  | zero => rfl
  | succ n ih => exact ih (i + 1) e.next

/-- Where the codes after a type E go on. -/
def lineAfter (index count : ℕ) : ℕ := ((index + linesOf count) % 256) + 1

theorem typeE_line (index n : ℕ) :
    (TypeE.next^[n] ⟨BitVec.ofNat 8 index, 7⟩).line.toNat + 1 = lineAfter index n := by
  rw [typeE_iterate, lineAfter, linesOf_eq, ← BitVec.ofNat_add, BitVec.toNat_ofNat]

/-! ## What a pass does to the steering registers -/

/-- The code leaves the steering registers as they are. -/
def CheatCode.straight (skipExecution : Bool) : CheatCode W → Bool
  | .plain _ | .register _ | .nothing => true
  | .loopBreak | .ret => skipExecution
  | _ => false

open CheatState in
inductive Moves (cheat : Cheat) (s : CheatState W) : CheatCode W → CheatState W → Prop
  | straight {code : CheatCode W} (d : CheatData W)
    (hcode : code.straight s.skipExecution = true) :
    Moves cheat s code (advance { s with data := d })
  | conditional {newSkip : CheatM W Bool} (b : Bool) (d : CheatData W) :
    Moves cheat s (.conditional newSkip) (advance (push { s with data := d } b))
  | loop {count : CheatData W → BitVec 32} :
    Moves cheat s (.loop count) (s.startLoop (count s.data).toNat).advance
  | endIf : Moves cheat s .endIf s.endIf.advance
  | loopBreak (hskip : s.skipExecution = false) :
    Moves cheat s .loopBreak (s.breakLoop cheat).advance
  | endLoop : Moves cheat s .endLoop s.endLoop.advance
  | endAll : Moves cheat s .endAll s.endAll.advance
  | ret (hskip : s.skipExecution = false) :
    Moves cheat s .ret (advance { s with index := cheat.codesCount })
  | writeLines {off count : BitVec 32} (e : TypeE) (d : CheatData W)
    (he : e.line.toNat + 1 = lineAfter s.index count.toNat) :
    Moves cheat s (.writeLines off count)
      (advance { s with typeE := e, index := e.line.toNat, data := d })
  | searchSkipped {searchSize size : ℕ} (hskip : s.skipExecution = true)
    (hsize : searchSize ≤ size ∧ searchSize + s.index < cheat.codesCount) :
    Moves cheat s (.search searchSize size) (s.push true).advance
  | search {searchSize size : ℕ} (b : Bool) (d : CheatData W) (hskip : s.skipExecution = false) :
    Moves cheat s (.search searchSize size)
      (advance (push { s with index := s.index + linesOf searchSize, data := d } b))

theorem CheatState.after_next {α : Type} {s t : CheatState W} {x : CheatM W α}
    {k : α → CheatData W → CheatState W} (h : s.after x k = .next t) :
    ∃ a d, (x.run s.data : Option α × CheatData W) = (some a, d) ∧ t = (k a d).advance := by
  unfold CheatState.after at h
  split at h
  · rename_i a d hrun
    cases h
    exact ⟨a, d, hrun, rfl⟩
  · cases h

theorem moves_of_applyCode {c : Console W} {cheat : Cheat} {s t : CheatState W}
    {code : CheatCode W} (h : applyCode c cheat s code = .next t) : Moves cheat s code t := by
  cases code with
  | plain effect =>
    rw [applyCode] at h
    split_ifs at h
    · cases h
      exact .straight s.data rfl
    · obtain ⟨-, d, -, rfl⟩ := CheatState.after_next h
      exact .straight d rfl
  | register effect =>
    obtain ⟨-, d, -, rfl⟩ := CheatState.after_next h
    exact .straight d rfl
  | conditional newSkip =>
    obtain ⟨b, d, -, rfl⟩ := CheatState.after_next h
    exact .conditional b d
  | loop count =>
    cases h
    exact .loop
  | endIf =>
    cases h
    exact .endIf
  | loopBreak =>
    rw [applyCode] at h
    split_ifs at h with hskip
    · cases h
      exact .straight s.data hskip
    · cases h
      exact .loopBreak (Bool.eq_false_of_not_eq_true hskip)
  | endLoop =>
    cases h
    exact .endLoop
  | endAll =>
    cases h
    exact .endAll
  | ret =>
    rw [applyCode] at h
    split_ifs at h with hskip
    · cases h
      exact .straight s.data hskip
    · cases h
      exact .ret (Bool.eq_false_of_not_eq_true hskip)
  | nothing =>
    cases h
    exact .straight s.data rfl
  | writeLines off count =>
    obtain ⟨e, d, hrun, rfl⟩ := CheatState.after_next h
    have he := writeLines_pointer c cheat s.skipExecution off hrun
    apply Moves.writeLines e d
    rw [he]
    exact typeE_line s.index count.toNat
  | search searchSize size =>
    rw [applyCode] at h
    split_ifs at h with hsize hskip
    · cases h
      exact .searchSkipped hskip hsize
    · obtain ⟨b, d, -, rfl⟩ := CheatState.after_next h
      exact .search b d (Bool.eq_false_of_not_eq_true hskip)
  | stop => cases h

theorem moves_of_next {c : Console W} {cheat : Cheat} {s t : CheatState W}
    (h : applyLine c cheat s = .next t) :
    s.index < cheat.codesCount ∧ Moves cheat s (decode c (cheat.codes s.index)) t := by
  unfold applyLine at h
  split_ifs at h with hindex
  exact ⟨hindex, moves_of_applyCode h⟩

theorem scanLoopEnd_ge (cheat : Cheat) (n i : ℕ) : i ≤ scanLoopEnd cheat n i := by
  induction n generalizing i with
  | zero => exact le_rfl
  | succ n ih =>
    rw [scanLoopEnd]
    split_ifs
    · exact Nat.le_succ i
    · exact (Nat.le_succ i).trans (ih (i + 1))

/-! ## The ends of conditionals and loops -/

theorem getLsbD_lowest_zero (b : Bool) : (if b then 1 else 0 : BitVec 32).getLsbD 0 = b := by
  cases b
  · rfl
  · rfl

theorem getLsbD_lowest_succ (b : Bool) (k : ℕ) :
    (if b then 1 else 0 : BitVec 32).getLsbD (k + 1) = false := by
  cases b
  · exact BitVec.getLsbD_zero
  · show (1#32).getLsbD (k + 1) = false
    rw [BitVec.getLsbD_one]
    exact Bool.and_eq_false_imp.mpr fun _ => decide_eq_false (Nat.succ_ne_zero k)

namespace CheatState

/-- The states have the same lines. -/
structure SameLines (s v : CheatState W) : Prop where
  index : v.index = s.index
  loopLine : v.loopLine = s.loopLine
  loopCount : v.loopCount = s.loopCount

/-- The end of a conditional or a loop leaves the lines as they are, or closes a pass. -/
def EndsAs (s u : CheatState W) : Prop :=
  ∃ v, SameLines s v ∧ (u = v ∨ 0 < s.loopCount ∧ u = v.closePass)

theorem endsAs_endIf (s : CheatState W) : EndsAs s s.endIf := by
  unfold endIf
  split_ifs with _ _ hcount
  · exact ⟨s.pop, ⟨rfl, rfl, rfl⟩, .inl rfl⟩
  · exact ⟨s, ⟨rfl, rfl, rfl⟩, .inr ⟨hcount, rfl⟩⟩
  · exact ⟨s, ⟨rfl, rfl, rfl⟩, .inl rfl⟩
  · exact ⟨s.pop, ⟨rfl, rfl, rfl⟩, .inl rfl⟩
  · exact ⟨s, ⟨rfl, rfl, rfl⟩, .inl rfl⟩

theorem endsAs_endLoop (s : CheatState W) : EndsAs s s.endLoop := by
  unfold endLoop
  split_ifs with hcount
  · exact ⟨{ s with ifStack := s.storedStack, ifCount := s.storedIfCount }, ⟨rfl, rfl, rfl⟩,
      .inr ⟨hcount, rfl⟩⟩
  · exact ⟨s, ⟨rfl, rfl, rfl⟩, .inl rfl⟩

theorem endAll_last {s : CheatState W} (hcount : 0 < s.loopCount) (hlast : s.loopCount - 1 = 0) :
    s.endAll =
      closePass { s with ifStack := 0, ifCount := 0, data := clearActive s.data } := by
  rw [endAll, if_pos hcount, if_pos hlast, closePass, if_pos hlast, hlast]

theorem endsAs_endAll (s : CheatState W) : EndsAs s s.endAll := by
  by_cases hlast : 0 < s.loopCount ∧ s.loopCount - 1 = 0
  · exact ⟨{ s with ifStack := 0, ifCount := 0, data := clearActive s.data }, ⟨rfl, rfl, rfl⟩,
      .inr ⟨hlast.1, endAll_last hlast.1 hlast.2⟩⟩
  unfold endAll
  split_ifs with hcount hzero
  · exact absurd ⟨hcount, hzero⟩ hlast
  · exact ⟨s, ⟨rfl, rfl, rfl⟩, .inr ⟨hcount, rfl⟩⟩
  · exact ⟨{ s with ifStack := 0, ifCount := 0, data := clearActive s.data }, ⟨rfl, rfl, rfl⟩,
      .inl rfl⟩

end CheatState

/-! ### A small console -/

/-- Nothing is mapped; the world is the keys that are pressed. -/
def emptyConsole : Console (BitVec 32) where
  svcQueryDebugProcessMemory keys _ := ((0, ⟨0, 0, 0⟩), keys)
  svcReadProcessMemory keys _ _ := ((0, fun _ => 0), keys)
  svcWriteProcessMemory keys _ _ _ := (0, keys)
  hidPad keys := (keys, keys)
  hidTouchRead keys := ((0, 0), keys)
  floatAdd x _ := x
  floatMul x _ := x
  floatDiv x _ := x
  ofFloat x := x
  toFloat x := x
  divZero x := x
  modZero x := x
  shlWide _ _ := 0
  shrWide _ _ := 0

def emptyData (keys : BitVec 32) : CheatData (BitVec 32) where
  offset1 := 0
  offset2 := 0
  data1 := 0
  data2 := 0
  activeOffset := false
  activeData := false
  conditionalMode := 0
  data1Mode := false
  data2Mode := false
  floatMode := false
  storage1 := 0
  storage2 := 0
  activeStorage := false
  cheatPage _ := 0
  cheatRngState := 0
  world := keys

def cheatOf (lines : List (BitVec 64)) (h : 8 * lines.length < 2 ^ 32) : Cheat :=
  ⟨fun i => lines.getD i 0, lines.length, h⟩

end Presence3DS.Cheats
