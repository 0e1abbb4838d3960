import Presence3DS.Cheats.Termination

/-! The passes of a loop of a cheat. A record beside the interpreter follows the loop that is being
executed: its line, its count, the conditionals that it starts with, the passes begun, and the
conditionals opened since. -/

namespace Presence3DS.Cheats
open Loops CheatState

variable {W : Type}

/-- The conditional stack: `ifStack` and `ifCount`. -/
abbrev Stack := BitVec 32 × BitVec 8

def CheatState.stack (s : CheatState W) : Stack := (s.ifStack, s.ifCount)

structure LoopRecord where
  line : ℕ
  count : ℕ
  /-- The conditional stack as the C code found it. -/
  saved : Stack
  /-- The passes begun, the one under way included. -/
  passes : ℕ
  /-- The stacks before the conditionals opened in this pass and not ended, the latest first. -/
  opened : List Stack

/-- The record after a pass has been closed. -/
def LoopRecord.closed (loop : LoopRecord) : Option LoopRecord :=
  if loop.passes < loop.count then some { loop with passes := loop.passes + 1, opened := [] }
  else none

/-- The code closes a pass: D1, D2 with argument 0, and D0 where no conditional of the pass is
open. -/
def LoopRecord.closes (loop : LoopRecord) : CheatCode W → Bool
  | .endLoop | .endAll => true
  | .endIf => loop.opened.isEmpty
  | _ => false

def LoopRecord.follow (loop : LoopRecord) (s : CheatState W) : CheatCode W → Option LoopRecord
  | .conditional _ | .search _ _ => some { loop with opened := s.stack :: loop.opened }
  | .endIf =>
    if loop.opened.isEmpty then loop.closed else some { loop with opened := loop.opened.tail }
  | .endLoop | .endAll => loop.closed
  | .loopBreak | .ret => if s.skipExecution then some loop else none
  | _ => some loop

/-- The record after a pass of the interpreter. A C code starts a new one. -/
def followLoop (c : Console W) (cheat : Cheat) (s : CheatState W) (record : Option LoopRecord)
    (_ : CheatState W) : Option LoopRecord :=
  match decode c (cheat.codes s.index) with
  | .loop count =>
    if (count s.data).toNat = 0 then none
    else some ⟨s.index, (count s.data).toNat, s.stack, 1, []⟩
  | code => record.bind fun loop => loop.follow s code

/-- The interpreter with the record of its loop. -/
abbrev applyWithLoop (c : Console W) (cheat : Cheat) :
    CheatState W × Option LoopRecord → Pass (CheatState W × Option LoopRecord) (ℕ × CheatData W) :=
  withGhost (applyLine c cheat) (followLoop c cheat)

/-- A closing leads back to the line after the C code, with the stack saved there, until the passes
are as many as the count, and then past its own line; every other code leads forward. -/
structure LoopLaw (c : Console W) (cheat : Cheat) (s : CheatState W) (record : Option LoopRecord)
    (t : CheatState W) : Prop where
  passes : ∀ loop, record = some loop → 1 ≤ loop.passes ∧ loop.passes ≤ loop.count
  repeats : ∀ loop, record = some loop → loop.closes (decode c (cheat.codes s.index)) = true →
    loop.passes < loop.count → t.index = loop.line + 1 ∧ t.stack = loop.saved
  ends : ∀ loop, record = some loop → loop.closes (decode c (cheat.codes s.index)) = true →
    loop.count ≤ loop.passes → t.index = s.index + 1
  forward : (∀ loop, record = some loop → loop.closes (decode c (cheat.codes s.index)) = false) →
    s.index < t.index

/-- The line of a C fits into 7 bits, or is not needed. In a loop no conditional is opened that the
stack has no room for, and no D2 comes back with another stack than the one saved. A type E goes
on below itself. -/
def keepsLoop (c : Console W) (cheat : Cheat) (s : CheatState W) : Bool :=
  match decode c (cheat.codes s.index) with
  | .loop count =>
    decide ((count s.data).toNat = 0 ∨ s.index < 128 ∨
      (count s.data).toNat = 1 ∧ s.index % 256 ≠ 255)
  | .conditional _ | .search _ _ =>
    decide (s.loopCount = 0) || (!s.ifStack.msb && s.ifCount != 255)
  | .endAll => decide (s.loopCount ≤ 1 ∨ s.ifStack = s.storedStack ∧ s.ifCount = s.storedIfCount)
  | .writeLines _ count => decide (s.index < lineAfter s.index count.toNat)
  | _ => true

/-! ## The stack in a pass -/

/-- The stack has come from `base` by opening conditionals, from these stacks. -/
def Opened (base : Stack) : List Stack → Stack → Prop
  | [], cur => cur = base
  | before :: opened, cur =>
    cur.1 >>> 1 = before.1 ∧ cur.2 - 1 = before.2 ∧ cur.2.toNat = before.2.toNat + 1 ∧
      Opened base opened before

theorem Opened.count {base cur : Stack} {opened : List Stack} (h : Opened base opened cur) :
    cur.2.toNat = base.2.toNat + opened.length := by
  induction opened generalizing cur with
  | nil => exact congrArg (fun stack => stack.2.toNat) h
  | cons before opened ih =>
    obtain ⟨-, -, hone, hrest⟩ := h
    rw [hone, ih hrest, List.length_cons, Nat.add_assoc]

theorem push_pop {x : BitVec 32} (b : Bool) (hmsb : x.msb = false) :
    (x <<< 1 ||| if b then 1 else 0) >>> 1 = x := by
  apply BitVec.eq_of_getLsbD_eq
  intro i hi
  have hnot : decide (i + 1 < 1) = false := decide_eq_false (Nat.not_lt.mpr (Nat.le_add_left 1 i))
  rw [BitVec.getLsbD_ushiftRight, BitVec.getLsbD_or, BitVec.getLsbD_shiftLeft, Nat.add_comm 1 i,
    getLsbD_lowest_succ, Bool.or_false, Nat.add_sub_cancel, hnot, Bool.not_false, Bool.and_true]
  by_cases hlast : i + 1 < 32
  · rw [decide_eq_true hlast, Bool.true_and]
  · have hi : i = 31 := by omega
    rw [decide_eq_false hlast, Bool.false_and, hi]
    exact hmsb.symm.trans (BitVec.msb_eq_getLsbD_last x)

section Active
variable {c : Console W} {cheat : Cheat} {s t v : CheatState W} {loop : LoopRecord}

/-- The interpreter is in this loop. -/
structure ActiveLoop (s : CheatState W) (loop : LoopRecord) : Prop where
  begun : 1 ≤ loop.passes
  left : s.loopCount + loop.passes = loop.count + 1
  counted : 0 < s.loopCount
  loopLine : s.loopLine = BitVec.ofNat 8 loop.line
  line : loop.line < 128 ∨ loop.count = 1 ∧ loop.line % 256 ≠ 255
  saved : (s.storedStack, s.storedIfCount) = loop.saved
  opened : Opened loop.saved loop.opened s.stack

/-- Without a loop there is nothing to close, unless the cheat has returned. -/
def InLoop (cheat : Cheat) (s : CheatState W) : Option LoopRecord → Prop
  | none => s.loopCount = 0 ∨ cheat.codesCount ≤ s.index
  | some loop => ActiveLoop s loop

theorem ActiveLoop.loopLine_ne (h : ActiveLoop s loop) : s.loopLine ≠ -1 := by
  intro hminus
  have hline := congrArg BitVec.toNat (h.loopLine.symm.trans hminus)
  have hone : (-1 : BitVec 8).toNat = 255 := rfl
  rw [BitVec.toNat_ofNat, hone] at hline
  rcases h.line with hsmall | ⟨-, hother⟩
  · omega
  · exact hother hline

theorem ActiveLoop.closePass_eq (h : ActiveLoop s loop) (hsame : SameLines s v) :
    v.closePass =
      if loop.passes < loop.count then
        { v with loopCount := s.loopCount - 1, index := loop.line }
      else { v with loopCount := 0, loopLine := -1 } := by
  have hleft := h.left
  unfold closePass
  rw [hsame.loopCount]
  by_cases hmore : loop.passes < loop.count
  · have hagain : s.loopCount - 1 ≠ 0 := by omega
    have hsmall : loop.line < 128 := by
      rcases h.line with hsmall | ⟨hone, -⟩
      · exact hsmall
      · have hbegun := h.begun
        omega
    have hline : v.loopLine = BitVec.ofNat 8 loop.line := hsame.loopLine.trans h.loopLine
    have hindex : (v.loopLine.signExtend 32).toNat = loop.line := by
      have hnat : (BitVec.ofNat 8 loop.line).toNat = loop.line := by
        rw [BitVec.toNat_ofNat]
        omega
      rw [hline, signExtend_small (hnat.trans_lt hsmall), hnat]
    rw [if_pos hmore, if_neg hagain, if_pos (hsame.loopLine ▸ h.loopLine_ne), hindex]
  · have hlast : s.loopCount - 1 = 0 := by omega
    rw [if_neg hmore, if_pos hlast, hlast]

theorem ActiveLoop.push (h : ActiveLoop s loop) (b : Bool)
    (hroom : (!s.ifStack.msb && s.ifCount != 255) = true) {i : ℕ} {d : CheatData W} :
    ActiveLoop (CheatState.push { s with index := i, data := d } b).advance
      { loop with opened := s.stack :: loop.opened } := by
  obtain ⟨hmsb, hcount⟩ := Bool.and_eq_true_iff.mp hroom
  have hone : (1 : BitVec 8).toNat = 1 := rfl
  have hmax : (255 : BitVec 8).toNat = 255 := rfl
  have hlt : s.ifCount.toNat ≠ 255 := fun heq =>
    bne_iff_ne.mp hcount (BitVec.eq_of_toNat_eq (heq.trans hmax.symm))
  have hbound := s.ifCount.isLt
  refine ⟨h.begun, h.left, h.counted, h.loopLine, h.line, h.saved, ?_, ?_, ?_, h.opened⟩
  · exact push_pop _ (Bool.not_eq_true' _ |>.mp hmsb)
  · exact BitVec.add_sub_cancel s.ifCount 1
  · show (s.ifCount + 1).toNat = s.ifCount.toNat + 1
    rw [BitVec.toNat_add]
    omega

theorem ActiveLoop.endIf_opened (h : ActiveLoop s loop) (hopened : loop.opened.isEmpty = false) :
    s.endIf = s.pop ∧ ActiveLoop s.pop.advance { loop with opened := loop.opened.tail } := by
  have hcount := h.opened.count
  have hchain := h.opened
  cases hlist : loop.opened with
  | nil =>
    rw [hlist] at hopened
    cases hopened
  | cons before opened =>
    rw [hlist] at hcount hchain
    rw [List.length_cons, ← h.saved] at hcount
    have hcount : s.ifCount.toNat = s.storedIfCount.toNat + (opened.length + 1) := hcount
    obtain ⟨hstack, hless, -, hrest⟩ := hchain
    constructor
    · have hopen : 0 < s.ifCount ∧ s.storedIfCount < s.ifCount := by
        rw [BitVec.lt_def, BitVec.lt_def]
        constructor
        · show 0 < s.ifCount.toNat
          omega
        · omega
      rw [endIf, if_pos h.loopLine_ne, if_pos hopen]
    · refine ⟨h.begun, h.left, h.counted, h.loopLine, h.line, h.saved, ?_⟩
      show Opened loop.saved opened (s.ifStack >>> 1, s.ifCount - 1)
      have hbefore : (s.ifStack >>> 1, s.ifCount - 1) = before := Prod.ext hstack hless
      rwa [hbefore]

theorem ActiveLoop.endIf_closes (h : ActiveLoop s loop) (hopened : loop.opened.isEmpty = true) :
    s.endIf = s.closePass ∧ s.stack = loop.saved := by
  have hchain := h.opened
  rw [List.isEmpty_iff.mp hopened] at hchain
  have hstack : s.stack = loop.saved := hchain
  have hsame : s.ifCount = s.storedIfCount :=
    (congrArg Prod.snd (hstack.trans h.saved.symm) : s.stack.2 = s.storedIfCount)
  refine ⟨?_, hstack⟩
  rw [endIf, if_pos h.loopLine_ne, hsame, if_neg fun hopen => BitVec.lt_irrefl _ hopen.2,
    if_pos h.counted]

theorem ActiveLoop.closed (cheat : Cheat) (h : ActiveLoop s loop) (hsame : SameLines s v)
    (hstack : loop.passes < loop.count → v.stack = loop.saved)
    (hsaved : (v.storedStack, v.storedIfCount) = loop.saved) :
    InLoop cheat v.closePass.advance loop.closed ∧
      (loop.passes < loop.count →
        v.closePass.advance.index = loop.line + 1 ∧ v.closePass.advance.stack = loop.saved) ∧
      (loop.count ≤ loop.passes → v.closePass.advance.index = s.index + 1) := by
  have hleft := h.left
  rw [h.closePass_eq hsame, LoopRecord.closed]
  by_cases hmore : loop.passes < loop.count
  · rw [if_pos hmore, if_pos hmore]
    refine ⟨⟨?_, ?_, ?_, ?_, h.line, hsaved, hstack hmore⟩, fun _ => ⟨rfl, hstack hmore⟩,
      fun hle => absurd hmore (not_lt.mpr hle)⟩
    · exact Nat.le_add_left 1 loop.passes
    · show s.loopCount - 1 + (loop.passes + 1) = loop.count + 1
      omega
    · show 0 < s.loopCount - 1
      omega
    · exact hsame.loopLine.trans h.loopLine
  · rw [if_neg hmore, if_neg hmore]
    refine ⟨.inl rfl, fun hlt => absurd hlt hmore, fun _ => ?_⟩
    exact congrArg (· + 1) hsame.index

theorem followLoop_eq {code : CheatCode W} {record : Option LoopRecord}
    (hcode : decode c (cheat.codes s.index) = code) (hloop : ∀ count, code ≠ .loop count) :
    followLoop c cheat s record t = record.bind fun loop => loop.follow s code := by
  rw [followLoop, hcode]
  cases code with
  | loop count => exact absurd rfl (hloop count)
  | _ => rfl

theorem LoopLaw.of_forward {record : Option LoopRecord} (hs : InLoop cheat s record)
    (hcloses : ∀ loop, record = some loop →
      loop.closes (decode c (cheat.codes s.index)) = false)
    (hforward : s.index < t.index) : LoopLaw c cheat s record t where
  passes := by
    rintro loop rfl
    have hleft := hs.left
    have hcounted := hs.counted
    exact ⟨hs.begun, by omega⟩
  repeats loop hrecord hclose := absurd hclose (ne_true_of_eq_false (hcloses loop hrecord))
  ends loop hrecord hclose := absurd hclose (ne_true_of_eq_false (hcloses loop hrecord))
  forward _ := hforward

theorem LoopLaw.of_closed (hs : ActiveLoop s loop)
    (hcloses : loop.closes (decode c (cheat.codes s.index)) = true)
    (hrepeats : loop.passes < loop.count → t.index = loop.line + 1 ∧ t.stack = loop.saved)
    (hends : loop.count ≤ loop.passes → t.index = s.index + 1) :
    LoopLaw c cheat s (some loop) t where
  passes := by
    rintro _ ⟨⟩
    have hleft := hs.left
    have hcounted := hs.counted
    exact ⟨hs.begun, by omega⟩
  repeats := by
    rintro _ ⟨⟩ -
    exact hrepeats
  ends := by
    rintro _ ⟨⟩ -
    exact hends
  forward hnone := absurd hcloses (ne_true_of_eq_false (hnone loop rfl))

theorem inLoop_none (hs : InLoop cheat s none) (hkeep : keepsLoop c cheat s = true)
    (hindex : s.index < cheat.codesCount)
    (hmoves : Moves cheat s (decode c (cheat.codes s.index)) t)
    (hloop : ∀ count, decode c (cheat.codes s.index) ≠ .loop count) :
    InLoop cheat t none ∧ s.index < t.index := by
  have hzero : s.loopCount = 0 := hs.resolve_right (not_le.mpr hindex)
  have hends {u : CheatState W} (hu : EndsAs s u) :
      InLoop cheat u.advance none ∧ s.index < u.advance.index := by
    obtain ⟨v, hsame, rfl | ⟨hpos, -⟩⟩ := hu
    · exact ⟨.inl (hsame.loopCount.trans hzero), Nat.lt_succ_of_le hsame.index.ge⟩
    · exact absurd hzero hpos.ne'
  unfold keepsLoop at hkeep
  generalize decode c (cheat.codes s.index) = code at hkeep hmoves hloop
  cases hmoves with
  | straight d hcode => exact ⟨.inl hzero, Nat.lt_succ_self _⟩
  | conditional b d => exact ⟨.inl hzero, Nat.lt_succ_self _⟩
  | loop => exact absurd rfl (hloop _)
  | endIf => exact hends (endsAs_endIf s)
  | loopBreak hskip => exact ⟨.inl rfl, Nat.lt_succ_of_lt (scanLoopEnd_ge cheat _ _)⟩
  | endLoop => exact hends (endsAs_endLoop s)
  | endAll => exact hends (endsAs_endAll s)
  | ret hskip => exact ⟨.inl hzero, Nat.lt_succ_of_lt hindex⟩
  | writeLines e d he =>
    have hlt : s.index < e.line.toNat + 1 := he ▸ of_decide_eq_true hkeep
    exact ⟨.inl hzero, hlt⟩
  | searchSkipped hskip hsize => exact ⟨.inl hzero, Nat.lt_succ_self _⟩
  | search b d hskip => exact ⟨.inl hzero, Nat.lt_succ_of_le (Nat.le_add_right _ _)⟩

theorem follow_straight (loop : LoopRecord) {code : CheatCode W} (h : code.straight s.skipExecution = true) :
    loop.follow s code = some loop ∧ loop.closes code = false := by
  cases code with
  | plain effect => exact ⟨rfl, rfl⟩
  | register effect => exact ⟨rfl, rfl⟩
  | nothing => exact ⟨rfl, rfl⟩
  | loopBreak => exact ⟨if_pos h, rfl⟩
  | ret => exact ⟨if_pos h, rfl⟩
  | _ => cases h

theorem ActiveLoop.kept (hs : ActiveLoop s loop) {i : ℕ} {e : TypeE} {d : CheatData W} :
    ActiveLoop (advance { s with index := i, typeE := e, data := d }) loop :=
  ⟨hs.begun, hs.left, hs.counted, hs.loopLine, hs.line, hs.saved, hs.opened⟩

theorem ActiveLoop.step {code : CheatCode W} (hs : ActiveLoop s loop)
    (hcode : decode c (cheat.codes s.index) = code) (hkeep : keepsLoop c cheat s = true)
    (hindex : s.index < cheat.codesCount) (hmoves : Moves cheat s code t)
    (hloop : ∀ count, code ≠ .loop count) :
    InLoop cheat t (loop.follow s code) ∧ LoopLaw c cheat s (some loop) t := by
  have hforward (hcloses : loop.closes code = false) (hlt : s.index < t.index) :
      LoopLaw c cheat s (some loop) t := by
    apply LoopLaw.of_forward (show InLoop cheat s (some loop) from hs) _ hlt
    rintro _ ⟨⟩
    rw [hcode]
    exact hcloses
  have hclosed {v : CheatState W} (hcloses : loop.closes code = true) (hsame : SameLines s v)
      (hstack : loop.passes < loop.count → v.stack = loop.saved)
      (hsaved : (v.storedStack, v.storedIfCount) = loop.saved) (ht : t = v.closePass.advance) :
      InLoop cheat t loop.closed ∧ LoopLaw c cheat s (some loop) t := by
    obtain ⟨hnext, hrepeats, hends⟩ := hs.closed cheat hsame hstack hsaved
    rw [ht]
    exact ⟨hnext, .of_closed hs (hcode ▸ hcloses) hrepeats hends⟩
  have hroom (hpush : keepsLoop c cheat s = (decide (s.loopCount = 0) ||
      (!s.ifStack.msb && s.ifCount != 255))) :
      (!s.ifStack.msb && s.ifCount != 255) = true := by
    rw [hpush, decide_eq_false hs.counted.ne', Bool.false_or] at hkeep
    exact hkeep
  unfold keepsLoop at hkeep hroom
  rw [hcode] at hkeep hroom
  cases hmoves with
  | straight d hstraight =>
    obtain ⟨hfollow, hcloses⟩ := follow_straight loop hstraight
    rw [hfollow]
    exact ⟨hs.kept, hforward hcloses (Nat.lt_succ_self _)⟩
  | conditional b d => exact ⟨hs.push b (hroom rfl), hforward rfl (Nat.lt_succ_self _)⟩
  | loop => exact absurd rfl (hloop _)
  | endIf =>
    cases hopened : loop.opened.isEmpty with
    | false =>
      obtain ⟨hpop, hnext⟩ := hs.endIf_opened hopened
      rw [LoopRecord.follow, hopened, if_neg Bool.false_ne_true, hpop]
      refine ⟨hnext, ?_⟩
      rw [← hpop]
      apply hforward hopened
      rw [hpop]
      exact Nat.lt_succ_self _
    | true =>
      obtain ⟨hclose, hstack⟩ := hs.endIf_closes hopened
      rw [LoopRecord.follow, hopened, if_pos rfl]
      exact hclosed hopened ⟨rfl, rfl, rfl⟩ (fun _ => hstack) hs.saved (hclose ▸ rfl)
  | loopBreak hskip =>
    rw [LoopRecord.follow, hskip, if_neg Bool.false_ne_true]
    exact ⟨.inl rfl, hforward rfl (Nat.lt_succ_of_lt (scanLoopEnd_ge cheat _ _))⟩
  | endLoop =>
    have hend : s.endLoop =
        closePass { s with ifStack := s.storedStack, ifCount := s.storedIfCount } :=
      if_pos hs.counted
    exact hclosed (v := { s with ifStack := s.storedStack, ifCount := s.storedIfCount }) rfl
      ⟨rfl, rfl, rfl⟩ (fun _ => hs.saved) hs.saved (hend ▸ rfl)
  | endAll =>
    have hleft := hs.left
    by_cases hmore : loop.passes < loop.count
    · have hend : s.endAll = s.closePass := by
        rw [endAll, if_pos hs.counted, if_neg (by omega)]
      have hkept : s.ifStack = s.storedStack ∧ s.ifCount = s.storedIfCount :=
        (of_decide_eq_true hkeep).resolve_left (by omega)
      have hstack : s.stack = loop.saved := (Prod.ext hkept.1 hkept.2).trans hs.saved
      exact hclosed rfl ⟨rfl, rfl, rfl⟩ (fun _ => hstack) hs.saved (hend ▸ rfl)
    · have hend := endAll_last hs.counted (by omega)
      exact hclosed (v := { s with ifStack := 0, ifCount := 0, data := clearActive s.data }) rfl
        ⟨rfl, rfl, rfl⟩ (fun hlt => absurd hlt hmore) hs.saved (hend ▸ rfl)
  | ret hskip =>
    rw [LoopRecord.follow, hskip, if_neg Bool.false_ne_true]
    exact ⟨.inr (Nat.le_succ _), hforward rfl (Nat.lt_succ_of_lt hindex)⟩
  | writeLines e d he =>
    have hlt : s.index < e.line.toNat + 1 := he ▸ of_decide_eq_true hkeep
    exact ⟨hs.kept, hforward rfl hlt⟩
  | searchSkipped hskip hsize =>
    exact ⟨hs.push true (hroom rfl), hforward rfl (Nat.lt_succ_self _)⟩
  | search b d hskip =>
    exact ⟨hs.push b (hroom rfl), hforward rfl (Nat.lt_succ_of_le (Nat.le_add_right _ _))⟩

theorem inLoop_start {record : Option LoopRecord} {count : CheatData W → BitVec 32}
    (hcode : decode c (cheat.codes s.index) = .loop count) (hkeep : keepsLoop c cheat s = true) :
    InLoop cheat (s.startLoop (count s.data).toNat).advance (followLoop c cheat s record t) := by
  rw [followLoop, hcode]
  rw [keepsLoop, hcode] at hkeep
  dsimp only
  split_ifs with hzero
  · exact .inl hzero
  · have hline := (of_decide_eq_true hkeep).resolve_left hzero
    exact ⟨le_rfl, rfl, Nat.pos_of_ne_zero hzero, rfl, hline, rfl, rfl⟩

theorem inLoop_step {record : Option LoopRecord} (hs : InLoop cheat s record)
    (hkeep : keepsLoop c cheat s = true) (h : applyLine c cheat s = .next t) :
    InLoop cheat t (followLoop c cheat s record t) ∧ LoopLaw c cheat s record t := by
  obtain ⟨hindex, hmoves⟩ := moves_of_next h
  by_cases hloop : ∃ count, decode c (cheat.codes s.index) = .loop count
  · obtain ⟨count, hcode⟩ := hloop
    rw [hcode] at hmoves
    cases hmoves with
    | straight d hstraight => cases hstraight
    | loop =>
      refine ⟨inLoop_start hcode hkeep, .of_forward hs ?_ (Nat.lt_succ_self _)⟩
      rintro loop -
      rw [hcode]
      rfl
  · have hother := not_exists.mp hloop
    rw [followLoop_eq rfl hother]
    cases record with
    | none =>
      obtain ⟨hnext, hforward⟩ := inLoop_none hs hkeep hindex hmoves hother
      exact ⟨hnext, .of_forward hs (fun _ hnone => absurd hnone.symm (Option.some_ne_none _)) hforward⟩
    | some loop => exact ActiveLoop.step hs rfl hkeep hindex hmoves hother

end Active

/-- Every loop of the run makes as many passes as its count, each from the stack it has saved. -/
def LoopsPass (c : Console W) (cheat : Cheat) (s : CheatState W) : Prop :=
  ∀ p q, Reaches (applyWithLoop c cheat) (s, none) p → applyWithLoop c cheat p = .next q →
    LoopLaw c cheat p.1 p.2 q.1

theorem loops_pass (c : Console W) (cheat : Cheat) (e : TypeE) (d : CheatData W)
    (h : Guarded (applyLine c cheat) (fun s => keepsLoop c cheat s = true) (.start e d)) :
    LoopsPass c cheat (.start e d) := by
  intro p q hp hpq
  have hstart : InLoop cheat (CheatState.start e d) none := .inl rfl
  have hstep (r u : CheatState W × Option LoopRecord) (hr : InLoop cheat r.1 r.2)
      (hkeep : keepsLoop c cheat r.1 = true) (hnext : applyWithLoop c cheat r = .next u) :
      InLoop cheat u.1 u.2 := by
    obtain ⟨hbase, hghost⟩ := withGhost_next hnext
    rw [hghost]
    exact (inLoop_step hr hkeep hbase).1
  have hinv := invariant_of_guarded hstep hstart (fun r hr => h r.1 (reaches_of_withGhost hr)) hp
  exact (inLoop_step hinv (h p.1 (reaches_of_withGhost hp)) (withGhost_next hpq).1).2

theorem loops_pass_fill : LoopsPass emptyConsole fillCheat (.start ⟨0, 0⟩ (emptyData 0)) :=
  loops_pass emptyConsole fillCheat ⟨0, 0⟩ (emptyData 0)
    (guarded_of_guards (n := 40) (by decide +kernel))

/-- A loop of two passes over a conditional on a key, closed by D2. -/
def openCheat : Cheat :=
  cheatOf [0xC000000000000002, 0xDD00000000000001, 0xD200000000000000] (by decide)

theorem end_all_keeps_the_open_conditional : ¬∀ (W : Type) (c : Console W) (cheat : Cheat)
    (e : TypeE) (d : CheatData W), LoopsPass c cheat (.start e d) := by
  intro h
  obtain ⟨p, hp, q, hpq, hcode, hrecord, hstack⟩ : ∃ p,
      stateAfter (applyWithLoop emptyConsole openCheat) 2
        (.start ⟨0, 0⟩ (emptyData 0), none) = some p ∧
      ∃ q, applyWithLoop emptyConsole openCheat p = .next q ∧
        decode emptyConsole (openCheat.codes p.1.index) = .endAll ∧
        p.2 = some ⟨0, 2, (0, 0), 1, [(0, 0)]⟩ ∧ q.1.ifStack = 1 :=
    ⟨_, rfl, _, rfl, rfl, rfl, rfl⟩
  have hlaw := h (BitVec 32) emptyConsole openCheat ⟨0, 0⟩ (emptyData 0) p q
    (reaches_of_stateAfter hp) hpq
  obtain ⟨-, hsaved⟩ := hlaw.repeats _ hrecord (by rw [hcode]; rfl) (by decide)
  have hzero : q.1.ifStack = 0 := congrArg Prod.fst hsaved
  rw [hstack] at hzero
  exact absurd hzero (by decide)

end Presence3DS.Cheats
