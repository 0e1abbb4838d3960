import Mathlib.Algebra.Order.Monoid.Canonical.Basic
import Mathlib.Order.Monotone.Basic
import Presence3DS.Cheats.Termination

/-! The lines of a cheat that start a code, read off the cheat alone, and the lines that a run
fetches and those that it takes as operands. -/

namespace Presence3DS.Cheats
open Loops CheatState

variable {W : Type}

/-! ## The lines that start a code -/

/-- The operand lines that follow the code. -/
def CheatCode.operandLines : CheatCode W → ℕ
  | .writeLines _ count => linesOf count.toNat
  | .search searchSize _ => linesOf searchSize
  | _ => 0

def nextStart (c : Console W) (cheat : Cheat) (i : ℕ) : ℕ :=
  i + 1 + (decode c (cheat.codes i)).operandLines

def starts (c : Console W) (cheat : Cheat) : ℕ → ℕ
  | 0 => 0
  | n + 1 => nextStart c cheat (starts c cheat n)

def isStart (c : Console W) (cheat : Cheat) (i : ℕ) : Bool :=
  (List.range (i + 1)).any fun n => starts c cheat n == i

variable {c : Console W} {cheat : Cheat} {s t : CheatState W} {i j : ℕ}

theorem starts_strictMono (c : Console W) (cheat : Cheat) : StrictMono (starts c cheat) :=
  strictMono_nat_of_lt_succ fun _ => Nat.lt_of_lt_of_le (Nat.lt_succ_self _) (Nat.le_add_right _ _)

theorem isStart_iff : isStart c cheat i = true ↔ ∃ n, starts c cheat n = i := by
  rw [isStart, List.any_eq_true]
  constructor
  · rintro ⟨n, -, hn⟩
    exact ⟨n, beq_iff_eq.mp hn⟩
  · rintro ⟨n, hn⟩
    have hle := (starts_strictMono c cheat).le_apply (x := n)
    exact ⟨n, List.mem_range.mpr (Nat.lt_succ_of_le (hn ▸ hle)), beq_iff_eq.mpr hn⟩

theorem isStart_next (h : isStart c cheat i = true) :
    isStart c cheat (nextStart c cheat i) = true := by
  obtain ⟨n, rfl⟩ := isStart_iff.mp h
  exact isStart_iff.mpr ⟨n + 1, rfl⟩

theorem nextStart_le (hi : isStart c cheat i = true) (hj : isStart c cheat j = true)
    (hlt : i < j) : nextStart c cheat i ≤ j := by
  obtain ⟨m, rfl⟩ := isStart_iff.mp hi
  obtain ⟨n, rfl⟩ := isStart_iff.mp hj
  have hmn := (starts_strictMono c cheat).lt_iff_lt.mp hlt
  exact (starts_strictMono c cheat).monotone (Nat.succ_le_of_lt hmn)

/-! ## What a run fetches and takes -/

/-- The line is fetched as a code. -/
def Fetches (cheat : Cheat) (s : CheatState W) (line : ℕ) : Prop :=
  s.index = line ∧ line < cheat.codesCount

/-- The line is taken as data of the code that is fetched. -/
def Takes (c : Console W) (cheat : Cheat) (s : CheatState W) (line : ℕ) : Prop :=
  s.index < cheat.codesCount ∧
    match decode c (cheat.codes s.index) with
    | .writeLines _ count =>
      ∃ n, n < count.toNat ∧ (TypeE.next^[n + 1] ⟨BitVec.ofNat 8 s.index, 7⟩).line.toNat = line
    | .search searchSize size =>
      (searchSize ≤ size ∧ searchSize + s.index < cheat.codesCount) ∧
        s.skipExecution = false ∧ ∃ n, n < searchSize ∧ s.index + 1 + n / 8 = line
    | _ => False

/-- Where a loop break goes on. -/
def landing (cheat : Cheat) (s : CheatState W) : ℕ := (s.breakLoop cheat).index + 1

/-- A type E stays within 256 lines. A type FE that is skipped has no operand lines. A C that repeats
anything comes back to a line that starts a code, and a loop break goes on at such a line, or
behind the cheat. -/
def keepsBoundaries (c : Console W) (cheat : Cheat) (s : CheatState W) : Bool :=
  match decode c (cheat.codes s.index) with
  | .writeLines _ count => decide (s.index + linesOf count.toNat ≤ 255)
  | .search searchSize size =>
    decide (s.skipExecution = true → searchSize ≤ size →
      searchSize + s.index < cheat.codesCount → searchSize = 0)
  | .loop count =>
    decide ((count s.data).toNat ≤ 1 ∨ 128 ≤ s.index % 256) ||
      isStart c cheat (s.index % 256 + 1)
  | .loopBreak =>
    s.skipExecution || decide (cheat.codesCount ≤ landing cheat s) ||
      isStart c cheat (landing cheat s)
  | _ => true

/-- The line fetched next, and the one that the loop comes back to, start a code. -/
structure AtBoundary (c : Console W) (cheat : Cheat) (s : CheatState W) : Prop where
  index : cheat.codesCount ≤ s.index ∨ isStart c cheat s.index = true
  loop : s.Returns → isStart c cheat (s.loopLine.toNat + 1) = true

theorem operandLines_straight {code : CheatCode W} {b : Bool} (h : code.straight b = true) :
    code.operandLines = 0 := by
  cases code with
  | writeLines _ _ => cases h
  | search _ _ => cases h
  | _ => rfl

theorem AtBoundary.endsAs (hs : AtBoundary c cheat s)
    (hnext : isStart c cheat (s.index + 1) = true) (h : EndsAs s t) :
    AtBoundary c cheat t.advance := by
  obtain ⟨v, hsame, rfl | ⟨hcount, rfl⟩⟩ := h
  · refine ⟨.inr ?_, fun ⟨hsmall, htwo⟩ => ?_⟩
    · show isStart c cheat (t.index + 1) = true
      rwa [hsame.index]
    · show isStart c cheat (t.loopLine.toNat + 1) = true
      rw [hsame.loopLine]
      exact hs.loop ⟨hsame.loopLine ▸ hsmall, hsame.loopCount ▸ htwo⟩
  · have hnext' : isStart c cheat (v.index + 1) = true := by
      rwa [hsame.index]
    have hkept (hsmall : v.loopLine.toNat < 128) (htwo : 2 ≤ v.loopCount) :
        isStart c cheat (v.loopLine.toNat + 1) = true := by
      rw [hsame.loopLine]
      exact hs.loop ⟨hsame.loopLine ▸ hsmall, hsame.loopCount ▸ htwo⟩
    have hfits := cheat.fits
    unfold closePass
    split_ifs with hlast hline
    · exact ⟨.inr hnext', fun h => absurd h (not_returns_of_minusOne rfl)⟩
    · have htwo : 2 ≤ v.loopCount := by
        have hpos := hsame.loopCount
        omega
      refine ⟨?_, fun ⟨hsmall, _⟩ => hkept hsmall htwo⟩
      by_cases hsmall : v.loopLine.toNat < 128
      · refine .inr ?_
        show isStart c cheat ((v.loopLine.signExtend 32).toNat + 1) = true
        rw [signExtend_small hsmall]
        exact hkept hsmall htwo
      · have hlarge := signExtend_large (not_lt.mp hsmall)
        refine .inl ?_
        show cheat.codesCount ≤ (v.loopLine.signExtend 32).toNat + 1
        omega
    · exact ⟨.inr hnext', fun h => absurd h (not_returns_of_minusOne (not_not.mp hline))⟩

theorem AtBoundary.step (hs : AtBoundary c cheat s) (hkeep : keepsBoundaries c cheat s = true)
    (h : applyLine c cheat s = .next t) : AtBoundary c cheat t := by
  obtain ⟨hindex, hmoves⟩ := moves_of_next h
  have hnext := isStart_next (hs.index.resolve_left (not_le.mpr hindex))
  unfold nextStart at hnext
  unfold keepsBoundaries at hkeep
  generalize decode c (cheat.codes s.index) = code at hnext hkeep hmoves
  cases hmoves with
  | straight d hcode =>
    rw [operandLines_straight hcode] at hnext
    exact ⟨.inr hnext, hs.loop⟩
  | conditional b d => exact ⟨.inr hnext, hs.loop⟩
  | @loop count =>
    refine ⟨.inr hnext, fun ⟨hsmall, htwo⟩ => ?_⟩
    have hline : (BitVec.ofNat 8 s.index).toNat = s.index % 256 := BitVec.toNat_ofNat s.index 8
    have hsmall : (BitVec.ofNat 8 s.index).toNat < 128 := hsmall
    have htwo : 2 ≤ (count s.data).toNat := htwo
    show isStart c cheat ((BitVec.ofNat 8 s.index).toNat + 1) = true
    rw [hline] at hsmall ⊢
    rcases Bool.or_eq_true_iff.mp hkeep with hfew | hstart
    · have hfew := of_decide_eq_true hfew
      omega
    · exact hstart
  | endIf => exact hs.endsAs hnext (endsAs_endIf s)
  | loopBreak hskip =>
    refine ⟨?_, fun h => absurd h (not_returns_of_minusOne rfl)⟩
    rw [hskip, Bool.false_or] at hkeep
    rcases Bool.or_eq_true_iff.mp hkeep with hbehind | hstart
    · exact .inl (of_decide_eq_true hbehind)
    · exact .inr hstart
  | endLoop => exact hs.endsAs hnext (endsAs_endLoop s)
  | endAll => exact hs.endsAs hnext (endsAs_endAll s)
  | ret hskip => exact ⟨.inl (Nat.le_succ _), hs.loop⟩
  | @writeLines off count e d he =>
    refine ⟨.inr ?_, hs.loop⟩
    show isStart c cheat (e.line.toNat + 1) = true
    have hwithin : s.index + linesOf count.toNat ≤ 255 := of_decide_eq_true hkeep
    have hline : lineAfter s.index count.toNat = s.index + 1 + linesOf count.toNat := by
      rw [lineAfter]
      omega
    rw [he, hline]
    exact hnext
  | @searchSkipped searchSize size hskip hsize =>
    have hnone : searchSize = 0 := of_decide_eq_true hkeep hskip hsize.1 hsize.2
    rw [hnone] at hnext
    exact ⟨.inr hnext, hs.loop⟩
  | search b d hskip =>
    refine ⟨.inr ?_, hs.loop⟩
    show isStart c cheat (s.index + linesOf _ + 1) = true
    rw [Nat.add_right_comm]
    exact hnext

theorem AtBoundary.not_takes (hs : AtBoundary c cheat s) (hkeep : keepsBoundaries c cheat s = true)
    {line : ℕ} (h : Takes c cheat s line) : isStart c cheat line ≠ true := by
  obtain ⟨hindex, htakes⟩ := h
  have hstart := hs.index.resolve_left (not_le.mpr hindex)
  intro hline
  have hgap := nextStart_le hstart hline
  unfold nextStart at hgap
  unfold keepsBoundaries at hkeep
  generalize decode c (cheat.codes s.index) = code at hgap hkeep htakes
  cases code with
  | writeLines off count =>
    obtain ⟨n, hn, hpointer⟩ := htakes
    have hwithin : s.index + linesOf count.toNat ≤ 255 := of_decide_eq_true hkeep
    have hgap : s.index < line → s.index + 1 + linesOf count.toNat ≤ line := hgap
    rw [typeE_iterate, ← BitVec.ofNat_add, BitVec.toNat_ofNat] at hpointer
    rw [linesOf_eq] at hwithin hgap
    omega
  | search searchSize size =>
    obtain ⟨-, -, n, hn, hpointer⟩ := htakes
    have hgap : s.index < line → s.index + 1 + linesOf searchSize ≤ line := hgap
    rw [linesOf_eq] at hgap
    omega
  | _ => exact htakes

theorem atBoundary_start (c : Console W) (cheat : Cheat) (e : TypeE) (d : CheatData W) :
    AtBoundary c cheat (.start e d) :=
  ⟨.inr (isStart_iff.mpr ⟨0, rfl⟩), fun h => absurd h (not_returns_of_minusOne rfl)⟩

def fetchedLines (c : Console W) (cheat : Cheat) (s : CheatState W) : Set ℕ :=
  {line | ∃ t, Reaches (applyLine c cheat) s t ∧ Fetches cheat t line}

def takenLines (c : Console W) (cheat : Cheat) (s : CheatState W) : Set ℕ :=
  {line | ∃ t, Reaches (applyLine c cheat) s t ∧ Takes c cheat t line}

/-- No line is fetched as a code in one run and taken as data in the other. -/
def NeverTaken (c : Console W) (cheat : Cheat) (s s' : CheatState W) : Prop :=
  ∀ line ∈ fetchedLines c cheat s, line ∉ takenLines c cheat s'

theorem fetched_not_taken (c : Console W) (cheat : Cheat) (e e' : TypeE) (d d' : CheatData W)
    (h : Guarded (applyLine c cheat) (fun s => keepsBoundaries c cheat s = true) (.start e d))
    (h' : Guarded (applyLine c cheat) (fun s => keepsBoundaries c cheat s = true) (.start e' d')) :
    NeverTaken c cheat (.start e d) (.start e' d') := by
  have hstep (u v : CheatState W) (hu : AtBoundary c cheat u) :
      keepsBoundaries c cheat u = true → applyLine c cheat u = .next v → AtBoundary c cheat v :=
    hu.step
  rintro line ⟨s, hs, rfl, hlt⟩ ⟨s', hs', htakes⟩
  have hat := invariant_of_guarded hstep (atBoundary_start c cheat e d) h hs
  have hat' := invariant_of_guarded hstep (atBoundary_start c cheat e' d') h' hs'
  exact hat'.not_takes (h' s' hs') htakes (hat.index.resolve_left (not_le.mpr hlt))

theorem fetched_not_taken_fill : NeverTaken emptyConsole fillCheat
    (.start ⟨0, 0⟩ (emptyData 0)) (.start ⟨0, 0⟩ (emptyData 1)) :=
  fetched_not_taken emptyConsole fillCheat ⟨0, 0⟩ ⟨0, 0⟩ (emptyData 0) (emptyData 1)
    (guarded_of_guards (n := 40) (by decide +kernel))
    (guarded_of_guards (n := 40) (by decide +kernel))

/-- A key, a search for 8 bytes in 16, and its line. -/
def searchingCheat : Cheat :=
  cheatOf ([0xD300000001E81000, 0xDD00000000000001, 0xFE00000800000010, 0x023D6B280009896C] ++
    List.replicate 7 0xD000000000000000) (by decide)

theorem skipped_search_is_fetched : ¬∀ (W : Type) (c : Console W) (cheat : Cheat) (e e' : TypeE)
    (d d' : CheatData W), NeverTaken c cheat (.start e d) (.start e' d') := by
  intro h
  obtain ⟨s, hs, hindex⟩ : ∃ s, stateAfter (applyLine emptyConsole searchingCheat) 3
      (.start ⟨0, 0⟩ (emptyData 0)) = some s ∧ s.index = 3 :=
    ⟨_, rfl, rfl⟩
  obtain ⟨t, ht, hindex', hskip⟩ : ∃ t, stateAfter (applyLine emptyConsole searchingCheat) 2
      (.start ⟨0, 0⟩ (emptyData 1)) = some t ∧ t.index = 2 ∧ t.skipExecution = false :=
    ⟨_, rfl, rfl, rfl⟩
  have hcode : decode emptyConsole (searchingCheat.codes t.index) = .search 8 16 := by
    rw [hindex']
    rfl
  apply h (BitVec 32) emptyConsole searchingCheat ⟨0, 0⟩ ⟨0, 0⟩ (emptyData 0) (emptyData 1) 3
  · exact ⟨s, reaches_of_stateAfter hs, hindex, by decide⟩
  · refine ⟨t, reaches_of_stateAfter ht, ?_, ?_⟩
    · rw [hindex']
      decide
    · rw [hcode, hindex']
      exact ⟨by decide, hskip, 0, by decide, rfl⟩

end Presence3DS.Cheats
