import Presence3DS.Cheats.Apply

/-! Whether a cheat ends. The line of a loop is kept in 8 bits with a sign and the line of a type E
in 8 bits without one, so that both may send the interpreter back. -/

namespace Presence3DS.Cheats
open Loops

variable {W : Type}

/-- A type E goes on below itself, and a C that repeats anything has a line that it comes back to,
or one that lies behind the cheat. -/
def movesForward (c : Console W) (cheat : Cheat) (s : CheatState W) : Bool :=
  match decode c (cheat.codes s.index) with
  | .writeLines _ count => decide (s.index < lineAfter s.index count.toNat)
  | .loop count =>
    decide (s.index < 128 ∨ 128 ≤ s.index % 256 ∨ (count s.data).toNat ≤ 1)
  | _ => true

/-! ## The line of a loop -/

theorem signExtend_small {l : BitVec 8} (h : l.toNat < 128) :
    (l.signExtend 32).toNat = l.toNat := by
  have hmsb : l.msb = false := by
    rw [BitVec.msb_eq_decide]
    exact decide_eq_false (not_le.mpr h)
  rw [BitVec.toNat_signExtend, hmsb, if_neg Bool.false_ne_true, Nat.add_zero, BitVec.toNat_setWidth]
  omega

theorem signExtend_large {l : BitVec 8} (h : 128 ≤ l.toNat) :
    2 ^ 32 - 128 ≤ (l.signExtend 32).toNat := by
  have hmsb : l.msb = true := by
    rw [BitVec.msb_eq_decide]
    exact decide_eq_true h
  rw [BitVec.toNat_signExtend, hmsb, if_pos rfl, BitVec.toNat_setWidth]
  omega

namespace CheatState

/-- A closing of the loop leads back to it. -/
def Returns (s : CheatState W) : Prop := s.loopLine.toNat < 128 ∧ 2 ≤ s.loopCount

instance (s : CheatState W) : Decidable s.Returns := instDecidableAnd

/-- No later pass goes back above this line. -/
def base (s : CheatState W) : ℕ := if s.Returns then s.loopLine.toNat + 1 else s.index

def BelowLoop (s : CheatState W) : Prop := s.Returns → s.loopLine.toNat + 1 ≤ s.index

theorem BelowLoop.base_le {s : CheatState W} (h : s.BelowLoop) : s.base ≤ s.index := by
  unfold base
  split_ifs with hreturns
  · exact h hreturns
  · exact le_rfl

/-- What a pass does to the lines: it goes forward in the same loop, or forward with nothing to
come back to above, or back to the loop with one repetition less. -/
inductive Progress (s t : CheatState W) : Prop
  | forward (hindex : s.index < t.index) (hline : t.loopLine = s.loopLine)
    (hcount : t.loopCount = s.loopCount)
  | fresh (hindex : s.index < t.index) (hloop : t.Returns → t.loopLine.toNat + 1 = t.index)
  | back (hreturns : s.Returns) (hindex : t.index = s.loopLine.toNat + 1)
    (hline : t.loopLine = s.loopLine) (hcount : t.loopCount + 1 = s.loopCount)

end CheatState

open CheatState

variable {c : Console W} {cheat : Cheat} {s t : CheatState W}

theorem not_returns_of_minusOne (h : t.loopLine = -1) : ¬ t.Returns := by
  rintro ⟨hsmall, -⟩
  rw [h] at hsmall
  exact absurd hsmall (by decide)

theorem progress_closePass (cheat : Cheat) (hindex : s.index < cheat.codesCount)
    (hsame : SameLines s t) (hcount : 0 < s.loopCount) : Progress s t.closePass.advance := by
  have hi := hsame.index
  have hc := hsame.loopCount
  have hfits := cheat.fits
  unfold closePass
  split_ifs with hlast hline
  · apply Progress.fresh
    · show s.index < t.index + 1
      omega
    · exact fun h => absurd h (not_returns_of_minusOne rfl)
  · by_cases hsmall : s.loopLine.toNat < 128
    · apply Progress.back ⟨hsmall, by omega⟩
      · show (t.loopLine.signExtend 32).toNat + 1 = s.loopLine.toNat + 1
        rw [hsame.loopLine, signExtend_small hsmall]
      · exact hsame.loopLine
      · show t.loopCount - 1 + 1 = s.loopCount
        omega
    · have hlarge := signExtend_large (not_lt.mp hsmall)
      apply Progress.fresh
      · show s.index < (t.loopLine.signExtend 32).toNat + 1
        rw [hsame.loopLine]
        omega
      · rintro ⟨hsmall', -⟩
        exact absurd (hsame.loopLine ▸ hsmall' : s.loopLine.toNat < 128) hsmall
  · apply Progress.fresh
    · show s.index < t.index + 1
      omega
    · exact fun h => absurd h (not_returns_of_minusOne (not_not.mp hline))

theorem progress_endsAs (cheat : Cheat) (hindex : s.index < cheat.codesCount) (h : EndsAs s t) :
    Progress s t.advance := by
  obtain ⟨v, hsame, rfl | ⟨hcount, rfl⟩⟩ := h
  · exact .forward (Nat.lt_succ_of_le hsame.index.ge) hsame.loopLine hsame.loopCount
  · exact progress_closePass cheat hindex hsame hcount

theorem progress_startLoop {count : ℕ}
    (h : s.index < 128 ∨ 128 ≤ s.index % 256 ∨ count ≤ 1) :
    Progress s (s.startLoop count).advance := by
  apply Progress.fresh (Nat.lt_succ_self _)
  rintro ⟨hsmall, htwo⟩
  have hsmall : s.index % 256 < 128 := (BitVec.toNat_ofNat s.index 8).symm.trans_lt hsmall
  have htwo : 2 ≤ count := htwo
  show (BitVec.ofNat 8 s.index).toNat + 1 = s.index + 1
  rw [BitVec.toNat_ofNat]
  omega

theorem progress_of_next (hforward : movesForward c cheat s = true)
    (h : applyLine c cheat s = .next t) : Progress s t := by
  obtain ⟨hindex, hmoves⟩ := moves_of_next h
  unfold movesForward at hforward
  generalize decode c (cheat.codes s.index) = code at hforward hmoves
  cases hmoves with
  | straight d hcode => exact .forward (Nat.lt_succ_self _) rfl rfl
  | conditional b d => exact .forward (Nat.lt_succ_self _) rfl rfl
  | loop => exact progress_startLoop (of_decide_eq_true hforward)
  | endIf => exact progress_endsAs cheat hindex (endsAs_endIf s)
  | loopBreak hskip =>
    apply Progress.fresh
    · exact Nat.lt_succ_of_lt (scanLoopEnd_ge cheat _ _)
    · exact fun h => absurd h (not_returns_of_minusOne rfl)
  | endLoop => exact progress_endsAs cheat hindex (endsAs_endLoop s)
  | endAll => exact progress_endsAs cheat hindex (endsAs_endAll s)
  | ret hskip => exact .forward (Nat.lt_succ_of_lt hindex) rfl rfl
  | writeLines e d he =>
    have hlt : s.index < e.line.toNat + 1 := he ▸ of_decide_eq_true hforward
    exact .forward hlt rfl rfl
  | searchSkipped hskip hsize => exact .forward (Nat.lt_succ_self _) rfl rfl
  | search b d hskip => exact .forward (Nat.lt_succ_of_le (Nat.le_add_right _ _)) rfl rfl

/-! ## The measure -/

theorem CheatState.Progress.belowLoop (hs : s.BelowLoop) (h : Progress s t) : t.BelowLoop := by
  intro hreturns
  cases h with
  | forward hindex hline hcount =>
    have hreturns' : s.Returns := by
      rwa [CheatState.Returns, hline, hcount] at hreturns
    have hle := hs hreturns'
    rw [hline]
    omega
  | fresh hindex hloop => exact (hloop hreturns).le
  | back _ hindex hline _ => rw [hindex, hline]

def measure (cheat : Cheat) (s : CheatState W) : ℕ × ℕ × ℕ :=
  (cheat.codesCount - s.base, s.loopCount, cheat.codesCount - s.index)

theorem measure_lt_of_base (hs : s.base < cheat.codesCount) (h : s.base < t.base) :
    Prod.Lex (· < ·) (Prod.Lex (· < ·) (· < ·)) (measure cheat t) (measure cheat s) :=
  .left _ _ (by omega)

theorem CheatState.Progress.measure_lt (hindex : s.index < cheat.codesCount) (hs : s.BelowLoop)
    (h : Progress s t) :
    Prod.Lex (· < ·) (Prod.Lex (· < ·) (· < ·)) (measure cheat t) (measure cheat s) := by
  have hbase := hs.base_le
  cases h with
  | forward hlt hline hcount =>
    have hsame : t.Returns ↔ s.Returns := by
      rw [CheatState.Returns, CheatState.Returns, hline, hcount]
    by_cases hreturns : s.Returns
    · have hkept : t.base = s.base := by
        rw [base, base, if_pos hreturns, if_pos (hsame.mpr hreturns), hline]
      rw [measure, measure, hkept, hcount]
      exact .right _ (.right _ (by omega))
    · apply measure_lt_of_base (hbase.trans_lt hindex)
      rw [base, base, if_neg hreturns, if_neg (hsame.not.mpr hreturns)]
      exact hlt
  | fresh hlt hloop =>
    apply measure_lt_of_base (hbase.trans_lt hindex)
    have ht : t.base = t.index := by
      unfold base
      split_ifs with hreturns
      · exact hloop hreturns
      · rfl
    omega
  | back hreturns hback hline hcount =>
    have hkept : t.base = s.base := by
      rw [base, base, if_pos hreturns]
      split_ifs
      · rw [hline]
      · exact hback
    rw [measure, measure, hkept]
    exact .right _ (.left _ _ (by omega))

/-- A cheat returns where no line sends it back above a loop. -/
theorem applyCheat_returns (c : Console W) (cheat : Cheat) (typeE : TypeE) (d : CheatData W)
    (h : Guarded (applyLine c cheat) (fun s => movesForward c cheat s = true) (.start typeE d)) :
    ∃ result, ApplyCheat c cheat typeE d result := by
  have hwf : WellFounded (Prod.Lex (· < ·) (Prod.Lex (· < ·) (· < ·)) : ℕ × ℕ × ℕ → _ → Prop) :=
    Nat.lt_wfRel.wf.prod_lex (Nat.lt_wfRel.wf.prod_lex Nat.lt_wfRel.wf)
  apply returns_of_decreasing hwf (measure cheat) (I := BelowLoop) _ _ h
  · intro s t hs hforward hnext
    have hprogress := progress_of_next hforward hnext
    exact ⟨hprogress.belowLoop hs, hprogress.measure_lt (moves_of_next hnext).1 hs⟩
  · exact fun hreturns => absurd hreturns (not_returns_of_minusOne rfl)

/-! ### Small cheats -/

/-- A loop over a type E in the cheat page. -/
def fillCheat : Cheat :=
  cheatOf [0xD300000001E81000, 0xC000000000000003, 0xE000000000000009, 0x1122334455667788, 0x99,
    0xDC00000000000009, 0xD100000000000000] (by decide)

theorem fillCheat_returns : ∃ result, ApplyCheat emptyConsole fillCheat ⟨0, 0⟩ (emptyData 0) result :=
  applyCheat_returns emptyConsole fillCheat ⟨0, 0⟩ (emptyData 0)
    (guarded_of_guards (n := 40) (by decide +kernel))

/-- A key that is not pressed, a type E of 2040 bytes, and its 255 lines. -/
def wrappingCheat : Cheat where
  codes i :=
    if i = 0 then 0xDD00000000000001 else if i = 1 then 0xE0000000000007F8
    else 0x1111111111111111
  codesCount := 257
  fits := by decide

theorem wrappingCheat_repeats {s : CheatState (BitVec 32)} (hindex : s.index = 1)
    (hskip : s.skipExecution = true) :
    applyLine emptyConsole wrappingCheat s = .next { s with typeE := ⟨0, 7⟩ } := by
  have hcode : decode emptyConsole (wrappingCheat.codes s.index) = .writeLines 0 0x7F8 := by
    rw [hindex]
    rfl
  have hlines : s.index < wrappingCheat.codesCount := by
    rw [hindex]
    decide
  rw [applyLine, if_pos hlines, hcode, applyCode, CheatState.after, hskip, writeLines_skipped,
    typeE_iterate, hindex]
  cases s
  cases hindex
  rfl

theorem wrapping_type_e_never_returns : ¬∀ (W : Type) (c : Console W) (cheat : Cheat)
    (typeE : TypeE) (d : CheatData W), ∃ result, ApplyCheat c cheat typeE d result := by
  intro h
  obtain ⟨result, hreturns⟩ := h (BitVec 32) emptyConsole wrappingCheat ⟨0, 0⟩ (emptyData 0)
  obtain ⟨s, hs, hindex, hskip⟩ : ∃ s,
      applyLine emptyConsole wrappingCheat (.start ⟨0, 0⟩ (emptyData 0)) = .next s ∧
        s.index = 1 ∧ s.skipExecution = true :=
    ⟨_, rfl, rfl, rfl⟩
  have hrepeats := wrappingCheat_repeats hindex hskip
  have hfixed := wrappingCheat_repeats (s := { s with typeE := ⟨0, 7⟩ }) hindex hskip
  exact not_returns_of_fixed hfixed ((hreturns.of_next hs).of_next hrepeats)

end Presence3DS.Cheats
