import Presence3DS.Cheats.Arithmetic
import Presence3DS.Cheats.ProcessMemory

/-! The search of a cheat for a pattern (FE). -/

namespace Presence3DS.Cheats
open Kernel Loops

variable {W : Type} {c : Console W} {view : W → BitVec 32 → BitVec 8}
  {mapped : W → BitVec 32 → Prop}

namespace CheatData

/-- A byte of the window at the selected offset. -/
def windowByte (view : W → BitVec 32 → BitVec 8) (d : CheatData W) (i : ℕ) : BitVec 32 :=
  (d.bytes view (d.address (BitVec.ofNat 32 i))).setWidth 32

/-- The pattern stands at place `i` of the window. -/
def MatchesAt (view : W → BitVec 32 → BitVec 8) (d : CheatData W) (pattern : ℕ → BitVec 32)
    (searchSize i : ℕ) : Prop :=
  ∀ j < searchSize, d.windowByte view (i + j) = pattern j

end CheatData

/-- The line opens a conditional, which is true. -/
def OpensTrue (c : Console W) (cheat : Cheat) (s : CheatState W) : Prop :=
  ∃ t, applyLine c cheat s = .next t ∧ t.ifCount = s.ifCount + 1 ∧ t.skipExecution = false

/-- The pattern of the lines, in the order of the bytes of type E, stands in the window. -/
def Occurs (view : W → BitVec 32 → BitVec 8) (cheat : Cheat) (s : CheatState W)
    (searchSize size : ℕ) : Prop :=
  ∃ i, i + searchSize ≤ size ∧
    s.data.MatchesAt view (operandByte cheat (s.index + 1)) searchSize i

/-- As many lines follow as the pattern has bytes, and it stands in the window in the order of the
bytes in memory, before its last place. -/
def OccursInOrder (view : W → BitVec 32 → BitVec 8) (cheat : Cheat) (s : CheatState W)
    (searchSize size : ℕ) : Prop :=
  searchSize + s.index < cheat.codesCount ∧ ∃ i, i + searchSize < size ∧
    s.data.MatchesAt view (searchData cheat (s.index + 1)) searchSize i

/-! ## The loops of the code -/

/-- The window can be read up to here. -/
def ReadableTo (mapped : W → BitVec 32 → Prop) (d : CheatData W) (size : ℕ) : Prop :=
  ∀ i < size, d.Readable mapped (d.address (BitVec.ofNat 32 i))

/-- The reads have changed nothing that can be seen. -/
structure SameMemory (view : W → BitVec 32 → BitVec 8) (mapped : W → BitVec 32 → Prop)
    (d d' : CheatData W) : Prop where
  rest : ∃ w, d' = { d with world := w }
  view_eq : view d'.world = view d.world
  mapped_eq : mapped d'.world = mapped d.world

namespace SameMemory
variable {d d' d'' : CheatData W}

theorem refl (d : CheatData W) : SameMemory view mapped d d := ⟨⟨d.world, rfl⟩, rfl, rfl⟩

theorem trans (h : SameMemory view mapped d d') (h' : SameMemory view mapped d' d'') :
    SameMemory view mapped d d'' := by
  obtain ⟨w, rfl⟩ := h.rest
  obtain ⟨w', rfl⟩ := h'.rest
  exact ⟨⟨w', rfl⟩, h'.view_eq.trans h.view_eq, h'.mapped_eq.trans h.mapped_eq⟩

theorem windowByte (h : SameMemory view mapped d d') (i : ℕ) :
    d'.windowByte view i = d.windowByte view i := by
  have hview := h.view_eq
  obtain ⟨w, rfl⟩ := h.rest
  show (if _ then _ else view w _ : BitVec 8).setWidth 32 = _
  rw [show view w = view d.world from hview]
  rfl

theorem readableTo (h : SameMemory view mapped d d') {size : ℕ}
    (hread : ReadableTo mapped d size) : ReadableTo mapped d' size := by
  have hmapped := h.mapped_eq
  obtain ⟨w, rfl⟩ := h.rest
  intro i hi
  show _ ∨ mapped w _
  rw [show mapped w = mapped d.world from hmapped]
  exact hread i hi

end SameMemory

theorem run_windowByte (hlaw : ShowsMemory c view mapped) {d : CheatData W} {size i : ℕ}
    (hread : ReadableTo mapped d size) (hi : i < size) :
    ∃ d', ((cheatRead8 c (BitVec.ofNat 32 i)).run d : Option (BitVec 32) × CheatData W) =
      (some (d.windowByte view i), d') ∧ SameMemory view mapped d d' := by
  obtain ⟨w, hview, hmapped, hrun | ⟨hnot, -⟩⟩ := run_cheatRead8 hlaw (BitVec.ofNat 32 i) d
  · exact ⟨{ d with world := w }, hrun, ⟨w, rfl⟩, hview, hmapped⟩
  · exact absurd (hread i hi) hnot

theorem run_patternAt (hlaw : ShowsMemory c view mapped) (cheat : Cheat) (line : ℕ) {size i : ℕ}
    (n j : ℕ) {d : CheatData W} (hread : ReadableTo mapped d size) (hfit : i + (j + n) ≤ size) :
    ∃ b d', ((patternAt c cheat line i n j).run d : Option Bool × CheatData W) = (some b, d') ∧
      SameMemory view mapped d d' ∧
      (b = true ↔ ∀ k < n, d.windowByte view (i + (j + k)) = searchData cheat line (j + k)) := by
  induction n generalizing j d with
  | zero => exact ⟨true, d, rfl, .refl d, iff_of_true rfl fun k hk => absurd hk (Nat.not_lt_zero k)⟩
  | succ n ih =>
    obtain ⟨d', hrun, hsame⟩ :=
      run_windowByte hlaw hread (show i + j < size by omega)
    rw [patternAt, run_bind, hrun]
    simp only
    split_ifs with heq
    · obtain ⟨b, d'', hrest, hsame', hb⟩ :=
        ih (j + 1) (hsame.readableTo hread) (by omega)
      refine ⟨b, d'', hrest, hsame.trans hsame', hb.trans ?_⟩
      simp only [hsame.windowByte]
      constructor
      · intro h k hk
        cases k with
        | zero => exact heq
        | succ k =>
          have hk' := h k (Nat.lt_of_succ_lt_succ hk)
          rwa [Nat.add_right_comm, Nat.add_assoc] at hk'
      · intro h k hk
        have hk' := h (k + 1) (Nat.succ_lt_succ hk)
        rwa [Nat.add_right_comm, Nat.add_assoc]
    · exact ⟨false, d', rfl, hsame, iff_of_false Bool.false_ne_true fun h =>
        heq (h 0 (Nat.succ_pos n))⟩

theorem run_searchPattern (hlaw : ShowsMemory c view mapped) (cheat : Cheat)
    (line searchSize : ℕ) {size : ℕ} (n i : ℕ) {d : CheatData W}
    (hread : ReadableTo mapped d size) (hfit : i + n + searchSize ≤ size) :
    ∃ b d', ((searchPattern c cheat line searchSize n i).run d : Option Bool × CheatData W) =
        (some b, d') ∧ SameMemory view mapped d d' ∧
      (b = false ↔ ∃ k < n, d.MatchesAt view (searchData cheat line) searchSize (i + k)) := by
  induction n generalizing i d with
  | zero =>
    refine ⟨true, d, rfl, .refl d, iff_of_false nofun ?_⟩
    rintro ⟨k, hk, -⟩
    exact absurd hk (Nat.not_lt_zero k)
  | succ n ih =>
    obtain ⟨b, d', hrun, hsame, hb⟩ :=
      run_patternAt hlaw cheat line searchSize 0 hread (show i + (0 + searchSize) ≤ size by omega)
    simp only [Nat.zero_add] at hb
    rw [searchPattern, run_bind, hrun]
    cases b
    · obtain ⟨b, d'', hrest, hsame', hb'⟩ :=
        ih (i + 1) (hsame.readableTo hread) (by omega)
      refine ⟨b, d'', hrest, hsame.trans hsame', hb'.trans ?_⟩
      simp only [CheatData.MatchesAt, hsame.windowByte]
      constructor
      · rintro ⟨k, hk, h⟩
        rw [Nat.add_right_comm, Nat.add_assoc] at h
        exact ⟨k + 1, Nat.succ_lt_succ hk, h⟩
      · rintro ⟨_ | k, hk, h⟩
        · exact absurd (hb.mpr h) Bool.false_ne_true
        · rw [← Nat.add_assoc, Nat.add_right_comm] at h
          exact ⟨k, Nat.lt_of_succ_lt_succ hk, h⟩
    · exact ⟨false, d', rfl, hsame, iff_of_true rfl ⟨0, Nat.succ_pos n, hb.mp rfl⟩⟩

/-! ## One line -/

theorem decode_search (c : Console W) {line : BitVec 64} (h : line >>> 56 = 0xFE) :
    decode c line = .search (((line >>> 32).setWidth 32 : BitVec 32) &&& 0xFFFF).toNat
      (line.setWidth 32 : BitVec 32).toNat := by
  have hbyte : (line >>> 56).toNat = 0xF0 + 0xE := by
    rw [h]
    rfl
  obtain ⟨hstop, hdecode⟩ := decode_byteF c (by decide) (by decide) hbyte
  rw [hdecode, decodeF.eq_def, if_neg hstop]
  rfl

variable {cheat : Cheat} {s : CheatState W}

theorem skipExecution_push (s : CheatState W) (newSkip : Bool) :
    (s.push newSkip).skipExecution = (newSkip || s.skipExecution) := by
  show (s.ifStack <<< 1 ||| if newSkip || s.skipExecution then 1 else 0).getLsbD 0 = _
  rw [BitVec.getLsbD_or, BitVec.getLsbD_shiftLeft, getLsbD_lowest_zero]
  simp

theorem opensTrue_iff (hlaw : ShowsMemory c view mapped) (hindex : s.index < cheat.codesCount)
    (hskip : s.skipExecution = false) {searchSize size : ℕ} (hsize : searchSize ≤ size)
    (hcode : decode c (cheat.codes s.index) = .search searchSize size)
    (hread : ReadableTo mapped s.data size) :
    OpensTrue c cheat s ↔ OccursInOrder view cheat s searchSize size := by
  rw [OpensTrue, applyLine, if_pos hindex, hcode, applyCode, hskip]
  simp only [Bool.false_eq_true, if_false]
  by_cases hlines : searchSize + s.index < cheat.codesCount
  · obtain ⟨b, d', hrun, -, hb⟩ := run_searchPattern hlaw cheat (s.index + 1) searchSize
      (size - searchSize) 0 hread (by omega)
    rw [if_pos ⟨hsize, hlines⟩, CheatState.after, hrun]
    simp only [Nat.zero_add] at hb
    have hopen : OccursInOrder view cheat s searchSize size ↔ b = false := by
      rw [hb, OccursInOrder, and_iff_right hlines]
      exact exists_congr fun i => and_congr_left' (by omega)
    rw [hopen]
    constructor
    · rintro ⟨t, ht, -, htrue⟩
      cases ht
      have hor := (skipExecution_push _ b).symm.trans htrue
      exact (Bool.or_eq_false_iff.mp hor).1
    · rintro rfl
      exact ⟨_, rfl, rfl, (skipExecution_push _ false).trans hskip⟩
  · rw [if_neg fun h => hlines h.2]
    refine iff_of_false ?_ fun h => hlines h.1
    rintro ⟨t, ht, -⟩
    cases ht

/-- A search opens a true conditional for the pattern exactly where the pattern, in the order of the
bytes of type E, occurs in the window if and only if it occurs as the code looks for it. -/
theorem search_finds_iff (hlaw : ShowsMemory c view mapped) {searchSize size : ℕ}
    (hline : cheat.codes s.index >>> 56 = 0xFE)
    (hpattern : (((cheat.codes s.index >>> 32).setWidth 32 : BitVec 32) &&& 0xFFFF).toNat =
      searchSize)
    (hwindow : ((cheat.codes s.index).setWidth 32 : BitVec 32).toNat = size)
    (hsize : searchSize ≤ size) (hskip : s.skipExecution = false)
    (hlines : s.index + linesOf searchSize < cheat.codesCount)
    (hread : ReadableTo mapped s.data size) :
    (OpensTrue c cheat s ↔ Occurs view cheat s searchSize size) ↔
      (Occurs view cheat s searchSize size ↔ OccursInOrder view cheat s searchSize size) := by
  have hcode := decode_search c hline
  rw [hpattern, hwindow] at hcode
  rw [opensTrue_iff hlaw (by omega) hskip hsize hcode hread]
  exact Iff.comm

/-! ### A pattern of one byte -/

/-- The byte 1 is searched for in a window of so many bytes. -/
def searchOne (size : BitVec 64) : Cheat :=
  cheatOf [0xFE00000100000000 ||| size, 0x0000000100000001] (Nat.lt_of_sub_eq_succ rfl)

theorem occurs_searchOne {size : ℕ} (hsize : 1 ≤ size) (n : BitVec 64) :
    Occurs id (searchOne n) (flatState 0x10 0) 1 size := by
  refine ⟨0, hsize, fun j hj => ?_⟩
  obtain rfl : j = 0 := Nat.lt_one_iff.mp hj
  have hthere : (flatState 0x10 0).data.windowByte id 0 = 1 := by decide
  refine hthere.trans ?_
  show 1 = (((0x0000000100000001 : BitVec 64) >>> 32).setWidth 8).setWidth 32
  decide

/-- The byte stands before the last place of the window. -/
theorem search_finds_first : OpensTrue flatConsole (searchOne 2) (flatState 0x10 0) ↔
    Occurs id (searchOne 2) (flatState 0x10 0) 1 2 := by
  refine (search_finds_iff showsMemory_flatConsole ?_ ?_ ?_ ?_ ?_ ?_ ?_).mpr ?_
  · decide +kernel
  · decide +kernel
  · decide +kernel
  · exact Nat.le_succ 1
  · decide +kernel
  · exact Nat.le_refl 2
  · intro i hi
    refine .inr (?_ : (1 : BitVec 32) ≤ _)
    have hall : ∀ i < 2, (1 : BitVec 32) ≤ (flatState 0x10 0).data.address (BitVec.ofNat 32 i) := by
      decide +kernel
    exact hall i hi
  · refine iff_of_true (occurs_searchOne (Nat.le_succ 1) 2) ⟨Nat.le_refl 2, 0, ?_, fun j hj => ?_⟩
    · exact Nat.le_refl 2
    · obtain rfl : j = 0 := Nat.lt_one_iff.mp hj
      decide +kernel

/-- The byte stands at the last place of the window, where the code does not look. -/
theorem search_misses_last : ¬(OpensTrue flatConsole (searchOne 1) (flatState 0x10 0) ↔
    Occurs id (searchOne 1) (flatState 0x10 0) 1 1) := by
  intro h
  obtain ⟨t, ht, -, htrue⟩ := h.mpr (occurs_searchOne le_rfl 1)
  have hskips : (match applyLine flatConsole (searchOne 1) (flatState 0x10 0) with
      | .next t => t.skipExecution
      | .done _ => true) = true := by decide +kernel
  rw [ht] at hskips
  exact absurd (hskips.symm.trans htrue) (by decide)

end Presence3DS.Cheats
