import Presence3DS.Cheats.Arithmetic
import Presence3DS.Cheats.ProcessMemory

/-! The memory copy of a cheat (FC) against a copy from one block to the other. -/

namespace Presence3DS.Cheats
open Kernel Loops

variable {W : Type} {c : Console W} {view : W → BitVec 32 → BitVec 8}
  {mapped : W → BitVec 32 → Prop}

/-- Byte by byte, from the first one on. -/
def copyForward (dst src : BitVec 32) : ℕ → (BitVec 32 → BitVec 8) → BitVec 32 → BitVec 8
  | 0, m => m
  | n + 1, m =>
    let m' := copyForward dst src n m
    Function.update m' (dst + BitVec.ofNat 32 n) (m' (src + BitVec.ofNat 32 n))

/-- The first byte alone. -/
def copyFirst (dst src : BitVec 32) (m : BitVec 32 → BitVec 8) : BitVec 32 → BitVec 8 :=
  Function.update m dst (m src)

/-- Which access of the loop fails: a read, at the second offset, or a write, at the first. -/
def failingAccess (c : Console W) : ℕ → CheatData W → Option Bool
  | 0, _ => none
  | n + 1, d =>
    match ((cheatRead8 c 0).run { d with activeOffset := true } :
      Option (BitVec 32) × CheatData W) with
    | (none, _) => some true
    | (some data, d) =>
      match ((cheatWrite8 c 0 data).run { d with activeOffset := false } :
        Option Unit × CheatData W) with
      | (none, _) => some false
      | (some (), d) => failingAccess c n d

/-- An FC copies `n` bytes, and leaves the selected offset as it was. -/
structure CopiesForward (c : Console W) (view : W → BitVec 32 → BitVec 8) (cheat : Cheat)
    (s : CheatState W) (n : ℕ) : Prop where
  copied : ∀ t, applyLine c cheat s = .next t →
    t.data.bytes view = copyForward s.data.offset1 s.data.offset2 n (s.data.bytes view) ∧
      t.data.activeOffset = s.data.activeOffset
  failed : ∀ r d, applyLine c cheat s = .done (r, d) → d.activeOffset = s.data.activeOffset

/-- There is nothing left to copy after the first byte, and the offset that fails is the one which
is selected. -/
def CopiesEnough (c : Console W) (view : W → BitVec 32 → BitVec 8) (d : CheatData W) (n : ℕ) :
    Prop :=
  match failingAccess c n d with
  | none => ∀ k, 0 < k → k < n →
    let m := copyFirst d.offset1 d.offset2 (d.bytes view)
    m (d.offset2 + BitVec.ofNat 32 k) = m (d.offset1 + BitVec.ofNat 32 k)
  | some second => d.activeOffset = second

/-! ## The forward copy -/

theorem ofNat_injOn {j k : ℕ} (hj : j < 2 ^ 32) (hk : k < 2 ^ 32) {a : BitVec 32}
    (h : a + BitVec.ofNat 32 j = a + BitVec.ofNat 32 k) : j = k := by
  have hn := congrArg BitVec.toNat (BitVec.add_right_inj a |>.mp h)
  rwa [BitVec.toNat_ofNat, BitVec.toNat_ofNat, Nat.mod_eq_of_lt hj, Nat.mod_eq_of_lt hk] at hn

theorem copyForward_one (dst src : BitVec 32) (m : BitVec 32 → BitVec 8) :
    copyForward dst src 1 m = copyFirst dst src m := by
  show Function.update m (dst + 0#32) (m (src + 0#32)) = _
  rw [BitVec.add_zero, BitVec.add_zero, copyFirst]

theorem copyFirst_twice (dst src : BitVec 32) (m : BitVec 32 → BitVec 8) :
    copyFirst dst src (copyFirst dst src m) = copyFirst dst src m := by
  have hsrc : copyFirst dst src m src = m src := by
    rw [copyFirst, Function.update_apply]
    split_ifs with h
    · rfl
    · rfl
  rw [copyFirst, hsrc, copyFirst, Function.update_idem]

theorem copyForward_ahead (dst src : BitVec 32) {n k : ℕ} (hnk : n ≤ k) (hk : k < 2 ^ 32)
    (m : BitVec 32 → BitVec 8) :
    copyForward dst src n m (dst + BitVec.ofNat 32 k) = m (dst + BitVec.ofNat 32 k) := by
  induction n with
  | zero => rfl
  | succ n ih =>
    have hne : dst + BitVec.ofNat 32 k ≠ dst + BitVec.ofNat 32 n := fun h =>
      (Nat.lt_of_succ_le hnk).ne' (ofNat_injOn hk (by omega) h)
    show Function.update _ _ _ _ = _
    rw [Function.update_of_ne hne]
    exact ih (by omega)

theorem copyForward_eq_first (dst src : BitVec 32) {n : ℕ} (hn : n < 2 ^ 32)
    (m : BitVec 32 → BitVec 8) :
    copyForward dst src (n + 1) m = copyFirst dst src m ↔
      ∀ k, 0 < k → k < n + 1 → copyFirst dst src m (src + BitVec.ofNat 32 k) =
        copyFirst dst src m (dst + BitVec.ofNat 32 k) := by
  induction n with
  | zero =>
    refine iff_of_true (copyForward_one dst src m) fun k hpos hlt => ?_
    exact absurd hlt (Nat.not_lt.mpr hpos)
  | succ n ih =>
    have hn' : n < 2 ^ 32 := by omega
    -- The last byte is the last difference: before it, its place still holds what it held.
    have hstep : copyForward dst src (n + 1 + 1) m = copyFirst dst src m ↔
        copyForward dst src (n + 1) m = copyFirst dst src m ∧
          copyFirst dst src m (src + BitVec.ofNat 32 (n + 1)) =
            copyFirst dst src m (dst + BitVec.ofNat 32 (n + 1)) := by
      have hfirst : copyFirst dst src m (dst + BitVec.ofNat 32 (n + 1)) =
          m (dst + BitVec.ofNat 32 (n + 1)) := by
        rw [← copyForward_one]
        exact copyForward_ahead dst src (by omega) hn m
      show Function.update (copyForward dst src (n + 1) m) _ _ = _ ↔ _
      constructor
      · intro h
        have hprev : copyForward dst src (n + 1) m = copyFirst dst src m := by
          funext x
          by_cases hx : x = dst + BitVec.ofNat 32 (n + 1)
          · rw [hx, hfirst]
            exact copyForward_ahead dst src le_rfl hn m
          · rw [← h, Function.update_of_ne hx]
        rw [hprev] at h
        refine ⟨hprev, ?_⟩
        conv_rhs => rw [← h]
        rw [Function.update_self]
      · rintro ⟨hprev, hlast⟩
        rw [hprev, hlast, Function.update_eq_self]
    rw [hstep, ih hn']
    constructor
    · rintro ⟨hall, hlast⟩ k hpos hlt
      rcases Nat.lt_succ_iff_lt_or_eq.mp hlt with hlt | rfl
      · exact hall k hpos hlt
      · exact hlast
    · intro hall
      exact ⟨fun k hpos hlt => hall k hpos (Nat.lt_succ_of_lt hlt),
        hall (n + 1) (Nat.succ_pos n) (Nat.lt_succ_self _)⟩

/-! ## The loop of the code -/

theorem bytes_congr {d : CheatData W} {w : W} {second : Bool} (h : view w = view d.world) :
    CheatData.bytes view { d with activeOffset := second, world := w } = d.bytes view := by
  funext x
  show (if _ then _ else view w x) = _
  rw [h]
  rfl

theorem run_copyBytes (hlaw : ShowsMemory c view mapped) (n : ℕ) (d : CheatData W) :
    (∃ d', ((copyBytes c n).run d : Option Unit × CheatData W) = (some (), d') ∧
      failingAccess c n d = none ∧
      d'.bytes view = if n = 0 then d.bytes view
        else copyFirst d.offset1 d.offset2 (d.bytes view)) ∨
    ∃ d' second, ((copyBytes c n).run d : Option Unit × CheatData W) = (none, d') ∧
      failingAccess c n d = some second ∧ d'.activeOffset = second := by
  induction n generalizing d with
  | zero => exact .inl ⟨d, rfl, rfl, rfl⟩
  | succ n ih =>
    have hrun : ((copyBytes c (n + 1)).run d : Option Unit × CheatData W) =
        ((cheatRead8 c 0 >>= fun data => do
          modify fun s => { s with activeOffset := false }
          cheatWrite8 c 0 data
          copyBytes c n : CheatM W Unit).run { d with activeOffset := true } :
            Option Unit × CheatData W) := rfl
    rw [hrun, run_bind, failingAccess]
    obtain ⟨w, hview, -, hread⟩ := run_cheatRead8 hlaw 0 { d with activeOffset := true }
    rcases hread with hread | ⟨-, hread⟩
    · rw [hread]
      simp only
      set data : BitVec 32 := (CheatData.bytes view { d with activeOffset := true }
        (CheatData.address { d with activeOffset := true } 0)).setWidth 32 with hdata
      have hnext : ∀ d₁ : CheatData W, ((do
          modify fun s => { s with activeOffset := false }
          cheatWrite8 c 0 data
          copyBytes c n : CheatM W Unit).run d₁ : Option Unit × CheatData W) =
          ((cheatWrite8 c 0 data >>= fun _ => copyBytes c n : CheatM W Unit).run
            { d₁ with activeOffset := false } : Option Unit × CheatData W) := fun _ => rfl
      rw [hnext, run_bind]
      obtain ⟨page, w', ⟨hwrite, hbytes⟩ | ⟨hwrite, -⟩⟩ :=
        run_cheatWrite8 hlaw 0 data { d with activeOffset := false, world := w }
      · rw [hwrite]
        simp only
        have hafter : CheatData.bytes view
            { d with activeOffset := false, cheatPage := page, world := w' } =
              copyFirst d.offset1 d.offset2 (d.bytes view) := by
          have hsame : CheatData.bytes view { d with activeOffset := false, world := w } =
              d.bytes view := bytes_congr hview
          have hfrom : CheatData.address { d with activeOffset := true } 0 = d.offset2 :=
            BitVec.add_zero d.offset2
          have hto : CheatData.address { d with activeOffset := false, world := w } 0 =
              d.offset1 := BitVec.add_zero d.offset1
          refine hbytes.trans ?_
          rw [hsame, hto, hdata, hfrom, BitVec.setWidth_setWidth_of_le _ (by decide),
            BitVec.setWidth_eq]
          rfl
        rcases ih { d with activeOffset := false, cheatPage := page, world := w' } with
          ⟨d', hrest, hfail, hd'⟩ | ⟨d', second, hrest, hfail, hd'⟩
        · refine .inl ⟨d', hrest, hfail, ?_⟩
          rw [hd', hafter, copyFirst_twice, ite_self, if_neg (Nat.succ_ne_zero n)]
        · exact .inr ⟨d', second, hrest, hfail, hd'⟩
      · rw [hwrite]
        exact .inr ⟨_, false, rfl, rfl, rfl⟩
    · rw [hread]
      exact .inr ⟨_, true, rfl, rfl, rfl⟩

/-! ## One line -/

theorem decode_copy (c : Console W) {line : BitVec 64} (h : line >>> 56 = 0xFC) :
    decode c line = .plain (copyCode c (line.setWidth 32)) := by
  have hbyte : (line >>> 56).toNat = 0xF0 + 0xC := by
    rw [h]
    rfl
  obtain ⟨hstop, hdecode⟩ := decode_byteF c (by decide) (by decide) hbyte
  rw [hdecode, decodeF.eq_def, if_neg hstop]
  rfl

theorem run_copyCode {d d' : CheatData W} {r : Option Unit} {count : BitVec 32}
    (h : ((copyBytes c count.toNat).run d : Option Unit × CheatData W) = (r, d')) :
    ((copyCode c count).run d : Option Unit × CheatData W) =
      (r, if r = some () then { d' with activeOffset := d.activeOffset } else d') := by
  have hrun : ((copyCode c count).run d : Option Unit × CheatData W) =
      ((copyBytes c count.toNat >>= fun _ => modify fun s =>
        { s with activeOffset := d.activeOffset } : CheatM W Unit).run d :
          Option Unit × CheatData W) := rfl
  rw [hrun, run_bind, h]
  cases r
  · rfl
  · rfl

variable {cheat : Cheat} {s : CheatState W}

theorem applyLine_copy (hindex : s.index < cheat.codesCount) (hskip : s.skipExecution = false)
    (hline : cheat.codes s.index >>> 56 = 0xFC) :
    applyLine c cheat s = s.after (copyCode c ((cheat.codes s.index).setWidth 32))
      fun _ d => { s with data := d } := by
  rw [applyLine, if_pos hindex, decode_copy c hline, applyCode, hskip]
  rfl

/-- A copy code copies its block exactly where the first byte is all there is to copy, and a failed
access leaves the selected offset as it was exactly where it goes through that offset. -/
theorem copiesForward_iff (hlaw : ShowsMemory c view mapped) (hindex : s.index < cheat.codesCount)
    (hskip : s.skipExecution = false) (hline : cheat.codes s.index >>> 56 = 0xFC) :
    CopiesForward c view cheat s ((cheat.codes s.index).setWidth 32).toNat ↔
      CopiesEnough c view s.data ((cheat.codes s.index).setWidth 32).toNat := by
  have happly := applyLine_copy (c := c) hindex hskip hline
  generalize hcount : ((cheat.codes s.index).setWidth 32 : BitVec 32) = count at happly ⊢
  rw [CheatState.after] at happly
  rcases run_copyBytes hlaw count.toNat s.data with
    ⟨d', hrun, hfail, hbytes⟩ | ⟨d', second, hrun, hfail, hsecond⟩
  · rw [run_copyCode hrun, if_pos rfl] at happly
    simp only at happly
    have hcopied : CopiesForward c view cheat s count.toNat ↔
        d'.bytes view = copyForward s.data.offset1 s.data.offset2 count.toNat
          (s.data.bytes view) := by
      constructor
      · intro h
        exact (h.copied _ happly).1
      · intro h
        refine ⟨fun t ht => ?_, fun r d hd => ?_⟩
        · rw [happly] at ht
          cases ht
          exact ⟨h, rfl⟩
        · rw [happly] at hd
          cases hd
    rw [hcopied, CopiesEnough, hfail, hbytes]
    have hlt : count.toNat < 2 ^ 32 := count.isLt
    cases hn : count.toNat with
    | zero => exact iff_of_true rfl fun k _ hk => absurd hk (Nat.not_lt_zero k)
    | succ n =>
      rw [if_neg (Nat.succ_ne_zero n), eq_comm]
      exact copyForward_eq_first _ _ (by omega) _
  · rw [run_copyCode hrun, if_neg (Option.some_ne_none ()).symm] at happly
    simp only at happly
    have hkept : CopiesForward c view cheat s count.toNat ↔
        d'.activeOffset = s.data.activeOffset := by
      constructor
      · intro h
        exact h.failed 0 d' happly
      · intro h
        refine ⟨fun t ht => ?_, fun r d hd => ?_⟩
        · rw [happly] at ht
          cases ht
        · rw [happly] at hd
          cases hd
          exact h
    rw [hkept, CopiesEnough, hfail, hsecond]
    exact eq_comm

/-! ### A copy of two bytes -/

def copyTwo : Cheat := cheatOf [0xFC00000000000002] (Nat.lt_of_sub_eq_succ rfl)

/-- The second byte already stands where it is to go. -/
theorem copiesForward_second_there :
    CopiesForward flatConsole id copyTwo (flatState 0x20 0x10) 2 := by
  refine (copiesForward_iff showsMemory_flatConsole ?_ ?_ ?_).mpr ?_
  · exact Nat.one_pos
  · rfl
  · rfl
  · have hnone : failingAccess flatConsole 2 (flatState 0x20 0x10).data = none := by decide +kernel
    show CopiesEnough flatConsole id (flatState 0x20 0x10).data 2
    rw [CopiesEnough, hnone]
    intro k hpos hlt
    obtain rfl : k = 1 := Nat.le_antisymm (Nat.le_of_lt_succ hlt) hpos
    decide +kernel

/-- Of two bytes the second one is not copied. -/
theorem second_byte_not_copied :
    ¬CopiesForward flatConsole id copyTwo (flatState 0x20 0x0F) 2 := by
  intro h
  have hbyte : (match applyLine flatConsole copyTwo (flatState 0x20 0x0F) with
      | .next t => t.data.bytes id 0x21
      | .done _ => 1) = 0 := by decide +kernel
  cases hline : applyLine flatConsole copyTwo (flatState 0x20 0x0F) with
  | next t =>
    rw [hline] at hbyte
    have hcopy : copyForward 0x20 0x0F 2 ((flatState 0x20 0x0F).data.bytes id) 0x21 = 1 := by
      decide +kernel
    have hsame := congrFun (h.copied t hline).1 0x21
    exact absurd (hbyte.symm.trans (hsame.trans hcopy)) (by decide)
  | done r =>
    rw [hline] at hbyte
    cases hbyte

end Presence3DS.Cheats
