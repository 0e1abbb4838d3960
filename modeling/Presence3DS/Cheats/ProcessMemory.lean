import Presence3DS.Cheats.Conditionals
import Presence3DS.Cheats.Storage

/-! The memory that a cheat sees: its page, and the memory of the process, which the kernel shows
byte by byte. -/

namespace Presence3DS.Cheats
open Kernel Patches

variable {W : Type}

/-- Some bytes of a value are written, little endian. -/
def writeView (a : BitVec 32) (n : ℕ) (value : BitVec 32) (m : BitVec 32 → BitVec 8) :
    BitVec 32 → BitVec 8 :=
  fun x => if (x - a).toNat < n then wordByte value (x - a).toNat else m x

/-- The kernel reads and writes a memory: `view` gives its bytes, of which those that are `mapped`
can be read. Nothing but the writes changes it. -/
structure ShowsMemory (c : Console W) (view : W → BitVec 32 → BitVec 8)
    (mapped : W → BitVec 32 → Prop) : Prop where
  query_view : ∀ w a, view (c.svcQueryDebugProcessMemory w a).2 = view w
  query_mapped : ∀ w a, mapped (c.svcQueryDebugProcessMemory w a).2 = mapped w
  read_view : ∀ w a n, view (c.svcReadProcessMemory w a n).2 = view w
  read_mapped : ∀ w a n, mapped (c.svcReadProcessMemory w a n).2 = mapped w
  read_bytes : ∀ w a n, rFailed (c.svcReadProcessMemory w a n).1.1 = false → ∀ k < n,
    (c.svcReadProcessMemory w a n).1.2 k = view w (a + BitVec.ofNat 32 k)
  write_view : ∀ w a n v, view (c.svcWriteProcessMemory w a n v).2 =
    if rFailed (c.svcWriteProcessMemory w a n v).1 then view w else writeView a n v (view w)
  mapped_valid : ∀ w a, mapped w a →
    let (res, info) := (c.svcQueryDebugProcessMemory w a).1
    rFailed res = false ∧ info.state ≠ 0 ∧ 0 < info.base_addr ∧ info.base_addr ≤ a ∧
      a ≤ info.base_addr + info.size - 1
  mapped_read : ∀ w a, mapped w a → rFailed (c.svcReadProcessMemory w a 1).1.1 = false

variable {c : Console W} {view : W → BitVec 32 → BitVec 8} {mapped : W → BitVec 32 → Prop}

namespace CheatData

/-- The bytes that a cheat reads and writes. -/
def bytes (view : W → BitVec 32 → BitVec 8) (d : CheatData W) (a : BitVec 32) : BitVec 8 :=
  if inCheatPage a 1 then d.cheatPage (a - cheatPageStart).toNat else view d.world a

/-- The byte can be read. -/
def Readable (mapped : W → BitVec 32 → Prop) (d : CheatData W) (a : BitVec 32) : Prop :=
  inCheatPage a 1 = true ∨ mapped d.world a

end CheatData

theorem readBytes_one (m : Memory) (off : ℕ) : readBytes m off 1 = (m off).setWidth 32 := by
  show (m off).setWidth 32 ||| (0#32) <<< 8 = _
  rw [BitVec.zero_shiftLeft, BitVec.or_zero]

theorem run_activeOffset (d : CheatData W) :
    (activeOffset.run d : Option (BitVec 32) × CheatData W) =
      (some (if d.activeOffset then d.offset2 else d.offset1), d) := rfl

theorem run_isValidAddress (hlaw : ShowsMemory c view mapped) (a size : BitVec 32)
    (d : CheatData W) :
    ∃ valid w, ((cheatIsValidAddress c a size).run d : Option Bool × CheatData W) =
      (some valid, { d with world := w }) ∧ view w = view d.world ∧
      mapped w = mapped d.world ∧ (mapped d.world a → size = 1 → valid = true) := by
  refine ⟨_, _, rfl, hlaw.query_view d.world a, hlaw.query_mapped d.world a, ?_⟩
  rintro hmapped rfl
  obtain ⟨hres, hstate, hbase, hle, hend⟩ := hlaw.mapped_valid d.world a hmapped
  simpa [hres, hle] using ⟨⟨hstate, hbase⟩, hend⟩

theorem wordByte_zero (w : BitVec 32) : wordByte w 0 = w.setWidth 8 := by
  rw [wordByte, Nat.mul_zero, BitVec.ushiftRight_zero]

theorem writeBytes_one (m : Memory) (off : ℕ) (value : BitVec 32) :
    writeBytes m off 1 value = Function.update m off (value.setWidth 8) := by
  funext a
  rw [writeBytes, Function.update_apply]
  by_cases ha : a = off
  · subst ha
    rw [if_pos ⟨le_rfl, Nat.lt_succ_self a⟩, if_pos rfl, Nat.sub_self, wordByte_zero]
  · rw [if_neg fun h => ha (Nat.le_antisymm (Nat.le_of_lt_succ h.2) h.1), if_neg ha]

theorem writeView_one (a value : BitVec 32) (m : BitVec 32 → BitVec 8) :
    writeView a 1 (truncate 1 value) m = Function.update m a (value.setWidth 8) := by
  funext x
  rw [writeView, Function.update_apply]
  by_cases hx : x = a
  · subst hx
    rw [BitVec.sub_self, if_pos rfl, if_pos (show (0#32).toNat < 1 from Nat.one_pos)]
    show wordByte (truncate 1 value) 0 = _
    rw [wordByte_zero, truncate, Nat.mul_one, BitVec.setWidth_setWidth_of_le _ (by decide),
      BitVec.setWidth_eq]
  · have hne : ¬(x - a).toNat < 1 := by
      intro h
      have hzero : x - a = 0#32 := BitVec.eq_of_toNat_eq (Nat.lt_one_iff.mp h)
      exact hx ((BitVec.sub_eq_iff_eq_add.mp hzero).trans (BitVec.zero_add a))
    rw [if_neg hne, if_neg hx]

theorem bytes_update_page (d : CheatData W) {a : BitVec 32} (h : inCheatPage a 1 = true)
    (b : BitVec 8) :
    CheatData.bytes view
        { d with cheatPage := Function.update d.cheatPage (a - cheatPageStart).toNat b } =
      Function.update (d.bytes view) a b := by
  funext x
  show (if inCheatPage x 1 then Function.update d.cheatPage _ b (x - cheatPageStart).toNat
    else view d.world x) = _
  rw [Function.update_apply, Function.update_apply, CheatData.bytes]
  by_cases hx : x = a
  · subst hx
    rw [if_pos h, if_pos rfl, if_pos rfl]
  have hne : (x - cheatPageStart).toNat ≠ (a - cheatPageStart).toNat := fun heq =>
    hx ((BitVec.sub_left_inj cheatPageStart).mp (BitVec.eq_of_toNat_eq heq))
  rw [if_neg hx, if_neg hne]

theorem bytes_update_view (d : CheatData W) {w : W} {a : BitVec 32} (h : ¬inCheatPage a 1 = true)
    {b : BitVec 8} (hview : view w = Function.update (view d.world) a b) :
    CheatData.bytes view { d with world := w } = Function.update (d.bytes view) a b := by
  funext x
  rw [Function.update_apply, CheatData.bytes, CheatData.bytes]
  by_cases hx : x = a
  · subst hx
    rw [if_neg h, if_pos rfl, hview, Function.update_self]
  · rw [if_neg hx, hview, Function.update_of_ne hx]

theorem run_cheatRead8 (hlaw : ShowsMemory c view mapped) (offset : BitVec 32) (d : CheatData W) :
    ∃ w, view w = view d.world ∧ mapped w = mapped d.world ∧
      (((cheatRead8 c offset).run d : Option (BitVec 32) × CheatData W) =
          (some ((d.bytes view (d.address offset)).setWidth 32), { d with world := w }) ∨
        ¬d.Readable mapped (d.address offset) ∧
        ((cheatRead8 c offset).run d : Option (BitVec 32) × CheatData W) =
          (none, { d with world := w })) := by
  unfold cheatRead8 cheatRead
  rw [run_bind, run_activeOffset]
  simp only
  rw [show (if d.activeOffset = true then d.offset2 else d.offset1) + offset = d.address offset
    from rfl]
  generalize d.address offset = a
  by_cases hpage : inCheatPage a 1 = true
  · refine ⟨d.world, rfl, rfl, .inl ?_⟩
    rw [if_pos hpage, CheatData.bytes, if_pos hpage, ← readBytes_one]
    rfl
  obtain ⟨valid, w, hvalid, hview, hmapped, hok⟩ := run_isValidAddress hlaw a (BitVec.ofNat 32 1) d
  rw [if_neg hpage, run_bind, hvalid]
  cases valid
  · refine ⟨w, hview, hmapped, .inr ⟨?_, rfl⟩⟩
    rintro (h | h)
    · exact hpage h
    · exact absurd (hok h rfl) Bool.false_ne_true
  simp only [if_true]
  obtain ⟨result, w', hread, hresult⟩ : ∃ result w', ((access fun w =>
    c.svcReadProcessMemory w a 1).run { d with world := w } :
      Option (Result × Memory) × CheatData W) = (some result, { d with world := w' }) ∧
      c.svcReadProcessMemory w a 1 = (result, w') := ⟨_, _, rfl, rfl⟩
  have hview' : view w' = view d.world := by
    have hlast := hlaw.read_view w a 1
    rw [hresult] at hlast
    exact hlast.trans hview
  have hmapped' : mapped w' = mapped d.world := by
    have hlast := hlaw.read_mapped w a 1
    rw [hresult] at hlast
    exact hlast.trans hmapped
  rw [run_bind, hread]
  simp only
  refine ⟨w', hview', hmapped', ?_⟩
  cases hres : rFailed result.1
  · left
    have hbytes := hlaw.read_bytes w a 1 (by rw [hresult]; exact hres) 0 Nat.one_pos
    rw [hresult, hview] at hbytes
    replace hbytes : result.2 0 = view d.world (a + 0#32) := hbytes
    rw [BitVec.add_zero] at hbytes
    rw [CheatData.bytes, if_neg hpage, ← hbytes, ← readBytes_one]
    rfl
  · right
    refine ⟨?_, rfl⟩
    rintro (h | h)
    · exact hpage h
    · have hok := hlaw.mapped_read w a (hmapped ▸ h)
      rw [hresult, hres] at hok
      cases hok

theorem run_cheatWrite8 (hlaw : ShowsMemory c view mapped) (offset value : BitVec 32)
    (d : CheatData W) :
    ∃ page w, (((cheatWrite8 c offset value).run d : Option Unit × CheatData W) =
          (some (), { d with cheatPage := page, world := w }) ∧
        CheatData.bytes view { d with cheatPage := page, world := w } =
          Function.update (d.bytes view) (d.address offset) (value.setWidth 8)) ∨
      (((cheatWrite8 c offset value).run d : Option Unit × CheatData W) =
          (none, { d with cheatPage := page, world := w }) ∧
        CheatData.bytes view { d with cheatPage := page, world := w } = d.bytes view) := by
  unfold cheatWrite8 cheatWrite
  rw [run_bind, run_activeOffset]
  simp only
  rw [show (if d.activeOffset = true then d.offset2 else d.offset1) + offset = d.address offset
    from rfl]
  generalize d.address offset = a
  by_cases hpage : inCheatPage a 1 = true
  · refine ⟨writeBytes d.cheatPage (a - cheatPageStart).toNat 1 value, d.world, .inl ⟨?_, ?_⟩⟩
    · rw [if_pos hpage]
      rfl
    · rw [writeBytes_one]
      exact bytes_update_page d hpage (value.setWidth 8)
  obtain ⟨valid, w, hvalid, hview, -, -⟩ := run_isValidAddress hlaw a (BitVec.ofNat 32 1) d
  rw [if_neg hpage, run_bind, hvalid]
  have hquiet : CheatData.bytes view { d with world := w } = d.bytes view := by
    funext x
    show (if _ then _ else view w x) = _
    rw [hview]
    rfl
  cases valid
  · exact ⟨d.cheatPage, w, .inr ⟨rfl, hquiet⟩⟩
  simp only [if_true]
  obtain ⟨res, w', hwrite, hresult⟩ : ∃ res w', ((access fun w =>
    c.svcWriteProcessMemory w a 1 (truncate 1 value)).run { d with world := w } :
      Option Result × CheatData W) = (some res, { d with world := w' }) ∧
      c.svcWriteProcessMemory w a 1 (truncate 1 value) = (res, w') := ⟨_, _, rfl, rfl⟩
  have hview' := hlaw.write_view w a 1 (truncate 1 value)
  rw [hresult, hview] at hview'
  rw [run_bind, hwrite]
  simp only
  refine ⟨d.cheatPage, w', ?_⟩
  cases hres : rFailed res
  · left
    refine ⟨rfl, ?_⟩
    rw [hres, if_neg Bool.false_ne_true, writeView_one] at hview'
    exact bytes_update_view d hpage hview'
  · right
    refine ⟨rfl, ?_⟩
    rw [hres, if_pos rfl] at hview'
    funext x
    show (if _ then _ else view w' x) = _
    rw [hview']
    rfl

/-! ### A flat memory -/

/-- All of memory is mapped; the world is its contents. -/
def flatConsole : Console (BitVec 32 → BitVec 8) :=
  { emptyConsole with
    svcQueryDebugProcessMemory := fun m _ => ((0, ⟨1, 0xFFFFFFFF, 1⟩), m)
    svcReadProcessMemory := fun m a _ => ((0, fun k => m (a + BitVec.ofNat 32 k)), m)
    svcWriteProcessMemory := fun m a n value => (0, writeView a n value m)
    hidPad := fun m => (0, m)
    hidTouchRead := fun m => ((0, 0), m) }

theorem showsMemory_flatConsole : ShowsMemory flatConsole id fun _ a => 1 ≤ a where
  query_view _ _ := rfl
  query_mapped _ _ := rfl
  read_view _ _ _ := rfl
  read_mapped _ _ _ := rfl
  read_bytes _ _ _ _ _ _ := rfl
  write_view _ _ _ _ := rfl
  mapped_valid _ a h := by
    have hlast : (1 + 0xFFFFFFFF - 1 : BitVec 32) = BitVec.allOnes 32 := by decide
    have hpos : (0 : BitVec 32) < 1 ∧ (1 : BitVec 32) ≠ 0 := by decide
    refine ⟨rfl, hpos.2, hpos.1, h, ?_⟩
    show a ≤ 1 + 0xFFFFFFFF - 1
    rw [hlast]
    exact BitVec.not_lt.mp BitVec.not_allOnes_lt
  mapped_read _ _ _ := rfl

/-- Memory holds ones below 0x11, and zeros from there on. -/
def flatState (offset1 offset2 : BitVec 32) : CheatState (BitVec 32 → BitVec 8) where
  index := 0
  typeE := ⟨0, 0⟩
  loopLine := -1
  loopCount := 0
  ifStack := 0
  storedStack := 0
  ifCount := 0
  storedIfCount := 0
  data := { emptyData 0 with
    offset1, offset2, world := fun a => if a < 0x11 then 1 else 0 }

end Presence3DS.Cheats
