import Presence3DS.Lib.RawMemory

/-! Code that is written over a memory, with what was there before: taking one piece off again while
others, written before or after it, stay. -/

namespace RawMemory

variable {m orig : Memory} {a b n : ℕ} {bs cs : List UInt8}

theorem write_read (m : Memory) (a n : ℕ) : write m a (read m a n) = m := by
  funext x
  by_cases h : a ≤ x ∧ x < a + n
  · obtain ⟨i, rfl⟩ := Nat.exists_eq_add_of_le h.1
    have hi : i < (read m a n).length := by
      rw [length_read]
      omega
    rw [write_inside hi]
    simp [read]
  · apply write_outside
    rw [length_read]
    omega

/-- Writes to places that do not overlap can be exchanged. -/
theorem write_comm (h : a + bs.length ≤ b ∨ b + cs.length ≤ a) :
    write (write m a bs) b cs = write (write m b cs) a bs := by
  funext x
  by_cases ha : a ≤ x ∧ x < a + bs.length
  · obtain ⟨i, rfl⟩ := Nat.exists_eq_add_of_le ha.1
    have hi : i < bs.length := by omega
    rw [write_outside (by omega), write_inside hi, write_inside hi]
  · rw [write_outside (a := a) (by omega)]
    by_cases hb : b ≤ x ∧ x < b + cs.length
    · obtain ⟨i, rfl⟩ := Nat.exists_eq_add_of_le hb.1
      have hi : i < cs.length := by omega
      rw [write_inside hi, write_inside hi]
    · rw [write_outside (by omega), write_outside (by omega), write_outside (by omega)]

structure Overlay where
  address : ℕ
  code : List UInt8
  saved : List UInt8

namespace Overlay
variable {p q : Overlay} {ps newer older : List Overlay}

def Covers (p : Overlay) (x : ℕ) : Prop := p.address ≤ x ∧ x < p.address + p.code.length

def Disjoint (p q : Overlay) : Prop :=
  p.address + p.code.length ≤ q.address ∨ q.address + q.code.length ≤ p.address

/-- The memory with the pieces written over it, the last one first in the list. -/
def applied (orig : Memory) : List Overlay → Memory
  | [] => orig
  | p :: ps => write (applied orig ps) p.address p.code

/-- Each piece was saved from what was there when it was written. -/
def Kept (orig : Memory) : List Overlay → Prop
  | [] => True
  | p :: ps => p.saved = read (applied orig ps) p.address p.code.length ∧ Kept orig ps

/-- The bytes that no piece covers are the original ones. -/
theorem applied_apply {x : ℕ} (h : ∀ p ∈ ps, ¬ p.Covers x) : applied orig ps x = orig x := by
  induction ps with
  | nil => rfl
  | cons p ps ih =>
    have hp : x < p.address ∨ p.address + p.code.length ≤ x := by
      have hnot := h p List.mem_cons_self
      rw [Covers] at hnot
      omega
    rw [applied, write_outside hp, ih fun q hq => h q (List.mem_cons_of_mem p hq)]

theorem Kept.length_saved (h : Kept orig ps) (hp : p ∈ ps) : p.saved.length = p.code.length := by
  induction ps with
  | nil => exact absurd hp List.not_mem_nil
  | cons q ps ih =>
    rcases List.mem_cons.mp hp with rfl | hp
    · rw [h.1, length_read]
    · exact ih h.2 hp

/-- A piece that no newer one overlaps can be taken off: the others stay as they are. -/
theorem Kept.remove (h : Kept orig (newer ++ p :: older)) (hdisjoint : ∀ q ∈ newer, q.Disjoint p) :
    write (applied orig (newer ++ p :: older)) p.address p.saved = applied orig (newer ++ older) ∧
      Kept orig (newer ++ older) := by
  induction newer with
  | nil =>
    have hlength := h.length_saved List.mem_cons_self
    refine ⟨?_, h.2⟩
    show write (write (applied orig older) p.address p.code) p.address p.saved = applied orig older
    rw [write_write hlength.symm, h.1, write_read]
  | cons q newer ih =>
    obtain ⟨heq, hkept⟩ := ih h.2 fun q' hq' => hdisjoint q' (List.mem_cons_of_mem q hq')
    have hq := hdisjoint q List.mem_cons_self
    have hsaved : p.saved.length = p.code.length :=
      h.length_saved (List.mem_append_right _ List.mem_cons_self)
    constructor
    · show write (write (applied orig (newer ++ p :: older)) q.address q.code) p.address p.saved =
        write (applied orig (newer ++ older)) q.address q.code
      rw [← heq]
      apply write_comm
      rw [hsaved]
      exact hq
    · refine ⟨?_, hkept⟩
      show q.saved = read (applied orig (newer ++ older)) q.address q.code.length
      rw [← heq, read_write_of_disjoint]
      · exact h.1
      · rw [hsaved]
        exact hq
end Overlay

end RawMemory
