import Mathlib.Algebra.Order.Ring.Int
import Mathlib.Algebra.Order.Ring.Nat
import Mathlib.Data.List.GetD
import Mathlib.Data.List.TakeWhile
import Mathlib.Data.Set.Function
import Mathlib.Order.Fin.Basic

/-! Words written over a memory of bytes, and the memory restored by writing back what it held. -/

namespace Patches

abbrev Memory := ℕ → BitVec 8

/-- Little endian. -/
def wordByte (w : BitVec 32) (k : ℕ) : BitVec 8 := (w >>> (8 * k)).setWidth 8

def wordsByte (ws : List (BitVec 32)) (k : ℕ) : BitVec 8 := wordByte (ws.getD (k / 4) 0) (k % 4)

def writeWords (m : Memory) (off : ℕ) (ws : List (BitVec 32)) : Memory :=
  fun a => if off ≤ a ∧ a < off + 4 * ws.length then wordsByte ws (a - off) else m a

def readWord (m : Memory) (off : ℕ) : BitVec 32 :=
  m (off + 3) ++ m (off + 2) ++ m (off + 1) ++ m off

def holds (m : Memory) (off : ℕ) (ws : List (BitVec 32)) : Bool :=
  (List.range (4 * ws.length)).all fun k => m (off + k) == wordsByte ws k

/-- The first place from `start` on that holds the words and lies within `size` bytes. -/
def memsearch (m : Memory) (start size : ℕ) (ws : List (BitVec 32)) : Option ℕ :=
  ((List.range (size + 1 - 4 * ws.length)).find? fun j => holds m (start + j) ws).map (start + ·)

/-- The addresses of `n` words. -/
def span (off n : ℕ) : Set ℕ := {a | off ≤ a ∧ a < off + 4 * n}

variable {m m' : Memory} {off n : ℕ} {w : BitVec 32} {ws : List (BitVec 32)} {R : Set ℕ}

theorem holds_iff : holds m off ws = true ↔ ∀ k, k < 4 * ws.length → m (off + k) = wordsByte ws k := by
  rw [holds, List.all_eq_true]
  simp only [List.mem_range, beq_iff_eq]

theorem holds_of_memsearch {start size : ℕ} (h : memsearch m start size ws = some off) :
    holds m off ws = true := by
  obtain ⟨j, hj, rfl⟩ := Option.map_eq_some_iff.mp h
  exact List.find?_some (p := fun j => holds m (start + j) ws) hj

/-! ## Writing and writing back -/

theorem writeWords_outside {a : ℕ} (ha : a ∉ span off ws.length) : writeWords m off ws a = m a :=
  if_neg ha

theorem span_mono {n' : ℕ} (h : n ≤ n') : span off n ⊆ span off n' :=
  fun a ha => ⟨ha.1, ha.2.trans_le (by omega)⟩

/-- A write into `R` changes nothing outside of it. -/
theorem eqOn_writeWords (h : Set.EqOn m' m Rᶜ) (hsub : span off ws.length ⊆ R) :
    Set.EqOn (writeWords m' off ws) m Rᶜ :=
  fun _ ha => (writeWords_outside fun hspan => ha (hsub hspan)).trans (h ha)

/-- Writing back what the memory held restores it there. -/
theorem eqOn_restored (h : Set.EqOn m' m (span off ws.length ∪ R)ᶜ) (hm : holds m off ws = true) :
    Set.EqOn (writeWords m' off ws) m Rᶜ := by
  intro a ha
  by_cases hspan : a ∈ span off ws.length
  · obtain ⟨hle, hlt⟩ : off ≤ a ∧ a < off + 4 * ws.length := hspan
    have hheld := holds_iff.mp hm (a - off) (by omega)
    rw [Nat.add_sub_cancel' hle] at hheld
    exact (if_pos ⟨hle, hlt⟩).trans hheld.symm
  · rw [writeWords_outside hspan]
    exact h (not_or.mpr ⟨hspan, ha⟩)

theorem eq_of_eqOn_empty (h : Set.EqOn m' m (∅ : Set ℕ)ᶜ) : m' = m := by
  rw [Set.compl_empty] at h
  exact funext fun a => h (Set.mem_univ a)

/-! ## Reading a word -/

theorem wordByte_append (b₀ b₁ b₂ b₃ : BitVec 8) {k : ℕ} (hk : k < 4) :
    wordByte (b₃ ++ b₂ ++ b₁ ++ b₀) k =
      if k = 0 then b₀ else if k = 1 then b₁ else if k = 2 then b₂ else b₃ := by
  apply BitVec.eq_of_getLsbD_eq
  intro i hi
  rw [wordByte, BitVec.getLsbD_setWidth, BitVec.getLsbD_ushiftRight, decide_eq_true hi,
    Bool.true_and]
  simp only [BitVec.getLsbD_append]
  split_ifs <;> first
    | omega
    | exact congrArg _ (by omega)

theorem wordByte_inj {w w' : BitVec 32} (h : ∀ k, k < 4 → wordByte w k = wordByte w' k) :
    w = w' := by
  apply BitVec.eq_of_getLsbD_eq
  intro i hi
  have hbyte := congrArg (fun b => b.getLsbD (i % 8)) (h (i / 8) (by omega))
  simp only [wordByte, BitVec.getLsbD_setWidth, BitVec.getLsbD_ushiftRight,
    decide_eq_true (Nat.mod_lt i (by decide : 0 < 8)), Bool.true_and, Nat.div_add_mod] at hbyte
  exact hbyte

theorem wordByte_readWord {k : ℕ} (hk : k < 4) : wordByte (readWord m off) k = m (off + k) := by
  rw [readWord, wordByte_append _ _ _ _ hk]
  obtain rfl | rfl | rfl | rfl : k = 0 ∨ k = 1 ∨ k = 2 ∨ k = 3 := by omega
  all_goals rfl

theorem wordsByte_cons {k : ℕ} (hk : k < 4) : wordsByte (w :: ws) k = wordByte w k := by
  rw [wordsByte, Nat.div_eq_of_lt hk, Nat.mod_eq_of_lt hk]
  rfl

theorem readWord_of_holds (h : holds m off (w :: ws) = true) : readWord m off = w := by
  apply wordByte_inj
  intro k hk
  have hlen : 4 * (w :: ws).length = 4 * ws.length + 4 := by
    rw [List.length_cons]
    omega
  rw [wordByte_readWord hk, holds_iff.mp h k (by omega), wordsByte_cons hk]

theorem holds_tail (h : holds m off (w :: ws) = true) : holds m (off + 4) ws = true := by
  apply holds_iff.mpr
  intro k hk
  have hword := holds_iff.mp h (4 + k) (by
    rw [List.length_cons]
    omega)
  rw [wordsByte, Nat.add_div_left _ (by decide), Nat.add_mod_left] at hword
  rw [Nat.add_assoc, hword]
  rfl

theorem holds_readWord (m : Memory) (off : ℕ) : holds m off [readWord m off] = true := by
  apply holds_iff.mpr
  intro k hk
  rw [wordsByte_cons hk, wordByte_readWord hk]

theorem holds_writeWords (m : Memory) (off : ℕ) (ws : List (BitVec 32)) :
    holds (writeWords m off ws) off ws = true := by
  apply holds_iff.mpr
  intro k hk
  rw [writeWords, if_pos ⟨Nat.le_add_right _ _, by omega⟩, Nat.add_sub_cancel_left]

theorem readWord_congr (h : Set.EqOn m' m (span off 1)) : readWord m' off = readWord m off := by
  rw [readWord, readWord, h ⟨by omega, by omega⟩, h ⟨by omega, by omega⟩, h ⟨by omega, by omega⟩,
    h ⟨by omega, by omega⟩]

/-- The words found, and the word that follows them. -/
theorem holds_concat (h : holds m off ws = true) :
    holds m off (ws ++ [readWord m (off + 4 * ws.length)]) = true := by
  apply holds_iff.mpr
  intro k hk
  rw [List.length_append, List.length_singleton] at hk
  by_cases hlt : k < 4 * ws.length
  · rw [holds_iff.mp h k hlt, wordsByte, wordsByte, List.getD_append _ _ _ _ (by omega)]
  · have hlast := holds_iff.mp (holds_readWord m (off + 4 * ws.length)) (k - 4 * ws.length) (by
      rw [List.length_singleton]
      omega)
    rw [Nat.add_assoc, Nat.add_sub_cancel' (not_lt.mp hlt)] at hlast
    have hdiv : (k - 4 * ws.length) / 4 = k / 4 - ws.length := by omega
    have hmod : (k - 4 * ws.length) % 4 = k % 4 := by omega
    rw [hlast, wordsByte, wordsByte, List.getD_append_right _ _ _ _ (by omega), hdiv, hmod]

end Patches
