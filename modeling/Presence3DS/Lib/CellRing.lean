import Mathlib.Algebra.Order.Ring.Int
import Mathlib.Algebra.Order.Ring.Nat
import Mathlib.Data.List.Rotate
import Mathlib.Data.List.TakeWhile
import Mathlib.Data.Nat.ModEq
import Mathlib.Order.Fin.Basic

/-! A queue in a ring of cells, with the index of its first entry, that of its next free cell, and
the number of entries. -/

structure CellRing (α : Type*) where
  cell : ℕ → α
  first : ℕ
  next : ℕ
  count : ℕ

namespace CellRing
variable {α : Type*} {r : CellRing α} {cap : ℕ}

/-- The entries, in the order in which they were put. -/
def contents (cap : ℕ) (r : CellRing α) : List α :=
  (List.range r.count).map fun i => r.cell ((r.first + i) % cap)

def push (cap : ℕ) (r : CellRing α) (a : α) : CellRing α :=
  ⟨Function.update r.cell r.next a, r.first, (r.next + 1) % cap, r.count + 1⟩

def pop (cap : ℕ) (r : CellRing α) : CellRing α :=
  { r with first := (r.first + 1) % cap, count := r.count - 1 }

/-- The indices and the count agree. -/
structure Well (cap : ℕ) (r : CellRing α) : Prop where
  first : r.first < cap
  next : r.next = (r.first + r.count) % cap
  count : r.count ≤ cap

theorem Well.push (h : r.Well cap) (hroom : r.count < cap) (a : α) : (r.push cap a).Well cap where
  first := h.first
  next := by
    show (r.next + 1) % cap = (r.first + (r.count + 1)) % cap
    rw [h.next, Nat.mod_add_mod, Nat.add_assoc]
  count := hroom

theorem Well.pop (h : r.Well cap) (hcount : r.count ≠ 0) : (r.pop cap).Well cap where
  first := Nat.mod_lt _ (Nat.zero_lt_of_lt h.first)
  next := by
    show r.next = ((r.first + 1) % cap + (r.count - 1)) % cap
    rw [h.next, Nat.mod_add_mod, Nat.add_assoc, Nat.add_sub_of_le (Nat.pos_of_ne_zero hcount)]
  count := (Nat.sub_le _ _).trans h.count

theorem length_contents : (r.contents cap).length = r.count := by
  rw [contents, List.length_map, List.length_range]

/-- The next free cell is that of no entry. -/
theorem Well.cell_ne (h : r.Well cap) (hroom : r.count < cap) {i : ℕ} (hi : i < r.count) :
    (r.first + i) % cap ≠ r.next := by
  rw [h.next]
  intro heq
  have hmod : i ≡ r.count [MOD cap] := Nat.ModEq.add_left_cancel' r.first heq
  exact absurd (hmod.eq_of_lt_of_lt (hi.trans hroom) hroom) (Nat.ne_of_lt hi)

theorem Well.contents_push (h : r.Well cap) (hroom : r.count < cap) (a : α) :
    (r.push cap a).contents cap = r.contents cap ++ [a] := by
  have hlast : Function.update r.cell r.next a ((r.first + r.count) % cap) = a := by
    rw [← h.next, Function.update_self]
  show (List.range (r.count + 1)).map
    (fun i => Function.update r.cell r.next a ((r.first + i) % cap)) = _
  rw [List.range_succ, List.map_append, List.map_singleton, hlast]
  congr 1
  apply List.map_congr_left
  intro i hi
  exact Function.update_of_ne (h.cell_ne hroom (List.mem_range.mp hi)) _ _

theorem Well.contents_pop (h : r.Well cap) (hcount : r.count ≠ 0) :
    r.contents cap = r.cell r.first :: (r.pop cap).contents cap := by
  obtain ⟨n, hn⟩ := Nat.exists_eq_succ_of_ne_zero hcount
  have hpop : (r.pop cap).count = n := by
    show r.count - 1 = n
    rw [hn]
    rfl
  rw [contents, contents, hn, hpop, List.range_succ_eq_map, List.map_cons, List.map_map,
    Nat.add_zero, Nat.mod_eq_of_lt h.first]
  congr 1
  apply List.map_congr_left
  intro i _
  show r.cell ((r.first + (i + 1)) % cap) = r.cell (((r.first + 1) % cap + i) % cap)
  rw [Nat.mod_add_mod, Nat.add_assoc, Nat.add_comm 1 i]

theorem mem_contents [DecidableEq α] {a : α} : a ∈ r.contents cap ↔
    ((List.range r.count).any fun i => r.cell ((r.first + i) % cap) = a) = true := by
  rw [contents, List.mem_map, List.any_eq_true]
  simp only [decide_eq_true_eq]

/-- In cells that are those of a list, the entries lie behind one another but for one turn. -/
theorem contents_eq_take_rotate {b : List α} {d : α} {first next count : ℕ}
    (hcount : count ≤ b.length) :
    (CellRing.mk (fun i => b.getD i d) first next count).contents b.length =
      (b.rotate first).take count := by
  apply List.ext_getElem?
  intro i
  show ((List.range count).map fun i => b.getD ((first + i) % b.length) d)[i]? = _
  rw [List.getElem?_map, List.getElem?_take]
  split_ifs with hi
  · have hlt : i < b.length := by omega
    have hmod : (i + first) % b.length < b.length := Nat.mod_lt _ (by omega)
    rw [List.getElem?_range hi, List.getElem?_rotate hlt, Option.map_some,
      List.getD_eq_getElem?_getD, Nat.add_comm first, List.getElem?_eq_getElem hmod,
      Option.getD_some]
  · rw [List.getElem?_eq_none (by rw [List.length_range]; omega), Option.map_none]

end CellRing
