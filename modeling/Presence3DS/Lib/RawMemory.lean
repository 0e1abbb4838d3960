import Mathlib.Algebra.Order.Ring.Int
import Mathlib.Algebra.Order.Ring.Nat
import Mathlib.Data.List.TakeWhile
import Mathlib.Order.Fin.Basic

/-! Memory as a function from addresses to bytes: what a write leaves of it, and numbers stored in
it in little endian. -/

namespace RawMemory

abbrev Memory := ℕ → UInt8

def write (m : Memory) (a : ℕ) (bs : List UInt8) : Memory := fun x =>
  if a ≤ x then (bs[x - a]?).getD (m x) else m x

def read (m : Memory) (a n : ℕ) : List UInt8 := (List.range n).map fun i => m (a + i)

/-- The last `n` bytes of a number, the lowest first. -/
def leBytes : ℕ → ℕ → List UInt8
  | 0, _ => []
  | n + 1, v => UInt8.ofNat v :: leBytes n (v / 256)

def leValue : List UInt8 → ℕ
  | [] => 0
  | b :: bs => b.toNat + 256 * leValue bs

variable {m : Memory} {a b n v : ℕ} {bs : List UInt8}

/-! ## Reading what was written -/

theorem write_outside {x : ℕ} (h : x < a ∨ a + bs.length ≤ x) : write m a bs x = m x := by
  unfold write
  split_ifs with hle
  · rw [List.getElem?_eq_none (by omega), Option.getD_none]
  · rfl

theorem write_inside {i : ℕ} (h : i < bs.length) : write m a bs (a + i) = bs[i] := by
  rw [write, if_pos (Nat.le_add_right a i), Nat.add_sub_cancel_left, List.getElem?_eq_getElem h,
    Option.getD_some]

@[simp] theorem length_read (m : Memory) (a n : ℕ) : (read m a n).length = n := by
  rw [read, List.length_map, List.length_range]

theorem getElem_read {i : ℕ} (h : i < (read m a n).length) : (read m a n)[i] = m (a + i) := by
  simp only [read, List.getElem_map, List.getElem_range]

theorem take_drop_read {k len : ℕ} (h : k + n ≤ len) :
    ((read m a len).drop k).take n = read m (a + k) n := by
  apply List.ext_getElem
  · rw [List.length_take, List.length_drop, length_read, length_read]
    omega
  · intro i _ _
    rw [List.getElem_take, List.getElem_drop, getElem_read, getElem_read, Nat.add_assoc]

theorem read_add (m : Memory) (a k n : ℕ) :
    read m a (k + n) = read m a k ++ read m (a + k) n := by
  apply List.ext_getElem
  · rw [List.length_append, length_read, length_read, length_read]
  · intro i _ _
    rw [getElem_read]
    rcases Nat.lt_or_ge i k with hi | hi
    · rw [List.getElem_append_left (by rwa [length_read]), getElem_read]
    · rw [List.getElem_append_right (by rwa [length_read]), getElem_read, length_read,
        Nat.add_assoc, Nat.add_sub_cancel' hi]

theorem read_congr {m' : Memory} (h : ∀ i < n, m' (a + i) = m (a + i)) :
    read m' a n = read m a n :=
  List.map_congr_left fun i hi => h i (List.mem_range.mp hi)

theorem read_write (m : Memory) (a : ℕ) (bs : List UInt8) :
    read (write m a bs) a bs.length = bs := by
  apply List.ext_getElem
  · exact length_read _ _ _
  · intro i _ hi
    simp only [read, List.getElem_map, List.getElem_range, write_inside hi]

theorem read_write_part {k : ℕ} (h : k + n ≤ bs.length) :
    read (write m a bs) (a + k) n = (bs.drop k).take n := by
  apply List.ext_getElem
  · rw [length_read, List.length_take, List.length_drop]
    omega
  · intro i hi _
    rw [length_read] at hi
    simp only [read, List.getElem_map, List.getElem_range, List.getElem_take, List.getElem_drop]
    rw [Nat.add_assoc, write_inside (show k + i < bs.length by omega)]

/-- A write changes nothing of the memory in front of it and behind it. -/
theorem read_write_of_disjoint (h : b + n ≤ a ∨ a + bs.length ≤ b) :
    read (write m a bs) b n = read m b n := by
  apply read_congr
  intro i hi
  apply write_outside
  omega

theorem write_write {bs' : List UInt8} (h : bs.length = bs'.length) :
    write (write m a bs) a bs' = write m a bs' := by
  funext x
  by_cases hx : a ≤ x ∧ x < a + bs'.length
  · obtain ⟨i, rfl⟩ := Nat.exists_eq_add_of_le hx.1
    rw [write_inside (by omega), write_inside (by omega)]
  · rw [write_outside (by omega), write_outside (by omega), write_outside (by omega)]

/-- Parts are copied to where they belong. What belongs to a place is there, if it has been there
before or if a part has it. -/
theorem foldl_write_read {α : Type*} {dest source width : α → ℕ} {src f : Memory} {l : List α}
    (hf : ∀ a ∈ l, ∀ j < width a, src (source a + j) = f (dest a + j)) {dst : Memory} {x : ℕ}
    (h : dst x = f x ∨ ∃ a ∈ l, dest a ≤ x ∧ x < dest a + width a) :
    l.foldl (fun m a => write m (dest a) (read src (source a) (width a))) dst x = f x := by
  induction l generalizing dst with
  | nil => exact h.resolve_right fun ⟨_, ha, _⟩ => List.not_mem_nil ha
  | cons a l ih =>
    refine ih (fun b hb => hf b (List.mem_cons_of_mem a hb)) ?_
    by_cases hx : dest a ≤ x ∧ x < dest a + width a
    · have hj : x - dest a < width a := by omega
      have hinside : write dst (dest a) (read src (source a) (width a)) (dest a + (x - dest a)) =
          f (dest a + (x - dest a)) := by
        rw [write_inside (by rwa [length_read]), getElem_read]
        exact hf a List.mem_cons_self _ hj
      rw [Nat.add_sub_cancel' hx.1] at hinside
      exact .inl hinside
    · refine h.imp (fun hdst => ?_) fun ⟨b, hb, hxb⟩ => ?_
      · show write dst (dest a) _ x = f x
        rw [write_outside (by rw [length_read]; omega)]
        exact hdst
      · rcases List.mem_cons.mp hb with rfl | hb
        · exact absurd hxb hx
        · exact ⟨b, hb, hxb⟩

/-! ## Changes within a range -/

/-- The memories differ from `a` to `b` at most. -/
def EqOutside (m' m : Memory) (a b : ℕ) : Prop := ∀ x, x < a ∨ b ≤ x → m' x = m x

theorem EqOutside.trans {m' m'' : Memory} (h : EqOutside m'' m' a b) (h' : EqOutside m' m a b) :
    EqOutside m'' m a b := fun x hx => (h x hx).trans (h' x hx)

theorem eqOutside_write (ha : a ≤ n) (hb : n + bs.length ≤ b) : EqOutside (write m n bs) m a b :=
  fun _ hx => write_outside (by omega)

theorem EqOutside.read {m' : Memory} {c : ℕ} (h : EqOutside m' m a b) (hc : c + n ≤ a ∨ b ≤ c) :
    read m' c n = read m c n :=
  read_congr fun i hi => h (c + i) (by omega)

/-! ## Numbers -/

@[simp] theorem length_leBytes (n v : ℕ) : (leBytes n v).length = n := by
  induction n generalizing v with
  | zero => rfl
  | succ n ih => rw [leBytes, List.length_cons, ih]

theorem leValue_lt (bs : List UInt8) : leValue bs < 256 ^ bs.length := by
  induction bs with
  | nil => exact Nat.one_pos
  | cons b bs ih =>
    have hb := b.toNat_lt
    rw [leValue, List.length_cons, Nat.pow_succ]
    omega

theorem leValue_leBytes (n v : ℕ) : leValue (leBytes n v) = v % 256 ^ n := by
  induction n generalizing v with
  | zero => simp [leBytes, leValue, Nat.mod_one]
  | succ n ih =>
    rw [leBytes, leValue, ih, UInt8.toNat_ofNat']
    show v % 256 + 256 * (v / 256 % 256 ^ n) = v % 256 ^ (n + 1)
    rw [Nat.pow_succ', Nat.mod_mul]

theorem read_leBytes (m : Memory) (a n v : ℕ) : leValue (read (write m a (leBytes n v)) a n) =
    v % 256 ^ n := by
  have hread := read_write m a (leBytes n v)
  rw [length_leBytes] at hread
  rw [hread, leValue_leBytes]

end RawMemory
