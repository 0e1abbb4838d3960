import Mathlib.Algebra.BigOperators.Group.Finset.Basic
import Mathlib.Algebra.Order.Ring.Int
import Mathlib.Algebra.Order.Ring.Nat
import Mathlib.Data.List.DropRight
import Mathlib.Data.List.TakeWhile
import Mathlib.Order.Fin.Basic

/-! Machine words as sets of bits: their positions in ascending order, and what clearing the
lowest or the highest of them leaves. -/

namespace Masks
variable {w : ℕ} {v : BitVec w} {b : ℕ}

def positions (v : BitVec w) : List ℕ := (List.range w).filter (v.getLsbD ·)

theorem mem_positions : b ∈ positions v ↔ v.getLsbD b = true := by
  rw [positions, List.mem_filter, List.mem_range]
  exact ⟨And.right, fun h => ⟨BitVec.lt_of_getLsbD h, h⟩⟩

theorem positions_nodup (v : BitVec w) : (positions v).Nodup := List.nodup_range.filter _

theorem positions_zero : positions (0 : BitVec w) = [] := by
  apply List.filter_eq_nil_iff.mpr
  intro c _
  rw [BitVec.ofNat_eq_ofNat, BitVec.getLsbD_zero]
  exact Bool.false_ne_true

def below (v : BitVec w) (b : ℕ) : List ℕ := (List.range b).filter (v.getLsbD ·)

def above (v : BitVec w) (b : ℕ) : List ℕ :=
  ((List.range (w - b - 1)).map (b + 1 + ·)).filter (v.getLsbD ·)

theorem positions_split (v : BitVec w) (hb : b < w) :
    positions v = below v b ++ ([b].filter (v.getLsbD ·) ++ above v b) := by
  have hrange : List.range w = List.range b ++ ([b] ++ (List.range (w - b - 1)).map (b + 1 + ·)) := by
    have hsum : w = b + 1 + (w - b - 1) := by omega
    conv_lhs => rw [hsum, List.range_add, List.range_succ]
    rw [List.append_assoc]
  rw [positions, hrange, List.filter_append, List.filter_append]
  rfl

/-- The word without one of its bits. -/
def clear (v : BitVec w) (b : ℕ) : BitVec w := v &&& ~~~((1 : BitVec w) <<< b)

theorem getLsbD_clear (v : BitVec w) (b c : ℕ) :
    (clear v b).getLsbD c = (v.getLsbD c && decide (c ≠ b)) := by
  by_cases hc : c < w
  · have hone : ((1 : BitVec w) <<< b).getLsbD c = decide (c = b) := by
      rw [BitVec.getLsbD_shiftLeft, BitVec.ofNat_eq_ofNat, BitVec.getLsbD_one]
      by_cases hb : c = b
      · subst hb
        simp [hc, Nat.zero_lt_of_lt hc]
      · by_cases hlt : c < b
        · simp [hlt, hb]
        · have hne : c - b ≠ 0 := by omega
          simp [hb, hne]
    rw [clear, BitVec.getLsbD_and, BitVec.getLsbD_not, hone, decide_eq_true hc, Bool.true_and,
      decide_not]
  · rw [BitVec.getLsbD_of_ge _ _ (not_lt.mp hc), BitVec.getLsbD_of_ge _ _ (not_lt.mp hc)]
    rfl

theorem filter_clear {l : List ℕ} (hb : b ∉ l) :
    l.filter ((clear v b).getLsbD ·) = l.filter (v.getLsbD ·) := by
  apply List.filter_congr
  intro c hc
  have hne : c ≠ b := fun h => hb (h ▸ hc)
  rw [getLsbD_clear, decide_eq_true hne, Bool.and_true]

theorem positions_clear (v : BitVec w) (hb : b < w) :
    positions (clear v b) = below v b ++ above v b := by
  have hself : [b].filter ((clear v b).getLsbD ·) = [] := by
    apply List.filter_eq_nil_iff.mpr
    intro c hc
    rw [List.mem_singleton.mp hc, getLsbD_clear]
    simp
  have habove : b ∉ (List.range (w - b - 1)).map (b + 1 + ·) := by
    intro hmem
    obtain ⟨c, -, hc⟩ := List.mem_map.mp hmem
    omega
  rw [positions_split _ hb, hself, List.nil_append, below, above,
    filter_clear List.not_mem_range_self, filter_clear habove]
  rfl

/-- The position of the highest bit, and -1 for none. -/
def msb (v : BitVec w) : ℤ := (w : ℤ) - 1 - v.clz.toNat

/-- The position of the lowest bit, and -1 for none. -/
def lsb (v : BitVec w) : ℤ := if v = 0 then -1 else v.ctz.toNat

theorem msb_zero : msb (0 : BitVec w) = -1 := by
  have hclz : (0 : BitVec w).clz.toNat = w := by
    rw [BitVec.ofNat_eq_ofNat, BitVec.clz_eq_iff_eq_zero.mpr rfl, BitVec.natCast_eq_ofNat,
      BitVec.toNat_ofNat, Nat.mod_eq_of_lt Nat.lt_two_pow_self]
  rw [msb, hclz]
  omega

theorem lsb_zero : lsb (0 : BitVec w) = -1 := if_pos rfl

theorem positions_msb (h : v ≠ 0) :
    ∃ b : ℕ, msb v = b ∧ b < w ∧ positions v = positions (clear v b) ++ [b] := by
  have hclz : v.clz.toNat < w := by
    have hlt := BitVec.lt_def.mp (BitVec.clz_lt_iff_ne_zero.mpr h)
    rwa [BitVec.natCast_eq_ofNat, BitVec.toNat_ofNat, Nat.mod_eq_of_lt Nat.lt_two_pow_self] at hlt
  have hw : 0 < w := Nat.zero_lt_of_lt hclz
  have hbit := BitVec.getLsbD_true_clz_of_ne_zero hw h
  have hlt : w - 1 - v.clz.toNat < w := by omega
  refine ⟨w - 1 - v.clz.toNat, by rw [msb]; omega, hlt, ?_⟩
  have habove : above v (w - 1 - v.clz.toNat) = [] := by
    apply List.filter_eq_nil_iff.mpr
    intro c hc
    obtain ⟨d, -, rfl⟩ := List.mem_map.mp hc
    have hsmall : v.toNat < 2 ^ (w - 1 - v.clz.toNat + 1 + d) := by
      refine lt_of_lt_of_le BitVec.toNat_lt_two_pow_sub_clz (Nat.pow_le_pow_right Nat.two_pos ?_)
      omega
    rw [← BitVec.testBit_toNat, Nat.testBit_lt_two_pow hsmall]
    exact Bool.false_ne_true
  rw [positions_clear v hlt, positions_split v hlt, habove, List.append_nil, List.append_nil,
    List.filter_cons_of_pos hbit]
  rfl

theorem positions_lsb (h : v ≠ 0) :
    ∃ b : ℕ, lsb v = b ∧ b < w ∧ positions v = b :: positions (clear v b) := by
  have hbit := BitVec.getLsbD_true_ctz_of_ne_zero h
  have hlt := BitVec.lt_of_getLsbD hbit
  refine ⟨v.ctz.toNat, if_neg h, hlt, ?_⟩
  have hbelow : below v v.ctz.toNat = [] := by
    apply List.filter_eq_nil_iff.mpr
    intro c hc
    rw [BitVec.getLsbD_false_of_lt_ctz (List.mem_range.mp hc)]
    exact Bool.false_ne_true
  rw [positions_clear v hlt, positions_split v hlt, hbelow, List.nil_append, List.nil_append,
    List.filter_cons_of_pos hbit]
  rfl

/-- Two words split a third between them. -/
theorem length_positions_diff {u v : BitVec w}
    (hsub : ∀ b, u.getLsbD b = true → v.getLsbD b = true) :
    (positions v).length = (positions u).length + (positions (~~~u &&& v)).length := by
  have hin : (positions v).filter (u.getLsbD ·) = positions u := by
    rw [positions, List.filter_filter]
    apply List.filter_congr
    intro c _
    cases hu : u.getLsbD c with
    | false => rfl
    | true => rw [hsub c hu, Bool.true_and]
  have hout : (positions v).filter (fun c => !u.getLsbD c) = positions (~~~u &&& v) := by
    rw [positions, List.filter_filter]
    apply List.filter_congr
    intro c hc
    rw [BitVec.getLsbD_and, BitVec.getLsbD_not, decide_eq_true (List.mem_range.mp hc),
      Bool.true_and]
  rw [List.length_eq_length_filter_add (u.getLsbD ·), hin, hout]

/-! ## Words that share out the first positions -/

section Owners
variable {ω : Type*} {mask : ω → BitVec w} {n : ℕ}

/-- Each of the first `n` positions belongs to one of the words, and to no other. -/
structure Shared (n : ℕ) (mask : ω → BitVec w) : Prop where
  owner : ∀ b < n, ∃! o, (mask o).getLsbD b = true
  bound : ∀ o b, (mask o).getLsbD b = true → b < n

theorem Shared.unique (h : Shared n mask) {o o' : ω} (ho : (mask o).getLsbD b = true)
    (ho' : (mask o').getLsbD b = true) : o = o' :=
  (h.owner b (h.bound o b ho)).unique ho ho'

/-- Some positions of one word go over to another. -/
theorem Shared.move [DecidableEq ω] (h : Shared n mask) (src dst : ω) (hne : src ≠ dst)
    (x : BitVec w) (hx : ∀ b, x.getLsbD b = true → (mask src).getLsbD b = true) :
    Shared n (Function.update (Function.update mask src (mask src &&& ~~~x)) dst
      (mask dst ||| x)) := by
  have hkey : ∀ o b, (Function.update (Function.update mask src (mask src &&& ~~~x)) dst
      (mask dst ||| x) o).getLsbD b = true ↔
        if x.getLsbD b = true then o = dst else (mask o).getLsbD b = true := by
    intro o b
    by_cases hdst : o = dst
    · subst hdst
      rw [Function.update_self, BitVec.getLsbD_or, Bool.or_eq_true]
      split_ifs with hb
      · exact iff_of_true (.inr hb) rfl
      · exact or_iff_left hb
    · rw [Function.update_of_ne hdst]
      by_cases hsrc : o = src
      · subst hsrc
        rw [Function.update_self, BitVec.getLsbD_and, BitVec.getLsbD_not]
        split_ifs with hb
        · simp [hb, hdst]
        · rw [Bool.not_eq_true] at hb
          have hw : (mask o).getLsbD b = true → b < w := BitVec.lt_of_getLsbD
          simp only [hb, Bool.not_false, Bool.and_true, Bool.and_eq_true, decide_eq_true_eq]
          exact ⟨And.left, fun hmask => ⟨hmask, hw hmask⟩⟩
      · rw [Function.update_of_ne hsrc]
        split_ifs with hb
        · exact iff_of_false (fun hmask => hsrc (h.unique hmask (hx b hb))) hdst
        · exact Iff.rfl
  constructor
  · intro b hb
    by_cases hxb : x.getLsbD b = true
    · refine ⟨dst, (hkey dst b).mpr (by rw [if_pos hxb]), ?_⟩
      intro o ho
      simpa only [if_pos hxb] using (hkey o b).mp ho
    · obtain ⟨o, ho, honly⟩ := h.owner b hb
      refine ⟨o, (hkey o b).mpr (by rwa [if_neg hxb]), ?_⟩
      intro o' ho'
      exact honly o' (by simpa only [if_neg hxb] using (hkey o' b).mp ho')
  · intro o b ho
    have hmask := (hkey o b).mp ho
    split_ifs at hmask with hxb
    · exact h.bound src b (hx b hxb)
    · exact h.bound o b hmask

/-- The words have `n` positions between them. -/
theorem Shared.sum_length [Fintype ω] [DecidableEq ω] (h : Shared n mask) :
    ∑ o, (positions (mask o)).length = n := by
  have hcard : ∀ o, (positions (mask o)).toFinset.card = (positions (mask o)).length :=
    fun o => List.toFinset_card_of_nodup (positions_nodup _)
  have hdisjoint : ((Finset.univ : Finset ω) : Set ω).PairwiseDisjoint
      fun o => (positions (mask o)).toFinset := by
    intro o _ o' _ hne
    apply Finset.disjoint_left.mpr
    intro b hb hb'
    rw [List.mem_toFinset, mem_positions] at hb hb'
    exact hne (h.unique hb hb')
  have hunion : Finset.univ.biUnion (fun o => (positions (mask o)).toFinset) = Finset.range n := by
    ext b
    rw [Finset.mem_biUnion, Finset.mem_range]
    constructor
    · rintro ⟨o, -, hb⟩
      rw [List.mem_toFinset, mem_positions] at hb
      exact h.bound o b hb
    · intro hb
      obtain ⟨o, ho, -⟩ := h.owner b hb
      exact ⟨o, Finset.mem_univ o, List.mem_toFinset.mpr (mem_positions.mpr ho)⟩
  calc ∑ o, (positions (mask o)).length
      = ∑ o, (positions (mask o)).toFinset.card := Finset.sum_congr rfl fun o _ => (hcard o).symm
    _ = (Finset.range n).card := by rw [← hunion, Finset.card_biUnion hdisjoint]
    _ = n := Finset.card_range n

end Owners

end Masks
