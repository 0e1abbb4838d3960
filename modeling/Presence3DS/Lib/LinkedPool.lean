import Mathlib.Algebra.Order.Ring.Int
import Mathlib.Algebra.Order.Ring.Nat
import Mathlib.Data.List.Nodup
import Mathlib.Data.List.Perm.Basic
import Mathlib.Data.List.TakeWhile
import Mathlib.Logic.Function.Basic
import Mathlib.Order.Fin.Basic

/-! The nodes of a pool: the free ones are linked to each other, from a head on and up to an end,
and the others are live. -/

namespace LinkedPool

variable {α : Type*}

/-- The links lead from a pointer through the nodes, in order, to the end. -/
def Chain (next : α → Option α) (last : Option α) : Option α → List α → Prop
  | p, [] => p = last
  | p, a :: as => p = some a ∧ Chain next last (next a) as

variable {next : α → Option α} {last head : Option α} {a : α} {as nodes free live : List α}

/-- The link of a node that is not in the chain may change. -/
theorem Chain.update [DecidableEq α] (h : Chain next last head as) (ha : a ∉ as) (v : Option α) :
    Chain (Function.update next a v) last head as := by
  induction as generalizing head with
  | nil => exact h
  | cons b as ih =>
    obtain ⟨hne, ha⟩ := List.ne_and_not_mem_of_not_mem_cons ha
    refine ⟨h.1, ?_⟩
    rw [Function.update_of_ne (Ne.symm hne)]
    exact ih h.2 ha

/-- Every node is either in the chain or live. -/
structure Pool (next : α → Option α) (last head : Option α) (nodes free live : List α) :
    Prop where
  chain : Chain next last head free
  perm : (free ++ live).Perm nodes

theorem Pool.start (h : Chain next last head nodes) : Pool next last head nodes nodes [] :=
  ⟨h, by rw [List.append_nil]⟩

theorem Pool.update [DecidableEq α] (h : Pool next last head nodes free live) (ha : a ∉ free)
    (v : Option α) :
    Pool (Function.update next a v) last head nodes free live :=
  ⟨h.chain.update ha v, h.perm⟩

/-- A head that is not the end is the first free node, and its link is the next head. -/
theorem Pool.pop (h : Pool next last (some a) nodes free live) (ha : some a ≠ last) :
    ∃ rest, free = a :: rest ∧ Pool next last (next a) nodes rest (a :: live) := by
  obtain ⟨hchain, hperm⟩ := h
  cases free with
  | nil => exact absurd hchain ha
  | cons b rest =>
    obtain ⟨hb, hchain⟩ := hchain
    cases hb
    exact ⟨rest, rfl, hchain, List.perm_middle.trans hperm⟩

/-- A live node whose link is the head may become the head. -/
theorem Pool.push [DecidableEq α] (h : Pool next last head nodes free live) (ha : a ∈ live)
    (hlink : next a = head) :
    Pool next last (some a) nodes (a :: free) (live.erase a) := by
  refine ⟨⟨rfl, hlink.symm ▸ h.chain⟩, ?_⟩
  calc (a :: free ++ live.erase a).Perm (free ++ a :: live.erase a) := List.perm_middle.symm
    List.Perm _ (free ++ live) := (List.perm_cons_erase ha).symm.append_left free
    List.Perm _ nodes := h.perm

section
variable (h : Pool next last head nodes free live) (hnodes : nodes.Nodup)
include h

theorem Pool.mem_or_mem (ha : a ∈ nodes) : a ∈ free ∨ a ∈ live :=
  List.mem_append.mp (h.perm.mem_iff.mpr ha)

theorem Pool.mem_of_live (ha : a ∈ live) : a ∈ nodes :=
  h.perm.mem_iff.mp (List.mem_append_right _ ha)

theorem Pool.mem_of_free (ha : a ∈ free) : a ∈ nodes :=
  h.perm.mem_iff.mp (List.mem_append_left _ ha)

include hnodes

theorem Pool.nodup_live : live.Nodup :=
  (List.nodup_append.mp (h.perm.nodup_iff.mpr hnodes)).2.1

theorem Pool.notMem_free (ha : a ∈ live) : a ∉ free := fun hfree =>
  (List.nodup_append.mp (h.perm.nodup_iff.mpr hnodes)).2.2 a hfree a ha rfl

theorem Pool.notMem_live (ha : a ∈ free) : a ∉ live := fun hlive => h.notMem_free hnodes hlive ha

end

end LinkedPool
