import Mathlib.Data.List.FinRange
import Presence3DS.Lib.DoublyLinked
import Presence3DS.Lib.NodeLists
import Presence3DS.Lib.Runs

/-! The intrusive lists of the nodes of a pool (`list.c`): what the pointers are, and which lists
they stand for. -/

namespace Presence3DS.Sm
open DoublyLinked Runs

variable {ι α β : Type*} [DecidableEq ι] [DecidableEq α]

/-- The fields of the nodes (`ListNodeBase`, and what each has behind it) and of the lists
(`ListBase`). -/
structure ListMemory (ι α β : Type*) where
  prev : α → Option α
  next : α → Option α
  parent : α → ι
  data : α → β
  first : ι → Option α
  last : ι → Option α

namespace ListMemory

/-- A pool is an array, and has an element; the other lists have not been written to. -/
def buildList (n : ℕ) (data : Fin (n + 1) → β) (list : ι) : ListMemory ι (Fin (n + 1)) β where
  prev i := if h : i = 0 then none else some (i.pred h).castSucc
  next i := if h : i = Fin.last n then none else some (i.castPred h).succ
  parent _ := list
  data := data
  first l := if l = list then some 0 else none
  last l := if l = list then some (Fin.last n) else none

def removeNode (m : ListMemory ι α β) (node : α) : ListMemory ι α β :=
  { m with next := setAt m.next (m.prev node) (m.next node) }

def removeNodeBack (m : ListMemory ι α β) (node : α) : ListMemory ι α β :=
  { m with prev := setAt m.prev (m.next node) (m.prev node) }

def updateSource (m : ListMemory ι α β) (node : α) (src : ι) : ListMemory ι α β :=
  { m with
    first := if m.first src = some node then Function.update m.first src (m.next node) else m.first
    last := if m.last src = some node then Function.update m.last src (m.prev node) else m.last }

def insertBack (m : ListMemory ι α β) (node : α) (dst : ι) : ListMemory ι α β :=
  { m with
    prev := Function.update m.prev node (m.last dst)
    next := Function.update (setAt m.next (m.last dst) (some node)) node none
    last := Function.update m.last dst (some node) }

def insertFront (m : ListMemory ι α β) (node : α) (dst : ι) : ListMemory ι α β :=
  { m with
    prev := Function.update (setAt m.prev (m.first dst) (some node)) node none
    next := Function.update m.next node (m.first dst)
    first := Function.update m.first dst (some node) }

def normalize (m : ListMemory ι α β) (dst : ι) : ListMemory ι α β :=
  if m.first dst ≠ none ∧ m.last dst = none then
    { m with last := Function.update m.last dst (m.first dst) }
  else if m.first dst = none ∧ m.last dst ≠ none then
    { m with first := Function.update m.first dst (m.last dst) }
  else m

def moveNode (m : ListMemory ι α β) (node : α) (dst : ι) (back : Bool) : ListMemory ι α β :=
  let src := m.parent node
  if dst = src then m
  else
    let m := ((m.removeNode node).removeNodeBack node).updateSource node src
    let m := if back then m.insertBack node dst else m.insertFront node dst
    let m := m.normalize dst
    { m with parent := Function.update m.parent node dst }

/-- Without a free node it panics; the data of the node are cleared. -/
def allocateNode (zero : β) (m : ListMemory ι α β) (inUseList freeList : ι) (back : Bool) :
    Option (ListMemory ι α β) :=
  (m.first freeList).map fun node =>
    ({ m with data := Function.update m.data node zero }).moveNode node inUseList back

end ListMemory

/-- A node is removed by moving it to the list of the free ones. -/
inductive ListCall (ι α : Type*) where
  | move (node : α) (dst : ι) (back : Bool)
  | allocate (inUseList freeList : ι) (back : Bool)

def listStep (zero : β) (m : ListMemory ι α β) : ListCall ι α → Option (ListMemory ι α β)
  | .move node dst back => some (m.moveNode node dst back)
  | .allocate inUseList freeList back => m.allocateNode zero inUseList freeList back

/-! ## What is claimed -/

/-- The pointers of a list lead through the nodes in order, and back. -/
structure IsList (m : ListMemory ι α β) (l : ι) (xs : List α) : Prop where
  first : m.first l = xs.head?
  last : m.last l = xs.getLast?
  linked : Linked m.prev m.next none xs none

/-- Every list is a doubly linked list, and every node is in exactly one. -/
structure WellFormed (m : ListMemory ι α β) : Prop where
  lists : ∀ l, ∃ xs, IsList m l xs ∧ xs.Nodup
  unique : ∀ i, ∃! l, ∃ xs, IsList m l xs ∧ i ∈ xs

/-- The call moves a node to the back of a list that it is not in. -/
def Queues (m : ListMemory ι α β) (i : α) (l : ι) : ListCall ι α → Prop
  | .move node dst back => node = i ∧ dst = l ∧ back = true ∧ m.parent i ≠ l
  | .allocate inUseList freeList back =>
    m.first freeList = some i ∧ inUseList = l ∧ back = true ∧ m.parent i ≠ l

/-- Of two nodes that are queued one after the other, and stay, the first one comes first, and the
second one is not taken from the front. -/
def Fifo (zero : β) (m : ListMemory ι α β) : Prop :=
  ∀ l i j c c' between after m₁ m₂ m₃ m₄, Queues m i l c → listStep zero m c = some m₁ →
    AllSteps (listStep zero) (fun _ _ t => t.parent i = l) m₁ between →
    run (listStep zero) m₁ between = some m₂ → Queues m₂ j l c' →
    listStep zero m₂ c' = some m₃ →
    AllSteps (listStep zero) (fun _ _ t => t.parent i = l ∧ t.parent j = l) m₃ after →
    run (listStep zero) m₃ after = some m₄ →
    m₄.first l ≠ some j ∧ ∃ xs, IsList m₄ l xs ∧ [i, j].Sublist xs

/-! ## The lists that the pointers stand for -/

structure Represents (m : ListMemory ι α β) (p : NodeLists ι α) : Prop where
  isList : ∀ l, IsList m l (p.nodes l)
  parent : m.parent = p.parent

section
variable {m m' : ListMemory ι α β} {p : NodeLists ι α} {i : α} {l dst : ι} {xs ys : List α}

theorem linked_unique {prev next : α → Option α} {p : Option α}
    (hx : Linked prev next p xs none) (hy : Linked prev next p ys none)
    (hhead : xs.head? = ys.head?) : xs = ys := by
  induction xs generalizing p ys with
  | nil =>
    cases ys with
    | nil => rfl
    | cons b ys => cases hhead
  | cons a xs ih =>
    cases ys with
    | nil => cases hhead
    | cons b ys =>
      obtain rfl : a = b := Option.some.inj hhead
      obtain ⟨-, hxn, hx⟩ := hx
      obtain ⟨-, hyn, hy⟩ := hy
      rw [Option.or_none] at hxn hyn
      rw [ih hx hy (hxn.symm.trans hyn)]

omit [DecidableEq ι] in
theorem IsList.unique (hx : IsList m l xs) (hy : IsList m l ys) : xs = ys :=
  linked_unique hx.linked hy.linked (hx.first.symm.trans hy.first)

theorem Represents.wellFormed (h : Represents m p) : WellFormed m := by
  refine ⟨fun l => ⟨p.nodes l, h.isList l, p.nodup l⟩, fun i => ⟨p.parent i, ?_, ?_⟩⟩
  · exact ⟨p.nodes (p.parent i), h.isList _, (p.mem_nodes _ i).mpr rfl⟩
  · rintro l ⟨xs, hxs, hi⟩
    rw [hxs.unique (h.isList l)] at hi
    exact ((p.mem_nodes l i).mp hi).symm

theorem notMem_of_mem_nodes {l l' : ι} (hne : l ≠ l') {a : α} (ha : a ∈ p.nodes l) :
    a ∉ p.nodes l' := fun ha' =>
  hne (((p.mem_nodes l a).mp ha).symm.trans ((p.mem_nodes l' a).mp ha'))

theorem isList_removed (h : Represents m p) (i l) :
    IsList (((m.removeNode i).removeNodeBack i).updateSource i (m.parent i)) l
      ((p.nodes l).erase i) := by
  have hi : i ∈ p.nodes (p.parent i) := (p.mem_nodes _ i).mpr rfl
  have hsrc := h.isList (p.parent i)
  have hnodup := p.nodup (p.parent i)
  obtain ⟨as, bs, hsplit⟩ := List.append_of_mem hi
  rw [hsplit] at hsrc hnodup
  obtain ⟨hprev, hnext⟩ := hsrc.linked.neighbours
  have has : i ∉ as := fun hmem =>
    (List.nodup_append.mp hnodup).2.2 i hmem i List.mem_cons_self rfl
  have hbs : i ∉ bs := (List.nodup_cons.mp (List.nodup_append.mp hnodup).2.1).1
  have hlast : as.getLast? ≠ some i := fun hlast => has (List.mem_of_getLast? hlast)
  have hhead : bs.head? ≠ some i := fun hhead => hbs (List.mem_of_head? hhead)
  have hnext' : setAt m.next (m.prev i) (m.next i) i = m.next i := by
    rw [hprev]
    exact setAt_of_ne hlast
  have hnexts : (((m.removeNode i).removeNodeBack i).updateSource i (m.parent i)).next =
      setAt m.next as.getLast? bs.head? := by
    rw [← hprev, ← hnext]
    rfl
  have hprevs : (((m.removeNode i).removeNodeBack i).updateSource i (m.parent i)).prev =
      setAt m.prev bs.head? as.getLast? := by
    rw [← hprev, ← hnext, ← hnext']
    rfl
  have hfirst : (((m.removeNode i).removeNodeBack i).updateSource i (m.parent i)).first =
      if m.first (p.parent i) = some i then Function.update m.first (p.parent i) bs.head?
      else m.first := by
    rw [← hnext, ← hnext', ← h.parent]
    rfl
  have hlasts : (((m.removeNode i).removeNodeBack i).updateSource i (m.parent i)).last =
      if m.last (p.parent i) = some i then Function.update m.last (p.parent i) as.getLast?
      else m.last := by
    have hback : setAt m.prev (setAt m.next (m.prev i) (m.next i) i) (m.prev i) i = m.prev i := by
      rw [hnext', hnext]
      exact setAt_of_ne hhead
    rw [← hprev, ← hback, ← h.parent]
    rfl
  by_cases hl : l = p.parent i
  · have herase : (as ++ i :: bs).erase i = as ++ bs := by
      rw [List.erase_append_right _ has, List.erase_cons_head]
    rw [hl, hsplit, herase]
    constructor
    · rw [hfirst, hsrc.first]
      cases as with
      | nil =>
        show (if some i = some i then Function.update m.first (p.parent i) bs.head? else m.first)
          (p.parent i) = bs.head?
        rw [if_pos rfl, Function.update_self]
      | cons a as =>
        have ha : (a :: as ++ i :: bs).head? ≠ some i := fun heq =>
          has (List.mem_of_head? (l := a :: as) heq)
        rw [if_neg ha, hsrc.first]
        rfl
    · rw [hlasts, hsrc.last, List.getLast?_append, List.getLast?_append, List.getLast?_cons]
      cases hb : bs.getLast? with
      | none =>
        show (if some i = some i then Function.update m.last (p.parent i) as.getLast? else m.last)
          (p.parent i) = as.getLast?
        rw [if_pos rfl, Function.update_self]
      | some b =>
        have hne : some b ≠ some i := fun heq =>
          hbs (List.mem_of_getLast? (hb.trans heq))
        show (if some b = some i then _ else m.last) (p.parent i) = some b
        rw [if_neg hne, hsrc.last, List.getLast?_append, List.getLast?_cons, hb]
        rfl
    · rw [hprevs, hnexts]
      exact hsrc.linked.unlink hnodup
  · have hother := h.isList l
    have hil : i ∉ p.nodes l := notMem_of_mem_nodes (Ne.symm hl) hi
    rw [List.erase_of_not_mem hil]
    constructor
    · rw [hfirst]
      split_ifs
      · rw [Function.update_of_ne hl]
        exact hother.first
      · exact hother.first
    · rw [hlasts]
      split_ifs
      · rw [Function.update_of_ne hl]
        exact hother.last
      · exact hother.last
    · rw [hprevs, hnexts]
      refine hother.linked.congr (fun a ha => setAt_of_ne fun heq => ?_)
        fun a ha => setAt_of_ne fun heq => ?_
      · refine notMem_of_mem_nodes hl ha ?_
        rw [hsplit]
        exact List.mem_append_right as (List.mem_cons_of_mem i (List.mem_of_head? heq))
      · refine notMem_of_mem_nodes hl ha ?_
        rw [hsplit]
        exact List.mem_append_left _ (List.mem_of_getLast? heq)

@[simp] theorem normalize_prev (m : ListMemory ι α β) (dst : ι) :
    (m.normalize dst).prev = m.prev := by
  unfold ListMemory.normalize
  split_ifs <;> rfl

@[simp] theorem normalize_next (m : ListMemory ι α β) (dst : ι) :
    (m.normalize dst).next = m.next := by
  unfold ListMemory.normalize
  split_ifs <;> rfl

theorem IsList.normalize_of_ne (h : IsList m l xs) (hne : l ≠ dst) :
    IsList (m.normalize dst) l xs := by
  constructor
  · rw [← h.first]
    unfold ListMemory.normalize
    split_ifs
    · rfl
    · exact Function.update_of_ne hne _ _
    · rfl
  · rw [← h.last]
    unfold ListMemory.normalize
    split_ifs
    · exact Function.update_of_ne hne _ _
    · rfl
    · rfl
  · rw [normalize_prev, normalize_next]
    exact h.linked

theorem normalize_first (hlast : m.last dst = some i) :
    (m.normalize dst).first dst = some ((m.first dst).getD i) ∧
      (m.normalize dst).last dst = some i := by
  unfold ListMemory.normalize
  rw [hlast, if_neg fun h => Option.some_ne_none i h.2]
  cases hfirst : m.first dst with
  | none =>
    rw [if_pos ⟨rfl, Option.some_ne_none i⟩]
    exact ⟨Function.update_self .., hlast⟩
  | some a =>
    rw [if_neg fun h => Option.some_ne_none a h.1]
    exact ⟨hfirst, hlast⟩

theorem normalize_last (hfirst : m.first dst = some i) :
    (m.normalize dst).first dst = some i ∧
      (m.normalize dst).last dst = some ((m.last dst).getD i) := by
  unfold ListMemory.normalize
  rw [hfirst]
  cases hlast : m.last dst with
  | none =>
    rw [if_pos ⟨Option.some_ne_none i, rfl⟩]
    exact ⟨hfirst, Function.update_self ..⟩
  | some a =>
    rw [if_neg fun h => Option.some_ne_none a h.2, if_neg fun h => Option.some_ne_none i h.1]
    exact ⟨hfirst, hlast⟩

theorem isList_insertBack (h : IsList m dst xs) (hnodup : xs.Nodup) (hi : i ∉ xs) :
    IsList ((m.insertBack i dst).normalize dst) dst (xs ++ [i]) := by
  have hself : (m.insertBack i dst).last dst = some i := Function.update_self ..
  obtain ⟨hfirst, hlast⟩ := normalize_first hself
  constructor
  · rw [hfirst]
    show some ((m.first dst).getD i) = _
    rw [h.first]
    cases xs <;> rfl
  · rw [hlast, List.getLast?_concat]
  · rw [normalize_prev, normalize_next]
    show Linked (Function.update m.prev i (m.last dst))
      (Function.update (setAt m.next (m.last dst) (some i)) i none) none (xs ++ [i]) none
    rw [h.last]
    exact h.linked.pushBack hnodup hi

theorem isList_insertFront (h : IsList m dst xs) (hnodup : xs.Nodup) (hi : i ∉ xs) :
    IsList ((m.insertFront i dst).normalize dst) dst (i :: xs) := by
  have hself : (m.insertFront i dst).first dst = some i := Function.update_self ..
  obtain ⟨hfirst, hlast⟩ := normalize_last hself
  constructor
  · rw [hfirst]
    rfl
  · rw [hlast, List.getLast?_cons]
    show some ((m.last dst).getD i) = _
    rw [h.last]
  · rw [normalize_prev, normalize_next]
    show Linked (Function.update (setAt m.prev (m.first dst) (some i)) i none)
      (Function.update m.next i (m.first dst)) none (i :: xs) none
    rw [h.first]
    exact h.linked.pushFront hnodup hi

theorem isList_insert_of_ne (h : IsList m l xs) (hdst : IsList m dst ys) (hne : l ≠ dst)
    (hi : i ∉ xs) (hdisjoint : ∀ a ∈ xs, a ∉ ys) (back : Bool) :
    IsList ((if back then m.insertBack i dst else m.insertFront i dst).normalize dst) l xs := by
  have hnode : ∀ a ∈ xs, a ≠ i := fun a ha heq => hi (heq ▸ ha)
  refine IsList.normalize_of_ne ?_ hne
  cases back with
  | true =>
    refine ⟨h.first, (Function.update_of_ne hne _ _).trans h.last,
      h.linked.congr (fun a ha => Function.update_of_ne (hnode a ha) _ _) fun a ha => ?_⟩
    show Function.update (setAt m.next (m.last dst) (some i)) i none a = m.next a
    rw [Function.update_of_ne (hnode a ha), hdst.last]
    exact setAt_of_ne fun heq => hdisjoint a ha (List.mem_of_getLast? heq)
  | false =>
    refine ⟨(Function.update_of_ne hne _ _).trans h.first, h.last,
      h.linked.congr (fun a ha => ?_) fun a ha => Function.update_of_ne (hnode a ha) _ _⟩
    show Function.update (setAt m.prev (m.first dst) (some i)) i none a = m.prev a
    rw [Function.update_of_ne (hnode a ha), hdst.first]
    exact setAt_of_ne fun heq => hdisjoint a ha (List.mem_of_head? heq)

theorem IsList.of_parent (h : IsList m l xs) (parent : α → ι) :
    IsList { m with parent := parent } l xs :=
  ⟨h.first, h.last, h.linked⟩

theorem moveNode_represents (h : Represents m p) (i : α) (dst : ι) (back : Bool) :
    Represents (m.moveNode i dst back) (p.moveNode i dst back) := by
  by_cases hdst : dst = m.parent i
  · have hsame : p.parent i = dst := by rw [hdst, h.parent]
    unfold ListMemory.moveNode NodeLists.moveNode
    rw [dif_pos hsame]
    dsimp only
    rw [if_pos hdst]
    exact h
  have hsrc : p.parent i ≠ dst := fun heq => hdst (by rw [h.parent, heq])
  have hremoved := isList_removed h i
  have hi : ∀ l, i ∉ (p.nodes l).erase i := fun l hmem =>
    ((p.nodup l).mem_erase_iff.mp hmem).1 rfl
  have hdstNodes : (p.nodes dst).erase i = p.nodes dst :=
    List.erase_of_not_mem fun hmem => hsrc ((p.mem_nodes dst i).mp hmem)
  have hinto := hremoved dst
  rw [hdstNodes] at hinto
  have hiDst : i ∉ p.nodes dst := hdstNodes ▸ hi dst
  have hmove : m.moveNode i dst back =
      { ((if back then
            (((m.removeNode i).removeNodeBack i).updateSource i (m.parent i)).insertBack i dst
          else (((m.removeNode i).removeNodeBack i).updateSource i (m.parent i)).insertFront i
            dst).normalize dst) with
        parent := (m.moveNode i dst back).parent } := by
    unfold ListMemory.moveNode
    dsimp only
    rw [if_neg hdst]
  constructor
  · intro l
    rw [hmove]
    apply IsList.of_parent
    by_cases hl : l = dst
    · rw [hl]
      cases back with
      | true =>
        rw [NodeLists.nodes_dst_back p hsrc]
        exact isList_insertBack hinto (p.nodup dst) hiDst
      | false =>
        rw [NodeLists.nodes_dst_front p hsrc]
        exact isList_insertFront hinto (p.nodup dst) hiDst
    · have hnodes : (p.moveNode i dst back).nodes l = (p.nodes l).erase i := by
        unfold NodeLists.moveNode
        rw [dif_neg hsrc]
        exact if_neg hl
      rw [hnodes]
      refine isList_insert_of_ne (hremoved l) hinto hl (hi l) (fun a ha hmem => ?_) back
      exact notMem_of_mem_nodes hl (List.mem_of_mem_erase ha) hmem
  · rw [NodeLists.parent_moveNode, ← h.parent]
    unfold ListMemory.moveNode
    dsimp only
    rw [if_neg hdst]
    have hkeep : ∀ m : ListMemory ι α β, (m.normalize dst).parent = m.parent := by
      intro m
      unfold ListMemory.normalize
      split_ifs <;> rfl
    dsimp only
    rw [hkeep]
    cases back <;> rfl

/-! ## Runs -/

theorem buildList_represents (n : ℕ) (data : Fin (n + 1) → β) (list : ι) :
    ∃ p, Represents (ListMemory.buildList n data list) p := by
  have hmem : ∀ (l : ι) (i : Fin (n + 1)),
      i ∈ (if l = list then List.finRange (n + 1) else []) ↔ list = l := by
    intro l i
    split_ifs with hl
    · exact iff_of_true (List.mem_finRange i) hl.symm
    · exact iff_of_false List.not_mem_nil (Ne.symm hl)
  have hnodup : ∀ l : ι, (if l = list then List.finRange (n + 1) else []).Nodup := by
    intro l
    split_ifs
    · exact List.nodup_finRange _
    · exact List.nodup_nil
  have hindex : ∀ (k : ℕ) (a : Fin (n + 1)), (List.finRange (n + 1))[k]? = some a → k = a := by
    intro k a ha
    obtain ⟨hk, rfl⟩ := List.getElem?_eq_some_iff.mp ha
    rw [List.getElem_finRange]
    rfl
  have hat : ∀ (k : ℕ) (hk : k < n + 1), (List.finRange (n + 1))[k]? = some ⟨k, hk⟩ := by
    intro k hk
    rw [List.getElem?_eq_getElem (by rw [List.length_finRange]; exact hk), List.getElem_finRange]
    rfl
  refine ⟨⟨fun _ => list, _, hmem, hnodup⟩, fun l => ⟨?_, ?_, ?_⟩, rfl⟩
  · show (if l = list then some 0 else none) = _
    dsimp only
    split_ifs
    · rw [List.head?_eq_getElem?, hat 0 n.succ_pos]
      rfl
    · rfl
  · show (if l = list then some (Fin.last n) else none) = _
    dsimp only
    split_ifs
    · rw [List.getLast?_eq_getElem?, List.length_finRange, hat (n + 1 - 1) n.lt_succ_self]
      rfl
    · rfl
  · dsimp only
    split_ifs
    · apply linked_of_getElem?
      · intro k a ha
        obtain rfl := hindex k a ha
        show (if h : a = 0 then none else some (a.pred h).castSucc) = _
        by_cases h : a = 0
        · rw [dif_pos h]
          exact (if_pos (congrArg Fin.val h)).symm
        · have hpos : a.val ≠ 0 := fun hval => h (Fin.ext hval)
          rw [dif_neg h, if_neg hpos, hat _ (by omega)]
          rfl
      · intro k a ha
        obtain rfl := hindex k a ha
        show (if h : a = Fin.last n then none else some (a.castPred h).succ) = _
        rw [Option.or_none]
        by_cases h : a = Fin.last n
        · have hend : (List.finRange (n + 1)).length ≤ a.val + 1 := by
            rw [List.length_finRange, h]
            exact le_refl _
          rw [dif_pos h, List.getElem?_eq_none hend]
        · have hlt : a.val < n := Fin.val_lt_last h
          rw [dif_neg h, hat _ (Nat.succ_lt_succ hlt)]
          rfl
    · trivial

/-- The node that a call moves, where to, and to which end. -/
def moveOf (m : ListMemory ι α β) : ListCall ι α → Option (α × ι × Bool)
  | .move node dst back => some (node, dst, back)
  | .allocate inUseList freeList back =>
    (m.first freeList).map fun node => (node, inUseList, back)

theorem Represents.withData (h : Represents m p) (data : α → β) :
    Represents { m with data := data } p :=
  ⟨fun l => ⟨(h.isList l).first, (h.isList l).last, (h.isList l).linked⟩, h.parent⟩

theorem listStep_represents {zero : β} {c : ListCall ι α} (h : Represents m p)
    (hstep : listStep zero m c = some m') : ∃ i dst back, moveOf m c = some (i, dst, back) ∧
      Represents m' (p.moveNode i dst back) := by
  cases c with
  | move node dst back =>
    obtain rfl := Option.some.inj hstep
    exact ⟨node, dst, back, rfl, moveNode_represents h node dst back⟩
  | allocate inUseList freeList back =>
    obtain ⟨node, hnode, rfl⟩ := Option.map_eq_some_iff.mp hstep
    refine ⟨node, inUseList, back, ?_, moveNode_represents (h.withData _) node inUseList back⟩
    show (m.first freeList).map _ = _
    rw [hnode]
    rfl

theorem Queues.moveOf {c : ListCall ι α} (h : Queues m i l c) :
    moveOf m c = some (i, l, true) ∧ m.parent i ≠ l := by
  cases c with
  | move node dst back =>
    obtain ⟨rfl, rfl, rfl, hparent⟩ := h
    exact ⟨rfl, hparent⟩
  | allocate inUseList freeList back =>
    obtain ⟨hfirst, rfl, rfl, hparent⟩ := h
    refine ⟨?_, hparent⟩
    show (m.first freeList).map _ = _
    rw [hfirst]
    rfl

theorem Queues.nodes {zero : β} {c : ListCall ι α} (hq : Queues m i l c) (h : Represents m p)
    (hstep : listStep zero m c = some m') :
    ∃ p', Represents m' p' ∧ p'.nodes l = p.nodes l ++ [i] := by
  obtain ⟨j, dst, back, hmove, hp'⟩ := listStep_represents h hstep
  obtain ⟨hmove', hparent⟩ := hq.moveOf
  obtain ⟨rfl, rfl, rfl⟩ : i = j ∧ l = dst ∧ true = back := by
    simpa using hmove'.symm.trans hmove
  rw [h.parent] at hparent
  exact ⟨_, hp', NodeLists.nodes_dst_back p hparent⟩

theorem moveNode_sublist {zs : List α} {j : α} {back : Bool} (hzs : zs.Sublist (p.nodes l))
    (hstay : ∀ a ∈ zs, (p.moveNode j dst back).parent a = l) :
    zs.Sublist ((p.moveNode j dst back).nodes l) := by
  by_cases hdst : p.parent j = dst
  · unfold NodeLists.moveNode
    rw [dif_pos hdst]
    exact hzs
  by_cases hl : l = dst
  · subst hl
    cases back with
    | true =>
      rw [NodeLists.nodes_dst_back p hdst]
      exact hzs.trans (List.sublist_append_left ..)
    | false =>
      rw [NodeLists.nodes_dst_front p hdst]
      exact hzs.trans (List.sublist_cons_self ..)
  · have hj : j ∉ zs := by
      intro hmem
      have hmoved := hstay j hmem
      rw [NodeLists.parent_moveNode, Function.update_self] at hmoved
      exact hl hmoved.symm
    have hnodes : (p.moveNode j dst back).nodes l = (p.nodes l).erase j := by
      unfold NodeLists.moveNode
      rw [dif_neg hdst]
      exact if_neg hl
    rw [hnodes, ← List.erase_of_not_mem hj]
    exact hzs.erase j

theorem run_sublist {zero : β} {zs : List α} {calls : List (ListCall ι α)}
    (h : Represents m p) (hzs : zs.Sublist (p.nodes l))
    (hstay : AllSteps (listStep zero) (fun _ _ t => ∀ a ∈ zs, t.parent a = l) m calls)
    (hrun : run (listStep zero) m calls = some m') :
    ∃ p', Represents m' p' ∧ zs.Sublist (p'.nodes l) := by
  induction calls generalizing m p with
  | nil => exact ⟨p, Option.some.inj hrun ▸ h, hzs⟩
  | cons c calls ih =>
    obtain ⟨t, ht, hrun⟩ := Option.bind_eq_some_iff.mp hrun
    obtain ⟨hc, hstay⟩ := hstay t ht
    obtain ⟨j, dst, back, -, hp'⟩ := listStep_represents h ht
    refine ih hp' (moveNode_sublist hzs fun a ha => ?_) hstay hrun
    rw [← hp'.parent]
    exact hc a ha

theorem head?_ne_of_sublist {i j : α} (hnodup : xs.Nodup) (h : [i, j].Sublist xs) :
    xs.head? ≠ some j := by
  intro hhead
  cases xs with
  | nil => cases hhead
  | cons a xs =>
    obtain rfl : a = j := Option.some.inj hhead
    have ha := (List.nodup_cons.mp hnodup).1
    cases h with
    | cons _ h => exact ha (h.subset (List.mem_cons_of_mem i List.mem_cons_self))
    | cons_cons _ h => exact ha (h.subset List.mem_cons_self)

theorem Represents.fifo (h : Represents m p) (zero : β) : Fifo zero m := by
  intro l i j c c' between after m₁ m₂ m₃ m₄ hi hc hbetween hrun hj hc' hafter hrun'
  -- the first node is queued, and stays
  obtain ⟨p₁, hp₁, hnodes₁⟩ := hi.nodes h hc
  have hfirst : [i].Sublist (p₁.nodes l) := by
    rw [hnodes₁]
    exact List.sublist_append_right ..
  obtain ⟨p₂, hp₂, hfirst⟩ := run_sublist hp₁ hfirst
    (hbetween.imp fun _ _ _ ht a ha => List.mem_singleton.mp ha ▸ ht) hrun
  -- the second one comes behind it
  obtain ⟨p₃, hp₃, hnodes₃⟩ := hj.nodes hp₂ hc'
  have hboth : [i, j].Sublist (p₃.nodes l) := by
    rw [hnodes₃]
    exact hfirst.append (List.Sublist.refl [j])
  obtain ⟨p₄, hp₄, hboth⟩ := run_sublist hp₃ hboth
    (hafter.imp fun _ _ _ ht a ha => by
      rcases List.mem_cons.mp ha with rfl | ha
      · exact ht.1
      · exact List.mem_singleton.mp ha ▸ ht.2) hrun'
  refine ⟨fun hfront => ?_, p₄.nodes l, hp₄.isList l, hboth⟩
  rw [(hp₄.isList l).first] at hfront
  exact head?_ne_of_sublist (p₄.nodup l) hboth hfront

theorem allSteps_lists {zero : β} (h : Represents m p) (calls : List (ListCall ι α)) :
    AllSteps (listStep zero) (fun _ _ t => WellFormed t ∧ Fifo zero t) m calls := by
  induction calls generalizing m p with
  | nil => trivial
  | cons c calls ih =>
    intro t ht
    obtain ⟨i, dst, back, -, hp'⟩ := listStep_represents h ht
    exact ⟨⟨hp'.wellFormed, hp'.fifo zero⟩, ih hp'⟩

/-- From a pool that has been made into one list, whatever is called, the lists are well formed,
every node is in one of them, and the order of what is queued is kept. -/
theorem lists_wellFormed (n : ℕ) (data : Fin (n + 1) → β) (zero : β) (list : ι)
    (calls : List (ListCall ι (Fin (n + 1)))) :
    (WellFormed (ListMemory.buildList n data list) ∧
      Fifo zero (ListMemory.buildList n data list)) ∧
    AllSteps (listStep zero) (fun _ _ t => WellFormed t ∧ Fifo zero t)
      (ListMemory.buildList n data list) calls := by
  obtain ⟨p, hp⟩ := buildList_represents n data list
  exact ⟨⟨hp.wellFormed, hp.fifo zero⟩, allSteps_lists hp calls⟩

end

end Presence3DS.Sm
