import Presence3DS.Lib.LinkedPool
import Presence3DS.Lib.Runs

/-! The pool of buffers for extended headers (`exheader_info_heap.c`), whose free nodes are linked
by their first words. Threads call it without a lock, and each access to the memory that they share
is a step. The nodes are numbered as if the array went on behind the buffer. -/

namespace Presence3DS.Pm.ExHeaderInfoHeap

open Runs LinkedPool

/-- Where a thread is in a call; `oldHead`, `newHead` are its variables. -/
inductive Thread where
  | idle
  /-- In `New`, before `oldHead->next` is read. -/
  | reading (oldHead : Option ℕ)
  /-- In `New`, before the compare-and-swap. -/
  | popping (oldHead newHead : Option ℕ)
  /-- In `New`, before the call of `memset`. -/
  | clearing (node : ℕ)
  /-- In `Delete`, before `newHead->next` is written. -/
  | linking (newHead : ℕ) (oldHead : Option ℕ)
  /-- In `Delete`, before the compare-and-swap. -/
  | pushing (newHead : ℕ) (oldHead : Option ℕ)

structure Heap where
  headNode : Option ℕ
  /-- The first word of each node, as a pointer. -/
  next : ℕ → Option ℕ
  threads : ℕ → Thread
  /-- The allocations: from the compare-and-swap of `New` to that of `Delete`. -/
  live : List ℕ
  /-- Of them, those that `New` has returned and that `Delete` has not been called for. -/
  held : List ℕ

/-- The loop of `ExHeaderInfoHeap_Init`, over the memory as it has been. -/
def initLinks (num : ℕ) (next : ℕ → Option ℕ) : ℕ → Option ℕ :=
  (List.range num).foldl (fun next i => Function.update next i (some (i + 1))) next

/-- `ExHeaderInfoHeap_Init` -/
def init (num : ℕ) (next : ℕ → Option ℕ) : Heap :=
  ⟨some 0, initLinks num next, fun _ => .idle, [], []⟩

inductive Action where
  /-- `ExHeaderInfoHeap_New`, with the first load. -/
  | new (t : ℕ)
  | readNext (t : ℕ)
  /-- A weak compare-and-swap may fail for no reason. -/
  | compareExchange (t : ℕ) (spurious : Bool)
  | memset (t : ℕ)
  /-- `ExHeaderInfoHeap_Delete` for an allocation that the caller has, with the first load. -/
  | delete (t node : ℕ)
  | writeNext (t : ℕ)
  /-- A caller writes into an allocation that it has. -/
  | fill (node : ℕ) (word : Option ℕ)

namespace Heap

def setThread (s : Heap) (t : ℕ) (thread : Thread) : Heap :=
  { s with threads := Function.update s.threads t thread }

def setNext (s : Heap) (node : ℕ) (word : Option ℕ) : Heap :=
  { s with next := Function.update s.next node word }

/-- `oldHead` is the head and is replaced by `newHead`. -/
def popped (s : Heap) (t : ℕ) (oldHead newHead : Option ℕ) : Heap :=
  match oldHead with
  | none => { s with headNode := newHead }.setThread t .idle
  | some node => { s with headNode := newHead, live := node :: s.live }.setThread t (.clearing node)

def pushed (s : Heap) (t newHead : ℕ) : Heap :=
  { s with headNode := some newHead, live := s.live.erase newHead }.setThread t .idle

def returned (s : Heap) (t node : ℕ) : Heap :=
  { s with held := node :: s.held }.setThread t .idle

def passed (s : Heap) (t node : ℕ) : Heap :=
  { s with held := s.held.erase node }.setThread t (.linking node s.headNode)

end Heap

def step (s : Heap) : Action → Option Heap
  | .new t =>
    match s.threads t with
    | .idle => some (if s.headNode = none then s else s.setThread t (.reading s.headNode))
    | _ => none
  | .readNext t =>
    match s.threads t with
    | .reading oldHead => some (s.setThread t (.popping oldHead (oldHead.bind s.next)))
    | _ => none
  | .compareExchange t spurious =>
    match s.threads t with
    | .popping oldHead newHead =>
      if s.headNode = oldHead ∧ spurious = false then some (s.popped t oldHead newHead)
      else some (s.setThread t (.reading s.headNode))
    | .pushing newHead oldHead =>
      if s.headNode = oldHead ∧ spurious = false then some (s.pushed t newHead)
      else some (s.setThread t (.linking newHead s.headNode))
    | _ => none
  | .memset t =>
    match s.threads t with
    | .clearing node => some ((s.setNext node none).returned t node)
    | _ => none
  | .delete t node =>
    match s.threads t with
    | .idle => if node ∈ s.held then some (s.passed t node) else none
    | _ => none
  | .writeNext t =>
    match s.threads t with
    | .linking newHead oldHead =>
      some ((s.setNext newHead oldHead).setThread t (.pushing newHead oldHead))
    | _ => none
  | .fill node word => if node ∈ s.held then some (s.setNext node word) else none

/-- What the step decides that a call of `New` returns, if it decides it. -/
def newResult (s : Heap) : Action → Option (Option ℕ)
  | .new t =>
    match s.threads t with
    | .idle => if s.headNode = none then some none else none
    | _ => none
  | .compareExchange t spurious =>
    match s.threads t with
    | .popping oldHead _ => if s.headNode = oldHead ∧ spurious = false then some oldHead else none
    | _ => none
  | _ => none

/-- A pop does not take what lies behind the buffer, and the link it has read is still that of the
node. -/
def Fresh (num : ℕ) (s : Heap) : Action → Prop
  | .compareExchange t spurious =>
    match s.threads t with
    | .popping (some node) newHead =>
      s.headNode = some node ∧ spurious = false → node ≠ num ∧ newHead = s.next node
    | _ => True
  | _ => True

/-! ## The node of a thread -/

/-- The node that a thread has taken and not returned, or has been given to delete. -/
def Thread.node : Thread → Option ℕ
  | .clearing node => some node
  | .linking node _ => some node
  | .pushing node _ => some node
  | _ => none

/-- The free nodes are linked from the head on up to the address behind the buffer, and nobody but
its thread uses a live node that is not held. -/
structure Sound (num : ℕ) (free : List ℕ) (s : Heap) : Prop where
  pool : Pool s.next (some num) s.headNode (List.range num) free s.live
  held_nodup : s.held.Nodup
  held_live : ∀ n ∈ s.held, n ∈ s.live
  node_live : ∀ t n, (s.threads t).node = some n → n ∈ s.live ∧ n ∉ s.held
  node_inj : ∀ t t' n, (s.threads t).node = some n → (s.threads t').node = some n → t = t'
  linked : ∀ t n oldHead, s.threads t = .pushing n oldHead → s.next n = oldHead

/-! ## What the steps keep -/

section
variable {num : ℕ} {free free' : List ℕ} {s s' : Heap} {t : ℕ} {thread : Thread}

theorem Sound.headNode_ne_none (h : Sound num free s) : s.headNode ≠ none := by
  intro hnone
  have hchain := h.pool.chain
  rw [hnone] at hchain
  cases free with
  | nil => exact Option.some_ne_none num hchain.symm
  | cons n rest => exact Option.some_ne_none n hchain.1.symm

theorem Sound.move (h : Sound num free s) (thread : Thread)
    (hthreads : s'.threads = Function.update s.threads t thread)
    (hpool : Pool s'.next (some num) s'.headNode (List.range num) free' s'.live)
    (hheld : s'.held.Nodup) (hlive : ∀ n ∈ s'.held, n ∈ s'.live)
    (hown : ∀ n, thread.node = some n → n ∈ s'.live ∧ n ∉ s'.held)
    (hothers : ∀ t' ≠ t, ∀ n, (s.threads t').node = some n →
      n ∈ s'.live ∧ n ∉ s'.held ∧ thread.node ≠ some n ∧ s'.next n = s.next n)
    (hlink : ∀ n oldHead, thread = .pushing n oldHead → s'.next n = oldHead) :
    Sound num free' s' := by
  have hself : s'.threads t = thread := by rw [hthreads, Function.update_self]
  have hother {t' : ℕ} (hne : t' ≠ t) : s'.threads t' = s.threads t' := by
    rw [hthreads, Function.update_of_ne hne]
  refine ⟨hpool, hheld, hlive, ?_, ?_, ?_⟩
  · intro t' n hn
    rcases eq_or_ne t' t with rfl | hne
    · rw [hself] at hn
      exact hown n hn
    · rw [hother hne] at hn
      obtain ⟨hmem, hnot, -⟩ := hothers t' hne n hn
      exact ⟨hmem, hnot⟩
  · intro t₁ t₂ n h₁ h₂
    rcases eq_or_ne t₁ t with rfl | hne₁
    · rcases eq_or_ne t₂ t₁ with rfl | hne₂
      · rfl
      · rw [hself] at h₁
        rw [hother hne₂] at h₂
        exact absurd h₁ (hothers t₂ hne₂ n h₂).2.2.1
    · rw [hother hne₁] at h₁
      rcases eq_or_ne t₂ t with rfl | hne₂
      · rw [hself] at h₂
        exact absurd h₂ (hothers t₁ hne₁ n h₁).2.2.1
      · rw [hother hne₂] at h₂
        exact h.node_inj t₁ t₂ n h₁ h₂
  · intro t' n oldHead hpushing
    rcases eq_or_ne t' t with rfl | hne
    · rw [hself] at hpushing
      exact hlink n oldHead hpushing
    · rw [hother hne] at hpushing
      rw [(hothers t' hne n (congrArg Thread.node hpushing)).2.2.2]
      exact h.linked t' n oldHead hpushing

theorem Sound.others (h : Sound num free s) {n : ℕ} (hn : (s.threads t).node = some n) {t' : ℕ}
    (hne : t' ≠ t) {m : ℕ} (hm : (s.threads t').node = some m) :
    m ∈ s.live ∧ m ∉ s.held ∧ m ≠ n := by
  obtain ⟨hlive, hheld⟩ := h.node_live t' m hm
  exact ⟨hlive, hheld, fun heq => hne (h.node_inj t' t n (heq ▸ hm) hn)⟩

theorem Sound.setThread (h : Sound num free s)
    (hnode : ∀ n, thread.node = some n → (s.threads t).node = some n)
    (hlink : ∀ n oldHead, thread = .pushing n oldHead → s.next n = oldHead) :
    Sound num free (s.setThread t thread) := by
  refine h.move thread rfl h.pool h.held_nodup h.held_live ?_ ?_ hlink
  · exact fun n hn => h.node_live t n (hnode n hn)
  · intro t' hne n hn
    obtain ⟨hlive, hheld⟩ := h.node_live t' n hn
    exact ⟨hlive, hheld, fun hown => hne (h.node_inj t' t n hn (hnode n hown)), rfl⟩

theorem Sound.popped (h : Sound num free s) {node : ℕ} (hhead : s.headNode = some node)
    (hnum : node ≠ num) : ∃ rest, free = node :: rest ∧
      Sound num rest (s.popped t (some node) (s.next node)) := by
  have hpool := h.pool
  rw [hhead] at hpool
  obtain ⟨rest, rfl, hpool'⟩ := hpool.pop fun heq => hnum (Option.some.inj heq)
  have hnot : node ∉ s.live := hpool.notMem_live List.nodup_range List.mem_cons_self
  refine ⟨rest, rfl, h.move (.clearing node) rfl hpool' h.held_nodup ?_ ?_ ?_ ?_⟩
  · exact fun n hn => List.mem_cons_of_mem node (h.held_live n hn)
  · rintro n ⟨⟩
    exact ⟨List.mem_cons_self, fun hheld => hnot (h.held_live node hheld)⟩
  · intro t' _ n hn
    obtain ⟨hlive, hheld⟩ := h.node_live t' n hn
    refine ⟨List.mem_cons_of_mem node hlive, hheld, ?_, rfl⟩
    rintro ⟨⟩
    exact hnot hlive
  · rintro n oldHead ⟨⟩

theorem Sound.pushed (h : Sound num free s) {node : ℕ}
    (ht : s.threads t = .pushing node s.headNode) : Sound num (node :: free) (s.pushed t node) := by
  have hnode : (s.threads t).node = some node := congrArg Thread.node ht
  obtain ⟨hlive, hheld⟩ := h.node_live t node hnode
  have hmem {n : ℕ} (hn : n ∈ s.live) (hne : n ≠ node) : n ∈ s.live.erase node :=
    (List.mem_erase_of_ne hne).mpr hn
  refine h.move .idle rfl (h.pool.push hlive (h.linked t node _ ht)) h.held_nodup
    ?_ ?_ ?_ ?_
  · exact fun n hn => hmem (h.held_live n hn) fun heq => hheld (heq ▸ hn)
  · rintro n ⟨⟩
  · intro t' hne n hn
    obtain ⟨hlive', hheld', hdiff⟩ := h.others hnode hne hn
    exact ⟨hmem hlive' hdiff, hheld', (Option.some_ne_none n).symm, rfl⟩
  · rintro n oldHead ⟨⟩

theorem Sound.cleared (h : Sound num free s) {node : ℕ} (ht : s.threads t = .clearing node) :
    Sound num free ((s.setNext node none).returned t node) := by
  have hnode : (s.threads t).node = some node := congrArg Thread.node ht
  obtain ⟨hlive, hheld⟩ := h.node_live t node hnode
  refine h.move .idle rfl
    (h.pool.update (h.pool.notMem_free List.nodup_range hlive) none)
    (List.nodup_cons.mpr ⟨hheld, h.held_nodup⟩) ?_ ?_ ?_ ?_
  · exact List.forall_mem_cons.mpr ⟨hlive, h.held_live⟩
  · rintro n ⟨⟩
  · intro t' hne n hn
    obtain ⟨hlive', hheld', hdiff⟩ := h.others hnode hne hn
    refine ⟨hlive', ?_, (Option.some_ne_none n).symm, Function.update_of_ne hdiff _ _⟩
    exact fun hmem => (List.mem_cons.mp hmem).elim hdiff hheld'
  · rintro n oldHead ⟨⟩

theorem Sound.passed (h : Sound num free s) {node : ℕ} (hnode : node ∈ s.held) :
    Sound num free (s.passed t node) := by
  refine h.move (.linking node s.headNode) rfl h.pool (h.held_nodup.erase node)
    ?_ ?_ ?_ ?_
  · exact fun n hn => h.held_live n (List.mem_of_mem_erase hn)
  · rintro n ⟨⟩
    exact ⟨h.held_live node hnode, h.held_nodup.not_mem_erase⟩
  · intro t' _ n hn
    obtain ⟨hlive, hheld⟩ := h.node_live t' n hn
    refine ⟨hlive, fun hmem => hheld (List.mem_of_mem_erase hmem), ?_, rfl⟩
    rintro ⟨⟩
    exact hheld hnode
  · rintro n oldHead ⟨⟩

theorem Sound.linkedTo (h : Sound num free s) {node : ℕ} {oldHead : Option ℕ}
    (ht : s.threads t = .linking node oldHead) :
    Sound num free ((s.setNext node oldHead).setThread t (.pushing node oldHead)) := by
  have hnode : (s.threads t).node = some node := congrArg Thread.node ht
  obtain ⟨hlive, hheld⟩ := h.node_live t node hnode
  refine h.move (.pushing node oldHead) rfl
    (h.pool.update (h.pool.notMem_free List.nodup_range hlive) oldHead)
    h.held_nodup h.held_live ?_ ?_ ?_
  · rintro n ⟨⟩
    exact ⟨hlive, hheld⟩
  · intro t' hne n hn
    obtain ⟨hlive', hheld', hdiff⟩ := h.others hnode hne hn
    refine ⟨hlive', hheld', ?_, Function.update_of_ne hdiff _ _⟩
    rintro ⟨⟩
    exact hdiff rfl
  · rintro n old ⟨⟩
    exact Function.update_self _ _ _

theorem Sound.filled (h : Sound num free s) {node : ℕ} (hnode : node ∈ s.held)
    (word : Option ℕ) : Sound num free (s.setNext node word) := by
  have hfree := h.pool.notMem_free List.nodup_range (h.held_live node hnode)
  refine ⟨h.pool.update hfree word, h.held_nodup, h.held_live, h.node_live, h.node_inj, ?_⟩
  intro t n oldHead hn
  have hne : n ≠ node := by
    rintro rfl
    exact (h.node_live t n (congrArg Thread.node hn)).2 hnode
  exact (Function.update_of_ne hne word s.next).trans (h.linked t n oldHead hn)

theorem Sound.after (h : Sound num free s) {a : Action} (hfresh : Fresh num s a)
    (hstep : step s a = some s') : ∃ free', Sound num free' s' := by
  cases a with
  | new t =>
    rcases ht : s.threads t with _ | _ | _ | _ | _ | _
    all_goals simp only [step, ht, reduceCtorEq, Option.some.injEq] at hstep
    rw [if_neg h.headNode_ne_none] at hstep
    exact ⟨free, hstep ▸ h.setThread (by rintro n ⟨⟩) (by rintro n oldHead ⟨⟩)⟩
  | readNext t =>
    rcases ht : s.threads t with _ | _ | _ | _ | _ | _
    all_goals simp only [step, ht, reduceCtorEq, Option.some.injEq] at hstep
    exact ⟨free, hstep ▸ h.setThread (by rintro n ⟨⟩) (by rintro n oldHead ⟨⟩)⟩
  | compareExchange t spurious =>
    rcases ht : s.threads t with _ | _ | ⟨oldHead, newHead⟩ | _ | _ | ⟨node, oldHead⟩
    all_goals simp only [step, ht, reduceCtorEq] at hstep
    · split_ifs at hstep with hswap
      · cases hstep
        obtain ⟨hhead, hgenuine⟩ := hswap
        cases oldHead with
        | none => exact absurd hhead h.headNode_ne_none
        | some node =>
          rw [Fresh, ht] at hfresh
          obtain ⟨hnum, rfl⟩ := hfresh ⟨hhead, hgenuine⟩
          obtain ⟨rest, -, hrest⟩ := h.popped hhead hnum
          exact ⟨rest, hrest⟩
      · cases hstep
        exact ⟨free, h.setThread (by rintro n ⟨⟩) (by rintro n oldHead ⟨⟩)⟩
    · split_ifs at hstep with hswap
      · cases hstep
        obtain ⟨rfl, -⟩ := hswap
        exact ⟨node :: free, h.pushed ht⟩
      · cases hstep
        refine ⟨free, h.setThread ?_ (by rintro n oldHead ⟨⟩)⟩
        rintro n ⟨⟩
        exact congrArg Thread.node ht
  | memset t =>
    rcases ht : s.threads t with _ | _ | _ | node | _ | _
    all_goals simp only [step, ht, reduceCtorEq, Option.some.injEq] at hstep
    exact ⟨free, hstep ▸ h.cleared ht⟩
  | delete t node =>
    rcases ht : s.threads t with _ | _ | _ | _ | _ | _
    all_goals simp only [step, ht, reduceCtorEq, Option.ite_none_right_eq_some,
      Option.some.injEq] at hstep
    obtain ⟨hheld, rfl⟩ := hstep
    exact ⟨free, h.passed hheld⟩
  | writeNext t =>
    rcases ht : s.threads t with _ | _ | _ | _ | ⟨node, oldHead⟩ | _
    all_goals simp only [step, ht, reduceCtorEq, Option.some.injEq] at hstep
    exact ⟨free, hstep ▸ h.linkedTo ht⟩
  | fill node word =>
    simp only [step, Option.ite_none_right_eq_some, Option.some.injEq] at hstep
    obtain ⟨hheld, rfl⟩ := hstep
    exact ⟨free, h.filled hheld word⟩

end

/-! ## The start -/

theorem initLinks_eq {num i : ℕ} (next : ℕ → Option ℕ) (hi : i < num) :
    initLinks num next i = some (i + 1) := by
  induction num with
  | zero => exact absurd hi (Nat.not_lt_zero i)
  | succ num ih =>
    rw [initLinks, List.range_succ, List.foldl_append]
    show Function.update (initLinks num next) num (some (num + 1)) i = _
    rcases eq_or_ne i num with rfl | hne
    · rw [Function.update_self]
    · rw [Function.update_of_ne hne, ih (Nat.lt_of_le_of_ne (Nat.le_of_lt_succ hi) hne)]

theorem chain_range' {num : ℕ} {next : ℕ → Option ℕ} (h : ∀ i < num, next i = some (i + 1))
    {k len : ℕ} (hlen : k + len = num) :
    Chain next (some num) (some k) (List.range' k len) := by
  induction len generalizing k with
  | zero => exact congrArg some hlen
  | succ len ih =>
    rw [List.range'_succ]
    refine ⟨rfl, ?_⟩
    rw [h k (by omega)]
    exact ih (by omega)

theorem init_sound (num : ℕ) (next : ℕ → Option ℕ) :
    Sound num (List.range num) (init num next) := by
  refine ⟨Pool.start ?_, List.nodup_nil, fun _ hn => absurd hn List.not_mem_nil, ?_, ?_, ?_⟩
  · rw [List.range_eq_range']
    exact chain_range' (fun i hi => initLinks_eq next hi) (Nat.zero_add num)
  · rintro t n ⟨⟩
  · rintro t t' n ⟨⟩
  · rintro t n oldHead ⟨⟩

/-! ## Calls of `New` -/

section
variable {num : ℕ} {free rest : List ℕ} {s s' : Heap} {t n : ℕ}

theorem Sound.lt_of_live (h : Sound num free s) (hn : n ∈ s.live) : n < num :=
  List.mem_range.mp (h.pool.mem_of_live hn)

theorem Sound.newResult_iff (h : Sound num free s) {a : Action} (hfresh : Fresh num s a)
    {r : Option ℕ} (hr : newResult s a = some r) : r = none ↔ ∀ n < num, n ∈ s.live := by
  cases a with
  | new t =>
    rcases ht : s.threads t with _ | _ | _ | _ | _ | _
    all_goals simp only [newResult, ht, reduceCtorEq, if_neg h.headNode_ne_none] at hr
  | compareExchange t spurious =>
    rcases ht : s.threads t with _ | _ | ⟨oldHead, newHead⟩ | _ | _ | _
    all_goals simp only [newResult, ht, reduceCtorEq, Option.ite_none_right_eq_some,
      Option.some.injEq] at hr
    obtain ⟨⟨hhead, hgenuine⟩, rfl⟩ := hr
    cases oldHead with
    | none => exact absurd hhead h.headNode_ne_none
    | some node =>
      rw [Fresh, ht] at hfresh
      obtain ⟨rest, rfl, -⟩ := h.popped (t := t) hhead (hfresh ⟨hhead, hgenuine⟩).1
      refine iff_of_false (Option.some_ne_none node) fun hall => ?_
      have hnode := List.mem_range.mp (h.pool.mem_of_free List.mem_cons_self)
      exact h.pool.notMem_live List.nodup_range List.mem_cons_self (hall node hnode)
  | readNext t => cases hr
  | memset t => cases hr
  | delete t node => cases hr
  | writeNext t => cases hr
  | fill node word => cases hr

theorem run_cons {a : Action} {as : List Action} {r : Option Heap} (ha : step s a = some s')
    (hrun : run step s' as = r) : run step s (a :: as) = r := by
  rw [run, ha]
  exact hrun

theorem Sound.new (h : Sound num (n :: rest) s) (ht : s.threads t = .idle) :
    ∃ s', Sound num rest s' ∧ s'.threads t = .idle ∧ s'.held = n :: s.held ∧
      ∀ as r, run step s' as = r → Guarded step (Fresh num) s' as →
        run step s (.new t :: .readNext t :: .compareExchange t false :: .memset t :: as) = r ∧
        Guarded step (Fresh num) s
          (.new t :: .readNext t :: .compareExchange t false :: .memset t :: as) := by
  have hhead : s.headNode = some n := h.pool.chain.1
  have hn : n ≠ num := (List.mem_range.mp (h.pool.mem_of_free List.mem_cons_self)).ne
  -- The states in between.
  let s₁ := s.setThread t (.reading (some n))
  let s₂ := s₁.setThread t (.popping (some n) (s.next n))
  let s₃ := s₂.popped t (some n) (s.next n)
  have ht₁ : s₁.threads t = .reading (some n) := Function.update_self _ _ _
  have ht₂ : s₂.threads t = .popping (some n) (s.next n) := Function.update_self _ _ _
  have ht₃ : s₃.threads t = .clearing n := Function.update_self _ _ _
  have hstep₁ : step s (.new t) = some s₁ := by
    simp only [step, ht, hhead, reduceCtorEq, if_false]
    rfl
  have hstep₂ : step s₁ (.readNext t) = some s₂ := by
    simp only [step, ht₁]
    rfl
  have hstep₃ : step s₂ (.compareExchange t false) = some s₃ := by
    simp only [step, ht₂]
    exact if_pos ⟨hhead, trivial⟩
  have hstep₄ : step s₃ (.memset t) = some ((s₃.setNext n none).returned t n) := by
    simp only [step, ht₃]
  have hfresh₃ : Fresh num s₂ (.compareExchange t false) := by
    rw [Fresh, ht₂]
    exact fun _ => ⟨hn, rfl⟩
  have hsound₂ : Sound num (n :: rest) s₂ := by
    refine Sound.setThread (h.setThread ?_ ?_) ?_ ?_
    · rintro m ⟨⟩
    · rintro m oldHead ⟨⟩
    · rintro m ⟨⟩
    · rintro m oldHead ⟨⟩
  obtain ⟨rest', heq, hsound₃⟩ := hsound₂.popped (t := t) hhead hn
  cases heq
  refine ⟨_, hsound₃.cleared ht₃, Function.update_self _ _ _, rfl, ?_⟩
  intro as r hrun hguarded
  constructor
  · exact run_cons hstep₁ (run_cons hstep₂ (run_cons hstep₃ (run_cons hstep₄ hrun)))
  · exact Guarded.cons hstep₁ trivial (Guarded.cons hstep₂ trivial
      (Guarded.cons hstep₃ hfresh₃ (Guarded.cons hstep₄ trivial hguarded)))

theorem Sound.allocates (h : Sound num free s) (hn : n ∈ free) (ht : s.threads t = .idle) :
    ∃ as s', Guarded step (Fresh num) s as ∧ run step s as = some s' ∧ n ∈ s'.held := by
  induction free generalizing s with
  | nil => exact absurd hn List.not_mem_nil
  | cons m rest ih =>
    obtain ⟨s', hs', hidle, hheld, hrun⟩ := h.new ht
    rcases List.mem_cons.mp hn with rfl | hn
    · obtain ⟨hrun, hguarded⟩ := hrun [] _ rfl trivial
      exact ⟨_, s', hguarded, hrun, hheld ▸ List.mem_cons_self⟩
    · obtain ⟨as, u, hguarded, hends, hmem⟩ := ih hs' hn hidle
      obtain ⟨hrun, hguarded⟩ := hrun as _ hends hguarded
      exact ⟨_, u, hguarded, hrun, hmem⟩

end

/-! ## Runs -/

/-- In a run whose pops are fresh, the live allocations are distinct nodes of the buffer, a deleted
node and any other one that is not live can be allocated, and `New` returns `NULL` exactly where all
nodes are live. -/
theorem heap_sound {num : ℕ} {next : ℕ → Option ℕ} {as : List Action} {s : Heap}
    (hfresh : Guarded step (Fresh num) (init num next) as)
    (hrun : run step (init num next) as = some s) :
    (s.live.Nodup ∧ ∀ n ∈ s.live, n < num) ∧
    (∀ t n, s.threads t = .pushing n s.headNode → n < num ∧ n ∉ (s.pushed t n).live) ∧
    (∀ n < num, n ∉ s.live → ∀ t, s.threads t = .idle → ∃ bs s',
      Guarded step (Fresh num) s bs ∧ run step s bs = some s' ∧ n ∈ s'.held) ∧
    ∀ a r, Fresh num s a → newResult s a = some r → (r = none ↔ ∀ n < num, n ∈ s.live) := by
  have hsound : ∃ free, Sound num free s := by
    apply invariant_of_guarded (I := fun s => ∃ free, Sound num free s) _
      ⟨_, init_sound num next⟩ hfresh hrun
    rintro s a s' ⟨free, h⟩ hfresh hstep
    exact h.after hfresh hstep
  obtain ⟨free, h⟩ := hsound
  have hnodup := h.pool.nodup_live List.nodup_range
  refine ⟨⟨hnodup, fun n hn => h.lt_of_live hn⟩, ?_, ?_, ?_⟩
  · intro t n ht
    have hlive := (h.node_live t n (congrArg Thread.node ht)).1
    exact ⟨h.lt_of_live hlive, hnodup.not_mem_erase⟩
  · intro n hn hlive t ht
    have hfree := (h.pool.mem_or_mem (List.mem_range.mpr hn)).resolve_right hlive
    exact h.allocates hfree ht
  · exact fun a r hfresh hr => h.newResult_iff hfresh hr

def newCall (t : ℕ) : List Action := [.new t, .readNext t, .compareExchange t false, .memset t]

def deleteCall (t node : ℕ) : List Action :=
  [.delete t node, .writeNext t, .compareExchange t false]

/-- A node that has been deleted is allocated again. -/
theorem heap_sound_again : ∃ s : Heap,
    run step (init 1 fun _ => none) (newCall 0 ++ deleteCall 0 0 ++ newCall 1) = some s ∧
    s.live = [0] ∧ s.live.Nodup ∧ ∀ n ∈ s.live, n < 1 := by
  have hfresh : Guarded step (Fresh 1) (init 1 fun _ => none)
      (newCall 0 ++ deleteCall 0 0 ++ newCall 1) := by
    refine Guarded.cons rfl trivial (Guarded.cons rfl trivial (Guarded.cons rfl ?_ ?_))
    · exact fun _ => ⟨by decide, rfl⟩
    refine Guarded.cons rfl trivial (Guarded.cons rfl trivial (Guarded.cons rfl trivial ?_))
    refine Guarded.cons rfl trivial (Guarded.cons rfl trivial (Guarded.cons rfl trivial ?_))
    refine Guarded.cons rfl ?_ (Guarded.cons rfl trivial trivial)
    exact fun _ => ⟨by decide, rfl⟩
  have hlive : (run step (init 1 fun _ => none)
      (newCall 0 ++ deleteCall 0 0 ++ newCall 1)).map Heap.live = some [0] := by decide
  obtain ⟨s, hrun, hlive⟩ := Option.map_eq_some_iff.mp hlive
  exact ⟨s, hrun, hlive, (heap_sound hfresh hrun).1⟩

/-- The buffer has room for six. The seventh call, by the same thread, returns what lies behind it;
and a thread that is late pops a node whose successor has been allocated in between. -/
theorem heap_unsound :
    (¬ ∀ as s, run step (init 6 fun _ => none) as = some s → ∀ n ∈ s.live, n < 6) ∧
    ¬ ∀ as s, run step (init 6 fun _ => none) as = some s → s.live.Nodup := by
  have hseven : (run step (init 6 fun _ => none)
      (List.replicate 7 (newCall 0)).flatten).map Heap.live = some [6, 5, 4, 3, 2, 1, 0] := by
    decide
  have hlate : (run step (init 6 fun _ => none) ([.new 0, .readNext 0] ++ newCall 1 ++ newCall 1 ++
      deleteCall 1 0 ++ [.compareExchange 0 false, .memset 0] ++ newCall 1)).map Heap.live =
        some [1, 0, 1] := by decide
  constructor
  · intro h
    obtain ⟨s, hrun, hlive⟩ := Option.map_eq_some_iff.mp hseven
    exact absurd (h _ s hrun 6 (hlive ▸ List.mem_cons_self)) (Nat.lt_irrefl 6)
  · intro h
    obtain ⟨s, hrun, hlive⟩ := Option.map_eq_some_iff.mp hlate
    have hnodup := h _ s hrun
    rw [hlive] at hnodup
    exact absurd hnodup (by decide)

end Presence3DS.Pm.ExHeaderInfoHeap
