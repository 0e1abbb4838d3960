import Presence3DS.Lib.Runs
import Presence3DS.Rosalina.ServiceManager

/-! What `ServiceManager_Run` does for its sessions, read off its trace: which handler a request
goes to, who gets the reply, and what is closed and freed. -/

namespace Presence3DS.Rosalina.ServiceManager
open Kernel Ledger Runs SwapRemove

/-! ## Traces -/

section Trace
variable {H C : Type*}

namespace Action

/-- The handles that are opened and closed. -/
def handles : Action H C → List (Entry (Option H))
  | srvEnableNotification handle => [.take (some handle)]
  | srvRegisterService _ _ handle => [.take (some handle)]
  | svcCreatePort _ _ handle clientPort => [.take (some clientPort), .take (some handle)]
  | svcAcceptSession _ session _ => [.take (some session)]
  | svcCloseHandle handle => [.give handle]
  | _ => []

/-- The contexts that are made and freed. -/
def contexts : Action H C → List (Entry (Option C))
  | svcAcceptSession _ _ (some ctx) => [.take (some ctx)]
  | freeSessionContext ctx => [.give ctx]
  | _ => []

/-- Neither a request nor a reply. -/
def quiet : Action H C → Bool
  | command .. | reply _ => false
  | _ => true

/-- Nothing is opened, closed or freed. -/
def neutral : Action H C → Bool
  | srvSubscribe _ | reply _ | command .. | notification _ | srvUnsubscribe _
  | srvUnregisterService _ => true
  | _ => false

end Action

def handleEntries (trace : List (Action H C)) : List (Entry (Option H)) :=
  trace.flatMap Action.handles

def contextEntries (trace : List (Action H C)) : List (Entry (Option C)) :=
  trace.flatMap Action.contexts

/-- The service that an open session was opened on, and its context. -/
def sessionOf [DecidableEq H] (session : H) : List (Action H C) → Option (ℕ × Option C)
  | [] => none
  | .svcAcceptSession service session' ctx :: earlier =>
    if session' = session then some (service, ctx) else sessionOf session earlier
  | .svcCloseHandle handle :: earlier =>
    if handle = some session then none else sessionOf session earlier
  | _ :: earlier => sessionOf session earlier

/-- The session whose request was the last thing handled. -/
def replyDue : List (Action H C) → Option H
  | .command session _ _ :: _ => some session
  | _ => none

/-- A request is handled by the service that its session was opened on, with the context of the
session; the next thing done is the reply to that session, and there is no other reply. -/
def Served [DecidableEq H] : List (Action H C) → Prop
  | [] => True
  | .reply target :: earlier => replyDue earlier = some target ∧ Served earlier
  | .command session service ctx :: earlier =>
    (replyDue earlier = none ∧ sessionOf session earlier = some (service, ctx)) ∧ Served earlier
  | _ :: earlier => replyDue earlier = none ∧ Served earlier

/-- No request waits for its reply. -/
structure Idle [DecidableEq H] (trace : List (Action H C)) : Prop where
  served : Served trace
  due : replyDue trace = none

theorem Idle.cons [DecidableEq H] {trace : List (Action H C)} {a : Action H C} (h : Idle trace)
    (ha : a.quiet = true) : Idle (a :: trace) := by
  obtain ⟨hserved, hdue⟩ := h
  cases a with
  | command | reply => cases ha
  | _ => exact ⟨⟨hdue, hserved⟩, rfl⟩

theorem Idle.append [DecidableEq H] {trace l : List (Action H C)} (h : Idle trace)
    (hl : ∀ a ∈ l, a.quiet = true) : Idle (l ++ trace) := by
  induction l with
  | nil => exact h
  | cons a l ih =>
    obtain ⟨ha, hl⟩ := List.forall_mem_cons.mp hl
    exact (ih hl).cons ha

theorem sessionOf_neutral [DecidableEq H] {a : Action H C} (ha : a.neutral = true) (session : H)
    (trace : List (Action H C)) : sessionOf session (a :: trace) = sessionOf session trace := by
  cases a <;> first | rfl | cases ha

theorem handles_neutral {a : Action H C} (ha : a.neutral = true) : a.handles = [] := by
  cases a <;> first | rfl | cases ha

theorem contexts_neutral {a : Action H C} (ha : a.neutral = true) : a.contexts = [] := by
  cases a <;> first | rfl | cases ha

theorem handleEntries_cons (a : Action H C) (trace : List (Action H C)) :
    handleEntries (a :: trace) = a.handles ++ handleEntries trace := List.flatMap_cons

theorem contextEntries_cons (a : Action H C) (trace : List (Action H C)) :
    contextEntries (a :: trace) = a.contexts ++ contextEntries trace := List.flatMap_cons

theorem handleEntries_append {l : List (Action H C)} (h : ∀ a ∈ l, a.handles = [])
    (trace : List (Action H C)) : handleEntries (l ++ trace) = handleEntries trace := by
  rw [handleEntries, List.flatMap_append, List.flatMap_eq_nil_iff.mpr h]
  rfl

theorem contextEntries_append {l : List (Action H C)} (h : ∀ a ∈ l, a.contexts = [])
    (trace : List (Action H C)) : contextEntries (l ++ trace) = contextEntries trace := by
  rw [contextEntries, List.flatMap_append, List.flatMap_eq_nil_iff.mpr h]
  rfl

theorem entries_give {α β : Type*} {f : β → Action H C} {g : Action H C → List (Entry α)}
    {e : β → α} (h : ∀ b, g (f b) = [.give (e b)]) (l : List β) (trace : List (Action H C)) :
    ((l.map f).reverse ++ trace).flatMap g =
      ((l.map e).map .give).reverse ++ trace.flatMap g := by
  rw [List.flatMap_append, ← List.map_reverse, List.flatMap_map, List.map_map,
    ← List.map_reverse, List.map_eq_flatMap]
  congr 2
  funext b
  exact h b

theorem unregisterServices_quiet (t : Tables) :
    ∀ a ∈ (unregisterServices t : List (Action H C)), a.neutral = true ∧ a.quiet = true := by
  intro a ha
  obtain ⟨service, -, rfl⟩ := List.mem_map.mp (List.mem_reverse.mp ha)
  exact ⟨rfl, rfl⟩

theorem freeContexts_quiet (t : Tables) (s : State H C) :
    ∀ a ∈ freeContexts t s, a.handles = [] ∧ a.quiet = true := by
  intro a ha
  unfold freeContexts at ha
  split_ifs at ha
  · obtain ⟨ctx, -, rfl⟩ := List.mem_map.mp (List.mem_reverse.mp ha)
    exact ⟨rfl, rfl⟩
  · cases ha

theorem closeHandles_quiet (s : State H C) :
    ∀ a ∈ closeHandles s, a.contexts = [] ∧ a.quiet = true := by
  intro a ha
  obtain ⟨handle, -, rfl⟩ := List.mem_map.mp (List.mem_reverse.mp ha)
  exact ⟨rfl, rfl⟩

end Trace

/-- What the function is to do. -/
structure Lawful {H C : Type*} [DecidableEq H] [DecidableEq C] (s : State H C) : Prop where
  served : Served s.trace
  released : ∀ res, s.pc = .returned res → replyDue s.trace = none ∧
    Settled (handleEntries s.trace) ∧ Settled (contextEntries s.trace)

/-! ## What is held -/

section Held
variable {H C : Type*} [DecidableEq H] [DecidableEq C] {t : Tables} {s : State H C}

/-- What is open and not freed is what the arrays hold. -/
structure Owned (t : Tables) (s : State H C) : Prop where
  handles : outstanding (handleEntries s.trace) = some (s.waitHandles : Multiset (Option H))
  contexts : outstanding (contextEntries s.trace) =
    some (if t.allocator then (s.ctxs : Multiset (Option C)) else 0)

/-- All handles are closed, and the contexts are still to be freed. -/
structure Closed (t : Tables) (s : State H C) : Prop where
  handles : Settled (handleEntries s.trace)
  contexts : outstanding (contextEntries s.trace) =
    some (if t.allocator then (s.ctxs : Multiset (Option C)) else 0)
  idle : Idle s.trace

structure Released (s : State H C) : Prop where
  handles : Settled (handleEntries s.trace)
  contexts : Settled (contextEntries s.trace)
  idle : Idle s.trace

theorem Closed.finish (h : Closed t s) (res : Result) : Released (finish t s res) := by
  have hunregister := unregisterServices_quiet (H := H) (C := C) t
  have hfree := freeContexts_quiet t s
  have hhandles : handleEntries (unregisterServices t ++ s.trace) = handleEntries s.trace :=
    handleEntries_append (fun a ha => handles_neutral (hunregister a ha).1) s.trace
  have hcontexts : contextEntries (unregisterServices t ++ s.trace) = contextEntries s.trace :=
    contextEntries_append (fun a ha => contexts_neutral (hunregister a ha).1) s.trace
  constructor
  · show Settled (handleEntries (freeContexts t s ++ (unregisterServices t ++ s.trace)))
    rw [handleEntries_append (fun a ha => (hfree a ha).1), hhandles]
    exact h.handles
  · show Settled (contextEntries (freeContexts t s ++ (unregisterServices t ++ s.trace)))
    have howned := h.contexts
    rw [← hcontexts] at howned
    unfold freeContexts
    split_ifs with hallocator
    · rw [if_pos hallocator, ← Multiset.add_zero (s.ctxs : Multiset (Option C))] at howned
      rw [contextEntries, entries_give (e := id) fun _ => rfl, List.map_id]
      exact outstanding_giveAll howned
    · rw [if_neg hallocator] at howned
      exact howned
  · exact (h.idle.append fun a ha => (hunregister a ha).2).append fun a ha => (hfree a ha).2

def Exiting (t : Tables) (s : State H C) : Prop :=
  match s.pc with
  | .unsubscribe _ => Closed t s
  | .returned _ => Released s
  | _ => False

theorem Closed.unsubscribe (h : Closed t s) (ids : List (BitVec 32)) (res : Result) :
    Exiting t (unsubscribe t s ids res) := by
  cases ids with
  | nil => exact h.finish res
  | cons => exact ⟨h.handles, h.contexts, h.idle⟩

theorem Owned.cleanup (h : Owned t s) (hidle : Idle s.trace) (res : Result) :
    Exiting t (cleanup t s res) := by
  have hclose := closeHandles_quiet s
  refine Closed.unsubscribe ⟨?_, ?_, hidle.append fun a ha => (hclose a ha).2⟩ _ res
  · show Settled (handleEntries (closeHandles s ++ s.trace))
    have howned := h.handles
    rw [← Multiset.add_zero (s.waitHandles : Multiset (Option H))] at howned
    rw [handleEntries, closeHandles, entries_give (e := id) fun _ => rfl, List.map_id]
    exact outstanding_giveAll howned
  · show outstanding (contextEntries (closeHandles s ++ s.trace)) = _
    rw [contextEntries_append fun a ha => (hclose a ha).1]
    exact h.contexts

/-! ## The sessions -/

structure Session (H C : Type*) where
  handle : H
  service : ℕ
  ctx : Option C

/-- The three arrays hold the same sessions in the same order, and each of them as it was opened. -/
structure Tracked (t : Tables) (s : State H C) (base : List H) (sessions : List (Session H C)) :
    Prop where
  owned : Owned t s
  size : base.length = 1 + t.numServices
  waitHandles : s.waitHandles = base.map some ++ sessions.map fun x => some x.handle
  handlerIds : s.handlerIds = sessions.map fun x => UInt8.ofNat x.service
  ctxs : s.ctxs = sessions.map Session.ctx
  small : ∀ x ∈ sessions, x.service < 256
  nodup : (sessions.map Session.handle).Nodup
  known : ∀ x ∈ sessions, sessionOf x.handle s.trace = some (x.service, x.ctx)

namespace Tracked
variable {base : List H} {sessions : List (Session H C)}

theorem length_base (h : Tracked t s base sessions) :
    (base.map some).length = 1 + t.numServices := (List.length_map _).trans h.size

theorem getElem?_waitHandles (h : Tracked t s base sessions) (off : ℕ) :
    s.waitHandles[1 + t.numServices + off]? = (sessions[off]?).map fun x => some x.handle := by
  rw [h.waitHandles, List.getElem?_append_right (h.length_base.trans_le (Nat.le_add_right _ _)),
    h.length_base, Nat.add_sub_cancel_left, List.getElem?_map]

theorem getElem?_handlerIds (h : Tracked t s base sessions) (off : ℕ) :
    s.handlerIds[off]? = (sessions[off]?).map fun x => UInt8.ofNat x.service := by
  rw [h.handlerIds, List.getElem?_map]

theorem getElem?_ctxs (h : Tracked t s base sessions) (off : ℕ) :
    s.ctxs[off]? = (sessions[off]?).map Session.ctx := by
  rw [h.ctxs, List.getElem?_map]

theorem setTarget (h : Tracked t s base sessions) (replyTarget : Option H) :
    Tracked t { s with replyTarget } base sessions :=
  { h with owned := ⟨h.owned.handles, h.owned.contexts⟩ }

theorem log {a : Action H C} (h : Tracked t s base sessions) (ha : a.neutral = true) :
    Tracked t (s.log a) base sessions := by
  refine { h with owned := ⟨?_, ?_⟩, known := fun x hx => ?_ }
  · show outstanding (handleEntries (a :: s.trace)) = _
    rw [handleEntries_cons, handles_neutral ha]
    exact h.owned.handles
  · show outstanding (contextEntries (a :: s.trace)) = _
    rw [contextEntries_cons, contexts_neutral ha]
    exact h.owned.contexts
  · exact (sessionOf_neutral ha x.handle s.trace).trans (h.known x hx)

omit [DecidableEq H] [DecidableEq C] in
theorem coe_swapRemove {α : Type*} {l : List α} {i : ℕ} {a : α} (h : l[i]? = some a) :
    (l : Multiset α) = a ::ₘ (swapRemove l i : Multiset α) := by
  obtain ⟨hlt, ha⟩ := List.getElem?_eq_some_iff.mp h
  rw [Multiset.cons_coe, Multiset.coe_eq_coe, ← ha]
  exact perm_cons_swapRemove hlt

theorem closeSession {s' : State H C} {off : ℕ} (h : Tracked t s base sessions)
    (hidle : Idle s.trace) (hs : closeSession t s (1 + t.numServices + off) = some s') :
    Tracked t s' base (swapRemove sessions off) ∧ Idle s'.trace ∧ s'.replyTarget = none ∧
      s'.pc = s.pc := by
  have hoff : 1 + t.numServices + off - 1 - t.numServices = off := by omega
  unfold ServiceManager.closeSession at hs
  rw [h.getElem?_waitHandles, hoff, h.getElem?_ctxs] at hs
  cases hx : sessions[off]? with
  | none => rw [hx] at hs; cases hs
  | some x =>
    rw [hx] at hs
    cases hs
    obtain ⟨hlt, hxoff⟩ := List.getElem?_eq_some_iff.mp hx
    have hperm := perm_cons_swapRemove hlt
    rw [hxoff] at hperm
    have hnodup : x.handle ∉ (swapRemove sessions off).map Session.handle ∧
        ((swapRemove sessions off).map Session.handle).Nodup :=
      List.nodup_cons.mp ((hperm.map Session.handle).nodup_iff.mp h.nodup)
    have hmem : ∀ y ∈ swapRemove sessions off, y ∈ sessions := fun y hy =>
      hperm.mem_iff.mpr (List.mem_cons_of_mem _ hy)
    have hhandle : s.waitHandles[1 + t.numServices + off]? = some (some x.handle) := by
      rw [h.getElem?_waitHandles, hx]
      rfl
    have hctx : s.ctxs[off]? = some x.ctx := by
      rw [h.getElem?_ctxs, hx]
      rfl
    have hclosed : outstanding (.give (some x.handle) :: handleEntries s.trace) =
        some (swapRemove s.waitHandles (1 + t.numServices + off) : Multiset (Option H)) := by
      apply outstanding_give
      rw [← coe_swapRemove hhandle]
      exact h.owned.handles
    have hknown : ∀ y ∈ swapRemove sessions off,
        sessionOf y.handle (.svcCloseHandle (some x.handle) :: s.trace) =
          some (y.service, y.ctx) := by
      intro y hy
      have hne : some x.handle ≠ some y.handle := by
        intro heq
        rw [Option.some.inj heq] at hnodup
        exact hnodup.1 (List.mem_map_of_mem hy)
      rw [sessionOf, if_neg hne]
      exact h.known y (hmem y hy)
    have hclosedIdle : Idle (.svcCloseHandle (some x.handle) :: s.trace) := hidle.cons rfl
    have hwaitHandles : swapRemove s.waitHandles (1 + t.numServices + off) =
        base.map some ++ (swapRemove sessions off).map fun x => some x.handle := by
      rw [h.waitHandles, ← h.length_base, swapRemove_append ((List.length_map _).symm ▸ hlt),
        swapRemove_map]
    have hhandlerIds : swapRemove s.handlerIds off =
        (swapRemove sessions off).map fun x => UInt8.ofNat x.service := by
      rw [h.handlerIds, swapRemove_map]
    have hctxs : swapRemove s.ctxs off = (swapRemove sessions off).map Session.ctx := by
      rw [h.ctxs, swapRemove_map]
    have hsmall : ∀ y ∈ swapRemove sessions off, y.service < 256 := fun y hy =>
      h.small y (hmem y hy)
    have howned := h.owned.contexts
    cases hallocator : t.allocator with
    | true =>
      rw [if_pos hallocator, coe_swapRemove hctx] at howned
      refine ⟨⟨⟨hclosed, ?_⟩, h.size, hwaitHandles, hhandlerIds, hctxs, hsmall, hnodup.2, hknown⟩,
        hclosedIdle.cons rfl, rfl, rfl⟩
      rw [if_pos hallocator]
      exact outstanding_give howned
    | false =>
      refine ⟨⟨⟨hclosed, ?_⟩, h.size, hwaitHandles, hhandlerIds, hctxs, hsmall, hnodup.2, hknown⟩,
        hclosedIdle, rfl, rfl⟩
      rw [if_neg (Bool.eq_false_iff.mp hallocator)] at howned ⊢
      exact howned

theorem accept {id : ℕ} {session : H} {newSessionContext : Option C}
    (h : Tracked t s base sessions) (hid : id ≤ 256) (hfresh : some session ∉ s.waitHandles)
    (hnew : t.allocator = true → newSessionContext ≠ none) :
    ∃ sessions', Tracked t { s with
      waitHandles := s.waitHandles ++ [some session]
      handlerIds := s.handlerIds ++ [UInt8.ofNat (id - 1)]
      ctxs := s.ctxs ++ [if t.allocator then newSessionContext else none]
      trace := .svcAcceptSession (id - 1) session
        (if t.allocator then newSessionContext else none) :: s.trace } base sessions' := by
  have hne : ∀ x ∈ sessions, session ≠ x.handle := by
    rintro x hx rfl
    apply hfresh
    rw [h.waitHandles]
    exact List.mem_append_right _ (List.mem_map_of_mem (f := fun x => some x.handle) hx)
  refine ⟨sessions ++ [⟨session, id - 1, if t.allocator then newSessionContext else none⟩],
    ⟨?_, ?_⟩, h.size, ?_, ?_, ?_, ?_, ?_, ?_⟩
  · show outstanding (.take (some session) :: handleEntries s.trace) = _
    rw [outstanding_take h.owned.handles, Multiset.cons_coe, Option.some.injEq,
      Multiset.coe_eq_coe]
    exact (List.perm_append_singleton _ _).symm
  · have howned := h.owned.contexts
    cases hallocator : t.allocator with
    | true =>
      obtain ⟨ctx, rfl⟩ := Option.ne_none_iff_exists'.mp (hnew hallocator)
      rw [if_pos hallocator] at howned
      show outstanding (.take (some ctx) :: contextEntries s.trace) =
        some ((s.ctxs ++ [some ctx] : List (Option C)) : Multiset (Option C))
      rw [outstanding_take howned, Multiset.cons_coe, Option.some.injEq, Multiset.coe_eq_coe]
      exact (List.perm_append_singleton _ _).symm
    | false =>
      rw [if_neg (Bool.eq_false_iff.mp hallocator)] at howned
      exact howned
  · rw [h.waitHandles, List.append_assoc, List.map_append]
    rfl
  · rw [h.handlerIds, List.map_append]
    rfl
  · rw [h.ctxs, List.map_append]
    rfl
  · intro x hx
    obtain hx | hx := List.mem_append.mp hx
    · exact h.small x hx
    · rw [List.mem_singleton.mp hx]
      show id - 1 < 256
      omega
  · rw [List.map_append, List.nodup_append]
    refine ⟨h.nodup, List.nodup_singleton _, fun handle hhandle handle' hhandle' => ?_⟩
    obtain ⟨x, hx, rfl⟩ := List.mem_map.mp hhandle
    rw [List.mem_singleton.mp hhandle']
    exact (hne x hx).symm
  · intro x hx
    obtain hx | hx := List.mem_append.mp hx
    · show sessionOf x.handle (.svcAcceptSession _ session _ :: s.trace) = _
      rw [sessionOf, if_neg (hne x hx)]
      exact h.known x hx
    · rw [List.mem_singleton.mp hx]
      show sessionOf session (.svcAcceptSession _ session _ :: s.trace) = _
      rw [sessionOf, if_pos rfl]

end Tracked

structure Serving (t : Tables) (s : State H C) (base : List H) (sessions : List (Session H C)) :
    Prop extends Tracked t s base sessions where
  served : Served s.trace
  due : replyDue s.trace = s.replyTarget
  target : ∀ session, s.replyTarget = some session → session ∈ sessions.map Session.handle

/-- The handles are set up to the unset ones at the end. -/
structure SettingUp (t : Tables) (s : State H C) (base : List H) (unset : ℕ) : Prop where
  size : base.length + unset = 1 + t.numServices
  waitHandles : s.waitHandles = base.map some ++ List.replicate unset none
  handlerIds : s.handlerIds = []
  ctxs : s.ctxs = []
  replyTarget : s.replyTarget = none
  handles : outstanding (handleEntries s.trace) = some (base.map some : Multiset (Option H))
  contexts : outstanding (contextEntries s.trace) = some 0
  idle : Idle s.trace

def Inv (t : Tables) (s : State H C) : Prop :=
  match s.pc with
  | .enableNotification => SettingUp t s [] (1 + t.numServices)
  | .subscribe _ => ∃ base unset, base.length = 1 ∧ SettingUp t s base unset
  | .register i => ∃ base unset, base.length = 1 + i ∧ SettingUp t s base unset
  | .loop => ∃ base sessions, Serving t s base sessions
  | .unsubscribe _ => Closed t s
  | .returned _ => Released s

theorem Exiting.inv (h : Exiting t s) : Inv t s := by
  unfold Exiting at h
  unfold Inv
  cases hpc : s.pc with
  | unsubscribe | returned =>
    rw [hpc] at h
    exact h
  | _ =>
    rw [hpc] at h
    exact h.elim

section Loop
variable {base : List H} {sessions : List (Session H C)} {s' : State H C}

theorem Tracked.serving (h : Tracked t s base sessions) (hidle : Idle s.trace)
    (htarget : s.replyTarget = none) : Serving t s base sessions := by
  refine ⟨h, hidle.served, hidle.due.trans htarget.symm, fun session hsession => ?_⟩
  rw [htarget] at hsession
  cases hsession

theorem Serving.inv (h : Serving t s base sessions) (hpc : s.pc = .loop) : Inv t s := by
  unfold Inv
  rw [hpc]
  exact ⟨base, sessions, h⟩

theorem Serving.sent (h : Serving t s base sessions) :
    Tracked t { s with trace := s.replyTarget.toList.map .reply ++ s.trace } base sessions ∧
      Idle (s.replyTarget.toList.map .reply ++ s.trace) := by
  cases htarget : s.replyTarget with
  | none => exact ⟨{ h.toTracked with owned := ⟨h.owned.handles, h.owned.contexts⟩ }, h.served, h.due.trans htarget⟩
  | some target =>
    have hlog := h.toTracked.log (a := .reply target) rfl
    exact ⟨{ hlog with owned := ⟨hlog.owned.handles, hlog.owned.contexts⟩ },
      ⟨h.due.trans htarget, h.served⟩, rfl⟩

theorem Serving.closedIndex (h : Serving t s base sessions) {id : Option ℕ}
    (hnone : id = none → s.replyTarget ≠ none)
    (hsome : ∀ i ∈ id, 1 + t.numServices ≤ i) :
    ∃ off, closedIndex t s id = some (1 + t.numServices + off) := by
  cases id with
  | some i =>
    obtain ⟨off, rfl⟩ := Nat.exists_eq_add_of_le (hsome i rfl)
    exact ⟨off, if_neg (Nat.not_lt.mpr (hsome _ rfl))⟩
  | none =>
    obtain ⟨target, htarget⟩ := Option.ne_none_iff_exists'.mp (hnone rfl)
    obtain ⟨x, hx, hhandle⟩ := List.mem_map.mp (h.target target htarget)
    have hdrop : s.waitHandles.drop (1 + t.numServices) =
        sessions.map fun x => some x.handle := by
      rw [h.waitHandles, ← h.length_base, List.drop_left]
    have hfound : ((s.waitHandles.drop (1 + t.numServices)).findIdx?
        (· = some target)).isSome = true := by
      rw [hdrop, List.findIdx?_isSome, List.any_eq_true]
      exact ⟨_, List.mem_map_of_mem hx, decide_eq_true (congrArg some hhandle)⟩
    obtain ⟨off, hoff⟩ := Option.isSome_iff_exists.mp hfound
    refine ⟨off, ?_⟩
    rw [ServiceManager.closedIndex, htarget, Option.bind_some, hoff]
    rfl

theorem Tracked.receiveNotification (h : Tracked t s base sessions) (hidle : Idle s.trace)
    (htarget : s.replyTarget = none) (hpc : s.pc = .loop) (res : Result) (id : BitVec 32) :
    Inv t (receiveNotification t s res id) := by
  unfold ServiceManager.receiveNotification
  split_ifs
  · exact (h.owned.cleanup hidle res).inv
  · exact ((h.log rfl).owned.cleanup (hidle.cons rfl) res).inv
  · exact ((h.log rfl).serving (hidle.cons rfl) htarget).inv hpc
  · exact (h.owned.cleanup hidle res).inv
  · exact (h.serving hidle htarget).inv hpc

theorem Tracked.serviceCommand {id : ℕ} (h : Tracked t s base sessions) (hidle : Idle s.trace)
    (hpc : s.pc = .loop) (hid : 1 + t.numServices ≤ id)
    (hs : serviceCommand t s id = some s') : Inv t s' := by
  obtain ⟨off, rfl⟩ := Nat.exists_eq_add_of_le hid
  have hoff : 1 + t.numServices + off - 1 - t.numServices = off := by omega
  unfold ServiceManager.serviceCommand at hs
  rw [h.getElem?_waitHandles, hoff, h.getElem?_handlerIds, h.getElem?_ctxs] at hs
  cases hx : sessions[off]? with
  | none => rw [hx] at hs; cases hs
  | some x =>
    rw [hx] at hs
    cases hs
    have hmem := List.mem_of_getElem? hx
    have hknown := h.known x hmem
    rw [← UInt8.toNat_ofNat_of_lt' (h.small x hmem)] at hknown
    have hlog := h.log (a := .command x.handle (UInt8.ofNat x.service).toNat x.ctx) rfl
    have hserving : Serving t { s with
        replyTarget := some x.handle
        trace := .command x.handle (UInt8.ofNat x.service).toNat x.ctx :: s.trace }
        base sessions := by
      refine ⟨hlog.setTarget (some x.handle), ⟨⟨hidle.due, hknown⟩, hidle.served⟩, rfl, ?_⟩
      intro session hsession
      rw [← Option.some.inj hsession]
      exact List.mem_map_of_mem hmem
    exact hserving.inv hpc

theorem Tracked.acceptSession {id : ℕ} {res : Result} {session : H} {newSessionContext : Option C}
    (h : Tracked t s base sessions) (hidle : Idle s.trace) (htarget : s.replyTarget = none)
    (hpc : s.pc = .loop)
    (hid : rFailed res = false → id ≤ 256 ∧ (t.allocator = true → newSessionContext ≠ none))
    (hs : acceptSession t s id res session newSessionContext = some s') : Inv t s' := by
  unfold ServiceManager.acceptSession at hs
  split at hs
  · cases hs
    exact (h.owned.cleanup hidle res).inv
  next hres =>
  obtain ⟨hsmall, hnewContext⟩ := hid (Bool.eq_false_iff.mpr hres)
  split at hs
  · cases hs
  next hfull =>
  obtain ⟨hfresh, -⟩ := not_or.mp hfull
  split at hs
  · next hnew =>
    obtain ⟨hallocator, hnone⟩ := Bool.and_eq_true_iff.mp hnew
    exact absurd (Option.isNone_iff_eq_none.mp hnone) (hnewContext hallocator)
  · cases hs
    obtain ⟨sessions', haccept⟩ := h.accept hsmall hfresh hnewContext
    exact (haccept.serving (hidle.cons rfl) htarget).inv hpc

/-! ## The condition -/

/-- No call fails while a wait handle is unset, and none fails that ends a pass of the loop with a
direct return or that makes `cleanup` start again; and there is no session of a service whose
number does not fit its handler id. -/
def Tame (t : Tables) (s : State H C) : Event H C → Prop
  | .srvEnableNotification res _ => rFailed res = true → none ∉ s.waitHandles
  | .srvSubscribe res => rFailed res = true → none ∉ s.waitHandles
  | .register res _ _ => rFailed res = true → none ∉ s.waitHandles
  | .pass a =>
    (a.res = sessionClosed → (a.id = none → s.replyTarget ≠ none) ∧
      ∀ id ∈ a.id, 1 + t.numServices ≤ id) ∧
    (a.res ≠ sessionClosed → rFailed a.res = false) ∧
    (∀ id ∈ a.id, id ≠ 0 → id < 1 + t.numServices → rFailed a.svcAcceptSession.1 = false →
      id ≤ 256 ∧ (t.allocator = true → a.newSessionContext ≠ none))
  | .srvUnsubscribe res => rFailed res = false

instance (t : Tables) (s : State H C) : DecidablePred (Tame t s)
  | .srvEnableNotification _ _ | .srvSubscribe _ | .register _ _ _ =>
    inferInstanceAs (Decidable (_ → _))
  | .pass _ => inferInstanceAs (Decidable (_ ∧ _))
  | .srvUnsubscribe _ => inferInstanceAs (Decidable (_ = _))

theorem Serving.pass {a : Answers H C} (h : Serving t s base sessions) (hpc : s.pc = .loop)
    (hC : Tame t s (.pass a)) (hs : pass t s a = some s') : Inv t s' := by
  obtain ⟨hclosed, hfailed, haccept⟩ := hC
  obtain ⟨hsent, hidle⟩ := h.sent
  unfold ServiceManager.pass at hs
  dsimp only at hs
  split at hs
  · next hres =>
    obtain ⟨hnone, hsome⟩ := hclosed hres
    obtain ⟨off, hoff⟩ := h.closedIndex hnone hsome
    rw [hoff] at hs
    obtain ⟨htracked, hidle, htarget, hsame⟩ := hsent.closeSession hidle hs
    exact (htracked.serving hidle htarget).inv (hsame.trans hpc)
  next hres =>
  rw [if_neg (Bool.eq_false_iff.mp (hfailed hres))] at hs
  obtain ⟨id, hid, hs⟩ := Option.bind_eq_some_iff.mp hs
  have hreceived := hsent.setTarget none
  split at hs
  · cases hs
    exact hreceived.receiveNotification hidle rfl hpc _ _
  next hzero =>
  split at hs
  · next hlt => exact hreceived.acceptSession hidle rfl hpc (haccept id hid hzero hlt) hs
  · next hge => exact hreceived.serviceCommand hidle hpc (Nat.le_of_not_lt hge) hs

end Loop

/-! ## The way in -/

namespace SettingUp
variable {base : List H} {unset : ℕ}

theorem init (t : Tables) :
    SettingUp t (ServiceManager.init t : State H C) [] (1 + t.numServices) :=
  ⟨Nat.zero_add _, rfl, rfl, rfl, rfl, rfl, rfl, trivial, rfl⟩

theorem owned (h : SettingUp t s base 0) : Owned t s := by
  constructor
  · rw [h.waitHandles, List.replicate_zero, List.append_nil]
    exact h.handles
  · rw [h.ctxs, h.contexts]
    split_ifs <;> rfl

theorem cleanup (h : SettingUp t s base unset) (hset : none ∉ s.waitHandles) (res : Result) :
    Inv t (cleanup t s res) := by
  cases unset with
  | zero => exact (h.owned.cleanup h.idle res).inv
  | succ unset =>
    rw [h.waitHandles] at hset
    exact (hset (List.mem_append_right _ List.mem_cons_self)).elim

theorem log {a : Action H C} (h : SettingUp t s base unset) (ha : a.neutral = true)
    (hquiet : a.quiet = true) : SettingUp t (s.log a) base unset := by
  refine { h with handles := ?_, contexts := ?_, idle := h.idle.cons hquiet }
  · show outstanding (handleEntries (a :: s.trace)) = _
    rw [handleEntries_cons, handles_neutral ha]
    exact h.handles
  · show outstanding (contextEntries (a :: s.trace)) = _
    rw [contextEntries_cons, contexts_neutral ha]
    exact h.contexts

theorem register {i : ℕ} (h : SettingUp t s base unset) (hi : base.length = 1 + i) :
    Inv t (register t s i) := by
  by_cases hlt : i < t.numServices
  · rw [ServiceManager.register, if_pos hlt]
    exact ⟨base, unset, hi, { h with idle := h.idle }⟩
  · have hunset : unset = 0 := by
      have hsize := h.size
      omega
    subst hunset
    have hwaitHandles : s.waitHandles =
        base.map some ++ ([] : List (Session H C)).map fun x => some x.handle := h.waitHandles
    have htracked : Tracked t { s with pc := .loop } base [] :=
      ⟨⟨h.owned.handles, h.owned.contexts⟩, h.size, hwaitHandles, h.handlerIds, h.ctxs,
        fun _ hx => (List.not_mem_nil hx).elim, List.nodup_nil,
        fun _ hx => (List.not_mem_nil hx).elim⟩
    rw [ServiceManager.register, if_neg hlt]
    exact (htracked.serving h.idle h.replyTarget).inv rfl

theorem subscribe (h : SettingUp t s base unset) (hbase : base.length = 1)
    (ids : List (BitVec 32)) : Inv t (subscribe t s ids) := by
  cases ids with
  | nil => exact h.register hbase
  | cons id ids => exact ⟨base, unset, hbase, { h with idle := h.idle }⟩

theorem set {handle : H} (trace : List (Action H C)) (h : SettingUp t s base (unset + 1))
    (hhandles : outstanding (handleEntries trace) =
      some (some handle ::ₘ (base.map some : Multiset (Option H))))
    (hcontexts : contextEntries trace = contextEntries s.trace) (hidle : Idle trace) :
    SettingUp t { s with waitHandles := s.waitHandles.set base.length (some handle), trace }
      (base ++ [handle]) unset := by
  have hsize := h.size
  refine ⟨?_, ?_, h.handlerIds, h.ctxs, h.replyTarget, ?_, ?_, hidle⟩
  · rw [List.length_append, List.length_singleton]
    omega
  · show s.waitHandles.set base.length (some handle) = _
    rw [h.waitHandles, List.set_append_right _ _ (List.length_map _).le, List.length_map,
      Nat.sub_self, List.map_append, List.append_assoc]
    rfl
  · show outstanding (handleEntries trace) = _
    rw [hhandles, Multiset.cons_coe, Option.some.injEq, Multiset.coe_eq_coe, List.map_append]
    exact (List.perm_append_singleton _ _).symm
  · show outstanding (contextEntries trace) = _
    rw [hcontexts]
    exact h.contexts

theorem unset_pos (h : SettingUp t s base unset) {i : ℕ} (hbase : base.length = 1 + i)
    (hi : i < t.numServices) : ∃ left, unset = left + 1 := by
  have hsize := h.size
  exact ⟨unset - 1, by omega⟩

theorem registerService {i : ℕ} {res : Result} {handle clientPort : H} {s' : State H C}
    (h : SettingUp t s base unset) (hbase : base.length = 1 + i)
    (hC : rFailed res = true → none ∉ s.waitHandles)
    (hs : registerService t s i res handle clientPort = some s') : Inv t s' := by
  obtain ⟨service, hservice, rfl⟩ := Option.map_eq_some_iff.mp hs
  obtain ⟨unset, rfl⟩ := h.unset_pos hbase (List.getElem?_eq_some_iff.mp hservice).1
  split
  · next hres => exact h.cleanup (hC hres) res
  have hlength : (base ++ [handle]).length = 1 + (i + 1) := by
    rw [List.length_append, hbase]
    rfl
  have htake := outstanding_take (a := some handle) h.handles
  dsimp only
  rw [← hbase]
  split
  · have hset := h.set (.svcCloseHandle (some clientPort) ::
      .svcCreatePort service.name service.maxSessions handle clientPort :: s.trace)
      (outstanding_give (outstanding_take htake)) rfl ((h.idle.cons rfl).cons rfl)
    exact hset.register hlength
  · have hset := h.set (.srvRegisterService service.name service.maxSessions handle ::
      s.trace) htake rfl (h.idle.cons rfl)
    exact hset.register hlength

end SettingUp

theorem Inv.step {s' : State H C} {e : Event H C} (h : Inv t s) (hC : Tame t s e)
    (hs : step t s e = some s') : Inv t s' := by
  unfold Inv at h
  cases e with
  | srvEnableNotification res handle =>
    rw [ServiceManager.step] at hs
    split at hs
    · next hpc =>
      rw [hpc] at h
      cases hs
      split
      · next hres => exact h.cleanup (hC hres) res
      · have hunset : 1 + t.numServices = t.numServices + 1 := Nat.add_comm _ _
        rw [hunset] at h
        have hset := h.set (.srvEnableNotification handle :: s.trace)
          (outstanding_take h.handles) rfl (h.idle.cons rfl)
        exact hset.subscribe rfl t.subscriptions
    · cases hs
  | srvSubscribe res =>
    rw [ServiceManager.step] at hs
    split at hs
    · next hpc =>
      rw [hpc] at h
      obtain ⟨base, unset, hbase, h⟩ := h
      cases hs
      split
      · next hres => exact h.cleanup (hC hres) res
      · exact (h.log rfl rfl).subscribe hbase _
    · cases hs
  | register res handle clientPort =>
    rw [ServiceManager.step] at hs
    split at hs
    · next hpc =>
      rw [hpc] at h
      obtain ⟨base, unset, hbase, h⟩ := h
      exact h.registerService hbase hC hs
    · cases hs
  | pass a =>
    rw [ServiceManager.step] at hs
    split at hs
    · next hpc =>
      rw [hpc] at h
      obtain ⟨base, sessions, h⟩ := h
      exact h.pass hpc hC hs
    · cases hs
  | srvUnsubscribe res =>
    rw [ServiceManager.step] at hs
    split at hs
    · next id ids hpc =>
      rw [hpc] at h
      have hok : rFailed res = false := hC
      rw [if_neg (Bool.eq_false_iff.mp hok)] at hs
      cases hs
      have hlog : Closed t (s.log (.srvUnsubscribe id)) :=
        ⟨h.handles, h.contexts, h.idle.cons rfl⟩
      exact (hlog.unsubscribe ids res).inv
    · cases hs

theorem Inv.lawful (h : Inv t s) : Lawful s := by
  unfold Inv at h
  cases hpc : s.pc with
  | enableNotification =>
    rw [hpc] at h
    exact ⟨h.idle.served, fun _ hret => by cases hpc.symm.trans hret⟩
  | subscribe ids =>
    rw [hpc] at h
    obtain ⟨base, unset, -, h⟩ := h
    exact ⟨h.idle.served, fun _ hret => by cases hpc.symm.trans hret⟩
  | register i =>
    rw [hpc] at h
    obtain ⟨base, unset, -, h⟩ := h
    exact ⟨h.idle.served, fun _ hret => by cases hpc.symm.trans hret⟩
  | loop =>
    rw [hpc] at h
    obtain ⟨base, sessions, h⟩ := h
    exact ⟨h.served, fun _ hret => by cases hpc.symm.trans hret⟩
  | unsubscribe ids =>
    rw [hpc] at h
    exact ⟨h.idle.served, fun _ hret => by cases hpc.symm.trans hret⟩
  | returned res =>
    rw [hpc] at h
    exact ⟨h.idle.served, fun _ _ => ⟨h.idle.due, h.handles, h.contexts⟩⟩

/-- In a run that meets the condition throughout, every request goes to the right handler with the
right context and is replied to, and at the end all is closed and freed. -/
theorem requests_served_all_released (t : Tables) (events : List (Event H C))
    (h : Guarded (ServiceManager.step t) (Tame t) (init t) events) :
    AllSteps (ServiceManager.step t) (fun _ _ s => Lawful s) (init t) events :=
  allSteps_of_guarded (fun _ _ _ hinv hC hstep =>
    have hinv := hinv.step hC hstep
    ⟨hinv, hinv.lawful⟩) (show Inv t (init t) from SettingUp.init t) h

end Held

/-- One service, and a notification that is subscribed to. -/
def smallTables : Tables where
  services := [⟨"ns:test", 2, false⟩]
  notifications := [0x100, 0x213]
  allocator := true

def okAnswers (id : ℕ) : Answers ℕ ℕ where
  res := 0
  id := some id
  srvReceiveNotification := (0, 0x100)
  svcAcceptSession := (0, 12)
  newSessionContext := some 7

/-- A session is closed while its request is replied to, and another one at the end. -/
def smallRun : List (Event ℕ ℕ) :=
  [.srvEnableNotification 0 10, .srvSubscribe 0, .register 0 11 0, .pass (okAnswers 1),
    .pass (okAnswers 2), .pass { okAnswers 0 with res := sessionClosed, id := none },
    .pass (okAnswers 1), .pass (okAnswers 2), .pass (okAnswers 0), .srvUnsubscribe 0]

theorem smallRun_lawful :
    AllSteps (step smallTables) (fun _ _ s => Lawful s) (init smallTables) smallRun :=
  requests_served_all_released smallTables smallRun
    ((guarded_of_guards (c := fun s e => decide (Tame smallTables s e)) (by decide)).imp
      fun _ _ _ h => of_decide_eq_true h)

/-- There is no memory for the context of a second session: nothing is closed or freed. -/
theorem return_without_context_leaks :
    ¬∀ (t : Tables) (events : List (Event ℕ ℕ)),
      AllSteps (step t) (fun _ _ s => Lawful s) (init t) events := by
  intro h
  have hlast := (h smallTables ([.srvEnableNotification 0 10, .srvSubscribe 0, .register 0 11 0,
    .pass (okAnswers 1)] ++ [.pass { okAnswers 1 with
      svcAcceptSession := (0, 13)
      newSessionContext := none }])).last rfl rfl
  exact absurd (hlast.released _ rfl).2.1 (by decide)

end Presence3DS.Rosalina.ServiceManager
