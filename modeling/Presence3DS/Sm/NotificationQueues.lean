import Mathlib.Data.List.Forall2
import Presence3DS.Sm.Notifications

/-! Each process receives what was put into its queue, in order, and its semaphore counts no more
than what is pending. -/

namespace Presence3DS.Sm.Notifications
open SwapRemove

section Forall
variable {α : Type*} {R : α → α → Prop} {s t : List α}

end Forall

/-! ## One process -/

namespace ProcessData

def ring (p : ProcessData) : CellRing (BitVec 32) :=
  ⟨p.notificationAt, p.receivedNotificationIndex, p.pendingNotificationIndex,
    p.nbPendingNotifications⟩

/-- The pending notifications, in the order in which they are received. -/
def queued (p : ProcessData) : List (BitVec 32) := p.ring.contents 16

theorem mem_queued {p : ProcessData} {notificationId : BitVec 32} : notificationId ∈ p.queued ↔
    ((List.range p.nbPendingNotifications).any fun i =>
      p.notificationAt ((p.receivedNotificationIndex + i) % 16) = notificationId) = true :=
  CellRing.mem_contents

end ProcessData

namespace Client
variable {k k' : Client} {notificationId flags : BitVec 32}

/-- The notification is put into the queue, and the semaphore released. -/
def stored (k : Client) (notificationId : BitVec 32) : Client :=
  { k with
    data := { k.data with
      notificationSemaphore := k.data.notificationSemaphore + 1
      pendingNotificationIndex := (k.data.pendingNotificationIndex + 1) % 16
      nbPendingNotifications := k.data.nbPendingNotifications + 1
      pendingNotifications :=
        k.data.pendingNotifications.set k.data.pendingNotificationIndex notificationId }
    accepted := k.accepted ++ [notificationId] }

/-- The first pending notification is received. -/
def taken (k : Client) : Client :=
  { k with
    data := { k.data with
      nbPendingNotifications := k.data.nbPendingNotifications - 1
      receivedNotificationIndex := (k.data.receivedNotificationIndex + 1) % 16 }
    received := k.received ++ [k.data.notificationAt k.data.receivedNotificationIndex]
    waits := k.waits - 1 }

/-- A notification is stored where there is room and, if asked for, no equal one is pending; where
it is not, nothing changes. -/
theorem publish_cases {publication : Publication}
    (h : k.publish notificationId flags = some (publication, k')) :
    (k' = k) ∨ (k' = k.stored notificationId ∧ (flags &&& 1 ≠ 0 → notificationId ∉ k.data.queued) ∧
      k.data.nbPendingNotifications < 16) := by
  obtain ⟨⟨publication', data⟩, hpublish, heq⟩ := Option.map_eq_some_iff.mp h
  obtain ⟨rfl, rfl⟩ := Prod.mk.inj heq
  rw [doPublishNotification] at hpublish
  split at hpublish
  · obtain ⟨rfl, rfl⟩ := Prod.mk.inj (Option.some.inj hpublish)
    exact Or.inl rfl
  · next hnot =>
    split at hpublish
    · next hroom =>
      obtain ⟨count, hcount, heq⟩ := Option.map_eq_some_iff.mp hpublish
      obtain ⟨rfl, rfl⟩ := Prod.mk.inj heq
      rw [svcReleaseSemaphore] at hcount
      split at hcount
      · obtain rfl := Option.some.inj hcount
        exact Or.inr ⟨rfl, fun hflag hmem => hnot ⟨hflag, ProcessData.mem_queued.mp hmem⟩, hroom⟩
      · exact absurd hcount (by rintro ⟨⟩)
    · obtain ⟨rfl, rfl⟩ := Prod.mk.inj (Option.some.inj hpublish)
      exact Or.inl rfl

theorem receive_cases (k : Client) : k.receive.2 = k ∨
    (k.receive.2 = k.taken ∧ k.data.nbPendingNotifications ≠ 0) := by
  by_cases h : k.data.notificationEnabled = false ∨ k.data.nbPendingNotifications = 0
  · have hreceive : receiveNotification k.data = (0xD8806404, _, k.data) := if_pos h
    rw [receive, hreceive]
    exact Or.inl rfl
  · have hreceive : receiveNotification k.data = (0, _, _) := if_neg h
    rw [receive, hreceive]
    exact Or.inr ⟨rfl, fun hzero => h (Or.inr hzero)⟩

/-- What was put into the queue of a process is what it has received and then what is pending; and
the indices agree with the number of pending entries, of which there are 16 at most. -/
structure Law (k : Client) : Prop where
  accepted : k.accepted = k.received ++ k.data.queued
  indices : k.data.pendingNotificationIndex =
    (k.data.receivedNotificationIndex + k.data.nbPendingNotifications) % 16
  room : k.data.nbPendingNotifications ≤ 16

/-- The law, with the bounds that keep it. -/
structure Well (k : Client) : Prop where
  ring : k.data.ring.Well 16
  cells : k.data.pendingNotifications.length = 16
  accepted : k.accepted = k.received ++ k.data.queued

theorem Well.law (h : k.Well) : k.Law := ⟨h.accepted, h.ring.next, h.ring.count⟩

theorem Well.ring_stored (h : k.Well) (notificationId : BitVec 32) :
    (k.stored notificationId).data.ring = k.data.ring.push 16 notificationId := by
  have hnext : k.data.pendingNotificationIndex < k.data.pendingNotifications.length := by
    rw [h.cells, show k.data.pendingNotificationIndex = _ from h.ring.next]
    exact Nat.mod_lt _ (Nat.zero_lt_succ _)
  have hcell : (k.stored notificationId).data.notificationAt =
      Function.update k.data.notificationAt k.data.pendingNotificationIndex notificationId := by
    funext i
    show (k.data.pendingNotifications.set k.data.pendingNotificationIndex notificationId).getD i 0 =
      _
    rw [List.getD_eq_getElem?_getD]
    by_cases hi : i = k.data.pendingNotificationIndex
    · rw [hi, Function.update_self, List.getElem?_set_self hnext]
      rfl
    · rw [Function.update_of_ne hi, List.getElem?_set_ne (Ne.symm hi), ← List.getD_eq_getElem?_getD]
      rfl
  rw [ProcessData.ring, hcell]
  rfl

theorem Well.stored (h : k.Well) (hroom : k.data.nbPendingNotifications < 16) :
    (k.stored notificationId).Well where
  ring := by
    rw [h.ring_stored]
    exact h.ring.push hroom notificationId
  cells := by
    show (k.data.pendingNotifications.set _ _).length = 16
    rw [List.length_set, h.cells]
  accepted := by
    show k.accepted ++ [notificationId] =
      k.received ++ ((k.stored notificationId).data.ring).contents 16
    rw [h.ring_stored, h.ring.contents_push hroom, h.accepted, List.append_assoc]
    rfl

theorem Well.taken (h : k.Well) (hcount : k.data.nbPendingNotifications ≠ 0) : k.taken.Well where
  ring := h.ring.pop hcount
  cells := h.cells
  accepted := by
    show k.accepted = k.received ++ [_] ++ (k.data.ring.pop 16).contents 16
    rw [h.accepted, ProcessData.queued, h.ring.contents_pop hcount, List.append_assoc]
    rfl

end Client

/-! ## What a call does to each process -/

/-- The notification that a call publishes, with its flags. -/
def Call.publishes : Call → Option (BitVec 32 × BitVec 32)
  | .publishToSubscriber notificationId flags => some (notificationId, flags)
  | .publishAndGetSubscriber notificationId => some (notificationId, 0)
  | .publishToProcess _ notificationId => some (notificationId, 0)
  | .publishToAll notificationId => some (notificationId, 0)
  | _ => none

/-- A call that may take a record from the pool or put one back. -/
def Call.registers : Call → Bool
  | .registerProcess _ _ => true
  | .unregisterProcess _ => true
  | .enableNotification _ => true
  | _ => false

/-- The changes of a process in a call. -/
inductive Change (c : Call) : Client → Client → Prop
  | rest (k : Client) : Change c k k
  | stored {k : Client} {notificationId flags : BitVec 32}
    (hc : c.publishes = some (notificationId, flags))
    (hnew : flags &&& 1 ≠ 0 → notificationId ∉ k.data.queued)
    (hroom : k.data.nbPendingNotifications < 16) : Change c k (k.stored notificationId)
  | taken {k : Client} (hc : c = .receiveNotification k.data.pid)
    (hcount : k.data.nbPendingNotifications ≠ 0) : Change c k k.taken
  | waited {k : Client} (hc : c.publishes = none) (hcount : k.data.notificationSemaphore ≠ 0) :
    Change c k { k with
      data := { k.data with notificationSemaphore := k.data.notificationSemaphore - 1 }
      waits := k.waits + 1 }
  | listens {k : Client} (hc : c.publishes = none) (enabled : Bool)
    (subscribed : List (BitVec 32)) : Change c k { k with
      data := { k.data with
        notificationEnabled := enabled, subscribedNotifications := subscribed } }

variable {c : Call} {s t : List Client} {k k' : Client}

theorem Client.publish_change {notificationId flags : BitVec 32} {publication : Publication}
    (hc : c.publishes = some (notificationId, flags))
    (h : k.publish notificationId flags = some (publication, k')) : Change c k k' := by
  rcases Client.publish_cases h with rfl | ⟨rfl, hnew, hroom⟩
  · exact Change.rest k'
  · exact Change.stored hc hnew hroom

theorem subscribe_change (hc : c.publishes = none) (notificationId : BitVec 32) (k : Client) :
    Change c k { k with data := (subscribe k.data notificationId).2 } := by
  rw [subscribe]
  split
  · exact Change.rest k
  · split
    · exact Change.rest k
    · split
      · exact Change.listens hc k.data.notificationEnabled _
      · exact Change.rest k

theorem unsubscribe_change (hc : c.publishes = none) (notificationId : BitVec 32) (k : Client) :
    Change c k { k with data := (unsubscribe k.data notificationId).2 } := by
  rw [unsubscribe]
  split
  · exact Change.rest k
  · split
    · exact Change.rest k
    · exact Change.listens hc k.data.notificationEnabled _

theorem changes_rest (s : List Client) : List.Forall₂ (Change c) s s :=
  List.forall₂_same.mpr fun k _ => Change.rest k

theorem withProcess_changes {pid : BitVec 32} {f : Client → Option (SmResult × Client)}
    {res : SmResult} (hf : ∀ k res k', k.data.pid = pid → f k = some (res, k') → Change c k k')
    (h : withProcess pid f s = some (res, t)) : List.Forall₂ (Change c) s t := by
  induction s generalizing res t with
  | nil =>
    obtain ⟨rfl, rfl⟩ := Prod.mk.inj (Option.some.inj h)
    exact List.Forall₂.nil
  | cons k s ih =>
    rw [withProcess] at h
    split at h
    · next hpid =>
      obtain ⟨⟨res', k'⟩, hk, heq⟩ := Option.map_eq_some_iff.mp h
      obtain ⟨rfl, rfl⟩ := Prod.mk.inj heq
      exact List.Forall₂.cons (hf k _ k' hpid hk) (changes_rest s)
    · obtain ⟨⟨res', t'⟩, hs, heq⟩ := Option.map_eq_some_iff.mp h
      obtain ⟨rfl, rfl⟩ := Prod.mk.inj heq
      exact List.Forall₂.cons (Change.rest k) (ih hs)

theorem publishWhere_changes {wanted : Client → Bool} {notificationId flags : BitVec 32}
    {res : SmResult} {pids : List (BitVec 32)} (hc : c.publishes = some (notificationId, flags))
    (h : publishWhere wanted notificationId flags s = some (res, pids, t)) :
    List.Forall₂ (Change c) s t := by
  induction s generalizing res pids t with
  | nil =>
    have heq := Option.some.inj h
    simp only [Prod.mk.injEq] at heq
    obtain ⟨-, -, rfl⟩ := heq
    exact List.Forall₂.nil
  | cons k s ih =>
    rw [publishWhere] at h
    split at h
    · obtain ⟨⟨publication, k'⟩, hk, h⟩ := Option.bind_eq_some_iff.mp h
      have hchange := Client.publish_change hc hk
      dsimp only at h
      split at h
      · obtain ⟨⟨res', pids', t'⟩, hs, heq⟩ := Option.bind_eq_some_iff.mp h
        have heq := Option.some.inj heq
        simp only [Prod.mk.injEq] at heq
        obtain ⟨-, -, rfl⟩ := heq
        exact List.Forall₂.cons hchange (ih hs)
      · have heq := Option.some.inj h
        simp only [Prod.mk.injEq] at heq
        obtain ⟨-, -, rfl⟩ := heq
        exact List.Forall₂.cons hchange (changes_rest s)
    · obtain ⟨⟨res', pids', t'⟩, hs, heq⟩ := Option.map_eq_some_iff.mp h
      simp only [Prod.mk.injEq] at heq
      obtain ⟨-, -, rfl⟩ := heq
      exact List.Forall₂.cons (Change.rest k) (ih hs)

section Steps
variable {nbSection0Modules : BitVec 32} {maxEntries : ℕ}

theorem listen_changes {pid : BitVec 32} {res : SmResult} (hc : c.publishes = none)
    (h : withProcess pid (fun k =>
    some (0, { k with data := enableNotification k.data })) s = some (res, t)) :
    List.Forall₂ (Change c) s t := by
  apply withProcess_changes _ h
  intro k res' k' _ heq
  obtain ⟨-, rfl⟩ := Prod.mk.inj (Option.some.inj heq)
  exact Change.listens hc true k.data.subscribedNotifications

theorem request_changes {pid : BitVec 32} {f : ProcessData → SmResult × ProcessData}
    {res : SmResult} (hf : ∀ k, Change c k { k with data := (f k.data).2 })
    (h : withProcess pid (request f) s = some (res, t)) : List.Forall₂ (Change c) s t := by
  apply withProcess_changes _ h
  intro k res' k' _ heq
  obtain ⟨-, rfl⟩ := Prod.mk.inj (Option.some.inj heq)
  exact hf k

theorem publishToProcess_changes {svcGetProcessId : Except SmResult (BitVec 32)}
    {notificationId : BitVec 32} {res : SmResult} (hc : c.publishes = some (notificationId, 0))
    (h : publishToProcess svcGetProcessId notificationId s = some (res, t)) :
    List.Forall₂ (Change c) s t := by
  cases svcGetProcessId with
  | error res' =>
    obtain ⟨rfl, rfl⟩ := Prod.mk.inj (Option.some.inj h)
    exact changes_rest s
  | ok pid =>
    apply withProcess_changes _ h
    intro k res' k' _ heq
    split at heq
    · obtain ⟨rfl, rfl⟩ := Prod.mk.inj (Option.some.inj heq)
      exact Change.rest k
    · obtain ⟨⟨publication, k''⟩, hk, heq⟩ := Option.map_eq_some_iff.mp heq
      obtain ⟨rfl, rfl⟩ := Prod.mk.inj heq
      exact Client.publish_change hc hk

theorem doRegisterProcess_eq {pid : BitVec 32} (h : doRegisterProcess pid s = some t) :
    t = Client.new pid :: s := by
  rw [doRegisterProcess] at h
  split at h
  · exact absurd h (by rintro ⟨⟩)
  · exact (Option.some.inj h).symm

/-- Up to the processes that are registered or unregistered, a call changes each process on its
own. -/
theorem step_changes (h : step nbSection0Modules maxEntries s c = some t) :
    ∃ s', (∀ k ∈ s', k ∈ s ∨ ∃ pid, k = Client.new pid) ∧ (c.registers = false → s' = s) ∧
      List.Forall₂ (Change c) s' t := by
  have hsame : List.Forall₂ (Change c) s t → ∃ s', (∀ k ∈ s', k ∈ s ∨ ∃ pid, k = Client.new pid) ∧
      (c.registers = false → s' = s) ∧ List.Forall₂ (Change c) s' t :=
    fun hchanges => ⟨s, fun _ => Or.inl, fun _ => rfl, hchanges⟩
  have hnew : ∀ pid, ∀ k ∈ Client.new pid :: s, k ∈ s ∨ ∃ pid, k = Client.new pid := by
    intro pid k hk
    rcases List.mem_cons.mp hk with rfl | hk
    · exact Or.inr ⟨pid, rfl⟩
    · exact Or.inl hk
  cases c with
  | registerProcess pid size =>
    obtain ⟨⟨res, t'⟩, hregister, rfl⟩ := Option.map_eq_some_iff.mp h
    rw [registerProcess] at hregister
    split at hregister
    · obtain ⟨rfl, rfl⟩ := Prod.mk.inj (Option.some.inj hregister)
      exact hsame (changes_rest s)
    · split at hregister
      · obtain ⟨rfl, rfl⟩ := Prod.mk.inj (Option.some.inj hregister)
        exact hsame (changes_rest s)
      · obtain ⟨t'', hdo, heq⟩ := Option.map_eq_some_iff.mp hregister
        obtain ⟨rfl, rfl⟩ := Prod.mk.inj heq
        obtain rfl := doRegisterProcess_eq hdo
        exact ⟨_, hnew pid, fun hnone => absurd hnone Bool.false_ne_true.symm, changes_rest _⟩
  | unregisterProcess pid =>
    have ht := Option.some.inj h
    rw [unregisterProcess] at ht
    split at ht <;> subst ht
    · exact ⟨_, fun k hk => Or.inl (List.mem_of_mem_eraseP hk),
        fun hnone => absurd hnone Bool.false_ne_true.symm,
        changes_rest _⟩
    · exact hsame (changes_rest s)
  | enableNotification pid =>
    obtain ⟨⟨res, t'⟩, henable, rfl⟩ := Option.map_eq_some_iff.mp h
    rw [enable] at henable
    split at henable
    · exact hsame (listen_changes rfl henable)
    · split at henable
      · obtain ⟨s', hdo, hlisten⟩ := Option.bind_eq_some_iff.mp henable
        obtain rfl := doRegisterProcess_eq hdo
        exact ⟨_, hnew pid, fun hnone => absurd hnone Bool.false_ne_true.symm,
          listen_changes rfl hlisten⟩
      · obtain ⟨rfl, rfl⟩ := Prod.mk.inj (Option.some.inj henable)
        exact hsame (changes_rest s)
  | subscribe pid notificationId =>
    obtain ⟨⟨res, t'⟩, hwith, rfl⟩ := Option.map_eq_some_iff.mp h
    exact hsame (request_changes (subscribe_change rfl notificationId) hwith)
  | unsubscribe pid notificationId =>
    obtain ⟨⟨res, t'⟩, hwith, rfl⟩ := Option.map_eq_some_iff.mp h
    exact hsame (request_changes (unsubscribe_change rfl notificationId) hwith)
  | receiveNotification pid =>
    obtain ⟨⟨res, t'⟩, hwith, rfl⟩ := Option.map_eq_some_iff.mp h
    refine hsame (withProcess_changes (fun k res' k' hpid heq => ?_) hwith)
    have hk : k.receive.2 = k' := congrArg Prod.snd (Option.some.inj heq)
    rcases k.receive_cases with hrest | ⟨htaken, hcount⟩
    · exact hk.symm.trans hrest ▸ Change.rest k'
    · rw [← hk, htaken]
      exact Change.taken (congrArg _ hpid.symm) hcount
  | publishToSubscriber notificationId flags =>
    obtain ⟨⟨res, t'⟩, hpublish, rfl⟩ := Option.map_eq_some_iff.mp h
    obtain ⟨⟨res', pids, t''⟩, hwhere, heq⟩ := Option.map_eq_some_iff.mp hpublish
    obtain ⟨rfl, rfl⟩ := Prod.mk.inj heq
    exact hsame (publishWhere_changes rfl hwhere)
  | publishAndGetSubscriber notificationId =>
    obtain ⟨⟨res, pids, t'⟩, hpublish, rfl⟩ := Option.map_eq_some_iff.mp h
    obtain ⟨⟨res', pids', t''⟩, hwhere, heq⟩ := Option.map_eq_some_iff.mp hpublish
    simp only [Prod.mk.injEq] at heq
    obtain ⟨-, -, rfl⟩ := heq
    exact hsame (publishWhere_changes rfl hwhere)
  | publishToProcess svcGetProcessId notificationId =>
    obtain ⟨⟨res, t'⟩, hpublish, rfl⟩ := Option.map_eq_some_iff.mp h
    exact hsame (publishToProcess_changes rfl hpublish)
  | publishToAll notificationId =>
    obtain ⟨⟨res, t'⟩, hpublish, rfl⟩ := Option.map_eq_some_iff.mp h
    obtain ⟨⟨res', pids, t''⟩, hwhere, heq⟩ := Option.map_eq_some_iff.mp hpublish
    obtain ⟨rfl, rfl⟩ := Prod.mk.inj heq
    exact hsame (publishWhere_changes rfl hwhere)
  | wait pid =>
    obtain ⟨⟨res, t'⟩, hwith, rfl⟩ := Option.map_eq_some_iff.mp h
    refine hsame (withProcess_changes (fun k res' k' _ heq => ?_) hwith)
    obtain ⟨k'', hwait, heq⟩ := Option.map_eq_some_iff.mp heq
    obtain ⟨rfl, rfl⟩ := Prod.mk.inj heq
    rw [Client.wait] at hwait
    split at hwait
    · exact absurd hwait (by rintro ⟨⟩)
    · next hcount =>
      obtain rfl := Option.some.inj hwait
      exact Change.waited rfl hcount

end Steps

/-! ## Runs -/

theorem Change.well (h : Change c k k') (hk : k.Well) : k'.Well := by
  cases h with
  | rest => exact hk
  | stored _ _ hroom => exact hk.stored hroom
  | taken _ hcount => exact hk.taken hcount
  | waited _ _ => exact ⟨hk.ring, hk.cells, hk.accepted⟩
  | listens _ _ _ => exact ⟨hk.ring, hk.cells, hk.accepted⟩

/-- The semaphore counts the notifications that no wait stands for yet. -/
def Client.Balanced (k : Client) : Prop :=
  k.data.notificationSemaphore + k.waits = k.data.nbPendingNotifications

theorem Change.balanced (h : Change c k k')
    (hwaits : c = .receiveNotification k.data.pid → 0 < k.waits) (hk : k.Balanced) :
    k'.Balanced := by
  unfold Client.Balanced at hk ⊢
  cases h with
  | rest => exact hk
  | stored _ _ _ =>
    show k.data.notificationSemaphore + 1 + k.waits = k.data.nbPendingNotifications + 1
    rw [← hk, Nat.add_right_comm]
  | taken hc _ =>
    show k.data.notificationSemaphore + (k.waits - 1) = k.data.nbPendingNotifications - 1
    rw [← hk, Nat.add_sub_assoc (hwaits hc)]
  | waited _ hcount =>
    show k.data.notificationSemaphore - 1 + (k.waits + 1) = k.data.nbPendingNotifications
    rw [← hk]
    omega
  | listens _ _ _ => exact hk

section Runs
variable {nbSection0Modules : BitVec 32} {maxEntries : ℕ}

theorem Client.Balanced.le (h : k.Balanced) :
    k.data.notificationSemaphore ≤ k.data.nbPendingNotifications := by
  rw [← show k.data.notificationSemaphore + k.waits = _ from h]
  exact Nat.le_add_right _ _

end Runs

-- the second of two equal notifications is not stored without duplicates
example : (Runs.run (step 5 34) [] [.registerProcess 9 0, .enableNotification 9, .subscribe 9 0x104,
    .publishToSubscriber 0x104 1, .publishToSubscriber 0x104 1, .publishToAll 0x100, .wait 9,
    .receiveNotification 9]).map (·.map fun k => (k.accepted, k.received, k.data.queued)) =
    some [([0x104, 0x100], [0x104], [0x100])] := by decide

end Presence3DS.Sm.Notifications
