import Presence3DS.Sm.Main

/-! What handling one request does to the sessions, the lists and the table. -/

namespace Presence3DS.Sm
open Kernel NodeLists

/-- A request for a service or a named port that passes the checks of its name. -/
def AsksFor (c : ReplayBuf) : Prop := (c.command = 5 ∨ c.command = 8) ∧ Checked c.name c.nameSize

abbrev SmState.place (s : SmState) (i : SessionId) : SessionList := s.lists.parent i

abbrev SmState.toWakeUp (s : SmState) : List SessionId :=
  s.lists.nodes .toWakeUpAfterServiceOrPortRegister

/-- What handling the command in the buffer for session `i` does to the other sessions, and what
it leaves in the saved request of `i` where it returns to park it. -/
structure Handled (s : SmState) (i : SessionId) (res : SmResult) (t : SmState) : Prop where
  sent : t.sent = s.sent
  others : ∀ j, j ≠ i → t.session j = s.session j
  place : ∀ j, t.place j = s.place j ∨ s.place j = .waitingForServiceOrPortRegister ∧
    t.place j = .toWakeUpAfterServiceOrPortRegister
  queue : s.toWakeUp <+: t.toWakeUp
  semaphore : t.semaphore + s.toWakeUp.length = s.semaphore + t.toWakeUp.length
  blocks : wouldBlock res = true →
    (t.session i).replayCmdbuf = s.cmdbuf.toReplayBuf ∧ AsksFor s.cmdbuf.toReplayBuf
  registers : s.servicesInfo.length < t.servicesInfo.length →
    ∃ isNamedPort, s.cmdbuf.command = (if isNamedPort then 6 else 3) ∧
      Checked s.cmdbuf.name s.cmdbuf.nameSize ∧
      (∃ info, t.servicesInfo = s.servicesInfo ++ [info] ∧ info.isNamedPort = isNamedPort ∧
        info.name = storedName s.cmdbuf.name) ∧
      ∀ j, s.place j = .waitingForServiceOrPortRegister →
        wakesUp s.cmdbuf.name isNamedPort (s.session j) = true →
          t.place j = .toWakeUpAfterServiceOrPortRegister

section Commands
variable {s t : SmState} {i : SessionId} {res : SmResult}

theorem queue_kept (h : t.toWakeUp = s.toWakeUp) : s.toWakeUp <+: t.toWakeUp :=
  ⟨[], (List.append_nil _).trans h.symm⟩

theorem Handled.of_quiet (hsent : t.sent = s.sent) (hothers : ∀ j, j ≠ i → t.session j = s.session j)
    (hlists : t.lists = s.lists) (hsemaphore : t.semaphore = s.semaphore)
    (hlen : t.servicesInfo.length ≤ s.servicesInfo.length) (hres : wouldBlock res = false) :
    Handled s i res t where
  sent := hsent
  others := hothers
  place j := .inl (by rw [SmState.place, hlists])
  queue := queue_kept (by rw [SmState.toWakeUp, SmState.toWakeUp, hlists])
  semaphore := by rw [SmState.toWakeUp, SmState.toWakeUp, hlists, hsemaphore]
  blocks h := absurd (hres.symm.trans h) Bool.false_ne_true
  registers h := absurd h (Nat.not_lt.mpr hlen)

theorem handled_invalid {code : SmResult} (hcode : wouldBlock code = false)
    (h : invalidCommand s code = some (res, t)) : Handled s i res t := by
  cases h
  exact .of_quiet rfl (fun _ _ => rfl) rfl rfl (Nat.le_refl _) hcode

theorem handled_notification {e : Answers} (h : notificationCommand e s = some (res, t)) :
    Handled s i res t := by
  cases h
  exact .of_quiet rfl (fun _ _ => rfl) rfl rfl (Nat.le_refl _) e.notification.2

theorem handled_registerClient (h : registerClient s i = some (res, t)) : Handled s i res t := by
  unfold registerClient at h
  split_ifs at h
  · cases h
    exact .of_quiet rfl (fun j hj => Function.update_of_ne hj _ _) rfl rfl (Nat.le_refl _) (by decide)
  · exact handled_invalid (by decide) h

theorem wouldBlock_check (name : NameWord) (nameSize : Int) :
    wouldBlock (checkServiceName name nameSize) = false := by
  unfold checkServiceName
  split_ifs <;> decide

theorem unregister_quiet (servicesInfo : List ServiceInfo) (pid : BitVec 32) (name : NameWord)
    (nameSize : Int) (isNamedPort : Bool) :
    wouldBlock (unregisterServiceOrPort servicesInfo pid name nameSize isNamedPort).1 = false ∧
      (unregisterServiceOrPort servicesInfo pid name nameSize isNamedPort).2.length ≤
        servicesInfo.length := by
  unfold unregisterServiceOrPort
  simp only
  split_ifs
  · exact ⟨wouldBlock_check name nameSize, Nat.le_refl _⟩
  · cases findServicePortByName servicesInfo isNamedPort name nameSize with
    | none => exact ⟨(by decide : wouldBlock 0xD8801BFA = false), Nat.le_refl _⟩
    | some serviceId =>
      simp only
      split_ifs
      · exact ⟨(by decide : wouldBlock 0xD8E06406 = false), Nat.le_refl _⟩
      · exact ⟨(by decide : wouldBlock 0 = false), SwapRemove.length_swapRemove_le _ _⟩

theorem handled_unregister {header : BitVec 32} {isNamedPort : Bool}
    (h : unregisterCommand s i header isNamedPort = some (res, t)) : Handled s i res t := by
  obtain ⟨hres, hlen⟩ := unregister_quiet s.servicesInfo (s.session i).pid s.cmdbuf.name
    s.cmdbuf.nameSize isNamedPort
  cases h
  exact .of_quiet rfl (fun _ _ => rfl) rfl rfl hlen hres

theorem handled_isServiceRegistered {e : Answers}
    (h : isServiceRegisteredCommand e s = some (res, t)) : Handled s i res t := by
  have hres : wouldBlock (isServiceRegistered s.servicesInfo e.uninitialized s.cmdbuf.name
      s.cmdbuf.nameSize).1 = false := by
    unfold isServiceRegistered
    simp only
    split_ifs
    · exact wouldBlock_check _ _
    · exact (by decide : wouldBlock 0 = false)
  cases h
  exact .of_quiet rfl (fun _ _ => rfl) rfl rfl (Nat.le_refl _) hres

theorem Handled.of_blocks (hsent : t.sent = s.sent)
    (hsession : t.session = (s.saveReplay i).session ∨
      ∃ port, t.session = ((s.setBusy i port).saveReplay i).session)
    (hlists : t.lists = s.lists) (hsemaphore : t.semaphore = s.semaphore)
    (hservices : t.servicesInfo = s.servicesInfo) (hasks : AsksFor s.cmdbuf.toReplayBuf) :
    Handled s i res t where
  sent := hsent
  others j hj := by
    rcases hsession with h | ⟨port, h⟩ <;> rw [h] <;>
      simp [SmState.saveReplay, SmState.setBusy, SmState.setSession, hj]
  place j := .inl (by rw [SmState.place, hlists])
  queue := queue_kept (by rw [SmState.toWakeUp, SmState.toWakeUp, hlists])
  semaphore := by rw [SmState.toWakeUp, SmState.toWakeUp, hlists, hsemaphore]
  blocks _ := by
    refine ⟨?_, hasks⟩
    rcases hsession with h | ⟨port, h⟩ <;> rw [h] <;>
      simp [SmState.saveReplay, SmState.setBusy, SmState.setSession]
  registers h := absurd h (by rw [hservices]; exact Nat.lt_irrefl _)

theorem checked_of_blocks {name : NameWord} {nameSize : Int}
    (h : (checkServiceName name nameSize).msb ≠ true) : Checked name nameSize :=
  checkServiceName_eq_zero.mp ((checkServiceName_msb name nameSize).mp (Bool.eq_false_iff.mpr h))

theorem handled_getServiceHandle {e : Answers} (hcommand : s.cmdbuf.command = 5)
    (h : getServiceHandleCommand e s i = some (res, t)) : Handled s i res t := by
  unfold getServiceHandleCommand at h
  by_cases hmsb : (checkServiceName s.cmdbuf.name s.cmdbuf.nameSize).msb = true
  · have hget : getServiceHandle e s.servicesInfo s.cmdbuf.name s.cmdbuf.nameSize s.cmdbuf.w4 =
        (checkServiceName s.cmdbuf.name s.cmdbuf.nameSize, 0, none) := if_pos hmsb
    have hres := wouldBlock_check s.cmdbuf.name s.cmdbuf.nameSize
    simp only [hget, hres, Bool.false_eq_true, if_false] at h
    cases h
    exact .of_quiet rfl (fun _ _ => rfl) rfl rfl (Nat.le_refl _) hres
  · have hasks : AsksFor s.cmdbuf.toReplayBuf := ⟨.inl hcommand, checked_of_blocks hmsb⟩
    generalize getServiceHandle e s.servicesInfo s.cmdbuf.name s.cmdbuf.nameSize s.cmdbuf.w4 =
      answer at h
    obtain ⟨code, session, busy⟩ := answer
    simp only at h
    cases busy with
    | none =>
      split_ifs at h with hblock
      · cases h
        exact .of_blocks rfl (.inl rfl) rfl rfl rfl hasks
      · cases h
        exact .of_quiet rfl (fun _ _ => rfl) rfl rfl (Nat.le_refl _) (Bool.eq_false_iff.mpr hblock)
    | some port =>
      split_ifs at h with hblock
      · cases h
        exact .of_blocks rfl (.inr ⟨port, rfl⟩) rfl rfl rfl hasks
      · cases h
        exact .of_quiet rfl (fun j hj => Function.update_of_ne hj _ _) rfl rfl (Nat.le_refl _)
          (Bool.eq_false_iff.mpr hblock)

theorem handled_getPort (hcommand : s.cmdbuf.command = 8)
    (h : getPortCommand s i = some (res, t)) : Handled s i res t := by
  unfold getPortCommand at h
  by_cases hmsb : (checkServiceName s.cmdbuf.name s.cmdbuf.nameSize).msb = true
  · have hget : getPort s.servicesInfo s.cmdbuf.name s.cmdbuf.nameSize (s.cmdbuf.w4.setWidth 8) =
        (checkServiceName s.cmdbuf.name s.cmdbuf.nameSize, 0) := if_pos hmsb
    have hres := wouldBlock_check s.cmdbuf.name s.cmdbuf.nameSize
    simp only [hget, hres, Bool.false_eq_true, if_false] at h
    cases h
    exact .of_quiet rfl (fun _ _ => rfl) rfl rfl (Nat.le_refl _) hres
  · have hasks : AsksFor s.cmdbuf.toReplayBuf := ⟨.inr hcommand, checked_of_blocks hmsb⟩
    simp only at h
    split_ifs at h with hblock
    · cases h
      exact .of_blocks rfl (.inl rfl) rfl rfl rfl hasks
    · cases h
      exact .of_quiet rfl (fun _ _ => rfl) rfl rfl (Nat.le_refl _) (Bool.eq_false_iff.mpr hblock)

theorem nodes_wakeWaiting (s : SmState) (name : NameWord) (isNamedPort : Bool) :
    ∃ woken, (wakeWaiting s name isNamedPort).1.nodes .toWakeUpAfterServiceOrPortRegister =
      s.toWakeUp ++ woken ∧ (wakeWaiting s name isNamedPort).2 = woken.length := by
  refine ⟨_, nodes_moveMatching _ _ _ s.lists (s.lists.nodup _) ?_, count_moveMatching _ _ _ _⟩
  intro j hj
  rw [(s.lists.mem_nodes _ j).mp hj]
  decide

theorem parent_wakeWaiting (s : SmState) (name : NameWord) (isNamedPort : Bool) (j : SessionId) :
    (wakeWaiting s name isNamedPort).1.parent j =
      if s.place j = .waitingForServiceOrPortRegister ∧
          wakesUp name isNamedPort (s.session j) = true then
        .toWakeUpAfterServiceOrPortRegister
      else s.place j := by
  have hparent := parent_moveMatching (fun i => wakesUp name isNamedPort (s.session i))
    .toWakeUpAfterServiceOrPortRegister (s.lists.nodes .waitingForServiceOrPortRegister) j s.lists
  simp only [s.lists.mem_nodes] at hparent
  exact hparent

theorem wouldBlock_registerEntry (servicesInfo : List ServiceInfo)
    (svcCreatePort : Option (Handle × Handle)) (pid : BitVec 32) (clientPort : Handle)
    (name : NameWord) (nameSize : Int) (isNamedPort : Bool) :
    wouldBlock (registerEntry servicesInfo svcCreatePort pid clientPort name nameSize
      isNamedPort).1 = false := by
  unfold registerEntry
  simp only
  split_ifs
  · exact wouldBlock_check name nameSize
  · exact (by decide : wouldBlock 0xD9001BFC = false)
  · exact (by decide : wouldBlock 0xD86067F3 = false)
  · exact wouldBlock_check name nameSize
  · cases svcCreatePort with
    | none => exact (by decide : wouldBlock 0xD9001BFC = false)
    | some ports => exact wouldBlock_check name nameSize

theorem handled_register {e : Answers} {pid : BitVec 32} {clientPort serverPort : Handle}
    {isNamedPort : Bool} {u : SmState}
    (hcommand : s.cmdbuf.command = if isNamedPort then 6 else 3)
    (h : doRegisterServiceOrPort e s pid clientPort s.cmdbuf.name s.cmdbuf.nameSize isNamedPort =
      some (res, serverPort, u))
    (hreply : ∃ c, t = { u with cmdbuf := c }) : Handled s i res t := by
  obtain ⟨c, rfl⟩ := hreply
  have hquiet := wouldBlock_registerEntry s.servicesInfo e.svcCreatePort pid clientPort
    s.cmdbuf.name s.cmdbuf.nameSize isNamedPort
  unfold doRegisterServiceOrPort at h
  by_cases hex : ∃ port, Accepts s.servicesInfo e.svcCreatePort clientPort s.cmdbuf.name
      s.cmdbuf.nameSize isNamedPort port
  · obtain ⟨port, hport⟩ := hex
    have hparent := parent_wakeWaiting s s.cmdbuf.name isNamedPort
    obtain ⟨woken, hqueue, hcount⟩ := nodes_wakeWaiting s s.cmdbuf.name isNamedPort
    rw [registerEntry_accepts hport] at h hquiet
    simp only [ne_eq, not_true_eq_false, if_false] at h
    by_cases hfull : 0 < (wakeWaiting s s.cmdbuf.name isNamedPort).2 ∧
        semaphoreMax < s.semaphore + (wakeWaiting s s.cmdbuf.name isNamedPort).2
    · rw [if_pos hfull] at h
      cases h
    · rw [if_neg hfull] at h
      cases h
      exact {
        sent := rfl
        others := fun _ _ => rfl
        place := by
          intro j
          rw [SmState.place, hparent j]
          split_ifs with hwake
          · exact .inr ⟨hwake.1, rfl⟩
          · exact .inl rfl
        queue := ⟨woken, hqueue.symm⟩
        semaphore := by
          simp only [SmState.toWakeUp, hqueue, hcount, List.length_append]
          omega
        blocks := fun hblock => absurd (hquiet.symm.trans hblock) Bool.false_ne_true
        registers := by
          intro _
          refine ⟨isNamedPort, hcommand, checkServiceName_eq_zero.mp hport.1,
            ⟨_, rfl, rfl, rfl⟩, ?_⟩
          intro j hj hwake
          rw [SmState.place, hparent j]
          exact if_pos ⟨hj, hwake⟩ }
  · obtain ⟨code, hcode, heq⟩ := registerEntry_rejects pid fun port hport => hex ⟨port, hport⟩
    rw [heq] at h hquiet
    simp only [hcode, ne_eq, not_false_eq_true, if_true] at h
    cases h
    exact .of_quiet rfl (fun _ _ => rfl) rfl rfl (Nat.le_refl _) hquiet

theorem handled_enableNotification {v : KernelVersion} {e : Answers}
    (h : enableNotification v e s i = some (res, t)) : Handled s i res t := by
  unfold enableNotification at h
  simp only at h
  split_ifs at h
  · cases h
    exact .of_quiet rfl (fun _ _ => rfl) rfl rfl (Nat.le_refl _) (by decide : wouldBlock 0 = false)
  · obtain ⟨processes, -, heq⟩ := Option.map_eq_some_iff.mp h
    cases heq
    exact .of_quiet rfl (fun _ _ => rfl) rfl rfl (Nat.le_refl _) (by decide : wouldBlock 0 = false)
  · cases h
    exact .of_quiet rfl (fun _ _ => rfl) rfl rfl (Nat.le_refl _)
      (by decide : wouldBlock 0xD8806404 = false)

theorem handled_registerService {e : Answers} (hcommand : s.cmdbuf.command = 3)
    (h : registerService e s i = some (res, t)) : Handled s i res t := by
  obtain ⟨⟨code, serverPort, u⟩, hreg, heq⟩ := Option.map_eq_some_iff.mp h
  cases heq
  have hkind : s.cmdbuf.command = if false = true then 6 else 3 := hcommand
  exact handled_register hkind hreg ⟨_, rfl⟩

theorem handled_registerPort {e : Answers} (hcommand : s.cmdbuf.command = 6)
    (h : registerPort e s i = some (res, t)) : Handled s i res t := by
  unfold registerPort at h
  split_ifs at h
  · obtain ⟨⟨code, serverPort, u⟩, hreg, heq⟩ := Option.map_eq_some_iff.mp h
    cases heq
    have hkind : s.cmdbuf.command = if true = true then 6 else 3 := hcommand
    exact handled_register hkind hreg ⟨_, rfl⟩
  · exact handled_invalid (by decide) h

theorem handled_srv {v : KernelVersion} {e : Answers}
    (h : srvHandleCommands v e s i = some (res, t)) : Handled s i res t := by
  unfold srvHandleCommands at h
  split at h
  case h_1 => exact handled_registerClient h
  case h_2 => exact handled_enableNotification h
  case h_3 hcommand => exact handled_registerService hcommand h
  case h_4 => exact handled_unregister h
  case h_5 hcommand => exact handled_getServiceHandle hcommand h
  case h_6 hcommand => exact handled_registerPort hcommand h
  case h_7 => exact handled_unregister h
  case h_8 hcommand => exact handled_getPort hcommand h
  case h_9 => exact handled_isServiceRegistered h
  case h_15 => exact handled_invalid (by decide) h
  all_goals exact handled_notification h

theorem wouldBlock_registerProcess {maxEntries : Nat} {processes processes' : List (BitVec 32)}
    {pid : BitVec 32} {serviceAccessListSize : Nat}
    (h : registerProcess maxEntries processes pid serviceAccessListSize = some (res, processes')) :
    wouldBlock res = false := by
  unfold registerProcess at h
  simp only at h
  split_ifs at h
  · cases h
    decide
  · cases h
    decide
  · obtain ⟨_, -, heq⟩ := Option.map_eq_some_iff.mp h
    cases heq
    decide

theorem handled_registerProcess {v : KernelVersion} {mask : BitVec 32}
    (h : registerProcessCommand v s mask = some (res, t)) : Handled s i res t := by
  unfold registerProcessCommand at h
  generalize (if v.isPre93 then 32 else 34) = maxEntries at h
  split_ifs at h
  · obtain ⟨⟨code, processes⟩, hreg, heq⟩ := Option.map_eq_some_iff.mp h
    cases heq
    exact .of_quiet rfl (fun _ _ => rfl) rfl rfl (Nat.le_refl _) (wouldBlock_registerProcess hreg)
  · exact handled_invalid (by decide) h

theorem handled_unregisterProcess {mask : BitVec 32}
    (h : unregisterProcessCommand s mask = some (res, t)) : Handled s i res t := by
  unfold unregisterProcessCommand at h
  rcases unregisterProcess_cases s.servicesInfo s.processes s.cmdbuf.w1 with heq | heq
  · have hlen : (unregisterServicesOf s.servicesInfo s.cmdbuf.w1).length ≤
        s.servicesInfo.length :=
      (SwapRemove.removeAll_perm _ _).length_eq.trans_le (List.length_filter_le _ _)
    rw [heq] at h
    cases h
    exact .of_quiet rfl (fun _ _ => rfl) rfl rfl hlen (by decide : wouldBlock 0 = false)
  · rw [heq] at h
    cases h
    exact .of_quiet rfl (fun _ _ => rfl) rfl rfl (Nat.le_refl _)
      (by decide : wouldBlock 0xD8806404 = false)

theorem handled_srvPm {v : KernelVersion} {e : Answers}
    (h : srvPmHandleCommands v e s i = some (res, t)) : Handled s i res t := by
  unfold srvPmHandleCommands at h
  simp only at h
  split_ifs at h
  · exact handled_srv h
  · exact handled_invalid (by decide) h
  · split at h
    case h_1 => exact handled_notification h
    case h_2 => exact handled_notification h
    case h_3 => exact handled_registerProcess h
    case h_4 => exact handled_unregisterProcess h
    case h_5 => exact handled_invalid (by decide) h

end Commands

theorem handleCommand_cases {v : KernelVersion} {e : Answers} {s t : SmState} {i : SessionId}
    (h : handleCommand v e s i = some t) :
    ∃ res u, Handled s i res u ∧
      ((wouldBlock res = false ∧ t = { u with replyTarget := some i }) ∨
        (wouldBlock res = true ∧ ∃ dst,
          (dst = .waitingForServiceOrPortRegister ∨ dst = .waitingPortReady) ∧
            t = u.move i dst true)) := by
  unfold handleCommand at h
  simp only at h
  obtain ⟨⟨res, u⟩, hcommand, hpark⟩ := Option.bind_eq_some_iff.mp h
  have hhandled : Handled s i res u := by
    split_ifs at hcommand
    · exact handled_srvPm hcommand
    · exact handled_srv hcommand
  refine ⟨res, u, hhandled, ?_⟩
  by_cases hblock : wouldBlock res = true
  · rw [if_pos hblock] at hpark
    right
    split_ifs at hpark
    · cases hpark
      exact ⟨hblock, _, .inl rfl, rfl⟩
    · cases hpark
      exact ⟨hblock, _, .inr rfl, rfl⟩
  · rw [if_neg hblock] at hpark
    cases hpark
    exact .inl ⟨Bool.eq_false_iff.mpr hblock, rfl⟩

end Presence3DS.Sm
