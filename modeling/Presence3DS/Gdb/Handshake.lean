import Presence3DS.Gdb.MonitorRuns

/-! The server's side of the handshake, and all runs whose steps are well timed. -/

namespace Presence3DS.Gdb.Monitor
open RecursiveLock Runs

variable {s t : Debugger} {k : Nat}

/-! ## Steps that end outside the handshake -/

/-- Where nothing is relied on but the locks. -/
def ServerPc.plain : ServerPc → Bool
  | .packet _ _ => false
  | .handshake pc _ _ => pc = .lock || pc = .mark || pc = .leave
  | _ => true

theorem Inv.of_plain (hlocks : Records t.locks t.levels) (howned : Owned t)
    (hconnected : Connected t) (hplain : t.server.plain = true) : Inv t where
  locks := hlocks
  owned := howned
  connected := hconnected
  packet k command hpc := by
    rw [hpc] at hplain
    exact absurd hplain Bool.false_ne_true
  agreed pc k purpose hpc := by
    rw [hpc] at hplain
    cases pc
    case lock | mark | leave =>
      exact ⟨nofun, nofun, nofun, nofun, fun _ => nofun⟩
    all_goals exact absurd hplain Bool.false_ne_true

theorem Owned.of_same (hs : Owned s) (hctxs : t.ctxs = s.ctxs) (hmonitor : t.monitor = s.monitor)
    (hclosed : t.closed = s.closed) (hnext : t.nextHandle = s.nextHandle) : Owned t := by
  apply hs.of_fewer hclosed hnext
  · exact fun i h hi => hctxs ▸ hi
  · rintro i h (hi | hi)
    · exact .inl (.inl (hctxs ▸ hi))
    · exact .inl (.inr (hmonitor ▸ hi))

theorem Work.records_goto (h : Work s t) (hs : Records s.locks s.levels) {pc : ServerPc}
    (hlevels : pc.levels = s.server.levels) : Records t.locks { t with server := pc }.levels :=
  records_of_same (t := { t with server := pc }) hs h.locks h.monitor hlevels

theorem Inv.work (hs : Inv s) (h : Work s t) (pc : ServerPc) (hplain : pc.plain = true)
    (hlevels : pc.levels = s.server.levels) : Inv (t.gotoServer pc) :=
  .of_plain (h.records_goto hs.locks hlevels) ((h.owned hs.owned).of_same rfl rfl rfl rfl)
    (h.connected hs.connected) hplain

theorem records_lock (hs : Inv s) {locks : Nat → RecursiveLock Thread}
    (hlock : lockAt .server k s.locks = some locks) {pc : ServerPc}
    (hlevels : ∀ j, pc.levels j = s.server.levels j + if j = k then 1 else 0) :
    Records locks { s with server := pc }.levels := by
  apply hs.locks.lockAt hlock
  intro q j
  cases q with
  | monitor => simp [Debugger.levels]
  | server => simpa [Debugger.levels] using hlevels j

theorem records_unlock (hs : Inv s) (hheld : 0 < s.levels .server k) {pc : ServerPc}
    (hlevels : ∀ j, pc.levels j = s.server.levels j - if j = k then 1 else 0) :
    Records (unlockAt k s.locks) { s with server := pc }.levels := by
  apply hs.locks.unlockAt (p := .server) hheld
  intro q j
  cases q with
  | monitor => simp [Debugger.levels]
  | server => simpa [Debugger.levels] using hlevels j

theorem Inv.lock (hs : Inv s) (hlock : s.lock .server k = some t) (pc : ServerPc)
    (hplain : pc.plain = true)
    (hlevels : ∀ j, pc.levels j = s.server.levels j + if j = k then 1 else 0) :
    Inv (t.gotoServer pc) := by
  obtain ⟨locks, hlocks, rfl⟩ := Debugger.lock_eq_some hlock
  exact .of_plain (records_lock hs hlocks hlevels) (hs.owned.of_same rfl rfl rfl rfl) hs.connected
    hplain

theorem Inv.unlock (hs : Inv s) (hheld : 0 < s.server.levels k) (pc : ServerPc)
    (hplain : pc.plain = true)
    (hlevels : ∀ j, pc.levels j = s.server.levels j - if j = k then 1 else 0) :
    Inv ((s.unlock k).gotoServer pc) :=
  .of_plain (records_unlock hs hheld hlevels) (hs.owned.of_same rfl rfl rfl rfl) hs.connected hplain

/-! ## `GDB_DoPacket` -/

theorem Inv.handleCommand (hs : Inv s) {command : Command} {continuing : Bool}
    (hpc : s.server = .handle k command continuing) :
    Inv (s.handleCommand k command continuing) := by
  have hgo : ∀ (t : Debugger) (pc : ServerPc), Work s t → pc.plain = true →
      pc.context = some (k, 1) → Inv (t.gotoServer pc) := by
    intro t pc ht hplain hcontext
    apply hs.work ht pc hplain
    funext j
    rw [hpc]
    exact (ServerPc.levels_of_context hcontext j).trans (ServerPc.levels_of_context rfl j).symm
  have hstate := (s.setState_calm k .detaching nofun).work
  unfold Debugger.handleCommand
  cases command with
  | detach | kill | verboseKill =>
    dsimp only
    split_ifs
    · exact hgo _ _ hstate rfl rfl
    · exact hgo _ _ hstate rfl rfl
  | restart | run | attach =>
    dsimp only
    split_ifs
    · exact hgo s _ (.refl s) rfl rfl
    · exact hgo s _ (.refl s) rfl rfl
  | enableExtendedMode =>
    exact hgo _ _ (s.setCtx_work k _ (fun _ h => h) (fun _ h => .inl h) fun h => .inr ⟨h, rfl⟩)
      rfl rfl
  | other processContinuing =>
    exact hgo _ _ (s.setCtx_work k _ (fun _ h => h) (fun _ h => .inl h) fun h => .inr ⟨h, rfl⟩)
      rfl rfl

theorem Inv.launchStep (hs : Inv s) {command : Command} {continuing : Bool}
    (hpc : s.server = .launching k command continuing) (w : Answers) :
    Inv (s.launchStep k command continuing w) := by
  have hwork : Work s
      (if command = .attach then s.attachToProcess k w.attached else s.createProcess k w).1 := by
    split_ifs
    · exact s.attachToProcess_work k w.attached
    · exact s.createProcess_work k w
  have hlevels : ∀ pc : ServerPc, pc.context = some (k, 2) → pc.levels = s.server.levels := by
    intro pc hcontext
    funext j
    rw [hpc]
    exact (ServerPc.levels_of_context hcontext j).trans (ServerPc.levels_of_context rfl j).symm
  unfold Debugger.launchStep
  generalize (if command = .attach then s.attachToProcess k w.attached
    else s.createProcess k w) = r at hwork
  dsimp only
  split
  · exact hs.work hwork (.launched k continuing) rfl (hlevels _ rfl)
  · exact hs.work hwork (.handshake .lock k (.detach .failedLaunch continuing)) rfl (hlevels _ rfl)

theorem Inv.endPacket (hs : Inv s) {continuing : Bool} (hpc : s.server = .endPacket k continuing)
    (w : Answers) : Inv (s.endPacket k continuing w) := by
  have hgo : ∀ (t : Debugger) (close : Bool), Work s t →
      Inv (t.gotoServer (.leavePacket k close)) := by
    intro t close ht
    apply hs.work ht _ rfl
    funext j
    rw [hpc]
    rfl
  have hctx : ∀ ctx : Context, ctx.debug = (s.ctxs k).debug →
      ctx.eventToWaitFor = (s.ctxs k).eventToWaitFor → ctx.used = (s.ctxs k).used →
      ctx.state ≠ .disconnected ∨ ctx.state = (s.ctxs k).state → Work s (s.setCtx k ctx) := by
    intro ctx hdebug hevent hused hstate
    apply s.setCtx_work k ctx
    · exact fun h hh => hdebug ▸ hh
    · exact fun h hh => .inl (hevent ▸ hh)
    · exact fun hu => hstate.imp_right fun hsame => ⟨hused ▸ hu, hsame⟩
  unfold Debugger.endPacket
  dsimp only
  split_ifs
  · exact hgo _ _ (hctx _ rfl rfl rfl (.inl nofun))
  · exact hgo s _ (.refl s)
  · exact hgo _ _ (hctx _ rfl rfl rfl (.inr rfl))
  · have hsignal := hctx { s.ctxs k with continued := true } rfl rfl rfl (.inr rfl)
    exact hgo _ _ (hsignal.trans (Debugger.notify_work _))
  · exact hgo s _ (.refl s)

/-! ## The handshake -/

theorem Purpose.levels_after (purpose : Purpose) (k j : Nat) :
    (Debugger.afterHandshake k purpose).levels j =
      (ServerPc.handshake .leave k purpose).levels j - if j = k then 1 else 0 := by
  cases purpose with
  | close => simp [Debugger.afterHandshake, ServerPc.levels, ServerPc.context, base,
      HandshakePc.locked]
  | detach after continuing =>
    cases after <;> simp only [Debugger.afterHandshake, ServerPc.levels, ServerPc.context, base,
      HandshakePc.locked] <;> split_ifs <;> rfl

theorem Inv.finish (hs : Inv s) {purpose : Purpose}
    (hpc : s.server = .handshake .finish k purpose) :
    Inv ((s.finish k purpose).gotoServer (.handshake .leave k purpose)) := by
  have hclear : s.Cleared k := (hs.agreed _ _ _ hpc).parted (by decide)
  have hdetach := (Debugger.detachFromProcess_calm hclear).work
  have hwork : Work s (s.finish k purpose) := by
    cases purpose with
    | detach after continuing => exact hdetach.trans (Debugger.restartFlags_calm _ k).work
    | close =>
      unfold Debugger.finish
      dsimp only
      split_ifs
      · exact hdetach.trans (Debugger.setCtx_work _ k _ (fun _ h => h) (fun _ h => .inl h) nofun)
      · exact s.setCtx_work k _ (fun _ h => h) (fun _ h => .inl h) nofun
  apply hs.work hwork _ rfl
  funext j
  rw [hpc]
  rfl


theorem Debugger.notify_event (s : Debugger) (i : Nat) :
    (s.notify.ctxs i).eventToWaitFor = (s.ctxs i).eventToWaitFor := by
  rcases s.notify_eq with hsame | ⟨handles, w, hpc, -, hwake⟩
  · rw [hsame]
  · rw [hwake]
    exact (wake_woken (hpc ▸ rfl) handles w).event i

theorem Debugger.notify_received (s : Debugger) :
    s.notify.statusUpdateReceived = s.statusUpdateReceived := by
  rcases s.notify_eq with hsame | ⟨handles, w, hpc, -, hwake⟩
  · rw [hsame]
  · rw [hwake]
    exact (wake_woken (hpc ▸ rfl) handles w).received

theorem Debugger.Cleared.notify (h : s.Cleared k) : s.notify.Cleared k := by
  rcases s.notify_eq with hsame | ⟨handles, w, hpc, -, hwake⟩
  · rwa [hsame]
  · intro copied hcopied
    rw [hwake, (Debugger.wake_woken (hpc ▸ rfl) handles w).monitor] at hcopied
    cases hcopied

theorem Debugger.notify_attentive (hupdated : s.statusUpdated = true)
    (hattends : s.monitor.attends = true) : s.notify.Attentive := by
  cases hpc : s.monitor with
  | waiting handles =>
    have hfirst := s.firstSignaled_updated hupdated handles
    cases hw : s.firstSignaled handles with
    | none => simp [hw] at hfirst
    | some w =>
      have hwake : s.notify = s.wake handles w := by simp only [notify, hpc, enterWait, hw]
      exact hwake ▸ s.wake_attentive handles (hw ▸ hfirst)
  | unlockAll | waitEntry | updated | leaving | stopped =>
    simp [notify, hpc, Attentive, hupdated]
  | _ => simp [hpc, MonitorPc.attends] at hattends

section Handshake
variable {pc : HandshakePc} {purpose : Purpose}

theorem Inv.of_agreed {locks : Nat → RecursiveLock Thread}
    (hlocks : Records locks { t with server := .handshake pc k purpose }.levels) (howned : Owned t)
    (hconnected : Connected t) (hagreed : Agreed t pc k purpose) :
    Inv ({ t with locks }.gotoServer (.handshake pc k purpose)) where
  locks := hlocks
  owned := howned.of_same rfl rfl rfl rfl
  connected := hconnected
  packet _ _ hpacket := absurd hpacket nofun
  agreed pc' j purpose' hpc := by
    obtain ⟨rfl, rfl, rfl⟩ := ServerPc.handshake.inj hpc
    exact ⟨hagreed.unwatched, hagreed.cleared, hagreed.parted, hagreed.attended, hagreed.direct⟩

theorem ServerPc.levels_locked (pc' : HandshakePc) (h : pc'.locked = pc.locked) (k : Nat)
    (purpose : Purpose) :
    (handshake pc' k purpose).levels = (handshake pc k purpose).levels := by
  funext j
  simp only [levels, context, h]

theorem ServerPc.levels_lock (pc' : HandshakePc) (h : pc.locked = false) (h' : pc'.locked = true)
    (k : Nat) (purpose : Purpose) (j : Nat) : (handshake pc' k purpose).levels j =
      (handshake pc k purpose).levels j + if j = k then 1 else 0 := by
  simp only [levels, context, h, h']
  rcases eq_or_ne j k with rfl | hjk
  · simp
  · simp [hjk]

theorem ServerPc.levels_unlock (pc' : HandshakePc) (h : pc.locked = true) (h' : pc'.locked = false)
    (k : Nat) (purpose : Purpose) (j : Nat) : (handshake pc' k purpose).levels j =
      (handshake pc k purpose).levels j - if j = k then 1 else 0 := by
  rw [levels_lock pc h' h k purpose j, Nat.add_sub_cancel]

theorem Inv.mark (hs : Inv s) (hpc : s.server = .handshake .mark k purpose) (state : GdbState)
    (hstate : state ≠ .disconnected ∨ state = (s.ctxs k).state) :
    Inv (((s.setCtx k { s.ctxs k with state }).resetAttached k).gotoServer
      (.handshake .clear k purpose)) := by
  have hcalm := (s.setCtx_calm k { s.ctxs k with state } (fun _ h => h) (fun _ h => h) rfl
    hstate).trans (Debugger.resetAttached_calm _ k)
  have hlevels : (ServerPc.handshake .clear k purpose).levels =
      (ServerPc.handshake .mark k purpose).levels := ServerPc.levels_locked .clear rfl k purpose
  apply Inv.of_agreed _ (hcalm.work.owned hs.owned) (hcalm.work.connected hs.connected)
  · refine ⟨fun _ h hh => ?_, nofun, nofun, nofun, fun _ => nofun⟩
    simp [Debugger.resetAttached, Debugger.setCtx] at hh
  · exact hcalm.work.records_goto hs.locks (hlevels.trans (congrArg ServerPc.levels hpc.symm))

theorem Inv.signal (hs : Inv s) (hpc : s.server = .handshake .signal k purpose)
    (htimed : purpose ≠ .close → s.statusUpdateReceived = true ∨ s.monitor.attends = true) :
    Inv ({ s with statusUpdated := true }.notify.gotoServer (.handshake .unlock k purpose)) := by
  have hagreed := hs.agreed _ _ _ hpc
  have hlevels : (ServerPc.handshake .unlock k purpose).levels =
      (ServerPc.handshake .signal k purpose).levels := ServerPc.levels_locked .unlock rfl k purpose
  have hasked : Work s { s with statusUpdated := true } :=
    ⟨rfl, rfl, rfl, fun howned => howned.of_same rfl rfl rfl rfl, id⟩
  have hwork := hasked.trans (Debugger.notify_work _)
  apply Inv.of_agreed _ (hwork.owned hs.owned) (hwork.connected hs.connected)
  · constructor
    case unwatched =>
      intro _ h
      rw [Debugger.notify_event]
      exact hagreed.unwatched rfl h
    case cleared =>
      intro _ hreceived
      rw [Debugger.notify_received] at hreceived
      exact Debugger.Cleared.notify (hagreed.cleared (by decide) hreceived)
    case parted => exact nofun
    case attended =>
      intro hpurpose _
      rw [Debugger.notify_received]
      exact (htimed hpurpose).imp_right fun hattends => Debugger.notify_attentive rfl hattends
    case direct => exact fun _ => nofun
  · exact hwork.records_goto hs.locks (hlevels.trans (congrArg ServerPc.levels hpc.symm))

theorem Inv.next (hs : Inv s) (pc' : HandshakePc) {locks : Nat → RecursiveLock Thread}
    (hlocks : Records locks { s with server := .handshake pc' k purpose }.levels)
    (hagreed : Agreed s pc' k purpose) :
    Inv ({ s with locks }.gotoServer (.handshake pc' k purpose)) :=
  .of_agreed hlocks hs.owned hs.connected hagreed

theorem Inv.handshakeStep (hs : Inv s) (hpc : s.server = .handshake pc k purpose)
    (htimed : pc = .signal → purpose ≠ .close →
      s.statusUpdateReceived = true ∨ s.monitor.attends = true)
    (h : s.handshakeStep pc k purpose = some t) : Inv t := by
  have hagreed := hs.agreed pc k purpose hpc
  have hlocks : ∀ pc' : HandshakePc, pc'.locked = pc.locked →
      Records s.locks { s with server := .handshake pc' k purpose }.levels := fun pc' hlocked =>
    (Work.refl s).records_goto hs.locks
      ((ServerPc.levels_locked pc' hlocked k purpose).trans (congrArg ServerPc.levels hpc.symm))
  have hlocked : ∀ pc' : HandshakePc, pc.locked = false → pc'.locked = true → ∀ j,
      (ServerPc.handshake pc' k purpose).levels j =
        s.server.levels j + if j = k then 1 else 0 := fun pc' hfree htaken j =>
    hpc ▸ ServerPc.levels_lock pc' hfree htaken k purpose j
  have hheld : pc.locked = true → 0 < s.levels .server k := by
    intro htaken
    show 0 < s.server.levels k
    rw [hpc, ServerPc.levels_handshake, if_pos htaken]
    exact Nat.succ_pos _
  cases pc with
  | lock =>
    obtain ⟨u, hlock, rfl⟩ := Option.map_eq_some_iff.mp h
    exact hs.lock hlock _ rfl (hlocked .mark rfl rfl)
  | mark =>
    rcases Option.some.inj h with rfl
    apply hs.mark hpc
    split_ifs
    · exact .inr rfl
    · exact .inl nofun
  | clear =>
    rcases Option.some.inj h with rfl
    refine .of_agreed (t := { s with statusUpdateReceived := false }) (hlocks .signal rfl)
      (hs.owned.of_same rfl rfl rfl rfl) hs.connected ?_
    exact ⟨fun _ => hagreed.unwatched rfl, fun _ => nofun, nofun, nofun, fun _ => nofun⟩
  | signal => exact Option.some.inj h ▸ hs.signal hpc (htimed rfl)
  | unlock =>
    rcases Option.some.inj h with rfl
    have hgo : ∀ pc' : HandshakePc, pc'.locked = false → Agreed s pc' k purpose →
        Inv ((s.unlock k).gotoServer (.handshake pc' k purpose)) := by
      intro pc' hfree hagreed'
      apply hs.next pc' (records_unlock hs (hheld rfl) fun j => ?_) hagreed'
      exact hpc ▸ ServerPc.levels_unlock pc' rfl hfree k purpose j
    split_ifs with hpurpose
    · apply hgo .check rfl
      exact ⟨fun _ => hagreed.unwatched rfl, fun _ => hagreed.cleared (by decide), nofun,
        fun hdetach => absurd hpurpose hdetach, fun hdetach => absurd hpurpose hdetach⟩
    · apply hgo .await rfl
      exact ⟨fun _ => hagreed.unwatched rfl, fun _ => hagreed.cleared (by decide), nofun,
        fun hdetach _ => hagreed.attended hdetach (by decide), fun _ => nofun⟩
  | check =>
    rcases Option.some.inj h with rfl
    have hclose : purpose = .close := by
      by_contra hdetach
      exact hagreed.direct hdetach rfl
    split_ifs with hcounted
    · apply hs.next .await (hlocks .await rfl)
      exact ⟨fun _ => hagreed.unwatched rfl, fun _ => hagreed.cleared (by decide), nofun,
        fun hdetach => absurd hclose hdetach, fun _ => nofun⟩
    · apply hs.next .relock (hlocks .relock rfl)
      refine ⟨fun _ => hagreed.unwatched rfl, nofun, fun _ handles hhandles => ?_,
        fun hdetach => absurd hclose hdetach, fun _ => nofun⟩
      revert hcounted hhandles
      unfold Debugger.monitorCounted
      cases s.monitor <;> simp [MonitorPc.handles]
  | await =>
    obtain ⟨hreceived, h⟩ := Option.ite_none_right_eq_some.mp h
    rcases Option.some.inj h with rfl
    apply hs.next .relock (hlocks .relock rfl)
    exact ⟨fun _ => hagreed.unwatched rfl, nofun, fun _ => hagreed.cleared (by decide) hreceived,
      fun _ => nofun, fun _ => nofun⟩
  | relock =>
    obtain ⟨u, hlock, rfl⟩ := Option.map_eq_some_iff.mp h
    obtain ⟨locks, htaken, rfl⟩ := Debugger.lock_eq_some hlock
    apply hs.next .finish (records_lock hs htaken (hlocked .finish rfl rfl))
    exact ⟨fun _ => hagreed.unwatched rfl, nofun, fun _ => hagreed.parted (by decide),
      fun _ => nofun, fun _ => nofun⟩
  | finish => exact Option.some.inj h ▸ hs.finish hpc
  | leave =>
    rcases Option.some.inj h with rfl
    apply hs.unlock (hheld rfl)
    · cases purpose with
      | close => rfl
      | detach after continuing => cases after <;> rfl
    · exact fun j => hpc ▸ purpose.levels_after k j

end Handshake

/-! ## Every step -/

theorem Inv.serverStep (hs : Inv s) {w : Answers} (htimed : wellTimed s (.server w) = true)
    (h : s.serverStep w = some t) : Inv t := by
  unfold Debugger.serverStep at h
  cases hpc : s.server <;> simp only [hpc] at h
  case idle => cases h
  case packet k command =>
    obtain ⟨u, hlock, rfl⟩ := Option.map_eq_some_iff.mp h
    rw [if_neg (hs.connected k (hs.packet k command hpc))]
    exact hs.lock hlock _ rfl fun j => by simp [ServerPc.levels, ServerPc.context, hpc]
  case handle k command continuing => exact Option.some.inj h ▸ hs.handleCommand hpc
  case handshake pc k purpose =>
    apply hs.handshakeStep hpc _ h
    rintro rfl hpurpose
    cases purpose with
    | close => exact absurd rfl hpurpose
    | detach after continuing => simpa [wellTimed, hpc] using htimed
  case launch k command continuing =>
    obtain ⟨u, hlock, rfl⟩ := Option.map_eq_some_iff.mp h
    apply hs.lock hlock _ rfl
    intro j
    rw [hpc, ServerPc.levels_of_context rfl j, ServerPc.levels_of_context rfl j]
    split_ifs <;> rfl
  case launching k command continuing => exact Option.some.inj h ▸ hs.launchStep hpc w
  case launched k continuing =>
    rcases Option.some.inj h with rfl
    apply hs.unlock _ _ rfl
    · intro j
      rw [hpc, ServerPc.levels_of_context rfl j, ServerPc.levels_of_context rfl j]
      split_ifs <;> rfl
    · show 0 < s.server.levels k
      rw [hpc, ServerPc.levels_of_context rfl k, if_pos rfl]
      exact Nat.two_pos
  case endPacket k continuing => exact Option.some.inj h ▸ hs.endPacket hpc w
  case leavePacket k close =>
    rcases Option.some.inj h with rfl
    apply hs.unlock
    · show 0 < s.server.levels k
      rw [hpc, ServerPc.levels_of_context rfl k, if_pos rfl]
      exact Nat.one_pos
    · cases close <;> rfl
    · intro j
      cases close <;> simp [ServerPc.levels, ServerPc.context, hpc, Purpose.base,
        HandshakePc.locked]

theorem Inv.of_signals (hs : Inv s) (pending : Nat → Nat) (terminating halted : Bool) :
    Inv { s with pending, terminating, halted } where
  locks := hs.locks
  owned := hs.owned.of_same rfl rfl rfl rfl
  connected := hs.connected
  packet := hs.packet
  agreed pc k purpose hpc :=
    have hagreed := hs.agreed pc k purpose hpc
    ⟨hagreed.unwatched, hagreed.cleared, hagreed.parted, hagreed.attended, hagreed.direct⟩

theorem Inv.calm (hs : Inv s) (h : Calm s t) : Inv t where
  locks := h.work.records hs.locks
  owned := h.work.owned hs.owned
  connected := h.work.connected hs.connected
  packet k command hpc := (h.used k).trans (hs.packet k command (h.work.server ▸ hpc))
  agreed pc k purpose hpc := by
    have hagreed := hs.agreed pc k purpose (h.work.server ▸ hpc)
    constructor
    case unwatched =>
      intro hmarked event hevent
      exact hagreed.unwatched hmarked event (h.event k event hevent)
    case cleared =>
      intro hmem hreceived
      exact (hagreed.cleared hmem (h.received ▸ hreceived)).of_monitor h.monitor
    case parted => exact fun hmem => (hagreed.parted hmem).of_monitor h.monitor
    case attended =>
      intro hpurpose hmem
      have hattended := hagreed.attended hpurpose hmem
      rwa [Debugger.Attentive, ← h.received, ← h.monitor, ← h.updated] at hattended
    case direct => exact hagreed.direct

theorem Debugger.select_calm (s : Debugger) (k : Nat) (launched : Bool) :
    Calm s (s.select k launched) := by
  have hflag : ∀ (u : Debugger) (selected attachedAtStart : Bool),
      Calm u (u.setCtx k { u.ctxs k with selected, attachedAtStart }) := fun u _ _ =>
    u.setCtx_calm k _ (fun _ h => h) (fun _ h => h) rfl (.inr rfl)
  have hopen : ∀ u : Debugger, Calm u (u.openDebug k) := by
    intro u
    have hctx : ∀ j, ((u.openDebug k).ctxs j).used = (u.ctxs j).used ∧
        ((u.openDebug k).ctxs j).eventToWaitFor = (u.ctxs j).eventToWaitFor := by
      intro j
      rcases eq_or_ne j k with rfl | hjk
      · simp [openDebug, setCtx]
      · simp [openDebug, setCtx, hjk]
    exact ⟨u.openDebug_work k, rfl, fun j => (hctx j).1, fun j h hj => (hctx j).2 ▸ hj, rfl, rfl⟩
  unfold select
  dsimp only
  split_ifs
  · exact ((hflag s true _).trans (hflag _ _ true)).trans (hopen _)
  · exact hflag s true _

theorem Inv.idle (hs : Inv s) (hidle : s.serverIdle = true) (h : Work s t) : Inv t := by
  apply Inv.of_plain (h.records hs.locks) (h.owned hs.owned) (h.connected hs.connected)
  rw [h.server]
  unfold Debugger.serverIdle at hidle
  revert hidle
  cases s.server <;> simp [ServerPc.plain]

theorem Debugger.idle_levels (hidle : s.serverIdle = true) : s.server.levels = fun _ => 0 := by
  unfold serverIdle at hidle
  revert hidle
  cases s.server <;> simp [funext_iff, ServerPc.levels, ServerPc.context]

theorem ServerPc.close_levels (k : Nat) : (handshake .lock k .close).levels = fun _ => 0 := by
  funext j
  simp [levels, context, Purpose.base, HandshakePc.locked]

theorem Inv.acceptClient (hs : Inv s) (hidle : s.serverIdle = true) (ok : Bool) :
    Inv (s.acceptClient k ok) := by
  have hserve : Work s (s.setCtx k { s.ctxs k with used := true, state := .connected }) :=
    s.setCtx_work k _ (fun _ h => h) (fun _ h => .inl h) fun _ => .inl nofun
  unfold Debugger.acceptClient
  dsimp only
  split_ifs
  · exact hs.idle hidle (hserve.trans (Debugger.attachToProcess_work _ k ok))
  · apply hs.work (hserve.trans (Debugger.attachToProcess_work _ k ok)) _ rfl
    rw [ServerPc.close_levels, s.idle_levels hidle]
  · exact hs.idle hidle hserve

theorem Inv.step (hs : Inv s) {a : Action} (htimed : wellTimed s a = true)
    (h : Monitor.step s a = some t) : Inv t := by
  cases a with
  | monitor event =>
    have hspared : s.Spared := by
      rintro i ⟨hpc, hlive, hevent⟩
      simpa [wellTimed, hpc, hlive, hevent] using htimed
    exact hs.monitorStep hspared h
  | server w => exact hs.serverStep htimed h
  | accept k attached =>
    obtain ⟨⟨hidle, -⟩, h⟩ := Option.ite_none_right_eq_some.mp h
    exact Option.some.inj h ▸ hs.acceptClient hidle attached
  | receive k command =>
    obtain ⟨⟨hidle, hused⟩, h⟩ := Option.ite_none_right_eq_some.mp h
    rcases Option.some.inj h with rfl
    refine ⟨(Work.refl s).records_goto hs.locks (s.idle_levels hidle).symm,
      hs.owned.of_same rfl rfl rfl rfl, hs.connected, ?_, nofun⟩
    rintro j command' hpc
    rcases (ServerPc.packet.inj hpc).1 with rfl
    exact hused
  | hangUp k =>
    obtain ⟨⟨hidle, -⟩, h⟩ := Option.ite_none_right_eq_some.mp h
    rcases Option.some.inj h with rfl
    apply hs.work (.refl s) _ rfl
    rw [ServerPc.close_levels, s.idle_levels hidle]
  | select k launched =>
    obtain ⟨-, h⟩ := Option.ite_none_right_eq_some.mp h
    exact Option.some.inj h ▸ hs.calm (s.select_calm k launched)
  | debugEvent handle =>
    obtain ⟨-, h⟩ := Option.ite_none_right_eq_some.mp h
    exact Option.some.inj h ▸ (hs.of_signals _ s.terminating s.halted).notify
  | terminate => exact Option.some.inj h ▸ (hs.of_signals s.pending true s.halted).notify
  | halt => exact Option.some.inj h ▸ hs.of_signals s.pending s.terminating true

theorem Inv.initial : Inv Monitor.initial where
  locks p k := by cases p <;> rfl
  owned := ⟨nofun, nofun, nofun, nofun⟩
  connected := nofun
  packet := nofun
  agreed := nofun

theorem Inv.sound (hs : Inv s) : Sound s where
  noDeadlock k hawaits := by
    obtain ⟨⟨j, purpose, hpc⟩, hreceived, hheld⟩ := hawaits
    have hlevels : 0 < s.server.levels k := lt_of_lt_of_eq hheld (hs.locks .server k)
    rw [hpc, ServerPc.levels_of_context rfl k] at hlevels
    have hpurpose : purpose ≠ .close := by
      rintro rfl
      simp [Purpose.base, HandshakePc.locked] at hlevels
    rcases (hs.agreed _ _ _ hpc).attended hpurpose (by decide) with hset | hattentive
    · exact absurd (hreceived.symm.trans hset) Bool.false_ne_true
    · revert hattentive
      unfold Debugger.Attentive
      cases s.monitor <;> simp [MonitorPc.wants]
  openWaits handles hwaits i h hi := by
    have hhandles : s.monitor.handles = some handles := by
      revert hwaits
      cases s.monitor <;> simp [MonitorPc.waits, MonitorPc.handles]
    exact (hs.owned.used i h (.inr ⟨handles, hhandles, hi⟩)).2
  openFetches i _ h hi := (hs.owned.held i h hi).2

/-! ## All runs -/

theorem sound_of_wellTimed {as : List Action}
    (htimed : Guarded step (fun s a => wellTimed s a = true) initial as)
    (hrun : run step initial as = some t) : Sound t :=
  (invariant_of_guarded (fun _ _ _ hs hC h => hs.step hC h) Inv.initial htimed hrun).sound

def nextServer : Action := .server ⟨true, true, true, false⟩

def nextMonitor : Action := .monitor .continued

/-- A client attaches to a process, and detaches from it while the monitor waits. -/
def attachDetach : List Action :=
  List.replicate 10 nextMonitor ++
    [.accept 0 true, .receive 0 .enableExtendedMode] ++ List.replicate 4 nextServer ++
    [.receive 0 .attach] ++ List.replicate 7 nextServer ++ List.replicate 12 nextMonitor ++
    [.receive 0 .detach] ++ List.replicate 6 nextServer ++ [nextMonitor] ++
    List.replicate 6 nextServer

theorem sound_attachDetach :
    ∃ t, run step initial attachDetach = some t ∧ t.closed = [1] ∧ Sound t := by
  have htimed : Guarded step (fun s a => wellTimed s a = true) initial attachDetach :=
    guarded_of_guards (by decide)
  exact ⟨_, rfl, rfl, sound_of_wellTimed htimed rfl⟩

/-- A detach while the monitor, on its way around, is at the lock of the context. -/
def detachAtLock : List Action :=
  [nextMonitor, .accept 0 true, .receive 0 .enableExtendedMode] ++ List.replicate 4 nextServer ++
    [.receive 0 .detach] ++ List.replicate 7 nextServer

theorem detachAtLock_unsound : ¬ ∀ as t, run step initial as = some t → Sound t := by
  intro hsound
  have hdeadlock : ∃ t, run step initial detachAtLock = some t ∧ t.AwaitsHolding 0 ∧
      t.monitor.wants = some 0 := ⟨_, rfl, ⟨⟨0, _, rfl⟩, rfl, Nat.one_pos⟩, rfl⟩
  obtain ⟨t, hrun, hawaits, hwants⟩ := hdeadlock
  exact (hsound _ t hrun).noDeadlock 0 hawaits hwants

/-- A client that continues the process and hangs up before the monitor has seen the attach: the
monitor turns to the debug handle while the server waits for its answer, and waits for it still
when it is closed. -/
def hangUpAtAttach : List Action :=
  List.replicate 10 nextMonitor ++
    [.accept 0 true, .receive 0 .enableExtendedMode] ++ List.replicate 4 nextServer ++
    [.receive 0 .attach] ++ List.replicate 7 nextServer ++
    [.receive 0 (.other true)] ++ List.replicate 4 nextServer ++
    [.hangUp 0] ++ List.replicate 6 nextServer ++ List.replicate 34 nextMonitor ++
    List.replicate 3 nextServer

end Presence3DS.Gdb.Monitor
