import Presence3DS.Pxi.Channel

/-! The rounds of a service: each command is sent once, answered once, and its answer goes back to
the session that it came from. -/

namespace Presence3DS.Pxi

/-- A command that has been answered. Its reply is dropped where the session was closed. -/
structure Round where
  client : ClientSession
  command : List Word
  reply : List Word
  delivered : Bool

/-- How far the last command of a service has come. -/
inductive Stage where
  | idle
  | received (client : ClientSession) (command : List Word)
  | sent (client : ClientSession) (command : List Word)
  | answered (client : ClientSession) (command reply : List Word)

namespace Stage

def received? : Stage → List (ClientSession × List Word)
  | .idle => []
  | .received client command | .sent client command => [(client, command)]
  | .answered client command _ => [(client, command)]

def sent? : Stage → List (List Word)
  | .sent _ command => [command]
  | .answered _ command _ => [command]
  | _ => []

def answered? : Stage → List (List Word)
  | .answered _ _ reply => [reply]
  | _ => []

end Stage

/-- All that has happened to the commands of a service is some rounds, the latest first, and what
has happened to its last command. -/
structure Traffic.Follows (t : Traffic) (rounds : List Round) (stage : Stage) : Prop where
  received : t.received = stage.received? ++ rounds.map fun r => (r.client, r.command)
  sent : t.sent = stage.sent? ++ rounds.map Round.command
  answered : t.answered = stage.answered? ++ rounds.map Round.reply
  returned : t.returned =
    rounds.map fun r => (r.client, if r.delivered then some r.reply else none)

namespace PxiState

/-- The last command of a service is where the state of its session says. -/
def At (s : PxiState) (i : Service) : Stage → Prop
  | .idle => s.state i = .idle ∧ s.sender.pc ≠ .replying (some i)
  | .received client command => s.state i = .receivedFromArm11 ∧ s.handle i = some client ∧
    command = message (s.buffer i)
  | .sent client _ => s.state i = .sentToArm9 ∧ s.handle i = some client ∧ i ∈ s.arm9
  | .answered client _ reply => s.handle i = some client ∧
    (s.state i = .sentToArm9 ∧ (∃ r, (i.val, r) ∈ s.fifo ∧ reply = message r) ∨
      s.state i = .receivedFromArm9 ∧ reply = message (s.buffer i) ∨
      s.state i = .idle ∧ s.sender.pc = .replying (some i) ∧ reply = message s.sender.cmdbuf)

def Routes (s : PxiState) (i : Service) : Prop :=
  ∃ rounds stage, (s.trail.traffic i).Follows rounds stage ∧ s.At i stage

end PxiState

section Rounds
variable {s t : PxiState} {event : PxiEvent} {i : Service} {rounds : List Round}

theorem Routes.frame (hs : s.Routes i) (htraffic : t.trail.traffic i = s.trail.traffic i)
    (hstate : t.state i = s.state i) (hhandle : t.handle i = s.handle i)
    (hbuffer : t.buffer i = s.buffer i) (harm9 : i ∈ s.arm9 → i ∈ t.arm9)
    (hfifo : ∀ r, (i.val, r) ∈ s.fifo → (i.val, r) ∈ t.fifo)
    (hsender : t.sender = s.sender ∨
      s.sender.pc ≠ .replying (some i) ∧ t.sender.pc ≠ .replying (some i)) : t.Routes i := by
  obtain ⟨rounds, stage, hfollows, hat⟩ := hs
  refine ⟨rounds, stage, htraffic ▸ hfollows, ?_⟩
  cases stage with
  | idle =>
    refine ⟨hstate.trans hat.1, ?_⟩
    rcases hsender with hsame | hpc
    · rw [hsame]
      exact hat.2
    · exact hpc.2
  | received client command =>
    exact ⟨hstate.trans hat.1, hhandle.trans hat.2.1, hbuffer.symm ▸ hat.2.2⟩
  | sent client command => exact ⟨hstate.trans hat.1, hhandle.trans hat.2.1, harm9 hat.2.2⟩
  | answered client command reply =>
    refine ⟨hhandle.trans hat.1, ?_⟩
    rw [hstate, hbuffer]
    rcases hat.2 with ⟨hsent, r, hr, hreply⟩ | hreceived | ⟨hidle, hpc, hreply⟩
    · exact .inl ⟨hsent, r, hfifo r hr, hreply⟩
    · exact .inr (.inl hreceived)
    · rcases hsender with hsame | hne
      · rw [hsame]
        exact .inr (.inr ⟨hidle, hpc, hreply⟩)
      · exact absurd hpc hne.1

theorem Routes.atIdle (hs : s.Routes i) (hidle : s.state i = .idle)
    (hpc : s.sender.pc ≠ .replying (some i)) :
    ∃ rounds, (s.trail.traffic i).Follows rounds .idle := by
  obtain ⟨rounds, stage, hfollows, hat⟩ := hs
  cases stage with
  | idle => exact ⟨rounds, hfollows⟩
  | received client command => exact absurd (hidle.symm.trans hat.1) nofun
  | sent client command => exact absurd (hidle.symm.trans hat.1) nofun
  | answered client command reply =>
    rcases hat.2 with ⟨hstate, -⟩ | ⟨hstate, -⟩ | ⟨-, hreplying, -⟩
    · exact absurd (hidle.symm.trans hstate) nofun
    · exact absurd (hidle.symm.trans hstate) nofun
    · exact absurd hreplying hpc

theorem Routes.stayIdle (hs : s.Routes i) (hidle : s.state i = .idle)
    (hpc : s.sender.pc ≠ .replying (some i))
    (htraffic : t.trail.traffic i = s.trail.traffic i) (hstate : t.state i = .idle)
    (hpc' : t.sender.pc ≠ .replying (some i)) : t.Routes i := by
  obtain ⟨rounds, hfollows⟩ := Routes.atIdle hs hidle hpc
  exact ⟨rounds, .idle, htraffic ▸ hfollows, hstate, hpc'⟩

theorem Routes.receives {client : ClientSession} {cmdbuf : Cmdbuf} (hs : s.Routes i)
    (hidle : s.state i = .idle) (hpc : s.sender.pc ≠ .replying (some i))
    (hclient : s.handle i = some client)
    (htraffic : t.trail.traffic i = { s.trail.traffic i with
      received := (client, message cmdbuf) :: (s.trail.traffic i).received })
    (hstate : t.state i = .receivedFromArm11) (hhandle : t.handle i = s.handle i)
    (hbuffer : message (t.buffer i) = message cmdbuf) : t.Routes i := by
  obtain ⟨rounds, hfollows⟩ := Routes.atIdle hs hidle hpc
  refine ⟨rounds, .received client (message cmdbuf), ?_, hstate, hhandle.trans hclient,
    hbuffer.symm⟩
  rw [htraffic]
  exact ⟨congrArg _ hfollows.received, hfollows.sent, hfollows.answered, hfollows.returned⟩

theorem Routes.sends (hs : s.Routes i) (hwaits : s.state i = .receivedFromArm11)
    (htraffic : t.trail.traffic i = { s.trail.traffic i with
      sent := message (s.buffer i) :: (s.trail.traffic i).sent })
    (hstate : t.state i = .sentToArm9) (hhandle : t.handle i = s.handle i) (harm9 : i ∈ t.arm9) :
    t.Routes i := by
  obtain ⟨rounds, stage, hfollows, hat⟩ := hs
  cases stage with
  | idle => exact absurd (hwaits.symm.trans hat.1) nofun
  | received client command =>
    obtain ⟨-, hclient, hcommand⟩ := hat
    refine ⟨rounds, .sent client command, ?_, hstate, hhandle.trans hclient, harm9⟩
    rw [htraffic, ← hcommand]
    exact ⟨hfollows.received, congrArg _ hfollows.sent, hfollows.answered, hfollows.returned⟩
  | sent client command => exact absurd (hwaits.symm.trans hat.1) nofun
  | answered client command reply =>
    rcases hat.2 with ⟨hstate, -⟩ | ⟨hstate, -⟩ | ⟨hstate, -⟩ <;>
      exact absurd (hwaits.symm.trans hstate) nofun

theorem mem_fifo_outstanding {r : Cmdbuf} (h : (i.val, r) ∈ s.fifo) :
    i.val ∈ (s.fifo.map Prod.fst).filter (· ≠ 9) :=
  List.mem_filter.mpr ⟨List.mem_map_of_mem h, decide_eq_true i.isLt.ne⟩

theorem ChannelInv.not_fifo (hs : ChannelInv s) {r : Cmdbuf} (h : (i.val, r) ∈ s.fifo) :
    i ∉ s.arm9 := by
  intro harm9
  have hdisjoint := (List.nodup_append.mp hs.nodup).2.2
  exact hdisjoint _ (List.mem_map_of_mem harm9) _ (mem_fifo_outstanding h) rfl

theorem ChannelInv.fifo_head (hs : ChannelInv s) {reply r : Cmdbuf} {fifo : List (ℕ × Cmdbuf)}
    (hfifo : s.fifo = (i.val, reply) :: fifo) (h : (i.val, r) ∈ s.fifo) : r = reply := by
  have hnodup := (List.nodup_append.mp hs.nodup).2.1
  rw [hfifo, List.map_cons, filter_service] at hnodup
  rw [hfifo] at h
  rcases List.mem_cons.mp h with heq | hrest
  · exact congrArg Prod.snd heq
  · have hmem : i.val ∈ (fifo.map Prod.fst).filter (· ≠ 9) :=
      List.mem_filter.mpr ⟨List.mem_map_of_mem hrest, decide_eq_true i.isLt.ne⟩
    exact absurd hmem (List.nodup_cons.mp hnodup).1

theorem Routes.answers {reply : Cmdbuf} (hs : s.Routes i) (hchannel : ChannelInv s)
    (hi : i ∈ s.arm9)
    (htraffic : t.trail.traffic i = { s.trail.traffic i with
      answered := message reply :: (s.trail.traffic i).answered })
    (hstate : t.state i = s.state i) (hhandle : t.handle i = s.handle i)
    (hfifo : (i.val, reply) ∈ t.fifo) : t.Routes i := by
  have hsent : s.state i = .sentToArm9 := by
    refine (hchannel.sent i).mp ?_
    exact List.mem_append_left _ (List.mem_map_of_mem hi)
  obtain ⟨rounds, stage, hfollows, hat⟩ := hs
  cases stage with
  | idle => exact absurd (hsent.symm.trans hat.1) nofun
  | received client command => exact absurd (hsent.symm.trans hat.1) nofun
  | sent client command =>
    refine ⟨rounds, .answered client command (message reply), ?_, hhandle.trans hat.2.1,
      .inl ⟨hstate.trans hsent, reply, hfifo, rfl⟩⟩
    rw [htraffic]
    exact ⟨hfollows.received, hfollows.sent, congrArg _ hfollows.answered, hfollows.returned⟩
  | answered client command reply' =>
    rcases hat.2 with ⟨-, r, hr, -⟩ | ⟨hstate, -⟩ | ⟨hstate, -⟩
    · exact absurd hi (hchannel.not_fifo hr)
    · exact absurd (hsent.symm.trans hstate) nofun
    · exact absurd (hsent.symm.trans hstate) nofun

theorem Routes.takes {reply : Cmdbuf} {fifo : List (ℕ × Cmdbuf)} (hs : s.Routes i)
    (hchannel : ChannelInv s) (h : ReceiveEffect s i reply t)
    (hfifo : s.fifo = (i.val, reply) :: fifo) (hhandle : t.handle i = s.handle i) :
    t.Routes i := by
  have hhead : (i.val, reply) ∈ s.fifo := hfifo ▸ List.mem_cons_self
  obtain ⟨rounds, stage, hfollows, hat⟩ := hs
  cases stage with
  | idle => exact absurd (h.sent.symm.trans hat.1) nofun
  | received client command => exact absurd (h.sent.symm.trans hat.1) nofun
  | sent client command => exact absurd hat.2.2 (hchannel.not_fifo hhead)
  | answered client command reply' =>
    have hreply : reply' = message (t.buffer i) := by
      rw [h.buffers, if_pos rfl, message_memcpy]
      rcases hat.2 with ⟨-, r, hr, hreply⟩ | ⟨hstate, -⟩ | ⟨hstate, -⟩
      · rw [hreply, hchannel.fifo_head hfifo hr]
      · exact absurd (h.sent.symm.trans hstate) nofun
      · exact absurd (h.sent.symm.trans hstate) nofun
    refine ⟨rounds, .answered client command reply', h.trail ▸ hfollows, hhandle.trans hat.1, ?_⟩
    exact .inr (.inl ⟨(h.states i).trans (if_pos rfl), hreply⟩)

theorem Routes.replies {cmdbuf : Cmdbuf} (hs : s.Routes i)
    (hm : s.manager.ReplyEffect i s.sender.cmdbuf t.manager cmdbuf)
    (htraffic : t.trail = s.trail) (hpc : t.sender.pc = .replying (some i))
    (hcmdbuf : t.sender.cmdbuf = cmdbuf) : t.Routes i := by
  have hreceived : s.state i = .receivedFromArm9 := hm.received
  obtain ⟨rounds, stage, hfollows, hat⟩ := hs
  cases stage with
  | idle => exact absurd (hreceived.symm.trans hat.1) nofun
  | received client command => exact absurd (hreceived.symm.trans hat.1) nofun
  | sent client command => exact absurd (hreceived.symm.trans hat.1) nofun
  | answered client command reply =>
    have hreply : reply = message t.sender.cmdbuf := by
      rw [hcmdbuf, hm.cmdbuf, message_memcpy]
      rcases hat.2 with ⟨hstate, -⟩ | ⟨-, hreply⟩ | ⟨hstate, -⟩
      · exact absurd (hreceived.symm.trans hstate) nofun
      · exact hreply
      · exact absurd (hreceived.symm.trans hstate) nofun
    refine ⟨rounds, .answered client command reply, htraffic ▸ hfollows,
      (hm.handles i).trans hat.1, ?_⟩
    exact .inr (.inr ⟨(hm.states i).trans (if_pos rfl), hpc, hreply⟩)

theorem Routes.returns {target : ClientSession} (delivered : Bool) (hs : s.Routes i)
    (hpc : s.sender.pc = .replying (some i)) (hidle : s.state i = .idle)
    (htarget : s.handle i = some target)
    (htraffic : t.trail.traffic i = { s.trail.traffic i with
      returned := (target, if delivered then some (message s.sender.cmdbuf) else none) ::
        (s.trail.traffic i).returned })
    (hstate : t.state i = s.state i) (hpc' : t.sender.pc ≠ .replying (some i)) : t.Routes i := by
  obtain ⟨rounds, stage, hfollows, hat⟩ := hs
  cases stage with
  | idle => exact absurd hpc hat.2
  | received client command => exact absurd (hidle.symm.trans hat.1) nofun
  | sent client command => exact absurd (hidle.symm.trans hat.1) nofun
  | answered client command reply =>
    have hclient : target = client := Option.some.inj (htarget.symm.trans hat.1)
    have hreply : reply = message s.sender.cmdbuf := by
      rcases hat.2 with ⟨hstate, -⟩ | ⟨hstate, -⟩ | ⟨-, -, hreply⟩
      · exact absurd (hidle.symm.trans hstate) nofun
      · exact absurd (hidle.symm.trans hstate) nofun
      · exact hreply
    refine ⟨⟨client, command, reply, delivered⟩ :: rounds, .idle, ?_, hstate.trans hidle, hpc'⟩
    rw [htraffic, hclient, ← hreply]
    exact ⟨hfollows.received, hfollows.sent, hfollows.answered, congrArg _ hfollows.returned⟩

theorem traffic_of_ne {l : Trail} {traffic : Traffic} {j : Service} (hj : j ≠ i) :
    (l.setTraffic i traffic).traffic j = l.traffic j := Function.update_of_ne hj _ _

theorem traffic_self {l : Trail} {traffic : Traffic} :
    (l.setTraffic i traffic).traffic i = traffic := Function.update_self _ _ _

theorem noteReceived_traffic (l : Trail) {client : ClientSession} (filled : List ℕ)
    (cmdbuf : Cmdbuf) : (l.noteReceived i (some client) filled cmdbuf).traffic i =
      { l.traffic i with received := (client, message cmdbuf) :: (l.traffic i).received } :=
  traffic_self

theorem Routes.senderOnly (hs : s.Routes i) (hmanager : t.manager = s.manager)
    (htrail : t.trail = s.trail) (harm9 : t.arm9 = s.arm9) (hfifo : t.fifo = s.fifo)
    (hpc : s.sender.pc ≠ .replying (some i)) (hpc' : t.sender.pc ≠ .replying (some i)) :
    t.Routes i := by
  refine Routes.frame hs (by rw [htrail]) ?_ ?_ ?_ (by rw [harm9]; exact id)
    (by rw [hfifo]; exact fun _ => id) (.inr ⟨hpc, hpc'⟩)
  · rw [PxiState.state, hmanager]
    rfl
  · rw [PxiState.handle, hmanager]
    rfl
  · rw [PxiState.buffer, hmanager]
    rfl

theorem replied_routes {sessionId : Option Service} {b : Bool} (hs : ∀ i, s.Routes i)
    (hopen : SessionInv s) (hpc : s.sender.pc = .replying sessionId) (i : Service) :
    (s.replying sessionId b).Routes i := by
  have hexpects := hopen.expects
  unfold SessionManager.Expects at hexpects
  rw [hpc] at hexpects
  unfold PxiState.replying
  split
  case h_1 k target htarget =>
    obtain ⟨⟨hidle, -⟩, hhandle⟩ := hexpects
    have hclient : s.handle k = some target := hhandle.trans htarget
    by_cases hik : i = k
    · subst hik
      split_ifs with hclosed
      · exact Routes.returns false (hs i) hpc hidle hclient traffic_self rfl nofun
      · exact Routes.returns true (hs i) hpc hidle hclient traffic_self rfl nofun
    · have hne : s.sender.pc ≠ .replying (some i) := by
        rw [hpc]
        intro heq
        cases heq
        exact hik rfl
      split_ifs with hclosed
      · exact Routes.frame (hs i) (traffic_of_ne hik) rfl rfl rfl id (fun _ => id) (.inr ⟨hne, nofun⟩)
      · exact Routes.frame (hs i) (traffic_of_ne hik) rfl rfl rfl id (fun _ => id) (.inr ⟨hne, nofun⟩)
  case h_2 hnone =>
    have hne : s.sender.pc ≠ .replying (some i) := by
      rw [hpc]
      intro heq
      cases heq
      obtain ⟨⟨-, hopened⟩, hhandle⟩ := hexpects
      obtain ⟨target, htarget⟩ := Option.ne_none_iff_exists'.mp (hhandle ▸ hopened)
      exact hnone i target rfl htarget
    exact Routes.senderOnly (hs i) rfl rfl rfl rfl hne nofun

theorem received_handle (i j : Service) (reply : Cmdbuf) :
    ((s.manager.setSession i { s.manager.sessionData i with
      buffer := memcpy (s.buffer i) reply (nbWords (reply 0))
      state := .receivedFromArm9 }).sessionData j).handle = s.handle j := by
  refine (SessionManager.handle_setSession _ i _ j).trans ?_
  split_ifs with hji
  · rw [hji]
    rfl
  · rfl

theorem moves_routes (hs : ∀ i, s.Routes i) (hopen : SessionInv s) (hchannel : ChannelInv s)
    (h : s.Moves event t) (j : Service) : t.Routes j := by
  cases h with
  | begin hpc =>
    exact Routes.frame (hs j) rfl rfl rfl rfl id (fun _ => id) (.inr ⟨hpc ▸ nofun, nofun⟩)
  | sent i hpc hsends =>
    have heffect := sent_effect hpc hsends
    have hhandle : ((s.manager.sendToArm9 i).sessionData j).handle = s.handle j :=
      s.manager.handle_sendToArm9 i j
    by_cases hji : j = i
    · subst hji
      exact Routes.sends (hs j) heffect.waits traffic_self ((heffect.states j).trans (if_pos rfl))
        hhandle List.mem_cons_self
    · exact Routes.frame (hs j) (traffic_of_ne hji) ((heffect.states j).trans (if_neg hji)) hhandle
        (heffect.buffers j) (List.mem_cons_of_mem _) (fun _ => id) (.inr ⟨hpc ▸ nofun, nofun⟩)
  | skipped i hpc => exact Routes.senderOnly (hs j) rfl rfl rfl rfl (hpc ▸ nofun) nofun
  | sentAll hpc => exact Routes.senderOnly (hs j) rfl rfl rfl rfl (hpc ▸ nofun) nofun
  | replied hpc => exact replied_routes hs hopen hpc j
  | closed i hpc hi =>
    have hidles := hopen.closing hpc hi
    by_cases hji : j = i
    · subst hji
      exact Routes.stayIdle (hs j) hidles.1 (hpc ▸ nofun) rfl
        ((state_setHandle j none j).trans hidles.1) nofun
    · exact Routes.frame (hs j) rfl (state_setHandle i none j)
        ((SessionManager.handle_setSession _ i _ j).trans (if_neg hji)) (buffer_setHandle i none j)
        id (fun _ => id) (.inr ⟨hpc ▸ nofun, nofun⟩)
  | woken hpc => exact Routes.senderOnly (hs j) rfl rfl rfl rfl (hpc ▸ nofun) nofun
  | scans hpc => exact Routes.senderOnly (hs j) rfl rfl rfl rfl (hpc ▸ nofun) nofun
  | command i m hpc hm =>
    have heffect := SessionManager.commandReceived_effect hm
    have hidles : s.manager.Idles i := by
      have hexpects := hopen.expects
      unfold SessionManager.Expects at hexpects
      rwa [hpc] at hexpects
    obtain ⟨client, hclient⟩ := Option.ne_none_iff_exists'.mp hidles.2
    have hclient' : s.handle i = some client := hclient
    rw [hclient']
    by_cases hji : j = i
    · subst hji
      have hbuffer := (heffect.buffers j).trans (if_pos rfl)
      refine Routes.receives (hs j) hidles.1 (hpc ▸ nofun) hclient (noteReceived_traffic _ _ _)
        ((heffect.states j).trans (if_pos rfl)) (heffect.handles j) ?_
      exact (congrArg message hbuffer).trans (message_memcpy _ _)
    · exact Routes.frame (hs j) (traffic_of_ne hji) ((heffect.states j).trans (if_neg hji))
        (heffect.handles j) ((heffect.buffers j).trans (if_neg hji)) id (fun _ => id)
        (.inr ⟨hpc ▸ nofun, nofun⟩)
  | scanned k hpc => exact Routes.senderOnly (hs j) rfl rfl rfl rfl (hpc ▸ nofun) nofun
  | found k hpc => exact Routes.senderOnly (hs j) rfl rfl rfl rfl (hpc ▸ nofun) nofun
  | reply i m cmdbuf hpc hm =>
    have heffect := SessionManager.replyReceived_effect hm
    have hopened : s.handle i ≠ none := by
      apply hopen.busy_open
      rw [show s.state i = .receivedFromArm9 from heffect.received]
      exact nofun
    rw [if_neg hopened]
    by_cases hji : j = i
    · subst hji
      exact Routes.replies (hs j) heffect rfl rfl rfl
    · refine Routes.frame (hs j) rfl ((heffect.states j).trans (if_neg hji)) (heffect.handles j)
        (heffect.buffers j) id (fun _ => id) (.inr ⟨hpc ▸ nofun, ?_⟩)
      intro heq
      cases heq
      exact hji rfl
  | wakeClosed i hpc => exact Routes.senderOnly (hs j) rfl rfl rfl rfl (hpc ▸ nofun) nofun
  | wakeSendAll hpc => exact Routes.senderOnly (hs j) rfl rfl rfl rfl (hpc ▸ nofun) nofun
  | wakeReply hpc => exact Routes.senderOnly (hs j) rfl rfl rfl rfl (hpc ▸ nofun) nofun
  | wakeCommand i cmdbuf hpc => exact Routes.senderOnly (hs j) rfl rfl rfl rfl (hpc ▸ nofun) nofun
  | @received i reply fifo hpc hfifo hstate hsize =>
    have heffect := received_effect fifo hstate hsize
    have hhandle := received_handle (s := s) i j reply
    by_cases hji : j = i
    · subst hji
      exact Routes.takes (hs j) hchannel heffect hfifo hhandle
    · refine Routes.frame (hs j) rfl ((heffect.states j).trans (if_neg hji)) hhandle
        ((heffect.buffers j).trans (if_neg hji)) id ?_ (.inl rfl)
      intro r hr
      rw [hfifo] at hr
      refine (List.mem_cons.mp hr).resolve_left ?_
      intro heq
      exact hji (Fin.ext (congrArg Prod.fst heq))
  | receivedSrv11 hpc hfifo hstate hsize =>
    refine Routes.frame (hs j) rfl rfl rfl rfl id ?_ (.inl rfl)
    intro r hr
    rw [hfifo] at hr
    refine (List.mem_cons.mp hr).resolve_left ?_
    intro heq
    exact j.isLt.ne (congrArg Prod.fst heq)
  | arm9Answers i reply hi =>
    by_cases hji : j = i
    · subst hji
      exact Routes.answers (hs j) hchannel hi traffic_self rfl rfl
        (List.mem_append_right _ (List.mem_singleton.mpr rfl))
    · exact Routes.frame (hs j) (traffic_of_ne hji) rfl rfl rfl
        (fun hj => (List.mem_erase_of_ne hji).mpr hj) (fun _ => List.mem_append_left _) (.inl rfl)
  | arm9Requests request =>
    exact Routes.frame (hs j) rfl rfl rfl rfl id (fun _ => List.mem_append_left _) (.inl rfl)
  | accept i hfree hhandle =>
    by_cases hji : j = i
    · subst hji
      have hidle := hopen.opened j hhandle
      have hne : s.sender.pc ≠ .replying (some j) := by
        intro hpc
        have hexpects := hopen.expects
        unfold SessionManager.Expects at hexpects
        rw [hpc] at hexpects
        exact hexpects.1.2 hhandle
      exact Routes.stayIdle (hs j) hidle hne rfl
        ((state_setHandle j (some s.accepted) j).trans hidle) hne
    · exact Routes.frame (hs j) rfl (state_setHandle i (some s.accepted) j)
        ((SessionManager.handle_setSession _ i _ j).trans (if_neg hji))
        (buffer_setHandle i (some s.accepted) j) id (fun _ => id) (.inl rfl)
  | _ => exact Routes.frame (hs j) rfl rfl rfl rfl id (fun _ => id) (.inl rfl)

end Rounds

theorem boot_routes (i : Service) : PxiState.boot.Routes i :=
  ⟨[], .idle, ⟨rfl, rfl, rfl, rfl⟩, rfl, nofun⟩

end Presence3DS.Pxi
