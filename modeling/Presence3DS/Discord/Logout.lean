import Presence3DS.Discord.Counter

/-! When a logout is sent, and for which session. -/

namespace Presence3DS.Discord
open CString Decimal Runs

/-- A logout is for a session verified since the last login, with a counter not used since. -/
def LogoutLaw (crypto : Crypto) (s : Link) (event : LinkEvent) : Prop :=
  ∀ sleep counter, sends crypto s event = some (.logout sleep counter) →
    s.trail.verified = true ∧ counter ∉ s.trail.used

/-- A logout is sent after a verification that has not expired, and keeps the law exactly where no
request has failed since. -/
def BestEffort (crypto : Crypto) (s : Link) (event : LinkEvent) : Prop :=
  ∀ sleep counter, sends crypto s event = some (.logout sleep counter) →
    s.trail.alive = true ∧ (s.trail.used.length < 2 ^ 64 →
      (s.trail.verified = true ∧ counter ∉ s.trail.used ↔ s.trail.failedSinceVerify = false))

/-- The counters used lie right below the next one. -/
def Below (used : List UInt64) (counter : UInt64) : Prop :=
  ∀ u ∈ used, ∃ d, 0 < d ∧ d ≤ used.length ∧ u + UInt64.ofNat d = counter

theorem Below.use {used : List UInt64} {counter : UInt64} (h : Below used counter) :
    Below (counter :: used) (counter + 1) := by
  intro u hu
  rcases List.mem_cons.mp hu with rfl | hu
  · exact ⟨1, by decide, Nat.succ_le_succ (Nat.zero_le _), rfl⟩
  · obtain ⟨d, -, hle, heq⟩ := h u hu
    refine ⟨d + 1, Nat.succ_pos d, Nat.succ_le_succ hle, ?_⟩
    rw [UInt64.ofNat_add, ← UInt64.add_assoc, heq]
    rfl

theorem Below.not_mem {used : List UInt64} {counter : UInt64} (h : Below used counter)
    (hlen : used.length < 2 ^ 64) : counter ∉ used := by
  intro hmem
  obtain ⟨d, hpos, hle, heq⟩ := h counter hmem
  have hzero : UInt64.ofNat d = 0 := UInt64.add_eq_left.mp heq
  have hd : d = 0 := by
    have hnat := congrArg UInt64.toNat hzero
    rw [UInt64.toNat_ofNat_of_lt' (hle.trans_lt hlen)] at hnat
    exact hnat
  omega

structure LogoutInv (s : Link) : Prop where
  /-- A failed request has left its counter, or the next login has not led to a session yet. -/
  stale : s.trail.failedSinceVerify = true →
    s.trail.verified = false ∨ s.globals.session.counter ∈ s.trail.used
  alive : s.thread.pc ≠ .begin → s.thread.pc.expired = false →
    s.globals.session.activeSession = true → s.trail.alive = true
  seeking : s.thread.pc.region = .seeking ∨ s.thread.pc.region = .verifying →
    s.globals.session.activeSession = true → s.trail.failedSinceVerify = true
  verifying : s.thread.pc.region = .verifying → s.trail.used = []
  session : s.thread.pc.region = .session → s.trail.failedSinceVerify = false ∧
    s.trail.verified = true ∧ Below s.trail.used s.globals.session.counter
  ending : s.thread.pc.region = .ending → s.globals.session.activeSession = true →
    s.trail.failedSinceVerify = false →
    s.trail.verified = true ∧ Below s.trail.used s.globals.session.counter
  logout : s.thread.pc = .logoutPost → s.globals.session.activeSession = true

theorem not_expired {pc : Pc} (h : pc.region = .session) : pc.expired = false := by
  cases pc <;> first | rfl | cases h

theorem region_begin {pc : Pc} (h : pc.region = .begin) : pc = .begin := by
  cases pc <;> first | rfl | cases h

/-! ## The invariant by region -/

theorem LogoutInv.of_seeking {t : Link}
    (hregion : t.thread.pc.region = .seeking ∨ t.thread.pc.region = .verifying)
    (hstale : t.trail.verified = false ∨ t.globals.session.counter ∈ t.trail.used)
    (halive : t.thread.pc.expired = false → t.globals.session.activeSession = true →
      t.trail.alive = true)
    (hfailed : t.globals.session.activeSession = true → t.trail.failedSinceVerify = true)
    (hused : t.thread.pc.region = .verifying → t.trail.used = []) : LogoutInv t where
  stale _ := hstale
  alive _ := halive
  seeking _ := hfailed
  verifying := hused
  session h := by rcases hregion with hr | hr <;> cases hr.symm.trans h
  ending h := by rcases hregion with hr | hr <;> cases hr.symm.trans h
  logout h := by
    rw [h] at hregion
    rcases hregion with hr | hr <;> cases hr

theorem LogoutInv.of_session {t : Link} (hregion : t.thread.pc.region = .session)
    (halive : t.globals.session.activeSession = true → t.trail.alive = true)
    (hfailed : t.trail.failedSinceVerify = false) (hverified : t.trail.verified = true)
    (hbelow : Below t.trail.used t.globals.session.counter) : LogoutInv t where
  stale h := by cases hfailed.symm.trans h
  alive _ _ := halive
  seeking h := by rcases h with hr | hr <;> cases hregion.symm.trans hr
  verifying h := by cases hregion.symm.trans h
  session _ := ⟨hfailed, hverified, hbelow⟩
  ending h := by cases hregion.symm.trans h
  logout h := by
    rw [h] at hregion
    cases hregion

section Steps
variable {crypto : Crypto} {s t : Link} {event : LinkEvent}

theorem LogoutInv.quiet (hs : LogoutInv s) (htrail : t.trail = s.trail)
    (h : QuietStep s.globals s.thread t.globals t.thread) : LogoutInv t where
  stale := by
    rw [htrail, h.counter]
    exact hs.stale
  alive _ _ hactive := by
    obtain ⟨hactive, hbegin, hexpired⟩ := h.active hactive
    rw [htrail]
    exact hs.alive hbegin hexpired hactive
  seeking hregion hactive := by
    obtain ⟨hactive, hbegin, -⟩ := h.active hactive
    rw [htrail]
    refine hs.seeking ?_ hactive
    rcases hregion with hseeking | hverifying
    · rcases h.seeking hseeking with hpc | hpc
      · exact absurd (region_begin hpc) hbegin
      · exact .inl hpc
    · exact .inr (h.verifying hverifying)
  verifying hregion := by
    rw [htrail]
    exact hs.verifying (h.verifying hregion)
  session hregion := by
    rw [htrail, h.counter]
    exact hs.session (h.session hregion)
  ending hregion hactive := by
    obtain ⟨hactive, hbegin, -⟩ := h.active hactive
    have hsource := h.ending hregion
    rw [htrail, h.counter]
    intro hfailed
    cases hpc : s.thread.pc.region with
    | begin => exact absurd (region_begin hpc) hbegin
    | seeking => cases hfailed.symm.trans (hs.seeking (.inl hpc) hactive)
    | verifying => cases hfailed.symm.trans (hs.seeking (.inr hpc) hactive)
    | session => exact (hs.session hpc).2
    | ending => exact hs.ending hpc hactive hfailed
    | closing => exact absurd hpc hsource
  logout := h.logout

theorem mem_use (trail : Trail) (counter : UInt64) : counter ∈ (trail.use counter).used :=
  List.mem_cons_self

theorem note_accepted {request : Request} {counter : UInt64} (trail : Trail)
    (hrequest : request.ofActivity = true) (hcounter : request.counter? = some counter) :
    trail.note request 0 = trail.use counter := by
  cases request with
  | script => cases hcounter; rfl
  | activity => cases hcounter; rfl
  | heartbeat => cases hcounter; rfl
  | login => cases hrequest
  | verify => cases hrequest
  | logout => cases hrequest

theorem note_refused {request : Request} {counter : UInt64} {ret : Int} (trail : Trail)
    (hrequest : request.ofActivity = true) (hcounter : request.counter? = some counter)
    (hret : ret ≠ 0) :
    (trail.note request ret).failedSinceVerify = true ∧
      counter ∈ (trail.note request ret).used ∧
      (((∃ titleid c, request = .script titleid c) ∨ ret ≠ 1) → trail.alive = true →
        (trail.note request ret).alive = true) := by
  cases request with
  | script =>
    cases hcounter
    simp only [Trail.note, if_neg hret]
    exact ⟨rfl, mem_use _ _, fun _ halive => halive⟩
  | activity =>
    cases hcounter
    simp only [Trail.note, if_neg hret]
    refine ⟨rfl, mem_use _ _, ?_⟩
    rintro (⟨_, _, h⟩ | h) halive
    · cases h
    · rw [halive, Bool.true_and, decide_eq_true_eq]
      exact h
  | heartbeat =>
    cases hcounter
    simp only [Trail.note, if_neg hret]
    refine ⟨rfl, mem_use _ _, ?_⟩
    rintro (⟨_, _, h⟩ | h) halive
    · cases h
    · rw [halive, Bool.true_and, decide_eq_true_eq]
      exact h
  | login => cases hrequest
  | verify => cases hrequest
  | logout => cases hrequest

theorem LogoutInv.post {reply : Option Bytes} {request : Request} (hs : LogoutInv s)
    (htrail : t.trail = s.trail.note request (verdict crypto s.globals.session reply request))
    (h : PostStep crypto reply s.globals s.thread request t.globals t.thread) : LogoutInv t := by
  have halive : s.thread.pc.region ≠ .begin → s.thread.pc.expired = false →
      s.globals.session.activeSession = true → s.trail.alive = true := by
    intro hbegin
    exact hs.alive fun hpc => hbegin (hpc ▸ rfl)
  cases h with
  | loggedIn hpc htext hnonce hret hsession hpc' =>
    rw [hret] at htrail
    refine .of_seeking (.inr (hpc' ▸ rfl)) ?_ ?_ ?_ ?_
    · rw [htrail]
      exact .inl rfl
    · intro _ hactive
      rw [hsession] at hactive
      rw [htrail]
      exact halive (hpc ▸ nofun) (hpc ▸ rfl) hactive
    · intro hactive
      rw [hsession] at hactive
      rw [htrail]
      exact hs.seeking (.inl (hpc ▸ rfl)) hactive
    · intro _
      rw [htrail]
      rfl
  | loginFailed hpc hret hsession hseeking =>
    have hnote : t.trail = { s.trail with used := [], verified := false }.fail :=
      htrail.trans (if_neg hret)
    refine .of_seeking (.inl hseeking) ?_ ?_ ?_ ?_
    · rw [hnote]
      exact .inl rfl
    · intro _ hactive
      rw [hsession] at hactive
      rw [hnote]
      exact halive (hpc ▸ nofun) (hpc ▸ rfl) hactive
    · intro _
      rw [hnote]
      rfl
    · intro hverifying
      cases hseeking.symm.trans hverifying
  | verified hpc htext hgrants hret hsession hpc' =>
    have hused := hs.verifying (hpc ▸ rfl)
    rw [hret] at htrail
    refine .of_session (hpc' ▸ rfl) ?_ ?_ ?_ ?_
    · rw [htrail]
      exact fun _ => rfl
    · rw [htrail]
      rfl
    · rw [htrail]
      rfl
    · rw [htrail, hsession]
      have hempty : Below s.trail.used s.globals.session.counter := by
        rw [hused]
        exact nofun
      exact hempty.use
  | verifyFailed hpc hret hsession hpc' =>
    have hnote : t.trail = (s.trail.use s.globals.session.counter).fail :=
      htrail.trans (if_neg hret)
    refine .of_seeking (.inl (hpc' ▸ rfl)) ?_ ?_ ?_ ?_
    · rw [hnote, hsession]
      exact .inr (mem_use _ _)
    · intro _ hactive
      rw [hsession] at hactive
      rw [hnote]
      exact halive (hpc ▸ nofun) (hpc ▸ rfl) hactive
    · intro _
      rw [hnote]
      rfl
    · intro hverifying
      rw [hpc'] at hverifying
      cases hverifying
  | accepted hpc hrequest hcarries htext hgrants hret hsession hregion' =>
    obtain ⟨hfailed, hverified, hbelow⟩ := hs.session hpc
    rw [hret, note_accepted s.trail hrequest hcarries] at htrail
    refine .of_session hregion' ?_ ?_ ?_ ?_
    · intro hactive
      rw [hsession] at hactive
      rw [htrail]
      refine halive (hpc ▸ nofun) ?_ hactive
      exact not_expired hpc
    · rw [htrail]
      exact hfailed
    · rw [htrail]
      exact hverified
    · rw [htrail, hsession]
      exact hbelow.use
  | refused hpc hrequest hcarries hret hsession hpc' hexpired =>
    obtain ⟨hfailed, hused, hkeep⟩ := note_refused s.trail hrequest hcarries hret
    rw [← htrail] at hfailed hused hkeep
    refine .of_seeking (.inl (hpc' ▸ rfl)) ?_ ?_ ?_ ?_
    · rw [hsession]
      exact .inr hused
    · intro hlives hactive
      rw [hpc'] at hlives
      rw [hsession] at hactive
      refine hkeep ?_ (halive (hpc ▸ nofun) (not_expired hpc) hactive)
      rcases hexpired with hscript | hsame
      · exact .inl hscript
      · exact .inr (hsame ▸ of_decide_eq_false hlives)
    · exact fun _ => hfailed
    · intro hverifying
      rw [hpc'] at hverifying
      cases hverifying
  | loggedOut hpc hsession hpc' =>
    have hending : s.thread.pc.region = .ending := hpc ▸ rfl
    refine ⟨?_, ?_, ?_, ?_, ?_, ?_, ?_⟩
    · intro hfailed
      rw [htrail] at hfailed ⊢
      rw [hsession]
      exact .inr (mem_use _ _)
    · intro _ _ hactive
      rw [hsession] at hactive
      rw [htrail]
      exact halive (hpc ▸ nofun) (hpc ▸ rfl) hactive
    all_goals
      rw [hpc']
      exact nofun

theorem linkStep_logoutInv (hs : LogoutInv s) (h : linkStep crypto s event = some t) :
    LogoutInv t := by
  cases event with
  | others state shouldStop stopSleep stopEvent =>
    cases h
    exact ⟨hs.stale, hs.alive, hs.seeking, hs.verifying, hs.session, hs.ending, hs.logout⟩
  | thread w fate =>
    rcases threadTurn_cases h with ⟨-, -, htrail, hquiet⟩ | ⟨request, -, -, htrail, hpost⟩
    · exact hs.quiet htrail hquiet
    · exact hs.post htrail hpost

theorem linkStep_bestEffort (hs : LogoutInv s) (h : linkStep crypto s event = some t) :
    BestEffort crypto s event := by
  intro sleep counter hsends
  cases event with
  | others state shouldStop stopSleep stopEvent => cases hsends
  | thread w fate =>
    rcases threadTurn_cases h with ⟨hnone, -⟩ | ⟨request, hrequest, -, -, hpost⟩
    · cases hnone.symm.trans hsends
    · cases hrequest.symm.trans hsends
      cases hpost with
      | accepted _ hactivity => cases hactivity
      | refused _ hactivity => cases hactivity
      | loggedOut hpc =>
        have hending : s.thread.pc.region = .ending := hpc ▸ rfl
        have hactive := hs.logout hpc
        refine ⟨hs.alive (hpc ▸ nofun) (hpc ▸ rfl) hactive, ?_⟩
        intro hlen
        constructor
        · rintro ⟨hverified, hfresh⟩
          cases hfailed : s.trail.failedSinceVerify with
          | false => rfl
          | true =>
            rcases hs.stale hfailed with hnot | hused
            · cases hnot.symm.trans hverified
            · exact absurd hused hfresh
        · intro hfailed
          obtain ⟨hverified, hbelow⟩ := hs.ending hending hactive hfailed
          exact ⟨hverified, hbelow.not_mem hlen⟩

end Steps

/-! ## Runs -/

theorem logouts_are_best_effort (crypto : Crypto) (globals : Globals) (prevHash : Bytes)
    (expected : UInt64) (events : List LinkEvent) :
    AllSteps (linkStep crypto) (fun s event _ => BestEffort crypto s event)
      (Link.boot globals prevHash expected) events := by
  have hboot : LogoutInv (Link.boot globals prevHash expected) := by
    refine ⟨nofun, fun h => absurd rfl h, ?_, nofun, nofun, nofun, nofun⟩
    rintro (h | h) <;> cases h
  have hstep : ∀ s event t, LogoutInv s → linkStep crypto s event = some t →
      LogoutInv t ∧ BestEffort crypto s event :=
    fun _ _ _ hs ht => ⟨linkStep_logoutInv hs ht, linkStep_bestEffort hs ht⟩
  exact allSteps_of_invariant hstep hboot events

def plainCrypto : Crypto := ⟨fun _ => [1], fun _ _ => []⟩

/-- The network is up, no title runs and no game asks for the radio. -/
def calm : Answers :=
  ⟨false, false, false, true, false, false, true, 0, false, false, [], false⟩

def successText : Bytes := successField ++ 0x3D :: trueText

def delivered : Fate :=
  ⟨true, .genuine, 5, .plain 5, successText, ⟨errorField ++ 0x3D :: errorField, by decide⟩⟩

def requestLost : Fate := { delivered with arrives := false }

/-- The first activity is lost, and a stop is requested before the next login. -/
def stopAfterLoss : List LinkEvent :=
  List.replicate 12 (.thread calm delivered) ++ [.thread calm requestLost] ++
    List.replicate 4 (.thread calm delivered) ++ [.others .login true false none] ++
    List.replicate 2 (.thread calm delivered)

def fresh : Link :=
  Link.boot ⟨.login, false, false, none, ⟨0, false⟩, none⟩ [] 0

/-- The logout then carries the counter of the lost activity. -/
theorem logout_reuses_counter : ¬∀ crypto globals prevHash expected events,
    AllSteps (linkStep crypto) (fun s event _ => LogoutLaw crypto s event)
      (Link.boot globals prevHash expected) events := by
  intro h
  have hend : (run (linkStep plainCrypto) fresh stopAfterLoss).map
      (fun t => (sends plainCrypto t (.thread calm delivered), t.trail.used,
        (linkStep plainCrypto t (.thread calm delivered)).isSome)) =
      some (some (.logout false 6), [6, 5], true) := by decide +kernel
  obtain ⟨t, ht, hstate⟩ := Option.map_eq_some_iff.mp hend
  obtain ⟨hsends, hstate⟩ := Prod.mk.inj hstate
  obtain ⟨hused, hsome⟩ := Prod.mk.inj hstate
  obtain ⟨u, hu⟩ := Option.isSome_iff_exists.mp hsome
  have hlaw := (h plainCrypto _ [] 0 (stopAfterLoss ++ [.thread calm delivered])).last ht hu
  have hfresh := (hlaw false 6 hsends).2
  rw [hused] at hfresh
  exact hfresh List.mem_cons_self

end Presence3DS.Discord
