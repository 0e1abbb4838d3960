import Presence3DS.Lib.Runs
import Presence3DS.Discord.Regions

/-! The counter of the client and the one that the server expects stay in step, whatever requests
and replies are lost. -/

namespace Presence3DS.Discord
open CString Decimal Runs

/-- A request other than a logout carries the expected counter, and follows a login since which
no request has failed. -/
def CounterLaw (crypto : Crypto) (s : Link) (event : LinkEvent) : Prop :=
  ∀ request counter, sends crypto s event = some request → request.counter? = some counter →
    (∀ sleep c, request ≠ .logout sleep c) → counter = s.expected ∧ s.trail.loggedIn = true

/-- Between a successful login and the next failure, both sides agree on the counter. -/
def InStep (s : Link) : Prop :=
  s.thread.pc.region = .verifying ∨ s.thread.pc.region = .session →
    s.globals.session.counter = s.expected ∧ s.trail.loggedIn = true

theorem threadTurn_cases {crypto : Crypto} {s t : Link} {w : Answers} {fate : Fate}
    (h : threadTurn crypto s w fate = some t) :
    (rpcRequest crypto w s.globals s.thread = none ∧ t.expected = s.expected ∧
      t.trail = s.trail ∧ QuietStep s.globals s.thread t.globals t.thread) ∨
    ∃ request, rpcRequest crypto w s.globals s.thread = some request ∧
      t.expected = (post fate s.expected request).1 ∧
      t.trail = s.trail.note request
        (verdict crypto s.globals.session (post fate s.expected request).2 request) ∧
      PostStep crypto (post fate s.expected request).2 s.globals s.thread request t.globals
        t.thread := by
  unfold threadTurn at h
  cases hrequest : rpcRequest crypto w s.globals s.thread with
  | none =>
    simp only [hrequest] at h
    obtain ⟨⟨g', l'⟩, hstep, heq⟩ := Option.map_eq_some_iff.mp h
    cases heq
    exact .inl ⟨rfl, rfl, rfl, threadStep_quiet hrequest hstep⟩
  | some request =>
    simp only [hrequest] at h
    obtain ⟨⟨g', l'⟩, hstep, heq⟩ := Option.map_eq_some_iff.mp h
    cases heq
    exact .inr ⟨request, rfl, rfl, rfl, threadStep_post hrequest hstep⟩

/-! ## The server -/

section Server
variable {fate : Fate} {expected : UInt64} {request : Request} {text : Bytes}

theorem expected_of_grants (hcounter : request.counter? = some expected)
    (hreply : (post fate expected request).2 = some text) (hgrants : Grants text) :
    (post fate expected request).1 = expected + 1 := by
  unfold post at hreply ⊢
  cases hdelivery : fate.delivery with
  | genuine =>
    simp only [hdelivery] at hreply
    split_ifs at hreply with harrives
    simp only [harrives, if_true, serve, hcounter]
  | lost =>
    simp only [hdelivery] at hreply
    cases hreply
  | replaced error =>
    simp only [hdelivery] at hreply
    cases hreply
    obtain ⟨-, hsuccess, hscript⟩ := error.2
    rcases hgrants with hgrants | ⟨code, sigHex, hcode, hsig⟩
    · cases hsuccess.symm.trans hgrants
    · rcases hscript with hnone | hnone
      · cases hnone.symm.trans hcode
      · cases hnone.symm.trans hsig

theorem expected_of_nonce {nonce : Bytes} (hreply : (post fate expected .login).2 = some text)
    (hnonce : discordParseField text nonceField 32 = some nonce) :
    (post fate expected .login).1 = strtoull nonce := by
  unfold post at hreply ⊢
  cases hdelivery : fate.delivery with
  | genuine =>
    simp only [hdelivery] at hreply
    split_ifs at hreply with harrives
    have htext : fate.loginReply.1 = text := Option.some.inj hreply
    have hdecimal : decimal fate.nonce.toNat = nonce := by
      rw [← htext] at hnonce
      exact Option.some.inj (fate.loginReply.2.symm.trans hnonce)
    rw [← hdecimal, strtoull_decimal fate.nonce.toNat_lt, UInt64.ofNat_toNat]
    exact if_pos harrives
  | lost =>
    simp only [hdelivery] at hreply
    cases hreply
  | replaced error =>
    simp only [hdelivery] at hreply
    cases hreply
    cases error.2.1.symm.trans hnonce

end Server

/-! ## Steps and runs -/

section Steps
variable {crypto : Crypto} {s t : Link} {event : LinkEvent}

theorem InStep.quiet (hs : InStep s) (hexpected : t.expected = s.expected)
    (htrail : t.trail = s.trail) (h : QuietStep s.globals s.thread t.globals t.thread) :
    InStep t := by
  intro hregion
  rw [h.counter, hexpected, htrail]
  apply hs
  rcases hregion with hverifying | hsession
  · exact .inl (h.verifying hverifying)
  · exact .inr (h.session hsession)

theorem InStep.post {fate : Fate} {request : Request} (hs : InStep s)
    (hexpected : t.expected = (post fate s.expected request).1)
    (htrail : t.trail = s.trail.note request
      (verdict crypto s.globals.session (post fate s.expected request).2 request))
    (h : PostStep crypto (post fate s.expected request).2 s.globals s.thread request t.globals
      t.thread) : InStep t := by
  intro hregion
  cases h with
  | loggedIn hpc htext hnonce hret hsession hpc' =>
    rw [hexpected, expected_of_nonce htext hnonce, htrail, hret, hsession]
    exact ⟨rfl, rfl⟩
  | loginFailed hpc hret hsession hseeking =>
    rw [hseeking] at hregion
    rcases hregion with h | h <;> cases h
  | verified hpc htext hgrants hret hsession hpc' =>
    obtain ⟨hcounter, hlogged⟩ := hs (.inl (hpc ▸ rfl))
    have hcarries : (Request.verify s.globals.session.counter).counter? = some s.expected :=
      congrArg some hcounter
    rw [hexpected, htrail, hret, hsession, expected_of_grants hcarries htext hgrants, hcounter]
    exact ⟨rfl, hlogged⟩
  | verifyFailed hpc hret hsession hpc' =>
    rw [hpc'] at hregion
    rcases hregion with h | h <;> cases h
  | accepted hpc hrequest hcarries htext hgrants hret hsession hregion' =>
    obtain ⟨hcounter, hlogged⟩ := hs (.inr hpc)
    rw [hexpected, htrail, hret, hsession,
      expected_of_grants (hcarries.trans (congrArg some hcounter)) htext hgrants, hcounter]
    refine ⟨rfl, ?_⟩
    cases request <;> first | exact hlogged | cases hrequest
  | refused hpc hrequest hcarries hret hsession hpc' =>
    rw [hpc'] at hregion
    rcases hregion with h | h <;> cases h
  | loggedOut hpc hsession hpc' =>
    rw [hpc'] at hregion
    rcases hregion with h | h <;> cases h

theorem linkStep_inStep (hs : InStep s) (h : linkStep crypto s event = some t) : InStep t := by
  cases event with
  | others state shouldStop stopSleep stopEvent =>
    cases h
    exact hs
  | thread w fate =>
    rcases threadTurn_cases h with ⟨-, hexpected, htrail, hquiet⟩ |
      ⟨request, -, hexpected, htrail, hpost⟩
    · exact hs.quiet hexpected htrail hquiet
    · exact hs.post hexpected htrail hpost

theorem linkStep_counterLaw (hs : InStep s) (h : linkStep crypto s event = some t) :
    CounterLaw crypto s event := by
  intro request counter hsends hcounter hlogout
  cases event with
  | others state shouldStop stopSleep stopEvent => cases hsends
  | thread w fate =>
    rcases threadTurn_cases h with ⟨hnone, -⟩ | ⟨request', hrequest, -, -, hpost⟩
    · cases hnone.symm.trans hsends
    · cases hrequest.symm.trans hsends
      cases hpost with
      | loggedIn => cases hcounter
      | loginFailed => cases hcounter
      | verified hpc =>
        cases hcounter
        exact hs (.inl (hpc ▸ rfl))
      | verifyFailed hpc =>
        cases hcounter
        exact hs (.inl (hpc ▸ rfl))
      | accepted hpc hrequest hcarries =>
        cases hcarries.symm.trans hcounter
        exact hs (.inr hpc)
      | refused hpc hrequest hcarries =>
        cases hcarries.symm.trans hcounter
        exact hs (.inr hpc)
      | loggedOut => exact absurd rfl (hlogout _ _)

end Steps

/-- In every run of the thread, every request but a logout carries the counter that the server
expects, and follows a login since which no request has failed. -/
theorem counters_stay_in_step (crypto : Crypto) (globals : Globals) (prevHash : Bytes)
    (expected : UInt64) (events : List LinkEvent) :
    AllSteps (linkStep crypto) (fun s event _ => CounterLaw crypto s event)
      (Link.boot globals prevHash expected) events := by
  have hboot : InStep (Link.boot globals prevHash expected) := by
    rintro (h | h) <;> cases h
  have hstep : ∀ s event t, InStep s → linkStep crypto s event = some t →
      InStep t ∧ CounterLaw crypto s event :=
    fun _ _ _ hs ht => ⟨linkStep_inStep hs ht, linkStep_counterLaw hs ht⟩
  exact allSteps_of_invariant hstep hboot events

end Presence3DS.Discord
