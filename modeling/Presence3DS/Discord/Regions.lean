import Presence3DS.Discord.Server

/-! What each step of the thread does to the session, by the region of its program counter. -/

namespace Presence3DS.Discord
open CString Decimal

inductive Region where
  | begin
  | seeking
  | verifying
  | session
  | ending
  | closing
deriving DecidableEq

def Pc.region : Pc → Region
  | .begin => .begin
  | .verifyBegin _ | .verifyPost _ => .verifying
  | .activityBegin | .activityCheck | .activityTick | .scriptPost _ | .activityPost
  | .sleeping _ => .session
  | .cleanup | .logoutPost => .ending
  | .waitAborted | .setStopped | .safeSocExit _ | .leaving _ | .returned => .closing
  | _ => .seeking

/-- Where a step without a request can lead to. -/
def Region.leadsTo (r r' : Region) : Bool := r' = r || r' = .closing || r' = .ending && r ≠ .closing

/-- The activity has been answered with an expired session, which is about to be dropped. -/
def Pc.expired : Pc → Bool
  | .activityFailed ret => ret = 1
  | _ => false

/-- What a step without a request does. -/
structure QuietStep (g : Globals) (l : Local) (g' : Globals) (l' : Local) : Prop where
  counter : g'.session.counter = g.session.counter
  active : g'.session.activeSession = true →
    g.session.activeSession = true ∧ l.pc ≠ .begin ∧ l.pc.expired = false
  begun : l'.pc.region ≠ .begin
  seeking : l'.pc.region = .seeking → l.pc.region = .begin ∨ l.pc.region = .seeking
  verifying : l'.pc.region = .verifying → l.pc.region = .verifying
  session : l'.pc.region = .session → l.pc.region = .session
  ending : l'.pc.region = .ending → l.pc.region ≠ .closing
  expired : l'.pc.expired = false
  logout : l'.pc = .logoutPost → g'.session.activeSession = true

section Quiet
variable {crypto : Crypto} {w : Answers} {g g' : Globals} {l l' : Local}

theorem QuietStep.within {pc pc' : Pc} (hpc : l.pc = pc) (hpc' : l'.pc = pc')
    (hsession : g'.session = g.session ∨ g'.session = g.dropSession.session)
    (hregion : pc.region.leadsTo pc'.region = true) (hbegin : pc.region ≠ .begin)
    (hexpired : pc.expired = false) (hexpired' : pc'.expired = false)
    (hlogout : pc' ≠ .logoutPost) :
    QuietStep g l g' l' := by
  subst hpc hpc'
  simp only [Region.leadsTo, Bool.or_eq_true, Bool.and_eq_true, decide_eq_true_eq, or_assoc]
    at hregion
  refine ⟨?_, ?_, ?_, ?_, ?_, ?_, ?_, hexpired', fun h => absurd h hlogout⟩
  · rcases hsession with h | h <;> rw [h]
    rfl
  · intro hactive
    rcases hsession with h | h
    · refine ⟨h ▸ hactive, ?_, hexpired⟩
      intro hpc
      rw [hpc] at hbegin
      exact hbegin rfl
    · rw [h] at hactive
      cases hactive
  · rcases hregion with h | h | ⟨h, -⟩
    · exact h ▸ hbegin
    all_goals
      rw [h]
      exact nofun
  case refine_7 =>
    intro hl
    rcases hregion with h | h | ⟨-, h⟩
    · rw [← h, hl]
      exact nofun
    · cases h.symm.trans hl
    · exact h
  all_goals
    intro hl
    rcases hregion with h | h | ⟨h, -⟩
    · first | exact .inr (h.symm.trans hl) | exact h.symm.trans hl
    all_goals cases h.symm.trans hl

theorem waitReturns_quiet {pc : Pc} {entry ready : Bool} (hpc : l.pc = pc)
    (hseeking : pc.region = .seeking) (hexpired : pc.expired = false)
    (h : some (waitReturns g l entry ready) = some (g', l')) : QuietStep g l g' l' := by
  have hbegin : pc.region ≠ .begin := by
    rw [hseeking]
    exact nofun
  cases entry <;> cases ready <;> cases h
  · exact .within hpc rfl (.inr rfl) (hseeking ▸ rfl) hbegin hexpired rfl nofun
  · exact .within hpc rfl (.inl rfl) (hseeking ▸ rfl) hbegin hexpired rfl nofun
  · exact .within hpc rfl (.inl rfl) (hseeking ▸ rfl) hbegin hexpired rfl nofun
  · exact .within hpc rfl (.inl rfl) (hseeking ▸ rfl) hbegin hexpired rfl nofun

theorem threadStep_quiet {reply : Option Bytes} (hquiet : rpcRequest crypto w g l = none)
    (h : threadStep crypto w reply g l = some (g', l')) : QuietStep g l g' l' := by
  unfold rpcRequest at hquiet
  unfold threadStep at h
  cases hpc : l.pc <;> simp only [hpc] at h hquiet
  case begin =>
    cases h
    exact ⟨rfl, nofun, nofun, fun _ => .inl (hpc ▸ rfl), nofun, nofun, nofun, rfl, nofun⟩
  case waitCheck =>
    split_ifs at h
    · exact waitReturns_quiet hpc rfl rfl h
    · exact waitReturns_quiet hpc rfl rfl h
    · cases h
      exact .within hpc rfl (.inl rfl) rfl nofun rfl rfl nofun
  case waitEvents =>
    split_ifs at h
    · exact waitReturns_quiet hpc rfl rfl h
    · cases h
      exact .within hpc rfl (.inl rfl) rfl nofun rfl rfl nofun
  case waitRecheck =>
    split_ifs at h
    · exact waitReturns_quiet hpc rfl rfl h
    · exact waitReturns_quiet hpc rfl rfl h
    · cases h
      exact .within hpc rfl (.inl rfl) rfl nofun rfl rfl nofun
  case activityFailed ret =>
    split_ifs at h with hret
    · cases h
      exact ⟨rfl, nofun, nofun, fun _ => .inr (hpc ▸ rfl), nofun, nofun, nofun, rfl, nofun⟩
    · have hexpired : (Pc.activityFailed ret).expired = false := decide_eq_false hret
      cases h
      exact .within hpc rfl (.inl rfl) rfl nofun hexpired rfl nofun
  case cleanup =>
    cases hactive : g.session.activeSession && !w.ndmYieldIsActive with
    | true =>
      have hsession : g.session.activeSession = true := (Bool.and_eq_true_iff.mp hactive).1
      rw [hactive] at h
      cases h
      exact ⟨rfl, fun hg => ⟨hg, hpc ▸ nofun, hpc ▸ rfl⟩, nofun, nofun, nofun, nofun,
        fun _ => hpc ▸ nofun, rfl, fun _ => hsession⟩
    | false =>
      rw [hactive] at h
      cases h
      exact .within hpc rfl (.inl rfl) rfl nofun rfl rfl nofun
  case sleeping =>
    split_ifs at h <;> cases h
    · exact .within hpc rfl (.inl rfl) rfl nofun rfl rfl nofun
    · exact .within hpc rfl (.inr rfl) rfl nofun rfl rfl nofun
    · exact .within hpc rfl (.inl rfl) rfl nofun rfl rfl nofun
    · exact .within hpc rfl (.inl rfl) rfl nofun rfl rfl nofun
  case networkLost =>
    split_ifs at h <;> cases h
    · exact .within hpc rfl (.inr rfl) rfl nofun rfl rfl nofun
    · exact .within hpc rfl (.inl rfl) rfl nofun rfl rfl nofun
  case loginCheck =>
    split_ifs at h <;> cases h
    · exact .within hpc rfl (.inl rfl) rfl nofun rfl rfl nofun
    · exact .within hpc rfl (.inl rfl) rfl nofun rfl rfl nofun
  case activityCheck =>
    cases hstop : g.shouldStop <;> rw [hstop] at h <;> cases h
    · exact .within hpc rfl (.inl rfl) rfl nofun rfl rfl nofun
    · exact .within hpc rfl (.inl rfl) rfl nofun rfl rfl nofun
  case loginRefused | networkFailed =>
    cases h
    exact .within hpc rfl (.inl rfl) rfl nofun rfl rfl nofun
  case returned => cases h
  -- The other steps without a request stay in their region and keep the session.
  case waitAnnounce | waitAborted | loginBegin | verifyBegin | activityBegin | setStopped
      | safeSocExit | leaving =>
    cases h
    exact .within hpc rfl (.inl rfl) rfl nofun rfl rfl nofun
  case networkInit | attemptFailed | activityTick =>
    split_ifs at h <;> cases h
    all_goals exact .within hpc rfl (.inl rfl) rfl nofun rfl rfl nofun
  case activityPost => split_ifs at hquiet
  all_goals cases hquiet

end Quiet

/-- The text answers a request as a success. -/
def Grants (text : Bytes) : Prop :=
  isSuccess text = true ∨ ∃ code sigHex,
    discordParseField text codeField customRpcExtraSize = some code ∧
      discordParseField text sigHexField 97 = some sigHex

/-- The session is requested, with its counter, by a title's script or by the activity. -/
def Request.ofActivity : Request → Bool
  | .script _ _ | .activity _ _ | .heartbeat _ => true
  | _ => false

/-- What a step does that sends a request and handles its reply. -/
inductive PostStep (crypto : Crypto) (reply : Option Bytes) (g : Globals) (l : Local) :
    Request → Globals → Local → Prop
  | loggedIn {attempt : Nat} {text nonce : Bytes} {g' : Globals} {l' : Local}
      (hpc : l.pc = .loginPost attempt) (htext : reply = some text)
      (hnonce : discordParseField text nonceField 32 = some nonce)
      (hret : verdict crypto g.session reply .login = 0)
      (hsession : g'.session = { g.session with counter := strtoull nonce })
      (hpc' : l'.pc = .verifyBegin attempt) : PostStep crypto reply g l .login g' l'
  | loginFailed {attempt : Nat} {g' : Globals} {l' : Local} (hpc : l.pc = .loginPost attempt)
      (hret : verdict crypto g.session reply .login ≠ 0) (hsession : g'.session = g.session)
      (hregion : l'.pc.region = .seeking) (hexpired : l'.pc.expired = false) :
      PostStep crypto reply g l .login g' l'
  | verified {attempt : Nat} {text : Bytes} {g' : Globals} {l' : Local}
      (hpc : l.pc = .verifyPost attempt) (htext : reply = some text) (hgrants : Grants text)
      (hret : verdict crypto g.session reply (.verify g.session.counter) = 0)
      (hsession : g'.session = ⟨g.session.counter + 1, true⟩) (hpc' : l'.pc = .activityBegin) :
      PostStep crypto reply g l (.verify g.session.counter) g' l'
  | verifyFailed {attempt : Nat} {g' : Globals} {l' : Local} (hpc : l.pc = .verifyPost attempt)
      (hret : verdict crypto g.session reply (.verify g.session.counter) ≠ 0)
      (hsession : g'.session = g.session) (hpc' : l'.pc = .attemptFailed attempt) :
      PostStep crypto reply g l (.verify g.session.counter) g' l'
  | accepted {request : Request} {text : Bytes} {g' : Globals} {l' : Local}
      (hpc : l.pc.region = .session) (hrequest : request.ofActivity = true)
      (hcounter : request.counter? = some g.session.counter) (htext : reply = some text)
      (hgrants : Grants text) (hret : verdict crypto g.session reply request = 0)
      (hsession : g'.session = { g.session with counter := g.session.counter + 1 })
      (hregion : l'.pc.region = .session) (hexpired : l'.pc.expired = false) :
      PostStep crypto reply g l request g' l'
  | refused {request : Request} {ret : Int} {g' : Globals} {l' : Local}
      (hpc : l.pc.region = .session) (hrequest : request.ofActivity = true)
      (hcounter : request.counter? = some g.session.counter)
      (hret : verdict crypto g.session reply request ≠ 0) (hsession : g'.session = g.session)
      (hpc' : l'.pc = .activityFailed ret)
      (hexpired : (∃ titleid counter, request = .script titleid counter) ∨
        ret = verdict crypto g.session reply request) :
      PostStep crypto reply g l request g' l'
  | loggedOut {g' : Globals} {l' : Local} (hpc : l.pc = .logoutPost)
      (hsession : g'.session = g.session) (hpc' : l'.pc = .setStopped) :
      PostStep crypto reply g l (.logout g.stopSleep g.session.counter) g' l'

section Post
variable {crypto : Crypto} {w : Answers} {reply : Option Bytes} {g g' : Globals} {l l' : Local}
  {request : Request}

theorem loginPost_step {attempt : Nat} (hpc : l.pc = .loginPost attempt)
    (h : threadStep crypto w reply g l = some (g', l')) :
    PostStep crypto reply g l .login g' l' := by
  unfold threadStep at h
  simp only [hpc] at h
  rcases login_cases g.session reply with ⟨ret, hne, hlogin⟩ | ⟨text, nonce, htext, hnonce, hlogin⟩
  · have hret : verdict crypto g.session reply .login = ret := congrArg Prod.fst hlogin
    rw [hlogin] at h
    by_cases hrefused : ret = 1
    · simp only [if_pos hrefused] at h
      cases h
      exact .loginFailed hpc (hret ▸ hne) rfl rfl rfl
    · simp only [if_neg hrefused, if_pos hne] at h
      cases h
      exact .loginFailed hpc (hret ▸ hne) rfl rfl rfl
  · have hret : verdict crypto g.session reply .login = 0 := congrArg Prod.fst hlogin
    rw [hlogin] at h
    cases h
    exact .loggedIn hpc htext hnonce hret rfl rfl

theorem verifyPost_step {attempt : Nat} (hpc : l.pc = .verifyPost attempt)
    (h : threadStep crypto w reply g l = some (g', l')) :
    PostStep crypto reply g l (.verify g.session.counter) g' l' := by
  unfold threadStep at h
  simp only [hpc] at h
  rcases verify_cases g.session reply with hfail | ⟨text, htext, hsuccess, hverify⟩
  · have hret : verdict crypto g.session reply (.verify g.session.counter) ≠ 0 := by
      simp [verdict, hfail]
    rw [hfail] at h
    cases h
    exact .verifyFailed hpc hret rfl rfl
  · have hret : verdict crypto g.session reply (.verify g.session.counter) = 0 := by
      simp [verdict, hverify]
    rw [hverify] at h
    cases h
    exact .verified hpc htext (.inl hsuccess) hret rfl rfl

theorem scriptPost_step {titleid : UInt64} (hpc : l.pc = .scriptPost titleid)
    (h : threadStep crypto w reply g l = some (g', l')) :
    PostStep crypto reply g l (.script titleid g.session.counter) g' l' := by
  have hregion : l.pc.region = .session := hpc ▸ rfl
  unfold threadStep at h
  simp only [hpc] at h
  rcases script_cases crypto g.session titleid reply with
    ⟨ret, hne, hscript⟩ | ⟨text, code, sigHex, htext, hcode, hsig, hscript⟩
  · have hret : verdict crypto g.session reply (.script titleid g.session.counter) = ret :=
      congrArg Prod.fst hscript
    rw [hscript] at h
    simp only [if_pos hne] at h
    cases h
    exact .refused hregion rfl rfl (hret ▸ hne) rfl rfl (.inl ⟨titleid, _, rfl⟩)
  · have hret : verdict crypto g.session reply (.script titleid g.session.counter) = 0 :=
      congrArg Prod.fst hscript
    rw [hscript] at h
    cases h
    exact .accepted hregion rfl rfl htext (.inr ⟨code, sigHex, hcode, hsig⟩) hret rfl rfl rfl

theorem afterActivity_step {l₀ : Local} (hregion : l.pc.region = .session)
    (hrequest : request.ofActivity = true) (hcounter : request.counter? = some g.session.counter)
    (hverdict : verdict crypto g.session reply request = (activityReply g.session reply).1) :
    PostStep crypto reply g l request (afterActivity g l₀ (activityReply g.session reply)).1
      (afterActivity g l₀ (activityReply g.session reply)).2 := by
  rcases activity_cases g.session reply with ⟨ret, hne, hreply⟩ | ⟨text, htext, hsuccess, hreply⟩
  · rw [hreply] at hverdict ⊢
    exact .refused hregion hrequest hcounter (hverdict ▸ hne) rfl (if_neg hne)
      (.inr hverdict.symm)
  · rw [hreply] at hverdict ⊢
    exact .accepted hregion hrequest hcounter htext (.inl hsuccess) hverdict rfl rfl rfl

theorem threadStep_post (hrequest : rpcRequest crypto w g l = some request)
    (h : threadStep crypto w reply g l = some (g', l')) :
    PostStep crypto reply g l request g' l' := by
  unfold rpcRequest at hrequest
  cases hpc : l.pc <;> simp only [hpc] at hrequest
  case loginPost =>
    cases hrequest
    exact loginPost_step hpc h
  case verifyPost =>
    cases hrequest
    exact verifyPost_step hpc h
  case scriptPost =>
    cases hrequest
    exact scriptPost_step hpc h
  case activityPost =>
    have hregion : l.pc.region = .session := hpc ▸ rfl
    unfold threadStep at h
    simp only [hpc] at h
    split_ifs at h hrequest <;> cases hrequest <;> cases h
    · exact afterActivity_step hregion rfl rfl rfl
    · exact afterActivity_step hregion rfl rfl rfl
  case logoutPost =>
    unfold threadStep at h
    simp only [hpc] at h
    cases hrequest
    cases h
    exact .loggedOut hpc rfl rfl
  all_goals cases hrequest

end Post

end Presence3DS.Discord
