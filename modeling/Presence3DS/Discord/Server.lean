import Presence3DS.Discord.RpcThread

/-! The server of the sessions as the counters show it, behind a network that may lose or replace
any request and any reply, and the thread linked to it. -/

namespace Presence3DS.Discord
open CString Decimal

/-- The counter that a request is authenticated with. -/
def Request.counter? : Request → Option UInt64
  | .login => none
  | .verify counter | .script _ counter | .activity _ counter | .heartbeat counter
  | .logout _ counter => some counter

/-- A reply to a login carries the nonce in decimal. -/
abbrev LoginReply (nonce : UInt64) : Type :=
  { text : Bytes // discordParseField text nonceField 32 = some (decimal nonce.toNat) }

/-- The plain reply to a login. -/
def LoginReply.plain (nonce : UInt64) : LoginReply nonce where
  val := nonceField ++ 0x3D :: decimal nonce.toNat
  property := by
    have hdigits : ∀ c ∈ decimal nonce.toNat, c ≠ 0 ∧ c ≠ 0x26 ∧ c ≠ 0x0D ∧ c ≠ 0x0A := by
      intro c hc
      have hdigit := isDigit_of_mem_decimal hc
      refine ⟨?_, ?_, ?_, ?_⟩
      all_goals
        rintro rfl
        cases hdigit
    have hlen := length_decimal_le nonce.toNat_lt
    exact parseField_first (by decide +kernel) hdigits (decimal_ne_nil _)
      (hlen.trans_lt (by decide))

/-- An error reply carries no nonce, no success and no signed script. -/
abbrev ErrorReply : Type :=
  { text : Bytes // discordParseField text nonceField 32 = none ∧ isSuccess text = false ∧
    (discordParseField text codeField customRpcExtraSize = none ∨
      discordParseField text sigHexField 97 = none) }

inductive Delivery where
  | genuine
  | lost
  | replaced (error : ErrorReply)

/-- What happens to a request and its reply, and what the server has to say. -/
structure Fate where
  arrives : Bool
  delivery : Delivery
  nonce : UInt64
  loginReply : LoginReply nonce
  accepted : Bytes
  refusal : ErrorReply

/-- The server accepts the expected counter only and expects the next one then. -/
def serve (fate : Fate) (expected : UInt64) (request : Request) : UInt64 × Bytes :=
  match request.counter? with
  | none => (fate.nonce, fate.loginReply.1)
  | some counter =>
    if counter = expected then (expected + 1, fate.accepted) else (expected, fate.refusal.1)

/-- What the server expects afterwards, and what the client receives. -/
def post (fate : Fate) (expected : UInt64) (request : Request) : UInt64 × Option Bytes :=
  let served := serve fate expected request
  (if fate.arrives then served.1 else expected,
    match fate.delivery with
    | .genuine => if fate.arrives then some served.2 else none
    | .lost => none
    | .replaced error => some error.1)

/-- What the requests of a run amounted to so far. -/
structure Trail where
  /-- The counters sent since the last login request. -/
  used : List UInt64
  /-- The last login has succeeded, and no request has failed since. -/
  loggedIn : Bool
  /-- The session was verified since the last login request. -/
  verified : Bool
  /-- A session was verified, and none has expired since. -/
  alive : Bool
  failedSinceVerify : Bool

def Trail.start : Trail := ⟨[], false, false, false, false⟩

/-- What the client makes of the reply: 0 is success, and 1 an expired session where it is the
reply to an activity. -/
def verdict (crypto : Crypto) (s : Session) (reply : Option Bytes) : Request → Int
  | .login => (discordLogin s reply).1
  | .verify _ => if (discordVerify s reply).1 then 0 else 2
  | .script titleid _ => (discordGetScript crypto s titleid reply).1
  | .activity _ _ => (discordActivityUpdate s reply).1
  | .heartbeat _ => (discordActivityHeartbeat s reply).1
  | .logout _ _ => 0

def Trail.use (trail : Trail) (counter : UInt64) : Trail :=
  { trail with used := counter :: trail.used }

def Trail.fail (trail : Trail) : Trail :=
  { trail with loggedIn := false, failedSinceVerify := true }

def Trail.note (trail : Trail) (request : Request) (ret : Int) : Trail :=
  match request with
  | .login =>
    let trail := { trail with used := [], verified := false }
    if ret = 0 then { trail with loggedIn := true } else trail.fail
  | .verify counter =>
    if ret = 0 then
      { trail.use counter with verified := true, alive := true, failedSinceVerify := false }
    else (trail.use counter).fail
  | .script _ counter => if ret = 0 then trail.use counter else (trail.use counter).fail
  | .activity _ counter | .heartbeat counter =>
    if ret = 0 then trail.use counter
    else { (trail.use counter).fail with alive := trail.alive && ret ≠ 1 }
  | .logout _ counter => trail.use counter

/-- The thread, the server, and the trail of their requests. -/
structure Link where
  globals : Globals
  thread : Local
  expected : UInt64
  trail : Trail

/-- A step of the thread, or of any other one that writes the flags it reads. -/
inductive LinkEvent where
  | thread (w : Answers) (fate : Fate)
  | others (state : DiscordState) (shouldStop stopSleep : Bool) (stopEvent : Option Bool)

def threadTurn (crypto : Crypto) (s : Link) (w : Answers) (fate : Fate) : Option Link :=
  match rpcRequest crypto w s.globals s.thread with
  | none =>
    (threadStep crypto w none s.globals s.thread).map fun t =>
      { s with globals := t.1, thread := t.2 }
  | some request =>
    let (expected, reply) := post fate s.expected request
    (threadStep crypto w reply s.globals s.thread).map fun t =>
      { globals := t.1
        thread := t.2
        expected := expected
        trail := s.trail.note request (verdict crypto s.globals.session reply request) }

def linkStep (crypto : Crypto) (s : Link) (event : LinkEvent) : Option Link :=
  match event with
  | .thread w fate => threadTurn crypto s w fate
  | .others state shouldStop stopSleep stopEvent =>
    some { s with globals := { s.globals with
      state := state
      shouldStop := shouldStop
      stopSleep := stopSleep
      stopEvent := stopEvent } }

/-- A thread at its beginning, whatever an earlier one has left. -/
def Link.boot (globals : Globals) (prevHash : Bytes) (expected : UInt64) : Link :=
  ⟨globals, ⟨.begin, false, prevHash⟩, expected, Trail.start⟩

/-- The request that a step sends. -/
def sends (crypto : Crypto) (s : Link) : LinkEvent → Option Request
  | .thread w _ => rpcRequest crypto w s.globals s.thread
  | .others _ _ _ _ => none

end Presence3DS.Discord
