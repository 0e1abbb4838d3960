import Mathlib.Logic.Function.Basic
import Presence3DS.Discord.Session

/-! The thread of Discord RPC (`DiscordRPC_ThreadMain` and what it calls) as a machine of program
counters. A step reads the shared variables at most once; what the network, the running
application and the yield to a game answer in it is its label. -/

namespace Presence3DS.Discord
open CString

inductive DiscordState where
  | stopped
  | login
  | verify
  | active
  | error
deriving DecidableEq

/-- The variables of `discord_rpc_main.c` and `discord_session.c` that the thread shares, and the
title whose script was fetched. -/
structure Globals where
  state : DiscordState
  shouldStop : Bool
  stopSleep : Bool
  /-- Whether the event is signalled, where it could be created. -/
  stopEvent : Option Bool
  session : Session
  tried : Option UInt64
deriving DecidableEq

inductive Pc where
  | begin
  /-- `wait_network_ready` on entry to the thread, or before each login. -/
  | waitCheck (entry : Bool)
  | waitAnnounce (entry : Bool)
  | waitEvents (entry : Bool)
  | waitRecheck (entry : Bool)
  | waitAborted
  | networkInit
  | networkFailed
  | loginBegin
  | loginCheck (attempt : Nat)
  | loginPost (attempt : Nat)
  | loginRefused
  | verifyBegin (attempt : Nat)
  | verifyPost (attempt : Nat)
  /-- The login or the verification of this attempt has failed. -/
  | attemptFailed (attempt : Nat)
  | activityBegin
  | activityCheck
  | activityTick
  | scriptPost (titleid : UInt64)
  | activityPost
  | activityFailed (ret : Int)
  | networkLost
  | sleeping (i : Nat)
  | cleanup
  | logoutPost
  | setStopped
  /-- The state has been set to stopped by this thread, or not. -/
  | safeSocExit (announced : Bool)
  | leaving (announced : Bool)
  | returned
deriving DecidableEq

structure Local where
  pc : Pc
  reconnecting : Bool
  prevHash : Bytes
deriving DecidableEq

/-- What one step may be answered by the rest of the system. -/
structure Answers where
  yieldWantsExit : Bool
  /-- The second question of the same step. -/
  yieldWantsExitAgain : Bool
  ndmYieldIsActive : Bool
  netWatchIsOnline : Bool
  netWatchKick : Bool
  /-- The wait ended on the event of the stop. -/
  stopEventSeen : Bool
  networkInit : Bool
  titleid : UInt64
  disableCustomRpc : Bool
  hideHome : Bool
  /-- What `create_activity_string` builds. -/
  data : Bytes
  appIsGone : Bool

def Globals.setState (g : Globals) (state : DiscordState) : Globals := { g with state := state }

def Globals.setSession (g : Globals) (session : Session) : Globals := { g with session := session }

/-- `active_session = false` -/
def Globals.dropSession (g : Globals) : Globals :=
  { g with session := { g.session with activeSession := false } }

/-- `CustomRPC_ClearConfig` -/
def Globals.clearConfig (g : Globals) : Globals := { g with tried := none }

def Local.goto (l : Local) (pc : Pc) : Local := { l with pc := pc }

def homeMenuField : Bytes :=
  ascii ['t', 'i', 't', 'l', 'e', 'i', 'd', '='] ++ List.replicate 16 0x30

/-- The activity that is posted, with the home menu hidden where the preference says so. -/
def postedData (w : Answers) : Bytes :=
  if w.hideHome && strstr w.data homeMenuField then [] else w.data

/-- `wait_network_ready` returns to where it was called. -/
def waitReturns (g : Globals) (l : Local) (entry ready : Bool) : Globals × Local :=
  match entry, ready with
  | true, true => (g, l.goto .networkInit)
  | true, false => (g, l.goto .waitAborted)
  | false, true => (g, l.goto .loginBegin)
  | false, false => (g.dropSession, l.goto .cleanup)

def maxAttempts (l : Local) : Nat := if l.reconnecting then 3 else 1

/-- The request that the thread sends in its next step, if any. -/
def rpcRequest (crypto : Crypto) (w : Answers) (g : Globals) (l : Local) : Option Request :=
  match l.pc with
  | .loginPost _ => some .login
  | .verifyPost _ => some (.verify g.session.counter)
  | .scriptPost titleid => some (.script titleid g.session.counter)
  | .activityPost =>
    if crypto.sha256 w.data ≠ l.prevHash then some (.activity (postedData w) g.session.counter)
    else some (.heartbeat g.session.counter)
  | .logoutPost => some (.logout g.stopSleep g.session.counter)
  | _ => none

/-- After the activity or heartbeat request. -/
def afterActivity (g : Globals) (l : Local) (result : Int × Session) : Globals × Local :=
  (g.setSession result.2, l.goto (if result.1 = 0 then .sleeping 0 else .activityFailed result.1))

/-- One step of the thread; `reply` is what its request, if any, is answered with. -/
def threadStep (crypto : Crypto) (w : Answers) (reply : Option Bytes) (g : Globals) (l : Local) :
    Option (Globals × Local) :=
  match l.pc with
  | .begin => some ({ g.dropSession with stopSleep := false }, l.goto (.waitCheck true))
  | .waitCheck entry =>
    if g.shouldStop || w.yieldWantsExit then some (waitReturns g l entry false)
    else if w.netWatchIsOnline || !w.yieldWantsExitAgain && w.netWatchKick then
      some (waitReturns g l entry true)
    else some (g, l.goto (.waitAnnounce entry))
  | .waitAnnounce entry => some (g.setState .login, l.goto (.waitEvents entry))
  | .waitEvents entry =>
    if w.stopEventSeen && g.stopEvent = some true then some (waitReturns g l entry false)
    else some (g, l.goto (.waitRecheck entry))
  | .waitRecheck entry =>
    if g.shouldStop || w.yieldWantsExit then some (waitReturns g l entry false)
    else if w.netWatchIsOnline then some (waitReturns g l entry true)
    else some (g, l.goto (.waitEvents entry))
  | .waitAborted => some (g.setState .stopped, l.goto (.leaving true))
  | .networkInit =>
    if w.networkInit then some (g, { l with pc := .waitCheck false, reconnecting := false })
    else some (g, l.goto .networkFailed)
  | .networkFailed => some (g.setState .error, l.goto (.safeSocExit false))
  | .loginBegin => some (g.setState .login, l.goto (.loginCheck 1))
  | .loginCheck attempt =>
    if attempt ≤ maxAttempts l ∧ g.shouldStop = false then some (g, l.goto (.loginPost attempt))
    else some (g, l.goto .cleanup)
  | .loginPost attempt =>
    let (ret, session) := discordLogin g.session reply
    some (g.setSession session, l.goto
      (if ret = 1 then .loginRefused
      else if ret ≠ 0 then .attemptFailed attempt
      else .verifyBegin attempt))
  | .loginRefused => some (g.setState .error, l.goto .cleanup)
  | .verifyBegin attempt => some (g.setState .verify, l.goto (.verifyPost attempt))
  | .verifyPost attempt =>
    let (verified, session) := discordVerify g.session reply
    if verified then
      some (g.setSession session, { l with pc := .activityBegin, reconnecting := false })
    else some (g.setSession session, l.goto (.attemptFailed attempt))
  | .attemptFailed attempt =>
    if attempt = maxAttempts l then
      some ((g.setState .error).clearConfig,
        { l with pc := .waitCheck false, reconnecting := true })
    else some (g.setState .login, l.goto (.loginCheck (attempt + 1)))
  | .activityBegin =>
    some (g.setState .active,
      { l with pc := .activityCheck, prevHash := List.replicate 32 0 })
  | .activityCheck =>
    some (g, l.goto (if g.shouldStop then .cleanup else .activityTick))
  | .activityTick =>
    if w.disableCustomRpc ∨ w.titleid = 0 then some (g.clearConfig, l.goto .activityPost)
    else if g.tried = some w.titleid then some (g, l.goto .activityPost)
    else some (g.clearConfig, l.goto (.scriptPost w.titleid))
  | .scriptPost titleid =>
    let (ret, session) := discordGetScript crypto g.session titleid reply
    if ret ≠ 0 then some ((g.setSession session).clearConfig, l.goto (.activityFailed 2))
    else some ({ g.setSession session with tried := some titleid }, l.goto .activityPost)
  | .activityPost =>
    if crypto.sha256 w.data ≠ l.prevHash then
      some (afterActivity g { l with prevHash := crypto.sha256 w.data }
        (discordActivityUpdate g.session reply))
    else some (afterActivity g l (discordActivityHeartbeat g.session reply))
  | .activityFailed ret =>
    if ret = 1 then some ((g.setState .error).dropSession, l.goto .networkLost)
    else some (g.setState .error, l.goto .networkLost)
  | .networkLost =>
    if w.yieldWantsExit then some (g.dropSession, l.goto .cleanup)
    else some (g.clearConfig, { l with pc := .waitCheck false, reconnecting := true })
  | .sleeping i =>
    if 100 ≤ i ∨ g.shouldStop = true then some (g, l.goto .activityCheck)
    else if w.yieldWantsExit then some (g.dropSession, l.goto .cleanup)
    else some (if i % 10 = 0 ∧ w.appIsGone = true then g.clearConfig else g,
      l.goto (.sleeping (i + 1)))
  | .cleanup =>
    some (g.clearConfig, l.goto
      (if g.session.activeSession && !w.ndmYieldIsActive then .logoutPost else .setStopped))
  | .logoutPost => some (g, l.goto .setStopped)
  | .setStopped => some (g.setState .stopped, l.goto (.safeSocExit true))
  | .safeSocExit announced => some (g, l.goto (.leaving announced))
  | .leaving _ => some (g, l.goto .returned)
  | .returned => none

/-! The callers of `DiscordRPC_Start` and `DiscordRPC_Stop` beside the threads that they create and
join. Each step makes one access to a shared variable, in any order of the callers and threads. -/

abbrev ThreadId := Nat

/-- The threads that start or stop Discord RPC. -/
inductive Caller where
  | menu
  | taskRunner
  | preTermination
  | ndmYield
deriving DecidableEq

inductive CallerPc where
  | idle
  | startCheck
  | startClearStop
  | startClearStopping
  | startClearEvent
  | startAnnounce
  | startEvent
  | startThread
  /-- The event or the thread could not be created. -/
  | startFailed
  | startWait
  | stopCheck (sleep : Bool)
  | stopMark (sleep : Bool)
  | stopRequest (sleep : Bool)
  | stopSleep (sleep : Bool)
  | stopSignal
  | stopJoin
  | stopWait (handle : Option ThreadId)
  | stopClose
  | stopAnnounce
deriving DecidableEq

structure Lifecycle where
  globals : Globals
  rpcStopping : Bool
  /-- `g_rpcThread.handle` -/
  handle : Option ThreadId
  created : Nat
  /-- A thread that was never created counts as returned. -/
  thread : ThreadId → Local
  caller : Caller → CallerPc

/-- What a caller checks itself before it starts or stops Discord RPC. -/
def mayCall (state : DiscordState) (start : Bool) : Caller → Bool
  | .menu => start = decide (state = .stopped)
  | .taskRunner => true
  | .preTermination => !start && state ≠ .stopped
  | .ndmYield => start && state = .stopped

/-- Only the task of the closed shell stops to sleep. -/
def sleepOf : Caller → Bool
  | .taskRunner => true
  | _ => false

inductive LifecycleAction where
  | call (c : Caller) (start : Bool)
  /-- The answer is that of the configuration or the kernel in this step. -/
  | caller (c : Caller) (answer : Bool)
  | thread (i : ThreadId) (w : Answers) (reply : Option Bytes)

namespace Lifecycle

def goto (s : Lifecycle) (c : Caller) (pc : CallerPc) : Lifecycle :=
  { s with caller := Function.update s.caller c pc }

def setState (s : Lifecycle) (state : DiscordState) : Lifecycle :=
  { s with globals := s.globals.setState state }

def setShouldStop (s : Lifecycle) (b : Bool) : Lifecycle :=
  { s with globals := { s.globals with shouldStop := b } }

def setStopSleep (s : Lifecycle) (b : Bool) : Lifecycle :=
  { s with globals := { s.globals with stopSleep := b } }

/-- Signals or clears the event, where there is one. -/
def setStopEvent (s : Lifecycle) (b : Bool) : Lifecycle :=
  { s with globals := { s.globals with stopEvent := s.globals.stopEvent.map fun _ => b } }

def setRpcStopping (s : Lifecycle) (b : Bool) : Lifecycle := { s with rpcStopping := b }

/-- `MyThread_Create` -/
def createThread (s : Lifecycle) : Lifecycle :=
  { s with
    handle := some s.created
    created := s.created + 1
    thread := Function.update s.thread s.created ⟨.begin, false, []⟩ }

def hasReturned (s : Lifecycle) (handle : Option ThreadId) : Bool :=
  handle.any fun i => (s.thread i).pc = .returned

end Lifecycle

/-- One step of `DiscordRPC_Start` or `DiscordRPC_Stop`. -/
def callerStep (s : Lifecycle) (c : Caller) (answer : Bool) : Option Lifecycle :=
  match s.caller c with
  | .idle => none
  | .startCheck =>
    if s.globals.state ≠ .stopped ∨ answer = false then some (s.goto c .idle)
    else some (s.goto c .startClearStop)
  | .startClearStop => some ((s.setShouldStop false).goto c .startClearStopping)
  | .startClearStopping => some ((s.setRpcStopping false).goto c .startClearEvent)
  | .startClearEvent => some ((s.setStopEvent false).goto c .startAnnounce)
  | .startAnnounce => some ((s.setState .login).goto c .startEvent)
  | .startEvent => some (s.goto c (if answer then .startThread else .startFailed))
  | .startThread =>
    if answer then some (s.createThread.goto c .startWait) else some (s.goto c .startFailed)
  | .startFailed => some ((s.setState .stopped).goto c .idle)
  | .startWait => some (s.goto c .idle)
  | .stopCheck sleep => some (s.goto c (if s.rpcStopping then .idle else .stopMark sleep))
  | .stopMark sleep => some ((s.setRpcStopping true).goto c (.stopRequest sleep))
  | .stopRequest sleep => some ((s.setShouldStop true).goto c (.stopSleep sleep))
  | .stopSleep sleep => some ((s.setStopSleep sleep).goto c .stopSignal)
  | .stopSignal => some ((s.setStopEvent true).goto c .stopJoin)
  | .stopJoin => some (s.goto c (.stopWait s.handle))
  | .stopWait handle =>
    -- The wait may time out, and fails without a handle.
    some (s.goto c (if answer && s.hasReturned handle then .stopClose else .stopAnnounce))
  | .stopClose => some ({ s with handle := none }.goto c .stopAnnounce)
  | .stopAnnounce => some ((s.setState .stopped).goto c .idle)

def lifecycleStep (crypto : Crypto) (s : Lifecycle) (action : LifecycleAction) :
    Option Lifecycle :=
  match action with
  | .call c start =>
    if s.caller c = .idle ∧ mayCall s.globals.state start c = true then
      some (s.goto c (if start then .startCheck else .stopCheck (sleepOf c)))
    else none
  | .caller c answer => callerStep s c answer
  | .thread i w reply =>
    (threadStep crypto w reply s.globals (s.thread i)).map fun t =>
      { s with globals := t.1, thread := Function.update s.thread i t.2 }

/-- `DiscordRPC_Init` has run; its event could be created or not. -/
def Lifecycle.boot (stopEvent : Option Bool) : Lifecycle where
  globals := ⟨.stopped, false, false, stopEvent, ⟨0, false⟩, none⟩
  rpcStopping := false
  handle := none
  created := 0
  thread _ := ⟨.returned, false, []⟩
  caller _ := .idle

end Presence3DS.Discord
