import Mathlib.Logic.Function.Basic
import Presence3DS.Lib.Masks

/-! The sessions of the PXI module (`common.h`) and its static buffers, which the kernel copies
the buffers of a request to. -/

namespace Presence3DS.Pxi
open Masks

abbrev Word := BitVec 32

/-- The services that the sender handles, `pxi:mc` first. -/
abbrev Service := Fin 9

scoped instance services : NeZero 9 := ⟨Nat.succ_ne_zero 8⟩

/-- A session of a client, by the order of acceptance. Its handle is never 0. -/
abbrev ClientSession := ℕ

inductive SessionState where
  | idle
  | receivedFromArm11
  | sentToArm9
  | receivedFromArm9
deriving DecidableEq

/-- The command buffer of a thread. -/
abbrev Cmdbuf := Fin 64 → Word

scoped instance cmdbufWords : NeZero 64 := ⟨Nat.succ_ne_zero 63⟩

/-- The words of a message, by its header. -/
def nbWords (header : Word) : ℕ := (header &&& 0x3F).toNat + ((header &&& 0xFC0) >>> 6).toNat + 1

/-- `memcpy` of the first words of a buffer. -/
def memcpy (dst src : Cmdbuf) (n : ℕ) : Cmdbuf := fun i => if i < n then src i else dst i

/-- The message that a buffer holds. -/
def message (buffer : Cmdbuf) : List Word := (List.ofFn buffer).take (nbWords (buffer 0))

theorem nbWords_pos (header : Word) : 0 < nbWords header := Nat.succ_pos _

theorem memcpy_head (dst src : Cmdbuf) : memcpy dst src (nbWords (src 0)) 0 = src 0 :=
  if_pos (nbWords_pos _)

theorem message_memcpy (dst src : Cmdbuf) :
    message (memcpy dst src (nbWords (src 0))) = message src := by
  rw [message, message, memcpy_head]
  apply List.ext_getElem
  · rw [List.length_take, List.length_take, List.length_ofFn, List.length_ofFn]
  · intro i hi _
    rw [List.length_take] at hi
    rw [List.getElem_take, List.getElem_take, List.getElem_ofFn, List.getElem_ofFn]
    exact if_pos (lt_min_iff.mp hi).1

structure SessionData where
  state : SessionState
  buffer : Cmdbuf
  handle : Option ClientSession
  usedStaticBuffers : Word

def nbStaticBuffers : ℕ := 21

def nbStaticBuffersByService (serviceId : Service) : ℕ :=
  [0, 2, 2, 2, 2, 1, 4, 4, 4].getD serviceId 0

/-- `val & ~(1 << pos)` -/
def clearBit (val : Word) (pos : ℤ) : Word := clear val pos.toNat

def getMSBPosition (val : Word) : ℤ := 31 - val.clz.toNat

def getLSBPosition (val : Word) : ℤ := lsb val

def clearMSBs (val : Word) : ℕ → Word
  | 0 => val
  | nb + 1 =>
    let pos := getMSBPosition val
    if pos = -1 then val else clearMSBs (clearBit val pos) nb

/-- The static buffers of the sender: the free ones, those provided to the kernel, and the slots
that the kernel finds them in. -/
structure StaticBuffers where
  free : Word
  currentlyProvided : Word
  slots : List (Option ℕ)

/-- The slots of the static buffers, from the lowest on. -/
def slotsFrom (val : Word) : ℕ → List (Option ℕ)
  | 0 => []
  | n + 1 =>
    let pos := getLSBPosition val
    if pos = -1 then none :: slotsFrom val n
    else some pos.toNat :: slotsFrom (clearBit val pos) n

def updateTLSForStaticBuffers (b : StaticBuffers) : StaticBuffers :=
  { b with slots := slotsFrom b.currentlyProvided 4 }

def acquireStaticBuffers (b : StaticBuffers) : StaticBuffers :=
  let free := clearMSBs b.free 4
  updateTLSForStaticBuffers { b with free := free, currentlyProvided := ~~~free &&& b.free }

/-- What is left of `src`, and the free buffers then. -/
def releaseStaticBuffers (free src : Word) (nb : ℕ) : Word × Word :=
  let val := clearMSBs src nb
  (val, free ||| (~~~val &&& src))

/-- The buffers that the kernel may fill for a request to the service. -/
def StaticBuffers.filledFor (b : StaticBuffers) (serviceId : Service) : List ℕ :=
  (b.slots.take (nbStaticBuffersByService serviceId)).filterMap id

/-! What the sender does with a session (`sender.c`): it sends a command to Arm9, takes a command
of Arm11, and takes a reply of Arm9. No result is a panic. -/

/-- What a command says as `latest_PXI_MC5_val`: 0, 1 or 2. -/
inductive PxiMc5Val where
  | none
  | disable
  | enable
deriving DecidableEq

structure SessionManager where
  latestPxiMc5Val : PxiMc5Val
  pendingArm9Commands : Word
  sendingDisabled : Bool
  sessionData : Service → SessionData
  staticBuffers : StaticBuffers

namespace SessionManager

def setSession (m : SessionManager) (i : Service) (data : SessionData) : SessionManager :=
  { m with sessionData := Function.update m.sessionData i data }

def state (m : SessionManager) (i : Service) : SessionState := (m.sessionData i).state

def used (m : SessionManager) (i : Service) : Word := (m.sessionData i).usedStaticBuffers

theorem sessionData_setSession (m : SessionManager) (i : Service) (data : SessionData)
    (j : Service) : (m.setSession i data).sessionData j = if j = i then data else m.sessionData j :=
  Function.update_apply _ _ _ _

theorem state_setSession (m : SessionManager) (i : Service) (data : SessionData) (j : Service) :
    (m.setSession i data).state j = if j = i then data.state else m.state j := by
  rw [state, sessionData_setSession, apply_ite SessionData.state]
  rfl

theorem used_setSession (m : SessionManager) (i : Service) (data : SessionData) (j : Service) :
    (m.setSession i data).used j = if j = i then data.usedStaticBuffers else m.used j := by
  rw [used, sessionData_setSession, apply_ite SessionData.usedStaticBuffers]
  rfl

theorem handle_setSession (m : SessionManager) (i : Service) (data : SessionData) (j : Service) :
    ((m.setSession i data).sessionData j).handle =
      if j = i then data.handle else (m.sessionData j).handle := by
  rw [sessionData_setSession, apply_ite SessionData.handle]

theorem buffer_setSession (m : SessionManager) (i : Service) (data : SessionData) (j : Service) :
    ((m.setSession i data).sessionData j).buffer =
      if j = i then data.buffer else (m.sessionData j).buffer := by
  rw [sessionData_setSession, apply_ite SessionData.buffer]

/-- The test of the send loop, for a session that waits to be sent. -/
def maySend (m : SessionManager) : Bool :=
  !m.sendingDisabled || (m.pendingArm9Commands = 0 && m.latestPxiMc5Val ≠ .none)

/-- The session waits to be sent, and passes the test. -/
def sends (m : SessionManager) (i : Service) : Bool :=
  (m.sessionData i).handle ≠ none && (m.sessionData i).state = .receivedFromArm11 && m.maySend

def sendToArm9 (m : SessionManager) (i : Service) : SessionManager :=
  { m with
    pendingArm9Commands :=
      if m.sendingDisabled then m.pendingArm9Commands else m.pendingArm9Commands + 1
    }.setSession i { m.sessionData i with state := .sentToArm9 }

theorem state_sendToArm9 (m : SessionManager) (i j : Service) :
    (m.sendToArm9 i).state j = if j = i then .sentToArm9 else m.state j :=
  state_setSession _ i _ j

theorem buffer_sendToArm9 (m : SessionManager) (i j : Service) :
    ((m.sendToArm9 i).sessionData j).buffer = (m.sessionData j).buffer := by
  rw [sendToArm9, buffer_setSession]
  by_cases hj : j = i
  · rw [if_pos hj, hj]
  · rw [if_neg hj]

theorem handle_sendToArm9 (m : SessionManager) (i j : Service) :
    ((m.sendToArm9 i).sessionData j).handle = (m.sessionData j).handle := by
  rw [sendToArm9, handle_setSession]
  by_cases hj : j = i
  · rw [if_pos hj, hj]
  · rw [if_neg hj]

/-- `pxi:mc` command 5 disables the sending where its argument is not 0. -/
def pxiMc5Val (serviceId : Service) (cmdbuf : Cmdbuf) : PxiMc5Val :=
  if ¬(serviceId = 0 ∧ cmdbuf 0 >>> 16 = 5) then .none
  else if (cmdbuf 1).setWidth 8 ≠ 0 then .disable
  else .enable

theorem pxiMc5Val_ne_none_iff {i : Service} {cmdbuf : Cmdbuf} :
    pxiMc5Val i cmdbuf ≠ .none ↔ i = 0 ∧ cmdbuf 0 >>> 16 = 5 := by
  unfold pxiMc5Val
  split_ifs with hmc5 hval
  · exact iff_of_true nofun hmc5
  · exact iff_of_true nofun hmc5
  · exact iff_of_false (fun h => h rfl) hmc5

/-- Whether sending is disabled after the command, where it finds what it expects. -/
def gateAfter (sendingDisabled : Bool) : PxiMc5Val → Option Bool
  | .none => some sendingDisabled
  | .disable => if sendingDisabled then none else some true
  | .enable => if sendingDisabled then some true else none

/-- A command of Arm11 for the service. -/
def commandReceived (m : SessionManager) (serviceId : Service) (cmdbuf : Cmdbuf) :
    Option SessionManager :=
  let data := m.sessionData serviceId
  if data.state ≠ .idle then none
  else
    let val := pxiMc5Val serviceId cmdbuf
    match gateAfter m.sendingDisabled val with
    | none => none
    | some sendingDisabled =>
      if 0x40 < nbWords (cmdbuf 0) then none
      else
        let (provided, free) := releaseStaticBuffers m.staticBuffers.free
          m.staticBuffers.currentlyProvided (4 - nbStaticBuffersByService serviceId)
        some ({ m with
          latestPxiMc5Val := val
          sendingDisabled := sendingDisabled
          staticBuffers := acquireStaticBuffers
            { m.staticBuffers with free := free, currentlyProvided := provided }
          }.setSession serviceId { data with
            buffer := memcpy data.buffer cmdbuf (nbWords (cmdbuf 0))
            state := .receivedFromArm11
            usedStaticBuffers := provided })

/-- Whether sending is disabled after a reply, and how many commands are pending. -/
def gateReply (m : SessionManager) : Option (Bool × Word) :=
  match m.latestPxiMc5Val with
  | .enable => if m.pendingArm9Commands ≠ 0 then none else some (false, m.pendingArm9Commands)
  | .none => some (m.sendingDisabled, m.pendingArm9Commands - 1)
  | .disable => some (m.sendingDisabled, m.pendingArm9Commands)

/-- A reply of Arm9 for the session, which is to be sent to its client. -/
def replyReceived (m : SessionManager) (sessionId : Service) (cmdbuf : Cmdbuf) :
    Option (SessionManager × Cmdbuf) :=
  let data := m.sessionData sessionId
  if data.state ≠ .receivedFromArm9 then none
  else
    match m.gateReply with
    | none => none
    | some (sendingDisabled, pendingArm9Commands) =>
      if 0x40 < nbWords (data.buffer 0) then none
      else
        let (used, free) := releaseStaticBuffers m.staticBuffers.free data.usedStaticBuffers 4
        some ({ m with
          sendingDisabled := sendingDisabled
          pendingArm9Commands := pendingArm9Commands
          staticBuffers := { m.staticBuffers with free := free }
          }.setSession sessionId { data with usedStaticBuffers := used, state := .idle },
          memcpy cmdbuf data.buffer (nbWords (data.buffer 0)))

/-! ## When they panic, and what they do otherwise -/

section Cases
variable {m m' : SessionManager} {i : Service} {cmdbuf cmdbuf' : Cmdbuf}

/-- The buffers that are left to the session, and the free ones. -/
abbrev releaseProvided (m : SessionManager) (i : Service) : Word × Word :=
  releaseStaticBuffers m.staticBuffers.free m.staticBuffers.currentlyProvided
    (4 - nbStaticBuffersByService i)

theorem commandReceived_cases (h : m.commandReceived i cmdbuf = some m') :
    (m.sessionData i).state = .idle ∧ nbWords (cmdbuf 0) ≤ 0x40 ∧
      ∃ sendingDisabled, gateAfter m.sendingDisabled (pxiMc5Val i cmdbuf) = some sendingDisabled ∧
        m' = { m with
          latestPxiMc5Val := pxiMc5Val i cmdbuf
          sendingDisabled := sendingDisabled
          staticBuffers := acquireStaticBuffers { m.staticBuffers with
            free := (m.releaseProvided i).2, currentlyProvided := (m.releaseProvided i).1 }
          }.setSession i { m.sessionData i with
            buffer := memcpy (m.sessionData i).buffer cmdbuf (nbWords (cmdbuf 0))
            state := .receivedFromArm11
            usedStaticBuffers := (m.releaseProvided i).1 } := by
  unfold commandReceived at h
  simp only at h
  split_ifs at h with hstate hsize
  · cases hgate : gateAfter m.sendingDisabled (pxiMc5Val i cmdbuf) <;> rw [hgate] at h <;> cases h
  · cases hgate : gateAfter m.sendingDisabled (pxiMc5Val i cmdbuf) with
    | none =>
      rw [hgate] at h
      cases h
    | some sendingDisabled =>
      simp only [hgate] at h
      cases h
      exact ⟨not_not.mp hstate, not_lt.mp hsize, sendingDisabled, rfl, rfl⟩

theorem commandReceived_isSome (hstate : (m.sessionData i).state = .idle)
    (hsize : nbWords (cmdbuf 0) ≤ 0x40)
    (hgate : gateAfter m.sendingDisabled (pxiMc5Val i cmdbuf) ≠ none) :
    (m.commandReceived i cmdbuf).isSome = true := by
  obtain ⟨sendingDisabled, hsome⟩ := Option.ne_none_iff_exists'.mp hgate
  unfold commandReceived
  simp only [hstate, hsome, ne_eq, not_true_eq_false, if_false, if_neg (not_lt.mpr hsize)]
  rfl

theorem replyReceived_cases (h : m.replyReceived i cmdbuf = some (m', cmdbuf')) :
    (m.sessionData i).state = .receivedFromArm9 ∧ nbWords ((m.sessionData i).buffer 0) ≤ 0x40 ∧
      ∃ sendingDisabled pending, m.gateReply = some (sendingDisabled, pending) ∧
        m' = { m with
          sendingDisabled := sendingDisabled
          pendingArm9Commands := pending
          staticBuffers := { m.staticBuffers with free := (releaseStaticBuffers
            m.staticBuffers.free (m.sessionData i).usedStaticBuffers 4).2 }
          }.setSession i { m.sessionData i with
            usedStaticBuffers := (releaseStaticBuffers m.staticBuffers.free
              (m.sessionData i).usedStaticBuffers 4).1
            state := .idle } ∧
        cmdbuf' = memcpy cmdbuf (m.sessionData i).buffer (nbWords ((m.sessionData i).buffer 0)) := by
  unfold replyReceived at h
  simp only at h
  split_ifs at h with hstate hsize
  · cases hgate : m.gateReply <;> rw [hgate] at h <;> cases h
  · cases hgate : m.gateReply with
    | none =>
      rw [hgate] at h
      cases h
    | some gate =>
      simp only [hgate] at h
      cases h
      exact ⟨not_not.mp hstate, not_lt.mp hsize, gate.1, gate.2, rfl, rfl, rfl⟩

theorem replyReceived_isSome (hstate : (m.sessionData i).state = .receivedFromArm9)
    (hsize : nbWords ((m.sessionData i).buffer 0) ≤ 0x40) (hgate : m.gateReply ≠ none) :
    (m.replyReceived i cmdbuf).isSome = true := by
  obtain ⟨gate, hsome⟩ := Option.ne_none_iff_exists'.mp hgate
  unfold replyReceived
  simp only [hstate, hsome, ne_eq, not_true_eq_false, if_false, if_neg (not_lt.mpr hsize)]
  rfl

/-- What a command changes but for the static buffers. -/
structure CommandEffect (m : SessionManager) (i : Service) (cmdbuf : Cmdbuf)
    (m' : SessionManager) : Prop where
  idle : m.state i = .idle
  fits : nbWords (cmdbuf 0) ≤ 0x40
  gate : gateAfter m.sendingDisabled (pxiMc5Val i cmdbuf) = some m'.sendingDisabled
  latest : m'.latestPxiMc5Val = pxiMc5Val i cmdbuf
  pending : m'.pendingArm9Commands = m.pendingArm9Commands
  states : ∀ j, m'.state j = if j = i then .receivedFromArm11 else m.state j
  buffers : ∀ j, (m'.sessionData j).buffer =
    if j = i then memcpy (m.sessionData i).buffer cmdbuf (nbWords (cmdbuf 0))
    else (m.sessionData j).buffer
  handles : ∀ j, (m'.sessionData j).handle = (m.sessionData j).handle

theorem commandReceived_effect (h : m.commandReceived i cmdbuf = some m') :
    CommandEffect m i cmdbuf m' := by
  obtain ⟨hidle, hfits, disabled, hgate, rfl⟩ := commandReceived_cases h
  refine ⟨hidle, hfits, hgate, rfl, rfl, state_setSession _ i _, buffer_setSession _ i _, ?_⟩
  intro j
  refine (handle_setSession _ i _ j).trans ?_
  split_ifs with hj
  · rw [hj]
  · rfl

/-- What a reply changes but for the static buffers. -/
structure ReplyEffect (m : SessionManager) (i : Service) (cmdbuf : Cmdbuf) (m' : SessionManager)
    (cmdbuf' : Cmdbuf) : Prop where
  received : m.state i = .receivedFromArm9
  gate : m.gateReply = some (m'.sendingDisabled, m'.pendingArm9Commands)
  latest : m'.latestPxiMc5Val = m.latestPxiMc5Val
  states : ∀ j, m'.state j = if j = i then .idle else m.state j
  buffers : ∀ j, (m'.sessionData j).buffer = (m.sessionData j).buffer
  handles : ∀ j, (m'.sessionData j).handle = (m.sessionData j).handle
  cmdbuf : cmdbuf' = memcpy cmdbuf (m.sessionData i).buffer (nbWords ((m.sessionData i).buffer 0))

theorem replyReceived_effect (h : m.replyReceived i cmdbuf = some (m', cmdbuf')) :
    ReplyEffect m i cmdbuf m' cmdbuf' := by
  obtain ⟨hstate, -, disabled, pending, hgate, rfl, hcmdbuf⟩ := replyReceived_cases h
  refine ⟨hstate, hgate, rfl, state_setSession _ i _, ?_, ?_, hcmdbuf⟩
  · intro j
    refine (buffer_setSession _ i _ j).trans ?_
    split_ifs with hj
    · rw [hj]
    · rfl
  · intro j
    refine (handle_setSession _ i _ j).trans ?_
    split_ifs with hj
    · rw [hj]
    · rfl

end Cases

end SessionManager

end Presence3DS.Pxi
