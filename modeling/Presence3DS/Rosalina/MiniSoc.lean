import Presence3DS.Lib.Runs
import Presence3DS.Kernel.State

/-! Rosalina's reference-counted socket service (`minisoc.c`). Every answer of the kernel
and of the services is an input of the call that asks for it. -/

namespace Presence3DS.Rosalina
open Kernel Runs

/-- The non-zero result of a call that failed. -/
abbrev Failure := { r : Result // r ≠ 0 }

/-- A handle the kernel has given out. -/
abbrev OpenHandle := { h : Handle // h ≠ 0 }

structure SocState where
  kernel : KernelState
  miniSocRefCount : Int
  socContextAddr : BitVec 32
  miniSocHandle : Handle
  miniSocMemHandle : Handle
  exclusiveStateEntered : Bool
  miniSocEnabled : Bool
deriving DecidableEq

def SocState.boot (autobootTwlTitleId : BitVec 64) : SocState :=
  ⟨.boot autobootTwlTitleId, 0, 0x08000000, 0, 0, false, false⟩

structure LockAnswers where
  isServiceUsable : Bool
  enterExclusiveState : Result
  lockState : Result

structure UnlockAnswers where
  unlockState : Result
  leaveExclusiveState : Result

structure InitAnswers where
  srvIsServiceRegistered : Except Failure Bool
  srvGetServiceHandle : Except Failure OpenHandle
  svcControlMemoryEx : Except Failure { addr : BitVec 32 // addr ≠ 0 }
  svcCreateMemoryBlock : Except Failure OpenHandle
  socuInitialize : Result
  lock : LockAnswers

structure ExitAnswers where
  socuShutdown : Result
  unlock : UnlockAnswers

def miniSocLockState (e : LockAnswers) (s : SocState) : SocState :=
  if !s.exclusiveStateEntered && e.isServiceUsable then
    let res := e.enterExclusiveState
    let res := if rFailed res then res else e.lockState
    { s with exclusiveStateEntered := !rFailed res }
  else s

def miniSocUnlockState (force : Bool) (e : UnlockAnswers) (s : SocState) : SocState :=
  if s.exclusiveStateEntered then
    let res := if force then 0
      else if rFailed e.unlockState then e.unlockState else e.leaveExclusiveState
    { s with exclusiveStateEntered := rFailed res }
  else s

/-- The steps of `miniSocInit` that may fail, up to the first that does. -/
def miniSocAcquire (e : InitAnswers) (s : SocState) : Result × SocState :=
  match e.srvIsServiceRegistered with
  | .error ret => (ret, s)
  | .ok false => (-1, s)
  | .ok true =>
    match e.srvGetServiceHandle with
    | .error ret => (ret, s)
    | .ok handle =>
      match e.svcControlMemoryEx with
      | .error ret => (ret, { s with miniSocHandle := handle })
      | .ok tmp =>
        match e.svcCreateMemoryBlock with
        | .error ret => (ret, { s with miniSocHandle := handle, socContextAddr := tmp })
        | .ok mem => (e.socuInitialize,
            { s with miniSocHandle := handle, socContextAddr := tmp, miniSocMemHandle := mem })

/-- The label `cleanup`; the result of the shutdown is ignored there. -/
def miniSocCleanup (s : SocState) : SocState :=
  let s := { s with miniSocRefCount := s32 (s.miniSocRefCount - 1) }
  let s := if s.miniSocMemHandle ≠ 0 then { s with miniSocMemHandle := 0 } else s
  if s.miniSocHandle ≠ 0 then { s with miniSocHandle := 0 } else s

def miniSocInit (e : InitAnswers) (s : SocState) : Result × SocState :=
  let s' := { s with miniSocRefCount := s32 (s.miniSocRefCount + 1) }
  if s.miniSocRefCount ≠ 0 then (0, s')
  else
    let (ret, s') := miniSocAcquire e s'
    if ret ≠ 0 then (ret, miniSocCleanup s')
    else
      let s' := miniSocLockState e.lock s'
      (0, { s' with kernel := s'.kernel.toggleNetworkBit, miniSocEnabled := true })

def miniSocExitDirect (e : ExitAnswers) (s : SocState) : Result × SocState :=
  let s := { s with miniSocMemHandle := 0, miniSocHandle := 0 }
  if e.socuShutdown = 0 then
    let s := miniSocUnlockState false e.unlock s
    (e.socuShutdown, { s with miniSocEnabled := false, kernel := s.kernel.toggleNetworkBit })
  else (e.socuShutdown, s)

def miniSocExit (e : ExitAnswers) (s : SocState) : Result × SocState :=
  if !s.miniSocEnabled then (0, s)
  else
    let s := { s with miniSocRefCount := s32 (s.miniSocRefCount - 1) }
    if s.miniSocRefCount ≠ 0 then (0, s) else miniSocExitDirect e s

/-! ## What each call does -/

def InitAnswers.AllSucceed (e : InitAnswers) : Prop :=
  e.srvIsServiceRegistered = .ok true ∧ e.srvGetServiceHandle.isOk ∧ e.svcControlMemoryEx.isOk ∧
    e.svcCreateMemoryBlock.isOk ∧ e.socuInitialize = 0

/-- The same state but for the handles and the address the service is opened with. -/
def SocState.withSession (s : SocState) (handle mem : Handle) (addr : BitVec 32) : SocState :=
  { s with miniSocHandle := handle, miniSocMemHandle := mem, socContextAddr := addr }

theorem lockState_eq (e : LockAnswers) (s : SocState) :
    ∃ b, miniSocLockState e s = { s with exclusiveStateEntered := b } := by
  unfold miniSocLockState
  split_ifs
  · exact ⟨_, rfl⟩
  · exact ⟨s.exclusiveStateEntered, rfl⟩

theorem unlockState_eq (force : Bool) (e : UnlockAnswers) (s : SocState) :
    ∃ b, miniSocUnlockState force e s = { s with exclusiveStateEntered := b } := by
  unfold miniSocUnlockState
  by_cases h : s.exclusiveStateEntered = true
  · rw [if_pos h]
    exact ⟨_, rfl⟩
  · rw [if_neg h]
    exact ⟨s.exclusiveStateEntered, rfl⟩

theorem acquire_succeeds {e : InitAnswers} (he : e.AllSucceed) (s : SocState) :
    ∃ (handle mem : OpenHandle) (addr : BitVec 32),
      miniSocAcquire e s = (0, s.withSession handle mem addr) := by
  obtain ⟨hreg, hget, hmem, hblock, hinit⟩ := he
  unfold miniSocAcquire
  rw [hreg]
  cases hg : e.srvGetServiceHandle with
  | error r => rw [hg] at hget; cases hget
  | ok handle =>
    cases hm : e.svcControlMemoryEx with
    | error r => rw [hm] at hmem; cases hmem
    | ok addr =>
      cases hb : e.svcCreateMemoryBlock with
      | error r => rw [hb] at hblock; cases hblock
      | ok mem => exact ⟨handle, mem, addr, by simp only [hinit]; rfl⟩

theorem acquire_fails {e : InitAnswers} (he : ¬e.AllSucceed) (s : SocState) :
    ∃ (ret : Result) (handle mem : Handle) (addr : BitVec 32), ret ≠ 0 ∧
      miniSocAcquire e s = (ret, s.withSession handle mem addr) := by
  unfold miniSocAcquire
  cases hr : e.srvIsServiceRegistered with
  | error ret => exact ⟨ret, _, _, _, ret.2, rfl⟩
  | ok registered =>
    cases registered with
    | false => exact ⟨-1, _, _, _, by decide, rfl⟩
    | true =>
      cases hg : e.srvGetServiceHandle with
      | error ret => exact ⟨ret, _, _, _, ret.2, rfl⟩
      | ok handle =>
        cases hm : e.svcControlMemoryEx with
        | error ret => exact ⟨ret, _, _, _, ret.2, rfl⟩
        | ok addr =>
          cases hb : e.svcCreateMemoryBlock with
          | error ret => exact ⟨ret, _, _, _, ret.2, rfl⟩
          | ok mem =>
            refine ⟨e.socuInitialize, _, _, _, fun hinit => he ?_, rfl⟩
            exact ⟨hr, by rw [hg]; rfl, by rw [hm]; rfl, by rw [hb]; rfl, hinit⟩

theorem cleanup_eq (s : SocState) : miniSocCleanup s =
    { s with miniSocRefCount := s32 (s.miniSocRefCount - 1), miniSocHandle := 0, miniSocMemHandle := 0 } := by
  unfold miniSocCleanup
  by_cases hm : s.miniSocMemHandle = 0 <;> by_cases hh : s.miniSocHandle = 0 <;>
    simp only [hm, hh, ne_eq, not_true_eq_false, not_false_eq_true, if_true, if_false]

theorem init_nested {s : SocState} (h : s.miniSocRefCount ≠ 0) (e : InitAnswers) :
    miniSocInit e s = (0, { s with miniSocRefCount := s32 (s.miniSocRefCount + 1) }) := if_pos h

theorem init_opens {s : SocState} (h : s.miniSocRefCount = 0) {e : InitAnswers} (he : e.AllSucceed) :
    ∃ (handle mem : OpenHandle) (addr : BitVec 32) (entered : Bool), miniSocInit e s = (0,
      { s.withSession handle mem addr with
        miniSocRefCount := 1
        kernel := s.kernel.toggleNetworkBit
        exclusiveStateEntered := entered
        miniSocEnabled := true }) := by
  obtain ⟨handle, mem, addr, ha⟩ := acquire_succeeds he { s with miniSocRefCount := s32 (0 + 1) }
  obtain ⟨b, hb⟩ := lockState_eq e.lock
    (SocState.withSession { s with miniSocRefCount := s32 (0 + 1) } handle mem addr)
  refine ⟨handle, mem, addr, b, ?_⟩
  unfold miniSocInit
  rw [h]
  simp only [ne_eq, not_true_eq_false, if_false, ha, hb]
  rfl

theorem init_fails {s : SocState} (h : s.miniSocRefCount = 0) {e : InitAnswers} (he : ¬e.AllSucceed) :
    ∃ (ret : Result) (addr : BitVec 32), ret ≠ 0 ∧ miniSocInit e s = (ret, s.withSession 0 0 addr) := by
  obtain ⟨ret, handle, mem, addr, hret, ha⟩ := acquire_fails he { s with miniSocRefCount := s32 (0 + 1) }
  refine ⟨ret, addr, hret, ?_⟩
  unfold miniSocInit
  rw [h]
  have hcount : s32 (s32 (0 + 1) - 1) = 0 := by decide
  simp only [ne_eq, not_true_eq_false, if_false, ha, hret, not_false_eq_true, if_true, cleanup_eq,
    SocState.withSession, hcount, h]

theorem exit_disabled {s : SocState} (h : s.miniSocEnabled = false) (e : ExitAnswers) :
    miniSocExit e s = (0, s) := by
  rw [miniSocExit, h]
  rfl

theorem exit_nested {s : SocState} (h : s.miniSocEnabled = true)
    (hr : s32 (s.miniSocRefCount - 1) ≠ 0) (e : ExitAnswers) :
    miniSocExit e s = (0, { s with miniSocRefCount := s32 (s.miniSocRefCount - 1) }) := by
  rw [miniSocExit, h]
  exact if_pos hr

theorem exit_closes {s : SocState} (h : s.miniSocEnabled = true)
    (hr : s32 (s.miniSocRefCount - 1) = 0) {e : ExitAnswers} (he : e.socuShutdown = 0) :
    ∃ entered : Bool, miniSocExit e s = (0, { s with
      miniSocRefCount := 0
      miniSocHandle := 0
      miniSocMemHandle := 0
      exclusiveStateEntered := entered
      miniSocEnabled := false
      kernel := s.kernel.toggleNetworkBit }) := by
  obtain ⟨b, hb⟩ := unlockState_eq false e.unlock
    { s with miniSocRefCount := 0, miniSocHandle := 0, miniSocMemHandle := 0 }
  refine ⟨b, ?_⟩
  unfold miniSocExit
  simp only [h, Bool.not_true, Bool.false_eq_true, if_false, hr, ne_eq, not_true_eq_false,
    miniSocExitDirect, he, if_true]
  rw [← h, hb]

theorem exit_shutdown_fails {s : SocState} (h : s.miniSocEnabled = true)
    (hr : s32 (s.miniSocRefCount - 1) = 0) {e : ExitAnswers} (he : e.socuShutdown ≠ 0) :
    miniSocExit e s = (e.socuShutdown,
      { s with miniSocRefCount := 0, miniSocHandle := 0, miniSocMemHandle := 0 }) := by
  rw [miniSocExit, h]
  simp only [Bool.not_true, Bool.false_eq_true, if_false, hr, ne_eq, not_true_eq_false,
    miniSocExitDirect, he]

@[simp] theorem kernel_lockState (e : LockAnswers) (s : SocState) :
    (miniSocLockState e s).kernel = s.kernel := by
  obtain ⟨entered, heq⟩ := lockState_eq e s
  rw [heq]

@[simp] theorem kernel_unlockState (force : Bool) (e : UnlockAnswers) (s : SocState) :
    (miniSocUnlockState force e s).kernel = s.kernel := by
  obtain ⟨entered, heq⟩ := unlockState_eq force e s
  rw [heq]

theorem init_kernel (e : InitAnswers) (s : SocState) :
    (miniSocInit e s).2.kernel = s.kernel ∨
      (miniSocInit e s).2.kernel = s.kernel.toggleNetworkBit := by
  by_cases h : s.miniSocRefCount = 0
  · by_cases he : e.AllSucceed
    · obtain ⟨handle, mem, addr, entered, heq⟩ := init_opens h he
      exact .inr (by rw [heq])
    · obtain ⟨ret, addr, -, heq⟩ := init_fails h he
      exact .inl (by rw [heq]; rfl)
  · exact .inl (by rw [init_nested h])

theorem exit_kernel (e : ExitAnswers) (s : SocState) :
    (miniSocExit e s).2.kernel = s.kernel ∨
      (miniSocExit e s).2.kernel = s.kernel.toggleNetworkBit := by
  cases hon : s.miniSocEnabled with
  | false => exact .inl (by rw [exit_disabled hon])
  | true =>
    by_cases hr : s32 (s.miniSocRefCount - 1) = 0
    · by_cases he : e.socuShutdown = 0
      · obtain ⟨entered, heq⟩ := exit_closes hon hr he
        exact .inr (by rw [heq])
      · exact .inl (by rw [exit_shutdown_fails hon hr he])
    · exact .inl (by rw [exit_nested hon hr])

/-! ## The count, the flag and the handles over a sequence of calls -/

theorem s32_of_range {x : Int} (hlo : -2 ^ 31 ≤ x) (hhi : x < 2 ^ 31) : s32 x = x := by
  have hmod : (x + 2 ^ 31) % 2 ^ 32 = x + 2 ^ 31 := Int.emod_eq_of_lt (by omega) (by omega)
  rw [s32, hmod]
  exact Int.add_sub_cancel x (2 ^ 31)

structure SocState.Consistent (s : SocState) : Prop where
  counted : 0 < s.miniSocRefCount ↔ s.miniSocEnabled = true
  session : s.miniSocEnabled = true ↔ s.miniSocHandle ≠ 0
  memory : s.miniSocEnabled = true ↔ s.miniSocMemHandle ≠ 0

structure SocState.Inv (s : SocState) : Prop extends s.Consistent where
  nonneg : 0 ≤ s.miniSocRefCount
  bounded : s.miniSocRefCount < 2 ^ 31

inductive SocCall where
  | init (e : InitAnswers)
  | exit (e : ExitAnswers)

def socStep (s : SocState) : SocCall → Option SocState
  | .init e => some (miniSocInit e s).2
  | .exit e => some (miniSocExit e s).2

theorem socStep_ndmuYieldState {s t : SocState} {c : SocCall} (h : socStep s c = some t) :
    t.kernel.ndmuYieldState = s.kernel.ndmuYieldState := by
  cases c with
  | init e =>
    cases h
    rcases init_kernel e s with hk | hk <;> rw [hk]
    rfl
  | exit e =>
    cases h
    rcases exit_kernel e s with hk | hk <;> rw [hk]
    rfl

/-- The state is consistent after the call, and a failing `miniSocInit` has changed nothing. -/
def Lawful (s : SocState) (c : SocCall) (t : SocState) : Prop :=
  t.Consistent ∧
  match c with
  | .init e => (miniSocInit e s).1 ≠ 0 →
      t.miniSocRefCount = s.miniSocRefCount ∧ t.miniSocEnabled = s.miniSocEnabled ∧
      t.miniSocHandle = s.miniSocHandle ∧ t.miniSocMemHandle = s.miniSocMemHandle ∧
      t.kernel = s.kernel
  | .exit _ => True

/-- The count has room for an init; the exit of the last user shuts the service down. -/
def InScope (s : SocState) : SocCall → Prop
  | .init _ => s.miniSocRefCount ≠ 2 ^ 31 - 1
  | .exit e => s.miniSocEnabled = true → s.miniSocRefCount = 1 → e.socuShutdown = 0

namespace SocState.Inv
variable {s : SocState}

theorem disabled (hs : s.Inv) (h : s.miniSocRefCount = 0) : s.miniSocEnabled = false := by
  have hpos : ¬0 < s.miniSocRefCount := h ▸ lt_irrefl _
  exact Bool.eq_false_iff.mpr fun he => hpos (hs.counted.mpr he)

theorem enabled (hs : s.Inv) (h : s.miniSocRefCount ≠ 0) : s.miniSocEnabled = true :=
  hs.counted.mp (lt_of_le_of_ne hs.nonneg h.symm)

theorem closed (hs : s.Inv) (h : s.miniSocEnabled = false) :
    s.miniSocHandle = 0 ∧ s.miniSocMemHandle = 0 := by
  have hoff : ¬s.miniSocEnabled = true := h ▸ Bool.false_ne_true
  exact ⟨not_not.mp fun hh => hoff (hs.session.mpr hh), not_not.mp fun hm => hoff (hs.memory.mpr hm)⟩

theorem s32_pred (hs : s.Inv) : s32 (s.miniSocRefCount - 1) = s.miniSocRefCount - 1 := by
  have hlo := hs.nonneg
  have hhi := hs.bounded
  exact s32_of_range (by omega) (by omega)

theorem s32_succ (hs : s.Inv) (h : s.miniSocRefCount ≠ 2 ^ 31 - 1) :
    s32 (s.miniSocRefCount + 1) = s.miniSocRefCount + 1 := by
  have hlo := hs.nonneg
  have hhi := hs.bounded
  exact s32_of_range (by omega) (by omega)

theorem recount (hs : s.Inv) (he : s.miniSocEnabled = true) {n : Int} (hpos : 0 < n)
    (hn : n < 2 ^ 31) : ({ s with miniSocRefCount := n } : SocState).Inv where
  counted := ⟨fun _ => he, fun _ => hpos⟩
  session := hs.session
  memory := hs.memory
  nonneg := hpos.le
  bounded := hn

end SocState.Inv

theorem inv_of_open {s : SocState} (hcount : s.miniSocRefCount = 1) (hon : s.miniSocEnabled = true)
    (handle mem : OpenHandle) (hh : s.miniSocHandle = handle) (hm : s.miniSocMemHandle = mem) :
    s.Inv where
  counted := ⟨fun _ => hon, fun _ => hcount ▸ Int.one_pos⟩
  session := ⟨fun _ => hh ▸ handle.2, fun _ => hon⟩
  memory := ⟨fun _ => hm ▸ mem.2, fun _ => hon⟩
  nonneg := hcount ▸ Int.one_nonneg
  bounded := by rw [hcount]; decide

theorem inv_of_closed {s : SocState} (hcount : s.miniSocRefCount = 0)
    (hoff : s.miniSocEnabled = false) (hh : s.miniSocHandle = 0) (hm : s.miniSocMemHandle = 0) :
    s.Inv where
  counted := by rw [hcount, hoff]; decide
  session := by rw [hh, hoff]; decide
  memory := by rw [hm, hoff]; decide
  nonneg := hcount ▸ le_rfl
  bounded := by rw [hcount]; decide

theorem boot_inv (q : BitVec 64) : (SocState.boot q).Inv := inv_of_closed rfl rfl rfl rfl

theorem init_inv {s : SocState} (hs : s.Inv) (hmax : s.miniSocRefCount ≠ 2 ^ 31 - 1)
    (e : InitAnswers) : (miniSocInit e s).2.Inv := by
  by_cases h : s.miniSocRefCount = 0
  · by_cases he : e.AllSucceed
    · obtain ⟨handle, mem, addr, entered, heq⟩ := init_opens h he
      rw [heq]
      exact inv_of_open rfl rfl handle mem rfl rfl
    · obtain ⟨ret, addr, -, heq⟩ := init_fails h he
      rw [heq]
      exact inv_of_closed h (hs.disabled h) rfl rfl
  · have hhi := hs.bounded
    have hpos := hs.counted.mpr (hs.enabled h)
    rw [init_nested h, hs.s32_succ hmax]
    exact hs.recount (hs.enabled h) (by omega) (by omega)

theorem init_failing {s : SocState} (hs : s.Inv) {e : InitAnswers} (hret : (miniSocInit e s).1 ≠ 0) :
    ∃ addr, (miniSocInit e s).2 = { s with socContextAddr := addr } := by
  by_cases h : s.miniSocRefCount = 0
  · by_cases he : e.AllSucceed
    · obtain ⟨handle, mem, addr, entered, heq⟩ := init_opens h he
      rw [heq] at hret
      exact absurd rfl hret
    · obtain ⟨ret, addr, -, heq⟩ := init_fails h he
      obtain ⟨hh, hm⟩ := hs.closed (hs.disabled h)
      refine ⟨addr, ?_⟩
      rw [heq]
      calc s.withSession 0 0 addr
          = s.withSession s.miniSocHandle s.miniSocMemHandle addr := by rw [hh, hm]
        _ = { s with socContextAddr := addr } := rfl
  · rw [init_nested h] at hret
    exact absurd rfl hret

theorem exit_inv {s : SocState} (hs : s.Inv) {e : ExitAnswers}
    (hshut : s.miniSocEnabled = true → s.miniSocRefCount = 1 → e.socuShutdown = 0) :
    (miniSocExit e s).2.Inv := by
  by_cases hon : s.miniSocEnabled = true
  · have hpos := hs.counted.mpr hon
    have hhi := hs.bounded
    by_cases hone : s.miniSocRefCount = 1
    · have hlast : s32 (s.miniSocRefCount - 1) = 0 := by rw [hone]; decide
      obtain ⟨entered, heq⟩ := exit_closes hon hlast (hshut hon hone)
      rw [heq]
      exact inv_of_closed rfl rfl rfl rfl
    · have hmore : s32 (s.miniSocRefCount - 1) ≠ 0 := by rw [hs.s32_pred]; omega
      rw [exit_nested hon hmore, hs.s32_pred]
      exact hs.recount hon (by omega) (by omega)
  · rw [exit_disabled (Bool.eq_false_iff.mpr hon)]
    exact hs

theorem init_overflows {s : SocState} (hs : s.Inv) (hmax : s.miniSocRefCount = 2 ^ 31 - 1)
    (e : InitAnswers) : ¬(miniSocInit e s).2.Consistent := by
  intro hc
  have hne : s.miniSocRefCount ≠ 0 := by rw [hmax]; decide
  have hwrap : ¬0 < s32 (s.miniSocRefCount + 1) := by rw [hmax]; decide
  rw [init_nested hne] at hc
  exact hwrap (hc.counted.mpr (hs.enabled hne))

theorem exit_shutdown_inconsistent {s : SocState} (hon : s.miniSocEnabled = true)
    (hone : s.miniSocRefCount = 1) {e : ExitAnswers} (hshut : e.socuShutdown ≠ 0) :
    ¬(miniSocExit e s).2.Consistent := by
  intro hc
  have hlast : s32 (s.miniSocRefCount - 1) = 0 := by rw [hone]; decide
  rw [exit_shutdown_fails hon hlast hshut] at hc
  exact absurd (hc.counted.mpr hon) (lt_irrefl _)

theorem inScope_inv {s t : SocState} (hs : s.Inv) {c : SocCall} (hc : InScope s c)
    (h : socStep s c = some t) : t.Inv := by
  cases c with
  | init e => cases h; exact init_inv hs hc e
  | exit e => cases h; exact exit_inv hs hc

theorem lawful_iff {s t : SocState} (hs : s.Inv) (c : SocCall) (h : socStep s c = some t) :
    Lawful s c t ↔ InScope s c := by
  constructor
  · rintro ⟨ht, -⟩
    cases c with
    | init e =>
      cases h
      exact fun hmax => init_overflows hs hmax e ht
    | exit e =>
      cases h
      intro hon hone
      by_contra hshut
      exact exit_shutdown_inconsistent hon hone hshut ht
  · intro hc
    refine ⟨(inScope_inv hs hc h).toConsistent, ?_⟩
    cases c with
    | init e =>
      cases h
      intro hret
      obtain ⟨addr, heq⟩ := init_failing hs hret
      rw [heq]
      exact ⟨rfl, rfl, rfl, rfl, rfl⟩
    | exit e => trivial

/-- A sequence of calls since boot is lawful throughout exactly when each is in scope. -/
theorem soc_calls_lawful_iff (q : BitVec 64) (cs : List SocCall) :
    AllSteps socStep Lawful (SocState.boot q) cs ↔ Guarded socStep InScope (SocState.boot q) cs :=
  allSteps_iff_guarded (fun _ c _ hs h => lawful_iff hs c h)
    (fun _ c _ hs h hl => inScope_inv hs ((lawful_iff hs c h).mp hl) h) (boot_inv q) cs

def initSucceeds : InitAnswers where
  srvIsServiceRegistered := .ok true
  srvGetServiceHandle := .ok ⟨1, by decide⟩
  svcControlMemoryEx := .ok ⟨0x08000000, by decide⟩
  svcCreateMemoryBlock := .ok ⟨2, by decide⟩
  socuInitialize := 0
  lock := ⟨true, 0, 0⟩

def exitShutdownFails : ExitAnswers where
  socuShutdown := -1
  unlock := ⟨0, 0⟩

theorem failed_shutdown_leaves_enabled :
    ¬∀ q cs, AllSteps socStep Lawful (SocState.boot q) cs := by
  intro h
  have hexit := ((h 0 [.init initSucceeds, .exit exitShutdownFails] _ rfl).2 _ rfl).1.1
  exact absurd (hexit.counted.mpr rfl) (by decide)

end Presence3DS.Rosalina
