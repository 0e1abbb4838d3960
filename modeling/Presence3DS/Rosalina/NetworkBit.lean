import Presence3DS.Rosalina.Yield

/-! Which operations keep the kernel's network bit in step with `miniSocEnabled`. -/

namespace Presence3DS.Rosalina
open Kernel Runs

/-- What the operations read and write of the network bit; `query` is what the module is
told when it asks for the bit. -/
structure BitView where
  bit : Bool
  enabled : Bool
  lent : Bool
  cleared : Bool
  query : Bool
deriving DecidableEq

def SocState.bitView (s : SocState) (lent cleared : Bool) : BitView :=
  ⟨s.kernel.networkBit, s.miniSocEnabled, lent, cleared, kernelBitIsSet s.kernel⟩

def YieldState.bitView (s : YieldState) : BitView :=
  s.toSocState.bitView s.yieldActive s.bitCleared

namespace BitView

def opened (v : BitView) : BitView := { v with bit := !v.bit, enabled := true }

def closed (v : BitView) : BitView := { v with bit := !v.bit, enabled := false }

def released (v : BitView) : BitView :=
  if !v.cleared && v.query then { v with bit := !v.bit, lent := true, cleared := true }
  else { v with lent := true }

def restored (full : Bool) (v : BitView) : BitView :=
  { v with
    bit := v.bit ^^ (v.cleared && full && v.enabled && !v.query)
    lent := false
    cleared := false }

/-- Clear while the radio is lent, and otherwise set exactly when the service is open. -/
def Law (v : BitView) : Prop :=
  (v.lent = false → (v.bit = true ↔ v.enabled = true)) ∧ (v.lent = true → v.bit = false)

structure Inv (v : BitView) : Prop where
  law : v.Law
  cleared : v.cleared = true → v.lent = true ∧ v.query = true

theorem law_iff (v : BitView) : v.Law ↔ v.bit = (v.enabled && !v.lent) := by
  obtain ⟨bit, enabled, lent, cleared, query⟩ := v
  cases bit <;> cases enabled <;> cases lent <;> simp [Law]

variable {v : BitView}

theorem law_opened_iff (hv : v.Inv) : v.opened.Law ↔ v.lent = false ∧ v.enabled = false := by
  have hbit := (law_iff v).mp hv.law
  simp only [law_iff, opened, hbit]
  cases v.lent <;> cases v.enabled <;> decide

theorem law_closed_iff (hv : v.Inv) (hon : v.enabled = true) : v.closed.Law ↔ v.lent = false := by
  have hbit := (law_iff v).mp hv.law
  simp only [law_iff, closed, hbit, hon]
  cases v.lent <;> decide

theorem law_released_iff (hv : v.Inv) (hlent : v.lent = false) :
    v.released.Law ↔ v.query = v.enabled := by
  have hbit := (law_iff v).mp hv.law
  have hcleared : v.cleared = false :=
    Bool.eq_false_iff.mpr fun hc => Bool.false_ne_true (hlent ▸ (hv.cleared hc).1)
  simp only [law_iff, released, hcleared, hbit, hlent]
  cases v.query <;> cases v.enabled <;> decide

theorem law_restored_iff (hv : v.Inv) (hlent : v.lent = true) (full : Bool) :
    (v.restored full).Law ↔ v.enabled = false := by
  have hbit := (law_iff v).mp hv.law
  have hquery := fun hc => (hv.cleared hc).2
  simp only [law_iff, restored, hbit, hlent]
  cases hc : v.cleared with
  | false => cases v.enabled <;> cases full <;> cases v.query <;> decide
  | true =>
    rw [hquery hc]
    cases v.enabled <;> cases full <;> decide

theorem inv_restored {full : Bool} (h : (v.restored full).Law) : (v.restored full).Inv where
  law := h
  cleared hc := absurd hc Bool.false_ne_true

theorem inv_released (hv : v.Inv) (h : v.released.Law) : v.released.Inv where
  law := h
  cleared := by
    unfold released
    split_ifs with hq
    · exact fun _ => ⟨rfl, (Bool.and_eq_true_iff.mp hq).2⟩
    · exact fun hc => ⟨rfl, (hv.cleared hc).2⟩

end BitView

/-! ## The view after each operation -/

theorem kernelBitIsSet_eq (k : KernelState) : kernelBitIsSet k = k.autobootTwlTitleId.getLsbD 4 :=
  KernelState.and_twoPow_ne_zero k.autobootTwlTitleId (by decide : 4 < 64)

@[simp] theorem kernelBitIsSet_toggle (k : KernelState) :
    kernelBitIsSet k.toggleNetworkBit = kernelBitIsSet k := by
  rw [kernelBitIsSet_eq, kernelBitIsSet_eq]
  rfl

/-- The init opens the service. -/
def Opens (e : InitAnswers) (s : SocState) : Prop := s.miniSocRefCount = 0 ∧ e.AllSucceed

/-- The exit is the last user's and its shutdown succeeds. -/
def Closes (e : ExitAnswers) (s : SocState) : Prop :=
  s.miniSocEnabled = true ∧ s32 (s.miniSocRefCount - 1) = 0 ∧ e.socuShutdown = 0

section Views
variable (s : SocState) (lent cleared : Bool)

theorem bitView_init_opens {e : InitAnswers} (h : Opens e s) :
    (miniSocInit e s).2.bitView lent cleared = (s.bitView lent cleared).opened := by
  obtain ⟨handle, mem, addr, entered, heq⟩ := init_opens h.1 h.2
  rw [heq]
  simp only [SocState.bitView, BitView.opened, KernelState.networkBit_toggle, kernelBitIsSet_toggle]

theorem bitView_init_other {e : InitAnswers} (h : ¬Opens e s) :
    (miniSocInit e s).2.bitView lent cleared = s.bitView lent cleared := by
  by_cases hr : s.miniSocRefCount = 0
  · obtain ⟨ret, addr, -, heq⟩ := init_fails hr fun he => h ⟨hr, he⟩
    rw [heq]
    rfl
  · rw [init_nested hr]
    rfl

theorem bitView_exit_closes {e : ExitAnswers} (h : Closes e s) :
    (miniSocExit e s).2.bitView lent cleared = (s.bitView lent cleared).closed := by
  obtain ⟨hon, hr, he⟩ := h
  obtain ⟨entered, heq⟩ := exit_closes hon hr he
  rw [heq]
  simp only [SocState.bitView, BitView.closed, KernelState.networkBit_toggle, kernelBitIsSet_toggle]

theorem bitView_exit_other {e : ExitAnswers} (h : ¬Closes e s) :
    (miniSocExit e s).2.bitView lent cleared = s.bitView lent cleared := by
  cases hon : s.miniSocEnabled with
  | false => rw [exit_disabled hon]
  | true =>
    by_cases hr : s32 (s.miniSocRefCount - 1) = 0
    · rw [exit_shutdown_fails hon hr fun he => h ⟨hon, hr, he⟩]
      rfl
    · rw [exit_nested hon hr]
      rfl

theorem bitView_lock (e : LockAnswers) :
    (miniSocLockState e s).bitView lent cleared = s.bitView lent cleared := by
  obtain ⟨entered, heq⟩ := lockState_eq e s
  rw [heq]
  rfl

theorem bitView_unlock (e : UnlockAnswers) :
    (miniSocUnlockState false e s).bitView lent cleared = s.bitView lent cleared := by
  obtain ⟨entered, heq⟩ := unlockState_eq false e s
  rw [heq]
  rfl

theorem query_exit (e : ExitAnswers) :
    kernelBitIsSet (miniSocExit e s).2.kernel = kernelBitIsSet s.kernel := by
  by_cases h : Closes e s
  · exact congrArg BitView.query (bitView_exit_closes s false false h)
  · exact congrArg BitView.query (bitView_exit_other s false false h)

end Views

section YieldViews
variable (s : YieldState)

theorem bitView_releaseBit (hlent : s.yieldActive = true) :
    s.releaseBit.bitView = s.bitView.released := by
  unfold YieldState.releaseBit BitView.released
  by_cases h : (!s.bitCleared && kernelBitIsSet s.kernel) = true
  · have hview : (!s.bitView.cleared && s.bitView.query) = true := h
    rw [if_pos h, if_pos hview]
    simp only [YieldState.bitView, SocState.bitView, YieldState.toggleBit, KernelState.networkBit_toggle,
      kernelBitIsSet_toggle, hlent]
  · have hview : ¬(!s.bitView.cleared && s.bitView.query) = true := h
    rw [if_neg h, if_neg hview]
    simp only [YieldState.bitView, SocState.bitView, hlent]

theorem bitView_doRelease (e : UnlockAnswers) (wasActive : Bool) (tick : BitVec 64) :
    (doRelease e (s.startYield wasActive tick)).bitView = s.bitView.released := by
  have hunlock : ((s.startYield wasActive tick).unlockSoc e).bitView =
      { s.bitView with lent := true } := bitView_unlock s.toSocState true s.bitCleared e
  calc (doRelease e (s.startYield wasActive tick)).bitView
      = ((s.startYield wasActive tick).unlockSoc e).releaseBit.bitView := rfl
    _ = ((s.startYield wasActive tick).unlockSoc e).bitView.released := bitView_releaseBit _ rfl
    _ = s.bitView.released := by rw [hunlock]; rfl

theorem bitView_restoreBit (hlent : s.yieldActive = false) (full : Bool) :
    (s.restoreBit full).bitView = s.bitView.restored full := by
  unfold YieldState.restoreBit BitView.restored
  cases hc : s.bitCleared with
  | false =>
    simp only [YieldState.bitView, SocState.bitView, hc, hlent, Bool.false_and, Bool.xor_false,
      Bool.false_eq_true, if_false]
  | true =>
    by_cases h : (full && s.miniSocEnabled && !kernelBitIsSet s.kernel) = true
    · simp only [YieldState.bitView, SocState.bitView, YieldState.toggleBit, KernelState.networkBit_toggle,
        kernelBitIsSet_toggle, hc, hlent, h, if_true, Bool.true_and, Bool.xor_true]
    · simp only [YieldState.bitView, SocState.bitView, hc, hlent, Bool.not_eq_true _ ▸ h, if_true,
        Bool.true_and, Bool.xor_false, Bool.false_eq_true, if_false]

theorem bitView_doRestore (full : Bool) (e : LockAnswers) :
    (doRestore full e s).bitView = s.bitView.restored full := by
  have hlock : (if full then s.endYield.lockSoc e else s.endYield).bitView =
      { s.bitView with lent := false } := by
    cases full with
    | false => rfl
    | true => exact bitView_lock s.toSocState false s.bitCleared e
  have hlent : (if full then s.endYield.lockSoc e else s.endYield).yieldActive = false := by
    cases full <;> rfl
  calc (doRestore full e s).bitView
      = ((if full then s.endYield.lockSoc e else s.endYield).restoreBit full).bitView := rfl
    _ = (if full then s.endYield.lockSoc e else s.endYield).bitView.restored full :=
        bitView_restoreBit _ hlent full
    _ = s.bitView.restored full := by rw [hlock]; rfl

end YieldViews

/-! ## Sequences of operations -/

/-- `handshake` is a store of the kernel's hook into the word of the handshake. -/
inductive YieldCall where
  | init (e : InitAnswers)
  | exit (e : ExitAnswers)
  | process (e : ProcessAnswers)
  | appExit (e : LockAnswers)
  | safeSocExit (e : ExitAnswers)
  | handshake (word : BitVec 32)

def yieldStep (s : YieldState) : YieldCall → Option YieldState
  | .init e => some { s with toSocState := (miniSocInit e s.toSocState).2 }
  | .exit e => some { s with toSocState := (miniSocExit e s.toSocState).2 }
  | .process e => some (ndmYieldProcess e s)
  | .appExit e => some (ndmYieldOnAppExit e s)
  | .safeSocExit e => some (ndmYieldSafeSocExit e s)
  | .handshake word => some { s with kernel := { s.kernel with ndmuYieldState := word } }

/-- The service opens and closes only while the radio is not lent, a release is told the true
bit, and a session ends only over a closed service. -/
def BitInScope (s : YieldState) : YieldCall → Prop
  | .init e => Opens e s.toSocState → s.yieldActive = false ∧ s.miniSocEnabled = false
  | .exit e | .safeSocExit e => Closes e s.toSocState → s.yieldActive = false
  | .process e => match yieldDecision (ndmYieldSnapshot s.kernel) e s with
    | .release => kernelBitIsSet s.kernel = s.miniSocEnabled
    | .restore => s.miniSocEnabled = false
    | .refuse | .rearm | .keep => True
  | .appExit _ => s.yieldActive = true → s.miniSocEnabled = false
  | .handshake _ => True

/-- The network bit at the return of an operation. -/
def BitLaw (_ : YieldState) (_ : YieldCall) (t : YieldState) : Prop :=
  (t.yieldActive = false → (t.kernel.networkBit = true ↔ t.miniSocEnabled = true)) ∧
    (t.yieldActive = true → t.kernel.networkBit = false)

theorem decision_release {state : BitVec 32} {e : ProcessAnswers} {s : YieldState}
    (h : yieldDecision state e s = .release) : s.yieldActive = false := by
  unfold yieldDecision at h
  split_ifs at h with hask
  exact hask.2.2

theorem decision_restore {state : BitVec 32} {e : ProcessAnswers} {s : YieldState}
    (h : yieldDecision state e s = .restore) : s.yieldActive = true := by
  unfold yieldDecision at h
  split_ifs at h with hask hown hlent
  exact hlent

theorem bitView_noteLeave (s : YieldState) (state : BitVec 32) (tick : BitVec 64) :
    (s.noteLeave state tick).bitView = s.bitView := by
  unfold YieldState.noteLeave
  split_ifs <;> rfl

theorem bitView_wakeAfter (s : YieldState) (ended : Bool) :
    (s.wakeAfter ended).bitView = s.bitView := by
  unfold YieldState.wakeAfter
  split_ifs <;> rfl

/-- What each decision does to the view. -/
def BitView.performed (v : BitView) : YieldDecision → BitView
  | .release => v.released
  | .restore => v.restored true
  | .refuse | .rearm | .keep => v

theorem bitView_perform (state : BitVec 32) (e : ProcessAnswers) (s : YieldState)
    (d : YieldDecision) : (ndmYieldPerform state e s d).bitView = s.bitView.performed d := by
  cases d with
  | refuse => rfl
  | release => exact bitView_doRelease s e.unlock _ e.tick
  | restore =>
    have hrestore := bitView_doRestore (s.noteLeave state e.tick) true e.lock
    rw [bitView_noteLeave] at hrestore
    exact (bitView_wakeAfter _ true).trans hrestore
  | rearm => exact bitView_noteLeave s state e.tick
  | keep =>
    unfold ndmYieldPerform
    split_ifs
    · exact bitView_noteLeave s state e.tick
    · rfl

theorem init_law_iff {s : SocState} {lent cleared : Bool} (hv : (s.bitView lent cleared).Inv)
    (e : InitAnswers) : ((miniSocInit e s).2.bitView lent cleared).Law ↔
      (Opens e s → lent = false ∧ s.miniSocEnabled = false) := by
  by_cases ho : Opens e s
  · rw [bitView_init_opens s lent cleared ho, BitView.law_opened_iff hv]
    exact ⟨fun h _ => h, fun h => h ho⟩
  · rw [bitView_init_other s lent cleared ho]
    exact ⟨fun _ h => absurd h ho, fun _ => hv.law⟩

theorem exit_law_iff {s : SocState} {lent cleared : Bool} (hv : (s.bitView lent cleared).Inv)
    (e : ExitAnswers) : ((miniSocExit e s).2.bitView lent cleared).Law ↔
      (Closes e s → lent = false) := by
  by_cases hc : Closes e s
  · rw [bitView_exit_closes s lent cleared hc, BitView.law_closed_iff hv hc.1]
    exact ⟨fun h _ => h, fun h => h hc⟩
  · rw [bitView_exit_other s lent cleared hc]
    exact ⟨fun _ h => absurd h hc, fun _ => hv.law⟩

theorem init_inv_of_law {s : SocState} {lent cleared : Bool} (hv : (s.bitView lent cleared).Inv)
    {e : InitAnswers} (h : ((miniSocInit e s).2.bitView lent cleared).Law) :
    ((miniSocInit e s).2.bitView lent cleared).Inv := by
  refine ⟨h, fun hc => ?_⟩
  by_cases ho : Opens e s
  · rw [bitView_init_opens s lent cleared ho]
    exact hv.cleared hc
  · rw [bitView_init_other s lent cleared ho]
    exact hv.cleared hc

theorem exit_inv_of_law {s : SocState} {lent cleared : Bool} (hv : (s.bitView lent cleared).Inv)
    {e : ExitAnswers} (h : ((miniSocExit e s).2.bitView lent cleared).Law) :
    ((miniSocExit e s).2.bitView lent cleared).Inv := by
  refine ⟨h, fun hc => ?_⟩
  exact ⟨(hv.cleared hc).1, (query_exit s e).trans (hv.cleared hc).2⟩

theorem process_law_iff {s : YieldState} (hv : s.bitView.Inv) (e : ProcessAnswers) :
    (ndmYieldProcess e s).bitView.Law ↔ BitInScope s (.process e) := by
  rw [ndmYieldProcess, bitView_perform, BitInScope]
  cases h : yieldDecision (ndmYieldSnapshot s.kernel) e s with
  | refuse | rearm | keep => exact ⟨fun _ => trivial, fun _ => hv.law⟩
  | release => exact BitView.law_released_iff hv (decision_release h)
  | restore => exact BitView.law_restored_iff hv (decision_restore h) true

theorem process_inv_of_law {s : YieldState} (hv : s.bitView.Inv) {e : ProcessAnswers}
    (h : (ndmYieldProcess e s).bitView.Law) : (ndmYieldProcess e s).bitView.Inv := by
  rw [ndmYieldProcess, bitView_perform] at h ⊢
  generalize yieldDecision (ndmYieldSnapshot s.kernel) e s = d at h ⊢
  cases d with
  | refuse | rearm | keep => exact hv
  | release => exact BitView.inv_released hv h
  | restore => exact BitView.inv_restored h

theorem appExit_law_iff {s : YieldState} (hv : s.bitView.Inv) (e : LockAnswers) :
    (ndmYieldOnAppExit e s).bitView.Law ↔ (s.yieldActive = true → s.miniSocEnabled = false) := by
  unfold ndmYieldOnAppExit
  split_ifs with hlent
  · rw [bitView_doRestore, BitView.law_restored_iff hv hlent]
    exact ⟨fun h _ => h, fun h => h hlent⟩
  · exact ⟨fun _ h => absurd h hlent, fun _ => hv.law⟩

theorem appExit_inv_of_law {s : YieldState} (hv : s.bitView.Inv) {e : LockAnswers}
    (h : (ndmYieldOnAppExit e s).bitView.Law) : (ndmYieldOnAppExit e s).bitView.Inv := by
  unfold ndmYieldOnAppExit at h ⊢
  split_ifs with hlent
  · rw [if_pos hlent, bitView_doRestore] at h
    rw [bitView_doRestore]
    exact BitView.inv_restored h
  · exact hv

theorem bitLaw_iff {s t : YieldState} (hv : s.bitView.Inv) (c : YieldCall)
    (h : yieldStep s c = some t) : BitLaw s c t ↔ BitInScope s c := by
  cases c with
  | init e => cases h; exact init_law_iff hv e
  | exit e => cases h; exact exit_law_iff hv e
  | process e => cases h; exact process_law_iff hv e
  | appExit e => cases h; exact appExit_law_iff hv e
  | safeSocExit e => cases h; rw [safeSocExit_eq]; exact exit_law_iff hv e
  | handshake word => cases h; exact ⟨fun _ => trivial, fun _ => hv.law⟩

theorem bitView_inv_of_law {s t : YieldState} (hv : s.bitView.Inv) (c : YieldCall)
    (h : yieldStep s c = some t) (hl : BitLaw s c t) : t.bitView.Inv := by
  cases c with
  | init e => cases h; exact init_inv_of_law hv hl
  | exit e => cases h; exact exit_inv_of_law hv hl
  | process e => cases h; exact process_inv_of_law hv hl
  | appExit e => cases h; exact appExit_inv_of_law hv hl
  | safeSocExit e =>
    cases h
    rw [safeSocExit_eq] at hl ⊢
    exact exit_inv_of_law hv hl
  | handshake word => cases h; exact hv

theorem boot_bitView_inv (q : BitVec 64) : (YieldState.boot q).bitView.Inv where
  law := by
    have hzero : (0 : BitVec 32).getLsbD 4 = false := by decide
    have hbit : (YieldState.boot q).kernel.networkBit = false := hzero
    refine (BitView.law_iff _).mpr ?_
    simp only [YieldState.bitView, SocState.bitView, hbit]
    rfl
  cleared h := absurd h Bool.false_ne_true

/-- A sequence of operations since boot keeps the network bit lawful throughout exactly when
each is in scope. -/
theorem yield_calls_bitLaw_iff (q : BitVec 64) (cs : List YieldCall) :
    AllSteps yieldStep BitLaw (YieldState.boot q) cs ↔
      Guarded yieldStep BitInScope (YieldState.boot q) cs :=
  allSteps_iff_guarded (fun _ c _ hv h => bitLaw_iff hv c h)
    (fun _ c _ hv h hl => bitView_inv_of_law hv c h hl) (boot_bitView_inv q) cs

/-- A release lends the radio with the bit still set. -/
theorem release_leaves_bit_set :
    ¬∀ q cs, AllSteps yieldStep BitLaw (YieldState.boot q) cs := by
  intro h
  have hrun := h 0 [.init initSucceeds, .handshake 1, .process processGrants]
  have hlaw := (((hrun _ rfl).2 _ rfl).2 _ rfl).1
  exact absurd (hlaw.2 (by decide)) (by decide)

end Presence3DS.Rosalina
