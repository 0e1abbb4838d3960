import Presence3DS.Kernel.State
import Presence3DS.Lib.Runs
import Presence3DS.Lib.SortedSlots

/-! The processes whose system calls are signalled to their debugger (`KernelSetState.c`), over
sequences of `SetSyscallDebugEventMask` calls. -/

namespace Presence3DS.Kernel
open SortedSlots Runs

abbrev Pid := BitVec 32

/-- One bit for each system call, the most significant bit of a word first. -/
abbrev SvcMask := Fin 8 → BitVec 32

def maxDebug : ℕ := 3

structure SyscallDebug where
  nbEnabled : ℕ
  maskedPids : ℕ → Pid
  masks : ℕ → SvcMask
  svcSignalingEnabled : BitVec 8

namespace SyscallDebug

def boot : SyscallDebug := ⟨0, fun _ => 0, fun _ _ => 0, 0⟩

/-- The first slot of a process, and `nbEnabled` when it has none. -/
def idOf (d : SyscallDebug) (pid : Pid) : ℕ :=
  (List.range d.nbEnabled).findIdx fun id => d.maskedPids id == pid

end SyscallDebug

def svcWord (svcId : BitVec 8) : Fin 8 :=
  ⟨svcId.toNat / 32, Nat.div_lt_of_lt_mul svcId.isLt⟩

def SvcMask.signals (mask : SvcMask) (svcId : BitVec 8) : Bool :=
  (mask (svcWord svcId) >>> (31 - svcId.toNat % 32)) &&& 1 ≠ 0

def shouldSignalSyscallDebugEvent (d : SyscallDebug) (pid : Pid) (svcId : BitVec 8) : Bool :=
  if d.idOf pid = maxDebug then false
  else SvcMask.signals (d.masks (d.idOf pid)) svcId

/-- The mask is none where it cannot be copied from the caller. -/
def setSyscallDebugEventMask (d : SyscallDebug) (pid : Pid) (enable : Bool)
    (mask : Option SvcMask) : Result × SyscallDebug :=
  if enable then
    if d.nbEnabled = maxDebug then (s32 0xC86018FF, d)
    else
      match mask with
      | none => (s32 0xE0E01BF5, d)
      | some tmpMask =>
        (0, { nbEnabled := d.nbEnabled + 1
              maskedPids := Function.update d.maskedPids d.nbEnabled pid
              masks := Function.update d.masks d.nbEnabled tmpMask
              svcSignalingEnabled := d.svcSignalingEnabled ||| 1 })
  else if d.idOf pid = d.nbEnabled then (s32 0xE0E01BFD, d)
  else
    (0, { nbEnabled := d.nbEnabled - 1
          maskedPids := Function.update (removeSlot d.maskedPids d.nbEnabled (d.idOf pid))
            (d.nbEnabled - 1) 0
          masks := Function.update (removeSlot d.masks d.nbEnabled (d.idOf pid))
            (d.nbEnabled - 1) fun _ => 0
          svcSignalingEnabled := d.svcSignalingEnabled &&& ~~~1 })

structure SyscallCall where
  pid : Pid
  enable : Bool
  mask : Option SvcMask

/-- The table, and beside it the mask last accepted for each process that is registered. The code
does not keep the latter. -/
structure SyscallDebugging where
  table : SyscallDebug
  registered : Pid → Option SvcMask

namespace SyscallDebugging

def boot : SyscallDebugging := ⟨.boot, fun _ => none⟩

def step (s : SyscallDebugging) (c : SyscallCall) : Option SyscallDebugging :=
  let (res, table) := setSyscallDebugEventMask s.table c.pid c.enable c.mask
  some {
    table := table
    registered := if res = 0 then
        Function.update s.registered c.pid (if c.enable then c.mask else none)
      else s.registered }

end SyscallDebugging

/-- The calls signalled are those of the latest masks, bit 0 says that a process is registered, and
the table lists the processes registered. -/
structure SyscallLaw (s : SyscallDebugging) : Prop where
  signals : ∀ pid svcId, shouldSignalSyscallDebugEvent s.table pid svcId = true ↔
    ∃ mask, s.registered pid = some mask ∧ SvcMask.signals mask svcId = true
  enabled : s.table.svcSignalingEnabled.getLsbD 0 = true ↔ ∃ pid, s.registered pid ≠ none
  listed : ∀ pid, (∃ id, id < s.table.nbEnabled ∧ s.table.maskedPids id = pid) ↔
    s.registered pid ≠ none

/-- A rejected call changes nothing, and every call keeps to the law. -/
structure SyscallStep (s : SyscallDebugging) (c : SyscallCall) (t : SyscallDebugging) : Prop where
  rejected : (setSyscallDebugEventMask s.table c.pid c.enable c.mask).1 ≠ 0 → t = s
  law : SyscallLaw t

/-- A process that is registered is not enabled again with another mask, and not disabled while the
table has another entry. -/
def SyscallCondition (s : SyscallDebugging) (c : SyscallCall) : Prop :=
  if c.enable then
    s.table.nbEnabled = maxDebug ∨ c.mask = none ∨ s.registered c.pid = none ∨
      s.registered c.pid = c.mask
  else s.registered c.pid = none ∨ s.table.nbEnabled = 1

/-! ## Looking a process up -/

namespace SyscallDebug
variable {d : SyscallDebug} {pid : Pid}

theorem idOf_le (d : SyscallDebug) (pid : Pid) : d.idOf pid ≤ d.nbEnabled := by
  have h : d.idOf pid ≤ (List.range d.nbEnabled).length := List.findIdx_le_length
  rwa [List.length_range] at h

theorem idOf_lt_iff :
    d.idOf pid < d.nbEnabled ↔ ∃ id, id < d.nbEnabled ∧ d.maskedPids id = pid := by
  have h : d.idOf pid < (List.range d.nbEnabled).length ↔ _ := List.findIdx_lt_length
  rw [List.length_range] at h
  refine h.trans ?_
  simp only [List.mem_range, beq_iff_eq]

theorem maskedPids_idOf (h : d.idOf pid < d.nbEnabled) : d.maskedPids (d.idOf pid) = pid := by
  have hlen : d.idOf pid < (List.range d.nbEnabled).length := by rwa [List.length_range]
  have hfound := List.findIdx_getElem (w := hlen)
  rw [beq_iff_eq] at hfound
  exact (congrArg d.maskedPids (List.getElem_range hlen)).symm.trans hfound

theorem idOf_congr {d' : SyscallDebug} (h : d.idOf pid < d.nbEnabled)
    (hle : d.nbEnabled ≤ d'.nbEnabled)
    (hpids : ∀ id, id < d.nbEnabled → d'.maskedPids id = d.maskedPids id) :
    d'.idOf pid = d.idOf pid := by
  have hlen : d.idOf pid < (List.range d'.nbEnabled).length := by
    rw [List.length_range]
    exact h.trans_le hle
  rw [idOf, List.findIdx_eq hlen]
  constructor
  · rw [List.getElem_range, hpids _ h, maskedPids_idOf h]
    exact beq_self_eq_true pid
  · intro j hj
    have hlt : j < d.nbEnabled := hj.trans h
    have hlen' : j < (List.range d.nbEnabled).length := by rwa [List.length_range]
    have hnot := List.not_of_lt_findIdx hj
    rw [List.getElem_range] at hnot ⊢
    rw [hpids j hlt]
    exact hnot

end SyscallDebug

/-! ## The bits of a mask -/

theorem svcMask_signals_eq (mask : SvcMask) (svcId : BitVec 8) :
    SvcMask.signals mask svcId =
      (mask (svcWord svcId)).getLsbD (31 - svcId.toNat % 32) := by
  rw [SvcMask.signals, Bool.eq_iff_iff, decide_eq_true_eq]
  rw [show (1 : BitVec 32) = 1#32 from rfl, BitVec.and_one_eq_setWidth_ofBool_getLsbD,
    BitVec.getLsbD_ushiftRight, Nat.add_zero]
  cases (mask (svcWord svcId)).getLsbD (31 - svcId.toNat % 32) <;> decide

theorem svcMask_ext {mask mask' : SvcMask}
    (h : ∀ svcId, SvcMask.signals mask svcId = SvcMask.signals mask' svcId) : mask = mask' := by
  funext word
  apply BitVec.eq_of_getLsbD_eq
  intro bit hbit
  have hsvc := h (BitVec.ofNat 8 (word * 32 + (31 - bit)))
  have hword := word.isLt
  have htoNat : (BitVec.ofNat 8 (word * 32 + (31 - bit))).toNat = word * 32 + (31 - bit) := by
    rw [BitVec.toNat_ofNat, Nat.mod_eq_of_lt (by omega)]
  have hdiv : svcWord (BitVec.ofNat 8 (word * 32 + (31 - bit))) = word := by
    apply Fin.ext
    show (BitVec.ofNat 8 (word * 32 + (31 - bit))).toNat / 32 = (word : ℕ)
    rw [htoNat]
    omega
  rw [svcMask_signals_eq, svcMask_signals_eq, hdiv, htoNat,
    show 31 - (word * 32 + (31 - bit)) % 32 = bit by omega] at hsvc
  exact hsvc

theorem svcMask_zero_signals (svcId : BitVec 8) :
    SvcMask.signals (fun _ => 0) svcId = false := by
  rw [svcMask_signals_eq]
  exact BitVec.getLsbD_zero

/-! ## The invariant -/

/-- The entries of one process have one mask, its latest; the slots behind the table are clear. -/
structure SyscallInv (s : SyscallDebugging) : Prop where
  capacity : s.table.nbEnabled ≤ maxDebug
  entry : ∀ id, id < s.table.nbEnabled →
    s.registered (s.table.maskedPids id) = some (s.table.masks id)
  unused : ∀ id, s.table.nbEnabled ≤ id → s.table.masks id = fun _ => 0
  listed : ∀ pid, s.registered pid ≠ none →
    ∃ id, id < s.table.nbEnabled ∧ s.table.maskedPids id = pid
  enabled : s.table.svcSignalingEnabled.getLsbD 0 = true ↔ 0 < s.table.nbEnabled

theorem boot_syscallInv : SyscallInv .boot where
  capacity := Nat.zero_le _
  entry _ h := absurd h (Nat.not_lt_zero _)
  unused _ _ := rfl
  listed _ h := absurd rfl h
  enabled := by decide

section Steps
variable {s : SyscallDebugging} {pid : Pid} {mask : SvcMask}

theorem SyscallInv.listed_iff (hs : SyscallInv s) (pid : Pid) :
    (∃ id, id < s.table.nbEnabled ∧ s.table.maskedPids id = pid) ↔ s.registered pid ≠ none := by
  constructor
  · rintro ⟨id, hid, rfl⟩
    rw [hs.entry id hid]
    exact Option.some_ne_none _
  · exact hs.listed pid

theorem SyscallInv.law (hs : SyscallInv s) : SyscallLaw s where
  signals pid svcId := by
    rw [shouldSignalSyscallDebugEvent]
    rcases Nat.lt_or_eq_of_le (s.table.idOf_le pid) with hfound | hnone
    · have hentry := hs.entry _ hfound
      rw [SyscallDebug.maskedPids_idOf hfound] at hentry
      rw [if_neg (hfound.trans_le hs.capacity).ne, hentry]
      exact ⟨fun h => ⟨_, rfl, h⟩, fun ⟨_, hsame, h⟩ => Option.some.inj hsame ▸ h⟩
    -- Not found: the slot behind the table is clear, or there is none.
    · have hreg : s.registered pid = none := by
        by_contra hne
        exact absurd (SyscallDebug.idOf_lt_iff.mpr (hs.listed pid hne)) hnone.not_lt
      rw [hreg, hs.unused _ hnone.ge, svcMask_zero_signals, ite_self]
      exact iff_of_false Bool.false_ne_true fun ⟨_, h, _⟩ => Option.some_ne_none _ h.symm
  enabled := by
    rw [hs.enabled]
    constructor
    · intro hpos
      exact ⟨_, (hs.listed_iff _).mp ⟨0, hpos, rfl⟩⟩
    · rintro ⟨pid, hne⟩
      obtain ⟨id, hid, -⟩ := hs.listed pid hne
      exact Nat.zero_lt_of_lt hid
  listed := hs.listed_iff

/-- The state after an entry has been added. -/
def SyscallDebugging.added (s : SyscallDebugging) (pid : Pid) (mask : SvcMask) :
    SyscallDebugging where
  table :=
    { nbEnabled := s.table.nbEnabled + 1
      maskedPids := Function.update s.table.maskedPids s.table.nbEnabled pid
      masks := Function.update s.table.masks s.table.nbEnabled mask
      svcSignalingEnabled := s.table.svcSignalingEnabled ||| 1 }
  registered := Function.update s.registered pid (some mask)

/-- The state after the first entry of a process has been removed. -/
def SyscallDebugging.removed (s : SyscallDebugging) (pid : Pid) : SyscallDebugging where
  table :=
    { nbEnabled := s.table.nbEnabled - 1
      maskedPids := Function.update
        (removeSlot s.table.maskedPids s.table.nbEnabled (s.table.idOf pid))
        (s.table.nbEnabled - 1) 0
      masks := Function.update (removeSlot s.table.masks s.table.nbEnabled (s.table.idOf pid))
        (s.table.nbEnabled - 1) fun _ => 0
      svcSignalingEnabled := s.table.svcSignalingEnabled &&& ~~~1 }
  registered := Function.update s.registered pid none

theorem SyscallDebugging.step_cases {c : SyscallCall} {t : SyscallDebugging}
    (h : s.step c = some t) :
    (t = s ∧ (setSyscallDebugEventMask s.table c.pid c.enable c.mask).1 ≠ 0 ∧
      (if c.enable then s.table.nbEnabled = maxDebug ∨ c.mask = none
        else s.table.idOf c.pid = s.table.nbEnabled)) ∨
    (setSyscallDebugEventMask s.table c.pid c.enable c.mask).1 = 0 ∧
      ((∃ mask, c.enable = true ∧ c.mask = some mask ∧ s.table.nbEnabled ≠ maxDebug ∧
          t = s.added c.pid mask) ∨
        c.enable = false ∧ s.table.idOf c.pid ≠ s.table.nbEnabled ∧ t = s.removed c.pid) := by
  obtain ⟨pid, enable, mask⟩ := c
  have hfull : s32 0xC86018FF ≠ 0 := by decide
  have hcopy : s32 0xE0E01BF5 ≠ 0 := by decide
  have hrange : s32 0xE0E01BFD ≠ 0 := by decide
  cases enable with
  | true =>
    by_cases hcap : s.table.nbEnabled = maxDebug
    · left
      simp only [step, setSyscallDebugEventMask, if_true, if_pos hcap, if_neg hfull] at h ⊢
      exact ⟨(Option.some.inj h).symm, hfull, .inl hcap⟩
    cases mask with
    | none =>
      left
      simp only [step, setSyscallDebugEventMask, if_true, if_neg hcap, if_neg hcopy] at h ⊢
      exact ⟨(Option.some.inj h).symm, hcopy, .inr trivial⟩
    | some mask =>
      right
      simp only [step, setSyscallDebugEventMask, if_true, if_neg hcap] at h ⊢
      exact ⟨trivial, .inl ⟨mask, trivial, rfl, hcap, (Option.some.inj h).symm⟩⟩
  | false =>
    by_cases hid : s.table.idOf pid = s.table.nbEnabled
    · left
      simp only [step, setSyscallDebugEventMask, Bool.false_eq_true, if_false, if_pos hid,
        if_neg hrange] at h ⊢
      exact ⟨(Option.some.inj h).symm, hrange, hid⟩
    · right
      simp only [step, setSyscallDebugEventMask, Bool.false_eq_true, if_false, if_neg hid,
        if_true] at h ⊢
      exact ⟨trivial, .inr ⟨trivial, hid, (Option.some.inj h).symm⟩⟩

theorem SyscallInv.added (hs : SyscallInv s) (hroom : s.table.nbEnabled ≠ maxDebug)
    (hreg : s.registered pid = none ∨ s.registered pid = some mask) :
    SyscallInv (s.added pid mask) := by
  -- No entry of another process or with another mask is touched.
  have hother : ∀ q m, s.registered q = some m → (s.added pid mask).registered q = some m := by
    intro q m hq
    show Function.update s.registered pid (some mask) q = some m
    by_cases hqp : q = pid
    · subst hqp
      rw [Function.update_self]
      rw [hq] at hreg
      exact (hreg.resolve_left (Option.some_ne_none _)).symm
    · rwa [Function.update_of_ne hqp]
  constructor
  · exact Nat.lt_of_le_of_ne hs.capacity hroom
  · intro id hid
    show (s.added pid mask).registered
      (Function.update s.table.maskedPids s.table.nbEnabled pid id) =
        some (Function.update s.table.masks s.table.nbEnabled mask id)
    rcases Nat.lt_succ_iff_lt_or_eq.mp hid with hlt | rfl
    · rw [Function.update_of_ne hlt.ne, Function.update_of_ne hlt.ne]
      exact hother _ _ (hs.entry id hlt)
    · rw [Function.update_self, Function.update_self]
      exact Function.update_self ..
  · intro id hid
    have hlt : s.table.nbEnabled < id := hid
    exact (Function.update_of_ne hlt.ne' ..).trans (hs.unused id hlt.le)
  · intro q hq
    by_cases hqp : q = pid
    · exact ⟨s.table.nbEnabled, Nat.lt_succ_self _, hqp ▸ Function.update_self ..⟩
    · have hq' : s.registered q ≠ none := by
        rwa [show (s.added pid mask).registered q = s.registered q from
          Function.update_of_ne hqp ..] at hq
      obtain ⟨id, hid, hpid⟩ := hs.listed q hq'
      exact ⟨id, Nat.lt_succ_of_lt hid, (Function.update_of_ne hid.ne ..).trans hpid⟩
  · show (s.table.svcSignalingEnabled ||| 1).getLsbD 0 = true ↔ 0 < s.table.nbEnabled + 1
    rw [BitVec.getLsbD_or]
    exact iff_of_true (Bool.or_true _) (Nat.succ_pos _)

theorem SyscallInv.removed (hs : SyscallInv s) (hone : s.table.nbEnabled = 1)
    (hid : s.table.idOf pid ≠ s.table.nbEnabled) : SyscallInv (s.removed pid) := by
  have hfound := Nat.lt_of_le_of_ne (s.table.idOf_le pid) hid
  have hpid := SyscallDebug.maskedPids_idOf hfound
  have hzero : s.table.idOf pid = 0 := by omega
  have hnb : (s.removed pid).table.nbEnabled = 0 := by
    show s.table.nbEnabled - 1 = 0
    rw [hone]
  constructor
  · rw [hnb]
    exact Nat.zero_le _
  · intro id hlt
    rw [hnb] at hlt
    exact absurd hlt (Nat.not_lt_zero _)
  · intro id _
    show Function.update (removeSlot s.table.masks s.table.nbEnabled (s.table.idOf pid))
      (s.table.nbEnabled - 1) (fun _ => 0) id = fun _ => 0
    rw [hone]
    by_cases hid0 : id = 0
    · subst hid0
      exact Function.update_self ..
    · rw [Function.update_of_ne hid0, removeSlot_apply _ (hone ▸ hfound), if_neg (by omega)]
      exact hs.unused id (by omega)
  · intro q hq
    exfalso
    have hqp : q ≠ pid := by
      rintro rfl
      exact hq (Function.update_self ..)
    have hq' : s.registered q ≠ none := by
      rwa [show (s.removed pid).registered q = s.registered q from
        Function.update_of_ne hqp ..] at hq
    obtain ⟨id, hid, hidq⟩ := hs.listed q hq'
    obtain rfl : id = 0 := by omega
    rw [hzero] at hpid
    exact hqp (hidq.symm.trans hpid)
  · rw [hnb]
    show (s.table.svcSignalingEnabled &&& ~~~1).getLsbD 0 = true ↔ 0 < 0
    rw [BitVec.getLsbD_and]
    exact iff_of_false (by simp) (Nat.lt_irrefl 0)

theorem syscallInv_step (hs : SyscallInv s) {c : SyscallCall} {t : SyscallDebugging}
    (hc : SyscallCondition s c) (h : s.step c = some t) : SyscallInv t := by
  rcases SyscallDebugging.step_cases h with ⟨rfl, -⟩ | ⟨-, hadd | hremove⟩
  · exact hs
  · obtain ⟨mask, henable, hmask, hroom, rfl⟩ := hadd
    rw [SyscallCondition, henable, if_pos rfl, hmask] at hc
    rcases hc with hcap | hnone | hreg
    · exact absurd hcap hroom
    · exact absurd hnone (Option.some_ne_none _)
    · exact hs.added hroom hreg
  · obtain ⟨hdisable, hid, rfl⟩ := hremove
    rw [SyscallCondition, hdisable, if_neg Bool.false_ne_true] at hc
    rcases hc with hreg | hone
    · have hfound := Nat.lt_of_le_of_ne (s.table.idOf_le c.pid) hid
      exact absurd hreg ((hs.listed_iff _).mp (SyscallDebug.idOf_lt_iff.mp hfound))
    · exact hs.removed hone hid

theorem syscallCondition_of_law (hs : SyscallInv s) {c : SyscallCall} {t : SyscallDebugging}
    (h : s.step c = some t) (hlaw : SyscallLaw t) : SyscallCondition s c := by
  rw [SyscallCondition]
  rcases SyscallDebugging.step_cases h with ⟨rfl, -, hrejected⟩ | ⟨-, hadd | hremove⟩
  · split_ifs at hrejected ⊢
    · exact hrejected.imp_right .inl
    · left
      by_contra hne
      exact absurd (SyscallDebug.idOf_lt_iff.mpr (hs.listed _ hne)) hrejected.not_lt
  · obtain ⟨mask, henable, hmask, hroom, rfl⟩ := hadd
    rw [henable, if_pos rfl, hmask]
    refine .inr (.inr ?_)
    by_contra hne
    rw [not_or] at hne
    -- The first slot of the process still has the mask it had.
    have hfound := SyscallDebug.idOf_lt_iff.mpr (hs.listed _ hne.1)
    have hsame : (s.added c.pid mask).table.idOf c.pid = s.table.idOf c.pid := by
      apply SyscallDebug.idOf_congr hfound (Nat.le_succ _)
      intro id hid
      exact Function.update_of_ne hid.ne ..
    have hentry := hs.entry _ hfound
    rw [SyscallDebug.maskedPids_idOf hfound] at hentry
    apply hne.2
    rw [hentry, Option.some_inj]
    apply svcMask_ext
    intro svcId
    have hsignals := hlaw.signals c.pid svcId
    rw [shouldSignalSyscallDebugEvent, hsame, if_neg (hfound.trans_le hs.capacity).ne,
      show (s.added c.pid mask).table.masks (s.table.idOf c.pid) =
        s.table.masks (s.table.idOf c.pid) from Function.update_of_ne hfound.ne ..,
      show (s.added c.pid mask).registered c.pid = some mask from Function.update_self ..]
      at hsignals
    rw [Bool.eq_iff_iff, hsignals]
    exact ⟨fun ⟨_, hm, h⟩ => Option.some.inj hm ▸ h, fun h => ⟨mask, rfl, h⟩⟩
  · obtain ⟨hdisable, hid, rfl⟩ := hremove
    rw [hdisable, if_neg Bool.false_ne_true]
    right
    have hfound := Nat.lt_of_le_of_ne (s.table.idOf_le c.pid) hid
    by_contra hone
    -- Another entry stays, so its process is registered, and bit 0 is clear.
    have hpos : 0 < (s.removed c.pid).table.nbEnabled := by
      show 0 < s.table.nbEnabled - 1
      omega
    have hclear : (s.removed c.pid).table.svcSignalingEnabled.getLsbD 0 = false := by
      show (s.table.svcSignalingEnabled &&& ~~~1).getLsbD 0 = false
      rw [BitVec.getLsbD_and]
      simp
    have hset := hlaw.enabled.mpr ⟨_, (hlaw.listed _).mp ⟨0, hpos, rfl⟩⟩
    exact absurd (hclear.symm.trans hset) Bool.false_ne_true

end Steps

/-- A sequence of calls keeps to the law throughout exactly if no registered process is enabled
again with another mask, and none is disabled while the table has another entry. -/
theorem syscall_calls_lawful_iff (calls : List SyscallCall) :
    AllSteps SyscallDebugging.step SyscallStep .boot calls ↔
      Guarded SyscallDebugging.step SyscallCondition .boot calls := by
  apply allSteps_iff_guarded (I := SyscallInv) _ _ boot_syscallInv
  · intro s c t hs h
    constructor
    · exact fun hstep => syscallCondition_of_law hs h hstep.law
    · intro hc
      refine ⟨fun hrejected => ?_, (syscallInv_step hs hc h).law⟩
      rcases SyscallDebugging.step_cases h with ⟨hsame, -⟩ | ⟨hzero, -⟩
      · exact hsame
      · exact absurd hzero hrejected
  · intro s c t hs h hstep
    exact syscallInv_step hs (syscallCondition_of_law hs h hstep.law) h

/-- Two processes are caught, and one of them is let go. -/
def twoCaughtCalls : List SyscallCall :=
  [⟨1, true, some fun _ => 0xFFFFFFFF⟩, ⟨2, true, some fun _ => 0xFFFFFFFF⟩]

theorem disable_clears_the_shared_bit : ¬∀ calls,
    AllSteps SyscallDebugging.step SyscallStep .boot calls := by
  intro h
  have hbad : (run SyscallDebugging.step .boot twoCaughtCalls).any (fun s =>
      (s.step ⟨1, false, none⟩).any fun t =>
        !t.table.svcSignalingEnabled.getLsbD 0 && (t.registered 2).isSome) = true := by
    decide +kernel
  obtain ⟨s, hrun, hbad⟩ := (Option.any_eq_true _ _).mp hbad
  obtain ⟨t, hstep, hbad⟩ := (Option.any_eq_true _ _).mp hbad
  obtain ⟨hclear, hkept⟩ := Bool.and_eq_true_iff.mp hbad
  have hlaw := ((h (twoCaughtCalls ++ [⟨1, false, none⟩])).last hrun hstep).law
  have hset := hlaw.enabled.mpr ⟨2, Option.isSome_iff_ne_none.mp hkept⟩
  rw [hset] at hclear
  cases hclear

end Presence3DS.Kernel
