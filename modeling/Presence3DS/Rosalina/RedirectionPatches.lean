import Presence3DS.Kernel.State
import Presence3DS.Lib.Patches
import Presence3DS.Lib.Runs

/-! The input redirection's patches of the processes `hid` and `ir` (`input_redirection.c`, and the
menu entry in `miscellaneous.c`). Every answer of the kernel is an input of the call. -/

namespace Presence3DS.Rosalina
open Kernel Patches Runs

/-- `svc 0x24`, a wait -/
def svc24 : BitVec 32 := 0xEF000024

/-- `mov r0, #0` -/
def movR0Zero : BitVec 32 := 0xE3A00000

/-- `ldr r0, [r0]` -/
def ldrR0R0 : BitVec 32 := 0xE5900000

/-- Physical addresses in Rosalina, which are in FCRAM, and the kernel's minor version. -/
structure Redirector where
  hidData : BitVec 32
  hidCodePatchFunc : BitVec 32
  irCodePatchFunc : BitVec 32
  syncHookCode : BitVec 32
  kernelVersionMinor : ℕ
  syncHookCode_ne : syncHookCode ≠ movR0Zero

/-- The mapping of a process: its result, and the size that the process tells. -/
structure MapAnswers where
  svcMapProcessMemoryEx : Result
  totalSize : ℕ

/-! ## The patches of `hid` -/

def hidOrigRegisterAndValue : List (BitVec 32) := [0x1EC46000, 0x4001]

def hidOrigCode : List (BitVec 32) :=
  [0xE92D4070, 0xE1A05001, 0xEE1D4F70, 0xE3A01801, 0xE5A41080]

def hidHook (p : Redirector) : List (BitVec 32) :=
  [0xE59F3004, 0xE59FC004, 0xE12FFF1C, p.hidData, p.hidCodePatchFunc]

/-- Where the patches go, as offsets into the process. -/
structure HidSites where
  reg0 : ℕ
  reg1 : ℕ
  jump : ℕ

/-- The code of the process, and the sites once they have been found. -/
structure HidState where
  code : Memory
  sites : Option HidSites

def findHidSites (m : Memory) (totalSize : ℕ) : Except Result HidSites :=
  match memsearch m 0 totalSize hidOrigRegisterAndValue with
  | none => .error (-1)
  | some off =>
    match memsearch m (off + 8) (totalSize - off) hidOrigRegisterAndValue with
    | none => .error (-2)
    | some off2 =>
      match memsearch m 0 totalSize hidOrigCode with
      | none => .error (-3)
      | some off3 => .ok ⟨off, off2, off3⟩

def HidState.prepare (h : HidState) (totalSize : ℕ) : Except Result HidSites :=
  match h.sites with
  | some sites => .ok sites
  | none => findHidSites h.code totalSize

def HidSites.patch (p : Redirector) (sites : HidSites) (m : Memory) : Memory :=
  writeWords (writeWords (writeWords m sites.reg1 [p.hidData]) sites.reg0 [p.hidData]) sites.jump
    (hidHook p)

def HidSites.restore (sites : HidSites) (m : Memory) : Memory :=
  writeWords (writeWords (writeWords m sites.reg0 hidOrigRegisterAndValue) sites.reg1
    hidOrigRegisterAndValue) sites.jump hidOrigCode

def doUndoHidPatches (p : Redirector) (e : MapAnswers) (doPatches : Bool) (h : HidState) :
    Result × HidState :=
  if rFailed e.svcMapProcessMemoryEx then (e.svcMapProcessMemoryEx, h)
  else
    match h.prepare e.totalSize with
    | .error res => (res, h)
    | .ok sites =>
      (e.svcMapProcessMemoryEx,
        { code := if doPatches then sites.patch p h.code else sites.restore h.code
          sites := some sites })

/-! ## The patches of `ir` -/

/-- `irOrigReadingCode` without the branch. -/
def irOrigReadingCode : List (BitVec 32) := [0xE5940000, 0xE1A01005, 0xE3A03005, 0xE3A02011]

def irOrigWaitSyncCode : List (BitVec 32) := [0xEF000024, 0xE1B01FA0, 0xE1A0A000]

def irOrigWaitSyncCodeOld : List (BitVec 32) := [0xE0AC6000, 0xE5D70000]

def irOrigCppFlagCode : List (BitVec 32) := [0xE3550000, 0xE3A0B080]

def irHook (p : Redirector) : List (BitVec 32) :=
  [0xE5940000, 0xE1A01005, 0xE59FC000, 0xE12FFF3C, p.irCodePatchFunc]

/-- Where the patches go, and the words kept to undo them. -/
structure IrSites where
  hook : ℕ
  sync : ℕ
  cppFlag : ℕ
  branch : BitVec 32
  origIrSync : BitVec 32
  origCppFlag : BitVec 32

structure IrState where
  code : Memory
  sites : Option IrSites

def findIrSync (m : Memory) (totalSize : ℕ) : Option ℕ :=
  (memsearch m 0 totalSize irOrigWaitSyncCode).or (memsearch m 0 totalSize irOrigWaitSyncCodeOld)

def findIrSites (m : Memory) (totalSize : ℕ) : Except Result IrSites :=
  match memsearch m 0 totalSize irOrigReadingCode with
  | none => .error (-1)
  | some off =>
    match findIrSync m totalSize with
    | none => .error (-2)
    | some off2 =>
      match memsearch m 0 totalSize irOrigCppFlagCode with
      | none => .error (-3)
      | some off3 =>
        .ok ⟨off, off2, off3, readWord m (off + 16), readWord m off2, readWord m off3⟩

def IrState.prepare (h : IrState) (totalSize : ℕ) : Except Result IrSites :=
  match h.sites with
  | some sites => .ok sites
  | none => findIrSites h.code totalSize

/-- The wait is hooked, or left out where it is the check of a previous one. -/
def IrSites.patchSync (p : Redirector) (sites : IrSites) (m : Memory) : Memory :=
  if readWord m sites.sync = svc24 then
    writeWords m (sites.sync - 4) [0xE51FF004, p.syncHookCode]
  else writeWords m sites.sync [movR0Zero]

def IrSites.restoreSync (sites : IrSites) (m : Memory) : Memory :=
  if readWord m sites.sync = movR0Zero then writeWords m sites.sync [sites.origIrSync]
  else writeWords m (sites.sync - 4) [ldrR0R0, svc24]

def IrSites.patch (p : Redirector) (sites : IrSites) (m : Memory) : Memory :=
  writeWords (sites.patchSync p (writeWords m sites.hook (irHook p))) sites.cppFlag [0xE3150000]

def IrSites.restore (sites : IrSites) (m : Memory) : Memory :=
  writeWords
    (sites.restoreSync (writeWords m sites.hook (irOrigReadingCode ++ [sites.branch])))
    sites.cppFlag [sites.origCppFlag]

def doUndoIrPatches (p : Redirector) (e : MapAnswers) (doPatch : Bool) (h : IrState) :
    Result × IrState :=
  if rFailed e.svcMapProcessMemoryEx then (e.svcMapProcessMemoryEx, h)
  else
    match h.prepare e.totalSize with
    | .error res => (res, h)
    | .ok sites =>
      (e.svcMapProcessMemoryEx,
        { code := if doPatch then sites.patch p h.code else sites.restore h.code
          sites := some sites })

/-! ## Enabling and disabling -/

structure Redirection where
  hid : HidState
  ir : IrState
  hidPatched : Bool
  irPatched : Bool
  inputRedirectionEnabled : Bool

def Redirection.boot (hid ir : Memory) : Redirection := ⟨⟨hid, none⟩, ⟨ir, none⟩, false, false, false⟩

structure PatchAnswers where
  openHid : Result
  openIr : Result
  hid : MapAnswers
  ir : MapAnswers
  rollback : MapAnswers

def doOrUndoPatches (p : Redirector) (e : PatchAnswers) (s : Redirection) :
    Result × Redirection :=
  if rFailed e.openHid then (e.openHid, s)
  else if rFailed e.openIr then (e.openIr, s)
  else
    let (res, hid) := doUndoHidPatches p e.hid (!s.hidPatched) s.hid
    if rFailed res then (res, { s with hid := hid })
    else
      let s := { s with hid := hid, hidPatched := !s.hidPatched }
      if p.kernelVersionMinor < 44 then (res, s)
      else
        let (res, ir) := doUndoIrPatches p e.ir (!s.irPatched) s.ir
        if !rFailed res then (res, { s with ir := ir, irPatched := !s.irPatched })
        else if !s.irPatched then
          (res, { s with
            ir := ir
            hid := (doUndoHidPatches p e.rollback false s.hid).2
            hidPatched := false })
        else (res, { s with ir := ir })

/-- The menu entry where the redirection is not enabled: the patches, the event, and the thread,
whose start has a result. The patches are undone where it does not start. -/
def enable (p : Redirector) (e : PatchAnswers) (createEvent start : Result) (undo : PatchAnswers)
    (s : Redirection) : Redirection :=
  let (res, s) := doOrUndoPatches p e s
  if rFailed res then s
  else if rFailed createEvent then s
  else if start ≠ 0 then
    { (doOrUndoPatches p undo s).2 with inputRedirectionEnabled := false }
  else { s with inputRedirectionEnabled := true }

/-- `InputRedirection_Disable` -/
def disable (p : Redirector) (e : PatchAnswers) (join : Result) (s : Redirection) :
    Result × Redirection :=
  if !s.inputRedirectionEnabled then (0, s)
  else
    let (res, s) := doOrUndoPatches p e s
    if rFailed res then (res, s)
    else (join, { s with inputRedirectionEnabled := false })

inductive RedirectionCall where
  | enable (e : PatchAnswers) (createEvent start : Result) (undo : PatchAnswers)
  | disable (e : PatchAnswers) (join : Result)
  /-- The thread leaves its loop on an error of the socket service. -/
  | threadEnds

def redirectionStep (p : Redirector) (s : Redirection) : RedirectionCall → Option Redirection
  | .enable e createEvent start undo =>
    if s.inputRedirectionEnabled then none else some (enable p e createEvent start undo s)
  | .disable e join => some (disable p e join s).2
  | .threadEnds =>
    if s.inputRedirectionEnabled then some { s with inputRedirectionEnabled := false } else none

/-! ## What is restored -/

section Hid
variable {m m' : Memory} {sites : HidSites} {totalSize : ℕ}

/-- The sites hold what the patches replace. -/
structure HidSites.Fits (sites : HidSites) (m : Memory) : Prop where
  reg0 : holds m sites.reg0 hidOrigRegisterAndValue = true
  reg1 : holds m sites.reg1 hidOrigRegisterAndValue = true
  jump : holds m sites.jump hidOrigCode = true

def HidSites.touched (sites : HidSites) : Set ℕ :=
  span sites.reg0 2 ∪ (span sites.reg1 2 ∪ (span sites.jump 5 ∪ ∅))

theorem findHidSites_fits (h : findHidSites m totalSize = .ok sites) : sites.Fits m := by
  unfold findHidSites at h
  split at h
  · cases h
  · rename_i off hoff
    split at h
    · cases h
    · rename_i off2 hoff2
      split at h
      · cases h
      · rename_i off3 hoff3
        cases h
        exact ⟨holds_of_memsearch hoff, holds_of_memsearch hoff2, holds_of_memsearch hoff3⟩

theorem HidSites.patch_eqOn (p : Redirector) (sites : HidSites) (m : Memory) :
    Set.EqOn (sites.patch p m) m sites.touchedᶜ := by
  apply eqOn_writeWords _ (fun a ha => .inr (.inr (.inl ha)))
  apply eqOn_writeWords _ (fun a ha => .inl (span_mono (Nat.le_succ 1) ha))
  exact eqOn_writeWords (Set.eqOn_refl _ _) (fun a ha => .inr (.inl (span_mono (Nat.le_succ 1) ha)))

theorem HidSites.restore_eq (h : sites.Fits m) (hm : Set.EqOn m' m sites.touchedᶜ) :
    sites.restore m' = m := by
  apply eq_of_eqOn_empty
  exact eqOn_restored (eqOn_restored (eqOn_restored hm h.reg0) h.reg1) h.jump

end Hid

section Ir
variable {m m' : Memory} {sites : IrSites} {totalSize : ℕ}

/-- The sites hold what the patches replace, and the words kept are those replaced. -/
structure IrSites.Fits (sites : IrSites) (m : Memory) : Prop where
  hook : holds m sites.hook (irOrigReadingCode ++ [sites.branch]) = true
  sync : holds m sites.sync [sites.origIrSync] = true
  syncWord : sites.origIrSync ≠ movR0Zero
  cppFlag : holds m sites.cppFlag [sites.origCppFlag] = true

/-- The wait is apart from the other sites. -/
structure IrSites.Apart (sites : IrSites) : Prop where
  inside : 4 ≤ sites.sync
  hook : sites.sync + 4 ≤ sites.hook ∨ sites.hook + 24 ≤ sites.sync
  cppFlag : sites.sync + 4 ≤ sites.cppFlag ∨ sites.cppFlag + 8 ≤ sites.sync

/-- What the patches take for granted: a hooked wait comes after `ldr r0, [r0]`, which is what is
written back before it, and the wait is apart from the other sites. -/
structure IrSites.Regular (sites : IrSites) (m : Memory) : Prop extends sites.Apart where
  ldr : readWord m sites.sync = svc24 → readWord m (sites.sync - 4) = ldrR0R0

/-- The words that are replaced at the wait. -/
def IrSites.wait (sites : IrSites) (m : Memory) : Set ℕ :=
  if readWord m sites.sync = svc24 then span (sites.sync - 4) 2 else span sites.sync 1

def IrSites.touched (sites : IrSites) (m : Memory) : Set ℕ :=
  span sites.hook 5 ∪ (sites.wait m ∪ (span sites.cppFlag 1 ∪ ∅))

theorem findIrSync_word {off : ℕ} (h : findIrSync m totalSize = some off) :
    readWord m off ≠ movR0Zero := by
  rcases Option.or_eq_some_iff.mp h with h | ⟨-, h⟩
  · rw [readWord_of_holds (holds_of_memsearch h)]
    decide
  · rw [readWord_of_holds (holds_of_memsearch h)]
    decide

theorem findIrSites_fits (h : findIrSites m totalSize = .ok sites) : sites.Fits m := by
  unfold findIrSites at h
  split at h
  · cases h
  · rename_i off hoff
    split at h
    · cases h
    · rename_i off2 hoff2
      split at h
      · cases h
      · rename_i off3 hoff3
        cases h
        exact ⟨holds_concat (holds_of_memsearch hoff), holds_readWord m off2,
          findIrSync_word hoff2, holds_readWord m off3⟩

theorem IrSites.Apart.readWord_eq (h : sites.Apart)
    (hm : Set.EqOn m' m (span sites.hook 5 ∪ span sites.cppFlag 1)ᶜ) :
    readWord m' sites.sync = readWord m sites.sync := by
  apply readWord_congr
  rintro a ⟨hle, hlt⟩
  have hhook := h.hook
  have hcpp := h.cppFlag
  apply hm
  rintro (⟨hle', hlt'⟩ | ⟨hle', hlt'⟩)
  · omega
  · omega

theorem IrSites.Apart.writeHook (h : sites.Apart) {ws : List (BitVec 32)} (hlen : ws.length = 5)
    (m : Memory) : readWord (writeWords m sites.hook ws) sites.sync = readWord m sites.sync :=
  h.readWord_eq (eqOn_writeWords (Set.eqOn_refl _ _) fun _ ha => .inl (hlen ▸ ha))

theorem IrSites.Apart.writeFlag (h : sites.Apart) (w : BitVec 32) (m : Memory) :
    readWord (writeWords m sites.cppFlag [w]) sites.sync = readWord m sites.sync :=
  h.readWord_eq (eqOn_writeWords (Set.eqOn_refl _ _) fun _ ha => .inr ha)

theorem IrSites.Apart.writeWait (h : sites.Apart) (v w : BitVec 32) (m : Memory) :
    readWord (writeWords m (sites.sync - 4) [v, w]) sites.sync = w := by
  have htail := holds_tail (holds_writeWords m (sites.sync - 4) [v, w])
  rw [Nat.sub_add_cancel h.inside] at htail
  exact readWord_of_holds htail

theorem IrSites.Apart.patch_eqOn (h : sites.Apart) (p : Redirector) (m : Memory) :
    Set.EqOn (sites.patch p m) m (sites.touched m)ᶜ := by
  have hhook : Set.EqOn (writeWords m sites.hook (irHook p)) m (sites.touched m)ᶜ :=
    eqOn_writeWords (Set.eqOn_refl _ _) fun a ha => .inl ha
  apply eqOn_writeWords _ (fun a ha => .inr (.inr (.inl ha)))
  have hwait (a : ℕ) (ha : a ∈ sites.wait m) : a ∈ sites.touched m := .inr (.inl ha)
  rw [IrSites.patchSync, h.writeHook rfl]
  rw [IrSites.wait] at hwait
  split_ifs at hwait ⊢
  · exact eqOn_writeWords hhook hwait
  · exact eqOn_writeWords hhook hwait

theorem IrSites.Apart.patch_word (h : sites.Apart) (p : Redirector) (m : Memory) :
    readWord (sites.patch p m) sites.sync =
      if readWord m sites.sync = svc24 then p.syncHookCode else movR0Zero := by
  rw [IrSites.patch, h.writeFlag, IrSites.patchSync, h.writeHook rfl]
  split_ifs
  · exact h.writeWait ..
  · exact readWord_of_holds (holds_writeWords ..)

theorem IrSites.Regular.restoreSync_eqOn (h : sites.Regular m) (hfits : sites.Fits m)
    {p : Redirector} {R : Set ℕ} (hm : Set.EqOn m' m (sites.wait m ∪ R)ᶜ)
    (hword : readWord m' sites.sync =
      if readWord m sites.sync = svc24 then p.syncHookCode else movR0Zero) :
    Set.EqOn (sites.restoreSync m') m Rᶜ := by
  unfold IrSites.restoreSync
  unfold IrSites.wait at hm
  by_cases hsvc : readWord m sites.sync = svc24
  · have hheld := holds_concat (holds_readWord m (sites.sync - 4))
    rw [List.length_singleton, Nat.mul_one, Nat.sub_add_cancel h.inside, h.ldr hsvc, hsvc]
      at hheld
    rw [if_pos hsvc] at hword hm
    rw [if_neg (hword.trans_ne p.syncHookCode_ne)]
    exact eqOn_restored hm hheld
  · rw [if_neg hsvc] at hword hm
    rw [if_pos hword]
    exact eqOn_restored hm hfits.sync

theorem IrSites.Regular.restore_patch (h : sites.Regular m) (hfits : sites.Fits m)
    (p : Redirector) : sites.restore (sites.patch p m) = m := by
  apply eq_of_eqOn_empty
  apply eqOn_restored _ hfits.cppFlag
  apply h.restoreSync_eqOn (p := p) hfits
  · exact eqOn_restored (h.patch_eqOn p m) hfits.hook
  · rw [h.writeHook rfl]
    exact h.patch_word p m

end Ir

/-! ## One process -/

section Processes
variable {p : Redirector} {m : Memory} {e : MapAnswers}

/-- The code is the original; the sites, where they have been found, are its sites. -/
def HidState.Original (m : Memory) (h : HidState) : Prop :=
  h.code = m ∧ ∀ sites, h.sites = some sites → sites.Fits m

def HidState.Patched (p : Redirector) (m : Memory) (h : HidState) : Prop :=
  ∃ sites, h.sites = some sites ∧ sites.Fits m ∧ h.code = sites.patch p m

def IrState.Original (m : Memory) (h : IrState) : Prop :=
  h.code = m ∧ ∀ sites, h.sites = some sites → sites.Fits m ∧ sites.Regular m

def IrState.Patched (p : Redirector) (m : Memory) (h : IrState) : Prop :=
  ∃ sites, h.sites = some sites ∧ (sites.Fits m ∧ sites.Regular m) ∧ h.code = sites.patch p m

/-- The process is mapped and its sites are found. -/
def HidState.Reachable (e : MapAnswers) (h : HidState) : Prop :=
  rFailed e.svcMapProcessMemoryEx = false ∧ ∃ sites, h.prepare e.totalSize = .ok sites

def IrState.Reachable (e : MapAnswers) (h : IrState) : Prop :=
  rFailed e.svcMapProcessMemoryEx = false ∧ ∃ sites, h.prepare e.totalSize = .ok sites

theorem findHidSites_failed {totalSize : ℕ} {res : Result}
    (h : findHidSites m totalSize = .error res) : rFailed res = true := by
  unfold findHidSites at h
  split at h
  · cases h
    rfl
  · split at h
    · cases h
      rfl
    · split at h
      · cases h
        rfl
      · cases h

theorem findIrSites_failed {totalSize : ℕ} {res : Result}
    (h : findIrSites m totalSize = .error res) : rFailed res = true := by
  unfold findIrSites at h
  split at h
  · cases h
    rfl
  · split at h
    · cases h
      rfl
    · split at h
      · cases h
        rfl
      · cases h

theorem HidState.prepare_failed {h : HidState} {n : ℕ} {res : Result}
    (hp : h.prepare n = .error res) : rFailed res = true := by
  unfold HidState.prepare at hp
  split at hp
  · cases hp
  · exact findHidSites_failed hp

theorem IrState.prepare_failed {h : IrState} {n : ℕ} {res : Result}
    (hp : h.prepare n = .error res) : rFailed res = true := by
  unfold IrState.prepare at hp
  split at hp
  · cases hp
  · exact findIrSites_failed hp

theorem doUndoHidPatches_failed {h : HidState} (b : Bool) (hr : ¬ h.Reachable e) :
    rFailed (doUndoHidPatches p e b h).1 = true ∧ (doUndoHidPatches p e b h).2 = h := by
  unfold doUndoHidPatches
  by_cases hmap : rFailed e.svcMapProcessMemoryEx = true
  · rw [if_pos hmap]
    exact ⟨hmap, rfl⟩
  · rw [if_neg hmap]
    cases hp : h.prepare e.totalSize with
    | error res => exact ⟨HidState.prepare_failed hp, rfl⟩
    | ok sites => exact absurd ⟨Bool.eq_false_of_not_eq_true hmap, sites, hp⟩ hr

theorem doUndoIrPatches_failed {h : IrState} (b : Bool) (hr : ¬ h.Reachable e) :
    rFailed (doUndoIrPatches p e b h).1 = true ∧ (doUndoIrPatches p e b h).2 = h := by
  unfold doUndoIrPatches
  by_cases hmap : rFailed e.svcMapProcessMemoryEx = true
  · rw [if_pos hmap]
    exact ⟨hmap, rfl⟩
  · rw [if_neg hmap]
    cases hp : h.prepare e.totalSize with
    | error res => exact ⟨IrState.prepare_failed hp, rfl⟩
    | ok sites => exact absurd ⟨Bool.eq_false_of_not_eq_true hmap, sites, hp⟩ hr

theorem doUndoHidPatches_eq {h : HidState} {sites : HidSites} (b : Bool)
    (hmap : rFailed e.svcMapProcessMemoryEx = false) (hp : h.prepare e.totalSize = .ok sites) :
    doUndoHidPatches p e b h = (e.svcMapProcessMemoryEx,
      ⟨if b then sites.patch p h.code else sites.restore h.code, some sites⟩) := by
  rw [doUndoHidPatches, hmap, if_neg Bool.false_ne_true, hp]

theorem doUndoIrPatches_eq {h : IrState} {sites : IrSites} (b : Bool)
    (hmap : rFailed e.svcMapProcessMemoryEx = false) (hp : h.prepare e.totalSize = .ok sites) :
    doUndoIrPatches p e b h = (e.svcMapProcessMemoryEx,
      ⟨if b then sites.patch p h.code else sites.restore h.code, some sites⟩) := by
  rw [doUndoIrPatches, hmap, if_neg Bool.false_ne_true, hp]

theorem HidState.Original.prepare_fits {h : HidState} (ho : h.Original m) {n : ℕ}
    {sites : HidSites} (hp : h.prepare n = .ok sites) : sites.Fits m := by
  unfold HidState.prepare at hp
  split at hp
  · rename_i found hfound
    cases hp
    exact ho.2 _ hfound
  · exact findHidSites_fits (ho.1 ▸ hp)

theorem IrState.Original.prepare_fits {h : IrState} (ho : h.Original m) {n : ℕ}
    {sites : IrSites} (hp : h.prepare n = .ok sites) : sites.Fits m := by
  unfold IrState.prepare at hp
  split at hp
  · rename_i found hfound
    cases hp
    exact (ho.2 _ hfound).1
  · exact findIrSites_fits (ho.1 ▸ hp)

theorem HidState.Original.patch {h : HidState} (ho : h.Original m) (hr : h.Reachable e) :
    rFailed (doUndoHidPatches p e true h).1 = false ∧
      (doUndoHidPatches p e true h).2.Patched p m := by
  obtain ⟨hmap, sites, hp⟩ := hr
  rw [doUndoHidPatches_eq true hmap hp]
  exact ⟨hmap, sites, rfl, ho.prepare_fits hp, congrArg (sites.patch p) ho.1⟩

theorem HidState.Patched.prepare {h : HidState} (hpatched : h.Patched p m) (n : ℕ) :
    ∃ sites, h.prepare n = .ok sites ∧ sites.Fits m ∧ h.code = sites.patch p m := by
  obtain ⟨sites, hsites, hfits, hcode⟩ := hpatched
  refine ⟨sites, ?_, hfits, hcode⟩
  rw [HidState.prepare, hsites]

theorem HidState.Patched.restore {h : HidState} (hpatched : h.Patched p m)
    (hmap : rFailed e.svcMapProcessMemoryEx = false) :
    rFailed (doUndoHidPatches p e false h).1 = false ∧
      (doUndoHidPatches p e false h).2.Original m := by
  obtain ⟨sites, hp, hfits, hcode⟩ := hpatched.prepare e.totalSize
  rw [doUndoHidPatches_eq false hmap hp]
  refine ⟨hmap, ?_, ?_⟩
  · show sites.restore h.code = m
    rw [hcode]
    exact HidSites.restore_eq hfits (HidSites.patch_eqOn p sites m)
  · rintro _ ⟨rfl⟩
    exact hfits

theorem IrState.Original.patch {h : IrState} (ho : h.Original m) (hr : h.Reachable e)
    (hregular : ∀ sites, h.prepare e.totalSize = .ok sites → sites.Regular h.code) :
    rFailed (doUndoIrPatches p e true h).1 = false ∧
      (doUndoIrPatches p e true h).2.Patched p m := by
  obtain ⟨hmap, sites, hp⟩ := hr
  have hreg := hregular sites hp
  rw [ho.1] at hreg
  rw [doUndoIrPatches_eq true hmap hp]
  exact ⟨hmap, sites, rfl, ⟨ho.prepare_fits hp, hreg⟩, congrArg (sites.patch p) ho.1⟩

theorem IrState.Patched.prepare {h : IrState} (hpatched : h.Patched p m) (n : ℕ) :
    ∃ sites, h.prepare n = .ok sites ∧ (sites.Fits m ∧ sites.Regular m) ∧
      h.code = sites.patch p m := by
  obtain ⟨sites, hsites, hfits, hcode⟩ := hpatched
  refine ⟨sites, ?_, hfits, hcode⟩
  rw [IrState.prepare, hsites]

theorem IrState.Patched.restore {h : IrState} (hpatched : h.Patched p m)
    (hmap : rFailed e.svcMapProcessMemoryEx = false) :
    rFailed (doUndoIrPatches p e false h).1 = false ∧
      (doUndoIrPatches p e false h).2.Original m := by
  obtain ⟨sites, hp, ⟨hfits, hregular⟩, hcode⟩ := hpatched.prepare e.totalSize
  rw [doUndoIrPatches_eq false hmap hp]
  refine ⟨hmap, ?_, ?_⟩
  · show sites.restore h.code = m
    rw [hcode]
    exact hregular.restore_patch hfits p
  · rintro _ ⟨rfl⟩
    exact ⟨hfits, hregular⟩

end Processes

/-! ## The processes over a sequence of calls -/

/-- Both processes hold their original code, or both that code patched. -/
def InStep (p : Redirector) (hid ir : Memory) (s : Redirection) : Prop :=
  (s.hid.code = hid ∧ s.ir.code = ir) ∨
    ∃ hidSites irSites, s.hid.sites = some hidSites ∧ s.ir.sites = some irSites ∧
      s.hid.code = hidSites.patch p hid ∧ s.ir.code = irSites.patch p ir

/-- The processes are in step after each call, and hold their original code after a successful
disabling. -/
structure RedirectionLaw (p : Redirector) (hid ir : Memory) (s : Redirection)
    (c : RedirectionCall) (t : Redirection) : Prop where
  inStep : InStep p hid ir t
  disabled : ∀ e join, c = .disable e join → rFailed (disable p e join s).1 = false →
    t.hid.code = hid ∧ t.ir.code = ir

/-- The call gets as far as to change `hid`. -/
def PatchAnswers.ReachesHid (e : PatchAnswers) (s : Redirection) : Prop :=
  rFailed e.openHid = false ∧ rFailed e.openIr = false ∧ s.hid.Reachable e.hid

/-- A call to disable that changes `hid` can change `ir`. A call to enable that changes `hid` can
change `ir`, whose code is as the patches take for granted, or can map `hid` again; where it has
patched both, the event is created, and where the thread does not start both can be mapped again.
The thread does not end by itself. -/
def RedirectionCondition (s : Redirection) : RedirectionCall → Prop
  | .enable e createEvent start undo =>
    (e.ReachesHid s → s.ir.Reachable e.ir ∨ rFailed e.rollback.svcMapProcessMemoryEx = false) ∧
      (∀ sites, s.ir.prepare e.ir.totalSize = .ok sites → sites.Regular s.ir.code) ∧
      (e.ReachesHid s → s.ir.Reachable e.ir → rFailed createEvent = false ∧
        (start ≠ 0 → rFailed undo.openHid = false ∧ rFailed undo.openIr = false ∧
          rFailed undo.hid.svcMapProcessMemoryEx = false ∧
          rFailed undo.ir.svcMapProcessMemoryEx = false))
  | .disable e _ => s.inputRedirectionEnabled = true → e.ReachesHid s → s.ir.Reachable e.ir
  | .threadEnds => False

section Calls
variable {p : Redirector} {hid ir : Memory} {e : PatchAnswers} {s t : Redirection}

/-- Both processes hold their original code, and the toggles say so. -/
structure Off (hid ir : Memory) (s : Redirection) : Prop where
  hid : s.hid.Original hid
  ir : s.ir.Original ir
  hidPatched : s.hidPatched = false
  irPatched : s.irPatched = false

structure On (p : Redirector) (hid ir : Memory) (s : Redirection) : Prop where
  hid : s.hid.Patched p hid
  ir : s.ir.Patched p ir
  hidPatched : s.hidPatched = true
  irPatched : s.irPatched = true

theorem Off.inStep (h : Off hid ir s) : InStep p hid ir s := .inl ⟨h.hid.1, h.ir.1⟩

theorem On.inStep (h : On p hid ir s) : InStep p hid ir s := by
  obtain ⟨hidSites, hhid, -, hhidCode⟩ := h.hid
  obtain ⟨irSites, hir, -, hirCode⟩ := h.ir
  exact .inr ⟨hidSites, irSites, hhid, hir, hhidCode, hirCode⟩

theorem doOrUndoPatches_early (hreach : ¬ e.ReachesHid s) :
    rFailed (doOrUndoPatches p e s).1 = true ∧ (doOrUndoPatches p e s).2 = s := by
  unfold doOrUndoPatches
  by_cases hopenHid : rFailed e.openHid = true
  · rw [if_pos hopenHid]
    exact ⟨hopenHid, rfl⟩
  · rw [if_neg hopenHid]
    by_cases hopenIr : rFailed e.openIr = true
    · rw [if_pos hopenIr]
      exact ⟨hopenIr, rfl⟩
    · obtain ⟨hfailed, hsame⟩ := doUndoHidPatches_failed (p := p) (e := e.hid) (h := s.hid)
        (!s.hidPatched) fun hr => hreach
          ⟨Bool.eq_false_of_not_eq_true hopenHid, Bool.eq_false_of_not_eq_true hopenIr, hr⟩
      rw [if_neg hopenIr]
      dsimp only
      rw [if_pos hfailed, hsame]
      exact ⟨hfailed, rfl⟩

theorem doOrUndoPatches_late (hkernel : 44 ≤ p.kernelVersionMinor) (hreach : e.ReachesHid s)
    (hhid : rFailed (doUndoHidPatches p e.hid (!s.hidPatched) s.hid).1 = false) :
    doOrUndoPatches p e s =
      (let h := (doUndoHidPatches p e.hid (!s.hidPatched) s.hid).2
       let (res, ir) := doUndoIrPatches p e.ir (!s.irPatched) s.ir
       if !rFailed res then
         (res, { s with hid := h, hidPatched := !s.hidPatched, ir := ir, irPatched := !s.irPatched })
       else if !s.irPatched then
         (res, { s with
           ir := ir, hid := (doUndoHidPatches p e.rollback false h).2, hidPatched := false })
       else (res, { s with hid := h, hidPatched := !s.hidPatched, ir := ir })) := by
  unfold doOrUndoPatches
  rw [if_neg (ne_true_of_eq_false hreach.1), if_neg (ne_true_of_eq_false hreach.2.1)]
  dsimp only
  rw [if_neg (ne_true_of_eq_false hhid), if_neg (not_lt.mpr hkernel)]

theorem Off.turnOn (hkernel : 44 ≤ p.kernelVersionMinor) (h : Off hid ir s)
    (hrollback : e.ReachesHid s →
      s.ir.Reachable e.ir ∨ rFailed e.rollback.svcMapProcessMemoryEx = false)
    (hregular : ∀ sites, s.ir.prepare e.ir.totalSize = .ok sites → sites.Regular s.ir.code) :
    (rFailed (doOrUndoPatches p e s).1 = true ∧ Off hid ir (doOrUndoPatches p e s).2) ∨
      (rFailed (doOrUndoPatches p e s).1 = false ∧ On p hid ir (doOrUndoPatches p e s).2 ∧
        e.ReachesHid s ∧ s.ir.Reachable e.ir) := by
  by_cases hreach : e.ReachesHid s
  · obtain ⟨hok, hpatched⟩ := h.hid.patch (p := p) hreach.2.2
    have heq := doOrUndoPatches_late hkernel hreach (by
      rw [h.hidPatched]
      exact hok)
    rw [h.hidPatched, h.irPatched] at heq
    by_cases hir : s.ir.Reachable e.ir
    · obtain ⟨hirOk, hirPatched⟩ := h.ir.patch (p := p) hir hregular
      dsimp only at heq
      rw [Bool.not_false, hirOk, Bool.not_false, if_pos rfl] at heq
      rw [heq]
      exact .inr ⟨hirOk, ⟨hpatched, hirPatched, rfl, rfl⟩, hreach, hir⟩
    · obtain ⟨hfailed, hsame⟩ := doUndoIrPatches_failed (p := p) true hir
      obtain ⟨-, horiginal⟩ := hpatched.restore ((hrollback hreach).resolve_left hir)
      dsimp only at heq
      rw [Bool.not_false, hfailed, Bool.not_true, if_neg Bool.false_ne_true, if_pos rfl,
        hsame] at heq
      rw [heq]
      exact .inl ⟨hfailed, horiginal, h.ir, rfl, rfl⟩
  · obtain ⟨hfailed, hsame⟩ := doOrUndoPatches_early (p := p) hreach
    rw [hsame]
    exact .inl ⟨hfailed, h⟩

theorem On.turnOff (hkernel : 44 ≤ p.kernelVersionMinor) (h : On p hid ir s)
    (hir : e.ReachesHid s → s.ir.Reachable e.ir) :
    (rFailed (doOrUndoPatches p e s).1 = true ∧ (doOrUndoPatches p e s).2 = s ∧
        ¬ e.ReachesHid s) ∨
      (rFailed (doOrUndoPatches p e s).1 = false ∧ Off hid ir (doOrUndoPatches p e s).2) := by
  by_cases hreach : e.ReachesHid s
  · obtain ⟨hok, hrestored⟩ := h.hid.restore hreach.2.2.1
    obtain ⟨hirOk, hirRestored⟩ := h.ir.restore (hir hreach).1
    have heq := doOrUndoPatches_late hkernel hreach (by
      rw [h.hidPatched]
      exact hok)
    rw [h.hidPatched, h.irPatched] at heq
    dsimp only at heq
    rw [Bool.not_true, hirOk, Bool.not_false, if_pos rfl] at heq
    rw [heq]
    exact .inr ⟨hirOk, hrestored, hirRestored, rfl, rfl⟩
  · obtain ⟨hfailed, hsame⟩ := doOrUndoPatches_early (p := p) hreach
    exact .inl ⟨hfailed, hsame, hreach⟩

/-- The state `inputRedirectionEnabled` says. -/
def RedirectionInv (p : Redirector) (hid ir : Memory) (s : Redirection) : Prop :=
  if s.inputRedirectionEnabled then On p hid ir s else Off hid ir s

theorem RedirectionInv.inStep (h : RedirectionInv p hid ir s) : InStep p hid ir s := by
  unfold RedirectionInv at h
  split_ifs at h
  · exact h.inStep
  · exact h.inStep

theorem doOrUndoPatches_enabled (p : Redirector) (e : PatchAnswers) (s : Redirection) :
    (doOrUndoPatches p e s).2.inputRedirectionEnabled = s.inputRedirectionEnabled := by
  unfold doOrUndoPatches
  dsimp only
  split_ifs <;> rfl

theorem Off.enable (hkernel : 44 ≤ p.kernelVersionMinor) {createEvent start : Result}
    {undo : PatchAnswers} (henabled : s.inputRedirectionEnabled = false) (h : Off hid ir s)
    (hc : RedirectionCondition s (.enable e createEvent start undo)) :
    RedirectionInv p hid ir (enable p e createEvent start undo s) := by
  obtain ⟨hrollback, hregular, hrest⟩ := hc
  have hsame := doOrUndoPatches_enabled p e s
  unfold Rosalina.enable
  dsimp only
  rcases h.turnOn hkernel hrollback hregular with ⟨hfailed, hoff⟩ | ⟨hok, hon, hh, hi⟩
  · rw [if_pos hfailed, RedirectionInv, hsame, henabled, if_neg Bool.false_ne_true]
    exact hoff
  · obtain ⟨hevent, hundo⟩ := hrest hh hi
    rw [if_neg (ne_true_of_eq_false hok), if_neg (ne_true_of_eq_false hevent)]
    by_cases hstart : start = 0
    · rw [if_neg (not_not.mpr hstart), RedirectionInv, if_pos rfl]
      exact ⟨hon.hid, hon.ir, hon.hidPatched, hon.irPatched⟩
    · obtain ⟨hopenHid, hopenIr, hmapHid, hmapIr⟩ := hundo hstart
      obtain ⟨hidSites, hhid, -⟩ := hon.hid.prepare undo.hid.totalSize
      obtain ⟨irSites, hir, -⟩ := hon.ir.prepare undo.ir.totalSize
      have hreach : undo.ReachesHid (doOrUndoPatches p e s).2 :=
        ⟨hopenHid, hopenIr, hmapHid, hidSites, hhid⟩
      rw [if_pos hstart, RedirectionInv, if_neg Bool.false_ne_true]
      rcases hon.turnOff hkernel (e := undo) fun _ => ⟨hmapIr, irSites, hir⟩ with
        ⟨-, -, hnot⟩ | ⟨-, hoff⟩
      · exact absurd hreach hnot
      · exact ⟨hoff.hid, hoff.ir, hoff.hidPatched, hoff.irPatched⟩

theorem On.disable (hkernel : 44 ≤ p.kernelVersionMinor) {join : Result}
    (henabled : s.inputRedirectionEnabled = true) (h : On p hid ir s)
    (hc : RedirectionCondition s (.disable e join)) :
    RedirectionInv p hid ir (disable p e join s).2 ∧
      (rFailed (Rosalina.disable p e join s).1 = false → Off hid ir (Rosalina.disable p e join s).2) := by
  unfold Rosalina.disable
  rw [henabled, Bool.not_true, if_neg Bool.false_ne_true]
  dsimp only
  rcases h.turnOff hkernel (hc henabled) with ⟨hfailed, hsame, -⟩ | ⟨hok, hoff⟩
  · rw [if_pos hfailed, hsame, RedirectionInv, henabled, if_pos rfl]
    exact ⟨h, fun hok => absurd hfailed (ne_true_of_eq_false hok)⟩
  · have hdone := Off.mk hoff.hid hoff.ir hoff.hidPatched hoff.irPatched
    rw [if_neg (ne_true_of_eq_false hok), RedirectionInv, if_neg Bool.false_ne_true]
    exact ⟨⟨hoff.hid, hoff.ir, hoff.hidPatched, hoff.irPatched⟩, fun _ =>
      ⟨hoff.hid, hoff.ir, hoff.hidPatched, hoff.irPatched⟩⟩

theorem redirectionInv_step (hkernel : 44 ≤ p.kernelVersionMinor) {c : RedirectionCall}
    (hs : RedirectionInv p hid ir s) (hc : RedirectionCondition s c)
    (h : redirectionStep p s c = some t) :
    RedirectionInv p hid ir t ∧ RedirectionLaw p hid ir s c t := by
  cases c with
  | enable e createEvent start undo =>
    unfold redirectionStep at h
    split_ifs at h with henabled
    cases h
    have hoff : Off hid ir s := by
      rwa [RedirectionInv, if_neg henabled] at hs
    have ht := hoff.enable hkernel (Bool.eq_false_of_not_eq_true henabled) hc
    exact ⟨ht, ht.inStep, fun _ _ hcall => RedirectionCall.noConfusion hcall⟩
  | disable e join =>
    cases h
    by_cases henabled : s.inputRedirectionEnabled = true
    · rw [RedirectionInv, if_pos henabled] at hs
      obtain ⟨ht, hdone⟩ := hs.disable hkernel henabled hc
      refine ⟨ht, ht.inStep, ?_⟩
      rintro _ _ ⟨⟩ hok
      exact ⟨(hdone hok).hid.1, (hdone hok).ir.1⟩
    · have hsame : (disable p e join s).2 = s := by
        rw [disable, Bool.eq_false_of_not_eq_true henabled, Bool.not_false, if_pos rfl]
      rw [hsame]
      refine ⟨hs, hs.inStep, fun _ _ _ _ => ?_⟩
      rw [RedirectionInv, if_neg henabled] at hs
      exact ⟨hs.hid.1, hs.ir.1⟩
  | threadEnds => exact hc.elim

theorem redirectionInv_boot (p : Redirector) (hid ir : Memory) :
    RedirectionInv p hid ir (.boot hid ir) :=
  ⟨⟨rfl, fun _ h => absurd h (Option.some_ne_none _).symm⟩,
    ⟨rfl, fun _ h => absurd h (Option.some_ne_none _).symm⟩, rfl, rfl⟩

end Calls

/-- The two processes stay in step over a sequence of calls that meet the condition. -/
theorem redirection_in_step (p : Redirector) (hid ir : Memory)
    (hkernel : 44 ≤ p.kernelVersionMinor) (calls : List RedirectionCall)
    (h : Guarded (redirectionStep p) RedirectionCondition (.boot hid ir) calls) :
    AllSteps (redirectionStep p) (RedirectionLaw p hid ir) (.boot hid ir) calls := by
  apply allSteps_of_guarded (I := RedirectionInv p hid ir) _ (redirectionInv_boot p hid ir) h
  intro s c t hs hc hstep
  exact redirectionInv_step hkernel hs hc hstep

/-! ### A small pair of processes -/

def smallRedirector : Redirector := ⟨0x27000001, 0x27000100, 0x27000200, 0x27000300, 58, by decide⟩

def smallHid : Memory :=
  writeWords (fun _ => 0) 0 (hidOrigRegisterAndValue ++ hidOrigRegisterAndValue ++ hidOrigCode)

def smallIr : Memory :=
  writeWords (fun _ => 0) 0
    (irOrigReadingCode ++ [0xEB000010, ldrR0R0] ++ irOrigWaitSyncCode ++ irOrigCppFlagCode)

def allMapped : PatchAnswers := ⟨0, 0, ⟨0, 64⟩, ⟨0, 64⟩, ⟨0, 64⟩⟩

theorem findIrSites_small : findIrSites smallIr 64 =
    .ok ⟨0, 24, 36, 0xEB000010, svc24, 0xE3550000⟩ := by
  rfl

theorem redirection_in_step_small : AllSteps (redirectionStep smallRedirector)
    (RedirectionLaw smallRedirector smallHid smallIr) (.boot smallHid smallIr)
    [.enable allMapped 0 0 allMapped, .disable allMapped 0] := by
  have hkernel : 44 ≤ smallRedirector.kernelVersionMinor := by decide
  have hcond : RedirectionCondition (.boot smallHid smallIr) (.enable allMapped 0 0 allMapped) := by
    refine ⟨fun _ => .inr rfl, ?_, fun _ _ => ⟨rfl, fun hstart => absurd rfl hstart⟩⟩
    intro sites hsites
    cases findIrSites_small.symm.trans hsites
    exact ⟨⟨by decide, by decide, by decide⟩, fun _ => by decide +kernel⟩
  apply redirection_in_step smallRedirector smallHid smallIr hkernel
  intro t ht
  refine ⟨hcond, fun u _ => ⟨?_, trivial⟩⟩
  have hinv := (redirectionInv_step hkernel (redirectionInv_boot ..) hcond ht).1
  intro henabled _
  rw [RedirectionInv, if_pos henabled] at hinv
  obtain ⟨sites, hsites, -⟩ := hinv.ir.prepare 64
  exact ⟨rfl, sites, hsites⟩

theorem disable_fails_between : ¬∀ (p : Redirector) (hid ir : Memory),
    44 ≤ p.kernelVersionMinor → ∀ calls,
      AllSteps (redirectionStep p) (RedirectionLaw p hid ir) (.boot hid ir) calls := by
  intro h
  have hbad : (run (redirectionStep smallRedirector) (.boot smallHid smallIr)
      [.enable allMapped 0 0 allMapped]).any (fun s =>
        (redirectionStep smallRedirector s (.disable { allMapped with ir := ⟨-1, 64⟩ } 0)).any
          fun t => t.ir.code 8 != smallIr 8 &&
            t.hid.sites.all fun sites =>
              t.hid.code 0 != sites.patch smallRedirector smallHid 0) = true := by
    decide +kernel
  obtain ⟨s, hrun, hbad⟩ := (Option.any_eq_true _ _).mp hbad
  obtain ⟨t, hstep, hbad⟩ := (Option.any_eq_true _ _).mp hbad
  obtain ⟨hir, hhid⟩ := Bool.and_eq_true_iff.mp hbad
  rcases ((h smallRedirector smallHid smallIr (by decide) _).last hrun hstep).inStep with
    ⟨-, hcode⟩ | ⟨sites, -, hsites, -, hcode, -⟩
  · rw [hcode, bne_self_eq_false] at hir
    cases hir
  · rw [hsites, Option.all_some, hcode, bne_self_eq_false] at hhid
    cases hhid

end Presence3DS.Rosalina
