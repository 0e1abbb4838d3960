import Presence3DS.Lib.CString
import Presence3DS.Lib.SwapRemove
import Presence3DS.Kernel.State

/-! The table of services and named ports of the service manager (`services.c`, and the
removal of a process's services in `processes.c`). -/

namespace Presence3DS.Sm
open CString SwapRemove Kernel

abbrev SmResult := BitVec 32

/-- The two words of a command buffer that hold a name, whatever its declared size. -/
abbrev NameWord := { name : Bytes // name.length = 8 }

structure ServiceInfo where
  name : NameWord
  clientPort : Handle
  pid : BitVec 32
  isNamedPort : Bool
deriving DecidableEq

def checkServiceName (name : NameWord) (nameSize : Int) : SmResult :=
  if nameSize ≤ 0 ∨ 8 < nameSize then 0xD9006405
  else if (strnlen name.1 nameSize.toNat : Int) < nameSize then 0xD9006407
  else 0

/-- Both sizes have passed `checkServiceName`; the byte after the size is the first name's. -/
def areServiceNamesEqual (name name2 : NameWord) (nameSize : Int) : Bool :=
  strncmpEq name.1 name2.1 nameSize.toNat &&
    (nameSize = 8 || name.1.getD nameSize.toNat 0 = 0)

def findServicePortByName (servicesInfo : List ServiceInfo) (isNamedPort : Bool) (name : NameWord)
    (nameSize : Int) : Option Nat :=
  servicesInfo.findIdx? fun info =>
    !(info.isNamedPort != isNamedPort || !areServiceNamesEqual info.name name nameSize)

def storedName (name : NameWord) : NameWord := ⟨strncpy name.1 8, length_strncpy name.1 8⟩

/-- `doRegisterServiceOrPort` as far as the table goes. `svcCreatePort` answers with the server's
and the clients' handle; a named port comes with its own. -/
def registerEntry (servicesInfo : List ServiceInfo) (svcCreatePort : Option (Handle × Handle))
    (pid : BitVec 32) (clientPort : Handle) (name : NameWord) (nameSize : Int)
    (isNamedPort : Bool) : SmResult × List ServiceInfo :=
  let res := checkServiceName name nameSize
  if res.msb then (res, servicesInfo)
  else if findServicePortByName servicesInfo isNamedPort name nameSize ≠ none then
    (0xD9001BFC, servicesInfo)
  else if 0xA0 ≤ servicesInfo.length then (0xD86067F3, servicesInfo)
  else if isNamedPort then
    (res, servicesInfo ++ [⟨storedName name, clientPort, pid, isNamedPort⟩])
  else
    match svcCreatePort with
    | none => (0xD9001BFC, servicesInfo)
    | some (_, portClient) =>
      (res, servicesInfo ++ [⟨storedName name, portClient, pid, isNamedPort⟩])

def unregisterServiceOrPort (servicesInfo : List ServiceInfo) (pid : BitVec 32) (name : NameWord)
    (nameSize : Int) (isNamedPort : Bool) : SmResult × List ServiceInfo :=
  let res := checkServiceName name nameSize
  if res.msb then (res, servicesInfo)
  else
    match findServicePortByName servicesInfo isNamedPort name nameSize with
    | none => (0xD8801BFA, servicesInfo)
    | some serviceId =>
      if servicesInfo[serviceId]?.map ServiceInfo.pid ≠ some pid then (0xD8E06406, servicesInfo)
      else (0, swapRemove servicesInfo serviceId)

def unregisterServicesOf (servicesInfo : List ServiceInfo) (pid : BitVec 32) : List ServiceInfo :=
  removeAll (fun info => info.pid = pid) servicesInfo

/-- The size of the pool of processes; an allocation beyond it panics. -/
def processPoolSize : Nat := 64

def findProcessData (processes : List (BitVec 32)) (pid : BitVec 32) : Bool :=
  processes.contains pid

def doRegisterProcess (processes : List (BitVec 32)) (pid : BitVec 32) :
    Option (List (BitVec 32)) :=
  if processPoolSize ≤ processes.length then none else some (pid :: processes)

/-- `maxEntries` is 32 or 34, by the version of the kernel. -/
def registerProcess (maxEntries : Nat) (processes : List (BitVec 32)) (pid : BitVec 32)
    (serviceAccessListSize : Nat) : Option (SmResult × List (BitVec 32)) :=
  let serviceAccessListSize := serviceAccessListSize - serviceAccessListSize % 8
  if findProcessData processes pid then some (0xD9006403, processes)
  else if 8 * maxEntries < serviceAccessListSize then some (0xD9006405, processes)
  else (doRegisterProcess processes pid).map fun processes => (0, processes)

def unregisterProcess (servicesInfo : List ServiceInfo) (processes : List (BitVec 32))
    (pid : BitVec 32) : SmResult × List ServiceInfo × List (BitVec 32) :=
  if findProcessData processes pid then
    (0, unregisterServicesOf servicesInfo pid, processes.erase pid)
  else (0xD8806404, servicesInfo, processes)

theorem unregisterProcess_cases (servicesInfo : List ServiceInfo) (processes : List (BitVec 32))
    (pid : BitVec 32) :
    unregisterProcess servicesInfo processes pid =
        (0, unregisterServicesOf servicesInfo pid, processes.erase pid) ∨
      unregisterProcess servicesInfo processes pid = (0xD8806404, servicesInfo, processes) := by
  unfold unregisterProcess
  split_ifs
  · exact .inl rfl
  · exact .inr rfl

/-! ## Names as truncated to their declared size -/

def truncated (name : NameWord) (nameSize : Int) : Bytes := name.1.take nameSize.toNat

/-- What an entry is looked up by. -/
def ServiceInfo.key (info : ServiceInfo) : Bool × Bytes := (info.isNamedPort, str info.name.1)

theorem checkServiceName_msb (name : NameWord) (nameSize : Int) :
    (checkServiceName name nameSize).msb = false ↔ checkServiceName name nameSize = 0 := by
  unfold checkServiceName
  split_ifs <;> decide

structure Checked (name : NameWord) (nameSize : Int) : Prop where
  pos : 0 < nameSize
  le : nameSize ≤ 8
  full : nameSize.toNat ≤ (str name.1).length

theorem checkServiceName_eq_zero {name : NameWord} {nameSize : Int} :
    checkServiceName name nameSize = 0 ↔ Checked name nameSize := by
  unfold checkServiceName
  constructor
  · intro h
    split_ifs at h with hrange hlen
    · exact absurd h (by decide)
    · exact absurd h (by decide)
    · have hle := strnlen_le name.1 nameSize.toNat
      exact ⟨by omega, by omega, (strnlen_eq_iff name.1 nameSize.toNat).mp (by omega)⟩
  · rintro ⟨hpos, hle, hfull⟩
    have hlen := (strnlen_eq_iff name.1 nameSize.toNat).mpr hfull
    rw [if_neg (by omega), if_neg (by omega)]

theorem length_str_le (name : NameWord) : (str name.1).length ≤ 8 :=
  (List.takeWhile_prefix _).length_le.trans_eq name.2

theorem Checked.length_truncated {name : NameWord} {nameSize : Int} (h : Checked name nameSize) :
    (truncated name nameSize).length = nameSize.toNat := by
  have hle := h.le
  rw [truncated, List.length_take, name.2]
  omega

theorem areServiceNamesEqual_iff {name name2 : NameWord} {nameSize : Int}
    (h : Checked name2 nameSize) :
    areServiceNamesEqual name name2 nameSize = true ↔ str name.1 = truncated name2 nameSize := by
  have htake : (str name2.1).take nameSize.toNat = truncated name2 nameSize := take_str_of_le h.full
  have hlen := h.length_truncated
  have hsize := length_str_le name
  have hle := h.le
  have hpos := h.pos
  unfold areServiceNamesEqual
  rw [Bool.and_eq_true, strncmpEq_iff, htake, Bool.or_eq_true, decide_eq_true_eq, decide_eq_true_eq]
  constructor
  · rintro ⟨hcmp, hend⟩
    have hfull : nameSize.toNat ≤ (str name.1).length := by
      have hl := congrArg List.length hcmp
      rw [List.length_take, hlen] at hl
      omega
    have hexact : (str name.1).length = nameSize.toNat := by
      rcases hend with h8 | hzero
      · omega
      · exact (getD_eq_zero_iff hfull).mp hzero
    rw [← hcmp, ← hexact, List.take_length]
  · intro heq
    have hexact : (str name.1).length = nameSize.toNat := by rw [heq, hlen]
    refine ⟨by rw [heq, ← hlen, List.take_length], .inr ?_⟩
    exact (getD_eq_zero_iff hexact.ge).mpr hexact

theorem str_storedName (name : NameWord) : str (storedName name).1 = str name.1 := by
  rw [storedName, str_strncpy, List.take_of_length_le (length_str_le name)]

theorem str_eq_truncated_iff {name : NameWord} {nameSize : Int} (h : Checked name nameSize) :
    str name.1 = truncated name nameSize ↔ nameSize = 8 ∨ name.1.getD nameSize.toNat 0 = 0 := by
  have hrefl : strncmpEq name.1 name.1 nameSize.toNat = true := (strncmpEq_iff _ _ _).mpr rfl
  rw [← areServiceNamesEqual_iff h, areServiceNamesEqual, hrefl, Bool.true_and, Bool.or_eq_true,
    decide_eq_true_eq, decide_eq_true_eq]

section Find
variable {servicesInfo : List ServiceInfo} {isNamedPort : Bool} {name : NameWord} {nameSize : Int}

theorem matches_iff (h : Checked name nameSize) (info : ServiceInfo) :
    (!(info.isNamedPort != isNamedPort || !areServiceNamesEqual info.name name nameSize)) = true ↔
      info.key = (isNamedPort, truncated name nameSize) := by
  rw [ServiceInfo.key, Prod.mk.injEq, ← areServiceNamesEqual_iff h]
  cases info.isNamedPort <;> cases isNamedPort <;>
    cases areServiceNamesEqual info.name name nameSize <;> decide

theorem find_eq_none (h : Checked name nameSize) :
    findServicePortByName servicesInfo isNamedPort name nameSize = none ↔
      (isNamedPort, truncated name nameSize) ∉ servicesInfo.map ServiceInfo.key := by
  rw [findServicePortByName, List.findIdx?_eq_none_iff, List.mem_map]
  constructor
  · rintro hnone ⟨info, hinfo, hkey⟩
    have hmatch := (matches_iff h info).mpr hkey
    exact Bool.false_ne_true ((hnone info hinfo).symm.trans hmatch)
  · intro hnone info hinfo
    refine Bool.eq_false_iff.mpr fun hmatch => hnone ⟨info, hinfo, ?_⟩
    exact (matches_iff h info).mp hmatch

theorem find_eq_some (h : Checked name nameSize) {i : Nat}
    (hi : findServicePortByName servicesInfo isNamedPort name nameSize = some i) :
    ∃ hlt : i < servicesInfo.length, servicesInfo[i].key = (isNamedPort, truncated name nameSize) := by
  obtain ⟨hlt, hmatch, -⟩ := List.findIdx?_eq_some_iff_getElem.mp hi
  exact ⟨hlt, (matches_iff h _).mp hmatch⟩

/-- A registration is accepted, and appends the entry with this client port. -/
def Accepts (servicesInfo : List ServiceInfo) (svcCreatePort : Option (Handle × Handle))
    (clientPort : Handle) (name : NameWord) (nameSize : Int) (isNamedPort : Bool) (port : Handle) :
    Prop :=
  checkServiceName name nameSize = 0 ∧
    findServicePortByName servicesInfo isNamedPort name nameSize = none ∧
    servicesInfo.length < 0xA0 ∧
    if isNamedPort then port = clientPort else ∃ portServer, svcCreatePort = some (portServer, port)

end Find

section Register
variable {servicesInfo : List ServiceInfo} {svcCreatePort : Option (Handle × Handle)}
  {pid : BitVec 32} {clientPort : Handle} {name : NameWord} {nameSize : Int} {isNamedPort : Bool}

theorem registerEntry_accepts {port : Handle}
    (h : Accepts servicesInfo svcCreatePort clientPort name nameSize isNamedPort port) :
    registerEntry servicesInfo svcCreatePort pid clientPort name nameSize isNamedPort =
      (0, servicesInfo ++ [⟨storedName name, port, pid, isNamedPort⟩]) := by
  obtain ⟨hname, hnone, hroom, hport⟩ := h
  have hmsb : ((0 : SmResult).msb = true) = False := by decide
  simp only [registerEntry, hname, hnone, hmsb, if_false, ne_eq, not_true_eq_false,
    Nat.not_le.mpr hroom]
  cases isNamedPort with
  | true =>
    simp only [if_true] at hport ⊢
    rw [hport]
  | false =>
    obtain ⟨portServer, hport⟩ := hport
    rw [hport]
    rfl

theorem registerEntry_rejects (pid : BitVec 32)
    (h : ∀ port, ¬Accepts servicesInfo svcCreatePort clientPort name nameSize isNamedPort port) :
    ∃ res : SmResult, res ≠ 0 ∧
      registerEntry servicesInfo svcCreatePort pid clientPort name nameSize isNamedPort =
        (res, servicesInfo) := by
  unfold registerEntry
  by_cases hmsb : (checkServiceName name nameSize).msb = true
  · refine ⟨checkServiceName name nameSize, ?_, if_pos hmsb⟩
    intro hzero
    rw [hzero] at hmsb
    exact absurd hmsb (by decide)
  have hname := (checkServiceName_msb name nameSize).mp (Bool.eq_false_iff.mpr hmsb)
  rw [if_neg hmsb]
  by_cases hnone : findServicePortByName servicesInfo isNamedPort name nameSize = none
  · rw [if_neg (not_not.mpr hnone)]
    by_cases hroom : 0xA0 ≤ servicesInfo.length
    · exact ⟨0xD86067F3, by decide, if_pos hroom⟩
    · rw [if_neg hroom]
      cases isNamedPort with
      | true => exact absurd ⟨hname, hnone, Nat.lt_of_not_le hroom, rfl⟩ (h clientPort)
      | false =>
        cases hport : svcCreatePort with
        | none => exact ⟨0xD9001BFC, by decide, rfl⟩
        | some ports =>
          exact absurd ⟨hname, hnone, Nat.lt_of_not_le hroom, ports.1, hport⟩ (h ports.2)
  · exact ⟨0xD9001BFC, by decide, if_pos hnone⟩

theorem unregister_found {i : Nat} (hname : checkServiceName name nameSize = 0)
    (hi : findServicePortByName servicesInfo isNamedPort name nameSize = some i)
    (hpid : servicesInfo[i]?.map ServiceInfo.pid = some pid) :
    unregisterServiceOrPort servicesInfo pid name nameSize isNamedPort =
      (0, swapRemove servicesInfo i) := by
  have hmsb : ((0 : SmResult).msb = true) = False := by decide
  simp only [unregisterServiceOrPort, hname, hmsb, hi, hpid, if_false, ne_eq, not_true_eq_false]

theorem unregister_cases (servicesInfo : List ServiceInfo) (pid : BitVec 32) (name : NameWord)
    (nameSize : Int) (isNamedPort : Bool) :
    (∃ res : SmResult, res ≠ 0 ∧
      unregisterServiceOrPort servicesInfo pid name nameSize isNamedPort = (res, servicesInfo)) ∨
    ∃ i, checkServiceName name nameSize = 0 ∧
      findServicePortByName servicesInfo isNamedPort name nameSize = some i ∧
      unregisterServiceOrPort servicesInfo pid name nameSize isNamedPort =
        (0, swapRemove servicesInfo i) := by
  by_cases hmsb : (checkServiceName name nameSize).msb = true
  · refine .inl ⟨checkServiceName name nameSize, ?_, if_pos hmsb⟩
    intro hzero
    rw [hzero] at hmsb
    exact absurd hmsb (by decide)
  have hname := (checkServiceName_msb name nameSize).mp (Bool.eq_false_iff.mpr hmsb)
  cases hi : findServicePortByName servicesInfo isNamedPort name nameSize with
  | none =>
    refine .inl ⟨0xD8801BFA, by decide, ?_⟩
    rw [unregisterServiceOrPort, hi]
    exact if_neg hmsb
  | some i =>
    by_cases hpid : servicesInfo[i]?.map ServiceInfo.pid = some pid
    · exact .inr ⟨i, hname, rfl, unregister_found hname hi hpid⟩
    · refine .inl ⟨0xD8E06406, by decide, ?_⟩
      rw [unregisterServiceOrPort, hi]
      exact (if_neg hmsb).trans (if_pos hpid)

end Register

end Presence3DS.Sm
