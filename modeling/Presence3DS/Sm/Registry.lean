import Presence3DS.Lib.Runs
import Presence3DS.Sm.Services

/-! The service table over sequences of registrations, unregistrations and process
terminations, against the names that were registered and not since unregistered. -/

namespace Presence3DS.Sm
open CString SwapRemove Kernel Runs

structure Registration where
  isNamedPort : Bool
  name : Bytes
  pid : BitVec 32
deriving DecidableEq

def Registration.key (r : Registration) : Bool × Bytes := (r.isNamedPort, r.name)

/-- The service manager, and beside it what was registered and not since unregistered, under
the names as truncated to their declared size. The code does not keep the latter. -/
structure Registry where
  servicesInfo : List ServiceInfo
  processes : List (BitVec 32)
  registered : List Registration

def Registry.empty : Registry := ⟨[], [], []⟩

inductive RegistryCall where
  | register (svcCreatePort : Option (Handle × Handle)) (pid : BitVec 32) (clientPort : Handle)
      (name : NameWord) (nameSize : Int) (isNamedPort : Bool)
  | unregister (pid : BitVec 32) (name : NameWord) (nameSize : Int) (isNamedPort : Bool)
  | registerProcess (pid : BitVec 32) (serviceAccessListSize : Nat)
  | unregisterProcess (pid : BitVec 32)

def registryStep (maxEntries : Nat) (s : Registry) : RegistryCall → Option Registry
  | .register svcCreatePort pid clientPort name nameSize isNamedPort =>
    let (res, servicesInfo) :=
      registerEntry s.servicesInfo svcCreatePort pid clientPort name nameSize isNamedPort
    some { s with
      servicesInfo := servicesInfo
      registered := if res = 0 then s.registered ++ [⟨isNamedPort, truncated name nameSize, pid⟩]
        else s.registered }
  | .unregister pid name nameSize isNamedPort =>
    let (res, servicesInfo) :=
      unregisterServiceOrPort s.servicesInfo pid name nameSize isNamedPort
    some { s with
      servicesInfo := servicesInfo
      registered := if res = 0 then
          s.registered.filter fun r => r.key ≠ (isNamedPort, truncated name nameSize)
        else s.registered }
  | .registerProcess pid serviceAccessListSize =>
    (registerProcess maxEntries s.processes pid serviceAccessListSize).map fun (_, processes) =>
      { s with processes := processes }
  | .unregisterProcess pid =>
    let (res, servicesInfo, processes) := unregisterProcess s.servicesInfo s.processes pid
    some {
      servicesInfo := servicesInfo
      processes := processes
      registered := if res = 0 then s.registered.filter fun r => r.pid ≠ pid else s.registered }

/-- No two entries of one kind and name, a lookup finds exactly what is registered, and a
successful unregistration removes its entry and no other. -/
structure RegistryLaw (s : Registry) (c : RegistryCall) (t : Registry) : Prop where
  registered : (t.registered.map Registration.key).Nodup
  entries : (t.servicesInfo.map ServiceInfo.key).Nodup
  lookup : ∀ isNamedPort name nameSize, checkServiceName name nameSize = 0 →
    ((findServicePortByName t.servicesInfo isNamedPort name nameSize).isSome = true ↔
      (isNamedPort, truncated name nameSize) ∈ t.registered.map Registration.key)
  unregister : ∀ pid name nameSize isNamedPort, c = .unregister pid name nameSize isNamedPort →
    (unregisterServiceOrPort s.servicesInfo pid name nameSize isNamedPort).1 = 0 →
      ∃ info, info.key = (isNamedPort, truncated name nameSize) ∧
        s.servicesInfo.Perm (info :: t.servicesInfo)

/-- A registration the code accepts ends its name with a NUL, or takes all eight bytes. -/
def RegistryInScope (s : Registry) : RegistryCall → Prop
  | .register svcCreatePort _ clientPort name nameSize isNamedPort =>
    ∀ port, Accepts s.servicesInfo svcCreatePort clientPort name nameSize isNamedPort port →
      nameSize = 8 ∨ name.1.getD nameSize.toNat 0 = 0
  | _ => True

def ServiceInfo.registration (info : ServiceInfo) : Registration :=
  ⟨info.isNamedPort, str info.name.1, info.pid⟩

/-- The table holds the registered names, each once. -/
structure Registry.Inv (s : Registry) : Prop where
  perm : (s.servicesInfo.map ServiceInfo.registration).Perm s.registered
  nodup : (s.registered.map Registration.key).Nodup

theorem map_key_registration (l : List ServiceInfo) :
    (l.map ServiceInfo.registration).map Registration.key = l.map ServiceInfo.key := by
  rw [List.map_map]
  rfl

section Inv
variable {s : Registry}

theorem Registry.Inv.keys_perm (hs : s.Inv) :
    (s.servicesInfo.map ServiceInfo.key).Perm (s.registered.map Registration.key) := by
  have hperm := hs.perm.map Registration.key
  rwa [map_key_registration] at hperm

theorem Registry.Inv.entries (hs : s.Inv) : (s.servicesInfo.map ServiceInfo.key).Nodup :=
  hs.keys_perm.nodup_iff.mpr hs.nodup

theorem isSome_find_iff {l : List ServiceInfo} {isNamedPort : Bool} {name : NameWord}
    {nameSize : Int} (h : Checked name nameSize) :
    (findServicePortByName l isNamedPort name nameSize).isSome = true ↔
      (isNamedPort, truncated name nameSize) ∈ l.map ServiceInfo.key := by
  rw [Option.isSome_iff_ne_none, ne_eq, find_eq_none h, not_not]

theorem Registry.Inv.lookup (hs : s.Inv) {isNamedPort : Bool} {name : NameWord} {nameSize : Int}
    (h : checkServiceName name nameSize = 0) :
    (findServicePortByName s.servicesInfo isNamedPort name nameSize).isSome = true ↔
      (isNamedPort, truncated name nameSize) ∈ s.registered.map Registration.key := by
  rw [isSome_find_iff (checkServiceName_eq_zero.mp h)]
  exact hs.keys_perm.mem_iff

theorem lawOf (hs : s.Inv) {s₀ : Registry} {c : RegistryCall}
    (hun : ∀ pid name nameSize isNamedPort, c = .unregister pid name nameSize isNamedPort →
      (unregisterServiceOrPort s₀.servicesInfo pid name nameSize isNamedPort).1 = 0 →
        ∃ info, info.key = (isNamedPort, truncated name nameSize) ∧
          s₀.servicesInfo.Perm (info :: s.servicesInfo)) : RegistryLaw s₀ c s where
  registered := hs.nodup
  entries := hs.entries
  lookup _ _ _ h := hs.lookup h
  unregister := hun

end Inv

/-! ## Registration -/

section Register
variable {maxEntries : Nat} {s t : Registry} {svcCreatePort : Option (Handle × Handle)}
  {pid : BitVec 32} {clientPort : Handle} {name : NameWord} {nameSize : Int} {isNamedPort : Bool}

theorem step_register_accepts {port : Handle}
    (h : Accepts s.servicesInfo svcCreatePort clientPort name nameSize isNamedPort port) :
    registryStep maxEntries s (.register svcCreatePort pid clientPort name nameSize isNamedPort) =
      some { s with
        servicesInfo := s.servicesInfo ++ [⟨storedName name, port, pid, isNamedPort⟩]
        registered := s.registered ++ [⟨isNamedPort, truncated name nameSize, pid⟩] } := by
  simp only [registryStep, registerEntry_accepts h, if_true]

theorem step_register_rejects
    (h : ∀ port, ¬Accepts s.servicesInfo svcCreatePort clientPort name nameSize isNamedPort port) :
    registryStep maxEntries s (.register svcCreatePort pid clientPort name nameSize isNamedPort) =
      some s := by
  obtain ⟨res, hres, heq⟩ := registerEntry_rejects pid h
  simp only [registryStep, heq, hres, if_false]

theorem inv_accepted (hs : s.Inv) {port : Handle}
    (h : Accepts s.servicesInfo svcCreatePort clientPort name nameSize isNamedPort port)
    (hend : nameSize = 8 ∨ name.1.getD nameSize.toNat 0 = 0) :
    Registry.Inv { s with
      servicesInfo := s.servicesInfo ++ [⟨storedName name, port, pid, isNamedPort⟩]
      registered := s.registered ++ [⟨isNamedPort, truncated name nameSize, pid⟩] } where
  perm := by
    have hname := (str_eq_truncated_iff (checkServiceName_eq_zero.mp h.1)).mpr hend
    rw [List.map_append]
    refine hs.perm.append ?_
    simp only [List.map_cons, List.map_nil, ServiceInfo.registration, str_storedName, hname]
    exact List.Perm.refl _
  nodup := by
    have hchecked := checkServiceName_eq_zero.mp h.1
    have hnew := (find_eq_none hchecked).mp h.2.1
    rw [hs.keys_perm.mem_iff] at hnew
    rw [List.map_append, List.nodup_append]
    refine ⟨hs.nodup, List.nodup_singleton _, ?_⟩
    intro key hold key' hmem hsame
    rw [List.map_singleton, List.mem_singleton] at hmem
    rw [hsame, hmem] at hold
    exact hnew hold

theorem accepted_end {port : Handle}
    (h : Accepts s.servicesInfo svcCreatePort clientPort name nameSize isNamedPort port)
    {c : RegistryCall} (hl : RegistryLaw s c { s with
      servicesInfo := s.servicesInfo ++ [⟨storedName name, port, pid, isNamedPort⟩]
      registered := s.registered ++ [⟨isNamedPort, truncated name nameSize, pid⟩] }) :
    nameSize = 8 ∨ name.1.getD nameSize.toNat 0 = 0 := by
  have hchecked := checkServiceName_eq_zero.mp h.1
  have hfound := (hl.lookup isNamedPort name nameSize h.1).mpr (by simp [Registration.key])
  rw [isSome_find_iff hchecked, List.map_append, List.mem_append] at hfound
  rcases hfound with hold | hnew
  · exact absurd hold ((find_eq_none hchecked).mp h.2.1)
  · rw [List.map_singleton, List.mem_singleton, ServiceInfo.key, Prod.mk.injEq] at hnew
    exact (str_eq_truncated_iff hchecked).mp ((str_storedName name).symm.trans hnew.2.symm)

end Register

/-! ## Removal -/

section Remove
variable {s : Registry}

theorem inv_unregistered (hs : s.Inv) {isNamedPort : Bool} {name : NameWord} {nameSize : Int}
    {i : Nat} (hlt : i < s.servicesInfo.length)
    (hkey : s.servicesInfo[i].key = (isNamedPort, truncated name nameSize)) :
    Registry.Inv { s with
      servicesInfo := swapRemove s.servicesInfo i
      registered := s.registered.filter fun r => r.key ≠ (isNamedPort, truncated name nameSize) } where
  perm := by
    have hback := perm_cons_swapRemove hlt
    have hentries := (hback.map ServiceInfo.key).nodup_iff.mp hs.entries
    rw [List.map_cons, List.nodup_cons, hkey] at hentries
    have hperm := ((hback.map ServiceInfo.registration).symm.trans hs.perm).filter
      fun r => r.key ≠ (isNamedPort, truncated name nameSize)
    have hgone : s.servicesInfo[i].registration.key = (isNamedPort, truncated name nameSize) := hkey
    rw [List.map_cons, List.filter_cons_of_neg (by simp [hgone])] at hperm
    have hkept : ∀ r ∈ (swapRemove s.servicesInfo i).map ServiceInfo.registration,
        decide (r.key ≠ (isNamedPort, truncated name nameSize)) = true := by
      intro r hr
      refine decide_eq_true fun hr' => hentries.1 ?_
      rw [← map_key_registration]
      exact hr' ▸ List.mem_map_of_mem hr
    rwa [List.filter_eq_self.mpr hkept] at hperm
  nodup := hs.nodup.sublist (List.filter_sublist.map _)

theorem inv_unregistered_process (hs : s.Inv) (pid : BitVec 32) (processes : List (BitVec 32)) :
    Registry.Inv {
      servicesInfo := unregisterServicesOf s.servicesInfo pid
      processes := processes
      registered := s.registered.filter fun r => r.pid ≠ pid } where
  perm := by
    have hscan := (removeAll_perm (fun info : ServiceInfo => info.pid = pid) s.servicesInfo).map
      ServiceInfo.registration
    have hfilter := hs.perm.filter fun r => decide (r.pid ≠ pid)
    rw [List.filter_map] at hfilter
    refine hscan.trans (List.Perm.trans (List.Perm.of_eq ?_) hfilter)
    simp only [decide_not]
    rfl
  nodup := hs.nodup.sublist (List.filter_sublist.map _)

end Remove

theorem registryStep_inv {maxEntries : Nat} {s t : Registry} (hs : s.Inv) {c : RegistryCall}
    (hc : RegistryInScope s c) (h : registryStep maxEntries s c = some t) : t.Inv := by
  cases c with
  | register svcCreatePort pid clientPort name nameSize isNamedPort =>
    by_cases hex : ∃ port,
        Accepts s.servicesInfo svcCreatePort clientPort name nameSize isNamedPort port
    · obtain ⟨port, hport⟩ := hex
      rw [step_register_accepts hport] at h
      cases h
      exact inv_accepted hs hport (hc port hport)
    · rw [step_register_rejects fun port hport => hex ⟨port, hport⟩] at h
      cases h
      exact hs
  | unregister pid name nameSize isNamedPort =>
    rcases unregister_cases s.servicesInfo pid name nameSize isNamedPort with
      ⟨res, hres, heq⟩ | ⟨i, hname, hi, heq⟩
    · simp only [registryStep, heq, hres, if_false] at h
      cases h
      exact hs
    · obtain ⟨hlt, hkey⟩ := find_eq_some (checkServiceName_eq_zero.mp hname) hi
      simp only [registryStep, heq, if_true] at h
      cases h
      exact inv_unregistered hs hlt hkey
  | registerProcess pid size =>
    obtain ⟨⟨res, processes⟩, -, rfl⟩ := Option.map_eq_some_iff.mp h
    exact ⟨hs.perm, hs.nodup⟩
  | unregisterProcess pid =>
    rcases unregisterProcess_cases s.servicesInfo s.processes pid with heq | heq
    · simp only [registryStep, heq, if_true] at h
      cases h
      exact inv_unregistered_process hs pid _
    · simp only [registryStep, heq] at h
      cases h
      exact hs

theorem registryLaw_iff {maxEntries : Nat} {s t : Registry} (hs : s.Inv) (c : RegistryCall)
    (h : registryStep maxEntries s c = some t) : RegistryLaw s c t ↔ RegistryInScope s c := by
  constructor
  · intro hl
    cases c with
    | register svcCreatePort pid clientPort name nameSize isNamedPort =>
      intro port hport
      rw [step_register_accepts hport] at h
      cases h
      exact accepted_end hport hl
    | unregister | registerProcess | unregisterProcess => trivial
  · intro hc
    refine lawOf (registryStep_inv hs hc h) ?_
    rintro pid name nameSize isNamedPort rfl hzero
    rcases unregister_cases s.servicesInfo pid name nameSize isNamedPort with
      ⟨res, hres, heq⟩ | ⟨i, hname, hi, heq⟩
    · rw [heq] at hzero
      exact absurd hzero hres
    · obtain ⟨hlt, hkey⟩ := find_eq_some (checkServiceName_eq_zero.mp hname) hi
      simp only [registryStep, heq, if_true] at h
      cases h
      exact ⟨s.servicesInfo[i], hkey, perm_cons_swapRemove hlt⟩

theorem empty_inv : Registry.empty.Inv where
  perm := List.Perm.refl _
  nodup := List.nodup_nil

/-- A sequence of calls from the empty table is lawful throughout exactly when each is in scope. -/
theorem registry_calls_lawful_iff (maxEntries : Nat) (cs : List RegistryCall) :
    AllSteps (registryStep maxEntries) RegistryLaw .empty cs ↔
      Guarded (registryStep maxEntries) RegistryInScope .empty cs :=
  allSteps_iff_guarded (fun _ c _ hs h => registryLaw_iff hs c h)
    (fun _ c _ hs h hl => registryStep_inv hs ((registryLaw_iff hs c h).mp hl) h)
    empty_inv cs

/-- The bytes of `"abX"`, declared as two. -/
def paddedName : NameWord := ⟨[97, 98, 88, 0, 0, 0, 0, 0], rfl⟩

theorem padded_name_is_lost :
    ¬∀ maxEntries cs, AllSteps (registryStep maxEntries) RegistryLaw .empty cs := by
  intro h
  have hlaw := (h 32 [.register none 5 1 paddedName 2 true] _ rfl).1
  have hfound := (hlaw.lookup true paddedName 2 (by decide)).mpr (by decide)
  exact absurd hfound (by decide)

end Presence3DS.Sm
