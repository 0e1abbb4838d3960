import Presence3DS.Lib.Runs
import Presence3DS.Lib.SortedSlots
import Presence3DS.Lib.CString

/-! The kernel extension's table of named sessions (`ipc.c`): which service a client session
was opened on. The table is read here as a finite map from session addresses to names. -/

namespace Presence3DS.Kernel
open SortedSlots CString Runs

/-- Address of a `KSession` object. -/
abbrev KSession := Fin (2 ^ 32)

structure SessionInfo where
  session : KSession
  name : Bytes
deriving DecidableEq

def maxSession : Nat := 345

structure SessionTable where
  sessionInfos : Nat → SessionInfo
  nbActiveSessions : Nat
  /-- Whether the object's vtable pointer is `customSessionVtable`. -/
  customVtable : KSession → Bool

namespace SessionTable

def zeroed : SessionInfo := ⟨0, List.replicate 12 0⟩

def empty : SessionTable := ⟨fun _ => zeroed, 0, fun _ => false⟩

def sessionAt (t : SessionTable) (i : Nat) : KSession := (t.sessionInfos i).session

end SessionTable

def sessionInfoFindClosestSlot (t : SessionTable) (session : KSession) : Nat :=
  closestSlot t.sessionAt t.nbActiveSessions session

def sessionInfoLookup (t : SessionTable) (session : KSession) : Option SessionInfo :=
  let id := sessionInfoFindClosestSlot t session
  if id = t.nbActiveSessions then none
  else if t.customVtable (t.sessionAt id) then some (t.sessionInfos id) else none

def sessionInfoChangeVtable (t : SessionTable) (session : KSession) : SessionTable :=
  { t with customVtable := Function.update t.customVtable session true }

def sessionInfoAdd (t₀ : SessionTable) (session : KSession) (name : Bytes) : SessionTable :=
  let t := sessionInfoChangeVtable t₀ session
  if t.nbActiveSessions = maxSession then t
  else
    let id := sessionInfoFindClosestSlot t session
    if id ≠ t.nbActiveSessions ∧ t.sessionAt id = session then t
    else
      { t with
        sessionInfos := insertSlot t.sessionInfos t.nbActiveSessions id ⟨session, strncpy name 12⟩
        nbActiveSessions := t.nbActiveSessions + 1 }

def sessionInfoRemove (t : SessionTable) (session : KSession) : SessionTable :=
  if t.nbActiveSessions = maxSession then t
  else
    let id := sessionInfoFindClosestSlot t session
    if id = t.nbActiveSessions then t
    else
      { t with
        sessionInfos := Function.update (removeSlot t.sessionInfos t.nbActiveSessions id)
          (t.nbActiveSessions - 1) SessionTable.zeroed
        nbActiveSessions := t.nbActiveSessions - 1 }

/-! ## The table as a finite map -/

namespace SessionTable

def nameOf (t : SessionTable) (s : KSession) : Option Bytes :=
  ((List.range t.nbActiveSessions).find? fun i => t.sessionAt i = s).map
    fun i => (t.sessionInfos i).name

structure WellFormed (t : SessionTable) : Prop where
  sorted : SortedOn t.sessionAt t.nbActiveSessions
  capacity : t.nbActiveSessions ≤ maxSession
  hooked : ∀ i, i < t.nbActiveSessions → t.customVtable (t.sessionAt i) = true

theorem empty_wellFormed : empty.WellFormed where
  sorted := by intro i j _ hj; exact absurd hj (Nat.not_lt_zero j)
  capacity := Nat.zero_le _
  hooked := by intro i hi; exact absurd hi (Nat.not_lt_zero i)

theorem nameOf_eq_some {t : SessionTable} (h : t.WellFormed) (s : KSession) (n : Bytes) :
    t.nameOf s = some n ↔ ∃ i, i < t.nbActiveSessions ∧ t.sessionInfos i = ⟨s, n⟩ := by
  unfold nameOf
  constructor
  · intro hn
    obtain ⟨i, hi, rfl⟩ := Option.map_eq_some_iff.mp hn
    have hlt := List.mem_range.mp (List.mem_of_find?_eq_some hi)
    have hs : t.sessionAt i = s := by simpa using List.find?_some hi
    exact ⟨i, hlt, by rw [← hs]; rfl⟩
  · rintro ⟨i, hi, he⟩
    have hs : t.sessionAt i = s := congrArg SessionInfo.session he
    cases hf : (List.range t.nbActiveSessions).find? fun i => t.sessionAt i = s with
    | none =>
      have := List.find?_eq_none.mp hf i (List.mem_range.mpr hi)
      simp [hs] at this
    | some j =>
      have hj := List.mem_range.mp (List.mem_of_find?_eq_some hf)
      have hjs : t.sessionAt j = s := by simpa using List.find?_some hf
      rw [h.sorted.inj hj hi (hjs.trans hs.symm), Option.map_some, he]

theorem nameOf_eq_none {t : SessionTable} (h : t.WellFormed) (s : KSession) :
    t.nameOf s = none ↔ ∀ i, i < t.nbActiveSessions → t.sessionAt i ≠ s := by
  constructor
  · intro hn i hi hs
    have := (nameOf_eq_some h s _).mpr ⟨i, hi, congrArg (SessionInfo.mk · _) hs⟩
    rw [hn] at this
    cases this
  · intro hn
    by_contra hne
    obtain ⟨n, hsome⟩ := Option.ne_none_iff_exists'.mp hne
    obtain ⟨i, hi, he⟩ := (nameOf_eq_some h s n).mp hsome
    exact hn i hi (congrArg SessionInfo.session he)

theorem findClosestSlot_spec {t : SessionTable} (h : t.WellFormed) (s : KSession) :
    IsClosest t.sessionAt t.nbActiveSessions s (sessionInfoFindClosestSlot t s) :=
  closestSlot_isClosest h.sorted s

@[simp] theorem findClosestSlot_changeVtable (t : SessionTable) (s x : KSession) :
    sessionInfoFindClosestSlot (sessionInfoChangeVtable t s) x = sessionInfoFindClosestSlot t x := rfl

@[simp] theorem nameOf_changeVtable (t : SessionTable) (s x : KSession) :
    (sessionInfoChangeVtable t s).nameOf x = t.nameOf x := rfl

theorem WellFormed.changeVtable {t : SessionTable} (h : t.WellFormed) (s : KSession) :
    (sessionInfoChangeVtable t s).WellFormed where
  sorted := h.sorted
  capacity := h.capacity
  hooked i hi := by
    by_cases he : t.sessionAt i = s
    · simp only [sessionInfoChangeVtable, sessionAt] at he ⊢
      rw [he, Function.update_self]
    · have hne : (sessionInfoChangeVtable t s).sessionAt i ≠ s := he
      simp only [sessionInfoChangeVtable] at hne ⊢
      rw [Function.update_of_ne hne]
      exact h.hooked i hi

theorem present_iff {t : SessionTable} (h : t.WellFormed) (s : KSession) :
    t.nameOf s ≠ none ↔ sessionInfoFindClosestSlot t s ≠ t.nbActiveSessions ∧
      t.sessionAt (sessionInfoFindClosestSlot t s) = s := by
  have hr := findClosestSlot_spec h s
  constructor
  · intro hne
    obtain ⟨n, hn⟩ := Option.ne_none_iff_exists'.mp hne
    obtain ⟨i, hi, he⟩ := (nameOf_eq_some h s n).mp hn
    have hs : t.sessionAt i = s := congrArg SessionInfo.session he
    rw [hr.eq_of_key h.sorted hi hs]
    exact ⟨hi.ne, hs⟩
  · rintro ⟨hne, hs⟩ hn
    exact (nameOf_eq_none h s).mp hn _ (lt_of_le_of_ne hr.le hne) hs

end SessionTable
end Presence3DS.Kernel
