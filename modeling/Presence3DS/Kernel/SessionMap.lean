import Presence3DS.Kernel.SessionInfo

/-! What each call does to the finite map the session table stands for. -/

namespace Presence3DS.Kernel
open SortedSlots CString Runs SessionTable

variable {t : SessionTable}

theorem add_full (h : t.nbActiveSessions = maxSession) (s : KSession) (name : Bytes) :
    sessionInfoAdd t s name = sessionInfoChangeVtable t s := if_pos h

theorem add_present (ht : t.WellFormed) {s : KSession} (hs : t.nameOf s ≠ none) (name : Bytes) :
    sessionInfoAdd t s name = sessionInfoChangeVtable t s := by
  by_cases hfull : t.nbActiveSessions = maxSession
  · exact add_full hfull s name
  · exact (if_neg hfull).trans (if_pos ((present_iff ht s).mp hs))

/-- The table after a new entry has been put in slot `id`. -/
def SessionTable.inserted (t : SessionTable) (id : Nat) (e : SessionInfo) : SessionTable :=
  { sessionInfoChangeVtable t e.session with
    sessionInfos := insertSlot t.sessionInfos t.nbActiveSessions id e
    nbActiveSessions := t.nbActiveSessions + 1 }

theorem add_absent (ht : t.WellFormed) {s : KSession} (hs : t.nameOf s = none)
    (hroom : t.nbActiveSessions ≠ maxSession) (name : Bytes) :
    sessionInfoAdd t s name =
      t.inserted (sessionInfoFindClosestSlot t s) ⟨s, strncpy name 12⟩ := by
  have hnew : ¬(sessionInfoFindClosestSlot t s ≠ t.nbActiveSessions ∧
      t.sessionAt (sessionInfoFindClosestSlot t s) = s) :=
    fun hp => (present_iff ht s).mpr hp hs
  exact (if_neg hroom).trans (if_neg hnew)

/-- The table after slot `id` has been closed. -/
def SessionTable.removed (t : SessionTable) (id : Nat) : SessionTable :=
  { t with
    sessionInfos := Function.update (removeSlot t.sessionInfos t.nbActiveSessions id)
      (t.nbActiveSessions - 1) zeroed
    nbActiveSessions := t.nbActiveSessions - 1 }

theorem remove_full (h : t.nbActiveSessions = maxSession) (s : KSession) :
    sessionInfoRemove t s = t := if_pos h

theorem remove_pastEnd {s : KSession} (h : sessionInfoFindClosestSlot t s = t.nbActiveSessions) :
    sessionInfoRemove t s = t := by
  by_cases hfull : t.nbActiveSessions = maxSession
  · exact if_pos hfull
  · exact (if_neg hfull).trans (if_pos h)

theorem remove_slot {s : KSession} (hroom : t.nbActiveSessions ≠ maxSession)
    (h : sessionInfoFindClosestSlot t s ≠ t.nbActiveSessions) :
    sessionInfoRemove t s = t.removed (sessionInfoFindClosestSlot t s) :=
  (if_neg hroom).trans (if_neg h)

/-! ## Insertion and removal keep the table well formed -/

theorem inserted_wellFormed (ht : t.WellFormed) {s : KSession} (hs : t.nameOf s = none)
    (hroom : t.nbActiveSessions ≠ maxSession) (name : Bytes) :
    (t.inserted (sessionInfoFindClosestSlot t s) ⟨s, name⟩).WellFormed where
  sorted := sortedOn_insertSlot SessionInfo.session ht.sorted (findClosestSlot_spec ht s)
    fun hr => (nameOf_eq_none ht s).mp hs _ hr
  capacity := Nat.lt_of_le_of_ne ht.capacity hroom
  hooked i hi := by
    by_contra hcon
    have hex := exists_insertSlot t.sessionInfos (findClosestSlot_spec ht s).le ⟨s, name⟩
      fun e => (sessionInfoChangeVtable t s).customVtable e.session ≠ true
    rcases hex.mp ⟨i, hi, hcon⟩ with hnew | ⟨j, hj, hold⟩
    · exact hnew (Function.update_self ..)
    · exact hold ((ht.changeVtable s).hooked j hj)

theorem removed_at (id : Nat) {i : Nat} (hi : i < t.nbActiveSessions - 1) :
    (t.removed id).sessionInfos i = removeSlot t.sessionInfos t.nbActiveSessions id i :=
  Function.update_of_ne hi.ne _ _

theorem exists_removed {id : Nat} (hid : id < t.nbActiveSessions) (P : SessionInfo → Prop) :
    (∃ i, i < (t.removed id).nbActiveSessions ∧ P ((t.removed id).sessionInfos i)) ↔
      ∃ i, i < t.nbActiveSessions ∧ i ≠ id ∧ P (t.sessionInfos i) := by
  rw [← exists_removeSlot t.sessionInfos hid P]
  constructor
  · rintro ⟨i, hi, hP⟩
    exact ⟨i, hi, removed_at id hi ▸ hP⟩
  · rintro ⟨i, hi, hP⟩
    exact ⟨i, hi, (removed_at id hi).symm ▸ hP⟩

theorem removed_wellFormed (ht : t.WellFormed) {id : Nat} (hid : id < t.nbActiveSessions) :
    (t.removed id).WellFormed where
  sorted i j hij hj := by
    have hk := sortedOn_removeSlot SessionInfo.session ht.sorted hid i j hij hj
    simp only [sessionAt, removed_at id hj, removed_at id (hij.trans hj)]
    exact hk
  capacity := (Nat.sub_le _ _).trans ht.capacity
  hooked i hi := by
    by_contra hcon
    obtain ⟨j, hj, _, hold⟩ :=
      (exists_removed hid fun e => t.customVtable e.session ≠ true).mp ⟨i, hi, hcon⟩
    exact hold (ht.hooked j hj)

/-! ## Insertion and removal as updates of the map -/

theorem nameOf_inserted (ht : t.WellFormed) {s : KSession} (hs : t.nameOf s = none)
    (hroom : t.nbActiveSessions ≠ maxSession) (name : Bytes) :
    (t.inserted (sessionInfoFindClosestSlot t s) ⟨s, name⟩).nameOf =
      Function.update t.nameOf s (some name) := by
  have hwf := inserted_wellFormed ht hs hroom name
  funext x
  apply Option.ext
  intro n
  rw [nameOf_eq_some hwf x n]
  refine (exists_insertSlot t.sessionInfos (findClosestSlot_spec ht s).le ⟨s, name⟩
    fun e => e = ⟨x, n⟩).trans ?_
  rw [← nameOf_eq_some ht x n]
  by_cases hx : x = s
  · subst hx
    simp only [Function.update_self, hs, reduceCtorEq, or_false, SessionInfo.mk.injEq, true_and,
      Option.some.injEq]
  · simp only [Function.update_of_ne hx, SessionInfo.mk.injEq, Ne.symm hx, false_and, false_or]

theorem nameOf_removed (ht : t.WellFormed) {id : Nat} (hid : id < t.nbActiveSessions) :
    (t.removed id).nameOf = Function.update t.nameOf (t.sessionAt id) none := by
  have hwf := removed_wellFormed ht hid
  funext x
  apply Option.ext
  intro n
  rw [nameOf_eq_some hwf x n]
  refine (exists_removed hid fun e => e = ⟨x, n⟩).trans ?_
  by_cases hx : x = t.sessionAt id
  · subst hx
    rw [Function.update_self]
    constructor
    · rintro ⟨i, hi, hne, he⟩
      have hkey : t.sessionAt i = t.sessionAt id := by rw [sessionAt, he]
      exact absurd (ht.sorted.inj hi hid hkey) hne
    · intro h; cases h
  · rw [Function.update_of_ne hx, nameOf_eq_some ht x n]
    constructor
    · rintro ⟨i, hi, -, he⟩
      exact ⟨i, hi, he⟩
    · rintro ⟨i, hi, he⟩
      refine ⟨i, hi, ?_, he⟩
      rintro rfl
      exact hx (congrArg SessionInfo.session he).symm

/-! ## Calls and their law -/

/-- `remove` also stands for the destructor hook of a session, which only calls it. -/
inductive SessionCall where
  | add (session : KSession) (name : Bytes)
  | remove (session : KSession)
  | lookup (session : KSession)

def sessionStep (t : SessionTable) : SessionCall → Option SessionTable
  | .add session name => some (sessionInfoAdd t session name)
  | .remove session => some (sessionInfoRemove t session)
  | .lookup _ => some t

/-- The call treats the table as a finite map of bounded size. -/
def MapLaw (t : SessionTable) (c : SessionCall) (t' : SessionTable) : Prop :=
  SortedOn t'.sessionAt t'.nbActiveSessions ∧ t'.nbActiveSessions ≤ maxSession ∧
  match c with
  | .add s name => t'.nameOf =
      if t.nameOf s = none ∧ t.nbActiveSessions < maxSession then
        Function.update t.nameOf s (some (strncpy name 12))
      else t.nameOf
  | .remove s => t'.nameOf = Function.update t.nameOf s none
  | .lookup s => t'.nameOf = t.nameOf ∧ sessionInfoLookup t s = (t.nameOf s).map (SessionInfo.mk s)

/-- The session has an entry, or lies above every entry. -/
def Located (t : SessionTable) (s : KSession) : Prop :=
  t.nameOf s ≠ none ∨ ∀ i, i < t.nbActiveSessions → t.sessionAt i < s

def CallInRange (t : SessionTable) : SessionCall → Prop
  | .add _ _ => True
  | .remove s => if t.nbActiveSessions = maxSession then t.nameOf s = none else Located t s
  | .lookup s => Located t s

theorem located_iff (ht : t.WellFormed) (s : KSession) :
    Located t s ↔ t.nameOf s ≠ none ∨ sessionInfoFindClosestSlot t s = t.nbActiveSessions := by
  have hr := findClosestSlot_spec ht s
  refine or_congr Iff.rfl ⟨fun h => ?_, fun h i hi => hr.below i (h ▸ hi)⟩
  refine Nat.le_antisymm hr.le (not_lt.mp fun hlt => ?_)
  exact absurd (h _ hlt) (not_lt.mpr (hr.above _ le_rfl hlt))

theorem findClosestSlot_lt (ht : t.WellFormed) {s : KSession}
    (h : sessionInfoFindClosestSlot t s ≠ t.nbActiveSessions) :
    sessionInfoFindClosestSlot t s < t.nbActiveSessions :=
  lt_of_le_of_ne (findClosestSlot_spec ht s).le h

theorem sessionStep_wellFormed {t' : SessionTable} (ht : t.WellFormed) (c : SessionCall)
    (h : sessionStep t c = some t') : t'.WellFormed := by
  cases c with
  | add s name =>
    cases h
    by_cases hs : t.nameOf s = none
    · by_cases hfull : t.nbActiveSessions = maxSession
      · exact add_full hfull s name ▸ ht.changeVtable s
      · exact add_absent ht hs hfull name ▸ inserted_wellFormed ht hs hfull _
    · exact add_present ht hs name ▸ ht.changeVtable s
  | remove s =>
    cases h
    by_cases hfull : t.nbActiveSessions = maxSession
    · exact (remove_full hfull s).symm ▸ ht
    · by_cases hid : sessionInfoFindClosestSlot t s = t.nbActiveSessions
      · exact (remove_pastEnd hid).symm ▸ ht
      · exact remove_slot hfull hid ▸ removed_wellFormed ht (findClosestSlot_lt ht hid)
  | lookup s => cases h; exact ht

theorem nameOf_add (ht : t.WellFormed) (s : KSession) (name : Bytes) :
    (sessionInfoAdd t s name).nameOf =
      if t.nameOf s = none ∧ t.nbActiveSessions < maxSession then
        Function.update t.nameOf s (some (strncpy name 12))
      else t.nameOf := by
  split_ifs with h
  · rw [add_absent ht h.1 h.2.ne name]
    exact nameOf_inserted ht h.1 h.2.ne _
  · by_cases hs : t.nameOf s = none
    · have hfull : t.nbActiveSessions = maxSession :=
        Nat.le_antisymm ht.capacity (not_lt.mp fun hlt => h ⟨hs, hlt⟩)
      rw [add_full hfull]
      rfl
    · rw [add_present ht hs]
      rfl

theorem nameOf_remove_iff (ht : t.WellFormed) (s : KSession) :
    (sessionInfoRemove t s).nameOf = Function.update t.nameOf s none ↔
      if t.nbActiveSessions = maxSession then t.nameOf s = none else Located t s := by
  have hkeep : t.nameOf = Function.update t.nameOf s none ↔ t.nameOf s = none :=
    ⟨fun h => (congrFun h s).trans (Function.update_self ..),
      fun h => by rw [← h, Function.update_eq_self]⟩
  split_ifs with hfull
  · rw [remove_full hfull, hkeep]
  · rw [located_iff ht]
    by_cases hid : sessionInfoFindClosestSlot t s = t.nbActiveSessions
    · have hs : t.nameOf s = none := by
        by_contra hne
        exact ((present_iff ht s).mp hne).1 hid
      rw [remove_pastEnd hid, hkeep]
      exact ⟨fun _ => .inr hid, fun _ => hs⟩
    · have hlt := findClosestSlot_lt ht hid
      rw [remove_slot hfull hid, nameOf_removed ht hlt]
      constructor
      · intro h
        refine .inl ((present_iff ht s).mpr ⟨hid, ?_⟩)
        -- the closed slot belonged to another session, which keeps its name on the right
        by_contra hne
        have hnone := (congrFun h (t.sessionAt (sessionInfoFindClosestSlot t s))).symm
        rw [Function.update_self, Function.update_of_ne hne] at hnone
        exact (nameOf_eq_none ht _).mp hnone _ hlt rfl
      · rintro (hs | he)
        · rw [((present_iff ht s).mp hs).2]
        · exact absurd he hid

theorem lookup_eq_iff (ht : t.WellFormed) (s : KSession) :
    sessionInfoLookup t s = (t.nameOf s).map (SessionInfo.mk s) ↔ Located t s := by
  rw [located_iff ht]
  unfold sessionInfoLookup
  by_cases hid : sessionInfoFindClosestSlot t s = t.nbActiveSessions
  · have hs : t.nameOf s = none := by
      by_contra hne
      exact ((present_iff ht s).mp hne).1 hid
    simp only [hid, if_pos, hs, Option.map_none, or_true]
  · have hlt := findClosestSlot_lt ht hid
    simp only [hid, if_false, ht.hooked _ hlt, if_true, or_false]
    constructor
    · intro h hs
      rw [hs] at h
      cases h
    · intro hs
      have hat := ((present_iff ht s).mp hs).2
      have he : t.sessionInfos (sessionInfoFindClosestSlot t s) =
          ⟨s, (t.sessionInfos (sessionInfoFindClosestSlot t s)).name⟩ :=
        congrArg (SessionInfo.mk · _) hat
      rw [(nameOf_eq_some ht s _).mpr ⟨_, hlt, he⟩, Option.map_some, ← he]

theorem mapLaw_iff {t' : SessionTable} (ht : t.WellFormed) (c : SessionCall)
    (h : sessionStep t c = some t') : MapLaw t c t' ↔ CallInRange t c := by
  have hwf := sessionStep_wellFormed ht c h
  refine ⟨fun hl => ?_, fun hc => ⟨hwf.sorted, hwf.capacity, ?_⟩⟩
  · cases c with
    | add s name => trivial
    | remove s => cases h; exact (nameOf_remove_iff ht s).mp hl.2.2
    | lookup s => exact (lookup_eq_iff ht s).mp hl.2.2.2
  · cases c with
    | add s name => cases h; exact nameOf_add ht s name
    | remove s => cases h; exact (nameOf_remove_iff ht s).mpr hc
    | lookup s => cases h; exact ⟨rfl, (lookup_eq_iff ht s).mpr hc⟩

/-- A sequence of calls from the empty table follows the map law throughout exactly when
every removal and lookup is in range. -/
theorem session_calls_mapLaw_iff (cs : List SessionCall) :
    AllSteps sessionStep MapLaw empty cs ↔ Guarded sessionStep CallInRange empty cs :=
  allSteps_iff_guarded (fun _ c _ ht h => mapLaw_iff ht c h)
    (fun _ c _ ht h _ => sessionStep_wellFormed ht c h) empty_wellFormed cs

/-- A session that never got an entry is answered with the next one's. -/
theorem lookup_absent_yields_next : ¬∀ cs, AllSteps sessionStep MapLaw empty cs := by
  intro h
  have hlookup := ((h [.add 9 [110, 100, 109, 58, 117], .lookup 7] _ rfl).2 _ rfl).1.2.2.2
  exact absurd hlookup (by decide)

end Presence3DS.Kernel
