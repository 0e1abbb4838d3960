import Mathlib.Algebra.BigOperators.Group.List.Basic
import Presence3DS.Lib.KeyedList
import Presence3DS.Pm.Launch

/-! What the operations on the list of processes of `pm` keep: the ids, and which process is found
for the title of an autoloaded module. -/

namespace Presence3DS.Pm

namespace ProcessList
variable {l : ProcessList} {p q : ProcessData} {f : ProcessData → ProcessData} {t : UInt64}

/-- The ids are different and have been given by the kernel, and an autoloaded module is the process
that is found for its title. -/
structure Well (l : ProcessList) : Prop where
  nodup : (l.processes.map (·.pid)).Nodup
  lt : ∀ p ∈ l.processes, p.pid < l.nextPid
  found : ∀ p ∈ l.processes, p.autoloaded = true → l.findProcessByTitleId p.titleId = some p

def map (f : ProcessData → ProcessData) (l : ProcessList) : ProcessList :=
  { l with processes := l.processes.map f }

/-- A change of a process that leaves what identifies it, and does not make it a module. -/
structure Keeps (f : ProcessData → ProcessData) : Prop where
  pid : ∀ p, (f p).pid = p.pid
  exheader : ∀ p, (f p).exheader = p.exheader
  autoloaded : ∀ p, (f p).autoloaded = true → p.autoloaded = true

theorem Keeps.titleId (hf : Keeps f) (p : ProcessData) : (f p).titleId = p.titleId :=
  congrArg ExHeader.titleId (hf.exheader p)

/-- A change of one process as a change of the list. -/
def only (pid : ℕ) (f : ProcessData → ProcessData) (p : ProcessData) : ProcessData :=
  if p.pid = pid then f p else p

theorem update_eq_map (pid : ℕ) : l.update pid f = l.map (only pid f) := rfl

theorem Keeps.only (hf : Keeps f) (pid : ℕ) : Keeps (only pid f) := by
  constructor
  · intro p
    rw [ProcessList.only]
    split
    · exact hf.pid p
    · rfl
  · intro p
    rw [ProcessList.only]
    split
    · exact hf.exheader p
    · rfl
  · intro p
    rw [ProcessList.only]
    split
    · exact hf.autoloaded p
    · exact id

theorem map_congr_left {g : ProcessData → ProcessData} (h : ∀ p ∈ l.processes, f p = g p) :
    l.map f = l.map g := by
  rw [map, map, List.map_congr_left h]

theorem map_eq_self (h : ∀ p ∈ l.processes, f p = p) : l.map f = l := by
  have hid : l.map f = l.map id := map_congr_left h
  rw [hid, map, List.map_id]

theorem mem_map : q ∈ (l.map f).processes ↔ ∃ p ∈ l.processes, f p = q := List.mem_map

theorem findProcessByTitleId_map (hf : Keeps f) :
    (l.map f).findProcessByTitleId t = (l.findProcessByTitleId t).map f := by
  rw [findProcessByTitleId, findProcessByTitleId, map, List.find?_map]
  congr 2
  funext p
  show decide ((f p).titleId &&& ~~~0xFF = t &&& ~~~0xFF) = _
  rw [hf.titleId]

theorem mem_of_find (h : l.findProcessByTitleId t = some p) :
    p ∈ l.processes ∧ p.titleId &&& ~~~0xFF = t &&& ~~~0xFF := by
  have htitle := List.find?_some h
  exact ⟨List.mem_of_find?_eq_some h, of_decide_eq_true htitle⟩

/-- The list with a process that the kernel has just made. -/
def append (l : ProcessList) (p : ProcessData) : ProcessList :=
  ⟨l.processes ++ [p], l.nextPid + 1⟩

theorem new_eq_append (exheader : ExHeader) :
    l.new exheader = l.append (ProcessData.new l.nextPid exheader) := rfl

theorem find_append : (l.append p).findProcessByTitleId t = (l.findProcessByTitleId t).or
    (if p.titleId &&& ~~~0xFF = t &&& ~~~0xFF then some p else none) := by
  rw [findProcessByTitleId, append, List.find?_append, List.find?_singleton]
  simp only [decide_eq_true_eq]
  rfl

theorem mem_append : q ∈ (l.append p).processes ↔ q ∈ l.processes ∨ q = p := by
  rw [append, List.mem_append, List.mem_singleton]

namespace Well

theorem eq_of_pid (h : l.Well) (hp : p ∈ l.processes) (hq : q ∈ l.processes)
    (hpid : p.pid = q.pid) : p = q := KeyedList.eq_of_key h.nodup hp hq hpid

theorem findProcessById (h : l.Well) (hp : p ∈ l.processes) :
    l.findProcessById p.pid = some p := KeyedList.find?_key h.nodup hp

protected theorem map (h : l.Well) (hf : Keeps f) : (l.map f).Well := by
  constructor
  · rw [ProcessList.map, List.map_map]
    have hpid : ((fun p : ProcessData => p.pid) ∘ f) = fun p => p.pid := funext hf.pid
    rw [hpid]
    exact h.nodup
  · intro q hq
    obtain ⟨p, hp, rfl⟩ := mem_map.mp hq
    rw [hf.pid]
    exact h.lt p hp
  · intro q hq hauto
    obtain ⟨p, hp, rfl⟩ := mem_map.mp hq
    rw [findProcessByTitleId_map hf, hf.titleId, h.found p hp (hf.autoloaded p hauto)]
    rfl

protected theorem update (h : l.Well) (hf : Keeps f) (pid : ℕ) : (l.update pid f).Well :=
  h.map (hf.only pid)

protected theorem append (h : l.Well) (hpid : p.pid = l.nextPid)
    (hfind : p.autoloaded = true → l.findProcessByTitleId p.titleId = none) :
    (l.append p).Well := by
  constructor
  · rw [append, List.map_append, List.map_singleton, List.nodup_append]
    refine ⟨h.nodup, List.nodup_singleton _, ?_⟩
    intro pid hmem pid' hmem' heq
    obtain ⟨q, hq, rfl⟩ := List.mem_map.mp hmem
    rw [List.mem_singleton] at hmem'
    exact absurd (heq.trans (hmem'.trans hpid)) (Nat.ne_of_lt (h.lt q hq))
  · intro q hq
    show q.pid < l.nextPid + 1
    rcases mem_append.mp hq with hq | rfl
    · exact (h.lt q hq).trans (Nat.lt_succ_self _)
    · exact hpid ▸ Nat.lt_succ_self _
  · intro q hq hauto
    rw [find_append]
    rcases mem_append.mp hq with hq | rfl
    · rw [h.found q hq hauto, Option.some_or]
    · rw [hfind hauto, Option.none_or, if_pos rfl]

protected theorem delete (h : l.Well) (pid : ℕ) : (l.delete pid).Well := by
  have hmem : ∀ {q}, q ∈ (l.delete pid).processes → q ∈ l.processes ∧ q.pid ≠ pid := by
    intro q hq
    obtain ⟨hq, hne⟩ := List.mem_filter.mp hq
    exact ⟨hq, of_decide_eq_true hne⟩
  constructor
  · exact h.nodup.sublist (List.filter_sublist.map _)
  · intro q hq
    exact h.lt q (hmem hq).1
  · intro q hq hauto
    obtain ⟨hq, hne⟩ := hmem hq
    obtain ⟨htitle, s, s', hs, hbefore⟩ :=
      List.find?_eq_some_iff_append.mp (h.found q hq hauto)
    refine List.find?_eq_some_iff_append.mpr ⟨htitle, s.filter (fun p => p.pid ≠ pid),
      s'.filter (fun p => p.pid ≠ pid), ?_, ?_⟩
    · show l.processes.filter (fun p => p.pid ≠ pid) = _
      rw [hs, List.filter_append, List.filter_cons, if_pos (decide_eq_true hne)]
    · intro p hp
      exact hbefore p (List.mem_of_mem_filter hp)

theorem update_append (h : l.Well) (hpid : p.pid = l.nextPid) :
    (l.append p).update l.nextPid f = l.append (f p) := by
  rw [update, append, append, List.map_append, List.map_singleton, if_pos hpid]
  congr 2
  calc _
    _ = l.processes.map id :=
      List.map_congr_left fun q hq => if_neg (Nat.ne_of_lt (h.lt q hq))
    _ = l.processes := List.map_id _

end Well

end ProcessList

end Presence3DS.Pm
