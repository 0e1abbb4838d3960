import Mathlib.Data.Bool.AllAny
import Presence3DS.Pm.LaunchLocks
import Presence3DS.Pm.ProcessLists

/-! What `loadWithDependencies` leaves of the modules that it has started, and which failures it
tells of. -/

namespace Presence3DS.Pm.LaunchCalls

open NotedRuns NotedM ProcessList

/-! ## Changes of the list that only add references -/

/-- The kernel has given each process an id of its own. -/
structure Numbered (l : ProcessList) : Prop where
  nodup : (l.processes.map (·.pid)).Nodup
  lt : ∀ p ∈ l.processes, p.pid < l.nextPid

/-- Each process stays with what it is, and no reference is lost. -/
def Raises (l l' : ProcessList) : Prop :=
  ∃ f : ProcessData → ProcessData, l' = l.map f ∧ ∀ p ∈ l.processes,
    (f p).pid = p.pid ∧ (f p).autoloaded = p.autoloaded ∧ p.refcount.toNat ≤ (f p).refcount.toNat

variable {l l' l'' : ProcessList} {n : ℕ}

theorem Raises.refl (l : ProcessList) : Raises l l :=
  ⟨id, (map_eq_self fun _ _ => rfl).symm, fun _ _ => ⟨rfl, rfl, le_rfl⟩⟩

theorem Raises.trans (h : Raises l l') (h' : Raises l' l'') : Raises l l'' := by
  obtain ⟨f, rfl, hf⟩ := h
  obtain ⟨g, rfl, hg⟩ := h'
  refine ⟨g ∘ f, ?_, ?_⟩
  · rw [ProcessList.map, ProcessList.map, ProcessList.map, List.map_map]
  · intro p hp
    obtain ⟨hpid, hauto, hrefs⟩ := hf p hp
    obtain ⟨hpid', hauto', hrefs'⟩ := hg (f p) (mem_map.mpr ⟨p, hp, rfl⟩)
    exact ⟨hpid'.trans hpid, hauto'.trans hauto, hrefs.trans hrefs'⟩

theorem Numbered.map {f : ProcessData → ProcessData} (hl : Numbered l)
    (hf : ∀ p ∈ l.processes, (f p).pid = p.pid) : Numbered (l.map f) := by
  constructor
  · have hpids : (l.map f).processes.map (·.pid) = l.processes.map (·.pid) := by
      rw [ProcessList.map, List.map_map]
      exact List.map_congr_left hf
    rw [hpids]
    exact hl.nodup
  · intro q hq
    obtain ⟨p, hp, rfl⟩ := mem_map.mp hq
    rw [hf p hp]
    exact hl.lt p hp

theorem Raises.numbered (h : Raises l l') (hl : Numbered l) : Numbered l' := by
  obtain ⟨f, rfl, hf⟩ := h
  exact hl.map fun p hp => (hf p hp).1

theorem Raises.nextPid (h : Raises l l') : l'.nextPid = l.nextPid := by
  obtain ⟨f, rfl, -⟩ := h
  rfl

theorem raises_incref {pid amount : ℕ} (hl : Numbered l) (h : l.incref pid amount = some l') :
    Raises l l' := by
  unfold incref at h
  cases hfind : l.findProcessById pid with
  | none =>
    rw [hfind] at h
    obtain rfl := Option.some.inj h
    exact .refl l
  | some p =>
    rw [hfind] at h
    have hp : p ∈ l.processes := List.mem_of_find?_eq_some hfind
    have hpid : p.pid = pid := by simpa using List.find?_some hfind
    dsimp only at h
    split_ifs at h with hauto hfull
    · obtain rfl := Option.some.inj h
      refine ⟨only pid fun p => { p with refcount := p.refcount + UInt8.ofNat amount }, rfl, ?_⟩
      intro q hq
      unfold only
      split_ifs with hq'
      · refine ⟨rfl, rfl, ?_⟩
        obtain rfl := KeyedList.eq_of_key hl.nodup hq hp (hq'.trans hpid.symm)
        have hlt : amount < 256 := by omega
        show q.refcount.toNat ≤ (q.refcount + UInt8.ofNat amount).toNat
        rw [UInt8.toNat_add, UInt8.toNat_ofNat']
        omega
      · exact ⟨rfl, rfl, le_rfl⟩
    · obtain rfl := Option.some.inj h
      exact .refl l

theorem raises_applyRefcounts {deps : List Dependency} (hl : Numbered l)
    (h : applyRefcounts l deps = some l') : Raises l l' := by
  induction deps generalizing l with
  | nil =>
    obtain rfl := Option.some.inj h
    exact .refl l
  | cons d deps ih =>
    obtain ⟨l₁, hfirst, hrest⟩ := Option.bind_eq_some_iff.mp h
    have hraise : Raises l l₁ := by
      dsimp only at hfirst
      cases hproc : d.proc with
      | none =>
        rw [hproc] at hfirst
        obtain rfl := Option.some.inj hfirst
        exact .refl l
      | some pid =>
        rw [hproc] at hfirst
        exact raises_incref hl hfirst
    exact hraise.trans (ih (hraise.numbered hl) hrest)

theorem raises_merge {isN3ds : Bool} {deps deps' : List Dependency} {exheader : ExHeader}
    (hl : Numbered l)
    (h : listMergeUniqueDependencies isN3ds l deps exheader = some (l', deps')) :
    Raises l l' := by
  obtain ⟨ds, -, h⟩ := Option.bind_eq_some_iff.mp h
  obtain ⟨l₁, happly, h⟩ := Option.bind_eq_some_iff.mp h
  obtain ⟨rfl, -⟩ := Prod.mk.inj (Option.some.inj h)
  exact raises_applyRefcounts hl happly

/-! ## The modules that a launch has started -/

/-- A module from the id `n` on has references. -/
def Holds (n : ℕ) (l : ProcessList) : Prop :=
  ∃ p ∈ l.processes, n ≤ p.pid ∧ p.autoloaded = true ∧ 0 < p.refcount.toNat

/-- No process from the id `n` on is a module that was started for another title. -/
def StartsNone (n : ℕ) (l : ProcessList) : Prop :=
  ∀ p ∈ l.processes, n ≤ p.pid → p.autoloaded = false

theorem Raises.holds (h : Raises l l') (hl : Holds n l) : Holds n l' := by
  obtain ⟨f, rfl, hf⟩ := h
  obtain ⟨p, hp, hn, hauto, hrefs⟩ := hl
  obtain ⟨hpid, hauto', hrefs'⟩ := hf p hp
  refine ⟨f p, mem_map.mpr ⟨p, hp, rfl⟩, ?_, hauto'.trans hauto, hrefs.trans_le hrefs'⟩
  rw [hpid]
  exact hn

theorem Raises.startsNone (h : Raises l l') (hl : StartsNone n l) : StartsNone n l' := by
  obtain ⟨f, rfl, hf⟩ := h
  intro q hq hn
  obtain ⟨p, hp, rfl⟩ := mem_map.mp hq
  obtain ⟨hpid, hauto, -⟩ := hf p hp
  rw [hpid] at hn
  rw [hauto]
  exact hl p hp hn

theorem Numbered.new (hl : Numbered l) (exheader : ExHeader) : Numbered (l.new exheader) := by
  rw [new_eq_append]
  constructor
  · show ((l.processes ++ [ProcessData.new l.nextPid exheader]).map (·.pid)).Nodup
    rw [List.map_append, List.nodup_append]
    refine ⟨hl.nodup, List.nodup_singleton _, ?_⟩
    rintro _ hpid _ hnew rfl
    obtain ⟨p, hp, hp'⟩ := List.mem_map.mp hpid
    have hlt := hl.lt p hp
    rw [List.map_singleton, List.mem_singleton] at hnew
    exact absurd (hp'.trans hnew) (Nat.ne_of_lt hlt)
  · intro p hp
    obtain hp | rfl := mem_append.mp hp
    · exact (hl.lt p hp).trans (Nat.lt_succ_self _)
    · exact Nat.lt_succ_self _

theorem Holds.new (hl : Holds n l) (exheader : ExHeader) : Holds n (l.new exheader) := by
  obtain ⟨p, hp, hp'⟩ := hl
  exact ⟨p, mem_append.mpr (.inl hp), hp'⟩

theorem StartsNone.new (hl : StartsNone n l) (exheader : ExHeader) :
    StartsNone n (l.new exheader) := by
  intro p hp hn
  obtain hp | rfl := mem_append.mp hp
  · exact hl p hp hn
  · rfl

theorem startsNone_of_le (hl : Numbered l) (hn : l.nextPid ≤ n) : StartsNone n l :=
  fun p hp hp' => absurd ((hl.lt p hp).trans_le hn) (Nat.not_lt.mpr hp')

/-- The process that was just made becomes a module. -/
def autoload (pid : ℕ) : ProcessData → ProcessData :=
  only pid fun p => { p with autoloaded := true, dependenciesLoaded := true }

theorem autoload_pid (pid : ℕ) (p : ProcessData) : (autoload pid p).pid = p.pid := by
  unfold autoload only
  split_ifs
  · rfl
  · rfl

theorem holds_autoload (hn : n ≤ l.nextPid) (exheader : ExHeader) :
    Holds n ((l.new exheader).map (autoload l.nextPid)) := by
  have hmem : ProcessData.new l.nextPid exheader ∈ (l.new exheader).processes :=
    mem_append.mpr (.inr rfl)
  have heq : autoload l.nextPid (ProcessData.new l.nextPid exheader) =
      { ProcessData.new l.nextPid exheader with autoloaded := true, dependenciesLoaded := true } :=
    if_pos rfl
  refine ⟨_, mem_map.mpr ⟨_, hmem, rfl⟩, ?_⟩
  rw [heq]
  exact ⟨hn, rfl, Nat.one_pos⟩

theorem adopted_holds {isN3ds : Bool} {exheader : ExHeader} {deps deps' : List Dependency}
    {i : ℕ} {d : Dependency} (hl : Numbered l) (hn : n ≤ l.nextPid)
    (h : adopted isN3ds exheader l deps i d = some (l', deps')) :
    Numbered l' ∧ n ≤ l'.nextPid ∧ Holds n l' := by
  obtain ⟨l₁, hincref, hmerge⟩ := Option.bind_eq_some_iff.mp h
  change ((l.new exheader).map (autoload l.nextPid)).incref _ _ = some l₁ at hincref
  have hnumbered : Numbered ((l.new exheader).map (autoload l.nextPid)) :=
    (hl.new exheader).map fun p _ => autoload_pid l.nextPid p
  have hfirst := raises_incref hnumbered hincref
  have hraise := hfirst.trans (raises_merge (hfirst.numbered hnumbered) hmerge)
  refine ⟨hraise.numbered hnumbered, ?_, hraise.holds (holds_autoload hn exheader)⟩
  rw [hraise.nextPid]
  exact hn.trans (Nat.le_succ _)

variable {isN3ds : Bool} {numKips : ℕ} {calls : UInt64 → Calls} {titleId : UInt64}
  {flags : LaunchFlags} {s : Manager} {fuel i : ℕ} {deps : List Dependency} {res b : Bool}

/-- A launch starts. -/
def Starts (numKips : ℕ) (calls : UInt64 → Calls) (t : UInt64) : Prop :=
  outcome numKips (calls t) t = .started

variable {ts : List UInt64} {r : Option Bool × Manager × List Event}

theorem starts_of_cons {t : UInt64} (ho : ¬Starts numKips calls t)
    (h : ∃ u ∈ t :: ts, Starts numKips calls u) : ∃ u ∈ ts, Starts numKips calls u := by
  obtain ⟨u, hu, hstarts⟩ := h
  obtain rfl | hu := List.mem_cons.mp hu
  · exact absurd hstarts ho
  · exact ⟨u, hu, hstarts⟩

instance (t : UInt64) : Decidable (Starts numKips calls t) :=
  inferInstanceAs (Decidable (_ = _))

theorem LoopRun.holds (hrun : LoopRun isN3ds numKips calls s ts res r)
    (hl : Numbered s.processList) (hn : n ≤ s.processList.nextPid) (h : r.1 = some b)
    (hholds : Holds n s.processList ∨ ∃ t ∈ ts, Starts numKips calls t) :
    Holds n r.2.1.processList := by
  induction hrun with
  | ended s res =>
    obtain hholds | ⟨t, ht, -⟩ := hholds
    · exact hholds
    · exact absurd ht List.not_mem_nil
  | panics hnone hpanic => exact absurd (h.symm.trans hnone) (Option.some_ne_none b)
  | prevented ho => exact absurd h (Option.some_ne_none b).symm
  | unregistered ho hrest ih =>
    exact ih hl hn h (hholds.imp_right (starts_of_cons (by simp [Starts, ho])))
  | unloaded ho hrest ih =>
    exact ih hl hn h (hholds.imp_right (starts_of_cons (by simp [Starts, ho])))
  | broken ho =>
    obtain hholds | hstarts := hholds
    · exact hholds.new _
    · obtain ⟨t, ht, -⟩ := starts_of_cons (by simp [Starts, ho]) hstarts
      exact absurd ht List.not_mem_nil
  | notRun ho =>
    obtain hholds | hstarts := hholds
    · exact hholds.new _
    · obtain ⟨t, ht, -⟩ := starts_of_cons (by simp [Starts, ho]) hstarts
      exact absurd ht List.not_mem_nil
  | started ho hadopt hrest ih =>
    obtain ⟨hl', hn', hholds'⟩ := adopted_holds hl hn hadopt
    exact ih hl' hn' h (.inl hholds')

theorem LoopRun.startsNone (hrun : LoopRun isN3ds numKips calls s ts res r)
    (hnone : ∀ t ∈ ts, ¬Starts numKips calls t) (h : r.1 = some b)
    (hl : StartsNone n s.processList) : StartsNone n r.2.1.processList := by
  induction hrun with
  | ended s res => exact hl
  | panics hend _ => exact absurd (h.symm.trans hend) (Option.some_ne_none b)
  | prevented ho => exact absurd h (Option.some_ne_none b).symm
  | unregistered ho hrest ih => exact ih (List.forall_mem_cons.mp hnone).2 h hl
  | unloaded ho hrest ih => exact ih (List.forall_mem_cons.mp hnone).2 h hl
  | broken ho => exact hl.new _
  | notRun ho => exact hl.new _
  | started ho hadopt hrest ih => exact absurd ho (List.forall_mem_cons.mp hnone).1

theorem LoopRun.tells (hrun : LoopRun isN3ds numKips calls s ts res r) (h : .panic ∉ r.2.2) :
    ((∃ t, .launched t false ∈ r.2.2) ↔ ∃ t ∈ ts, ¬Starts numKips calls t) ∧
    (.nullDereference ∈ r.2.2 ↔ ∃ t ∈ ts, outcome numKips (calls t) t = .prevented) ∧
    (r.1 = none ↔ ∃ t ∈ ts, outcome numKips (calls t) t = .prevented) := by
  induction hrun with
  | ended s res => simp
  | panics hnone hpanic => exact absurd hpanic h
  | prevented ho => simp [Starts, ho]
  | unregistered ho hrest ih =>
    obtain ⟨hfails, hnull, hnone⟩ := ih fun hp => h (List.mem_append_right _ hp)
    simp [noting, Starts, ho, hnull, hnone]
  | unloaded ho hrest ih =>
    obtain ⟨hfails, hnull, hnone⟩ := ih fun hp => h (List.mem_append_right _ hp)
    simp [noting, Starts, ho, hnull, hnone]
  | broken ho => simp [Starts, ho]
  | notRun ho => simp [Starts, ho]
  | started ho hadopt hrest ih =>
    obtain ⟨hfails, hnull, hnone⟩ := ih fun hp => h (List.mem_append_right _ hp)
    simp [noting, Starts, ho, hnull, hnone] at hfails ⊢
    exact hfails

theorem lastResult_of_starts (h : ∀ t ∈ ts, Starts numKips calls t) :
    lastResult numKips calls true ts = true := by
  induction ts with
  | nil => rfl
  | cons t ts ih =>
    obtain ⟨ht, hts⟩ := List.forall_mem_cons.mp h
    have hstarts : decide (outcome numKips (calls t) t = .started) = true := decide_eq_true ht
    rw [lastResult_cons, hstarts]
    exact ih hts

theorem lastResult_of_fails (hne : ts ≠ []) (h : ∀ t ∈ ts, ¬Starts numKips calls t) :
    lastResult numKips calls res ts = false := by
  induction ts generalizing res with
  | nil => exact absurd rfl hne
  | cons t ts ih =>
    obtain ⟨ht, hts⟩ := List.forall_mem_cons.mp h
    have hfails : decide (outcome numKips (calls t) t = .started) = false := decide_eq_false ht
    rw [lastResult_cons, hfails]
    cases ts with
    | nil => rfl
    | cons u us => exact ih (List.cons_ne_nil u us) hts

/-! ## What a caller may rely on -/

/-- Every launch that fails is told of by the result. -/
def TellsFailures (r : Option (Option ℕ × Bool) × Manager × List Event) : Prop :=
  (∃ t, .launched t false ∈ r.2.2) → ∀ a, r.1 = some a → a.2 = false

/-- After a failure no module that was started for this launch has references. -/
def UndoesReferences (l : ProcessList) (r : Option (Option ℕ × Bool) × Manager × List Event) :
    Prop :=
  ∀ proc, r.1 = some (proc, false) → ∀ p ∈ r.2.1.processList.processes, l.nextPid ≤ p.pid →
    p.autoloaded = true → p.refcount = 0

/-- What the launch of dependencies is to do, however the launches end. -/
structure LoadsAtomically (l : ProcessList)
    (r : Option (Option ℕ × Bool) × Manager × List Event) : Prop where
  tells : TellsFailures r
  noNull : .nullDereference ∉ r.2.2
  undoes : UndoesReferences l r

variable {c : Calls}

theorem raises_markLoaded (pid : ℕ) (deps : List Dependency) (l : ProcessList) :
    Raises l (markLoaded pid deps l) := by
  unfold markLoaded
  split_ifs
  · refine ⟨only pid fun p => { p with dependenciesLoaded := true }, rfl, fun p _ => ?_⟩
    unfold only
    split_ifs
    · exact ⟨rfl, rfl, le_rfl⟩
    · exact ⟨rfl, rfl, le_rfl⟩
  · exact .refl l

theorem listed_startsNone (hl : Numbered l)
    (h : listed isN3ds c l = some (l', deps)) :
    Numbered l' ∧ l.nextPid ≤ l'.nextPid ∧ StartsNone l.nextPid l' := by
  obtain ⟨⟨l₁, deps₁⟩, hmerge, hmark⟩ := Option.map_eq_some_iff.mp h
  obtain ⟨rfl, rfl⟩ := Prod.mk.inj hmark
  have hnew := hl.new c.exheader
  have hraise := (raises_merge hnew hmerge).trans (raises_markLoaded l.nextPid deps₁ l₁)
  refine ⟨hraise.numbered hnew, ?_, hraise.startsNone ((startsNone_of_le hl le_rfl).new _)⟩
  rw [hraise.nextPid]
  exact Nat.le_succ _

/-- The loop is what it is to be exactly where all launches start, or none does and none is
prevented. -/
theorem LoopRun.loadsAtomically_iff {proc : Option ℕ} {es : List Event}
    (hrun : LoopRun isN3ds numKips calls s ts true r) (hpanic : .panic ∉ r.2.2)
    (hl : Numbered s.processList) (hn : l.nextPid ≤ s.processList.nextPid)
    (hnone : StartsNone l.nextPid s.processList)
    (hfirst : ∀ e ∈ es, e = .lock ∨ e = .unlock) :
    LoadsAtomically l (r.1.map fun res => (proc, res), r.2.1, es ++ r.2.2) ↔
      (∀ t ∈ ts, Starts numKips calls t) ∨
        ∀ t ∈ ts, ¬Starts numKips calls t ∧ outcome numKips (calls t) t ≠ .prevented := by
  obtain ⟨hfails, hnull, hend⟩ := hrun.tells hpanic
  have hother : ∀ e : Event, e ≠ .lock → e ≠ .unlock → (e ∈ es ++ r.2.2 ↔ e ∈ r.2.2) := by
    intro e hlock hunlock
    rw [List.mem_append, or_iff_right]
    exact fun he => (hfirst e he).elim hlock hunlock
  have hnull' : .nullDereference ∈ es ++ r.2.2 ↔
      ∃ t ∈ ts, outcome numKips (calls t) t = .prevented := by
    rw [hother _ (by decide) (by decide), hnull]
  have hfails' : (∃ t, .launched t false ∈ es ++ r.2.2) ↔ ∃ t ∈ ts, ¬Starts numKips calls t := by
    rw [← hfails]
    exact exists_congr fun t => hother _ (by simp) (by simp)
  by_cases hprevented : ∃ t ∈ ts, outcome numKips (calls t) t = .prevented
  · refine iff_of_false (fun h => h.noNull (hnull'.mpr hprevented)) ?_
    obtain ⟨t, ht, ho⟩ := hprevented
    rintro (hall | hall)
    · exact absurd (ho.symm.trans (hall t ht)) (by decide)
    · exact (hall t ht).2 ho
  obtain ⟨b, hb⟩ := Option.ne_none_iff_exists'.mp fun h => hprevented (hend.mp h)
  have hlast := (hrun.locks hb).2
  rw [hb, Option.map_some]
  constructor
  · intro h
    by_contra hmixed
    obtain ⟨hsome, hsome'⟩ := not_or.mp hmixed
    obtain ⟨t, ht, hnot⟩ : ∃ t ∈ ts, ¬Starts numKips calls t := by simpa using hsome
    have hstarts : ∃ t ∈ ts, Starts numKips calls t := by
      by_contra hnever
      refine hsome' fun u hu => ⟨fun hu' => hnever ⟨u, hu, hu'⟩, fun ho => hprevented ⟨u, hu, ho⟩⟩
    obtain rfl : b = false := h.tells (hfails'.mpr ⟨t, ht, hnot⟩) _ rfl
    obtain ⟨p, hp, hpid, hauto, hrefs⟩ := hrun.holds hl hn hb (.inr hstarts)
    have hzero := h.undoes proc rfl p hp hpid hauto
    rw [hzero] at hrefs
    exact absurd hrefs (Nat.lt_irrefl 0)
  · rintro (hall | hall)
    · rw [lastResult_of_starts hall] at hlast
      refine ⟨fun htold => ?_, fun h => hprevented (hnull'.mp h), ?_⟩
      · obtain ⟨t, ht, hnot⟩ := hfails'.mp htold
        exact absurd (hall t ht) hnot
      · rintro proc' hfalse
        rw [hlast] at hfalse
        exact absurd (congrArg Prod.snd (Option.some.inj hfalse)) Bool.true_eq_false.mp
    · have hnever : ∀ t ∈ ts, ¬Starts numKips calls t := fun t ht => (hall t ht).1
      refine ⟨?_, fun h => hprevented (hnull'.mp h), ?_⟩
      · rintro htold a ha
        obtain ⟨t, ht, -⟩ := hfails'.mp htold
        rw [lastResult_of_fails (List.ne_nil_of_mem ht) hnever] at hlast
        rw [← Option.some.inj ha]
        exact hlast
      · rintro proc' - p hp hpid hauto
        have hnew := hrun.startsNone hnever hb hnone p hp hpid
        exact absurd (hnew.symm.trans hauto) Bool.false_ne_true

/-- `loadWithDependencies` that does not panic tells of every failure, meets no missing process and
undoes what it did exactly where all launches start, or none does and none is prevented. -/
theorem loadWithDependencies_atomic_iff (hl : Numbered s.processList)
    (hpanic : .panic ∉ (loadWithDependencies isN3ds numKips calls c titleId flags s).2.2) :
    LoadsAtomically s.processList (loadWithDependencies isN3ds numKips calls c titleId flags s) ↔
      (loadOutcome c titleId flags = .loaded →
        (∀ t ∈ triedFor isN3ds numKips calls c flags s.processList, Starts numKips calls t) ∨
        ∀ t ∈ triedFor isN3ds numKips calls c flags s.processList,
          ¬Starts numKips calls t ∧ outcome numKips (calls t) t ≠ .prevented) := by
  by_cases hload : loadOutcome c titleId flags = .loaded
  · rw [forall_prop_of_true hload]
    cases hlisted : listed isN3ds c s.processList with
    | none => exact absurd (loadWithDependencies_unlisted hload hlisted).2 hpanic
    | some next =>
    obtain ⟨l, deps⟩ := next
    obtain ⟨hl', hn, hnone⟩ := listed_startsNone hl hlisted
    cases hfake : flags.fakeDependencyLoading with
    | true =>
      obtain ⟨htried, hrun⟩ := loadWithDependencies_fake numKips calls hload hlisted hfake
      rw [htried, hrun]
      refine iff_of_true ⟨?_, by simp, ?_⟩ (.inl fun t ht => absurd ht List.not_mem_nil)
      · rintro ⟨t, ht⟩
        exact absurd ht (by simp)
      · rintro proc hfalse
        exact absurd (congrArg Prod.snd (Option.some.inj hfalse)) Bool.true_eq_false.mp
    | false =>
      obtain ⟨run, hloop, hrun⟩ := loadWithDependencies_loop hload hlisted hfake
      rw [hrun] at hpanic ⊢
      exact hloop.loadsAtomically_iff (fun h => hpanic (List.mem_append_right _ h)) hl' hn hnone
        (by simp)
  · refine iff_of_true ?_ fun h => absurd h hload
    rw [loadWithDependencies_failed hload, loadWithoutDependencies_eq]
    have hnone := startsNone_of_le hl (le_refl s.processList.nextPid)
    have hundoes : ∀ s' : Manager, StartsNone s.processList.nextPid s'.processList →
        ∀ (o : Option (Option ℕ × Bool)) (es : List Event),
          UndoesReferences s.processList (o, s', es) := by
      intro s' hs' o es proc _ p hp hpid hauto
      exact absurd ((hs' p hp hpid).symm.trans hauto) Bool.false_ne_true
    cases hload' : loadOutcome c titleId flags with
    | noProcess => exact ⟨by simp [TellsFailures], by simp, hundoes _ hnone _ _⟩
    | panics => exact ⟨by simp [TellsFailures], by simp, hundoes _ hnone _ _⟩
    | broken => exact ⟨by simp [TellsFailures], by simp, hundoes _ (hnone.new _) _ _⟩
    | loaded => exact absurd hload' hload

theorem numbered_noManager : Numbered noManager.processList :=
  ⟨List.nodup_nil, fun _ h => absurd h List.not_mem_nil⟩

theorem loadWithDependencies_atomic_application :
    LoadsAtomically noManager.processList (loadWithDependencies true 6 oneDependency
      (oneDependency 0x0004000000033500) 0x0004000000033500 applicationFlags noManager) :=
  (loadWithDependencies_atomic_iff numbered_noManager (by decide +kernel)).mpr
    fun _ => .inl (List.all_iff_forall_prop.mp (by decide +kernel))

/-- An application with two dependencies, of which the first may not be there. -/
def twoDependencies (first : UInt64) (there : Bool) (titleId : UInt64) : Calls :=
  if titleId = 0x0004000000033500 then succeeding titleId [first, 0x0004013000001502]
  else if titleId = first then { succeeding titleId [] with registerProgram := there }
  else succeeding titleId []

def loadTwo (numKips : ℕ) (calls : UInt64 → Calls) :
    Option (Option ℕ × Bool) × Manager × List Event :=
  loadWithDependencies true numKips calls (calls 0x0004000000033500) 0x0004000000033500
    applicationFlags noManager

/-- A missing dependency is forgotten when the next one starts; ErrDisp, whose launch is prevented,
is a null pointer; and a module that was started keeps its reference when the next one fails. -/
theorem loads_unatomically :
    ¬LoadsAtomically noManager.processList
        (loadTwo 5 (twoDependencies 0x0004013000001602 false)) ∧
    ¬LoadsAtomically noManager.processList
        (loadTwo 6 (twoDependencies 0x0004003000008A02 true)) ∧
    ¬LoadsAtomically noManager.processList
        (loadTwo 5 fun t => { twoDependencies 0x0004013000001602 true t with
          srvpmRegisterProcess := decide (t ≠ 0x0004013000001502) }) := by
  refine ⟨fun h => ?_, fun h => ?_, fun h => ?_⟩
  · have hres : (loadTwo 5 (twoDependencies 0x0004013000001602 false)).1 = some (some 0, true) := by
      decide +kernel
    have htold := h.tells ⟨0x0004013000001602, by decide +kernel⟩ _ hres
    exact Bool.true_eq_false.mp htold
  · exact h.noNull (by decide +kernel)
  · have hp := h.undoes (some 0) (by decide +kernel)
      ⟨1, ⟨0x0004013000001602, []⟩, false, true, true, false, .running, 1⟩ (by decide +kernel)
      (by decide) rfl
    exact absurd hp (by decide)

end Presence3DS.Pm.LaunchCalls
