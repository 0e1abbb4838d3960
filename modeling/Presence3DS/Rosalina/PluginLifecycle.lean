import Presence3DS.Rosalina.PluginLoader

/-! The runs of the plugin loader in which its context and what the kernel holds for it stay
consistent. -/

namespace Presence3DS.Rosalina.PluginLoader
open NotedRuns NotedM Runs

/-! ## What the parts do -/

section
variable {good : Effect → Prop} {a : Answers} {s : State} {process : ℕ} {owner : Option ℕ}
  {Q : Unit → State → Prop}

theorem wp_memoryBlockFree (hready : s.isReady = true) (hblock : s.memblock = some owner)
    (hfree : a.fails .free = false) : wp good (memoryBlockFree a) Q s ↔ good (.free owner) ∧
      Q () { s with blocks := s.blocks.erase owner, isReady := false, memblock := none } := by
  unfold memoryBlockFree
  rw [wp_bind, wp_gets]
  simp only [id, hblock, hready, hfree, if_true, Bool.false_eq_true, if_false, wp_bind, wp_note,
    wp_modify]

theorem wp_memoryBlockFree_clear (hready : s.isReady = false) :
    wp good (memoryBlockFree a) Q s ↔ Q () s := by
  unfold memoryBlockFree
  rw [wp_bind, wp_gets]
  cases hblock : s.memblock with
  | none => simp only [id, hblock, wp_pure]
  | some owner => simp only [id, hblock, hready, Bool.false_eq_true, if_false, wp_pure]

theorem wp_memoryBlockIsReady (hready : s.isReady = false) :
    wp good (memoryBlockIsReady a) Q s ↔ (a.fails .alloc = false →
      Q () { s with
        isReady := true, memblock := some s.target, blocks := s.target :: s.blocks }) := by
  unfold memoryBlockIsReady
  rw [wp_bind, wp_gets]
  cases halloc : a.fails .alloc with
  | true => simp [hready, wp_fail]
  | false => simp [hready, wp_modify]

/-- Both parts are mapped in a process, or unmapped. -/
def setBoth (mapped : Part → ℕ → Bool) (process : ℕ) (b : Bool) : Part → ℕ → Bool :=
  fun part other => if other = process then b else mapped part other

theorem update_update (mapped : Part → ℕ → Bool) (b : Bool) :
    (let m := Function.update mapped .exe (Function.update (mapped .exe) process b)
    Function.update m .heap (Function.update (m .heap) process b)) =
      setBoth mapped process b := by
  funext part other
  cases part <;> simp [setBoth, Function.update_apply]

theorem wp_mountInProcess {Q : Bool → State → Prop} (htarget : s.target = some process)
    (hheap : a.fails .mapHeap = false) : wp good (mountInProcess a) Q s ↔
      if a.fails .mapExe then Q false s
      else Q true { s with mapped := setBoth s.mapped process true } := by
  unfold mountInProcess
  rw [wp_bind, wp_gets]
  simp only [id, htarget]
  cases hexe : a.fails .mapExe with
  | true => exact wp_pure
  | false =>
    simp only [setMapped, wp_bind, wp_modify, hheap, Bool.false_eq_true, if_false, wp_pure]
    rw [← update_update, htarget]

theorem wp_unmountFromProcess (htarget : s.target = some process)
    (hexe : a.fails .unmapExe = false) (hheap : a.fails .unmapHeap = false) :
    wp good (unmountFromProcess a) Q s ↔ good (.unmap process) ∧
      Q () { s with mapped := setBoth s.mapped process false } := by
  unfold unmountFromProcess unmapPart
  simp only [wp_bind, wp_gets, id, htarget, hexe, hheap, Bool.false_eq_true, if_false, wp_note,
    setMapped, wp_modify]
  rw [← update_update, ← and_assoc, and_self_iff]

theorem wp_closeTarget (htarget : s.target = some process) :
    wp good closeTarget Q s ↔ good (.close process) ∧
      Q () { s with handles := s.handles.erase process } := by
  unfold closeTarget
  simp only [wp_bind, wp_gets, id, htarget, wp_note, wp_modify]

theorem wp_setStatus {status : Status} : wp good (setStatus status) Q s ↔
    Q () { s with status := status, homeEvent := false, exitEvent := none } :=
  wp_modify

theorem wp_waitForReply (hgood : good (.readHeader true)) (hready : s.isReady = true) :
    wp good waitForReply Q s ↔ Q () s := by
  unfold waitForReply
  simp only [wp_bind, wp_gets, id, hready]
  rw [wp_ite, wp_pure, wp_note, and_iff_right hgood, ite_self]

end

/-! ## The invariant -/

/-- Nothing is allocated, and nothing is mapped. -/
structure Clear (s : State) : Prop where
  ready : s.isReady = false
  blocks : s.blocks = []
  mapped : ∀ part process, s.mapped part process = false

/-- The block is allocated for a process and mapped there. -/
structure Held (app : ℕ) (s : State) : Prop where
  ready : s.isReady = true
  memblock : s.memblock = some (some app)
  blocks : s.blocks = [some app]
  mapped : ∀ part process, s.mapped part process = true ↔ process = app

/-- No application has a plugin. -/
structure Idle (s : State) : Prop where
  target : s.target = none
  handles : s.handles = []
  plugin : s.plugin = none
  tasks : s.tasks = []
  status : s.status = .none
  home : s.homeEvent = false
  exit : s.exitEvent = none
  swapped : s.pluginIsSwapped = false
  clear : Clear s

/-- An application has a plugin, up to the first part of its cleanup. -/
structure Loaded (app : ℕ) (s : State) : Prop where
  target : s.target = some app
  handles : s.handles = [app]
  plugin : s.plugin = some app
  exit : ∀ process, s.exitEvent = some process → process = app
  memory : if s.pluginIsSwapped = true then Clear s else Held app s
  phase : s.tasks = [] ∧ s.status ≠ .exiting ∨
    s.tasks = [(.waiting, some app)] ∧ s.status = .exiting

/-- An application is cleaned up behind. -/
structure Cleaning (app : ℕ) (s : State) : Prop where
  target : s.target = some app
  plugin : s.plugin = none
  status : s.status = .exiting
  clear : Clear s
  phase : s.tasks = [(.closing, some app)] ∧ s.handles = [app] ∨
    s.tasks = [(.resetting, some app)] ∧ s.handles = []

def Inv (s : State) : Prop := Idle s ∨ (∃ app, Loaded app s) ∨ ∃ app, Cleaning app s

theorem Clear.consistent {s : State} (h : Clear s)
    (hplugin : s.plugin = none ∨ s.pluginIsSwapped = true)
    (htarget : ∀ process, s.plugin = some process → s.target = some process) : Consistent s := by
  refine ⟨?_, fun hready => absurd hready (by simp [h.ready]), fun part process => ?_, htarget⟩
  · rw [h.blocks, h.ready]
    rfl
  · rw [h.mapped]
    refine iff_of_false Bool.false_ne_true ?_
    rintro ⟨hsome, hswapped⟩
    rcases hplugin with hnone | hswapped'
    · exact Option.some_ne_none process (hsome.symm.trans hnone)
    · exact Bool.false_ne_true (hswapped.symm.trans hswapped')

theorem Held.consistent {s : State} {app : ℕ} (h : Held app s) (hplugin : s.plugin = some app)
    (hswapped : s.pluginIsSwapped = false) (htarget : s.target = some app) : Consistent s := by
  refine ⟨?_, fun _ hnone => ?_, fun part process => ?_, fun process hsome => ?_⟩
  · rw [h.blocks, h.ready, h.memblock]
    rfl
  · exact Option.some_ne_none _ (h.memblock.symm.trans hnone)
  · rw [h.mapped, hplugin, Option.some_inj, and_iff_left hswapped, eq_comm]
  · exact htarget.trans (hplugin.symm.trans hsome)

theorem Inv.consistent {s : State} (h : Inv s) : Consistent s := by
  rcases h with h | ⟨app, h⟩ | ⟨app, h⟩
  · exact h.clear.consistent (.inl h.plugin) fun process hsome =>
      absurd (hsome.symm.trans h.plugin) (Option.some_ne_none process)
  · have hmemory := h.memory
    split_ifs at hmemory with hswapped
    · exact hmemory.consistent (.inr hswapped) fun process hsome =>
        h.target.trans (h.plugin.symm.trans hsome)
    · exact hmemory.consistent h.plugin (Bool.not_eq_true _ ▸ hswapped) h.target
  · exact h.clear.consistent (.inl h.plugin) fun process hsome =>
      absurd (hsome.symm.trans h.plugin) (Option.some_ne_none process)

/-! ## The conditions -/

/-- A load comes only when no application has a plugin, an exit is signalled only for the one that
has it, and the kernel maps, unmaps and frees what it is asked to once the memory is there. -/
def Undisturbed (s : State) : Action → Prop
  | .load _ a => s.target = none ∧ a.fails .mapHeap = false ∧ a.fails .mapGame = false ∧
      a.fails .free = false
  | .exit process terminated => s.signalOnExit process = true →
      signalsExit s.status terminated → s.plugin = some process
  | .notification a => a.fails .mapExe = false ∧ a.fails .mapHeap = false ∧
      a.fails .unmapExe = false ∧ a.fails .unmapHeap = false ∧ a.fails .free = false
  | .task a => a.fails .unmapExe = false ∧ a.fails .unmapHeap = false ∧ a.fails .free = false
  | _ => True

instance (s : State) : (act : Action) → Decidable (Undisturbed s act)
  | .setEnabled _ | .setSwapFunction _ | .home => inferInstanceAs (Decidable True)
  | .load _ _ => inferInstanceAs (Decidable (_ ∧ _))
  | .exit _ _ => inferInstanceAs (Decidable (_ → _))
  | .notification _ => inferInstanceAs (Decidable (_ ∧ _))
  | .task _ => inferInstanceAs (Decidable (_ ∧ _))

/-! ## Loads -/

section
variable {isN3DS : Bool} {a : Answers} {s : State} {app : ℕ}

/-- A load is under way for an application. -/
structure Attempt (app : ℕ) (s : State) : Prop where
  target : s.target = some app
  handles : s.handles = [app]
  plugin : s.plugin = none
  tasks : s.tasks = []
  status : s.status = .none
  home : s.homeEvent = false
  exit : s.exitEvent = none
  swapped : s.pluginIsSwapped = false

/-- What a load leaves: the memory of the plugin, or nothing. -/
def Attempted (app : ℕ) (loaded : Bool) (s : State) : Prop :=
  Attempt app s ∧ if loaded = true then Held app s else Clear s

/-- The block is allocated, and not mapped yet. -/
structure Allocated (app : ℕ) (s : State) : Prop where
  ready : s.isReady = true
  memblock : s.memblock = some (some app)
  blocks : s.blocks = [some app]
  mapped : ∀ part process, s.mapped part process = false

theorem fine_own : (Effect.free (some app)).Fine (some app) ∧
    (Effect.unmap app).Fine (some app) ∧ (Effect.close app).Fine (some app) :=
  ⟨fun _ h => h, fun _ h => Option.some.inj h, fun _ h => Option.some.inj h⟩

theorem wp_memoryBlockFree_allocated {good : Effect → Prop} (h : Allocated app s)
    (hfree : a.fails .free = false) (hgood : good (.free (some app))) :
    wp good (memoryBlockFree a) (fun _ t => Clear t ∧
      t = { s with blocks := [], isReady := false, memblock := none }) s := by
  refine (wp_memoryBlockFree h.ready h.memblock hfree).mpr ⟨hgood, ?_⟩
  have hblocks : s.blocks.erase (some app) = [] := by
    rw [h.blocks]
    exact List.erase_cons_head ..
  rw [hblocks]
  exact ⟨⟨rfl, rfl, h.mapped⟩, rfl⟩

theorem wp_unmountFromProcess_held {good : Effect → Prop} (h : Held app s)
    (htarget : s.target = some app) (hexe : a.fails .unmapExe = false)
    (hheap : a.fails .unmapHeap = false) (hgood : good (.unmap app)) :
    wp good (unmountFromProcess a) (fun _ t => Allocated app t ∧
      t = { s with mapped := setBoth s.mapped app false }) s := by
  refine (wp_unmountFromProcess htarget hexe hheap).mpr
    ⟨hgood, ⟨h.ready, h.memblock, h.blocks, fun part process => ?_⟩, rfl⟩
  show (if process = app then false else s.mapped part process) = false
  split_ifs with heq
  · rfl
  · exact Bool.not_eq_true _ ▸ fun hmapped => heq ((h.mapped part process).mp hmapped)

theorem wp_exitFail_clear (h : Attempt app s) (hclear : Clear s) :
    wp (Effect.Fine (some app)) (exitFail a) (Attempted app) s := by
  unfold exitFail
  rw [wp_bind, wp_memoryBlockFree_clear hclear.ready, wp_pure]
  exact ⟨h, hclear⟩

theorem wp_exitFail (h : Attempt app s) (hallocated : Allocated app s)
    (hfree : a.fails .free = false) :
    wp (Effect.Fine (some app)) (exitFail a) (Attempted app) s := by
  unfold exitFail
  rw [wp_bind]
  refine wp_mono ?_ (wp_memoryBlockFree_allocated hallocated hfree fine_own.1)
  rintro _ t ⟨hclear, rfl⟩
  exact wp_pure.mpr ⟨⟨h.1, h.2, h.3, h.4, h.5, h.6, h.7, h.8⟩, hclear⟩

theorem wp_memoryBlockIsReady_attempt {good : Effect → Prop} (h : Attempt app s)
    (hclear : Clear s) :
    wp good (memoryBlockIsReady a) (fun _ t => Attempt app t ∧ Allocated app t) s := by
  refine (wp_memoryBlockIsReady hclear.ready).mpr fun _ => ⟨⟨h.1, h.2, h.3, h.4, h.5, h.6, h.7,
    h.8⟩, rfl, congrArg some h.target, ?_, hclear.mapped⟩
  show s.target :: s.blocks = [some app]
  rw [h.target, hclear.blocks]

theorem wp_mountInProcess_attempt {good : Effect → Prop} (h : Attempt app s)
    (hallocated : Allocated app s) (hheap : a.fails .mapHeap = false) :
    wp good (mountInProcess a) (fun mounted t => Attempt app t ∧
      if mounted = true then Held app t else Allocated app t) s := by
  rw [wp_mountInProcess h.target hheap]
  cases hexe : a.fails .mapExe with
  | true => exact ⟨h, hallocated⟩
  | false =>
    refine ⟨⟨h.1, h.2, h.3, h.4, h.5, h.6, h.7, h.8⟩, hallocated.1, hallocated.2, hallocated.3,
      fun part process => ?_⟩
    show (if process = app then true else s.mapped part process) = true ↔ process = app
    rw [hallocated.mapped]
    simp

theorem wp_tryToLoadPlugin (h : Attempt app s) (hclear : Clear s)
    (hheap : a.fails .mapHeap = false) (hgame : a.fails .mapGame = false)
    (hfree : a.fails .free = false) :
    wp (Effect.Fine (some app)) (tryToLoadPlugin a) (Attempted app) s := by
  unfold tryToLoadPlugin
  rw [wp_bind]
  refine wp_mono (Q := fun _ t => Attempt app t ∧ Clear t) (fun _ t ⟨h, hclear⟩ => ?_)
    (wp_modify.mpr ⟨⟨h.1, h.2, h.3, h.4, h.5, h.6, h.7, h.8⟩, hclear.1, hclear.2, hclear.3⟩)
  cases hopen : a.fails .openFile with
  | true => exact wp_pure.mpr ⟨h, hclear⟩
  | false =>
  cases hheader : a.fails .header with
  | true => exact wp_exitFail_clear h hclear
  | false =>
  rw [if_neg Bool.false_ne_true, if_neg Bool.false_ne_true, wp_bind]
  refine wp_mono (Q := fun _ t => Attempt app t ∧ Clear t) (fun _ t ⟨h, hclear⟩ => ?_)
    (wp_modify.mpr ⟨⟨h.1, h.2, h.3, h.4, h.5, h.6, h.7, h.8⟩, hclear.1, hclear.2, hclear.3⟩)
  rw [wp_bind, wp_gets, wp_ite, if_neg (by simp [hclear.ready]), wp_bind]
  -- the block is there from here on, and what fails has to free it
  refine wp_mono (fun _ t ⟨h, hallocated⟩ => ?_) (wp_memoryBlockIsReady_attempt h hclear)
  rw [wp_bind]
  refine wp_mono (Q := fun _ t => Attempt app t ∧ Allocated app t)
    (fun _ t ⟨h, hallocated⟩ => ?_) (wp_modify.mpr ⟨⟨h.1, h.2, h.3, h.4, h.5, h.6, h.7, h.8⟩,
      hallocated.1, hallocated.2, hallocated.3, hallocated.4⟩)
  cases hparse : a.fails .parse with
  | true => exact wp_exitFail h hallocated hfree
  | false =>
  rw [if_neg Bool.false_ne_true, wp_bind]
  refine wp_mono (Q := fun _ t => Attempt app t ∧ Allocated app t)
    (fun _ t ⟨h, hallocated⟩ => ?_) (wp_modify.mpr ⟨⟨h.1, h.2, h.3, h.4, h.5, h.6, h.7, h.8⟩,
      hallocated.1, hallocated.2, hallocated.3, hallocated.4⟩)
  rw [wp_bind]
  refine wp_mono (fun mounted t ⟨h, hmounted⟩ => ?_) (wp_mountInProcess_attempt h hallocated hheap)
  rw [hgame]
  cases mounted with
  | true => exact wp_pure.mpr ⟨h, hmounted⟩
  | false => exact wp_exitFail h hmounted hfree

theorem wp_loadPlugin (h : Idle s) (hheap : a.fails .mapHeap = false)
    (hgame : a.fails .mapGame = false) (hfree : a.fails .free = false) :
    wp (Effect.Fine (some app)) (loadPlugin app a) (fun _ t => Inv t) s := by
  have hattempt : Attempt app { s with target := some app, handles := app :: s.handles } := by
    refine ⟨rfl, ?_, h.plugin, h.tasks, h.status, h.home, h.exit, h.swapped⟩
    show app :: s.handles = [app]
    rw [h.handles]
  have hclear : Clear { s with target := some app, handles := app :: s.handles } :=
    ⟨h.clear.ready, h.clear.blocks, h.clear.mapped⟩
  unfold loadPlugin
  rw [wp_bind, wp_modify, wp_bind]
  refine wp_mono (Q := Attempted app) (fun loaded t ⟨ht, hmemory⟩ => ?_) ?_
  · cases loaded with
    | true =>
      obtain ⟨hready, hmemblock, hblocks, hmapped⟩ : Held app t := hmemory
      rw [wp_ite, if_pos rfl, wp_bind, wp_setStatus, wp_modify]
      refine .inr (.inl ⟨app, ht.target, ht.handles, rfl, fun process hexit => absurd hexit ?_, ?_,
        .inl ⟨ht.tasks, Status.noConfusion⟩⟩)
      · exact Option.some_ne_none process ∘ Eq.symm
      show if t.pluginIsSwapped = true then _ else _
      rw [ht.swapped]
      exact ⟨hready, hmemblock, hblocks, hmapped⟩
    | false =>
      obtain ⟨hready, hblocks, hmapped⟩ : Clear t := hmemory
      rw [wp_ite, if_neg Bool.false_ne_true, wp_bind, wp_closeTarget ht.target, wp_modify]
      refine ⟨fine_own.2.2, .inl ⟨rfl, ?_, ht.plugin, ht.tasks, ht.status, ht.home, ht.exit,
        ht.swapped, hready, hblocks, hmapped⟩⟩
      show t.handles.erase app = []
      rw [ht.handles]
      exact List.erase_cons_head ..
  · unfold loadIfEnabled
    rw [wp_bind, wp_gets, wp_ite]
    split_ifs with henabled
    · exact wp_tryToLoadPlugin hattempt hclear hheap hgame hfree
    · exact wp_pure.mpr ⟨hattempt, hclear⟩

/-! ## Events -/

theorem memory_congr {t : State} (h : if s.pluginIsSwapped = true then Clear s else Held app s)
    (hswapped : t.pluginIsSwapped = s.pluginIsSwapped) (hready : t.isReady = s.isReady)
    (hmemblock : t.memblock = s.memblock) (hblocks : t.blocks = s.blocks)
    (hmapped : t.mapped = s.mapped) :
    if t.pluginIsSwapped = true then Clear t else Held app t := by
  rw [hswapped]
  split_ifs at h ⊢
  · exact ⟨hready ▸ h.ready, hblocks ▸ h.blocks, hmapped ▸ h.mapped⟩
  · exact ⟨hready ▸ h.ready, hmemblock ▸ h.memblock, hblocks ▸ h.blocks, hmapped ▸ h.mapped⟩

theorem Loaded.held (h : Loaded app s) (hswapped : s.pluginIsSwapped = false) : Held app s := by
  have hmemory := h.memory
  rwa [hswapped, if_neg Bool.false_ne_true] at hmemory

theorem Loaded.clear (h : Loaded app s) (hswapped : s.pluginIsSwapped = true) : Clear s := by
  have hmemory := h.memory
  rwa [hswapped, if_pos rfl] at hmemory

theorem fine_free_none {owner : Option ℕ} : (Effect.free owner).Fine none :=
  fun app h => absurd h.symm (Option.some_ne_none app)

theorem fine_unmap_none {process : ℕ} : (Effect.unmap process).Fine none :=
  fun app h => absurd h.symm (Option.some_ne_none app)

theorem fine_readHeader : (Effect.readHeader true).Fine none := rfl

theorem wp_exitEvent (h : Loaded app s) (htasks : s.tasks = []) :
    wp (Effect.Fine none) (exitEvent (some app)) (fun _ t => Inv t) s := by
  unfold exitEvent waitUnlessSwapped
  rw [wp_bind, wp_setStatus, wp_bind, wp_bind, wp_gets, wp_ite]
  have hloaded : wp (Effect.Fine none)
      (modify fun s => { s with tasks := s.tasks ++ [(TaskPhase.waiting, some app)] })
      (fun _ t => Inv t) { s with status := .exiting, homeEvent := false, exitEvent := none } := by
    refine wp_modify.mpr (.inr (.inl ⟨app, h.target, h.handles, h.plugin,
      fun process hexit => absurd hexit.symm (Option.some_ne_none process),
      memory_congr h.memory rfl rfl rfl rfl rfl, .inr ⟨?_, rfl⟩⟩))
    show s.tasks ++ _ = _
    rw [htasks]
    rfl
  split_ifs with hswapped
  · exact wp_pure.mpr hloaded
  · refine (wp_waitForReply fine_readHeader ?_).mpr ?_
    · exact (h.held (Bool.not_eq_true _ ▸ hswapped)).ready
    · exact hloaded

theorem wp_homeEvent (h : Loaded app s) (htasks : s.tasks = []) :
    wp (Effect.Fine none) (homeEvent a) (fun _ t => Inv t) s := by
  unfold homeEvent notifyHome
  rw [wp_bind]
  refine wp_mono (Q := fun _ t => t = s) ?_ ?_
  · rintro _ t rfl
    rw [wp_bind, wp_gets, wp_bind, wp_setStatus, wp_modify]
    refine .inr (.inl ⟨app, h.target, h.handles, h.plugin,
      fun process hexit => absurd hexit.symm (Option.some_ne_none process),
      memory_congr h.memory rfl rfl rfl rfl rfl, .inl ⟨htasks, ?_⟩⟩)
    show (if t.pluginIsHome = true then Status.running else Status.inHome) ≠ .exiting
    split_ifs
    · exact Status.noConfusion
    · exact Status.noConfusion
  · rw [wp_bind, wp_gets, id_eq]
    cases hready : s.isReady with
    | false => exact wp_pure.mpr rfl
    | true =>
      rw [if_pos rfl, wp_bind, wp_note, wp_ite]
      refine ⟨rfl, ?_⟩
      split_ifs
      · exact (wp_waitForReply fine_readHeader hready).mpr (Eq.refl s)
      · exact wp_pure.mpr rfl

theorem wp_swapEvent (h : Loaded app s) (htasks : s.tasks = []) (hmapExe : a.fails .mapExe = false)
    (hmapHeap : a.fails .mapHeap = false) (hexe : a.fails .unmapExe = false)
    (hheap : a.fails .unmapHeap = false) (hfree : a.fails .free = false) :
    wp (Effect.Fine none) (swapEvent a) (fun _ t => Inv t) s := by
  unfold swapEvent
  rw [wp_bind, wp_gets, id_eq]
  cases hswapped : s.pluginIsSwapped with
  | true =>
    obtain ⟨hready, hblocks, hmapped⟩ := h.clear hswapped
    rw [if_pos rfl, wp_bind]
    refine (wp_memoryBlockIsReady hready).mpr fun _ => ?_
    rw [wp_ite]
    split_ifs
    · exact wp_fail
    rw [wp_bind]
    have htarget : { s with
        isReady := true, memblock := some s.target, blocks := s.target :: s.blocks }.target =
        some app := h.target
    rw [wp_mountInProcess htarget hmapHeap, hmapExe, if_neg Bool.false_ne_true, wp_bind,
      wp_setStatus, wp_modify]
    refine .inr (.inl ⟨app, h.target, h.handles, h.plugin,
      fun process hexit => absurd hexit.symm (Option.some_ne_none process),
      ⟨rfl, congrArg some h.target, ?_, fun part process => ?_⟩,
      .inl ⟨htasks, Status.noConfusion⟩⟩)
    · show s.target :: s.blocks = [some app]
      rw [h.target, hblocks]
    · show (if process = app then true else s.mapped part process) = true ↔ process = app
      rw [hmapped]
      simp
  | false =>
    have hheld := h.held hswapped
    rw [if_neg Bool.false_ne_true, wp_bind, wp_waitForReply fine_readHeader hheld.ready, wp_bind]
    refine wp_mono ?_ (wp_unmountFromProcess_held hheld h.target hexe hheap fine_unmap_none)
    rintro _ t ⟨hallocated, rfl⟩
    rw [wp_ite]
    split_ifs
    · exact wp_fail
    rw [wp_bind]
    refine wp_mono ?_ (wp_memoryBlockFree_allocated hallocated hfree fine_free_none)
    rintro _ t ⟨⟨hready, hblocks, hmapped⟩, rfl⟩
    rw [wp_bind, wp_setStatus, wp_modify]
    exact .inr (.inl ⟨app, h.target, h.handles, h.plugin,
      fun process hexit => absurd hexit.symm (Option.some_ne_none process),
      ⟨hready, hblocks, hmapped⟩, .inl ⟨htasks, Status.noConfusion⟩⟩)

theorem wp_handleKernelEvent (h : Inv s) (hact : Undisturbed s (.notification a)) :
    wp (Effect.Fine none) (handleKernelEvent isN3DS a) (fun _ t => Inv t) s := by
  obtain ⟨hmapExe, hmapHeap, hexe, hheap, hfree⟩ := hact
  unfold handleKernelEvent
  rw [wp_bind, wp_gets, id_eq]
  rcases h with h | ⟨app, h⟩ | ⟨app, h⟩
  · rw [h.status, h.home, h.exit]
    exact wp_pure.mpr (.inl h)
  · rcases h.phase with ⟨htasks, hstatus⟩ | ⟨htasks, hstatus⟩
    · -- an event is handled only before the task is there
      rw [if_neg hstatus]
      cases hexit : s.exitEvent with
      | none =>
        cases hhome : s.homeEvent with
        | false => exact wp_pure.mpr (.inr (.inl ⟨app, h⟩))
        | true =>
          show wp _ (if s.pluginMemoryStrategy = .swap ∧ isN3DS = false then swapEvent a
            else homeEvent a) _ s
          rw [wp_ite]
          split_ifs
          · exact wp_swapEvent h htasks hmapExe hmapHeap hexe hheap hfree
          · exact wp_homeEvent h htasks
      | some process =>
        cases hhome : s.homeEvent with
        | false =>
          rw [h.exit process hexit]
          exact wp_exitEvent h htasks
        | true => exact wp_pure.mpr (.inr (.inl ⟨app, h⟩))
    · rw [if_pos hstatus]
      exact wp_pure.mpr (.inr (.inl ⟨app, h⟩))
  · rw [if_pos h.status]
    exact wp_pure.mpr (.inr (.inr ⟨app, h⟩))

/-! ## Tasks -/

theorem wp_releaseUnlessSwapped (h : Loaded app s) (hexe : a.fails .unmapExe = false)
    (hheap : a.fails .unmapHeap = false) (hfree : a.fails .free = false) :
    wp (Effect.Fine (some app)) (releaseUnlessSwapped a) (fun _ t => Clear t ∧
      t.target = some app ∧ t.handles = [app] ∧ t.status = s.status) s := by
  unfold releaseUnlessSwapped
  rw [wp_bind, wp_gets, id_eq]
  cases hswapped : s.pluginIsSwapped with
  | true => exact wp_pure.mpr ⟨h.clear hswapped, h.target, h.handles, rfl⟩
  | false =>
    have hheld := h.held hswapped
    rw [if_neg Bool.false_ne_true, wp_bind]
    refine wp_mono ?_ (wp_unmountFromProcess_held hheld h.target hexe hheap fine_own.2.1)
    rintro _ t ⟨hallocated, rfl⟩
    refine wp_mono ?_ (wp_memoryBlockFree_allocated hallocated hfree fine_own.1)
    rintro _ t ⟨hclear, rfl⟩
    exact ⟨hclear, h.target, h.handles, rfl⟩

theorem wp_taskStep (h : Inv s) (hact : Undisturbed s (.task a)) :
    wp (Effect.Fine (actor s (.task a))) (taskStep a) (fun _ t => Inv t) s := by
  obtain ⟨hexe, hheap, hfree⟩ := hact
  unfold taskStep actor
  rw [wp_bind, wp_gets, id_eq]
  rcases h with h | ⟨app, h⟩ | ⟨app, h⟩
  · rw [h.tasks]
    exact wp_pure.mpr (.inl h)
  · rcases h.phase with ⟨htasks, hstatus⟩ | ⟨htasks, hstatus⟩
    · rw [htasks]
      exact wp_pure.mpr (.inr (.inl ⟨app, h⟩))
    · rw [htasks]
      show wp (Effect.Fine (some app)) (releaseUnlessSwapped a >>= _) _ s
      rw [wp_bind]
      refine wp_mono (fun _ t ⟨hclear, htarget, hhandles, ht⟩ => ?_)
        (wp_releaseUnlessSwapped h hexe hheap hfree)
      exact wp_modify.mpr (.inr (.inr ⟨app, htarget, rfl, ht.trans hstatus,
        ⟨hclear.ready, hclear.blocks, hclear.mapped⟩, .inl ⟨rfl, hhandles⟩⟩))
  · obtain ⟨hready, hblocks, hmapped⟩ := h.clear
    rcases h.phase with ⟨htasks, hhandles⟩ | ⟨htasks, hhandles⟩
    · rw [htasks]
      show wp (Effect.Fine (some app)) (closeTarget >>= _) _ s
      rw [wp_bind, wp_closeTarget h.target, wp_modify]
      refine ⟨fine_own.2.2, .inr (.inr ⟨app, h.target, h.plugin, h.status,
        ⟨hready, hblocks, hmapped⟩, .inr ⟨rfl, ?_⟩⟩)⟩
      show s.handles.erase app = []
      rw [hhandles]
      exact List.erase_cons_head ..
    · rw [htasks]
      show wp (Effect.Fine (some app)) (setStatus .none >>= _) _ s
      rw [wp_bind, wp_setStatus, wp_bind, wp_modify, wp_modify]
      exact .inl ⟨rfl, hhandles, h.plugin, rfl, rfl, rfl, rfl, rfl, hready, hblocks, hmapped⟩

/-! ## Runs -/

theorem Inv.set (h : Inv s) (isEnabled isSwapFunctionset : Bool) :
    Inv { s with isEnabled := isEnabled, isSwapFunctionset := isSwapFunctionset } := by
  rcases h with h | ⟨app, h⟩ | ⟨app, h⟩
  · exact .inl ⟨h.1, h.2, h.3, h.4, h.5, h.6, h.7, h.8, h.clear.1, h.clear.2, h.clear.3⟩
  · exact .inr (.inl ⟨app, h.1, h.2, h.3, h.4, memory_congr h.memory rfl rfl rfl rfl rfl, h.phase⟩)
  · exact .inr (.inr ⟨app, h.1, h.2, h.3, ⟨h.clear.1, h.clear.2, h.clear.3⟩, h.phase⟩)

theorem wp_home (h : Inv s) :
    wp (Effect.Fine none) (perform isN3DS .home) (fun _ t => Inv t) s := by
  refine wp_modify.mpr ?_
  split_ifs with hstatus
  · rcases h with h | ⟨app, h⟩ | ⟨app, h⟩
    · rw [h.status] at hstatus
      exact absurd hstatus (by decide)
    · exact .inr (.inl ⟨app, h.1, h.2, h.3, h.4, memory_congr h.memory rfl rfl rfl rfl rfl,
        h.phase⟩)
    · rw [h.status] at hstatus
      exact absurd hstatus (by decide)
  · exact h

theorem wp_exit {terminated : Bool} (h : Inv s) (hact : Undisturbed s (.exit app terminated)) :
    wp (Effect.Fine none) (perform isN3DS (.exit app terminated)) (fun _ t => Inv t) s := by
  refine wp_modify.mpr ?_
  by_cases hsignal : s.signalOnExit app = true ∧ signalsExit s.status terminated
  · have hplugin := hact hsignal.1 hsignal.2
    rw [if_pos hsignal]
    rcases h with h | ⟨other, h⟩ | ⟨other, h⟩
    · exact absurd (hplugin.symm.trans h.plugin) (Option.some_ne_none app)
    · have heq : app = other := Option.some.inj (hplugin.symm.trans h.plugin)
      refine .inr (.inl ⟨other, h.1, h.2, h.3, fun process hexit => ?_,
        memory_congr h.memory rfl rfl rfl rfl rfl, h.phase⟩)
      exact (Option.some.inj hexit).symm.trans heq
    · exact absurd (hplugin.symm.trans h.plugin) (Option.some_ne_none app)
  · rw [if_neg hsignal]
    exact h

theorem wp_perform {act : Action} (h : Inv s) (hact : Undisturbed s act) :
    wp (Effect.Fine (actor s act)) (perform isN3DS act) (fun _ t => Inv t) s := by
  cases act with
  | setEnabled b => exact wp_modify.mpr (h.set b s.isSwapFunctionset)
  | setSwapFunction b => exact wp_modify.mpr (h.set s.isEnabled b)
  | load process a =>
    obtain ⟨htarget, hheap, hgame, hfree⟩ := hact
    rcases h with h | ⟨app, h⟩ | ⟨app, h⟩
    · exact wp_loadPlugin h hheap hgame hfree
    · exact absurd (h.target.symm.trans htarget) (Option.some_ne_none app)
    · exact absurd (h.target.symm.trans htarget) (Option.some_ne_none app)
  | home => exact wp_home h
  | exit process terminated => exact wp_exit h hact
  | notification a => exact wp_handleKernelEvent h hact
  | task a => exact wp_taskStep h hact

theorem step_safe {act : Action} {t : State} (h : s.rebooted = true ∨ Inv s)
    (hact : Undisturbed s act) (hstep : step isN3DS s act = some t) :
    (t.rebooted = true ∨ Inv t) ∧ StepSafe isN3DS s act t := by
  unfold step at hstep
  split_ifs at hstep with hrebooted
  obtain ⟨hfine, hinv⟩ : wp (Effect.Fine (actor s act)) (perform isN3DS act)
    (fun _ t => Inv t) s := wp_perform (h.resolve_left hrebooted) hact
  rcases hrun : perform isN3DS act s with ⟨_ | u, t', noted⟩
  · rw [hrun] at hstep hfine
    cases hstep
    exact ⟨.inl rfl, hrun ▸ hfine, fun h => absurd h Bool.noConfusion⟩
  · rw [hrun] at hstep
    cases hstep
    have ht : Inv t := hinv u t ⟨by rw [hrun], by rw [hrun]⟩
    exact ⟨.inr ht, hfine, fun _ => ht.consistent⟩

theorem inv_initial (isEnabled : Bool) : Inv (initial isEnabled) :=
  .inl ⟨rfl, rfl, rfl, rfl, rfl, rfl, rfl, rfl, rfl, rfl, fun _ _ => rfl⟩

end

theorem allSteps_safe {isN3DS isEnabled : Bool} {acts : List Action}
    (h : Guarded (step isN3DS) Undisturbed (initial isEnabled) acts) :
    AllSteps (step isN3DS) (StepSafe isN3DS) (initial isEnabled) acts := by
  refine allSteps_of_guarded (I := fun s => s.rebooted = true ∨ Inv s) ?_
    (.inr (inv_initial isEnabled)) h
  intro s act t hs hact hstep
  exact step_safe hs hact hstep

/-- Every call succeeds. -/
def succeeds : Answers where
  fails := fun _ => false
  userStrategy := none
  selfManaged := false
  swapNotNeeded := false
  embeddedSwap := true
  notifyHomeEvent := false

/-- A plugin is swapped and loaded again, its application exits, and another one is loaded behind
the cleanup. -/
def lifecycle : List Action :=
  [.load 1 succeeds, .home, .notification succeeds, .home, .notification succeeds, .exit 1 false,
    .notification succeeds, .task succeeds, .task succeeds, .task succeeds, .load 2 succeeds]

theorem lifecycle_safe : AllSteps (step false) (StepSafe false) (initial true) lifecycle ∧
    (run (step false) (initial true) lifecycle).map State.plugin = some (some 2) := by
  refine ⟨allSteps_safe ?_, by decide +kernel⟩
  have hguards : guards (step false) (fun s act => decide (Undisturbed s act)) (initial true)
      lifecycle = true := by decide +kernel
  exact (guarded_of_guards hguards).imp fun s act t h => of_decide_eq_true h

/-- The plugin of the second application is loaded before the cleanup behind the first one. -/
theorem load_frees_another : ¬∀ (isN3DS isEnabled : Bool) (acts : List Action),
    AllSteps (step isN3DS) (StepSafe isN3DS) (initial isEnabled) acts := by
  intro h
  have hsafe := (h false true ([.load 1 succeeds, .exit 1 false, .notification succeeds] ++
    [.load 2 succeeds])).last rfl rfl
  have hfine := hsafe.1 (.free (some 1)) (by decide +kernel)
  exact absurd (hfine 2 rfl) (by decide)

end Presence3DS.Rosalina.PluginLoader
