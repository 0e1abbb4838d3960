import Presence3DS.Gdb.Watchpoints

/-! Any calls about watchpoints by any contexts. -/

namespace Presence3DS.Gdb
open WatchState

variable {ι : Type*} [DecidableEq ι] {s : WatchState ι} {c : ι} {address : UInt32} {i : ℕ}

/-! ## Slots and counts -/

theorem firstSlot_cases (slots : ℕ → Watchpoint) (p : Watchpoint → Prop) [DecidablePred p] :
    firstSlot slots p = 2 ∧ (∀ i < 2, ¬p (slots i)) ∨
      ∃ i < 2, firstSlot slots p = i ∧ p (slots i) ∧ ∀ j < i, ¬p (slots j) := by
  unfold firstSlot
  split_ifs with hzero hone
  · exact .inr ⟨0, Nat.two_pos, rfl, hzero, fun j hj => absurd hj (Nat.not_lt_zero j)⟩
  · refine .inr ⟨1, Nat.one_lt_two, rfl, hone, fun j hj => ?_⟩
    obtain rfl := Nat.lt_one_iff.mp hj
    exact hzero
  · refine .inl ⟨rfl, fun i hi => ?_⟩
    rcases Nat.lt_or_ge i 1 with hlt | hge
    · obtain rfl := Nat.lt_one_iff.mp hlt
      exact hzero
    · obtain rfl : i = 1 := by omega
      exact hone

theorem count_of_ne {w : Watchpoint} (h : w.kind ≠ .disabled) : w.count = 1 := if_neg h

theorem count_le (w : Watchpoint) : w.count ≤ 1 := by
  unfold Watchpoint.count
  split_ifs <;> decide

theorem used_le (s : WatchState ι) : s.used ≤ 2 :=
  Nat.add_le_add (count_le (s.slots 0)) (count_le (s.slots 1))

theorem used_update {s t : WatchState ι} {w : Watchpoint} (hi : i < 2)
    (ht : t.slots = Function.update s.slots i w) :
    t.used + (s.slots i).count = s.used + w.count := by
  unfold used
  rw [ht]
  rcases Nat.lt_or_ge i 1 with hlt | hge
  · obtain rfl := Nat.lt_one_iff.mp hlt
    rw [Function.update_self, Function.update_of_ne Nat.one_ne_zero]
    omega
  · obtain rfl : i = 1 := by omega
    rw [Function.update_self, Function.update_of_ne Nat.zero_ne_one]
    omega

theorem decrement_succ (n : ℕ) : decrement (n + 1) = n := if_neg (Nat.succ_ne_zero n)

theorem sum_update [Fintype ι] (contexts : ι → WatchContext) (c : ι) (ctx : WatchContext) :
    ∑ c', (Function.update contexts c ctx c').nbWatchpoints + (contexts c).nbWatchpoints =
      ∑ c', (contexts c').nbWatchpoints + ctx.nbWatchpoints := by
  have hold := Finset.add_sum_erase Finset.univ (fun c' => (contexts c').nbWatchpoints)
    (Finset.mem_univ c)
  have hnew := Finset.add_sum_erase Finset.univ
    (fun c' => (Function.update contexts c ctx c').nbWatchpoints) (Finset.mem_univ c)
  have hrest : ∑ c' ∈ Finset.univ.erase c, (Function.update contexts c ctx c').nbWatchpoints =
      ∑ c' ∈ Finset.univ.erase c, (contexts c').nbWatchpoints :=
    Finset.sum_congr rfl fun c' hc' => by rw [Function.update_of_ne (Finset.ne_of_mem_erase hc')]
  rw [Function.update_self, hrest] at hnew
  omega

namespace WatchContext
variable {ctx : WatchContext}

theorem forget_debug (ctx : WatchContext) (address : UInt32) :
    (ctx.forget address).debug = ctx.debug := by
  unfold forget
  split_ifs <;> rfl

theorem forget_listed (hle : ctx.nbWatchpoints ≤ 2) (hmem : address ∈ ctx.listed) :
    (ctx.forget address).listed = ctx.listed.erase address ∧
      (ctx.forget address).nbWatchpoints + 1 = ctx.nbWatchpoints := by
  obtain ⟨nb, w, debug⟩ := ctx
  rcases nb with _ | _ | _ | nb
  · exact absurd hmem List.not_mem_nil
  · obtain rfl : address = w 0 := List.mem_singleton.mp hmem
    have hforget : (⟨1, w, debug⟩ : WatchContext).forget (w 0) = ⟨decrement 1, _, debug⟩ :=
      if_pos rfl
    rw [hforget, decrement_succ]
    exact ⟨(List.erase_cons_head (w 0) []).symm, rfl⟩
  · have hlisted : (⟨2, w, debug⟩ : WatchContext).listed = [w 0, w 1] := rfl
    rw [hlisted] at hmem ⊢
    by_cases hzero : w 0 = address
    · have hforget : (⟨2, w, debug⟩ : WatchContext).forget address =
          ⟨decrement 2, Function.update (Function.update w 0 (w 1)) 1 0, debug⟩ := if_pos hzero
      rw [hforget, decrement_succ, ← hzero, List.erase_cons_head]
      exact ⟨rfl, rfl⟩
    · have hone : w 1 = address := by
        rcases List.mem_cons.mp hmem with h | h
        · exact absurd h.symm hzero
        · exact (List.mem_singleton.mp h).symm
      have hforget : (⟨2, w, debug⟩ : WatchContext).forget address =
          ⟨decrement 2, Function.update w 1 0, debug⟩ := (if_neg hzero).trans (if_pos hone)
      rw [hforget, decrement_succ, List.erase_cons_tail (by simpa using hzero),
        ← hone, List.erase_cons_head]
      exact ⟨rfl, rfl⟩
  · have hmore : nb + 3 ≤ 2 := hle
    omega

theorem remember_listed (hle : ctx.nbWatchpoints ≤ 1) (address : UInt32) :
    (ctx.remember address).listed = ctx.listed ++ [address] ∧
      (ctx.remember address).nbWatchpoints = ctx.nbWatchpoints + 1 := by
  obtain ⟨nb, w, debug⟩ := ctx
  rcases nb with _ | _ | nb
  · exact ⟨rfl, rfl⟩
  · exact ⟨rfl, rfl⟩
  · have hmore : nb + 2 ≤ 1 := hle
    omega

end WatchContext

/-! ## What the calls leave -/

namespace WatchInv
variable [Fintype ι]

theorem nb_le (h : WatchInv s) (c : ι) : (s.contexts c).nbWatchpoints ≤ s.used := by
  rw [← h.used, ← h.sum]
  exact Finset.single_le_sum (f := fun c => (s.contexts c).nbWatchpoints)
    (fun _ _ => Nat.zero_le _) (Finset.mem_univ c)

theorem removed (h : WatchInv s) (hhas : s.Has c address i) :
    WatchInv ⟨s.lock, decrement s.total, Function.update s.slots i Watchpoint.zeroed,
      Function.update s.contexts c ((s.contexts c).forget address)⟩ := by
  have hmem : address ∈ (s.contexts c).listed := (h.mem_listed c address).mpr ⟨i, hhas⟩
  have hnb := (h.nb_le c).trans (used_le s)
  obtain ⟨hlisted, hcount⟩ := (s.contexts c).forget_listed hnb hmem
  generalize ht : (⟨s.lock, decrement s.total, Function.update s.slots i Watchpoint.zeroed,
    Function.update s.contexts c ((s.contexts c).forget address)⟩ : WatchState ι) = t
  have hslots : t.slots = Function.update s.slots i Watchpoint.zeroed := by rw [← ht]
  have hcontexts : t.contexts = Function.update s.contexts c ((s.contexts c).forget address) := by
    rw [← ht]
  have hdebug (c' : ι) : (t.contexts c').debug = (s.contexts c').debug := by
    rw [hcontexts]
    by_cases hc : c' = c
    · rw [hc, Function.update_self, WatchContext.forget_debug]
    · rw [Function.update_of_ne hc]
  have hkept (j : ℕ) (hj : (t.slots j).kind ≠ .disabled) : j ≠ i ∧ t.slots j = s.slots j := by
    by_cases hji : j = i
    · rw [hslots, hji, Function.update_self] at hj
      exact absurd rfl hj
    · exact ⟨hji, by rw [hslots, Function.update_of_ne hji]⟩
  have hhas' (c' : ι) (a : UInt32) (j : ℕ) : t.Has c' a j ↔ s.Has c' a j ∧ j ≠ i := by
    unfold Has
    rw [hdebug]
    constructor
    · rintro ⟨hj, hkind, hat⟩
      obtain ⟨hne, hsame⟩ := hkept j hkind
      rw [hsame] at hkind hat
      exact ⟨⟨hj, hkind, hat⟩, hne⟩
    · rintro ⟨h, hne⟩
      rwa [hslots, Function.update_of_ne hne]
  have hused : t.used + 1 = s.used := by
    have hupdate := used_update hhas.1 hslots
    rw [count_of_ne hhas.2.1] at hupdate
    exact hupdate
  have htotal : t.total + 1 = s.total := by
    have hdecrement : t.total = decrement s.total := by rw [← ht]
    rw [hdecrement, h.used, ← hused, decrement_succ]
  have hother (c' : ι) (hc : c' ≠ c) (a : UInt32) (j : ℕ) (hj : s.Has c' a j) : j ≠ i := by
    rintro rfl
    have hsame := hj.2.2.2.symm.trans hhas.2.2.2
    exact hc (h.handles c' c hsame (hj.2.2.2 ▸ h.open_ j hj.1 hj.2.1))
  refine ⟨fun c₁ c₂ => ?_, fun j hj => ?_, fun j hj hkind => ?_, fun j hj hkind => ?_,
    fun c' a => ?_, fun c' => ?_, fun c' a j k hj hk => ?_, ?_, ?_⟩
  · rw [hdebug, hdebug]
    exact h.handles c₁ c₂
  · rw [hslots] at hj ⊢
    by_cases hji : j = i
    · rw [hji, Function.update_self]
    · rw [Function.update_of_ne hji] at hj ⊢
      exact h.empty j hj
  · have hsame := (hkept j hkind).2
    rw [hsame] at hkind ⊢
    exact h.open_ j hj hkind
  · have hsame := (hkept j hkind).2
    rw [hsame] at hkind ⊢
    obtain ⟨c', hc'⟩ := h.owner j hj hkind
    exact ⟨c', (hdebug c').trans hc'⟩
  · simp only [hhas']
    by_cases hc : c' = c
    · subst hc
      rw [hcontexts, Function.update_self, hlisted, (h.nodup c').mem_erase_iff, h.mem_listed]
      constructor
      · rintro ⟨hne, j, hj⟩
        refine ⟨j, hj, ?_⟩
        rintro rfl
        exact hne (hj.2.2.1.symm.trans hhas.2.2.1)
      · rintro ⟨j, hj, hne⟩
        refine ⟨?_, j, hj⟩
        rintro rfl
        exact hne (h.inj c' a j i hj hhas)
    · rw [hcontexts, Function.update_of_ne hc, h.mem_listed]
      exact ⟨fun ⟨j, hj⟩ => ⟨j, hj, hother c' hc a j hj⟩, fun ⟨j, hj, _⟩ => ⟨j, hj⟩⟩
  · rw [hcontexts]
    by_cases hc : c' = c
    · rw [hc, Function.update_self, hlisted]
      exact (h.nodup c).erase address
    · rw [Function.update_of_ne hc]
      exact h.nodup c'
  · exact h.inj c' a j k ((hhas' c' a j).mp hj).1 ((hhas' c' a k).mp hk).1
  · have hbefore := h.used
    omega
  · have hsum := sum_update s.contexts c ((s.contexts c).forget address)
    have hbefore := h.sum
    rw [hcontexts]
    omega

theorem setContext (h : WatchInv s) {ctx : WatchContext} (hnone : (s.contexts c).nbWatchpoints = 0)
    (hctx : ctx.nbWatchpoints = 0)
    (hnew : ctx.debug ≠ 0 → ∀ c', (s.contexts c').debug ≠ ctx.debug) :
    WatchInv (s.setContext c ctx) := by
  have hcontexts : (s.setContext c ctx).contexts = Function.update s.contexts c ctx := rfl
  have hempty {ctx' : WatchContext} (hzero : ctx'.nbWatchpoints = 0) : ctx'.listed = [] := by
    unfold WatchContext.listed
    rw [hzero]
    rfl
  have hno (a : UInt32) (j : ℕ) : ¬s.Has c a j := fun hj =>
    List.not_mem_nil (hempty hnone ▸ (h.mem_listed c a).mpr ⟨j, hj⟩)
  have howner (j : ℕ) (hj : j < 2) (hkind : (s.slots j).kind ≠ .disabled) :
      ∃ c', c' ≠ c ∧ (s.contexts c').debug = (s.slots j).debug := by
    obtain ⟨c', hc'⟩ := h.owner j hj hkind
    refine ⟨c', ?_, hc'⟩
    rintro rfl
    exact hno _ j ⟨hj, hkind, rfl, hc'.symm⟩
  have hno' (a : UInt32) (j : ℕ) : ¬(s.setContext c ctx).Has c a j := by
    rintro ⟨hj, hkind, -, hdebug⟩
    obtain ⟨c', -, hc'⟩ := howner j hj hkind
    rw [hcontexts, Function.update_self] at hdebug
    have hopen := h.open_ j hj hkind
    exact hnew (hdebug ▸ hopen) c' (hc'.trans hdebug)
  have hsame (c' : ι) (hc : c' ≠ c) : (s.setContext c ctx).contexts c' = s.contexts c' :=
    Function.update_of_ne hc _ _
  have hhas (c' : ι) (hc : c' ≠ c) (a : UInt32) (j : ℕ) :
      (s.setContext c ctx).Has c' a j ↔ s.Has c' a j := by
    unfold Has
    rw [hsame c' hc]
    exact Iff.rfl
  refine ⟨fun c₁ c₂ => ?_, h.empty, h.open_, fun j hj hkind => ?_, fun c' a => ?_, fun c' => ?_,
    fun c' a j k hj hk => ?_, h.used, ?_⟩
  · rw [hcontexts]
    by_cases hc₁ : c₁ = c
    · by_cases hc₂ : c₂ = c
      · exact fun _ _ => hc₁.trans hc₂.symm
      · rw [hc₁, Function.update_self, Function.update_of_ne hc₂]
        exact fun heq hne => absurd heq.symm (hnew hne c₂)
    · by_cases hc₂ : c₂ = c
      · rw [hc₂, Function.update_self, Function.update_of_ne hc₁]
        exact fun heq hne => absurd heq (hnew (heq ▸ hne) c₁)
      · rw [Function.update_of_ne hc₁, Function.update_of_ne hc₂]
        exact h.handles c₁ c₂
  · obtain ⟨c', hc, hc'⟩ := howner j hj hkind
    exact ⟨c', by rw [hsame c' hc]; exact hc'⟩
  · by_cases hc : c' = c
    · rw [hc, hcontexts, Function.update_self, hempty hctx]
      exact iff_of_false List.not_mem_nil fun ⟨j, hj⟩ => hno' a j hj
    · simp only [hhas c' hc]
      rw [hsame c' hc]
      exact h.mem_listed c' a
  · by_cases hc : c' = c
    · rw [hc, hcontexts, Function.update_self, hempty hctx]
      exact List.nodup_nil
    · rw [hsame c' hc]
      exact h.nodup c'
  · by_cases hc : c' = c
    · exact absurd (hc ▸ hj) (hno' a j)
    · exact h.inj c' a j k ((hhas c' hc a j).mp hj) ((hhas c' hc a k).mp hk)
  · have hsum := sum_update s.contexts c ctx
    have hbefore := h.sum
    show _ = s.total
    rw [hcontexts]
    omega

theorem added (h : WatchInv s) {size : UInt32} {kind : WatchpointKind} (hroom : s.total ≠ 2)
    (hkind : kind ≠ .disabled) (hopen : (s.contexts c).debug ≠ 0)
    (hnew : ∀ j, ¬s.Has c address j) :
    WatchInv ⟨s.lock, (s.total + 1) % 2 ^ 32,
      Function.update s.slots (if (s.slots 0).kind = .disabled then 0 else 1)
        ⟨address, size, kind, (s.contexts c).debug⟩,
      Function.update s.contexts c ((s.contexts c).remember address)⟩ := by
  generalize hi : (if (s.slots 0).kind = .disabled then 0 else 1) = i
  generalize ht : (⟨s.lock, (s.total + 1) % 2 ^ 32, Function.update s.slots i
    ⟨address, size, kind, (s.contexts c).debug⟩,
    Function.update s.contexts c ((s.contexts c).remember address)⟩ : WatchState ι) = t
  have hslots : t.slots =
      Function.update s.slots i ⟨address, size, kind, (s.contexts c).debug⟩ := by rw [← ht]
  have hcontexts : t.contexts =
      Function.update s.contexts c ((s.contexts c).remember address) := by rw [← ht]
  have hless : s.used < 2 := lt_of_le_of_ne (used_le s) (h.used ▸ hroom)
  have hfree : i < 2 ∧ (s.slots i).kind = .disabled := by
    by_cases hzero : (s.slots 0).kind = .disabled
    · rw [if_pos hzero] at hi
      subst hi
      exact ⟨Nat.two_pos, hzero⟩
    · rw [if_neg hzero] at hi
      subst hi
      refine ⟨Nat.one_lt_two, ?_⟩
      by_contra hone
      rw [WatchState.used, count_of_ne hzero, count_of_ne hone] at hless
      exact lt_irrefl 2 hless
  have hdebug (c' : ι) : (t.contexts c').debug = (s.contexts c').debug := by
    rw [hcontexts]
    by_cases hc : c' = c
    · rw [hc, Function.update_self]
      rfl
    · rw [Function.update_of_ne hc]
  have hhas (c' : ι) (a : UInt32) (j : ℕ) : t.Has c' a j ↔
      s.Has c' a j ∨ j = i ∧ a = address ∧ (s.contexts c').debug = (s.contexts c).debug := by
    unfold Has
    rw [hdebug, hslots]
    by_cases hji : j = i
    · rw [hji, Function.update_self]
      constructor
      · exact fun ⟨_, _, haddress, hsame⟩ => .inr ⟨rfl, haddress.symm, hsame.symm⟩
      · rintro (⟨-, hne, -⟩ | ⟨-, rfl, hsame⟩)
        · exact absurd hfree.2 hne
        · exact ⟨hfree.1, hkind, rfl, hsame.symm⟩
    · rw [Function.update_of_ne hji]
      exact (or_iff_left fun hnew' => hji hnew'.1).symm
  have hnb := (h.nb_le c).trans (Nat.le_of_lt_succ hless)
  obtain ⟨hlisted, hcount⟩ := (s.contexts c).remember_listed hnb address
  have hused : t.used = s.used + 1 := by
    have hupdate := used_update hfree.1 hslots
    rw [count_of_ne (w := ⟨address, size, kind, (s.contexts c).debug⟩) hkind, Watchpoint.count,
      if_pos hfree.2] at hupdate
    exact hupdate
  have htotal : t.total = s.total + 1 := by
    have hbefore := h.used
    rw [← ht]
    show (s.total + 1) % 2 ^ 32 = s.total + 1
    omega
  refine ⟨fun c₁ c₂ => ?_, fun j hj => ?_, fun j hj hused => ?_, fun j hj hused => ?_,
    fun c' a => ?_, fun c' => ?_, fun c' a j k hj hk => ?_, ?_, ?_⟩
  · rw [hdebug, hdebug]
    exact h.handles c₁ c₂
  · rw [hslots] at hj ⊢
    by_cases hji : j = i
    · rw [hji, Function.update_self] at hj
      exact absurd hj hkind
    · rw [Function.update_of_ne hji] at hj ⊢
      exact h.empty j hj
  · rw [hslots] at hused ⊢
    by_cases hji : j = i
    · rw [hji, Function.update_self]
      exact hopen
    · rw [Function.update_of_ne hji] at hused ⊢
      exact h.open_ j hj hused
  · rw [hslots] at hused ⊢
    by_cases hji : j = i
    · rw [hji, Function.update_self]
      exact ⟨c, hdebug c⟩
    · rw [Function.update_of_ne hji] at hused ⊢
      obtain ⟨c', hc'⟩ := h.owner j hj hused
      exact ⟨c', (hdebug c').trans hc'⟩
  · simp only [hhas]
    by_cases hc : c' = c
    · subst hc
      rw [hcontexts, Function.update_self, hlisted, List.mem_append, List.mem_singleton,
        h.mem_listed]
      constructor
      · rintro (⟨j, hj⟩ | ha)
        · exact ⟨j, .inl hj⟩
        · exact ⟨i, .inr ⟨rfl, ha, rfl⟩⟩
      · rintro ⟨j, hj | ⟨-, ha, -⟩⟩
        · exact .inl ⟨j, hj⟩
        · exact .inr ha
    · rw [hcontexts, Function.update_of_ne hc, h.mem_listed]
      refine exists_congr fun j => (or_iff_left ?_).symm
      rintro ⟨-, -, hsame⟩
      exact hc (h.handles c' c hsame (hsame ▸ hopen))
  · rw [hcontexts]
    by_cases hc : c' = c
    · rw [hc, Function.update_self, hlisted]
      refine (List.nodup_append_comm.mp ?_)
      refine List.nodup_cons.mpr ⟨fun hmem => ?_, h.nodup c⟩
      obtain ⟨j, hj⟩ := (h.mem_listed c address).mp hmem
      exact hnew j hj
    · rw [Function.update_of_ne hc]
      exact h.nodup c'
  · have hfresh {j : ℕ} (hj : s.Has c' a j)
        (hsame : a = address ∧ (s.contexts c').debug = (s.contexts c).debug) : False := by
      have hc : c' = c := h.handles c' c hsame.2 (hsame.2 ▸ hopen)
      exact hnew j (hc ▸ hsame.1 ▸ hj)
    rcases (hhas c' a j).mp hj with hj | ⟨hji, hja⟩
    · rcases (hhas c' a k).mp hk with hk | ⟨-, hka⟩
      · exact h.inj c' a j k hj hk
      · exact absurd hka (hfresh hj)
    · rcases (hhas c' a k).mp hk with hk | ⟨hki, -⟩
      · exact absurd hja (hfresh hk)
      · exact hji.trans hki.symm
  · rw [htotal, hused, h.used]
  · have hsum := sum_update s.contexts c ((s.contexts c).remember address)
    have hbefore := h.sum
    rw [hcontexts]
    omega

end WatchInv

/-! ## The calls -/

section Laws
theorem kinds_ne (kind : Fin 3) : kinds kind ≠ .disabled := by
  revert kind
  decide

theorem first_unique {j : ℕ} (hi : s.First c address i) (hj : s.First c address j) : i = j := by
  rcases Nat.lt_trichotomy i j with hlt | heq | hgt
  · exact absurd hi.1 (hj.2 i hlt)
  · exact heq
  · exact absurd hj.1 (hi.2 j hgt)

/-- A removal fails where no slot has the address or is the context's, and is about the first such
slot otherwise. -/
theorem gdbRemoveWatchpoint_cases (s : WatchState ι) (c : ι) (address : UInt32)
    (kind : WatchpointKind) :
    (∀ i < 2, ¬s.First c address i) ∧ (∀ i, ¬s.Has c address i) ∧
      gdbRemoveWatchpoint s c address kind = (-22, s) ∨
    ∃ i < 2, s.First c address i ∧ gdbRemoveWatchpoint s c address kind =
      if kind ≠ .disabled ∧ (s.slots i).kind ≠ kind then (-22, s)
      else (0, ⟨s.lock, decrement s.total, Function.update s.slots i Watchpoint.zeroed,
        Function.update s.contexts c ((s.contexts c).forget address)⟩) := by
  unfold gdbRemoveWatchpoint
  rcases firstSlot_cases s.slots (Watchpoint.Shares (s.contexts c).debug address) with
    ⟨htwo, hnone⟩ | ⟨i, hi, hfirst, hshares, hbefore⟩
  · refine .inl ⟨fun i hi hf => hnone i hi hf.1, fun i hhas => ?_, if_pos (.inl htwo)⟩
    exact hnone i hhas.1 (.inl hhas.2.2.1)
  · refine .inr ⟨i, hi, ⟨hshares, hbefore⟩, ?_⟩
    dsimp only
    rw [hfirst]
    exact if_congr (or_iff_right hi.ne) rfl rfl

theorem has_of_kind {kind : Fin 3} (hi : i < 2) (hkind : (s.slots i).kind = kinds kind)
    (hat : (s.slots i).IsAt (s.contexts c).debug address) : s.Has c address i :=
  ⟨hi, hkind ▸ kinds_ne kind, hat⟩

theorem takesOut_of_fits [Fintype ι] (h : WatchInv s) {kind : Fin 3}
    (hfits : WatchFits s (.remove c address kind)) :
    WatchInv (gdbRemoveWatchpoint s c address (kinds kind)).2 ∧
      (gdbRemoveWatchpoint s c address (kinds kind)).2.lock = s.lock ∧
      TakesOut s c address (kinds kind) (gdbRemoveWatchpoint s c address (kinds kind)) := by
  rcases gdbRemoveWatchpoint_cases s c address (kinds kind) with
    ⟨-, hnone, hrun⟩ | ⟨i, hi, hfirst, hrun⟩
  · rw [hrun]
    exact ⟨h, rfl, fun j hj => absurd hj (hnone j), fun _ => ⟨rfl, rfl⟩⟩
  · by_cases hkind : (s.slots i).kind = kinds kind
    · have hhas := has_of_kind hi hkind ((hfits i hi hkind).mp hfirst)
      have hmatch : ¬(kinds kind ≠ .disabled ∧ (s.slots i).kind ≠ kinds kind) :=
        fun hne => hne.2 hkind
      rw [hrun, if_neg hmatch]
      refine ⟨h.removed hhas, rfl, fun j hj _ => ⟨rfl, ?_⟩, fun hother => ?_⟩
      · rw [h.inj c address j i hj hhas]
      · exact absurd hkind (hother i hhas)
    · rw [hrun, if_pos ⟨kinds_ne kind, hkind⟩]
      refine ⟨h, rfl, fun j hj hjkind => ?_, fun _ => ⟨rfl, rfl⟩⟩
      have hsame := first_unique ((hfits j hj.1 hjkind).mpr hj.2.2) hfirst
      exact absurd (hsame ▸ hjkind) hkind

theorem fits_of_takesOut {kind : Fin 3}
    (htakes : TakesOut s c address (kinds kind) (gdbRemoveWatchpoint s c address (kinds kind))) :
    WatchFits s (.remove c address kind) := by
  intro j hj hkind
  rcases gdbRemoveWatchpoint_cases s c address (kinds kind) with
    ⟨hnofirst, hnone, -⟩ | ⟨i, hi, hfirst, hrun⟩
  · exact iff_of_false (hnofirst j hj) fun hat => hnone j (has_of_kind hj hkind hat)
  rw [hrun] at htakes
  constructor
  · intro hjfirst
    obtain rfl := first_unique hjfirst hfirst
    rw [if_neg fun hne => hne.2 hkind] at htakes
    by_contra hat
    by_cases hother : ∃ k, s.Has c address k ∧ (s.slots k).kind = kinds kind
    · obtain ⟨k, hk, hkkind⟩ := hother
      have hslot := congrFun (htakes.1 k hk hkkind).2 j
      have hjk : j ≠ k := by
        rintro rfl
        exact hat hk.2.2
      dsimp only at hslot
      rw [Function.update_self, Function.update_of_ne hjk] at hslot
      rw [← hslot] at hkind
      exact kinds_ne kind hkind.symm
    · have hfails := (htakes.2 fun k hk hkkind => hother ⟨k, hk, hkkind⟩).1
      exact absurd hfails (show (0 : ℤ) ≠ -22 by decide)
  · intro hat
    have hhas := has_of_kind hj hkind hat
    obtain ⟨hzero, hslots⟩ := htakes.1 j hhas hkind
    by_cases hikind : (s.slots i).kind = kinds kind
    · rw [if_neg fun hne => hne.2 hikind] at hslots
      by_cases hij : i = j
      · exact hij ▸ hfirst
      · have hslot := congrFun hslots j
        dsimp only at hslot
        rw [Function.update_self, Function.update_of_ne (Ne.symm hij)] at hslot
        exact absurd (congrArg Watchpoint.kind hslot) hhas.2.1
    · rw [if_pos ⟨kinds_ne kind, hikind⟩] at hzero
      exact absurd hzero (show (-22 : ℤ) ≠ 0 by decide)

omit [DecidableEq ι] in
theorem not_has_of_kind [Fintype ι] (h : WatchInv s) (hopen : (s.contexts c).debug ≠ 0)
    (hkind : gdbGetWatchpointKind s c address = .disabled) (j : ℕ) : ¬s.Has c address j := by
  intro hj
  unfold gdbGetWatchpointKind at hkind
  rcases firstSlot_cases s.slots (Watchpoint.IsAt (s.contexts c).debug address) with
    ⟨-, hnone⟩ | ⟨i, hi, hfirst, hat, -⟩
  · exact hnone j hj.1 hj.2.2
  · dsimp only at hkind
    rw [hfirst, if_neg hi.ne] at hkind
    have hzero := hat.2
    rw [h.empty i hkind] at hzero
    exact hopen hzero.symm

theorem added_of_fits [Fintype ι] (h : WatchInv s) {size : UInt32} {kind : Fin 3} {known : Bool}
    (hopen : known = true → (s.contexts c).debug ≠ 0)
    (hfits : WatchFits s (.add c address size kind known)) :
    WatchInv (gdbAddWatchpoint known s c address size (kinds kind)).2 ∧
      (gdbAddWatchpoint known s c address size (kinds kind)).2.lock = s.lock := by
  obtain ⟨hroom, hsize, hfour, hnew⟩ := hfits
  have hvalid : ¬(size = 0 ∨ 4 < address - (address &&& ~~~3) + size ∨ kinds kind = .disabled) := by
    rintro (h | h | h)
    · exact hsize h
    · exact absurd h (UInt32.not_lt.mpr hfour)
    · exact kinds_ne kind h
  unfold gdbAddWatchpoint
  rw [if_neg hroom, if_neg hvalid, if_neg (not_not_intro hnew)]
  cases known with
  | false => exact ⟨h, rfl⟩
  | true =>
    exact ⟨h.added hroom (kinds_ne kind) (hopen rfl) (not_has_of_kind h (hopen rfl) hnew), rfl⟩

theorem fits_of_lock {size : UInt32} {kind : Fin 3} {known : Bool}
    (hlock : (gdbAddWatchpoint known s c address size (kinds kind)).2.lock = s.lock) :
    WatchFits s (.add c address size kind known) := by
  have hleft : s.lock + 1 ≠ s.lock := Nat.succ_ne_self s.lock
  unfold gdbAddWatchpoint at hlock
  by_cases hroom : s.total = 2
  · rw [if_pos hroom] at hlock
    exact absurd hlock hleft
  rw [if_neg hroom] at hlock
  by_cases hvalid : size = 0 ∨ 4 < address - (address &&& ~~~3) + size ∨ kinds kind = .disabled
  · rw [if_pos hvalid] at hlock
    exact absurd hlock hleft
  rw [if_neg hvalid] at hlock
  by_cases hnew : gdbGetWatchpointKind s c address = .disabled
  · exact ⟨hroom, fun hsize => hvalid (.inl hsize),
      UInt32.not_lt.mp fun hfour => hvalid (.inr (.inl hfour)), hnew⟩
  · rw [if_pos hnew] at hlock
    exact absurd hlock hleft

/-! ## Detaching -/

theorem gdbDetachFromProcess_eq {looped : WatchState ι}
    (h : detachLoop c (s.contexts c).nbWatchpoints 0 s = looped) :
    gdbDetachFromProcess s c = looped.setContext c
      { looped.contexts c with nbWatchpoints := 0, debug := 0 } := by
  unfold gdbDetachFromProcess
  rw [h]

theorem setContext_self (s : WatchState ι) (c : ι) (ctx : WatchContext) :
    (s.setContext c ctx).contexts c = ctx := by
  show Function.update s.contexts c ctx c = ctx
  rw [Function.update_self]

theorem setContext_clearEntry (s : WatchState ι) (c : ι) (i : ℕ) (ctx : WatchContext) :
    (clearEntry s c i).setContext c ctx = s.setContext c ctx := by
  unfold clearEntry setContext
  rw [Function.update_idem]

/-- The first pass of the loop takes out the first slot that has the address or is the
context's. -/
theorem detachLoop_first (hnb : 0 < (s.contexts c).nbWatchpoints) (hi : i < 2)
    (hfirst : s.First c ((s.contexts c).watchpoints 0) i) (fuel : ℕ) :
    detachLoop c (fuel + 1) 0 s = detachLoop c fuel 1 (clearEntry
      ⟨s.lock, decrement s.total, Function.update s.slots i Watchpoint.zeroed,
        Function.update s.contexts c
          ((s.contexts c).forget ((s.contexts c).watchpoints 0))⟩ c 0) := by
  rw [detachLoop, if_pos hnb]
  rcases gdbRemoveWatchpoint_cases s c ((s.contexts c).watchpoints 0) .disabled with
    ⟨hnofirst, -, -⟩ | ⟨j, hj, hjfirst, hrun⟩
  · exact absurd hfirst (hnofirst i hi)
  · obtain rfl := first_unique hjfirst hfirst
    dsimp only
    rw [hrun, if_neg fun hne => hne.1 rfl]

theorem first_of_has (hhas : s.Has c address i) : ∃ j < 2, s.First c address j := by
  rcases gdbRemoveWatchpoint_cases s c address .disabled with ⟨-, hnone, -⟩ | ⟨j, hj, hfirst, -⟩
  · exact absurd hhas (hnone i)
  · exact ⟨j, hj, hfirst⟩

omit [DecidableEq ι] in
theorem none_of_nb_zero [Fintype ι] (h : WatchInv s)
    (hnb : (s.contexts c).nbWatchpoints = 0) (a : UInt32)
    (j : ℕ) : ¬s.Has c a j := by
  intro hj
  have hmem := (h.mem_listed c a).mpr ⟨j, hj⟩
  unfold WatchContext.listed at hmem
  rw [hnb] at hmem
  exact List.not_mem_nil hmem

omit [DecidableEq ι] in
theorem nb_zero_of_closed [Fintype ι] (h : WatchInv s) (hclosed : (s.contexts c).debug = 0) :
    (s.contexts c).nbWatchpoints = 0 := by
  by_contra hnb
  obtain ⟨n, hn⟩ := Nat.exists_eq_succ_of_ne_zero hnb
  have hmem : (s.contexts c).watchpoints 0 ∈ (s.contexts c).listed := by
    unfold WatchContext.listed
    rw [hn]
    exact List.mem_cons_self
  obtain ⟨i, hhas⟩ := (h.mem_listed c _).mp hmem
  exact h.open_ i hhas.1 hhas.2.1 (hhas.2.2.2.trans hclosed)

theorem detached_of_nb_zero [Fintype ι] (h : WatchInv s) (hnb : (s.contexts c).nbWatchpoints = 0) :
    WatchInv (gdbDetachFromProcess s c) ∧ (gdbDetachFromProcess s c).lock = s.lock ∧
      TakesAllOut s c (gdbDetachFromProcess s c) := by
  have hloop : detachLoop c (s.contexts c).nbWatchpoints 0 s = s := by
    rw [hnb]
    rfl
  rw [gdbDetachFromProcess_eq hloop]
  refine ⟨h.setContext hnb rfl fun hne => absurd rfl hne, rfl, fun i hi => ?_, ?_⟩
  · have hnot : ¬((s.slots i).kind ≠ .disabled ∧ (s.slots i).debug = (s.contexts c).debug) :=
      fun hown => none_of_nb_zero h hnb (s.slots i).address i ⟨hi, hown.1, rfl, hown.2⟩
    rw [if_neg hnot]
    rfl
  · rw [setContext_self]

/-- A context with one watchpoint is detached with the first slot that has its address or is the
context's taken out. -/
theorem gdbDetachFromProcess_one (hnb : (s.contexts c).nbWatchpoints = 1) (hi : i < 2)
    (hfirst : s.First c ((s.contexts c).watchpoints 0) i) :
    ∃ ctx : WatchContext, ctx.nbWatchpoints = 0 ∧ ctx.debug = 0 ∧ gdbDetachFromProcess s c =
      setContext ⟨s.lock, decrement s.total, Function.update s.slots i Watchpoint.zeroed,
        Function.update s.contexts c
          ((s.contexts c).forget ((s.contexts c).watchpoints 0))⟩ c ctx := by
  have hpos : 0 < (s.contexts c).nbWatchpoints := by omega
  have hloop := (congrArg (detachLoop c · 0 s) hnb).trans (detachLoop_first hpos hi hfirst 0)
  rw [gdbDetachFromProcess_eq hloop, detachLoop, setContext_clearEntry]
  exact ⟨_, rfl, rfl, rfl⟩

omit [DecidableEq ι] in
theorem listed_one (hnb : (s.contexts c).nbWatchpoints = 1) :
    (s.contexts c).listed = [(s.contexts c).watchpoints 0] := by
  unfold WatchContext.listed
  rw [hnb]
  rfl

theorem detached_of_fits [Fintype ι] (h : WatchInv s) (hfits : WatchFits s (.detach c)) :
    WatchInv (gdbDetachFromProcess s c) ∧ (gdbDetachFromProcess s c).lock = s.lock ∧
      TakesAllOut s c (gdbDetachFromProcess s c) := by
  rcases hfits with hnb | ⟨hnb, hfirst⟩
  · exact detached_of_nb_zero h hnb
  have hmem : (s.contexts c).watchpoints 0 ∈ (s.contexts c).listed := by
    rw [listed_one hnb]
    exact List.mem_singleton_self _
  obtain ⟨i, hhas⟩ := (h.mem_listed c _).mp hmem
  obtain ⟨ctx, hnone, hclosed, hrun⟩ :=
    gdbDetachFromProcess_one hnb hhas.1 ((hfirst i hhas.1).mpr hhas.2.2)
  have hcount := ((s.contexts c).forget_listed (hnb.trans_le (by decide)) hmem).2
  rw [hrun]
  refine ⟨(h.removed hhas).setContext ?_ hnone (fun hne => absurd hclosed hne), rfl,
    fun j hj => ?_, ?_⟩
  · show (Function.update s.contexts c ((s.contexts c).forget _) c).nbWatchpoints = 0
    rw [Function.update_self]
    omega
  · show Function.update s.slots i Watchpoint.zeroed j = _
    by_cases hji : j = i
    · rw [hji, Function.update_self, if_pos ⟨hhas.2.1, hhas.2.2.2⟩]
    · rw [Function.update_of_ne hji, if_neg]
      rintro ⟨hkind, hdebug⟩
      have hown : s.Has c (s.slots j).address j := ⟨hj, hkind, rfl, hdebug⟩
      have hlisted := (h.mem_listed c _).mpr ⟨j, hown⟩
      rw [listed_one hnb, List.mem_singleton] at hlisted
      rw [hlisted] at hown
      exact hji (h.inj c _ j i hown hhas)
  · rw [setContext_self, hnone]

theorem gdbDetachFromProcess_two (hnb : (s.contexts c).nbWatchpoints = 2)
    (hfirst : s.First c ((s.contexts c).watchpoints 0) 0) :
    (gdbDetachFromProcess s c).slots 1 = s.slots 1 := by
  have hpos : 0 < (s.contexts c).nbWatchpoints := by omega
  have hloop := (congrArg (detachLoop c · 0 s) hnb).trans
    (detachLoop_first hpos Nat.two_pos hfirst 1)
  generalize hremoved : (⟨s.lock, decrement s.total, Function.update s.slots 0 Watchpoint.zeroed,
    Function.update s.contexts c ((s.contexts c).forget ((s.contexts c).watchpoints 0))⟩ :
      WatchState ι) = removed at hloop
  have hleft : ((clearEntry removed c 0).contexts c).nbWatchpoints = 1 := by
    rw [clearEntry, setContext_self, ← hremoved]
    show (Function.update s.contexts c ((s.contexts c).forget _) c).nbWatchpoints = 1
    rw [Function.update_self, WatchContext.forget, if_pos rfl, hnb]
    rfl
  rw [detachLoop, hleft, if_neg (lt_irrefl 1)] at hloop
  rw [gdbDetachFromProcess_eq hloop, setContext_clearEntry, ← hremoved]
  show Function.update s.slots 0 Watchpoint.zeroed 1 = s.slots 1
  rw [Function.update_of_ne Nat.one_ne_zero]

theorem fits_of_takesAllOut [Fintype ι] (h : WatchInv s)
    (htakes : TakesAllOut s c (gdbDetachFromProcess s c)) : WatchFits s (.detach c) := by
  have hle := (h.nb_le c).trans (used_le s)
  rcases Nat.lt_trichotomy (s.contexts c).nbWatchpoints 1 with hnone | hone | hmore
  · exact .inl (Nat.lt_one_iff.mp hnone)
  · refine .inr ⟨hone, fun j hj => ?_⟩
    have hmem : (s.contexts c).watchpoints 0 ∈ (s.contexts c).listed := by
      rw [listed_one hone]
      exact List.mem_singleton_self _
    obtain ⟨i, hhas⟩ := (h.mem_listed c _).mp hmem
    obtain ⟨k, hk, hfirst⟩ := first_of_has hhas
    obtain ⟨ctx, -, -, hrun⟩ := gdbDetachFromProcess_one hone hk hfirst
    have hslot : Function.update s.slots k Watchpoint.zeroed i = Watchpoint.zeroed := by
      have htaken := htakes.1 i hhas.1
      rwa [if_pos ⟨hhas.2.1, hhas.2.2.2⟩, hrun] at htaken
    have hki : i = k := by
      by_contra hne
      rw [Function.update_of_ne hne] at hslot
      exact hhas.2.1 (congrArg Watchpoint.kind hslot)
    subst hki
    constructor
    · intro hjfirst
      exact (first_unique hjfirst hfirst) ▸ hhas.2.2
    · intro hat
      have hkind : (s.slots j).kind ≠ .disabled := by
        intro hdisabled
        have hzero := hat.2
        rw [h.empty j hdisabled] at hzero
        exact h.open_ i hhas.1 hhas.2.1 (hhas.2.2.2.trans hzero.symm)
      exact h.inj c _ j i ⟨hj, hkind, hat⟩ hhas ▸ hfirst
  · -- both slots are the context's, and the second one stays
    have htwo : (s.contexts c).nbWatchpoints = 2 := by omega
    have hlisted : (s.contexts c).listed =
        [(s.contexts c).watchpoints 0, (s.contexts c).watchpoints 1] := by
      unfold WatchContext.listed
      rw [htwo]
      rfl
    have hnodup := h.nodup c
    have hmem := h.mem_listed c
    rw [hlisted] at hnodup hmem
    obtain ⟨i, hi⟩ := (hmem _).mp List.mem_cons_self
    obtain ⟨j, hj⟩ := (hmem _).mp (List.mem_cons_of_mem _ (List.mem_singleton_self _))
    have hij : i ≠ j := by
      rintro rfl
      have hsame := hi.2.2.1.symm.trans hj.2.2.1
      exact (List.nodup_cons.mp hnodup).1 (hsame ▸ List.mem_singleton_self _)
    have hown (k : ℕ) (hk : k < 2) :
        (s.slots k).kind ≠ .disabled ∧ (s.slots k).debug = (s.contexts c).debug := by
      have hilt := hi.1
      have hjlt := hj.1
      rcases (by omega : k = i ∨ k = j) with rfl | rfl
      · exact ⟨hi.2.1, hi.2.2.2⟩
      · exact ⟨hj.2.1, hj.2.2.2⟩
    have hfirst : s.First c ((s.contexts c).watchpoints 0) 0 :=
      ⟨.inr (hown 0 Nat.two_pos).2, fun k hk => absurd hk (Nat.not_lt_zero k)⟩
    have htaken := htakes.1 1 Nat.one_lt_two
    rw [if_pos (hown 1 Nat.one_lt_two), gdbDetachFromProcess_two htwo hfirst] at htaken
    exact absurd (congrArg Watchpoint.kind htaken) (hown 1 Nat.one_lt_two).1

/-! ## Any calls -/

theorem watchStep_law [Fintype ι] {t : WatchState ι} {call : WatchCall ι} (h : WatchInv s)
    (hstep : watchStep s call = some t) :
    (WatchLaw s call t ↔ WatchFits s call) ∧ (WatchFits s call → WatchInv t) := by
  have hlaw (hgood : WatchFits s call → WatchInv t ∧ t.lock = s.lock ∧ Removes s call t)
      (hfits : WatchLaw s call t → WatchFits s call) :
      (WatchLaw s call t ↔ WatchFits s call) ∧ (WatchFits s call → WatchInv t) := by
    refine ⟨⟨hfits, fun hf => ?_⟩, fun hf => (hgood hf).1⟩
    obtain ⟨hinv, hlock, hremoves⟩ := hgood hf
    exact ⟨hlock, hinv.used, hinv.sum, hremoves⟩
  cases call with
  | attach c debug =>
    have hstep : (if _ then _ else none) = some t := hstep
    by_cases hnew : (s.contexts c).debug = 0 ∧ debug ≠ 0 ∧ ∀ c', (s.contexts c').debug ≠ debug
    · rw [if_pos hnew] at hstep
      obtain rfl := Option.some.inj hstep
      refine hlaw (fun _ => ⟨?_, rfl, trivial⟩) fun _ => trivial
      have hnone := nb_zero_of_closed h hnew.1
      exact h.setContext hnone hnone fun _ => hnew.2.2
    · rw [if_neg hnew] at hstep
      exact absurd hstep (Option.some_ne_none t).symm
  | add c address size kind known =>
    have hstep : (if _ then none else _) = some t := hstep
    by_cases hclosed : known = true ∧ (s.contexts c).debug = 0
    · rw [if_pos hclosed] at hstep
      exact absurd hstep (Option.some_ne_none t).symm
    · rw [if_neg hclosed] at hstep
      obtain rfl := Option.some.inj hstep
      refine hlaw (fun hf => ?_) fun hl => fits_of_lock hl.lock
      obtain ⟨hinv, hlock⟩ := added_of_fits h (fun hk hz => hclosed ⟨hk, hz⟩) hf
      exact ⟨hinv, hlock, trivial⟩
  | remove c address kind =>
    obtain rfl := Option.some.inj hstep
    exact hlaw (takesOut_of_fits h) fun hl => fits_of_takesOut hl.removes
  | detach c =>
    obtain rfl := Option.some.inj hstep
    exact hlaw (detached_of_fits h) fun hl => fits_of_takesAllOut h hl.removes

/-- The watchpoints are as they are to be in a run exactly where each of its calls fits. -/
theorem watchpoints_iff [Fintype ι] (calls : List (WatchCall ι)) :
    Runs.AllSteps watchStep WatchLaw (WatchState.reset (ι := ι)) calls ↔
      Runs.Guarded watchStep WatchFits (WatchState.reset (ι := ι)) calls :=
  Runs.allSteps_iff_guarded (I := WatchInv) (fun _ _ _ h hstep => (watchStep_law h hstep).1)
    (fun _ _ _ h hstep hl => (watchStep_law h hstep).2 ((watchStep_law h hstep).1.mp hl))
    reset_inv calls

/-- A context with two watchpoints is detached, and the second one stays in its slot. -/
theorem second_watchpoint_stays : ¬Runs.AllSteps watchStep WatchLaw WatchState.reset
    [.attach () 5, .add () 0x1000 4 0 true, .add () 0x2000 4 0 true, .detach ()] := by
  intro h
  have hlaw := ((((h _ rfl).2 _ rfl).2 _ rfl).2 _ rfl).1
  have hslot := congrArg Watchpoint.address (hlaw.removes.1 1 Nat.one_lt_two)
  exact absurd hslot (by decide +kernel)

end Laws

end Presence3DS.Gdb
