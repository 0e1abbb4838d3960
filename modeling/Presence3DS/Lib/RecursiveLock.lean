import Mathlib.Algebra.Order.Ring.Int
import Mathlib.Algebra.Order.Ring.Nat
import Mathlib.Data.List.TakeWhile
import Mathlib.Logic.Function.Basic
import Mathlib.Order.Fin.Basic

/-! Recursive locks: the party that holds a lock takes it again, level by level, and another party
takes it only when every level is given back. -/

/-- `held p n` is held by `p`, which took it `n` times more after the first. -/
inductive RecursiveLock (ι : Type*) where
  | free
  | held (holder : ι) (more : ℕ)

namespace RecursiveLock

variable {ι κ : Type*} [DecidableEq ι]

/-- How many levels `p` has to give back. -/
def depth (p : ι) : RecursiveLock ι → ℕ
  | free => 0
  | held q more => if q = p then more + 1 else 0

def isFree : RecursiveLock ι → Bool
  | free => true
  | held _ _ => false

/-- Only a lock that another party holds makes `p` wait. -/
def lock (p : ι) : RecursiveLock ι → Option (RecursiveLock ι)
  | free => some (held p 0)
  | held q more => if q = p then some (held q (more + 1)) else none

def unlock : RecursiveLock ι → RecursiveLock ι
  | free => free
  | held _ 0 => free
  | held q (more + 1) => held q more

theorem depth_exclusive {l : RecursiveLock ι} {p q : ι} (hp : 0 < depth p l) (hne : q ≠ p) :
    depth q l = 0 := by
  cases l with
  | free => rfl
  | held r more =>
    have hr : r = p := by
      by_contra hr
      exact absurd hp (by simp [depth, hr])
    exact if_neg fun hq => hne (hq.symm.trans hr)

theorem depth_lock {l l' : RecursiveLock ι} {p : ι} (h : lock p l = some l') (q : ι) :
    depth q l' = depth q l + if q = p then 1 else 0 := by
  cases l with
  | free =>
    rcases Option.some.inj h with rfl
    simp [depth, eq_comm]
  | held r more =>
    obtain ⟨rfl, htaken⟩ := Option.ite_none_right_eq_some.mp h
    rcases Option.some.inj htaken with rfl
    by_cases hq : q = r
    · simp [depth, hq]
    · simp [depth, hq, Ne.symm hq]

theorem depth_unlock {l : RecursiveLock ι} {p : ι} (h : 0 < depth p l) (q : ι) :
    depth q (unlock l) = depth q l - if q = p then 1 else 0 := by
  cases l with
  | free => exact absurd h (lt_irrefl 0)
  | held r more =>
    have hr : r = p := by
      by_contra hr
      exact absurd h (by simp [depth, hr])
    subst hr
    by_cases hq : q = r
    · cases more <;> simp [unlock, depth, hq]
    · cases more <;> simp [unlock, depth, Ne.symm hq]

/-- What is taken is given back. -/
theorem unlock_of_lock {l l' : RecursiveLock ι} {p : ι} (h : lock p l = some l') :
    unlock l' = l := by
  cases l with
  | free =>
    rcases Option.some.inj h with rfl
    rfl
  | held r more =>
    obtain ⟨-, htaken⟩ := Option.ite_none_right_eq_some.mp h
    rcases Option.some.inj htaken with rfl
    rfl

theorem lock_ne {l l' : RecursiveLock ι} {p : ι} (h : lock p l = some l') : l' ≠ l := by
  have hdepth := depth_lock h p
  rintro rfl
  rw [if_pos rfl] at hdepth
  omega

/-! ## Tables of locks -/

/-- Each lock is held as often as each party has it to give back. -/
def Records (ls : κ → RecursiveLock ι) (levels : ι → κ → ℕ) : Prop :=
  ∀ p k, depth p (ls k) = levels p k

variable {ls ls' : κ → RecursiveLock ι} {levels levels' : ι → κ → ℕ} {p q : ι} {k : κ}

theorem Records.exclusive (h : Records ls levels) (hp : 0 < levels p k) (hne : q ≠ p) :
    levels q k = 0 :=
  h q k ▸ depth_exclusive (h p k ▸ hp) hne

variable [DecidableEq κ]

def lockAt (p : ι) (k : κ) (ls : κ → RecursiveLock ι) : Option (κ → RecursiveLock ι) :=
  (lock p (ls k)).map (Function.update ls k)

def unlockAt (k : κ) (ls : κ → RecursiveLock ι) : κ → RecursiveLock ι :=
  Function.update ls k (unlock (ls k))

theorem Records.lockAt (h : Records ls levels) (hlock : lockAt p k ls = some ls')
    (hlevels : ∀ q j, levels' q j = levels q j + if q = p ∧ j = k then 1 else 0) :
    Records ls' levels' := by
  obtain ⟨l, hl, rfl⟩ := Option.map_eq_some_iff.mp hlock
  intro q j
  rw [hlevels q j]
  rcases eq_or_ne j k with rfl | hj
  · simpa [← h q j] using depth_lock hl q
  · simpa [hj] using h q j

theorem Records.unlockAt (h : Records ls levels) (hheld : 0 < levels p k)
    (hlevels : ∀ q j, levels' q j = levels q j - if q = p ∧ j = k then 1 else 0) :
    Records (unlockAt k ls) levels' := by
  intro q j
  rw [hlevels q j]
  rcases eq_or_ne j k with rfl | hj
  · simpa [RecursiveLock.unlockAt, ← h q j] using depth_unlock (h p j ▸ hheld) q
  · simpa [RecursiveLock.unlockAt, hj] using h q j

theorem unlockAt_of_lockAt (h : lockAt p k ls = some ls') : unlockAt k ls' = ls := by
  obtain ⟨l, hl, rfl⟩ := Option.map_eq_some_iff.mp h
  unfold unlockAt
  rw [Function.update_self, unlock_of_lock hl, Function.update_idem, Function.update_eq_self]

theorem lockAt_ne (h : lockAt p k ls = some ls') : ls' ≠ ls := by
  obtain ⟨l, hl, rfl⟩ := Option.map_eq_some_iff.mp h
  exact fun heq => lock_ne hl ((Function.update_self k l ls).symm.trans (congrFun heq k))

/-- Several locks, one after the other. -/
def lockAllAt (p : ι) (ks : List κ) (ls : κ → RecursiveLock ι) : Option (κ → RecursiveLock ι) :=
  ks.foldlM (fun ls k => lockAt p k ls) ls

def unlockAllAt (ks : List κ) (ls : κ → RecursiveLock ι) : κ → RecursiveLock ι :=
  ks.reverse.foldl (fun ls k => unlockAt k ls) ls

theorem unlockAllAt_of_lockAllAt {ks : List κ} (h : lockAllAt p ks ls = some ls') :
    unlockAllAt ks ls' = ls := by
  induction ks generalizing ls with
  | nil => exact (Option.some.inj h).symm
  | cons k ks ih =>
    obtain ⟨ls₁, hfirst, hrest⟩ := Option.bind_eq_some_iff.mp h
    unfold unlockAllAt at ih ⊢
    rw [List.reverse_cons, List.foldl_append, ih hrest]
    exact unlockAt_of_lockAt hfirst

end RecursiveLock
