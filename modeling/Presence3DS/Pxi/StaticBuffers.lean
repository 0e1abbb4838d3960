import Mathlib.Algebra.BigOperators.Fin
import Mathlib.Algebra.Order.BigOperators.Group.Finset
import Mathlib.Data.Fintype.Option
import Presence3DS.Lib.Runs
import Presence3DS.Pxi.Sessions

/-! Who owns the static buffers of the PXI module: the free set, the kernel or a session whose
command is in flight. -/

namespace Presence3DS.Pxi
open Masks Runs

/-! ## Sets of buffers -/

section Bits
variable {v : Word} {n : ℕ}

theorem getMSBPosition_eq (v : Word) : getMSBPosition v = msb v := by
  rw [getMSBPosition, msb]
  rfl

theorem positions_clearMSBs (v : Word) (n : ℕ) :
    positions (clearMSBs v n) = (positions v).take ((positions v).length - n) := by
  induction n generalizing v with
  | zero => rw [clearMSBs, Nat.sub_zero, List.take_length]
  | succ n ih =>
    rw [clearMSBs]
    by_cases hv : v = 0
    · subst hv
      simp only [getMSBPosition_eq, msb_zero, if_true, positions_zero, List.take_nil]
    · obtain ⟨b, hb, -, hsplit⟩ := positions_msb hv
      have hpos : ¬((b : ℤ) = -1) := by omega
      have hlen : (positions v).length = (positions (clear v b)).length + 1 := by
        rw [hsplit, List.length_append, List.length_singleton]
      simp only [getMSBPosition_eq, hb, if_neg hpos, clearBit, Int.toNat_natCast]
      rw [ih, hlen, Nat.add_sub_add_right, hsplit, List.take_append_of_le_length (Nat.sub_le _ _)]

theorem length_clearMSBs (v : Word) (n : ℕ) :
    (positions (clearMSBs v n)).length = (positions v).length - n := by
  rw [positions_clearMSBs, List.length_take, min_eq_left (Nat.sub_le _ _)]

theorem getLsbD_of_clearMSBs {b : ℕ} (h : (clearMSBs v n).getLsbD b = true) :
    v.getLsbD b = true := by
  rw [← mem_positions, positions_clearMSBs] at h
  exact mem_positions.mp (List.mem_of_mem_take h)

theorem length_cleared (v : Word) (n : ℕ) :
    (positions (~~~clearMSBs v n &&& v)).length = min n (positions v).length := by
  have hsplit := length_positions_diff (u := clearMSBs v n) (v := v) fun _ => getLsbD_of_clearMSBs
  rw [length_clearMSBs] at hsplit
  omega

theorem filterMap_slotsFrom (v : Word) (n k : ℕ) (hk : k ≤ n) :
    ((slotsFrom v n).take k).filterMap id = (positions v).take k := by
  induction n generalizing v k with
  | zero =>
    rw [Nat.le_zero.mp hk]
    rfl
  | succ n ih =>
    cases k with
    | zero => rfl
    | succ k =>
      have hk' := Nat.le_of_succ_le_succ hk
      rw [slotsFrom]
      by_cases hv : v = 0
      · subst hv
        have hrest := ih 0 k hk'
        rw [positions_zero, List.take_nil] at hrest
        simp only [getLSBPosition, lsb_zero, if_true, List.take_succ_cons, positions_zero,
          List.take_nil]
        rw [List.filterMap_cons_none rfl, hrest]
      · obtain ⟨b, hb, -, hsplit⟩ := positions_lsb hv
        have hpos : ¬((b : ℤ) = -1) := by omega
        simp only [getLSBPosition, hb, if_neg hpos, clearBit, Int.toNat_natCast,
          List.take_succ_cons]
        rw [List.filterMap_cons_some (show id (some b) = some b from rfl), ih _ _ hk', hsplit,
          List.take_succ_cons]

end Bits

/-! ## Owners -/

inductive Owner where
  | free
  | provided
  | session (i : Service)
deriving DecidableEq

def Owner.equiv : Owner ≃ Option (Option Service) where
  toFun
    | .free => none
    | .provided => some none
    | .session i => some (some i)
  invFun
    | none => .free
    | some none => .provided
    | some (some i) => .session i
  left_inv o := by cases o <;> rfl
  right_inv o := by rcases o with _ | _ | i <;> rfl

instance : Fintype Owner := Fintype.ofEquiv _ Owner.equiv.symm

def owned (b : StaticBuffers) (used : Service → Word) : Owner → Word
  | .free => b.free
  | .provided => b.currentlyProvided
  | .session i => used i

section Ownership
variable {b : StaticBuffers} {used : Service → Word} {n nb : ℕ} {i : Service}

theorem sum_owned (h : Shared n (owned b used)) :
    (positions b.free).length + ((positions b.currentlyProvided).length +
      ∑ i, (positions (used i)).length) = n := by
  have hsum := h.sum_length
  rw [Fintype.sum_equiv Owner.equiv _
    (fun o => (positions (owned b used (Owner.equiv.symm o))).length)
    (fun o => by rw [Equiv.symm_apply_apply]), Fintype.sum_option, Fintype.sum_option] at hsum
  exact hsum

theorem and_not_cleared {u v : Word} (h : ∀ c, u.getLsbD c = true → v.getLsbD c = true) :
    v &&& ~~~(~~~u &&& v) = u := by
  apply BitVec.eq_of_getLsbD_eq
  intro c hc
  have hsub := h c
  simp only [BitVec.getLsbD_and, BitVec.getLsbD_not, hc, decide_true, Bool.true_and]
  cases hu : u.getLsbD c with
  | false => simp
  | true => simp [hsub hu]

theorem cleared_sub {u v : Word} (c : ℕ) (h : (~~~u &&& v).getLsbD c = true) :
    v.getLsbD c = true := by
  rw [BitVec.getLsbD_and, Bool.and_eq_true] at h
  exact h.2

theorem Shared.releaseProvided (h : Shared n (owned b used)) (nb : ℕ) :
    Shared n (owned { b with
      free := (releaseStaticBuffers b.free b.currentlyProvided nb).2
      currentlyProvided := (releaseStaticBuffers b.free b.currentlyProvided nb).1 } used) := by
  have hmove := h.move .provided .free nofun
    (~~~clearMSBs b.currentlyProvided nb &&& b.currentlyProvided) cleared_sub
  convert hmove using 1
  funext o
  cases o with
  | free => rfl
  | provided => exact (and_not_cleared fun _ => getLsbD_of_clearMSBs).symm
  | session i => rfl

theorem Shared.giveProvided (h : Shared n (owned b used)) (hi : used i = 0) :
    Shared n (owned { b with currentlyProvided := 0 }
      (Function.update used i b.currentlyProvided)) := by
  have hmove := h.move .provided (.session i) nofun b.currentlyProvided fun _ hc => hc
  convert hmove using 1
  funext o
  cases o with
  | free => rfl
  | provided => exact (BitVec.and_not_self b.currentlyProvided).symm
  | session j =>
    by_cases hj : j = i
    · subst hj
      simp only [owned, Function.update_self, hi, BitVec.ofNat_eq_ofNat, BitVec.zero_or]
    · have hne : Owner.session j ≠ Owner.session i := fun heq => hj (Owner.session.inj heq)
      simp only [owned, Function.update_of_ne hj, Function.update_of_ne hne]
      rfl

theorem Shared.acquire (h : Shared n (owned b used)) (hnone : b.currentlyProvided = 0) :
    Shared n (owned (acquireStaticBuffers b) used) := by
  have hmove := h.move .free .provided nofun (~~~clearMSBs b.free 4 &&& b.free) cleared_sub
  convert hmove using 1
  funext o
  cases o with
  | free => exact (and_not_cleared fun _ => getLsbD_of_clearMSBs).symm
  | provided =>
    have hzero : owned b used .provided = 0 := hnone
    simp only [Function.update_self, hzero, BitVec.ofNat_eq_ofNat, BitVec.zero_or]
    rfl
  | session i => rfl

theorem Shared.releaseSession (h : Shared n (owned b used)) (i : Service) (nb : ℕ) :
    Shared n (owned { b with free := (releaseStaticBuffers b.free (used i) nb).2 }
      (Function.update used i (releaseStaticBuffers b.free (used i) nb).1)) := by
  have hmove := h.move (.session i) .free nofun (~~~clearMSBs (used i) nb &&& used i) cleared_sub
  convert hmove using 1
  funext o
  cases o with
  | free => rfl
  | provided => rfl
  | session j =>
    by_cases hj : j = i
    · subst hj
      have hkept : clearMSBs (used j) nb = used j &&& ~~~(~~~clearMSBs (used j) nb &&& used j) :=
        (and_not_cleared fun _ => getLsbD_of_clearMSBs).symm
      have hne : Owner.session j ≠ Owner.free := nofun
      show Function.update used j _ j = _
      rw [Function.update_self, Function.update_of_ne hne, Function.update_self]
      exact hkept
    · have hne : Owner.session j ≠ Owner.session i := fun heq => hj (Owner.session.inj heq)
      have hfree : Owner.session j ≠ Owner.free := nofun
      show Function.update used i _ j = _
      rw [Function.update_of_ne hj, Function.update_of_ne hfree, Function.update_of_ne hne]
      rfl

end Ownership

/-! ## The law and what it takes -/

namespace SessionManager

/-- How many buffers the kernel is provided with. -/
def provided (m : SessionManager) : ℕ := (positions m.staticBuffers.currentlyProvided).length

end SessionManager

/-- The buffers are shared out between the free set, the kernel and the sessions in flight, what
the kernel may have filled for a request is its session's, and the kernel has enough to wait. -/
structure BufferLaw (t : PxiState) : Prop where
  shared : t.sender.pc ≠ .begin →
    Shared nbStaticBuffers (owned t.manager.staticBuffers t.manager.used)
  inFlight : ∀ i, t.state i = .idle → t.manager.used i = 0
  filled : ∀ i, t.state i ≠ .idle → ∀ b ∈ t.trail.filled i, (t.manager.used i).getLsbD b = true
  enough : ∀ idle, t.sender.pc = .waiting idle →
    ∀ i ∈ idle, nbStaticBuffersByService i ≤ t.manager.provided

/-- A command for a service with static buffers finds four of them provided, and a reply makes no
service idle that needs more than are provided. -/
def buffersInScope : Except PxiThread PxiState → PxiEvent → Bool
  | .ok s, .sender _ =>
    match s.sender.pc with
    | .returned (.command i) => nbStaticBuffersByService i = 0 || s.manager.provided = 4
    | .replyFound i => nbStaticBuffersByService i ≤ s.manager.provided
    | _ => true
  | _, _ => true

structure Settled (m : SessionManager) (filled : Service → List ℕ) : Prop where
  shared : Shared nbStaticBuffers (owned m.staticBuffers m.used)
  inFlight : ∀ i, m.state i = .idle → m.used i = 0
  count : ∀ i, m.state i ≠ .idle → (positions (m.used i)).length = nbStaticBuffersByService i
  filled : ∀ i, m.state i ≠ .idle → ∀ b ∈ filled i, (m.used i).getLsbD b = true
  enough : ∀ i, m.state i = .idle → nbStaticBuffersByService i ≤ m.provided
  few : m.provided ≤ 4
  slots : m.staticBuffers.slots = slotsFrom m.staticBuffers.currentlyProvided 4

structure BufferInv (s : PxiState) : Prop where
  unstarted : s.sender.pc = .begin → ∀ i, s.state i = .idle
  inFlight : ∀ i, s.state i = .idle → s.manager.used i = 0
  settled : s.sender.pc ≠ .begin → Settled s.manager s.trail.filled
  waiting : ∀ idle, s.sender.pc = .waiting idle → ∀ i ∈ idle, s.state i = .idle

theorem nbStaticBuffersByService_le (i : Service) : nbStaticBuffersByService i ≤ 4 := by
  revert i
  decide

theorem sum_nbStaticBuffers : ∑ i, nbStaticBuffersByService i = nbStaticBuffers := by decide

section Settled
variable {m m' : SessionManager} {filled : Service → List ℕ} {i : Service}

theorem Settled.same (h : Settled m filled) (hbuffers : m'.staticBuffers = m.staticBuffers)
    (hused : ∀ i, m'.used i = m.used i) (hstate : ∀ i, m'.state i = .idle ↔ m.state i = .idle) :
    Settled m' filled where
  shared := by
    rw [hbuffers, funext hused]
    exact h.shared
  inFlight j hj := by
    rw [hused]
    exact h.inFlight j ((hstate j).mp hj)
  count j hj := by
    rw [hused]
    exact h.count j (mt (hstate j).mpr hj)
  filled j hj := by
    rw [hused]
    exact h.filled j (mt (hstate j).mpr hj)
  enough j hj := by
    rw [SessionManager.provided, hbuffers]
    exact h.enough j ((hstate j).mp hj)
  few := by
    rw [SessionManager.provided, hbuffers]
    exact h.few
  slots := by
    rw [hbuffers]
    exact h.slots

theorem enough_free {b : StaticBuffers} {used : Service → Word} {state : Service → SessionState}
    (hshared : Shared nbStaticBuffers (owned b used)) (hnone : b.currentlyProvided = 0)
    (hzero : ∀ i, state i = .idle → used i = 0)
    (hcount : ∀ i, state i ≠ .idle → (positions (used i)).length = nbStaticBuffersByService i)
    (hi : state i = .idle) : nbStaticBuffersByService i ≤ (positions b.free).length := by
  have hsum := sum_owned hshared
  rw [hnone, positions_zero, List.length_nil, Nat.zero_add, ← sum_nbStaticBuffers] at hsum
  have hle : ∑ j, ((positions (used j)).length +
      if j = i then nbStaticBuffersByService i else 0) ≤ ∑ j, nbStaticBuffersByService j := by
    apply Finset.sum_le_sum
    intro j _
    by_cases hj : state j = .idle
    · rw [hzero j hj, positions_zero, List.length_nil, Nat.zero_add]
      split_ifs with hji
      · rw [hji]
      · exact Nat.zero_le _
    · have hji : j ≠ i := fun heq => hj (heq ▸ hi)
      rw [if_neg hji, hcount j hj, Nat.add_zero]
  rw [Finset.sum_add_distrib, Finset.sum_ite_eq', if_pos (Finset.mem_univ i)] at hle
  omega

theorem provided_acquire (b : StaticBuffers) :
    (positions (acquireStaticBuffers b).currentlyProvided).length =
      min 4 (positions b.free).length := length_cleared b.free 4

theorem le_provided_acquire {b : StaticBuffers} (hi : nbStaticBuffersByService i ≤
    (positions b.free).length) : nbStaticBuffersByService i ≤
      (positions (acquireStaticBuffers b).currentlyProvided).length := by
  rw [provided_acquire]
  exact le_min (nbStaticBuffersByService_le i) hi

theorem settled_begin (hstate : ∀ i, m.state i = .idle) (hused : ∀ i, m.used i = 0) :
    Settled { m with
      staticBuffers := acquireStaticBuffers
        { m.staticBuffers with free := ((1 : Word) <<< nbStaticBuffers) - 1 } } filled := by
  let b : StaticBuffers := ⟨((1 : Word) <<< nbStaticBuffers) - 1, 0, m.staticBuffers.slots⟩
  have hbits : positions (((1 : Word) <<< nbStaticBuffers) - 1) = List.range nbStaticBuffers := by
    decide
  have hfree : ∀ c, b.free.getLsbD c = true ↔ c < nbStaticBuffers := by
    intro c
    rw [← mem_positions, hbits, List.mem_range]
  have hshared : Shared nbStaticBuffers (owned b m.used) := by
    constructor
    · intro c hc
      refine ⟨.free, (hfree c).mpr hc, ?_⟩
      intro o ho
      cases o with
      | free => rfl
      | provided => exact absurd ho (by simp [owned, b])
      | session i => exact absurd ho (by simp [owned, hused i])
    · intro o c ho
      cases o with
      | free => exact (hfree c).mp ho
      | provided => exact absurd ho (by simp [owned, b])
      | session i => exact absurd ho (by simp [owned, hused i])
  have hle : ∀ i, nbStaticBuffersByService i ≤ (positions b.free).length := by
    intro i
    rw [hbits, List.length_range]
    exact (nbStaticBuffersByService_le i).trans (by decide)
  have hacquired := Shared.acquire hshared rfl
  exact {
    shared := hacquired
    inFlight := fun i _ => hused i
    count := fun i hi => absurd (hstate i) hi
    filled := fun i hi => absurd (hstate i) hi
    enough := fun i _ => le_provided_acquire (b := b) (hle i)
    few := (provided_acquire b).trans_le (min_le_left _ _)
    slots := rfl }

theorem Settled.command {cmdbuf : Cmdbuf} (h : Settled m filled)
    (hm : m.commandReceived i cmdbuf = some m')
    (hfull : 0 < nbStaticBuffersByService i → m.provided = 4) :
    Settled m' (Function.update filled i (m.staticBuffers.filledFor i)) := by
  obtain ⟨hstate, -, disabled, -, hm'⟩ := SessionManager.commandReceived_cases hm
  have hnb := nbStaticBuffersByService_le i
  have hleft : (positions (m.releaseProvided i).1).length = nbStaticBuffersByService i := by
    have hlen := length_clearMSBs m.staticBuffers.currentlyProvided
      (4 - nbStaticBuffersByService i)
    refine hlen.trans ?_
    have hfew := h.few
    have hsome := hfull
    unfold SessionManager.provided at hfew hsome
    omega
  -- What the service does not need goes back, and the rest goes to its session.
  let b : StaticBuffers := ⟨(m.releaseProvided i).2, 0, m.staticBuffers.slots⟩
  have hgiven : Shared nbStaticBuffers
      (owned b (Function.update m.used i (m.releaseProvided i).1)) :=
    Shared.giveProvided (Shared.releaseProvided h.shared _) (h.inFlight i hstate)
  have hbuffers : m'.staticBuffers = acquireStaticBuffers b := by
    rw [hm']
    rfl
  have hused : ∀ j, m'.used j = if j = i then (m.releaseProvided i).1 else m.used j := by
    rw [hm']
    exact SessionManager.used_setSession _ i _
  have hstates : ∀ j, m'.state j = if j = i then .receivedFromArm11 else m.state j := by
    rw [hm']
    exact SessionManager.state_setSession _ i _
  have hused' : m'.used = Function.update m.used i (m.releaseProvided i).1 := by
    funext j
    rw [hused, Function.update_apply]
  have hshared : Shared nbStaticBuffers (owned b m'.used) := hused' ▸ hgiven
  have hzero : ∀ j, m'.state j = .idle → m'.used j = 0 := by
    intro j hj
    rw [hstates] at hj
    rw [hused]
    split_ifs at hj ⊢ with hji
    exact h.inFlight j hj
  have hcount : ∀ j, m'.state j ≠ .idle →
      (positions (m'.used j)).length = nbStaticBuffersByService j := by
    intro j hj
    rw [hstates] at hj
    rw [hused]
    split_ifs at hj ⊢ with hji
    · rw [hji, hleft]
    · exact h.count j hj
  refine ⟨hbuffers ▸ Shared.acquire hshared rfl, hzero, hcount, ?_, ?_, ?_, ?_⟩
  · intro j hj c hc
    rw [hstates] at hj
    rw [Function.update_apply] at hc
    rw [hused]
    split_ifs at hj hc ⊢ with hji
    · -- The slots of the service are the lowest of the provided buffers, which it keeps.
      rw [StaticBuffers.filledFor, h.slots, filterMap_slotsFrom _ _ _ hnb] at hc
      rw [← mem_positions]
      show c ∈ positions (clearMSBs _ _)
      rw [positions_clearMSBs]
      have hlen := length_clearMSBs m.staticBuffers.currentlyProvided
        (4 - nbStaticBuffersByService i)
      rw [← hlen]
      rw [← hleft] at hc
      exact hc
    · exact h.filled j hj c hc
  · intro j hj
    rw [SessionManager.provided, hbuffers]
    exact le_provided_acquire (enough_free hshared rfl hzero hcount hj)
  · rw [SessionManager.provided, hbuffers]
    exact (provided_acquire b).trans_le (min_le_left _ _)
  · rw [hbuffers]
    rfl

theorem Settled.reply {cmdbuf cmdbuf' : Cmdbuf} (h : Settled m filled)
    (hm : m.replyReceived i cmdbuf = some (m', cmdbuf'))
    (henough : nbStaticBuffersByService i ≤ m.provided) : Settled m' filled := by
  obtain ⟨hstate, -, disabled, pending, -, hm', -⟩ := SessionManager.replyReceived_cases hm
  have hreleased := Shared.releaseSession h.shared i 4
  have hnone : (releaseStaticBuffers m.staticBuffers.free (m.used i) 4).1 = 0 := by
    have hlen := length_clearMSBs (m.used i) 4
    have hcount := h.count i (by rw [SessionManager.state, hstate]; exact SessionState.noConfusion)
    have hnb := nbStaticBuffersByService_le i
    have hempty : positions (clearMSBs (m.used i) 4) = [] := List.length_eq_zero_iff.mp (by omega)
    apply BitVec.eq_of_getLsbD_eq
    intro c _
    have hc : ¬c ∈ positions (clearMSBs (m.used i) 4) := by
      rw [hempty]
      exact List.not_mem_nil
    rw [mem_positions, Bool.not_eq_true] at hc
    rw [BitVec.ofNat_eq_ofNat, BitVec.getLsbD_zero]
    exact hc
  have hbuffers : m'.staticBuffers = { m.staticBuffers with
      free := (releaseStaticBuffers m.staticBuffers.free (m.used i) 4).2 } := by
    rw [hm']
    rfl
  have hused : ∀ j, m'.used j = if j = i then 0 else m.used j := by
    rw [hm', ← hnone]
    exact SessionManager.used_setSession _ i _
  have hstates : ∀ j, m'.state j = if j = i then .idle else m.state j := by
    rw [hm']
    exact SessionManager.state_setSession _ i _
  have hused' : m'.used =
      Function.update m.used i (releaseStaticBuffers m.staticBuffers.free (m.used i) 4).1 := by
    funext j
    rw [hused, Function.update_apply, hnone]
  have hprovided : m'.provided = m.provided := by rw [SessionManager.provided, hbuffers]; rfl
  refine ⟨?_, ?_, ?_, ?_, ?_, hprovided.trans_le h.few, ?_⟩
  · rw [hbuffers, hused']
    exact hreleased
  · intro j hj
    rw [hstates] at hj
    rw [hused]
    split_ifs at hj ⊢ with hji
    · rfl
    · exact h.inFlight j hj
  · intro j hj
    rw [hstates] at hj
    rw [hused]
    split_ifs at hj ⊢ with hji
    · exact absurd rfl hj
    · exact h.count j hj
  · intro j hj c hc
    rw [hstates] at hj
    rw [hused]
    split_ifs at hj ⊢ with hji
    · exact absurd rfl hj
    · exact h.filled j hj c hc
  · intro j hj
    rw [hstates] at hj
    rw [hprovided]
    split_ifs at hj with hji
    · rw [hji]
      exact henough
    · exact h.enough j hj
  · rw [hbuffers]
    exact h.slots

end Settled

/-! ## Steps and runs -/

section Steps
variable {s t : PxiState} {event : PxiEvent}

theorem BufferInv.same (hs : BufferInv s) (hbegin : t.sender.pc = .begin → s.sender.pc = .begin)
    (hbegun : t.sender.pc ≠ .begin → s.sender.pc ≠ .begin)
    (hbuffers : t.manager.staticBuffers = s.manager.staticBuffers)
    (hused : ∀ i, t.manager.used i = s.manager.used i)
    (hstate : ∀ i, t.state i = .idle ↔ s.state i = .idle)
    (hfilled : t.trail.filled = s.trail.filled)
    (hwaiting : ∀ idle, t.sender.pc = .waiting idle → ∀ i ∈ idle, s.state i = .idle) :
    BufferInv t where
  unstarted hpc i := (hstate i).mpr (hs.unstarted (hbegin hpc) i)
  inFlight i hi := (hused i).trans (hs.inFlight i ((hstate i).mp hi))
  settled hpc := by
    rw [hfilled]
    exact (hs.settled (hbegun hpc)).same hbuffers hused hstate
  waiting idle hpc i hi := (hstate i).mpr (hwaiting idle hpc i hi)

theorem BufferInv.senderOnly (hs : BufferInv s) (hmanager : t.manager = s.manager)
    (hfilled : t.trail.filled = s.trail.filled) (hbegun : t.sender.pc ≠ .begin)
    (hpc : s.sender.pc ≠ .begin)
    (hwaiting : ∀ idle, t.sender.pc = .waiting idle → ∀ i ∈ idle, s.state i = .idle) :
    BufferInv t := by
  have hstate : ∀ i, t.state i = s.state i := by
    intro i
    rw [PxiState.state, hmanager]
    rfl
  exact hs.same (fun h => absurd h hbegun) (fun _ => hpc) (by rw [hmanager])
    (fun i => by rw [hmanager]) (fun i => by rw [hstate]) hfilled hwaiting

theorem setSession_same (m : SessionManager) (i : Service) (data : SessionData)
    (hused : data.usedStaticBuffers = m.used i) (hidle : data.state = .idle ↔ m.state i = .idle) :
    (∀ j, (m.setSession i data).used j = m.used j) ∧
      ∀ j, (m.setSession i data).state j = .idle ↔ m.state j = .idle := by
  constructor
  · intro j
    rw [SessionManager.used_setSession]
    split_ifs with hj
    · rw [hj, hused]
    · rfl
  · intro j
    rw [SessionManager.state_setSession]
    split_ifs with hj
    · rw [hj, hidle]
    · exact Iff.rfl

theorem replied_bufferInv {sessionId : Option Service} {b : Bool} (hs : BufferInv s)
    (hpc : s.sender.pc ≠ .begin) : BufferInv (s.replying sessionId b) := by
  have hwait : ∀ idle, SenderPc.waiting s.idleSessions = .waiting idle → ∀ i ∈ idle,
      s.state i = .idle := by
    intro idle hidle i hi
    cases hidle
    exact (mem_idleSessions hi).1
  unfold PxiState.replying
  split
  · split_ifs
    · exact hs.senderOnly rfl rfl nofun hpc nofun
    · exact hs.senderOnly rfl rfl nofun hpc hwait
  · exact hs.senderOnly rfl rfl nofun hpc hwait

theorem moves_bufferInv (hs : BufferInv s) (hscope : buffersInScope (.ok s) event = true)
    (h : s.Moves event t) : BufferInv t := by
  cases h with
  | begin hpc =>
    have hused : ∀ i, s.manager.used i = 0 := fun i => hs.inFlight i (hs.unstarted hpc i)
    exact ⟨SenderPc.noConfusion, hs.inFlight, fun _ => settled_begin (hs.unstarted hpc) hused,
      fun _ => SenderPc.noConfusion⟩
  | sent i hpc hsends =>
    have hstate : s.manager.state i = .receivedFromArm11 := by
      rw [SessionManager.sends, Bool.and_eq_true, Bool.and_eq_true] at hsends
      exact of_decide_eq_true hsends.1.2
    obtain ⟨hused, hidle⟩ := setSession_same s.manager i
      { s.manager.sessionData i with state := .sentToArm9 } rfl
      (by rw [hstate]; exact iff_of_false SessionState.noConfusion SessionState.noConfusion)
    exact hs.same SenderPc.noConfusion (fun _ => hpc.trans_ne SenderPc.noConfusion) rfl hused
      hidle rfl fun _ => SenderPc.noConfusion
  | skipped i hpc =>
    exact hs.senderOnly rfl rfl SenderPc.noConfusion (hpc.trans_ne SenderPc.noConfusion)
      fun _ => SenderPc.noConfusion
  | sentAll hpc =>
    exact hs.senderOnly rfl rfl SenderPc.noConfusion (hpc.trans_ne SenderPc.noConfusion)
      fun _ => SenderPc.noConfusion
  | replied hpc => exact replied_bufferInv hs (hpc.trans_ne SenderPc.noConfusion)
  | closed i hpc hi =>
    obtain ⟨hused, hidle⟩ := setSession_same s.manager i
      { s.manager.sessionData i with handle := none } rfl Iff.rfl
    exact hs.same SenderPc.noConfusion (fun _ => hpc.trans_ne SenderPc.noConfusion) rfl hused
      hidle rfl fun _ => SenderPc.noConfusion
  | woken hpc =>
    exact hs.senderOnly rfl rfl SenderPc.noConfusion (hpc.trans_ne SenderPc.noConfusion)
      fun _ => SenderPc.noConfusion
  | scans hpc =>
    exact hs.senderOnly rfl rfl SenderPc.noConfusion (hpc.trans_ne SenderPc.noConfusion)
      fun _ => SenderPc.noConfusion
  | command i m hpc hm =>
    have hbegun : s.sender.pc ≠ .begin := hpc.trans_ne SenderPc.noConfusion
    have hfull : 0 < nbStaticBuffersByService i → s.manager.provided = 4 := by
      intro hpos
      simp only [buffersInScope, hpc, Bool.or_eq_true, decide_eq_true_eq] at hscope
      exact hscope.resolve_left hpos.ne'
    have hsettled := (hs.settled hbegun).command hm hfull
    exact ⟨SenderPc.noConfusion, hsettled.inFlight, fun _ => hsettled, fun _ => SenderPc.noConfusion⟩
  | scanned k hpc =>
    exact hs.senderOnly rfl rfl SenderPc.noConfusion (hpc.trans_ne SenderPc.noConfusion)
      fun _ => SenderPc.noConfusion
  | found k hpc =>
    exact hs.senderOnly rfl rfl SenderPc.noConfusion (hpc.trans_ne SenderPc.noConfusion)
      fun _ => SenderPc.noConfusion
  | reply i m cmdbuf hpc hm =>
    have hbegun : s.sender.pc ≠ .begin := hpc.trans_ne SenderPc.noConfusion
    have henough : nbStaticBuffersByService i ≤ s.manager.provided := by
      simpa only [buffersInScope, hpc, decide_eq_true_eq] using hscope
    have hsettled := (hs.settled hbegun).reply hm henough
    refine ⟨?_, hsettled.inFlight, fun _ => hsettled, ?_⟩
    · intro hpc'
      simp only at hpc'
      split_ifs at hpc'
    · intro idle hpc'
      simp only at hpc'
      split_ifs at hpc'
  | wakeClosed i hpc hi =>
    exact hs.senderOnly rfl rfl SenderPc.noConfusion (hpc.trans_ne SenderPc.noConfusion)
      fun _ => SenderPc.noConfusion
  | wakeSendAll hpc hevent =>
    exact hs.senderOnly rfl rfl SenderPc.noConfusion (hpc.trans_ne SenderPc.noConfusion)
      fun _ => SenderPc.noConfusion
  | wakeReply hpc hcount =>
    exact hs.senderOnly rfl rfl SenderPc.noConfusion (hpc.trans_ne SenderPc.noConfusion)
      fun _ => SenderPc.noConfusion
  | wakeCommand i cmdbuf hpc hi =>
    exact hs.senderOnly rfl rfl SenderPc.noConfusion (hpc.trans_ne SenderPc.noConfusion)
      fun _ => SenderPc.noConfusion
  | receiverStarts hpc hsent => exact ⟨hs.unstarted, hs.inFlight, hs.settled, hs.waiting⟩
  | @received i reply fifo hpc hfifo hstate hsize =>
    obtain ⟨hused, hidle⟩ := setSession_same s.manager i
      { s.manager.sessionData i with
        buffer := memcpy (s.buffer i) reply (nbWords (reply 0))
        state := .receivedFromArm9 } rfl
      (by
        rw [show s.manager.state i = .sentToArm9 from hstate]
        exact iff_of_false SessionState.noConfusion SessionState.noConfusion)
    exact hs.same id id rfl hused hidle rfl hs.waiting
  | receivedSrv11 hpc hfifo hstate hsize =>
    exact ⟨hs.unstarted, hs.inFlight, hs.settled, hs.waiting⟩
  | signalled hpc => exact ⟨hs.unstarted, hs.inFlight, hs.settled, hs.waiting⟩
  | released hpc hid hcount => exact ⟨hs.unstarted, hs.inFlight, hs.settled, hs.waiting⟩
  | resumed hpc hsent hstate => exact ⟨hs.unstarted, hs.inFlight, hs.settled, hs.waiting⟩
  | handler h => exact ⟨hs.unstarted, hs.inFlight, hs.settled, hs.waiting⟩
  | accept i hfree hhandle =>
    obtain ⟨hused, hidle⟩ := setSession_same s.manager i
      { s.manager.sessionData i with handle := some s.accepted } rfl Iff.rfl
    exact hs.same id id rfl hused hidle rfl hs.waiting
  | arm9Answers i reply hi => exact ⟨hs.unstarted, hs.inFlight, hs.settled, hs.waiting⟩
  | arm9Requests request => exact ⟨hs.unstarted, hs.inFlight, hs.settled, hs.waiting⟩

theorem BufferInv.law (hs : BufferInv s) : BufferLaw s where
  shared hpc := (hs.settled hpc).shared
  inFlight := hs.inFlight
  filled i hi := by
    have hpc : s.sender.pc ≠ .begin := fun hpc => hi (hs.unstarted hpc i)
    exact (hs.settled hpc).filled i hi
  enough idle hpc i hi := (hs.settled (hpc ▸ nofun)).enough i (hs.waiting idle hpc i hi)

theorem pxiStep_bufferInv {s t : Except PxiThread PxiState} (hs : Unpanicked BufferInv s)
    (hscope : buffersInScope s event = true) (h : pxiStep s event = some t) : Unpanicked BufferInv t := by
  cases t with
  | error thread => trivial
  | ok t =>
    cases s with
    | error thread => cases h
    | ok s => exact moves_bufferInv hs hscope (PxiState.step_moves h)

end Steps

theorem boot_bufferInv : BufferInv PxiState.boot where
  unstarted _ _ := rfl
  inFlight _ _ := rfl
  settled h := absurd rfl h
  waiting _ h := by cases h

/-- The static buffers stay shared out, and suffice, in a run whose commands for services with
buffers find four of them provided, and whose replies are for services that need no more than are
provided. -/
theorem buffers_shared (events : List PxiEvent)
    (h : Guarded pxiStep (fun s event => buffersInScope s event = true) (.ok .boot) events) :
    AllSteps pxiStep (fun _ _ t => Unpanicked BufferLaw t) (.ok .boot) events := by
  have hstep : ∀ s event t, Unpanicked BufferInv s → buffersInScope s event = true →
      pxiStep s event = some t → Unpanicked BufferInv t ∧ Unpanicked BufferLaw t := by
    intro s event t hs hscope ht
    have hinv := pxiStep_bufferInv hs hscope ht
    refine ⟨hinv, ?_⟩
    cases t with
    | error thread => trivial
    | ok t => exact hinv.law
  exact allSteps_of_guarded hstep boot_bufferInv h

/-- The service `pxi:dev` takes four buffers, and gives them back. -/
def devRun : List PxiEvent :=
  [.accept 6, .handler 0, .receiver] ++ round ++ arrives 6 0 0 ++ answered 6

theorem devRun_shared : AllSteps pxiStep (fun _ _ t => Unpanicked BufferLaw t) (.ok .boot) devRun :=
  buffers_shared devRun (guarded_of_guards (by decide +kernel))

/-- The sender waits on a service that needs more buffers than are provided. -/
def waitsShort : Except PxiThread PxiState → Bool
  | .ok t =>
    match t.sender.pc with
    | .waiting idle => idle.any fun i => t.manager.provided < nbStaticBuffersByService i
    | _ => false
  | .error _ => false

/-- Six services have taken 18 buffers when the reply for `pxi:dev` is processed. -/
def crowdedRun : List PxiEvent :=
  [.accept 1, .accept 2, .accept 3, .accept 6, .accept 7, .accept 8, .handler 0, .receiver] ++
    round ++ arrives 6 0 0 ++ arrives 7 0 0 ++ arrives 8 0 0 ++ arrives 1 0 0 ++ arrives 2 0 0 ++
    arrives 3 0 0 ++ answered 6

theorem crowded_wait_is_short : ¬∀ events,
    AllSteps pxiStep (fun _ _ t => Unpanicked BufferLaw t) (.ok .boot) events := by
  intro h
  have hshort : (run pxiStep (.ok .boot) crowdedRun).any waitsShort = true := by decide +kernel
  obtain ⟨t, hrun, hshort⟩ := (Option.any_eq_true _ _).mp hshort
  have hboot : Unpanicked BufferLaw (.ok .boot) := boot_bufferInv.law
  have hlaw : Unpanicked BufferLaw t := (h crowdedRun).run hboot hrun
  cases t with
  | error thread => cases hshort
  | ok t =>
    unfold waitsShort at hshort
    simp only at hshort
    split at hshort
    · obtain ⟨i, hi, hless⟩ := List.any_eq_true.mp hshort
      rename_i idle hpc
      exact absurd (hlaw.enough idle hpc i hi) (not_le.mpr (of_decide_eq_true hless))
    · cases hshort

end Presence3DS.Pxi
