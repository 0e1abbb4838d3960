import Presence3DS.Kernel.NdmuHook

/-! The part of the yield handshake that both sides act on, and what its moves preserve: the
requests in the kernel's hook, the two bits they share with Rosalina, and how far Rosalina is
with the ASK it has seen. -/

namespace Presence3DS.Rosalina
open Kernel

/-- Where the menu thread is between a snapshot that shows an ASK and its answer. -/
inductive Phase where
  | away
  | saw
  | refuse
  | release
  | releaseAck
deriving DecidableEq

def Phase.engaged : Phase → Bool
  | .away => false
  | _ => true

def Phase.releasing : Phase → Bool
  | .release | .releaseAck => true
  | _ => false

theorem engaged_of_releasing {p : Phase} (h : p.releasing = true) : p.engaged = true := by
  cases p <;> first | rfl | cases h

structure Board where
  ask : Bool
  ack : Bool
  lent : Bool
  hook : Nat → HookPc
  phase : Phase
  asker : Option Nat
  seen : Option Nat
  lentFor : Option Nat
  released : Nat → Bool

namespace Board

structure Inv (b : Board) : Prop where
  unique : ∀ r r', (b.hook r).pending = true → (b.hook r').pending = true → r = r'
  asking : ∀ r, (b.hook r).asking = true → b.asker = some r
  asked : b.ask = true → b.ack = false → ∃ r, b.asker = some r ∧ (b.hook r).asking = true
  engaged : b.phase.engaged = true → ∃ r, b.seen = some r ∧ (b.hook r).waiting = true
  silent : b.phase.engaged = true → b.ack = false
  unreleased : b.phase = .saw ∨ b.phase = .refuse ∨ b.phase = .release →
    ∀ r, b.seen = some r → b.released r = false
  lentSeen : b.phase.releasing = true → b.lentFor = b.seen
  marked : b.phase = .releaseAck → ∀ r, b.seen = some r → b.released r = true
  lentPending : ∀ r, (b.hook r).pending = true → b.lent = true →
    b.phase.releasing = true ∨ b.released r = true
  ackComing : ∀ r, b.released r = true → (b.hook r).pending = true →
    b.phase = .releaseAck ∨ b.ack = true
  ackReleased : ∀ r, b.ack = true → (b.hook r).waiting = true → b.released r = true
  withdrawn : ∀ r, b.hook r = .withdraw → b.released r = false
  faked : ∀ r, b.hook r = .faked true → b.released r = false
  passed : ∀ r, b.hook r = .passed true → b.released r = true
  pendingLent : ∀ r, b.released r = true → (b.hook r).pending = true → b.lentFor = some r
  lentTo : b.lent = true → ∃ r, b.lentFor = some r ∧
    (b.phase.releasing = true ∧ b.seen = some r ∨ b.released r = true)
  fresh : ∀ r, b.hook r = .idle ∨ b.hook r = .clearAck → b.released r = false

def set (b : Board) (r : Nat) (pc : HookPc) : Board := { b with hook := Function.update b.hook r pc }

variable {b : Board}

theorem pending_of_asking {pc : HookPc} (h : pc.asking = true) : pc.pending = true := by
  cases pc <;> first | rfl | cases h

theorem asking_of_waiting {pc : HookPc} (h : pc.waiting = true) : pc.asking = true := by
  cases pc <;> first | rfl | cases h

theorem Inv.seen_pending (hb : b.Inv) (hp : b.phase.engaged = true) :
    ∃ r, b.seen = some r ∧ (b.hook r).waiting = true ∧ ∀ r', (b.hook r').pending = true → r' = r := by
  obtain ⟨r, hseen, hwait⟩ := hb.engaged hp
  refine ⟨r, hseen, hwait, fun r' hr' => ?_⟩
  exact hb.unique r' r hr' (pending_of_asking (asking_of_waiting hwait))

section Hook
variable {r : Nat}

theorem Inv.bypass (hb : b.Inv) (hr : b.hook r = .idle ∨ b.hook r = .setLeave) {pc : HookPc}
    (hpc : pc = .passed false ∨ pc = .faked false ∨ pc = .setLeave) : (b.set r pc).Inv := by
  obtain ⟨_, _, _, _, _, _, _, _, _, _, _, _, _, _, _, _, _⟩ := hb
  constructor <;> simp only [Board.set, Function.update_apply] <;>
    grind -ring -linarith [HookPc.pending, HookPc.asking, HookPc.waiting]

theorem Inv.arrive (hb : b.Inv) (hr : b.hook r = .idle) (hlent : b.lent = false)
    (hnone : ∀ r', (b.hook r').pending = false) : (b.set r .clearAck).Inv := by
  have hfresh := hb.fresh r (.inl hr)
  obtain ⟨_, _, _, _, _, _, _, _, _, _, _, _, _, _, _, _, _⟩ := hb
  constructor <;> simp only [Board.set, Function.update_apply] <;>
    grind -ring -linarith [HookPc.pending, HookPc.asking, HookPc.waiting]

theorem Inv.clearAck (hb : b.Inv) (hr : b.hook r = .clearAck) :
    { b.set r .setAsk with ack := false, asker := some r }.Inv := by
  have hpend : (b.hook r).pending = true := hr ▸ rfl
  have honly := fun r' hr' => hb.unique r' r hr' hpend
  -- no snapshot shows this request yet, and none shows another one
  have haway : b.phase.engaged = false := by
    refine Bool.eq_false_iff.mpr fun hp => ?_
    obtain ⟨r', -, hwait, hr'⟩ := hb.seen_pending hp
    rw [← hr' r hpend, hr] at hwait
    cases hwait
  have hnot := hb.fresh r (.inr hr)
  obtain ⟨_, _, _, _, _, _, _, _, _, _, _, _, _, _, _, _, _⟩ := hb
  constructor <;> simp only [Board.set, Function.update_apply] <;>
    grind -ring -linarith [HookPc.pending, HookPc.waiting, Phase.engaged, Phase.releasing, pending_of_asking,
      asking_of_waiting]

theorem Inv.setAsk (hb : b.Inv) (hr : b.hook r = .setAsk) :
    { b.set r (.waitForAck 0) with ask := true }.Inv := by
  have hasker := hb.asking r (hr ▸ rfl)
  have hrel := hb.ackReleased r
  obtain ⟨_, _, _, _, _, _, _, _, _, _, _, _, _, _, _, _, _⟩ := hb
  constructor <;> simp only [Board.set, Function.update_apply] <;>
    grind -ring -linarith [HookPc.pending, HookPc.asking, HookPc.waiting]

theorem Inv.wait (hb : b.Inv) {i : Nat} (hr : b.hook r = .waitForAck i) (j : Nat) :
    (b.set r (.waitForAck j)).Inv := by
  have hasker := hb.asking r (hr ▸ rfl)
  obtain ⟨_, _, _, _, _, _, _, _, _, _, _, _, _, _, _, _, _⟩ := hb
  constructor <;> simp only [Board.set, Function.update_apply] <;>
    grind -ring -linarith [HookPc.pending, HookPc.asking, HookPc.waiting]

theorem Inv.pass (hb : b.Inv) {i : Nat} (hr : b.hook r = .waitForAck i) (hack : b.ack = true) :
    (b.set r (.passed true)).Inv := by
  have hreleased := hb.ackReleased r hack (hr ▸ rfl)
  have haway : b.phase.engaged = false :=
    Bool.eq_false_iff.mpr fun hp => Bool.false_ne_true ((hb.silent hp).symm.trans hack)
  obtain ⟨_, _, _, _, _, _, _, _, _, _, _, _, _, _, _, _, _⟩ := hb
  constructor <;> simp only [Board.set, Function.update_apply] <;>
    grind -ring -linarith [HookPc.pending, HookPc.asking, HookPc.waiting]

theorem Inv.giveUp (hb : b.Inv) {i : Nat} (hr : b.hook r = .waitForAck i) (hack : b.ack = false)
    (haway : b.phase.engaged = false) : (b.set r .withdraw).Inv := by
  have hasker := hb.asking r (hr ▸ rfl)
  have hpend : (b.hook r).pending = true := hr ▸ rfl
  have hnot : b.released r = false := by
    refine Bool.eq_false_iff.mpr fun hrel => ?_
    rcases hb.ackComing r hrel hpend with hp | ha
    · rw [hp] at haway
      cases haway
    · rw [ha] at hack
      cases hack
  obtain ⟨_, _, _, _, _, _, _, _, _, _, _, _, _, _, _, _, _⟩ := hb
  constructor <;> simp only [Board.set, Function.update_apply] <;>
    grind -ring -linarith [HookPc.pending, HookPc.asking, HookPc.waiting]

theorem Inv.withdraw (hb : b.Inv) (hr : b.hook r = .withdraw) :
    { b.set r (.faked true) with ask := false }.Inv := by
  have hnot := hb.withdrawn r hr
  obtain ⟨_, _, _, _, _, _, _, _, _, _, _, _, _, _, _, _, _⟩ := hb
  constructor <;> simp only [Board.set, Function.update_apply] <;>
    grind -ring -linarith [HookPc.pending, HookPc.asking, HookPc.waiting]

end Hook

section Menu

theorem Inv.look (hb : b.Inv) (haway : b.phase = .away)
    (hask : b.ask = true → b.ack = false → ∀ r, b.asker = some r → b.hook r ≠ .withdraw) :
    { b with
      phase := if b.ask && !b.ack then .saw else .away
      seen := b.asker }.Inv := by
  have hseen : b.ask = true → b.ack = false →
      ∃ r, b.asker = some r ∧ (b.hook r).waiting = true ∧ b.released r = false := by
    intro ha hk
    obtain ⟨r, hr, hasking⟩ := hb.asked ha hk
    have hne := hask ha hk r hr
    refine ⟨r, hr, ?_, ?_⟩
    · cases hpc : b.hook r <;> simp_all [HookPc.asking, HookPc.waiting]
    · have hcoming := hb.ackComing r
      have hpend := pending_of_asking hasking
      grind -ring -linarith
  obtain ⟨_, _, _, _, _, _, _, _, _, _, _, _, _, _, _, _, _⟩ := hb
  constructor <;> grind -ring -linarith [Phase.engaged, Phase.releasing]

theorem Inv.turnAway (hb : b.Inv) (hp : b.phase = .away ∨ b.phase = .saw) :
    { b with phase := .away }.Inv := by
  obtain ⟨_, _, _, _, _, _, _, _, _, _, _, _, _, _, _, _, _⟩ := hb
  constructor <;> grind -ring -linarith [Phase.engaged, Phase.releasing]

theorem Inv.refuse (hb : b.Inv) (hp : b.phase = .saw) : { b with phase := .refuse }.Inv := by
  obtain ⟨_, _, _, _, _, _, _, _, _, _, _, _, _, _, _, _, _⟩ := hb
  constructor <;> grind -ring -linarith [Phase.engaged, Phase.releasing]

theorem Inv.refused (hb : b.Inv) (hp : b.phase = .refuse) :
    { b with phase := .away, ask := false }.Inv := by
  obtain ⟨_, _, _, _, _, _, _, _, _, _, _, _, _, _, _, _, _⟩ := hb
  constructor <;> grind -ring -linarith [Phase.engaged, Phase.releasing]

theorem Inv.release (hb : b.Inv) (hp : b.phase = .saw) :
    { b with phase := .release, lent := true, lentFor := b.seen }.Inv := by
  obtain ⟨r₀, hseen, hwait, honly⟩ := hb.seen_pending (hp ▸ rfl)
  have hnot := hb.unreleased (.inl hp) r₀ hseen
  obtain ⟨_, _, _, _, _, _, _, _, _, _, _, _, _, _, _, _, _⟩ := hb
  constructor <;> grind -ring -linarith [Phase.engaged, Phase.releasing]

theorem Inv.markReleased (hb : b.Inv) (hp : b.phase = .release) :
    { b with phase := .releaseAck, released := fun r => b.seen = some r || b.released r }.Inv := by
  obtain ⟨r₀, hseen, hwait, honly⟩ := hb.seen_pending (hp ▸ rfl)
  obtain ⟨_, _, _, _, _, _, _, _, _, _, _, _, _, _, _, _, _⟩ := hb
  constructor <;> grind -ring -linarith [Phase.engaged, Phase.releasing, HookPc.waiting]

theorem Inv.ack (hb : b.Inv) (hp : b.phase = .releaseAck) :
    { b with phase := .away, ack := true }.Inv := by
  obtain ⟨r₀, hseen, hwait, honly⟩ := hb.seen_pending (hp ▸ rfl)
  have hmarked := hb.marked hp r₀ hseen
  obtain ⟨_, _, _, _, _, _, _, _, _, _, _, _, _, _, _, _, _⟩ := hb
  constructor <;> grind -ring -linarith [Phase.engaged, Phase.releasing, pending_of_asking, asking_of_waiting]

end Menu

theorem Inv.endYield (hb : b.Inv) : { b with lent := false }.Inv := by
  obtain ⟨_, _, _, _, _, _, _, _, _, _, _, _, _, _, _, _, _⟩ := hb
  constructor <;> grind -ring -linarith

theorem Inv.reset (hb : b.Inv) (hdone : ∀ r, b.lentFor = some r → (b.hook r).pending = false) :
    { b with ask := false, ack := false }.Inv := by
  obtain ⟨_, _, _, _, _, _, _, _, _, _, _, _, _, _, _, _, _⟩ := hb
  constructor <;> grind -ring -linarith

end Board

end Presence3DS.Rosalina
