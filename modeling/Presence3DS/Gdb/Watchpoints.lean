import Mathlib.Algebra.BigOperators.Group.Finset.Basic
import Mathlib.Algebra.Order.BigOperators.Group.Finset
import Presence3DS.Lib.Runs

/-! The watchpoints of the debugger, whose two slots in the hardware are shared by the contexts
(`watchpoints.c`, and the part of `GDB_DetachFromProcess` that is about them). -/

namespace Presence3DS.Gdb

inductive WatchpointKind where
  | disabled
  | read
  | write
  | readWrite
deriving DecidableEq

structure Watchpoint where
  address : UInt32
  size : UInt32
  kind : WatchpointKind
  debug : UInt32
deriving DecidableEq

def Watchpoint.zeroed : Watchpoint := ⟨0, 0, .disabled, 0⟩

/-- What a debugger context keeps of its watchpoints, and the handle of its program. -/
structure WatchContext where
  nbWatchpoints : ℕ
  watchpoints : ℕ → UInt32
  debug : UInt32

/-- The manager with its two slots, the contexts, and how many more times the lock has been taken
than released. -/
structure WatchState (ι : Type*) where
  lock : ℕ
  total : ℕ
  slots : ℕ → Watchpoint
  contexts : ι → WatchContext

/-- The kinds that a packet asks for -/
def kinds : Fin 3 → WatchpointKind
  | 0 => .write
  | 1 => .read
  | 2 => .readWrite

/-- The slot that the loops over the slots stop at -/
def firstSlot (slots : ℕ → Watchpoint) (p : Watchpoint → Prop) [DecidablePred p] : ℕ :=
  if p (slots 0) then 0 else if p (slots 1) then 1 else 2

/-- 1 for a watchpoint that is in use -/
def Watchpoint.count (w : Watchpoint) : ℕ := if w.kind = .disabled then 0 else 1

/-- The watchpoint is that of an address for a program. -/
def Watchpoint.IsAt (debug address : UInt32) (w : Watchpoint) : Prop :=
  w.address = address ∧ w.debug = debug

/-- The watchpoint has the address or is that of the program. -/
def Watchpoint.Shares (debug address : UInt32) (w : Watchpoint) : Prop :=
  w.address = address ∨ w.debug = debug

instance (debug address : UInt32) : DecidablePred (Watchpoint.IsAt debug address) :=
  fun _ => inferInstanceAs (Decidable (_ ∧ _))

instance (debug address : UInt32) : DecidablePred (Watchpoint.Shares debug address) :=
  fun _ => inferInstanceAs (Decidable (_ ∨ _))

/-- The counts are words. -/
def decrement (n : ℕ) : ℕ := if n = 0 then 2 ^ 32 - 1 else n - 1

/-- `ctx->watchpoints[ctx->nbWatchpoints++] = address` -/
def WatchContext.remember (ctx : WatchContext) (address : UInt32) : WatchContext :=
  { ctx with
    nbWatchpoints := (ctx.nbWatchpoints + 1) % 2 ^ 32
    watchpoints := Function.update ctx.watchpoints ctx.nbWatchpoints address }

/-- The context forgets an address. -/
def WatchContext.forget (ctx : WatchContext) (address : UInt32) : WatchContext :=
  if ctx.watchpoints 0 = address then
    { ctx with
      nbWatchpoints := decrement ctx.nbWatchpoints
      watchpoints := Function.update (Function.update ctx.watchpoints 0 (ctx.watchpoints 1)) 1 0 }
  else if ctx.watchpoints 1 = address then
    { ctx with
      nbWatchpoints := decrement ctx.nbWatchpoints
      watchpoints := Function.update ctx.watchpoints 1 0 }
  else ctx

section Calls
variable {ι : Type*} [DecidableEq ι]

def WatchState.setContext (s : WatchState ι) (c : ι) (ctx : WatchContext) : WatchState ι :=
  { s with contexts := Function.update s.contexts c ctx }

def gdbGetWatchpointKind (s : WatchState ι) (c : ι) (address : UInt32) : WatchpointKind :=
  let id := firstSlot s.slots (Watchpoint.IsAt (s.contexts c).debug address)
  if id = 2 then .disabled else (s.slots id).kind

/-- `GDB_AddWatchpoint`, where the kernel tells the context ID of the program or not. -/
def gdbAddWatchpoint (known : Bool) (s : WatchState ι) (c : ι) (address size : UInt32)
    (kind : WatchpointKind) : ℤ × WatchState ι :=
  let ctx := s.contexts c
  let locked := { s with lock := s.lock + 1 }
  let offset := address - (address &&& ~~~3)
  if s.total = 2 then (-16, locked)
  else if size = 0 ∨ 4 < offset + size ∨ kind = .disabled then (-22, locked)
  else if gdbGetWatchpointKind s c address ≠ .disabled then (-22, locked)
  else if known then
    let id := if (s.slots 0).kind = .disabled then 0 else 1
    (0, {
      lock := s.lock
      total := (s.total + 1) % 2 ^ 32
      slots := Function.update s.slots id ⟨address, size, kind, ctx.debug⟩
      contexts := Function.update s.contexts c (ctx.remember address) })
  else (-22, s)

def gdbRemoveWatchpoint (s : WatchState ι) (c : ι) (address : UInt32) (kind : WatchpointKind) :
    ℤ × WatchState ι :=
  let id := firstSlot s.slots (Watchpoint.Shares (s.contexts c).debug address)
  if id = 2 ∨ kind ≠ .disabled ∧ (s.slots id).kind ≠ kind then (-22, s)
  else
    (0, {
      lock := s.lock
      total := decrement s.total
      slots := Function.update s.slots id Watchpoint.zeroed
      contexts := Function.update s.contexts c ((s.contexts c).forget address) })

/-- The entry of the context is cleared at the end of a pass. -/
def clearEntry (s : WatchState ι) (c : ι) (i : ℕ) : WatchState ι :=
  let ctx := s.contexts c
  s.setContext c { ctx with watchpoints := Function.update ctx.watchpoints i 0 }

/-- The loop of `GDB_DetachFromProcess` over the watchpoints, which reads their number again with
each pass. -/
def detachLoop (c : ι) : ℕ → ℕ → WatchState ι → WatchState ι
  | 0, _, s => s
  | fuel + 1, i, s =>
    if i < (s.contexts c).nbWatchpoints then
      let removed := (gdbRemoveWatchpoint s c ((s.contexts c).watchpoints i) .disabled).2
      detachLoop c fuel (i + 1) (clearEntry removed c i)
    else s

/-- What `GDB_DetachFromProcess` does with the watchpoints and the handle. -/
def gdbDetachFromProcess (s : WatchState ι) (c : ι) : WatchState ι :=
  let looped := detachLoop c (s.contexts c).nbWatchpoints 0 s
  let ctx := looped.contexts c
  looped.setContext c { ctx with nbWatchpoints := 0, debug := 0 }

/-- The calls of the contexts. A context is attached with a handle that is open nowhere else, and
the kernel knows nothing of the handle 0. -/
inductive WatchCall (ι : Type*) where
  | attach (c : ι) (debug : UInt32)
  | add (c : ι) (address size : UInt32) (kind : Fin 3) (known : Bool)
  | remove (c : ι) (address : UInt32) (kind : Fin 3)
  | detach (c : ι)

def watchStep [Fintype ι] (s : WatchState ι) : WatchCall ι → Option (WatchState ι)
  | .attach c debug =>
    if (s.contexts c).debug = 0 ∧ debug ≠ 0 ∧ ∀ c', (s.contexts c').debug ≠ debug then
      let ctx := s.contexts c
      some (s.setContext c { ctx with debug := debug })
    else none
  | .add c address size kind known =>
    if known = true ∧ (s.contexts c).debug = 0 then none
    else some (gdbAddWatchpoint known s c address size (kinds kind)).2
  | .remove c address kind => some (gdbRemoveWatchpoint s c address (kinds kind)).2
  | .detach c => some (gdbDetachFromProcess s c)

/-- The manager has been reset, and no context is attached. -/
def WatchState.reset : WatchState ι :=
  ⟨0, 0, fun _ => Watchpoint.zeroed, fun _ => ⟨0, fun _ => 0, 0⟩⟩

/-! ## What the calls are to do -/

namespace WatchState

/-- The watchpoint of a context at an address is in a slot. -/
def Has (s : WatchState ι) (c : ι) (address : UInt32) (i : ℕ) : Prop :=
  i < 2 ∧ (s.slots i).kind ≠ .disabled ∧ (s.slots i).IsAt (s.contexts c).debug address

/-- The slot is the first one that has the address or is the context's. -/
def First (s : WatchState ι) (c : ι) (address : UInt32) (i : ℕ) : Prop :=
  (s.slots i).Shares (s.contexts c).debug address ∧
    ∀ j < i, ¬(s.slots j).Shares (s.contexts c).debug address

/-- How many slots are in use -/
def used (s : WatchState ι) : ℕ := (s.slots 0).count + (s.slots 1).count

end WatchState

/-- A removal takes the context's watchpoint of the kind out of its slot, or fails where there is
none. -/
def TakesOut (s : WatchState ι) (c : ι) (address : UInt32) (kind : WatchpointKind)
    (r : ℤ × WatchState ι) : Prop :=
  (∀ i, s.Has c address i → (s.slots i).kind = kind →
    r.1 = 0 ∧ r.2.slots = Function.update s.slots i Watchpoint.zeroed) ∧
  ((∀ i, s.Has c address i → (s.slots i).kind ≠ kind) → r.1 = -22 ∧ r.2 = s)

/-- All of the context's watchpoints are taken out, and no others. -/
def TakesAllOut (s : WatchState ι) (c : ι) (t : WatchState ι) : Prop :=
  (∀ i < 2, t.slots i =
    if (s.slots i).kind ≠ .disabled ∧ (s.slots i).debug = (s.contexts c).debug then
      Watchpoint.zeroed
    else s.slots i) ∧ (t.contexts c).nbWatchpoints = 0

def Removes (s : WatchState ι) : WatchCall ι → WatchState ι → Prop
  | .remove c address kind, t =>
    TakesOut s c address (kinds kind) ((gdbRemoveWatchpoint s c address (kinds kind)).1, t)
  | .detach c, t => TakesAllOut s c t
  | _, _ => True

structure WatchLaw [Fintype ι] (s : WatchState ι) (call : WatchCall ι) (t : WatchState ι) :
    Prop where
  lock : t.lock = s.lock
  used : t.total = t.used
  sum : ∑ c, (t.contexts c).nbWatchpoints = t.total
  removes : Removes s call t

/-- Where a call does so: an addition is not refused before the kernel is asked; the first slot that
has the address or is the context's is the context's at that address; and no context is detached
with two watchpoints. -/
def WatchFits (s : WatchState ι) : WatchCall ι → Prop
  | .attach _ _ => True
  | .add c address size _ _ =>
    s.total ≠ 2 ∧ size ≠ 0 ∧ address - (address &&& ~~~3) + size ≤ 4 ∧
      gdbGetWatchpointKind s c address = .disabled
  | .remove c address kind => ∀ i < 2, (s.slots i).kind = kinds kind →
      (s.First c address i ↔ (s.slots i).IsAt (s.contexts c).debug address)
  | .detach c => (s.contexts c).nbWatchpoints = 0 ∨ (s.contexts c).nbWatchpoints = 1 ∧
      ∀ i < 2, s.First c ((s.contexts c).watchpoints 0) i ↔
        (s.slots i).IsAt (s.contexts c).debug ((s.contexts c).watchpoints 0)

/-! ## The counts and the slots -/

/-- The addresses that the context counts -/
def WatchContext.listed (ctx : WatchContext) : List UInt32 :=
  [ctx.watchpoints 0, ctx.watchpoints 1].take ctx.nbWatchpoints

/-- What ties the slots to the contexts. -/
structure WatchInv [Fintype ι] (s : WatchState ι) : Prop where
  handles : ∀ c c', (s.contexts c).debug = (s.contexts c').debug → (s.contexts c).debug ≠ 0 → c = c'
  empty : ∀ i, (s.slots i).kind = .disabled → s.slots i = Watchpoint.zeroed
  open_ : ∀ i < 2, (s.slots i).kind ≠ .disabled → (s.slots i).debug ≠ 0
  owner : ∀ i < 2, (s.slots i).kind ≠ .disabled →
    ∃ c, (s.contexts c).debug = (s.slots i).debug
  mem_listed : ∀ c a, a ∈ (s.contexts c).listed ↔ ∃ i, s.Has c a i
  nodup : ∀ c, (s.contexts c).listed.Nodup
  inj : ∀ c a i j, s.Has c a i → s.Has c a j → i = j
  used : s.total = s.used
  sum : ∑ c, (s.contexts c).nbWatchpoints = s.total

theorem reset_inv [Fintype ι] : WatchInv (WatchState.reset (ι := ι)) where
  handles _ _ _ hne := absurd rfl hne
  empty _ _ := rfl
  open_ _ _ hne := absurd rfl hne
  owner _ _ hne := absurd rfl hne
  mem_listed c a := iff_of_false List.not_mem_nil fun ⟨_, _, hne, _⟩ => hne rfl
  nodup _ := List.nodup_nil
  inj _ _ _ _ h := absurd rfl h.2.1
  used := rfl
  sum := Finset.sum_const_zero

end Calls

end Presence3DS.Gdb
