import Mathlib.Order.WellFounded
import Presence3DS.Gdb.BinaryEscape
import Presence3DS.Loader.Memsearch

/-! The search of the memory of the target for a pattern (`GDB_SearchMemory` of `mem.c`), which goes
from page to page and reads the next page with each. -/

namespace Presence3DS.Gdb.Packets
open Buffer CString Horspool Loops RawMemory Presence3DS.Loader

def gdbBufLen : ℕ := 1024

/-- The memory of the target, the pages that `GDB_ReadTargetMemoryInPage` can read, and where the
addresses of the kernel begin and lead to. -/
structure TargetMemory where
  byte : Memory
  readable : ℕ → Bool
  ttbcr : ℕ
  svcConvertVAToPA : ℕ → ℕ

namespace TargetMemory

/-- What the buffer holds once the pages have been read. -/
def buf (t : TargetMemory) (addrBase : ℕ) : Memory := fun i => t.byte ((addrBase + i) % 2 ^ 32)

end TargetMemory

/-- The beginning of the page of `curAddr`. -/
def addrBase (curAddr : ℕ) : ℕ := curAddr - curAddr % 0x1000

namespace TargetMemory

/-- The pattern stands at `x`, in pages that can be read. -/
def Stands (t : TargetMemory) (pattern : Bytes) (x : ℕ) : Prop :=
  Occurs t.byte pattern x ∧ ∀ i < pattern.length, t.readable ((x + i) / 0x1000) = true

/-- The places of the pattern that lie within the range and within the address space. -/
def inside (t : TargetMemory) (addr len : ℕ) (pattern : Bytes) : Set ℕ :=
  {x | addr ≤ x ∧ x + pattern.length ≤ addr + len ∧ x + pattern.length ≤ 2 ^ 32 ∧
    t.Stands pattern x}

end TargetMemory

variable {t : TargetMemory} {addr len curAddr x k : ℕ} {pattern : Bytes}

/-! ## One pass -/

namespace TargetMemory

end TargetMemory
open TargetMemory

end Presence3DS.Gdb.Packets
