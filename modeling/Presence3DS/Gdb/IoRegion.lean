import Presence3DS.Lib.RawMemory

/-! The accesses of the debugger to the I/O region (`GDB_ReadTargetMemoryInPage` and
`GDB_WriteTargetMemoryInPage` of `mem.c`), which are made in words, halfwords and bytes. -/

namespace Presence3DS.Gdb
open RawMemory

/-- A range within the I/O region -/
structure IoRange where
  addr : ℕ
  len : ℕ
  begins : 0x90000000 ≤ addr
  ends : addr + len ≤ 0x98000000

/-- An access of some bytes, with its places in the target and in the local buffer. -/
structure TargetAccess where
  width : ℕ
  target : ℕ
  buffer : ℕ
deriving DecidableEq

/-- The width that an address is accessed in. -/
def ioWidth (addr : ℕ) : ℕ := if addr % 2 = 1 then 1 else if addr % 4 ≠ 0 then 2 else 4

/-- The loop from an offset on, with a unit of fuel for each pass. The pointer into the buffer
counts elements of the width. -/
def ioLoop (addr len : ℕ) : ℕ → ℕ → List TargetAccess
  | 0, _ => []
  | fuel + 1, off =>
    if off < len then
      ⟨ioWidth (addr + off), addr + off, ioWidth (addr + off) * off⟩ ::
        ioLoop addr len fuel (off + ioWidth (addr + off))
    else []

def ioAccesses (addr len : ℕ) : List TargetAccess := ioLoop addr len len 0

/-- What the buffer holds once the accesses have read the target. -/
def ioRead (accesses : List TargetAccess) (target buffer : Memory) : Memory :=
  accesses.foldl (fun buffer a => write buffer a.buffer (read target a.target a.width)) buffer

def ioWrite (accesses : List TargetAccess) (target buffer : Memory) : Memory :=
  accesses.foldl (fun target a => write target a.target (read buffer a.buffer a.width)) target

namespace IoRange

/-- No access touches a byte outside of the range, in the target or in the buffer. -/
def Within (r : IoRange) : Prop :=
  ∀ a ∈ ioAccesses r.addr r.len, r.addr ≤ a.target ∧ a.target + a.width ≤ r.addr + r.len ∧
    a.buffer + a.width ≤ r.len

def Reads (r : IoRange) : Prop :=
  r.Within ∧ ∀ target buffer : Memory,
    read (ioRead (ioAccesses r.addr r.len) target buffer) 0 r.len = read target r.addr r.len

def Writes (r : IoRange) : Prop :=
  r.Within ∧ ∀ target buffer : Memory,
    ioWrite (ioAccesses r.addr r.len) target buffer = write target r.addr (read buffer 0 r.len)

/-- The range is empty, or a single access takes all of it. -/
def OneAccess (r : IoRange) : Prop := r.len = 0 ∨ r.len = ioWidth r.addr

end IoRange

variable {addr len off fuel : ℕ} {r : IoRange}

theorem ioWidth_cases (addr : ℕ) :
    addr % 2 = 1 ∧ ioWidth addr = 1 ∨ addr % 4 = 2 ∧ ioWidth addr = 2 ∨
      addr % 4 = 0 ∧ ioWidth addr = 4 := by
  unfold ioWidth
  split_ifs with hodd hhalf
  · exact .inl ⟨hodd, rfl⟩
  · exact .inr (.inl ⟨by omega, rfl⟩)
  · exact .inr (.inr ⟨not_not.mp hhalf, rfl⟩)

theorem ioWidth_pos (addr : ℕ) : 0 < ioWidth addr := by
  rcases ioWidth_cases addr with ⟨-, h⟩ | ⟨-, h⟩ | ⟨-, h⟩ <;> omega

theorem even_add_ioWidth (addr : ℕ) : (addr + ioWidth addr) % 2 = 0 := by
  rcases ioWidth_cases addr with ⟨haddr, h⟩ | ⟨haddr, h⟩ | ⟨haddr, h⟩ <;> omega

/-- The last access of the loop reaches the end of the range; it is not a byte, unless it is the
first one. -/
theorem exists_last_access (addr : ℕ) (hfuel : len ≤ fuel + off) (hoff : off < len) :
    ∃ k, off ≤ k ∧ k < len ∧ (k = off ∨ (addr + k) % 2 = 0) ∧ len ≤ k + ioWidth (addr + k) ∧
      ⟨ioWidth (addr + k), addr + k, ioWidth (addr + k) * k⟩ ∈ ioLoop addr len fuel off := by
  induction fuel generalizing off with
  | zero => omega
  | succ fuel ih =>
    have hpos := ioWidth_pos (addr + off)
    rw [ioLoop, if_pos hoff]
    rcases Nat.lt_or_ge (off + ioWidth (addr + off)) len with hnext | hlast
    · obtain ⟨k, hle, hlt, hk, hend, hmem⟩ := ih (by omega) hnext
      refine ⟨k, by omega, hlt, .inr ?_, hend, List.mem_cons_of_mem _ hmem⟩
      rcases hk with rfl | hk
      · rw [← Nat.add_assoc]
        exact even_add_ioWidth (addr + off)
      · exact hk
    · exact ⟨off, le_rfl, hoff, .inl rfl, hlast, List.mem_cons_self⟩

theorem ioAccesses_of_le (hpos : 0 < len) (h : len ≤ ioWidth addr) :
    ioAccesses addr len = [⟨ioWidth addr, addr, 0⟩] := by
  obtain ⟨fuel, rfl⟩ := Nat.exists_eq_succ_of_ne_zero hpos.ne'
  have hrest : ioLoop addr (fuel + 1) fuel (0 + ioWidth (addr + 0)) = [] := by
    cases fuel with
    | zero => rfl
    | succ fuel => exact if_neg (by rw [Nat.zero_add, Nat.add_zero]; exact not_lt.mpr h)
  rw [ioAccesses, ioLoop, if_pos (Nat.succ_pos fuel), hrest, Nat.mul_zero, Nat.add_zero]

namespace IoRange

theorem oneAccess_of_within (h : r.Within) : r.OneAccess := by
  rcases Nat.eq_zero_or_pos r.len with hzero | hpos
  · exact .inl hzero
  obtain ⟨k, -, -, hk, hend, hmem⟩ := exists_last_access r.addr (le_refl (r.len + 0)) hpos
  have hbuffer : ioWidth (r.addr + k) * k + ioWidth (r.addr + k) ≤ r.len := (h _ hmem).2.2
  rcases Nat.eq_zero_or_pos k with rfl | hkpos
  · refine .inr ?_
    rw [Nat.mul_zero, Nat.zero_add] at hbuffer
    rw [Nat.zero_add] at hend
    exact le_antisymm hend hbuffer
  · -- a halfword or a word that is not the first access is put behind the end
    have heven : (r.addr + k) % 2 = 0 := hk.resolve_left hkpos.ne'
    have htwo : 2 ≤ ioWidth (r.addr + k) := by
      rcases ioWidth_cases (r.addr + k) with ⟨hodd, -⟩ | ⟨-, hwidth⟩ | ⟨-, hwidth⟩ <;> omega
    have hscaled := Nat.mul_le_mul_right k htwo
    omega

theorem ioAccesses_of_oneAccess (h : r.OneAccess) : r.len = 0 ∧ ioAccesses r.addr r.len = [] ∨
    r.len = ioWidth r.addr ∧ ioAccesses r.addr r.len = [⟨r.len, r.addr, 0⟩] := by
  rcases h with hzero | hwidth
  · rw [ioAccesses, hzero]
    exact .inl ⟨rfl, rfl⟩
  · refine .inr ⟨hwidth, ?_⟩
    rw [ioAccesses_of_le (hwidth ▸ ioWidth_pos r.addr) hwidth.le, hwidth]

theorem within_of_oneAccess (h : r.OneAccess) : r.Within := by
  rcases ioAccesses_of_oneAccess h with ⟨-, hnone⟩ | ⟨-, hone⟩
  · intro a ha
    rw [hnone] at ha
    exact absurd ha List.not_mem_nil
  · intro a ha
    rw [hone] at ha
    obtain rfl := List.mem_singleton.mp ha
    exact ⟨le_rfl, le_rfl, (Nat.zero_add r.len).le⟩

theorem reads_iff (r : IoRange) : r.Reads ↔ r.OneAccess := by
  refine ⟨fun h => oneAccess_of_within h.1, fun h => ⟨within_of_oneAccess h, ?_⟩⟩
  intro target buffer
  rcases ioAccesses_of_oneAccess h with ⟨hzero, -⟩ | ⟨-, hone⟩
  · rw [hzero]
    rfl
  · rw [hone]
    have hread := read_write buffer 0 (read target r.addr r.len)
    rwa [length_read] at hread

theorem writes_iff (r : IoRange) : r.Writes ↔ r.OneAccess := by
  refine ⟨fun h => oneAccess_of_within h.1, fun h => ⟨within_of_oneAccess h, ?_⟩⟩
  intro target buffer
  rcases ioAccesses_of_oneAccess h with ⟨hzero, hnone⟩ | ⟨-, hone⟩
  · rw [hnone, hzero]
    funext x
    exact (write_outside (Nat.lt_or_ge x r.addr)).symm
  · rw [hone]
    rfl

end IoRange

/-- A range of the I/O region is read and written as it is to be exactly where no second access is
made. -/
theorem ioRegion_iff (r : IoRange) : (r.Reads ↔ r.OneAccess) ∧ (r.Writes ↔ r.OneAccess) :=
  ⟨r.reads_iff, r.writes_iff⟩

/-- The second word of a range is put where the fifth one belongs. -/
theorem second_word_is_misplaced : ¬∀ r : IoRange, r.Reads ∧ r.Writes := by
  intro h
  have hwithin := (h ⟨0x90000000, 8, by decide, by decide⟩).1.1
  have haccess := hwithin ⟨4, 0x90000004, 16⟩ (by decide)
  exact absurd haccess (by decide)

end Presence3DS.Gdb
