import Presence3DS.Lib.BackCopy
import Presence3DS.Lib.Loops
import Presence3DS.Lib.RawMemory

/-! The decompression of the code of a title (`lzss_decompress` of `loader.c`), backwards and in the
memory that the code is loaded to. -/

namespace Presence3DS.Loader
open BackCopy Loops RawMemory

/-! ## The decompression in place -/

/-- `mapped->text_addr` -/
def textAddr : ℕ := 0x10000000

/-- Code in the memory that is mapped for it, where `loadCode` has found that it fits. -/
structure LoadedCode where
  mem : Memory
  size : ℕ
  /-- `mapped->total_size << 12` -/
  mapped : ℕ
  fits : size ≤ mapped
  inside : textAddr + mapped < 2 ^ 32

/-- The variables `v2` to `v5` and `v7` of `lzss_decompress`: the place behind the next byte that is
written, that behind the next one that is read, where the reading ends, the flags, and how many of
them are left. -/
structure LzssState where
  mem : Memory
  v2 : ℕ
  v3 : ℕ
  v4 : ℕ
  v5 : UInt8
  v7 : ℕ

namespace LzssState

/-- A byte is written in front of `v2`. -/
def putByte (b : UInt8) (s : LzssState) : LzssState :=
  let dst := (s.v2 + (2 ^ 32 - 1)) % 2 ^ 32
  { s with mem := Function.update s.mem dst b, v2 := dst }

/-- The turns of the innermost loop, with the addresses that they access. -/
def copyTurns (v15 : ℕ) : ℕ → LzssState → LzssState × List ℕ
  | 0, s => (s, [])
  | n + 1, s =>
    let src := (s.v2 + v15) % 2 ^ 32
    let s := s.putByte (s.mem src)
    let (t, accesses) := copyTurns v15 n s
    (t, src :: s.v2 :: accesses)

/-- Where the bytes of a reference are copied from, seen from `v2`. -/
def sourceOf (v12 v14 : UInt8) : ℕ := (((v14.toNat ||| v12.toNat <<< 8) &&& 0xFFFF0FFF) + 2)

/-- The turns of the innermost loop: `v16` starts at `v12 + 32`, goes down by 16 at the end of each
turn, and is negative after the last one. -/
def turnsOf (v12 : UInt8) : ℕ := (v12.toNat + 32) / 16 + 1

/-- What one flag says to do: a reference, or a byte as it is. -/
def token (s : LzssState) : LzssState × List ℕ :=
  if s.v5 &&& 0x80 ≠ 0 then
    let v12 := s.mem (s.v3 - 1)
    let v14 := s.mem (s.v3 - 2)
    let (t, accesses) := copyTurns (sourceOf v12 v14) (turnsOf v12) { s with v3 := s.v3 - 2 }
    (t, (s.v3 - 1) :: (s.v3 - 2) :: accesses)
  else
    let t := { s with v3 := s.v3 - 1 }.putByte (s.mem (s.v3 - 1))
    (t, [s.v3 - 1, t.v2])

/-- A pass of the outer loop up to the inner one, or a pass of the inner loop, with the addresses
that it accesses. The result is the memory. -/
def passNoted (s : LzssState) : Pass LzssState Memory × List ℕ :=
  if s.v7 = 0 then
    if s.v4 < s.v3 then
      (.next { s with v5 := s.mem (s.v3 - 1), v3 := s.v3 - 1, v7 := 8 }, [s.v3 - 1])
    else (.done s.mem, [])
  else
    let (t, accesses) := s.token
    let t := { t with v5 := t.v5 * 2, v7 := t.v7 - 1 }
    (if t.v3 ≤ t.v4 then .done t.mem else .next t, accesses)

def pass (s : LzssState) : Pass LzssState Memory := s.passNoted.1

end LzssState

namespace LoadedCode
variable (c : LoadedCode)

/-- The address behind the code, which `lzss_decompress` is called with. -/
def endAddr : ℕ := textAddr + c.size

/-- The last word but one of the code, and the last one. -/
def v1 : ℕ := leValue (read c.mem (c.endAddr - 8) 4)
def sizeIncrease : ℕ := leValue (read c.mem (c.endAddr - 4) 4)

/-- The addresses of the two words. -/
def footer : List ℕ := (List.range 8).map (c.endAddr - 8 + ·)

/-- The first state of the outer loop. The code is mapped too high for the differences to be
negative. -/
def start : LzssState where
  mem := c.mem
  v2 := (c.endAddr + c.sizeIncrease) % 2 ^ 32
  v3 := c.endAddr - c.v1 / 2 ^ 24
  v4 := c.endAddr - c.v1 % 2 ^ 24
  v5 := 0
  v7 := 0

end LoadedCode

/-! ## The decompression of a list -/

/-- The bytes that a reference copies are this far apart from their copies, in the output. -/
def lzssDistance (b b' : UInt8) : ℕ := b.toNat % 16 * 256 + b'.toNat + 3

def lzssLength (b : UInt8) : ℕ := b.toNat / 16 + 3

/-- From the flags that are left, the flags, the input with the byte that is read next at its head,
and the output so far. References go into the output, and the input ends with a token. -/
def decodeFrom : ℕ → UInt8 → List UInt8 → List UInt8 → Option (List UInt8)
  | _, _, [], out => some out
  | 0, _, flags :: input, out => if input = [] then none else decodeFrom 8 flags input out
  | left + 1, flags, b :: input, out =>
    if flags &&& 0x80 = 0 then decodeFrom left (flags * 2) input (b :: out)
    else
      match input with
      | [] => none
      | b' :: input =>
        (copyBack (lzssDistance b b' - 1) (lzssLength b) out).bind
          (decodeFrom left (flags * 2) input)

/-- The code that an image stands for, if it is well formed: the words behind the compressed code
give the sizes of the compressed code, with them and what else is behind it, and of what it is
shorter than the code. -/
def lzssDecode (image : List UInt8) : Option (List UInt8) :=
  let word k := leValue ((image.drop (image.length - k)).take 4)
  let header := word 8 / 2 ^ 24
  let compressed := word 8 % 2 ^ 24
  if 8 ≤ image.length ∧ header ≤ compressed ∧ compressed ≤ image.length then
    let before := image.take (image.length - compressed)
    let input := (image.drop (image.length - compressed)).take (compressed - header)
    (decodeFrom 0 0 input.reverse []).bind fun out =>
      if out.length = compressed + word 4 then some (before ++ out) else none
  else none

/-! ## What is asked of the decompression -/

def LoadedCode.Mapped (c : LoadedCode) (a : ℕ) : Prop := textAddr ≤ a ∧ a < textAddr + c.mapped

/-- Every access is to the memory that is mapped, and an image that is well formed turns into the
code that it stands for. -/
structure Decompresses (c : LoadedCode) : Prop where
  footer : ∀ a ∈ c.footer, c.Mapped a
  accesses : ∀ s, Reaches LzssState.pass c.start s → ∀ a ∈ s.passNoted.2, c.Mapped a
  decodes : ∀ code, lzssDecode (read c.mem textAddr c.size) = some code →
    ∃ mem, Returns LzssState.pass c.start mem ∧ read mem textAddr code.length = code

namespace LzssState

/-- The bytes that the next flag makes the code read. -/
def tokenSize (s : LzssState) : ℕ := if s.v5 &&& 0x80 ≠ 0 then 2 else 1

/-- The bytes that it makes the code write. -/
def outSize (s : LzssState) : ℕ := if s.v5 &&& 0x80 ≠ 0 then turnsOf (s.mem (s.v3 - 1)) else 1

/-- How far behind `v2` it makes the code read. -/
def reach (s : LzssState) : ℕ :=
  if s.v5 &&& 0x80 ≠ 0 then sourceOf (s.mem (s.v3 - 1)) (s.mem (s.v3 - 2)) + 1 else 0

/-- The bytes to read are mapped, and so are the place of the bytes to write and what they are
copied from; and what is written is not to be read. -/
def Clear (c : LoadedCode) (s : LzssState) : Prop :=
  if s.v7 = 0 then s.v4 < s.v3 → textAddr < s.v3
  else textAddr + s.tokenSize ≤ s.v3 ∧ textAddr + s.outSize ≤ s.v2 ∧
    s.v2 + s.reach ≤ textAddr + c.mapped ∧
    (s.v3 - s.tokenSize ≤ s.v4 ∨ s.v3 - s.tokenSize ≤ s.v2 - s.outSize)

instance (c : LoadedCode) (s : LzssState) : Decidable (s.Clear c) := by
  unfold Clear
  infer_instance

end LzssState

/-! ## A reference -/

theorem turnsOf_eq (v12 : UInt8) : LzssState.turnsOf v12 = lzssLength v12 := by
  rw [LzssState.turnsOf, lzssLength]
  omega

theorem and_mask {n : ℕ} (h : n < 2 ^ 16) : n &&& 0xFFFF0FFF = n % 2 ^ 12 := by
  apply Nat.eq_of_testBit_eq
  intro i
  rw [Nat.testBit_and, Nat.testBit_mod_two_pow]
  rcases Nat.lt_or_ge i 16 with hi | hi
  · have hmask : ∀ i < 16, (0xFFFF0FFF).testBit i = decide (i < 12) := by decide
    rw [hmask i hi, Bool.and_comm]
  · have hzero : n.testBit i = false :=
      Nat.testBit_lt_two_pow (h.trans_le (Nat.pow_le_pow_right Nat.two_pos hi))
    rw [hzero, Bool.false_and, Bool.and_false]

theorem sourceOf_eq (v12 v14 : UInt8) :
    LzssState.sourceOf v12 v14 = lzssDistance v12 v14 - 1 := by
  have hlt := v14.toNat_lt
  have hlt' := v12.toNat_lt
  have hor : v14.toNat ||| v12.toNat <<< 8 = v12.toNat * 256 + v14.toNat := by
    rw [Nat.or_comm, ← Nat.shiftLeft_add_eq_or_of_lt hlt, Nat.shiftLeft_eq]
  have hmask : (v12.toNat * 256 + v14.toNat) &&& 0xFFFF0FFF =
      v12.toNat % 16 * 256 + v14.toNat := by
    rw [and_mask (by omega)]
    omega
  rw [LzssState.sourceOf, hor, hmask, lzssDistance]
  omega

namespace LzssState
variable {s t : LzssState}

theorem putByte_eq (b : UInt8) (hpos : 0 < s.v2) (hlt : s.v2 < 2 ^ 32) :
    s.putByte b = { s with mem := push b s.v2 s.mem, v2 := s.v2 - 1 } := by
  have hdst : (s.v2 + (2 ^ 32 - 1)) % 2 ^ 32 = s.v2 - 1 := by omega
  rw [putByte, hdst]
  rfl

theorem copyTurns_eq (v15 : ℕ) {n : ℕ} (hn : n ≤ s.v2) (hend : s.v2 + v15 < 2 ^ 32) :
    (copyTurns v15 n s).1 =
        { s with mem := copyDown v15 n s.v2 s.mem, v2 := s.v2 - n } ∧
      ∀ a ∈ (copyTurns v15 n s).2, s.v2 - n ≤ a ∧ a ≤ s.v2 + v15 := by
  induction n generalizing s with
  | zero => exact ⟨rfl, fun a ha => absurd ha List.not_mem_nil⟩
  | succ n ih =>
    have hsrc : (s.v2 + v15) % 2 ^ 32 = s.v2 + v15 := Nat.mod_eq_of_lt hend
    have hput := putByte_eq (s := s) (s.mem (s.v2 + v15)) (by omega) (by omega)
    obtain ⟨hstate, haccesses⟩ := ih (s := s.putByte (s.mem (s.v2 + v15)))
      (by rw [hput]; show n ≤ s.v2 - 1; omega) (by rw [hput]; show s.v2 - 1 + v15 < _; omega)
    rw [copyTurns, hsrc]
    dsimp only
    rw [hput] at hstate haccesses ⊢
    dsimp only at hstate haccesses ⊢
    constructor
    · rw [hstate]
      show LzssState.mk _ (s.v2 - 1 - n) _ _ _ _ = LzssState.mk _ (s.v2 - (n + 1)) _ _ _ _
      rw [Nat.sub_sub, Nat.add_comm 1 n]
      rfl
    · intro a ha
      rcases List.mem_cons.mp ha with rfl | ha
      · omega
      rcases List.mem_cons.mp ha with rfl | ha
      · omega
      · obtain ⟨hlow, hhigh⟩ := haccesses a ha
        omega

/-- What the next flag makes of the memory. -/
def tokenMem (s : LzssState) : Memory :=
  if s.v5 &&& 0x80 ≠ 0 then
    copyDown (sourceOf (s.mem (s.v3 - 1)) (s.mem (s.v3 - 2))) (turnsOf (s.mem (s.v3 - 1))) s.v2 s.mem
  else push (s.mem (s.v3 - 1)) s.v2 s.mem

/-- The cursors that hold of every state. -/
structure Bounded (c : LoadedCode) (s : LzssState) : Prop where
  v2_lt : s.v2 < 2 ^ 32
  v3_le : s.v3 ≤ textAddr + c.mapped

variable {c : LoadedCode}

theorem token_spec (hs : s.Bounded c) (hv7 : s.v7 ≠ 0) (hclear : s.Clear c) :
    s.token.1 = { s with mem := s.tokenMem, v2 := s.v2 - s.outSize, v3 := s.v3 - s.tokenSize } ∧
      ∀ a ∈ s.token.2, c.Mapped a := by
  have hlt := hs.v2_lt
  have hle := hs.v3_le
  have hfits := c.inside
  have htext : textAddr = 0x10000000 := rfl
  rw [Clear, if_neg hv7] at hclear
  obtain ⟨hread, hwrite, hreach, -⟩ := hclear
  unfold token tokenMem
  unfold outSize at hwrite ⊢
  unfold tokenSize at hread ⊢
  unfold reach at hreach
  split_ifs at * with hflag
  · dsimp only
    generalize sourceOf (s.mem (s.v3 - 1)) (s.mem (s.v3 - 2)) = v15 at *
    generalize turnsOf (s.mem (s.v3 - 1)) = n at *
    obtain ⟨hstate, haccesses⟩ := copyTurns_eq (s := { s with v3 := s.v3 - 2 }) v15 (n := n)
      (show n ≤ s.v2 by omega) (show s.v2 + v15 < 2 ^ 32 by omega)
    refine ⟨hstate, fun a ha => ?_⟩
    show _ ≤ a ∧ a < _
    rcases List.mem_cons.mp ha with rfl | ha
    · omega
    rcases List.mem_cons.mp ha with rfl | ha
    · omega
    · obtain ⟨hlow, hhigh⟩ := haccesses a ha
      dsimp only at hlow hhigh
      omega
  · have hput := putByte_eq (s := { s with v3 := s.v3 - 1 }) (s.mem (s.v3 - 1))
      (show 0 < s.v2 by omega) hlt
    dsimp only
    rw [hput]
    refine ⟨rfl, fun a ha => ?_⟩
    show _ ≤ a ∧ a < _
    rcases List.mem_cons.mp ha with rfl | ha
    · omega
    · rw [List.mem_singleton.mp ha]
      dsimp only
      omega

/-- The state after a token. -/
def afterToken (s : LzssState) : LzssState :=
  { s with
    mem := s.tokenMem, v2 := s.v2 - s.outSize, v3 := s.v3 - s.tokenSize, v5 := s.v5 * 2
    v7 := s.v7 - 1 }

theorem pass_token (hs : s.Bounded c) (hv7 : s.v7 ≠ 0) (hclear : s.Clear c) :
    s.pass = if s.v3 - s.tokenSize ≤ s.v4 then .done s.tokenMem else .next s.afterToken := by
  rw [pass, passNoted, if_neg hv7]
  dsimp only
  rw [(token_spec hs hv7 hclear).1]
  rfl

theorem accesses_mapped (hs : s.Bounded c) (hclear : s.Clear c) :
    ∀ a ∈ s.passNoted.2, c.Mapped a := by
  have hle := hs.v3_le
  intro a ha
  by_cases hv7 : s.v7 = 0
  · rw [Clear, if_pos hv7] at hclear
    rw [passNoted, if_pos hv7] at ha
    split_ifs at ha with hmore
    · rw [List.mem_singleton.mp ha]
      have hpos := hclear hmore
      show _ ≤ _ ∧ _ < _
      omega
    · exact absurd ha List.not_mem_nil
  · rw [passNoted, if_neg hv7] at ha
    exact (token_spec hs hv7 hclear).2 a ha

theorem bounded_next (hs : s.Bounded c) (hclear : s.Clear c) (hnext : s.pass = .next t) :
    t.Bounded c ∧ t.v3 < s.v3 := by
  have hlt := hs.v2_lt
  have hle := hs.v3_le
  have htext : textAddr = 0x10000000 := rfl
  by_cases hv7 : s.v7 = 0
  · rw [pass, passNoted, if_pos hv7] at hnext
    split_ifs at hnext with hmore
    cases hnext
    refine ⟨⟨hlt, show s.v3 - 1 ≤ _ by omega⟩, show s.v3 - 1 < s.v3 by omega⟩
  · rw [pass_token hs hv7 hclear] at hnext
    rw [Clear, if_neg hv7] at hclear
    have hsize : 0 < s.tokenSize := by
      unfold tokenSize
      split_ifs <;> decide
    split_ifs at hnext
    cases hnext
    refine ⟨⟨show s.v2 - _ < _ by omega, show s.v3 - _ ≤ _ by omega⟩, show s.v3 - _ < s.v3 by omega⟩

/-! ## The decompression of the list -/

/-- The input stands in front of `v3`, and the output from `v2` to `top`. -/
structure Decoding (top : ℕ) (s : LzssState) (input out : List UInt8) : Prop where
  length_input : s.v3 = s.v4 + input.length
  input : ∀ i, (h : i < input.length) → s.mem (s.v3 - 1 - i) = input[i]
  held : Holds s.mem s.v2 out
  top : s.v2 + out.length = top

variable {top left : ℕ} {input out code : List UInt8}

theorem tokenMem_other (hpos : s.outSize ≤ s.v2) {a : ℕ} (ha : a < s.v2 - s.outSize) :
    s.tokenMem a = s.mem a := by
  unfold tokenMem
  unfold outSize at hpos ha
  split_ifs at *
  · exact copyDown_other (.inl ha) hpos
  · exact push_other (by omega)

theorem token_decode (hs : Decoding top s input out) (hinput : input ≠ [])
    (hpos : s.outSize ≤ s.v2)
    (hdecode : decodeFrom (left + 1) s.v5 input out = some code) :
    s.tokenSize ≤ input.length ∧ ∃ out',
      decodeFrom left (s.v5 * 2) (input.drop s.tokenSize) out' = some code ∧
      Holds s.tokenMem (s.v2 - s.outSize) out' ∧ out'.length = out.length + s.outSize := by
  cases input with
  | nil => exact absurd rfl hinput
  | cons b input =>
    have hb : s.mem (s.v3 - 1) = b := hs.input 0 (Nat.succ_pos _)
    unfold tokenMem tokenSize
    unfold outSize at hpos ⊢
    rw [decodeFrom.eq_def] at hdecode
    dsimp only at hdecode
    by_cases hflag : s.v5 &&& 0x80 = 0
    · rw [if_pos hflag] at hdecode
      rw [if_neg (not_not.mpr hflag)] at hpos
      rw [if_neg (not_not.mpr hflag), if_neg (not_not.mpr hflag), if_neg (not_not.mpr hflag), hb]
      exact ⟨Nat.succ_le_succ (Nat.zero_le _), b :: out, hdecode, holds_push hpos hs.held, rfl⟩
    · rw [if_neg hflag] at hdecode
      rw [if_pos hflag] at hpos
      rw [if_pos hflag, if_pos hflag, if_pos hflag]
      cases input with
      | nil => cases hdecode
      | cons b' input =>
        have hb' : s.mem (s.v3 - 2) = b' := hs.input 1 (Nat.succ_lt_succ (Nat.succ_pos _))
        dsimp only at hdecode
        obtain ⟨out', hcopy, hrest⟩ := Option.bind_eq_some_iff.mp hdecode
        rw [hb] at hpos
        rw [hb, hb', turnsOf_eq, sourceOf_eq]
        rw [turnsOf_eq] at hpos
        exact ⟨Nat.succ_le_succ (Nat.succ_le_succ (Nat.zero_le _)), out', hrest,
          holds_copyDown hpos hs.held hcopy, length_copyBack hcopy⟩

/-- What the run leaves of a memory: the code that ends at `top`, and all that is in front of it. -/
structure Leaves (top : ℕ) (m : Memory) (out code : List UInt8) (m' : Memory) : Prop where
  grows : out.length ≤ code.length
  fits : code.length ≤ top
  held : Holds m' (top - code.length) code
  front : ∀ a < top - code.length, m' a = m a

theorem returns_decode (n : ℕ) : ∀ {s : LzssState} {input out : List UInt8}, input.length < n →
    s.Bounded c → Decoding top s input out → Guarded pass (Clear c) s →
    decodeFrom s.v7 s.v5 input out = some code → (input = [] → s.v7 = 0) →
    ∃ m', Returns pass s m' ∧ Leaves top s.mem out code m' := by
  induction n with
  | zero => exact fun h => absurd h (Nat.not_lt_zero _)
  | succ n ih =>
    intro s input out hn hbounded hs hguarded hdecode hend
    have hclear := hguarded.here
    have htop := hs.top
    have hlength := hs.length_input
    by_cases hinput : input = []
    · have hv7 := hend hinput
      subst hinput
      have hpass : s.pass = .done s.mem := by
        rw [pass, passNoted, if_pos hv7, if_neg (by rw [hlength]; exact Nat.lt_irrefl _)]
      rw [decodeFrom.eq_def] at hdecode
      cases hdecode
      refine ⟨s.mem, .of_done hpass, le_rfl, by omega, ?_, fun _ _ => rfl⟩
      rw [← htop, Nat.add_sub_cancel]
      exact hs.held
    by_cases hv7 : s.v7 = 0
    · -- The next byte has the flags.
      cases input with
      | nil => exact absurd rfl hinput
      | cons b rest =>
        have hb : s.mem (s.v3 - 1) = b := hs.input 0 (Nat.succ_pos _)
        rw [List.length_cons] at hlength hn
        have hpass : s.pass = .next { s with v5 := b, v3 := s.v3 - 1, v7 := 8 } := by
          rw [pass, passNoted, if_pos hv7, if_pos (by omega), hb]
        rw [hv7, decodeFrom.eq_def] at hdecode
        dsimp only at hdecode
        split_ifs at hdecode with hrest
        have hnext : Decoding top { s with v5 := b, v3 := s.v3 - 1, v7 := 8 } rest out := by
          refine ⟨show s.v3 - 1 = s.v4 + rest.length by omega, fun i hi => ?_, hs.held, htop⟩
          show s.mem (s.v3 - 1 - 1 - i) = rest[i]
          rw [Nat.sub_sub _ 1 i, Nat.add_comm 1 i]
          exact hs.input (i + 1) (Nat.succ_lt_succ hi)
        obtain ⟨m', hreturns, hleaves⟩ := ih (Nat.lt_of_succ_lt_succ hn)
          (bounded_next hbounded hclear hpass).1 hnext (hguarded.next hpass) hdecode
          fun h => absurd h hrest
        exact ⟨m', hreturns.of_reaches (.single hpass), hleaves⟩
    · have hcond := hclear
      rw [Clear, if_neg hv7] at hcond
      obtain ⟨hread, hwrite, -, hapart⟩ := hcond
      obtain ⟨left, hleft⟩ := Nat.exists_eq_succ_of_ne_zero hv7
      rw [hleft] at hdecode
      obtain ⟨hsize, out', hrest, hheld, hout'⟩ :=
        token_decode hs hinput (by omega) hdecode
      have hpass := pass_token hbounded hv7 hclear
      have hdrop : (input.drop s.tokenSize).length = input.length - s.tokenSize :=
        List.length_drop
      by_cases hlast : s.v3 - s.tokenSize ≤ s.v4
      · rw [if_pos hlast] at hpass
        have hnone : input.drop s.tokenSize = [] := by
          rw [List.drop_eq_nil_iff]
          omega
        rw [hnone, decodeFrom.eq_def] at hrest
        cases hrest
        have hfirst : top - code.length = s.v2 - s.outSize := by omega
        refine ⟨s.tokenMem, .of_done hpass, by omega, by omega, ?_, fun a ha => ?_⟩
        · rw [hfirst]
          exact hheld
        · exact tokenMem_other (by omega) (by omega)
      · rw [if_neg hlast] at hpass
        -- What the token writes is not in front of it.
        have hnext : Decoding top s.afterToken (input.drop s.tokenSize) out' := by
          refine ⟨?_, fun i hi => ?_, hheld, ?_⟩
          · show s.v3 - s.tokenSize = s.v4 + _
            omega
          · show s.tokenMem (s.v3 - s.tokenSize - 1 - i) = _
            rw [tokenMem_other (by omega) (by omega), List.getElem_drop, ← hs.input]
            congr 1
            omega
          · show s.v2 - s.outSize + out'.length = top
            omega
        have hsize' : 0 < s.tokenSize := by
          unfold tokenSize
          split_ifs <;> decide
        have hleft' : s.afterToken.v7 = left := by
          show s.v7 - 1 = left
          rw [hleft, Nat.succ_sub_one]
        obtain ⟨m', hreturns, hleaves⟩ := ih (by omega) (bounded_next hbounded hclear hpass).1
          hnext (hguarded.next hpass) (by rw [hleft']; exact hrest)
          fun h => by rw [h, List.length_nil] at hdrop; omega
        have hgrows := hleaves.grows
        have hfits := hleaves.fits
        refine ⟨m', hreturns.of_reaches (.single hpass), by omega, hfits, hleaves.held, ?_⟩
        intro a ha
        exact (hleaves.front a ha).trans (tokenMem_other (by omega) (by omega))

end LzssState

/-! ## The images -/

theorem read_of_holds {m : Memory} {a : ℕ} {out : List UInt8} (h : Holds m a out) :
    read m a out.length = out := by
  apply List.ext_getElem
  · exact length_read m a out.length
  · intro i _ hi
    rw [getElem_read]
    exact h i hi

namespace LoadedCode
variable {c : LoadedCode}

theorem bounded_start (c : LoadedCode) : c.start.Bounded c := by
  refine ⟨Nat.mod_lt _ (by decide), ?_⟩
  have hfits := c.fits
  show textAddr + c.size - _ ≤ _
  omega

/-- The image of the code. -/
def image (c : LoadedCode) : List UInt8 := read c.mem textAddr c.size

theorem length_image (c : LoadedCode) : c.image.length = c.size := length_read _ _ _

theorem word_image (c : LoadedCode) {k : ℕ} (hk : k ≤ c.size) (h4 : 4 ≤ k) :
    (c.image.drop (c.image.length - k)).take 4 = read c.mem (c.endAddr - k) 4 := by
  have hend : textAddr + (c.size - k) = c.endAddr - k := by
    show _ = textAddr + c.size - k
    omega
  rw [length_image, image, take_drop_read (by omega), hend]

theorem lzssDecode_image {code : List UInt8} (h : lzssDecode c.image = some code) :
    c.v1 / 2 ^ 24 ≤ c.v1 % 2 ^ 24 ∧ c.v1 % 2 ^ 24 ≤ c.size ∧ ∃ out,
      decodeFrom 0 0 (read c.mem (c.endAddr - c.v1 % 2 ^ 24)
        (c.v1 % 2 ^ 24 - c.v1 / 2 ^ 24)).reverse [] = some out ∧
      out.length = c.v1 % 2 ^ 24 + c.sizeIncrease ∧
      code = read c.mem textAddr (c.size - c.v1 % 2 ^ 24) ++ out := by
  unfold lzssDecode at h
  dsimp only at h
  split_ifs at h with hformed
  obtain ⟨h8, hheader, hsize⟩ := hformed
  obtain ⟨out, hout, hcode⟩ := Option.bind_eq_some_iff.mp h
  split_ifs at hcode with hlength
  cases hcode
  rw [length_image] at h8
  have hv1 : leValue ((c.image.drop (c.image.length - 8)).take 4) = c.v1 :=
    congrArg leValue (word_image c h8 (by decide))
  have hincrease : leValue ((c.image.drop (c.image.length - 4)).take 4) = c.sizeIncrease :=
    congrArg leValue (word_image c (show 4 ≤ c.size by omega) le_rfl)
  rw [hv1, hincrease] at hlength
  rw [hv1] at hheader hsize hout ⊢
  rw [length_image] at hsize hout ⊢
  generalize c.v1 % 2 ^ 24 = compressed at *
  generalize c.v1 / 2 ^ 24 = header at *
  have hstart : textAddr + (c.size - compressed) = c.endAddr - compressed := by
    show _ = textAddr + c.size - compressed
    omega
  refine ⟨hheader, hsize, out, ?_, hlength, congrArg (· ++ out) ?_⟩
  · rw [image, take_drop_read (by omega), hstart] at hout
    exact hout
  · have hfirst : ((read c.mem textAddr c.size).drop 0).take (c.size - compressed) =
        read c.mem (textAddr + 0) (c.size - compressed) := take_drop_read (by omega)
    exact hfirst

theorem decoding_start (hheader : c.v1 / 2 ^ 24 ≤ c.v1 % 2 ^ 24) (hsize : c.v1 % 2 ^ 24 ≤ c.size) :
    LzssState.Decoding c.start.v2 c.start (read c.mem (c.endAddr - c.v1 % 2 ^ 24)
      (c.v1 % 2 ^ 24 - c.v1 / 2 ^ 24)).reverse [] := by
  have hend : c.endAddr = textAddr + c.size := rfl
  have hlength : (read c.mem (c.endAddr - c.v1 % 2 ^ 24)
      (c.v1 % 2 ^ 24 - c.v1 / 2 ^ 24)).reverse.length = c.v1 % 2 ^ 24 - c.v1 / 2 ^ 24 := by
    rw [List.length_reverse, length_read]
  refine ⟨?_, fun i hi => ?_, holds_nil _ _, rfl⟩
  · rw [hlength]
    show c.endAddr - c.v1 / 2 ^ 24 = c.endAddr - c.v1 % 2 ^ 24 + _
    omega
  · rw [hlength] at hi
    rw [List.getElem_reverse, getElem_read, length_read]
    show c.mem (c.endAddr - c.v1 / 2 ^ 24 - 1 - i) = _
    congr 1
    omega

end LoadedCode

open LzssState LoadedCode

/-- Code is decompressed as its image says where no pass of the loops goes wrong: the bytes that it
reads and writes are mapped, and it does not write where bytes are yet to be read. -/
theorem decompresses_of_clear (c : LoadedCode) (h8 : 8 ≤ c.size)
    (hclear : Guarded pass (Clear c) c.start) : Decompresses c where
  footer a ha := by
    obtain ⟨i, hi, rfl⟩ := List.mem_map.mp ha
    have hi := List.mem_range.mp hi
    have hfits := c.fits
    show textAddr ≤ textAddr + c.size - 8 + i ∧ textAddr + c.size - 8 + i < textAddr + c.mapped
    omega
  accesses s hs a ha := by
    have hbounded : s.Bounded c := invariant_of_guarded
      (fun s t hs hc hnext => (bounded_next hs hc hnext).1) (bounded_start c) hclear hs
    exact accesses_mapped hbounded (hclear s hs) a ha
  decodes code hcode := by
    obtain ⟨hheader, hsize, out, hout, hlength, rfl⟩ := lzssDecode_image hcode
    obtain ⟨mem, hreturns, -, hfits, hheld, hfront⟩ := returns_decode _ (Nat.lt_succ_self _)
      (bounded_start c) (decoding_start hheader hsize) hclear hout fun _ => rfl
    refine ⟨mem, hreturns, ?_⟩
    have hend : c.endAddr = textAddr + c.size := rfl
    have hv2 : c.start.v2 = (c.endAddr + c.sizeIncrease) % 2 ^ 32 := rfl
    have hmapped := c.inside
    have hsize' := c.fits
    have htext : textAddr = 0x10000000 := rfl
    -- The increase of the size does not go beyond the last address, or the code had no room.
    have hfirst : c.start.v2 - out.length = c.endAddr - c.v1 % 2 ^ 24 := by
      omega
    rw [hfirst] at hheld hfront
    rw [List.length_append, length_read, read_add]
    refine congrArg₂ (· ++ ·) ?_ ?_
    · exact read_congr fun i hi => hfront _ (by omega)
    · have hstart : textAddr + (c.size - c.v1 % 2 ^ 24) = c.endAddr - c.v1 % 2 ^ 24 := by omega
      rw [hstart]
      exact read_of_holds hheld

/-! ### Two images -/

/-- An image in memory that is mapped for one page. -/
def loadedImage (image : List UInt8) (h : image.length ≤ 0x1000) : LoadedCode where
  mem a := image.getD (a - textAddr) 0
  size := image.length
  mapped := 0x1000
  fits := h
  inside := by decide

/-- Three bytes as they are, and a reference to them for 18 bytes. -/
def threeBytes : LoadedCode :=
  loadedImage [0, 0xF0, 3, 2, 1, 0x10, 14, 0, 0, 8, 7, 0, 0, 0] (by decide)

theorem decompresses_threeBytes : Decompresses threeBytes := by
  have hguards : guards pass (fun s => decide (s.Clear threeBytes)) 6 threeBytes.start = true := by
    decide +kernel
  refine decompresses_of_clear threeBytes (by decide) fun s hs => ?_
  exact of_decide_eq_true (guarded_of_guards hguards s hs)

/-- The reference copies 12 bytes, of which the last one goes where a byte is yet to be read. -/
def overtaking : LoadedCode :=
  loadedImage [8, 0, 7, 6, 5, 4, 0, 0x90, 3, 2, 1, 0x10, 20, 0, 0, 8, 0, 0, 0, 0] (by decide)

theorem overtaking_not_decompressed : ¬Decompresses overtaking := by
  intro h
  have hcode : lzssDecode (read overtaking.mem textAddr overtaking.size) =
      some [8, 7, 6, 5, 4, 3, 2, 1, 3, 2, 1, 3, 2, 1, 3, 2, 1, 3, 2, 1] := by decide +kernel
  have hrun : (match stateAfter pass 10 overtaking.start with
      | some s =>
        match s.pass with
        | .done m => m (textAddr + 1)
        | .next _ => 7
      | none => 7) = 3 := by decide +kernel
  obtain ⟨m, hreturns, hread⟩ := h.decodes _ hcode
  have hseven : m (textAddr + 1) = 7 := (List.cons.inj (List.cons.inj hread).2).1
  cases hstate : stateAfter pass 10 overtaking.start with
  | none =>
    rw [hstate] at hrun
    exact absurd hrun (by decide)
  | some s =>
    rw [hstate] at hrun
    dsimp only at hrun
    cases hpass : s.pass with
    | next t =>
      rw [hpass] at hrun
      change (7 : UInt8) = 3 at hrun
      exact absurd hrun (by decide)
    | done m' =>
      rw [hpass] at hrun
      have hsame : m = m' :=
        hreturns.unique ⟨s, reaches_of_stateAfter hstate, hpass⟩
      rw [hsame] at hseven
      exact absurd (hseven.symm.trans hrun) (by decide)

end Presence3DS.Loader
