import Presence3DS.Gdb.Packets

/-! The hexadecimal form of the debugger's data: what is encoded is decoded again, and where the
decoder stops (`net.c`). -/

namespace Presence3DS.Gdb.Packets
open Buffer CString

def alphabet : Bytes := chars "0123456789abcdef".toList

def gdbEncodeHex (src : Bytes) : Bytes :=
  src.flatMap fun b : UInt8 =>
    [alphabet.getD ((b &&& 0xf0) >>> 4).toNat 0, alphabet.getD (b &&& 0x0f).toNat 0]

/-! ## Digits -/

/-- The byte that two digits stand for. -/
def hexPair (hi lo : UInt8) : Option UInt8 :=
  match gdbDecodeHexDigit hi, gdbDecodeHexDigit lo with
  | some x, some y => some (UInt8.ofNat (16 * x + y))
  | _, _ => none

theorem hexPair_encoded (b : UInt8) :
    hexPair (alphabet.getD ((b &&& 0xf0) >>> 4).toNat 0) (alphabet.getD (b &&& 0x0f).toNat 0) =
      some b := by
  revert b
  exact forall_byte (by decide +kernel)

theorem digits_of_hexPair {hi lo b : UInt8} (h : hexPair hi lo = some b) :
    ∃ x y, gdbDecodeHexDigit hi = some x ∧ gdbDecodeHexDigit lo = some y ∧
      UInt8.ofNat (16 * x + y) = b := by
  unfold hexPair at h
  cases hx : gdbDecodeHexDigit hi with
  | none => simp [hx] at h
  | some x =>
    cases hy : gdbDecodeHexDigit lo with
    | none => simp [hx, hy] at h
    | some y =>
      rw [hx, hy] at h
      exact ⟨x, y, rfl, rfl, Option.some.inj h⟩

theorem digit_zero : gdbDecodeHexDigit 0 = none := by decide

/-! ## The longest prefix -/

/-- The bytes of the longest prefix of at most `len` pairs of digits. -/
def validPrefix : ℕ → Bytes → Bytes
  | len + 1, hi :: lo :: src =>
    match hexPair hi lo with
    | some b => b :: validPrefix len src
    | none => []
  | _, _ => []

/-- The decoder returns the length of the longest prefix and has decoded it. -/
def DecodesPrefix (lowLast : Bool) (len : ℕ) (src : Bytes) : Prop :=
  (gdbDecodeHex lowLast len src).1 = (validPrefix len src).length ∧
    (gdbDecodeHex lowLast len src).2.take (gdbDecodeHex lowLast len src).1 = validPrefix len src

instance (lowLast : Bool) (len : ℕ) (src : Bytes) : Decidable (DecodesPrefix lowLast len src) :=
  inferInstanceAs (Decidable (_ ∧ _))

/-- The pair behind the longest prefix, if it is looked at, ends the string or has no digit where
the decoder looks last. -/
def StopsAtLastDigit (lowLast : Bool) (len : ℕ) (src : Bytes) : Prop :=
  (validPrefix len src).length < len →
    ∀ hi lo rest, src.drop (2 * (validPrefix len src).length) = hi :: lo :: rest →
      hi = 0 ∨ lo = 0 ∨ gdbDecodeHexDigit (if lowLast then lo else hi) = none

variable {lowLast : Bool} {len : ℕ} {src : Bytes} {hi lo : UInt8}

theorem gdbDecodeHex_pair {b : UInt8} (h : hexPair hi lo = some b) :
    gdbDecodeHex lowLast (len + 1) (hi :: lo :: src) =
      ((gdbDecodeHex lowLast len src).1 + 1, b :: (gdbDecodeHex lowLast len src).2) := by
  obtain ⟨x, y, hx, hy, hbyte⟩ := digits_of_hexPair h
  have hne : ¬(hi = 0 ∨ lo = 0) := by
    rintro (rfl | rfl)
    · exact absurd (digit_zero.symm.trans hx) (Option.some_ne_none x).symm
    · exact absurd (digit_zero.symm.trans hy) (Option.some_ne_none y).symm
  have hlast : (gdbDecodeHexDigit (if lowLast then lo else hi)).isSome = true := by
    cases lowLast with
    | true => exact Option.isSome_iff_exists.mpr ⟨y, hy⟩
    | false => exact Option.isSome_iff_exists.mpr ⟨x, hx⟩
  rw [gdbDecodeHex, if_neg hne]
  dsimp only
  rw [if_pos hlast, hx, hy]
  show (_, UInt8.ofNat (16 * x + y) :: _) = _
  rw [hbyte]

theorem gdbDecodeHex_fst_eq_zero :
    (gdbDecodeHex lowLast (len + 1) (hi :: lo :: src)).1 = 0 ↔
      hi = 0 ∨ lo = 0 ∨ gdbDecodeHexDigit (if lowLast then lo else hi) = none := by
  rw [gdbDecodeHex]
  by_cases hzero : hi = 0 ∨ lo = 0
  · rw [if_pos hzero]
    exact iff_of_true rfl (hzero.elim .inl fun hlo => .inr (.inl hlo))
  rw [if_neg hzero, ← or_assoc, or_iff_right hzero]
  dsimp only
  cases hlast : gdbDecodeHexDigit (if lowLast then lo else hi) with
  | none => exact iff_of_true rfl rfl
  | some x => exact iff_of_false (Nat.succ_ne_zero _) (Option.some_ne_none x)

theorem validPrefix_pair {b : UInt8} (h : hexPair hi lo = some b) :
    validPrefix (len + 1) (hi :: lo :: src) = b :: validPrefix len src := by
  rw [validPrefix, h]

theorem validPrefix_other (h : hexPair hi lo = none) :
    validPrefix (len + 1) (hi :: lo :: src) = [] := by
  rw [validPrefix, h]

theorem stopsAtLastDigit_pair {b : UInt8} (h : hexPair hi lo = some b) :
    StopsAtLastDigit lowLast (len + 1) (hi :: lo :: src) ↔ StopsAtLastDigit lowLast len src := by
  unfold StopsAtLastDigit
  rw [validPrefix_pair h, List.length_cons, Nat.add_lt_add_iff_right, Nat.mul_succ,
    List.drop_succ_cons, List.drop_succ_cons]

theorem decodesPrefix_pair {b : UInt8} (h : hexPair hi lo = some b) :
    DecodesPrefix lowLast (len + 1) (hi :: lo :: src) ↔ DecodesPrefix lowLast len src := by
  unfold DecodesPrefix
  rw [validPrefix_pair h, gdbDecodeHex_pair h, List.length_cons, Nat.add_right_cancel_iff,
    List.take_succ_cons, List.cons_inj_right]

theorem decodesPrefix_iff (lowLast : Bool) (len : ℕ) (src : Bytes) :
    DecodesPrefix lowLast len src ↔ StopsAtLastDigit lowLast len src := by
  induction len generalizing src with
  | zero =>
    have hnone : validPrefix 0 src = [] ∧ gdbDecodeHex lowLast 0 src = (0, []) := by
      rcases src with _ | ⟨hi, _ | ⟨lo, src⟩⟩
      all_goals exact ⟨rfl, rfl⟩
    unfold DecodesPrefix StopsAtLastDigit
    rw [hnone.1, hnone.2]
    exact iff_of_true ⟨rfl, rfl⟩ fun h => absurd h (Nat.lt_irrefl 0)
  | succ len ih =>
    rcases src with _ | ⟨hi, _ | ⟨lo, src⟩⟩
    · exact iff_of_true ⟨rfl, rfl⟩ fun _ _ _ _ h => absurd h (List.cons_ne_nil _ _).symm
    · exact iff_of_true ⟨rfl, rfl⟩ fun _ _ _ _ h => absurd (List.cons.inj h).2 (by simp)
    · cases hpair : hexPair hi lo with
      | some b => rw [decodesPrefix_pair hpair, stopsAtLastDigit_pair hpair, ih]
      | none =>
        have hfirst : DecodesPrefix lowLast (len + 1) (hi :: lo :: src) ↔
            (gdbDecodeHex lowLast (len + 1) (hi :: lo :: src)).1 = 0 := by
          unfold DecodesPrefix
          rw [validPrefix_other hpair, List.length_nil]
          exact and_iff_left_of_imp fun h => by rw [h, List.take_zero]
        rw [hfirst, gdbDecodeHex_fst_eq_zero]
        unfold StopsAtLastDigit
        rw [validPrefix_other hpair]
        constructor
        · rintro h - hi' lo' rest hdrop
          have hcons : hi :: lo :: src = hi' :: lo' :: rest := hdrop
          obtain ⟨rfl, htail⟩ := List.cons.inj hcons
          obtain ⟨rfl, -⟩ := List.cons.inj htail
          exact h
        · exact fun h => h (Nat.succ_pos len) hi lo src rfl

theorem gdbDecodeHex_encodeHex (lowLast : Bool) (src : Bytes) :
    gdbDecodeHex lowLast src.length (gdbEncodeHex src) = (src.length, src) := by
  induction src with
  | nil => rfl
  | cons b src ih =>
    have hcons : gdbEncodeHex (b :: src) = alphabet.getD ((b &&& 0xf0) >>> 4).toNat 0 ::
        alphabet.getD (b &&& 0x0f).toNat 0 :: gdbEncodeHex src := rfl
    rw [hcons, List.length_cons, gdbDecodeHex_pair (hexPair_encoded b), ih]

/-- What is encoded is decoded again, and a string is decoded up to its first bad pair exactly
where the decoder looks at a bad digit last. -/
theorem hexCodec (lowLast : Bool) :
    (∀ src : Bytes, gdbDecodeHex lowLast src.length (gdbEncodeHex src) = (src.length, src)) ∧
    ∀ (len : ℕ) (src : Bytes),
      DecodesPrefix lowLast len src ↔ StopsAtLastDigit lowLast len src :=
  ⟨gdbDecodeHex_encodeHex lowLast, decodesPrefix_iff lowLast⟩

/-- A bad digit is forgotten when a good one is looked at behind it, in either order. -/
theorem bad_digit_is_forgotten :
    ¬DecodesPrefix true 1 [0x67, 0x30] ∧ ¬DecodesPrefix false 1 [0x30, 0x67] := by
  decide

end Presence3DS.Gdb.Packets
