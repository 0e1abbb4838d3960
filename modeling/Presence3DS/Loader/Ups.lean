import Mathlib.Tactic.Ring
import Presence3DS.Lib.Vuint
import Presence3DS.Loader.PatchFile

/-! UPS patches (`patcher.c`), and how they are created. -/

namespace Presence3DS.Loader

open Buffer

/-- The reader, with the number of bytes before the footer. -/
structure UpsReader where
  reader : PatchFileReader
  left : ℕ

def upsReadByte (u : UpsReader) : Option (UInt8 × UpsReader) :=
  if u.left = 0 then none
  else if u.reader.pos ≠ u.reader.buf.length then
    match u.reader.buf[u.reader.pos]? with
    | some b => some (b, ⟨{ u.reader with pos := u.reader.pos + 1 }, u.left - 1⟩)
    | none => none
  else
    match patchFileRead 0 1 u.reader with
    | (true, [b], r) => some (b, ⟨r, u.left - 1⟩)
    | _ => none

/-- The passes of the loop, whose result has 64 bits and stays below `2 ^ 36`. -/
def upsReadVuintLoop : ℕ → ℕ → ℕ → UpsReader → Option (UInt32 × UpsReader)
  | 0, _, _, _ => none
  | passes + 1, shift, value, u =>
    match upsReadByte u with
    | none => none
    | some (b, u) =>
      let value := value + (b.toNat &&& 0x7F) <<< shift
      let value := if b.toNat &&& 0x80 = 0 then value + 1 <<< (shift + 7) else value
      if 0xFFFFFFFF < value then none
      else if b.toNat &&& 0x80 ≠ 0 then some (UInt32.ofNat value, u)
      else upsReadVuintLoop passes (shift + 7) value u

/-- The shifts are `0`, `7`, `14`, `21` and `28`. -/
def upsReadVuint (u : UpsReader) : Option (UInt32 × UpsReader) := upsReadVuintLoop 5 0 0 u

/-- The inner loop: the bytes that change, up to a terminator. -/
def upsHunk (xorSize : UInt32) : ℕ → UInt32 → UpsReader → BufferM UInt8 (UInt32 × UpsReader)
  | 0, _, _ => fail
  | fuel + 1, offset, u =>
    match upsReadByte u with
    | none => fail
    | some (mask, u) =>
      if mask = 0 then pure (if offset < xorSize then offset + 1 else offset, u)
      else if xorSize ≤ offset then fail
      else do
        let byte ← read offset.toNat
        write offset.toNat [byte ^^^ mask]
        upsHunk xorSize fuel (offset + 1) u

/-- The outer loop. -/
def upsHunks (xorSize : UInt32) : ℕ → UInt32 → UpsReader → BufferM UInt8 Unit
  | 0, _, _ => fail
  | fuel + 1, offset, u =>
    if u.left = 0 then pure ()
    else
      match upsReadVuint u with
      | none => fail
      | some (delta, u) =>
        if xorSize - offset < delta then fail
        else if offset + delta = xorSize then
          if u.left ≠ 0 then fail else pure ()
        else do
          let (offset, u) ← upsHunk xorSize (u.left + 1) (offset + delta) u
          upsHunks xorSize fuel offset u

def upsMagic : List UInt8 := [0x55, 0x50, 0x53, 0x31]

def upsFooterSize : ℕ := 12

/-- What follows the sizes; the result is the new code size. -/
def upsApply (baseSize patchedSize : UInt32) (u : UpsReader) : BufferM UInt8 UInt32 := do
  let xorSize := if patchedSize < baseSize then baseSize else patchedSize
  if baseSize < patchedSize then
    memset baseSize.toNat 0 (patchedSize - baseSize).toNat
  upsHunks xorSize (u.left + 1) 0 u
  pure patchedSize

def upsPatch (codeSize maxSize : UInt32) (content : List UInt8) : BufferM UInt8 UInt32 :=
  let fileSize := content.length
  if fileSize < 4 + upsFooterSize ∨ 0xFFFFFFFF < fileSize then fail
  else
    let left := fileSize - upsFooterSize - 4
    let (ok, header, r) := patchFileRead 0 4 (PatchFileReader.start content)
    if ok = false ∨ header ≠ upsMagic then fail
    else
      match upsReadVuint ⟨r, left⟩ with
      | none => fail
      | some (baseSize, u) =>
        match upsReadVuint u with
        | none => fail
        | some (patchedSize, u) =>
          if baseSize ≠ codeSize ∨ maxSize < patchedSize then fail
          else upsApply baseSize patchedSize u

/-- What is returned, and the code size. The file is that of the title, where there is one. -/
def applyCodeUpsPatch (codeSize maxSize : UInt32) (file : Option (List UInt8)) :
    BufferM UInt8 (Bool × UInt32) :=
  match file with
  | none => pure (true, codeSize)
  | some content => do
    match ← attempt (upsPatch codeSize maxSize content) with
    | some patchedSize => pure (true, patchedSize)
    | none => pure (false, codeSize)

/-! ## The creation of patches -/

/-- The bytes in which the images differ: after so many equal bytes, or inside of a hunk. The byte that
ends a hunk is equal, or there is none. -/
def upsDiff : Option ℕ → List UInt8 → List UInt8
  | some _, [] => []
  | none, [] => [0]
  | some skip, x :: xs =>
    if x = 0 then upsDiff (some (skip + 1)) xs else Vuint.encode skip ++ x :: upsDiff none xs
  | none, x :: xs => if x = 0 then 0 :: upsDiff (some 0) xs else x :: upsDiff none xs

def xorBytes (a b : List UInt8) : List UInt8 := List.zipWith (· ^^^ ·) a b

/-- The shorter image is continued with zeros. The footer has three checksums. -/
def upsCreate (source target footer : List UInt8) : List UInt8 :=
  let size := max source.length target.length
  upsMagic ++ (Vuint.encode source.length ++ (Vuint.encode target.length ++
    (upsDiff (some 0) (xorBytes (resize 0 source size) (resize 0 target size)) ++ footer)))

/-! ## Bytes before the footer -/

namespace UpsReader

structure Valid (u : UpsReader) : Prop where
  reader : u.reader.Valid
  left_le : u.left ≤ u.reader.remaining.length

def unread (u : UpsReader) : List UInt8 := u.reader.remaining.take u.left

theorem length_unread {u : UpsReader} (hu : u.Valid) : u.unread.length = u.left :=
  List.length_take_of_le hu.left_le

theorem unread_cons {u : UpsReader} {r : PatchFileReader} {b : UInt8} (hu : u.Valid)
    (hleft : u.left ≠ 0) (hr : r.Valid) (hremaining : u.reader.remaining = b :: r.remaining) :
    (UpsReader.mk r (u.left - 1)).Valid ∧
      u.unread = b :: (UpsReader.mk r (u.left - 1)).unread := by
  obtain ⟨left, hsucc⟩ := Nat.exists_eq_succ_of_ne_zero hleft
  have hle := hu.left_le
  rw [hremaining, List.length_cons] at hle
  refine ⟨⟨hr, show u.left - 1 ≤ r.remaining.length by omega⟩, ?_⟩
  rw [unread, hremaining, hsucc]
  rfl

end UpsReader

theorem upsReadByte_left {u u' : UpsReader} {b : UInt8} (h : upsReadByte u = some (b, u')) :
    u.left = u'.left + 1 := by
  rw [upsReadByte] at h
  split_ifs at h with hleft
  · split at h
    · obtain ⟨-, rfl⟩ := Prod.mk.inj (Option.some.inj h)
      exact (Nat.succ_pred_eq_of_ne_zero hleft).symm
    · exact absurd h (by simp)
  · split at h
    · obtain ⟨-, rfl⟩ := Prod.mk.inj (Option.some.inj h)
      exact (Nat.succ_pred_eq_of_ne_zero hleft).symm
    · exact absurd h (by simp)

theorem upsReadByte_cons {u : UpsReader} {b : UInt8} {rest : List UInt8} (hu : u.Valid)
    (h : u.unread = b :: rest) :
    ∃ u', upsReadByte u = some (b, u') ∧ u'.Valid ∧ u'.unread = rest := by
  have hleft : u.left ≠ 0 := by
    rw [← UpsReader.length_unread hu, h]
    exact Nat.succ_ne_zero _
  rw [upsReadByte, if_neg hleft]
  have htaken : ∀ {a : UInt8} {r : PatchFileReader}, r.Valid →
      u.reader.remaining = a :: r.remaining →
      a = b ∧ (UpsReader.mk r (u.left - 1)).Valid ∧ (UpsReader.mk r (u.left - 1)).unread = rest := by
    intro a r hr hremaining
    obtain ⟨hvalid, hunread⟩ := UpsReader.unread_cons hu hleft hr hremaining
    obtain ⟨hhead, htail⟩ := List.cons.inj (h.symm.trans hunread)
    exact ⟨hhead.symm, hvalid, htail.symm⟩
  by_cases hpos : u.reader.pos = u.reader.buf.length
  · rw [if_neg (not_not.mpr hpos)]
    obtain ⟨data, r, hread, hlen, hrem, hr⟩ | ⟨data, r, hread, hlen, hshort⟩ :=
      patchFileRead_cases 0 1 hu.reader
    · obtain ⟨a, rfl⟩ := List.length_eq_one_iff.mp hlen
      obtain ⟨rfl, hvalid, hunread⟩ := htaken hr hrem
      rw [hread]
      exact ⟨_, rfl, hvalid, hunread⟩
    · have := hu.left_le
      omega
  · have hlt := Nat.lt_of_le_of_ne hu.reader.pos_le hpos
    rw [if_pos hpos, List.getElem?_eq_getElem hlt]
    obtain ⟨hhead, hvalid, hunread⟩ := htaken (r := { u.reader with pos := u.reader.pos + 1 })
      ⟨hlt, hu.reader.eof⟩ (by
        rw [PatchFileReader.remaining, List.drop_eq_getElem_cons hlt]
        rfl)
    exact ⟨_, hhead ▸ rfl, hvalid, hunread⟩

/-! ## Numbers -/

theorem and_0x7F (b : UInt8) : b.toNat &&& 0x7F = b.toNat % 128 :=
  Nat.and_two_pow_sub_one_eq_mod b.toNat 7

theorem and_0x80 (b : UInt8) : b.toNat &&& 0x80 = 0 ↔ b.toNat < 128 := by
  have hall : ∀ n < 256, n &&& 0x80 = 0 ↔ n < 128 := by decide +kernel
  exact hall _ b.toNat_lt

theorem upsReadVuintLoop_succ {passes shift value : ℕ} {u u' : UpsReader} {b : UInt8}
    (h : upsReadByte u = some (b, u')) :
    upsReadVuintLoop (passes + 1) shift value u =
      if 128 ≤ b.toNat then
        if 2 ^ 32 ≤ value + (b.toNat - 128) * 2 ^ shift then none
        else some (UInt32.ofNat (value + (b.toNat - 128) * 2 ^ shift), u')
      else if 2 ^ 32 ≤ value + (b.toNat + 128) * 2 ^ shift then none
      else upsReadVuintLoop passes (shift + 7) (value + (b.toNat + 128) * 2 ^ shift) u' := by
  have hb := b.toNat_lt
  rw [upsReadVuintLoop, h]
  dsimp only
  rw [and_0x7F, Nat.shiftLeft_eq, Nat.shiftLeft_eq]
  by_cases hlast : b.toNat < 128
  · rw [if_pos ((and_0x80 b).mpr hlast), if_neg (Nat.not_le.mpr hlast), Nat.mod_eq_of_lt hlast,
      if_neg (not_not.mpr ((and_0x80 b).mpr hlast))]
    have hsum : value + b.toNat * 2 ^ shift + 1 * 2 ^ (shift + 7) =
        value + (b.toNat + 128) * 2 ^ shift := by
      rw [Nat.pow_add]
      ring
    rw [hsum]
    split_ifs <;> first | rfl | omega
  · rw [if_neg fun hzero => hlast ((and_0x80 b).mp hzero), if_pos (Nat.not_lt.mp hlast),
      if_pos fun hzero => hlast ((and_0x80 b).mp hzero)]
    have hmod : b.toNat % 128 = b.toNat - 128 := by omega
    rw [hmod]
    split_ifs <;> first | rfl | omega

theorem upsReadVuintLoop_spec {passes shift value n : ℕ} {u : UpsReader} {rest : List UInt8}
    (hshift : shift + 7 * passes = 35) (hlow : 2 ^ shift ≤ value + 1) (hvalue : value < 2 ^ 32)
    (hu : u.Valid) (h : Vuint.decode u.unread = some (n, rest)) :
    (value + n * 2 ^ shift < 2 ^ 32 → ∃ u',
      upsReadVuintLoop passes shift value u = some (UInt32.ofNat (value + n * 2 ^ shift), u') ∧
        u'.Valid ∧ u'.unread = rest) ∧
    (2 ^ 32 ≤ value + n * 2 ^ shift → upsReadVuintLoop passes shift value u = none) := by
  induction passes generalizing shift value n u with
  | zero =>
    obtain rfl : shift = 35 := hshift
    omega
  | succ passes ih =>
    rcases hunread : u.unread with _ | ⟨b, bytes⟩
    · rw [hunread] at h
      exact absurd h (by simp [Vuint.decode])
    obtain ⟨u', hread, hu', hrest⟩ := upsReadByte_cons hu hunread
    rw [hunread, Vuint.decode] at h
    rw [upsReadVuintLoop_succ hread]
    split_ifs at h with hlast
    · obtain ⟨rfl, rfl⟩ := Prod.mk.inj (Option.some.inj h)
      rw [if_pos hlast]
      refine ⟨fun hlt => ⟨u', if_neg (Nat.not_le.mpr hlt), hu', hrest⟩, fun hle => if_pos hle⟩
    · obtain ⟨⟨m, rest'⟩, hdecode, heq⟩ := Option.map_eq_some_iff.mp h
      obtain ⟨rfl, rfl⟩ := Prod.mk.inj heq
      have hsum : value + (b.toNat + 128 * (m + 1)) * 2 ^ shift =
          value + (b.toNat + 128) * 2 ^ shift + m * 2 ^ (shift + 7) := by
        rw [Nat.pow_add]
        ring
      have hmore : 2 ^ (shift + 7) ≤ value + (b.toNat + 128) * 2 ^ shift + 1 := by
        rw [Nat.pow_add, Nat.add_mul]
        omega
      rw [if_neg hlast, hsum]
      by_cases hover : 2 ^ 32 ≤ value + (b.toNat + 128) * 2 ^ shift
      · rw [if_pos hover]
        exact ⟨fun hlt => absurd hlt (by omega), fun _ => rfl⟩
      · rw [if_neg hover]
        exact ih (by omega) hmore (Nat.not_le.mp hover) hu' (hrest ▸ hdecode)

theorem upsReadVuint_encode {n : ℕ} {u : UpsReader} {rest : List UInt8} (hu : u.Valid)
    (h : u.unread = Vuint.encode n ++ rest) (hn : n < 2 ^ 32) :
    ∃ u', upsReadVuint u = some (UInt32.ofNat n, u') ∧ u'.Valid ∧ u'.unread = rest := by
  have hdecode := Vuint.decode_encode n rest
  rw [← h] at hdecode
  have hspec := @upsReadVuintLoop_spec 5 0 0 n u rest rfl le_rfl (by decide) hu hdecode
  rw [pow_zero, Nat.mul_one, Nat.zero_add] at hspec
  exact hspec.1 hn

theorem upsReadVuint_large {n : ℕ} {u : UpsReader} {rest : List UInt8} (hu : u.Valid)
    (h : u.unread = Vuint.encode n ++ rest) (hn : 2 ^ 32 ≤ n) : upsReadVuint u = none := by
  have hdecode := Vuint.decode_encode n rest
  rw [← h] at hdecode
  have hspec := @upsReadVuintLoop_spec 5 0 0 n u rest rfl le_rfl (by decide) hu hdecode
  rw [pow_zero, Nat.mul_one, Nat.zero_add] at hspec
  exact hspec.2 hn

/-! ## Safety -/

variable {xorSize offset : UInt32} {size : ℕ}

theorem toNat_succ (h : offset < xorSize) : (offset + 1).toNat = offset.toNat + 1 := by
  rw [UInt32.toNat_add, UInt32.toNat_one]
  have := UInt32.lt_iff_toNat_lt.mp h
  have := xorSize.toNat_lt
  omega

theorem succ_le_of_lt (h : offset < xorSize) : offset + 1 ≤ xorSize := by
  rw [UInt32.le_iff_toNat_le, toNat_succ h]
  exact UInt32.lt_iff_toNat_lt.mp h

theorem upsHunk_safe (fuel : ℕ) {u : UpsReader} (hsize : xorSize.toNat ≤ size)
    (hoffset : offset ≤ xorSize) :
    Safe size (upsHunk xorSize fuel offset u) fun res =>
      res.1 ≤ xorSize ∧ res.2.left < u.left := by
  induction fuel generalizing offset u with
  | zero => exact safe_fail
  | succ fuel ih =>
    rw [upsHunk]
    rcases hread : upsReadByte u with _ | ⟨mask, u'⟩
    · exact safe_fail
    have hleft := upsReadByte_left hread
    dsimp only
    by_cases hzero : mask = 0
    · rw [if_pos hzero]
      refine safe_pure ⟨?_, show u'.left < u.left by omega⟩
      split_ifs with hlt
      · exact succ_le_of_lt hlt
      · exact hoffset
    rw [if_neg hzero]
    by_cases hend : xorSize ≤ offset
    · rw [if_pos hend]
      exact safe_fail
    rw [if_neg hend]
    have hlt := UInt32.not_le.mp hend
    have hplace : offset.toNat < size := Nat.lt_of_lt_of_le (UInt32.lt_iff_toNat_lt.mp hlt) hsize
    exact (safe_read hplace).bind fun byte _ => (safe_write hplace).bind fun _ _ =>
      (ih (succ_le_of_lt hlt)).mono fun res hres => ⟨hres.1, by omega⟩

theorem toNat_add_delta {delta : UInt32} (hoffset : offset ≤ xorSize)
    (h : ¬ xorSize - offset < delta) :
    (offset + delta).toNat = offset.toNat + delta.toNat ∧ offset + delta ≤ xorSize := by
  rw [UInt32.not_lt, UInt32.le_iff_toNat_le, UInt32.toNat_sub_of_le _ _ hoffset] at h
  have hle := UInt32.le_iff_toNat_le.mp hoffset
  have hmax := xorSize.toNat_lt
  have hadd : (offset + delta).toNat = offset.toNat + delta.toNat := by
    rw [UInt32.toNat_add]
    omega
  refine ⟨hadd, ?_⟩
  rw [UInt32.le_iff_toNat_le, hadd]
  omega

theorem upsHunks_safe (fuel : ℕ) {u : UpsReader} (hsize : xorSize.toNat ≤ size)
    (hoffset : offset ≤ xorSize) :
    Safe size (upsHunks xorSize fuel offset u) fun _ => True := by
  induction fuel generalizing offset u with
  | zero => exact safe_fail
  | succ fuel ih =>
    rw [upsHunks]
    by_cases hleft : u.left = 0
    · rw [if_pos hleft]
      exact safe_pure trivial
    rw [if_neg hleft]
    rcases upsReadVuint u with _ | ⟨delta, u'⟩
    · exact safe_fail
    dsimp only
    by_cases hdelta : xorSize - offset < delta
    · rw [if_pos hdelta]
      exact safe_fail
    rw [if_neg hdelta]
    obtain ⟨-, hle⟩ := toNat_add_delta hoffset hdelta
    split_ifs
    · exact safe_fail
    · exact safe_pure trivial
    · exact (upsHunk_safe _ hsize hle).bind fun res hres => ih hres.1

theorem upsApply_safe {baseSize patchedSize maxSize : UInt32} (u : UpsReader)
    (hsize : baseSize ≤ maxSize) (hmax : patchedSize ≤ maxSize) :
    Safe maxSize.toNat (upsApply baseSize patchedSize u) fun n => n ≤ maxSize := by
  rw [upsApply]
  have hxor : (if patchedSize < baseSize then baseSize else patchedSize) ≤ maxSize := by
    split_ifs
    · exact hsize
    · exact hmax
  have hxor' := UInt32.le_iff_toNat_le.mp hxor
  generalize (if patchedSize < baseSize then baseSize else patchedSize) = xorSize at hxor' ⊢
  have hrest : Safe maxSize.toNat (upsHunks xorSize (u.left + 1) 0 u >>= fun _ => pure patchedSize)
      fun n => n ≤ maxSize :=
    (upsHunks_safe _ hxor' (UInt32.zero_le)).bind fun _ _ => safe_pure hmax
  split_ifs with hgrow
  · refine (safe_memset ?_).bind fun _ _ => hrest
    rw [UInt32.toNat_sub_of_le _ _ (UInt32.le_of_lt hgrow)]
    have := UInt32.le_iff_toNat_le.mp (UInt32.le_of_lt hgrow)
    have := UInt32.le_iff_toNat_le.mp hmax
    omega
  · exact hrest

theorem upsPatch_safe {codeSize maxSize : UInt32} (content : List UInt8)
    (hsize : codeSize ≤ maxSize) :
    Safe maxSize.toNat (upsPatch codeSize maxSize content) fun n => n ≤ maxSize := by
  rw [upsPatch]
  dsimp only
  split_ifs
  · exact safe_fail
  · exact safe_fail
  rcases upsReadVuint _ with _ | ⟨baseSize, u⟩
  · exact safe_fail
  dsimp only
  rcases upsReadVuint u with _ | ⟨patchedSize, u'⟩
  · exact safe_fail
  dsimp only
  by_cases hsizes : baseSize ≠ codeSize ∨ maxSize < patchedSize
  · rw [if_pos hsizes]
    exact safe_fail
  rw [if_neg hsizes]
  obtain ⟨hbase, hpatched⟩ := not_or.mp hsizes
  obtain rfl := not_not.mp hbase
  exact upsApply_safe u' hsize (UInt32.not_lt.mp hpatched)

/-! ## The round trip -/

section RoundTrip

variable {pre post src diff : List UInt8} {u : UpsReader}

theorem left_lt {b : UInt8} {rest : List UInt8} {u u' : UpsReader} (hu : u.Valid) (hu' : u'.Valid)
    (h : u.unread = b :: rest) (h' : u'.unread = rest) : u.left = u'.left + 1 := by
  rw [← UpsReader.length_unread hu, ← UpsReader.length_unread hu', h, h', List.length_cons]

theorem result_xor {γ : Type} (x mask : UInt8) (rest : List UInt8) {i : ℕ} (hi : i = pre.length)
    (k : BufferM UInt8 γ) :
    result (read i >>= fun byte => write i [byte ^^^ mask] >>= fun _ => k) (pre ++ x :: rest) =
      result k (pre ++ [x ^^^ mask] ++ rest) := by
  subst hi
  have hread : (pre ++ x :: rest)[pre.length]? = some x := by
    rw [List.getElem?_append_right le_rfl, Nat.sub_self]
    rfl
  have hplace : pre.length + [x ^^^ mask].length ≤ (pre ++ x :: rest).length := by
    rw [List.length_append]
    exact Nat.add_le_add_left (Nat.le_add_left _ _) _
  have hsplice : splice (pre ++ x :: rest) pre.length [x ^^^ mask] =
      pre ++ [x ^^^ mask] ++ rest := by
    rw [splice, List.take_left, List.length_singleton, ← List.drop_drop, List.drop_left]
    rfl
  rw [result_bind_ok (result_read hread), result_bind_ok (result_write hplace), hsplice]

theorem upsHunks_diff (hlen : src.length = diff.length) :
    (∀ {fuel skip : ℕ} {offset : UInt32} {u : UpsReader} {pre : List UInt8}, u.Valid →
      u.left < fuel → u.unread = upsDiff (some skip) diff → offset.toNat + skip = pre.length →
      xorSize.toNat = pre.length + diff.length →
      result (upsHunks xorSize fuel offset u) (pre ++ src ++ post) =
        (.ok (), pre ++ xorBytes src diff ++ post)) ∧
    (∀ {fuel fuel' : ℕ} {offset : UInt32} {u : UpsReader} {pre : List UInt8}, u.Valid →
      u.left < fuel → u.left < fuel' + 1 → u.unread = upsDiff none diff →
      offset.toNat = pre.length → xorSize.toNat = pre.length + diff.length →
      result (upsHunk xorSize fuel offset u >>= fun res => upsHunks xorSize fuel' res.1 res.2)
        (pre ++ src ++ post) = (.ok (), pre ++ xorBytes src diff ++ post)) := by
  induction diff generalizing src with
  | nil =>
    obtain rfl := List.length_eq_zero_iff.mp hlen
    refine ⟨fun {fuel skip offset u pre} hu hfuel hunread _ _ => ?_,
      fun {fuel fuel' offset u pre} hu hfuel hfuel' hunread hoffset hsize => ?_⟩
    · obtain ⟨fuel, rfl⟩ := Nat.exists_eq_succ_of_ne_zero (Nat.ne_zero_of_lt hfuel)
      have hleft : u.left = 0 := by
        rw [← UpsReader.length_unread hu, hunread]
        rfl
      rw [upsHunks, if_pos hleft]
      rfl
    · obtain ⟨fuel, rfl⟩ := Nat.exists_eq_succ_of_ne_zero (Nat.ne_zero_of_lt hfuel)
      obtain ⟨u', hread, hu', hrest⟩ := upsReadByte_cons hu hunread
      have hleft : u'.left = 0 := by
        rw [← UpsReader.length_unread hu', hrest]
        rfl
      obtain ⟨fuel', rfl⟩ : ∃ n, fuel' = n + 1 :=
        Nat.exists_eq_succ_of_ne_zero (by have := left_lt hu hu' hunread hrest; omega)
      rw [upsHunk, hread]
      show result (upsHunks xorSize (fuel' + 1) _ u') _ = _
      rw [upsHunks, if_pos hleft]
      rfl
  | cons x diff ih =>
    obtain ⟨s, src, rfl⟩ : ∃ s t, src = s :: t := List.exists_cons_of_length_eq_add_one hlen
    obtain ⟨ihskip, ihhunk⟩ := ih (Nat.succ.inj hlen)
    have hsplit : ∀ pre : List UInt8, pre ++ s :: src ++ post = pre ++ [s] ++ src ++ post :=
      fun pre => by simp
    have hresult : ∀ pre : List UInt8, pre ++ xorBytes (s :: src) (x :: diff) ++ post =
        pre ++ [s ^^^ x] ++ xorBytes src diff ++ post := fun pre => by simp [xorBytes]
    have hinner : ∀ {fuel fuel' : ℕ} {offset : UInt32} {u : UpsReader} {pre : List UInt8}, u.Valid →
        u.left < fuel → u.left < fuel' + 1 → u.unread = upsDiff none (x :: diff) →
        offset.toNat = pre.length → xorSize.toNat = pre.length + (x :: diff).length →
        result (upsHunk xorSize fuel offset u >>= fun res => upsHunks xorSize fuel' res.1 res.2)
          (pre ++ s :: src ++ post) =
            (.ok (), pre ++ xorBytes (s :: src) (x :: diff) ++ post) := by
      intro fuel fuel' offset u pre hu hfuel hfuel' hunread hoffset hsize
      obtain ⟨fuel, rfl⟩ := Nat.exists_eq_succ_of_ne_zero (Nat.ne_zero_of_lt hfuel)
      have hlt : offset < xorSize := by
        rw [UInt32.lt_iff_toNat_lt, hoffset, hsize]
        exact Nat.lt_add_of_pos_right (Nat.succ_pos _)
      have hnext : (offset + 1).toNat = (pre ++ [s ^^^ x]).length := by
        rw [toNat_succ hlt, hoffset, List.length_append, List.length_singleton]
      have hend : xorSize.toNat = (pre ++ [s ^^^ x]).length + diff.length := by
        rw [hsize, List.length_append, List.length_singleton, List.length_cons]
        omega
      rw [hresult, upsHunk]
      rw [upsDiff] at hunread
      by_cases hzero : x = 0
      · rw [if_pos hzero] at hunread
        obtain ⟨u', hread, hu', hrest⟩ := upsReadByte_cons hu hunread
        have hleft := left_lt hu hu' hunread hrest
        subst hzero
        rw [hread]
        dsimp only
        rw [if_pos rfl, if_pos hlt, hsplit]
        rw [UInt8.xor_zero] at hnext hend ⊢
        show result (upsHunks xorSize fuel' (offset + 1) u') _ = _
        exact ihskip hu' (by omega) hrest (by rw [hnext, Nat.add_zero]) hend
      · rw [if_neg hzero] at hunread
        obtain ⟨u', hread, hu', hrest⟩ := upsReadByte_cons hu hunread
        have hleft := left_lt hu hu' hunread hrest
        rw [hread]
        dsimp only
        rw [if_neg hzero, if_neg (UInt32.not_le.mpr hlt), bind_assoc, List.append_assoc,
          List.cons_append]
        simp only [bind_assoc]
        rw [result_xor s x (src ++ post) hoffset, ← List.append_assoc]
        exact ihhunk hu' (by omega) (by omega) hrest hnext hend
    refine ⟨fun {fuel skip offset u pre} hu hfuel hunread hoffset hsize => ?_, hinner⟩
    rw [upsDiff] at hunread
    by_cases hzero : x = 0
    · rw [if_pos hzero] at hunread
      subst hzero
      rw [hsplit, hresult, UInt8.xor_zero]
      refine ihskip hu hfuel hunread ?_ ?_
      · rw [List.length_append, List.length_singleton, ← hoffset, Nat.add_assoc]
      · rw [hsize, List.length_append, List.length_singleton, List.length_cons]
        omega
    · rw [if_neg hzero] at hunread
      have hmax := xorSize.toNat_lt
      rw [List.length_cons] at hsize
      obtain ⟨u', hread, hu', hrest⟩ := upsReadVuint_encode hu hunread (by omega)
      obtain ⟨fuel, rfl⟩ := Nat.exists_eq_succ_of_ne_zero (Nat.ne_zero_of_lt hfuel)
      have hleft : u'.left < u.left := by
        rw [← UpsReader.length_unread hu, ← UpsReader.length_unread hu', hunread, hrest,
          List.length_append]
        exact Nat.lt_add_of_pos_left (List.length_pos_iff.mpr (Vuint.encode_ne_nil skip))
      have hdelta : (UInt32.ofNat skip).toNat = skip :=
        UInt32.toNat_ofNat_of_lt' (show skip < 2 ^ 32 by omega)
      have hoffset' : offset ≤ xorSize := by
        rw [UInt32.le_iff_toNat_le]
        omega
      have hfits : ¬ xorSize - offset < UInt32.ofNat skip := by
        rw [UInt32.lt_iff_toNat_lt, UInt32.toNat_sub_of_le _ _ hoffset', hdelta]
        omega
      obtain ⟨hadd, -⟩ := toNat_add_delta hoffset' hfits
      have hplace : (offset + UInt32.ofNat skip).toNat = pre.length := by rw [hadd, hdelta, hoffset]
      have hbefore : offset + UInt32.ofNat skip ≠ xorSize := fun heq => by
        rw [heq, hsize] at hplace
        omega
      rw [upsHunks, if_neg (Nat.ne_zero_of_lt hleft), hread]
      dsimp only
      rw [if_neg hfits, if_neg hbefore]
      refine hinner hu' (Nat.lt_succ_self _) (by omega) ?_ hplace hsize
      rw [hrest, upsDiff, if_neg hzero]

end RoundTrip

/-! ## Created patches -/

theorem xorBytes_cancel {a b : List UInt8} (h : a.length = b.length) :
    xorBytes a (xorBytes a b) = b := by
  induction a generalizing b with
  | nil => exact (List.length_eq_zero_iff.mp h.symm).symm
  | cons x a ih =>
    obtain ⟨y, b, rfl⟩ : ∃ y t, b = y :: t := List.exists_cons_of_length_eq_add_one h.symm
    show (x ^^^ (x ^^^ y)) :: xorBytes a (xorBytes a b) = _
    rw [ih (Nat.succ.inj h), ← UInt8.xor_assoc, UInt8.xor_self, UInt8.zero_xor]

theorem length_upsDiff_le (diff : List UInt8) :
    (∀ skip, (upsDiff (some skip) diff).length ≤ 2 * diff.length + skip + 1) ∧
      (upsDiff none diff).length ≤ 2 * diff.length + 1 := by
  induction diff with
  | nil => exact ⟨fun _ => Nat.zero_le _, le_rfl⟩
  | cons x diff ih =>
    refine ⟨fun skip => ?_, ?_⟩
    · have hencode := Vuint.length_encode_le skip
      have hmore := ih.1 (skip + 1)
      rw [upsDiff]
      split_ifs
      · rw [List.length_cons]
        omega
      · rw [List.length_append, List.length_cons, List.length_cons]
        omega
    · have hmore := ih.1 0
      rw [upsDiff]
      split_ifs
      · rw [List.length_cons, List.length_cons]
        omega
      · rw [List.length_cons, List.length_cons]
        omega

variable {source target footer : List UInt8}

theorem length_upsCreate_lt (hfooter : footer.length = upsFooterSize)
    (hsource : source.length < 2 ^ 31 - 16) (htarget : target.length < 2 ^ 31 - 16) :
    (upsCreate source target footer).length < 2 ^ 32 := by
  have hencode₁ : (Vuint.encode source.length).length ≤ 6 := Vuint.length_encode_lt (by omega)
  have hencode₂ : (Vuint.encode target.length).length ≤ 6 := Vuint.length_encode_lt (by omega)
  have hdiff := (length_upsDiff_le (xorBytes (resize 0 source (max source.length target.length))
    (resize 0 target (max source.length target.length)))).1 0
  rw [xorBytes, List.length_zipWith, length_resize _ (Nat.le_max_left _ _),
    length_resize _ (Nat.le_max_right _ _), Nat.min_self, ← xorBytes] at hdiff
  rw [upsCreate]
  simp only [List.length_append, hfooter]
  rw [show upsMagic.length = 4 from rfl, upsFooterSize]
  omega

variable {codeSize maxSize : UInt32} {b : List UInt8}

theorem result_extend {γ : Type} {patchedSize : UInt32} (hb : b.length = maxSize.toNat)
    (hcode : codeSize ≤ maxSize) (hpatched : patchedSize ≤ maxSize)
    (himage : b.take codeSize.toNat = source) (k : BufferM UInt8 γ) :
    ∃ post, result (do
        if codeSize < patchedSize then
          memset codeSize.toNat 0 (patchedSize - codeSize).toNat
        k) b = result k (resize 0 source (max source.length patchedSize.toNat) ++ post) := by
  have hle := UInt32.le_iff_toNat_le.mp hcode
  have hle' := UInt32.le_iff_toNat_le.mp hpatched
  have hlen : source.length = codeSize.toNat := by
    rw [← himage, List.length_take_of_le (hb ▸ hle)]
  have hfill := take_fill (b := b) (a := 0) (i := patchedSize.toNat) (hb ▸ hle)
  rw [himage, ← hlen] at hfill
  have hresize : resize 0 source (max source.length patchedSize.toNat) =
      source ++ List.replicate (patchedSize.toNat - source.length) 0 := by
    rw [resize_of_le (Nat.le_max_left _ _)]
    congr 2
    omega
  refine ⟨(splice b source.length
    (List.replicate (patchedSize.toNat - source.length) 0)).drop (max source.length patchedSize.toNat), ?_⟩
  rw [hresize, ← hfill, List.take_append_drop]
  split_ifs with hgrow
  · have hsub : (patchedSize - codeSize).toNat = patchedSize.toNat - source.length := by
      rw [UInt32.toNat_sub_of_le _ _ (UInt32.le_of_lt hgrow), hlen]
    have hplace : source.length +
        (List.replicate (patchedSize.toNat - source.length) (0 : UInt8)).length ≤ b.length := by
      rw [List.length_replicate]
      omega
    rw [hsub, ← hlen]
    exact result_bind_ok (result_write hplace) _
  · have hnone : patchedSize.toNat - source.length = 0 := by
      have := UInt32.le_iff_toNat_le.mp (UInt32.not_lt.mp hgrow)
      omega
    rw [hnone, List.replicate_zero, splice_nil]

theorem upsPatch_eq {content diff : List UInt8} {patchedSize : UInt32} (hfile : content.length < 2 ^ 32)
    (hfooter : footer.length = upsFooterSize) (hpatched : patchedSize ≤ maxSize)
    (hcontent : content = upsMagic ++ (Vuint.encode codeSize.toNat ++
      (Vuint.encode patchedSize.toNat ++ (diff ++ footer)))) :
    ∃ u : UpsReader, u.Valid ∧ u.unread = diff ∧
      upsPatch codeSize maxSize content = upsApply codeSize patchedSize u := by
  obtain ⟨r, hread, hr, hrem⟩ :=
    patchFileRead_append 0 (PatchFileReader.start_valid content) hcontent
  have hlength : content.length = 4 + ((Vuint.encode codeSize.toNat ++
      (Vuint.encode patchedSize.toNat ++ diff)).length + upsFooterSize) := by
    rw [hcontent]
    simp only [List.length_append, hfooter, show upsMagic.length = 4 from rfl, Nat.add_assoc]
  have hcount : content.length - upsFooterSize - 4 = (Vuint.encode codeSize.toNat ++
      (Vuint.encode patchedSize.toNat ++ diff)).length := by omega
  have hlong : ¬ (content.length < 4 + upsFooterSize ∨ 0xFFFFFFFF < content.length) := by omega
  have hunread : (UpsReader.mk r (content.length - upsFooterSize - 4)).unread =
      Vuint.encode codeSize.toNat ++ (Vuint.encode patchedSize.toNat ++ diff) := by
    rw [UpsReader.unread, hrem, hcount, ← List.append_assoc, ← List.append_assoc,
      ← List.append_assoc, List.take_left]
  have hvalid : (UpsReader.mk r (content.length - upsFooterSize - 4)).Valid := by
    refine ⟨hr, ?_⟩
    show content.length - upsFooterSize - 4 ≤ r.remaining.length
    rw [hcount, hrem]
    simp only [List.length_append]
    omega
  obtain ⟨u₁, hread₁, hu₁, hrest₁⟩ := upsReadVuint_encode hvalid hunread codeSize.toNat_lt
  obtain ⟨u₂, hread₂, hu₂, hrest₂⟩ := upsReadVuint_encode hu₁ hrest₁ patchedSize.toNat_lt
  refine ⟨u₂, hu₂, hrest₂, ?_⟩
  rw [upsPatch, show patchFileRead 0 4 _ = _ from hread]
  dsimp only
  rw [if_neg hlong, if_neg (by simp), hread₁, UInt32.ofNat_toNat]
  dsimp only
  rw [hread₂, UInt32.ofNat_toNat]
  exact if_neg (by simpa using hpatched)

theorem upsApply_diff {u : UpsReader} {patchedSize : UInt32} (hb : b.length = maxSize.toNat)
    (hcode : codeSize ≤ maxSize) (hpatched : patchedSize ≤ maxSize)
    (himage : b.take codeSize.toNat = source) (htarget : target.length = patchedSize.toNat)
    (hu : u.Valid) (hunread : u.unread = upsDiff (some 0)
      (xorBytes (resize 0 source (max source.length target.length))
        (resize 0 target (max source.length target.length)))) :
    ∃ b', result (upsApply codeSize patchedSize u) b = (.ok patchedSize, b') ∧
      b'.take target.length = target := by
  have hlen : source.length = codeSize.toNat := by
    rw [← himage, List.length_take_of_le (hb ▸ UInt32.le_iff_toNat_le.mp hcode)]
  have hxor : (if patchedSize < codeSize then codeSize else patchedSize).toNat =
      max source.length target.length := by
    rw [hlen, htarget]
    split_ifs with hlt
    · exact (Nat.max_eq_left (UInt32.le_iff_toNat_le.mp (UInt32.le_of_lt hlt))).symm
    · exact (Nat.max_eq_right (UInt32.le_iff_toNat_le.mp (UInt32.not_lt.mp hlt))).symm
  have hsource := length_resize 0 (Nat.le_max_left source.length target.length)
  have htarget' := length_resize 0 (Nat.le_max_right source.length target.length)
  have hcancel := xorBytes_cancel (hsource.trans htarget'.symm)
  have hdiff : (xorBytes (resize 0 source (max source.length target.length))
      (resize 0 target (max source.length target.length))).length =
        max source.length target.length := by
    rw [xorBytes, List.length_zipWith, hsource, htarget', Nat.min_self]
  generalize xorBytes (resize 0 source (max source.length target.length))
    (resize 0 target (max source.length target.length)) = diff at hunread hdiff hcancel
  rw [upsApply]
  generalize (if patchedSize < codeSize then codeSize else patchedSize) = xorSize at hxor ⊢
  obtain ⟨post, hextend⟩ := result_extend hb hcode hpatched himage
    (upsHunks xorSize (u.left + 1) 0 u >>= fun _ => pure patchedSize)
  have hrun : result (upsHunks xorSize (u.left + 1) 0 u)
      ([] ++ resize 0 source (max source.length target.length) ++ post) =
        (.ok (), [] ++ xorBytes (resize 0 source (max source.length target.length)) diff ++ post) :=
    (upsHunks_diff (hsource.trans hdiff.symm)).1 hu (Nat.lt_succ_self _) hunread rfl
      (by rw [hxor, hdiff]; exact (Nat.zero_add _).symm)
  rw [hcancel, List.nil_append, List.nil_append] at hrun
  rw [← htarget] at hextend
  refine ⟨_, hextend.trans (result_bind_ok hrun _), ?_⟩
  rw [resize_of_le (Nat.le_max_right _ _), List.append_assoc, List.take_left]

/-- A created patch turns the source into the target. Whatever the patch file is, no byte at the
maximum size or beyond of it is read or written to. And the numbers that have 32 bits, and no others,
are read back. -/
theorem applyCodeUpsPatch_roundTrip (maxSize : UInt32) :
    (∀ (codeSize : UInt32) (source target footer b : List UInt8), b.length = maxSize.toNat →
      codeSize ≤ maxSize → b.take codeSize.toNat = source → target.length ≤ maxSize.toNat →
      footer.length = upsFooterSize → (upsCreate source target footer).length < 2 ^ 32 →
      ∃ newSize b', result (applyCodeUpsPatch codeSize maxSize
          (some (upsCreate source target footer))) b = (.ok (true, newSize), b') ∧
        newSize.toNat = target.length ∧ b'.take newSize.toNat = target) ∧
    (∀ (codeSize : UInt32) (content : List UInt8), codeSize ≤ maxSize →
      Safe maxSize.toNat (applyCodeUpsPatch codeSize maxSize (some content)) fun _ => True) ∧
    (∀ (u : UpsReader) (n : ℕ) (rest : List UInt8), u.Valid →
      u.unread = Vuint.encode n ++ rest →
      (n < 2 ^ 32 → ∃ value u', upsReadVuint u = some (value, u') ∧ value.toNat = n ∧ u'.Valid ∧
        u'.unread = rest) ∧ (2 ^ 32 ≤ n → upsReadVuint u = none)) := by
  refine ⟨?_, ?_, ?_⟩
  · rintro codeSize source target footer b hb hcode himage htarget hfooter hfile
    have hlen : source.length = codeSize.toNat := by
      rw [← himage, List.length_take_of_le (hb ▸ UInt32.le_iff_toNat_le.mp hcode)]
    obtain ⟨patchedSize, hsize⟩ : ∃ n : UInt32, n.toNat = target.length :=
      ⟨_, UInt32.toNat_ofNat_of_lt' (Nat.lt_of_le_of_lt htarget maxSize.toNat_lt)⟩
    have hpatched : patchedSize ≤ maxSize := by rwa [UInt32.le_iff_toNat_le, hsize]
    have hcontent : upsCreate source target footer = upsMagic ++ (Vuint.encode codeSize.toNat ++
        (Vuint.encode patchedSize.toNat ++ (upsDiff (some 0)
          (xorBytes (resize 0 source (max source.length target.length))
            (resize 0 target (max source.length target.length))) ++ footer))) := by
      rw [← hlen, hsize]
      rfl
    obtain ⟨u, hu, hunread, hrun⟩ := upsPatch_eq hfile hfooter hpatched hcontent
    obtain ⟨b', happly, htaken⟩ := upsApply_diff hb hcode hpatched himage hsize.symm hu hunread
    refine ⟨patchedSize, b', ?_, hsize, by rw [hsize, htaken]⟩
    rw [applyCodeUpsPatch, result_bind, result_attempt, hrun, happly]
    rfl
  · intro codeSize content hcode b hb
    have hsafe := upsPatch_safe content hcode b hb
    rw [applyCodeUpsPatch, result_bind, result_attempt]
    rcases hresult : result (upsPatch codeSize maxSize content) b with ⟨e | n, b'⟩
    · rw [hresult] at hsafe
      obtain rfl : e = .failed := hsafe.2
      exact ⟨hsafe.1, trivial⟩
    · rw [hresult] at hsafe
      exact ⟨hsafe.1, trivial⟩
  · rintro u n rest hu hunread
    refine ⟨fun hn => ?_, upsReadVuint_large hu hunread⟩
    obtain ⟨u', hread, hu', hrest⟩ := upsReadVuint_encode hu hunread hn
    exact ⟨_, u', hread, UInt32.toNat_ofNat_of_lt' hn, hu', hrest⟩

/-- A target that is longer than the source. -/
theorem applyCodeUpsPatch_roundTrip_longer : ∃ newSize b', result (applyCodeUpsPatch 1 4
    (some (upsCreate [7] [7, 9, 0] (List.replicate 12 0)))) [7, 5, 5, 5] = (.ok (true, newSize), b') ∧
      newSize.toNat = 3 ∧ b'.take newSize.toNat = [7, 9, 0] :=
  (applyCodeUpsPatch_roundTrip 4).1 1 [7] [7, 9, 0] (List.replicate 12 0) [7, 5, 5, 5] rfl
    (by decide) rfl (by decide) rfl
    (length_upsCreate_lt rfl (show 1 < 2 ^ 31 - 16 by decide) (show 3 < 2 ^ 31 - 16 by decide))

end Presence3DS.Loader
