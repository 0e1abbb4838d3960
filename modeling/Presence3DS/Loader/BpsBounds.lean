import Mathlib.Logic.Relation
import Presence3DS.Loader.Bps

/-! When a BPS patch is applied within the bounds. The sum of an offset and a length may wrap, and then
the check passes far outside of the stream. -/

namespace Presence3DS.Loader.Bps

open Buffer

namespace PatchApplier

/-- The sum of the cursor and the length wraps to one that passes the check. -/
def Wraps (data : List UInt8) (target : Stream) (cursor length : UInt32) : Prop :=
  target.offset.toNat + length.toNat ≤ target.data.length ∧
    2 ^ 32 ≤ cursor.toNat + length.toNat ∧ cursor.toNat + length.toNat ≤ 2 ^ 32 + data.length

/-- The command that comes next is a copy, whose cursor wraps. -/
def CopyWraps (s : PatchApplier) : Prop :=
  ∃ data relative p p', s.patch.readNumber = .ok (data, p) ∧ p.readNumber = .ok (relative, p') ∧
    (data &&& 3 = 2 ∧ Wraps s.source.data s.target (moved s.sourceRelativeOffset relative)
        (data >>> 2 + 1) ∨
      data &&& 3 = 3 ∧ Wraps s.target.data s.target (moved s.targetRelativeOffset relative)
        (data >>> 2 + 1))

def Command (commandEnd : UInt32) (s s' : PatchApplier) : Prop :=
  s.patch.offset < commandEnd ∧ s.handleCommand = .ok s'

/-- The patch has its magic, and where its header is accepted its footer, and no copy that is reached
wraps. -/
def Bounded (s : PatchApplier) : Prop :=
  4 ≤ s.patch.data.length ∧ ∀ sourceSize s₁, s.readHeader = .ok (sourceSize, s₁) →
    12 ≤ s.patch.data.length ∧ ∀ targetCrc32 s₂, s₁.readFooter sourceSize = .ok (targetCrc32, s₂) →
      ∀ s₃, Relation.ReflTransGen (Command s₂.commandEnd) s₂ s₃ →
        s₃.patch.offset < s₂.commandEnd → ¬ s₃.CopyWraps

end PatchApplier

theorem bind_ok_iff {α β : Type} {x : Except Stop α} {f : α → Except Stop β} {b : β} :
    (x >>= f) = .ok b ↔ ∃ a, x = .ok a ∧ f a = .ok b := by
  rcases x with e | a
  · exact ⟨fun h => absurd h (by rintro ⟨⟩), fun ⟨_, h, _⟩ => absurd h (by rintro ⟨⟩)⟩
  · exact ⟨fun h => ⟨a, rfl, h⟩, fun ⟨_, h, hf⟩ => Except.ok.inj h ▸ hf⟩

theorem bind_fault_iff {α β : Type} {x : Except Stop α} {f : α → Except Stop β} :
    (x >>= f) = .error .fault ↔ x = .error .fault ∨ ∃ a, x = .ok a ∧ f a = .error .fault := by
  rcases x with e | a
  · refine ⟨fun h => Or.inl ?_, ?_⟩
    · exact congrArg Except.error (Except.error.inj h)
    · rintro (h | ⟨_, h, _⟩)
      · exact congrArg Except.error (Except.error.inj h)
      · exact absurd h (by rintro ⟨⟩)
  · refine ⟨fun h => Or.inr ⟨a, rfl, h⟩, ?_⟩
    rintro (h | ⟨_, h, hf⟩)
    · exact absurd h (by rintro ⟨⟩)
    · exact Except.ok.inj h ▸ hf

/-! ## Streams -/

namespace Stream

variable {s other : Stream} {length : UInt32}

/-- A stream of a size that does not wrap when a length is added, with its offset inside. -/
structure Inside (s : Stream) : Prop where
  length_le : s.data.length ≤ 2 ^ 30
  offset_le : s.offset.toNat ≤ s.data.length

theorem Inside.length_lt (hs : s.Inside) : s.data.length < 2 ^ 32 :=
  Nat.lt_of_le_of_lt hs.length_le (by decide)

theorem readNumberLoop_inside {fuel : ℕ} (data shift : UInt32) (hs : s.Inside)
    (hfuel : s.data.length - s.offset.toNat < fuel) :
    ∃ n s', readNumberLoop fuel data shift s = .ok (n, s') ∧ s'.Inside ∧ s'.data = s.data ∧
      s.offset.toNat ≤ s'.offset.toNat ∧
      (s.offset.toNat < s.data.length → s.offset.toNat < s'.offset.toNat) := by
  induction fuel generalizing s data shift with
  | zero => exact absurd hfuel (Nat.not_lt_zero _)
  | succ fuel ih =>
    have hlength := hs.length_le
    have hoffset := hs.offset_le
    rw [readNumberLoop]
    by_cases hmore : s.offset.toNat + 1 ≤ s.data.length
    · have hread : s.read 1 = .ok (s.rest.take 1, s.seek (s.offset + 1)) :=
        read_ok hs.length_lt hmore
      have hnext : (s.offset + 1).toNat = s.offset.toNat + 1 :=
        toNat_add (b := 1) (show s.offset.toNat + 1 < 2 ^ 32 by omega)
      obtain ⟨x, hx⟩ : ∃ x, s.rest.take 1 = [x] := List.length_eq_one_iff.mp (by
        rw [rest, List.length_take, List.length_drop]
        omega)
      have hs' : (s.seek (s.offset + 1)).Inside :=
        ⟨hlength, show (s.offset + 1).toNat ≤ s.data.length by omega⟩
      rw [hread, hx]
      dsimp only
      split_ifs
      · exact ⟨_, _, rfl, hs', rfl, show s.offset.toNat ≤ (s.offset + 1).toNat by omega,
          fun _ => show s.offset.toNat < (s.offset + 1).toNat by omega⟩
      · have hfuel' : s.data.length - (s.offset + 1).toNat < fuel := by omega
        obtain ⟨n, s', hloop, hinside, hdata, hle, -⟩ :=
          ih (data + (x.toUInt32 &&& (0x7F : UInt32)) * shift + shift <<< 7) (shift <<< 7) hs' hfuel'
        replace hle : (s.offset + 1).toNat ≤ s'.offset.toNat := hle
        exact ⟨n, s', hloop, hinside, hdata, by omega, fun _ => by omega⟩
    · have hread : s.read 1 = .error .failed :=
        read_failed hs.length_lt (show s.offset.toNat + 1 < 2 ^ 32 by omega)
          (show s.data.length < s.offset.toNat + 1 by omega)
      rw [hread]
      exact ⟨_, _, rfl, hs, rfl, le_rfl, fun hlt => absurd hlt (by omega)⟩

theorem readNumber_inside (hs : s.Inside) :
    ∃ n s', s.readNumber = .ok (n, s') ∧ s'.Inside ∧ s'.data = s.data ∧
      s.offset.toNat ≤ s'.offset.toNat ∧
      (s.offset.toNat < s.data.length → s.offset.toNat < s'.offset.toNat) :=
  readNumberLoop_inside 0 1 hs (Nat.lt_succ_of_le (Nat.sub_le _ _))

theorem size_lt_iff (hs : s.data.length < 2 ^ 32) {a b : UInt32} :
    s.size < a + b ↔ s.data.length < (a.toNat + b.toNat) % 2 ^ 32 := by
  rw [UInt32.lt_iff_toNat_lt, size_toNat hs, UInt32.toNat_add]

theorem read_fault_iff (hother : other.data.length ≤ 2 ^ 30) (hlength : length.toNat ≤ 2 ^ 30) :
    other.read length = .error .fault ↔
      2 ^ 32 ≤ other.offset.toNat + length.toNat ∧
        other.offset.toNat + length.toNat ≤ 2 ^ 32 + other.data.length := by
  have hoffset := other.offset.toNat_lt
  have hlt : other.data.length < 2 ^ 32 := Nat.lt_of_le_of_lt hother (by decide)
  rw [read]
  split_ifs with hshort hfits
  · rw [size_lt_iff hlt] at hshort
    refine ⟨fun h => absurd h (by simp), fun h => absurd hshort ?_⟩
    omega
  · exact ⟨fun h => absurd h (by simp), fun h => absurd hfits (by omega)⟩
  · rw [size_lt_iff hlt] at hshort
    refine ⟨fun _ => ?_, fun _ => rfl⟩
    omega

theorem read_eq_ok {bytes : List UInt8} {s' : Stream} (h : other.read length = .ok (bytes, s')) :
    s' = other.seek (other.offset + length) ∧ bytes.length = length.toNat ∧
      other.offset.toNat + length.toNat ≤ other.data.length := by
  rw [read] at h
  split_ifs at h with hshort hfits
  obtain ⟨rfl, rfl⟩ := Prod.mk.inj (Except.ok.inj h)
  exact ⟨rfl, List.length_take_of_le (by rw [List.length_drop]; omega), hfits⟩

theorem copyFrom_fault_iff (hs : s.Inside) (hother : other.data.length ≤ 2 ^ 30)
    (hlength : length.toNat ≤ 2 ^ 30) :
    s.copyFrom other length = .error .fault ↔ s.offset.toNat + length.toNat ≤ s.data.length ∧
      2 ^ 32 ≤ other.offset.toNat + length.toNat ∧
        other.offset.toNat + length.toNat ≤ 2 ^ 32 + other.data.length := by
  have hdata := hs.length_le
  have hoffset := hs.offset_le
  rw [← read_fault_iff hother hlength, copyFrom]
  by_cases hshort : s.size < s.offset + length
  · rw [if_pos hshort]
    rw [size_lt_iff hs.length_lt] at hshort
    exact ⟨fun h => absurd h (by rintro ⟨⟩), fun h => absurd hshort (by omega)⟩
  · rw [if_neg hshort, bind_fault_iff]
    rw [size_lt_iff hs.length_lt] at hshort
    have hfits : s.offset.toNat + length.toNat ≤ s.data.length := by omega
    refine ⟨?_, fun h => Or.inl h.2⟩
    rintro (h | ⟨res, -, h⟩)
    · exact ⟨hfits, h⟩
    · exact absurd (h.symm.trans (if_pos hfits)) (by rintro ⟨⟩)

theorem copyFrom_eq_ok {t other' : Stream} (hs : s.Inside)
    (h : s.copyFrom other length = .ok (t, other')) :
    t.Inside ∧ t.data.length = s.data.length ∧ other' = other.seek (other.offset + length) ∧
      other.offset.toNat + length.toNat ≤ other.data.length := by
  rw [copyFrom] at h
  by_cases hshort : s.size < s.offset + length
  · rw [if_pos hshort] at h
    exact absurd h (by rintro ⟨⟩)
  rw [if_neg hshort] at h
  obtain ⟨⟨bytes, other₁⟩, hread, h⟩ := bind_ok_iff.mp h
  obtain ⟨rfl, hbytes, hother⟩ := read_eq_ok hread
  dsimp only at h
  split_ifs at h with hfits
  obtain ⟨rfl, rfl⟩ := Prod.mk.inj (Except.ok.inj h)
  have hlength : (splice s.data s.offset.toNat bytes).length = s.data.length :=
    length_splice (by rwa [hbytes])
  have hsum : (s.offset + length).toNat = s.offset.toNat + length.toNat :=
    toNat_add (by have := hs.length_le; omega)
  refine ⟨⟨?_, ?_⟩, hlength, rfl, hother⟩
  · rw [hlength]
    exact hs.length_le
  · rw [hlength]
    show (s.offset + length).toNat ≤ _
    omega

end Stream

namespace PatchApplier

variable {s : PatchApplier} {length : UInt32}

/-! ## Commands -/

structure Inside (s : PatchApplier) : Prop where
  source_le : s.source.data.length ≤ 2 ^ 30
  target : s.target.Inside
  patch : s.patch.Inside

theorem length_pos_le (data : UInt32) :
    0 < (data >>> 2 + 1).toNat ∧ (data >>> 2 + 1).toNat ≤ 2 ^ 30 := by
  have hdata := data.toNat_lt
  have hshift : (data >>> 2).toNat = data.toNat / 4 := by
    rw [UInt32.toNat_shiftRight]
    exact Nat.shiftRight_eq_div_pow data.toNat 2
  have hsum : (data >>> 2 + 1).toNat = (data >>> 2).toNat + 1 :=
    Stream.toNat_add (b := 1) (show (data >>> 2).toNat + 1 < 2 ^ 32 by omega)
  omega

/-- What a command leaves: everything is inside, and the patch has moved on, or not at all. -/
structure Leaves (s s' : PatchApplier) : Prop where
  inside : s'.Inside
  patchData : s'.patch.data = s.patch.data
  offset_le : s.patch.offset.toNat ≤ s'.patch.offset.toNat

theorem sourceRead_fault (hs : s.Inside) (hlength : length.toNat ≤ 2 ^ 30) :
    s.sourceRead length ≠ .error .fault := by
  have htarget := hs.target.offset_le
  have htarget' := hs.target.length_le
  intro h
  obtain h | ⟨_, _, h⟩ := bind_fault_iff.mp h
  · obtain ⟨-, hwrap, -⟩ := (Stream.copyFrom_fault_iff hs.target
      (show (s.source.seek s.target.offset).data.length ≤ 2 ^ 30 from hs.source_le) hlength).mp h
    replace hwrap : 2 ^ 32 ≤ s.target.offset.toNat + length.toNat := hwrap
    omega
  · exact absurd h (by rintro ⟨⟩)

theorem sourceRead_leaves {s' : PatchApplier} (hs : s.Inside) (h : s.sourceRead length = .ok s') :
    s.Leaves s' := by
  obtain ⟨⟨target, source⟩, hcopy, h⟩ := bind_ok_iff.mp h
  obtain ⟨htarget, -, rfl, -⟩ := Stream.copyFrom_eq_ok hs.target hcopy
  obtain rfl := Except.ok.inj h
  exact ⟨⟨hs.source_le, htarget, hs.patch⟩, rfl, le_rfl⟩

theorem targetRead_fault (hs : s.Inside) (hlength : length.toNat ≤ 2 ^ 30) :
    s.targetRead length ≠ .error .fault := by
  have hoffset := hs.patch.offset_le
  have hpatch := hs.patch.length_le
  intro h
  obtain h | ⟨_, _, h⟩ := bind_fault_iff.mp h
  · obtain ⟨-, hwrap, -⟩ := (Stream.copyFrom_fault_iff hs.target hpatch hlength).mp h
    omega
  · exact absurd h (by rintro ⟨⟩)

theorem targetRead_leaves {s' : PatchApplier} (hs : s.Inside) (h : s.targetRead length = .ok s') :
    s.Leaves s' := by
  obtain ⟨⟨target, patch⟩, hcopy, h⟩ := bind_ok_iff.mp h
  obtain ⟨htarget, -, rfl, hle⟩ := Stream.copyFrom_eq_ok hs.target hcopy
  obtain rfl := Except.ok.inj h
  have hpatch := hs.patch.length_le
  have hsum : (s.patch.offset + length).toNat = s.patch.offset.toNat + length.toNat :=
    Stream.toNat_add (by omega)
  exact ⟨⟨hs.source_le, htarget, hpatch, show (s.patch.offset + length).toNat ≤ s.patch.data.length by omega⟩, rfl,
    show s.patch.offset.toNat ≤ (s.patch.offset + length).toNat by omega⟩

theorem sourceCopy_fault_iff (hs : s.Inside) (hlength : length.toNat ≤ 2 ^ 30) {data : UInt32}
    {p : Stream} (hread : s.patch.readNumber = .ok (data, p)) :
    s.sourceCopy length = .error .fault ↔
      Wraps s.source.data s.target (moved s.sourceRelativeOffset data) length := by
  have hcopy := Stream.copyFrom_fault_iff hs.target
    (show (s.source.seek (moved s.sourceRelativeOffset data)).data.length ≤ 2 ^ 30 from
      hs.source_le) hlength
  rw [sourceCopy, hread]
  refine (bind_fault_iff (x := s.target.copyFrom _ length)).trans ⟨?_, fun h => Or.inl ?_⟩
  · rintro (h | ⟨_, _, h⟩)
    · exact hcopy.mp h
    · exact absurd h (by rintro ⟨⟩)
  · exact hcopy.mpr h

theorem sourceCopy_leaves {s' : PatchApplier} (hs : s.Inside) (h : s.sourceCopy length = .ok s') :
    s.Leaves s' := by
  obtain ⟨data, p, hread, hp, hdata, hle, -⟩ := Stream.readNumber_inside hs.patch
  rw [sourceCopy, hread] at h
  obtain ⟨⟨target, source⟩, hcopy, h⟩ :=
    (bind_ok_iff (x := s.target.copyFrom _ length)).mp h
  obtain ⟨htarget, -, rfl, -⟩ := Stream.copyFrom_eq_ok hs.target hcopy
  obtain rfl := Except.ok.inj h
  exact ⟨⟨hs.source_le, htarget, hp⟩, hdata, hle⟩

theorem copyBytes_inside {count : ℕ} {dest start : UInt32} {data : List UInt8}
    (hdata : data.length < 2 ^ 32) (hdest : dest.toNat + count ≤ data.length)
    (hstart : start.toNat + count ≤ data.length) :
    ∃ data', copyBytes count dest start data = .ok data' ∧ data'.length = data.length := by
  induction count generalizing dest start data with
  | zero => exact ⟨data, rfl, rfl⟩
  | succ count ih =>
    have hnext : ∀ a : UInt32, a.toNat + (count + 1) ≤ data.length →
        (a + 1).toNat = a.toNat + 1 := fun a ha =>
      Stream.toNat_add (b := 1) (show a.toNat + 1 < 2 ^ 32 by omega)
    have hdest' := hnext dest hdest
    have hstart' := hnext start hstart
    obtain ⟨byte, hbyte⟩ : ∃ byte, data[start.toNat]? = some byte :=
      ⟨_, List.getElem?_eq_getElem (by omega)⟩
    have hset : (data.set dest.toNat byte).length = data.length := List.length_set
    obtain ⟨data', hcopy, hlength⟩ := @ih (dest + 1) (start + 1) (data.set dest.toNat byte)
      (by rw [hset]; exact hdata) (by rw [hset]; omega) (by rw [hset]; omega)
    rw [copyBytes, hbyte]
    dsimp only
    rw [if_pos (by omega)]
    exact ⟨data', hcopy, hlength.trans hset⟩

theorem copyBytes_outside {count : ℕ} {dest start : UInt32} {data : List UInt8}
    (hcount : 0 < count) (hstart : data.length ≤ start.toNat) :
    copyBytes count dest start data = .error .fault := by
  obtain ⟨count, rfl⟩ := Nat.exists_eq_succ_of_ne_zero hcount.ne'
  rw [copyBytes, List.getElem?_eq_none hstart]

theorem targetCopy_eq {data : UInt32} {p : Stream} (hread : s.patch.readNumber = .ok (data, p)) :
    s.targetCopy length =
      if s.target.size < s.target.offset + length then .error .failed
      else if s.target.size < moved s.targetRelativeOffset data + length then .error .failed
      else copyBytes length.toNat s.target.offset (moved s.targetRelativeOffset data)
          s.target.data >>= fun target =>
        .ok { s with
          target := ⟨target, s.target.offset + length⟩
          patch := p
          targetRelativeOffset := moved s.targetRelativeOffset data + length } := by
  rw [targetCopy, hread]
  rfl

theorem targetCopy_fault_iff (hs : s.Inside) (hpos : 0 < length.toNat)
    (hlength : length.toNat ≤ 2 ^ 30) {data : UInt32} {p : Stream}
    (hread : s.patch.readNumber = .ok (data, p)) :
    s.targetCopy length = .error .fault ↔
      Wraps s.target.data s.target (moved s.targetRelativeOffset data) length := by
  have hsize := hs.target.length_le
  have hlt := hs.target.length_lt
  have hoffset := hs.target.offset_le
  rw [targetCopy_eq hread]
  generalize moved s.targetRelativeOffset data = cursor
  have hcursor := cursor.toNat_lt
  by_cases htarget : s.target.size < s.target.offset + length
  · rw [if_pos htarget]
    rw [Stream.size_lt_iff hlt] at htarget
    exact ⟨fun h => absurd h (by rintro ⟨⟩), fun h => absurd h.1 (by omega)⟩
  rw [if_neg htarget]
  rw [Stream.size_lt_iff hlt] at htarget
  by_cases hcheck : s.target.size < cursor + length
  · rw [if_pos hcheck]
    rw [Stream.size_lt_iff hlt] at hcheck
    exact ⟨fun h => absurd h (by rintro ⟨⟩), fun h => absurd h.2 (by omega)⟩
  rw [if_neg hcheck]
  rw [Stream.size_lt_iff hlt] at hcheck
  by_cases hwrap : 2 ^ 32 ≤ cursor.toNat + length.toNat
  · rw [copyBytes_outside hpos (by omega)]
    exact ⟨fun _ => ⟨by omega, hwrap, by omega⟩, fun _ => rfl⟩
  · obtain ⟨target, hcopy, -⟩ :=
      copyBytes_inside hlt (show s.target.offset.toNat + length.toNat ≤ _ by omega)
        (show cursor.toNat + length.toNat ≤ _ by omega)
    rw [hcopy]
    exact ⟨fun h => absurd h (by rintro ⟨⟩), fun h => absurd h.2.1 hwrap⟩

theorem length_copyBytes {count : ℕ} {dest start : UInt32} {data data' : List UInt8}
    (h : copyBytes count dest start data = .ok data') : data'.length = data.length := by
  induction count generalizing dest start data with
  | zero => exact (congrArg List.length (Except.ok.inj h)).symm
  | succ count ih =>
    rw [copyBytes] at h
    rcases hbyte : data[start.toNat]? with _ | byte
    · rw [hbyte] at h
      exact absurd h (by rintro ⟨⟩)
    · rw [hbyte] at h
      dsimp only at h
      split_ifs at h
      exact (ih h).trans List.length_set

theorem targetCopy_leaves {s' : PatchApplier} (hs : s.Inside) (hlength : length.toNat ≤ 2 ^ 30)
    (h : s.targetCopy length = .ok s') : s.Leaves s' := by
  obtain ⟨data, p, hread, hp, hdata, hle, -⟩ := Stream.readNumber_inside hs.patch
  have hsize := hs.target.length_le
  have hoffset := hs.target.offset_le
  rw [targetCopy_eq hread] at h
  by_cases htarget : s.target.size < s.target.offset + length
  · rw [if_pos htarget] at h
    exact absurd h (by rintro ⟨⟩)
  rw [if_neg htarget] at h
  rw [Stream.size_lt_iff hs.target.length_lt] at htarget
  by_cases hcheck : s.target.size < moved s.targetRelativeOffset data + length
  · rw [if_pos hcheck] at h
    exact absurd h (by rintro ⟨⟩)
  rw [if_neg hcheck] at h
  obtain ⟨target, hcopy, h⟩ := bind_ok_iff.mp h
  obtain rfl := Except.ok.inj h
  have hsame := length_copyBytes hcopy
  have hsum : (s.target.offset + length).toNat = s.target.offset.toNat + length.toNat :=
    Stream.toNat_add (by omega)
  refine ⟨⟨hs.source_le, ⟨?_, ?_⟩, hp⟩, hdata, hle⟩
  · exact hsame ▸ hsize
  · show (s.target.offset + length).toNat ≤ target.length
    omega

theorem handleCommand_fault_iff (hs : s.Inside) :
    s.handleCommand = .error .fault ↔ s.CopyWraps := by
  obtain ⟨data, p, hread, hp, hdata, -, -⟩ := Stream.readNumber_inside hs.patch
  obtain ⟨relative, p', hread', -⟩ := Stream.readNumber_inside hp
  obtain ⟨hpos, hlength⟩ := length_pos_le data
  have hs' : Inside { s with patch := p } := ⟨hs.source_le, hs.target, hp⟩
  have hwraps : s.CopyWraps ↔
      (data &&& 3 = 2 ∧ Wraps s.source.data s.target (moved s.sourceRelativeOffset relative)
        (data >>> 2 + 1) ∨
      data &&& 3 = 3 ∧ Wraps s.target.data s.target (moved s.targetRelativeOffset relative)
        (data >>> 2 + 1)) := by
    refine ⟨?_, fun h => ⟨data, relative, p, p', hread, hread', h⟩⟩
    rintro ⟨data₁, relative₁, p₁, p₁', hread₁, hread₁', h⟩
    obtain ⟨rfl, rfl⟩ := Prod.mk.inj (Except.ok.inj (hread.symm.trans hread₁))
    obtain ⟨rfl, rfl⟩ := Prod.mk.inj (Except.ok.inj (hread'.symm.trans hread₁'))
    exact h
  have hcommand : s.handleCommand =
      if data &&& 3 = 0 then sourceRead (data >>> 2 + 1) { s with patch := p }
      else if data &&& 3 = 1 then targetRead (data >>> 2 + 1) { s with patch := p }
      else if data &&& 3 = 2 then sourceCopy (data >>> 2 + 1) { s with patch := p }
      else if data &&& 3 = 3 then targetCopy (data >>> 2 + 1) { s with patch := p }
      else .error .failed := by
    rw [handleCommand, hread]
    rfl
  have hsource := sourceCopy_fault_iff hs' hlength hread'
  have htarget := targetCopy_fault_iff hs' hpos hlength hread'
  rw [hcommand, hwraps]
  generalize data &&& 3 = kind at *
  by_cases h0 : kind = 0
  · subst h0
    rw [if_pos rfl]
    refine ⟨fun h => absurd h (sourceRead_fault hs' hlength), ?_⟩
    rintro (⟨h, -⟩ | ⟨h, -⟩) <;> exact absurd h (by decide)
  rw [if_neg h0]
  by_cases h1 : kind = 1
  · subst h1
    rw [if_pos rfl]
    refine ⟨fun h => absurd h (targetRead_fault hs' hlength), ?_⟩
    rintro (⟨h, -⟩ | ⟨h, -⟩) <;> exact absurd h (by decide)
  rw [if_neg h1]
  by_cases h2 : kind = 2
  · subst h2
    rw [if_pos rfl, hsource]
    refine ⟨fun h => Or.inl ⟨rfl, h⟩, ?_⟩
    rintro (⟨-, h⟩ | ⟨h, -⟩)
    · exact h
    · exact absurd h (by decide)
  rw [if_neg h2]
  by_cases h3 : kind = 3
  · subst h3
    rw [if_pos rfl, htarget]
    refine ⟨fun h => Or.inr ⟨rfl, h⟩, ?_⟩
    rintro (⟨h, -⟩ | ⟨-, h⟩)
    · exact absurd h (by decide)
    · exact h
  · rw [if_neg h3]
    refine ⟨fun h => absurd h (by rintro ⟨⟩), ?_⟩
    rintro (⟨h, -⟩ | ⟨h, -⟩)
    · exact absurd h h2
    · exact absurd h h3

theorem handleCommand_leaves {s' : PatchApplier} (hs : s.Inside) (h : s.handleCommand = .ok s') :
    s'.Inside ∧ s'.patch.data = s.patch.data ∧ (s.patch.offset.toNat < s.patch.data.length →
      s.patch.offset.toNat < s'.patch.offset.toNat) := by
  obtain ⟨data, p, hread, hp, hdata, -, hmore⟩ := Stream.readNumber_inside hs.patch
  obtain ⟨-, hlength⟩ := length_pos_le data
  have hs' : Inside { s with patch := p } := ⟨hs.source_le, hs.target, hp⟩
  have hleaves : Leaves { s with patch := p } s' := by
    rw [handleCommand, hread] at h
    change (if data &&& 3 = 0 then sourceRead (data >>> 2 + 1) { s with patch := p }
      else if data &&& 3 = 1 then targetRead (data >>> 2 + 1) { s with patch := p }
      else if data &&& 3 = 2 then sourceCopy (data >>> 2 + 1) { s with patch := p }
      else if data &&& 3 = 3 then targetCopy (data >>> 2 + 1) { s with patch := p }
      else .error .failed) = .ok s' at h
    split_ifs at h
    · exact sourceRead_leaves hs' h
    · exact targetRead_leaves hs' h
    · exact sourceCopy_leaves hs' h
    · exact targetCopy_leaves hs' hlength h
  exact ⟨hleaves.inside, hleaves.patchData.trans hdata,
    fun hlt => Nat.lt_of_lt_of_le (hmore hlt) hleaves.offset_le⟩

theorem commands_fault_iff {commandEnd : UInt32} {fuel : ℕ} (hs : s.Inside)
    (hend : commandEnd.toNat ≤ s.patch.data.length)
    (hfuel : s.patch.data.length - s.patch.offset.toNat < fuel) :
    commands commandEnd fuel s = .error .fault ↔
      ∃ s', Relation.ReflTransGen (Command commandEnd) s s' ∧ s'.patch.offset < commandEnd ∧
        s'.CopyWraps := by
  induction fuel generalizing s with
  | zero => exact absurd hfuel (Nat.not_lt_zero _)
  | succ fuel ih =>
    rw [commands]
    by_cases hmore : s.patch.offset < commandEnd
    · rw [if_pos hmore, bind_fault_iff, handleCommand_fault_iff hs]
      have hlt := UInt32.lt_iff_toNat_lt.mp hmore
      have hnext : ∀ s₁, s.handleCommand = .ok s₁ → (commands commandEnd fuel s₁ = .error .fault ↔
          ∃ s', Relation.ReflTransGen (Command commandEnd) s₁ s' ∧ s'.patch.offset < commandEnd ∧
            s'.CopyWraps) := by
        intro s₁ hcommand
        obtain ⟨hs₁, hdata, hoffset⟩ := handleCommand_leaves hs hcommand
        have hoffset' := hoffset (by omega)
        exact ih hs₁ (hdata ▸ hend) (by rw [hdata]; omega)
      refine ⟨?_, ?_⟩
      · rintro (hwraps | ⟨s₁, hcommand, hfault⟩)
        · exact ⟨s, .refl, hmore, hwraps⟩
        · obtain ⟨s', hreach, hs'⟩ := (hnext s₁ hcommand).mp hfault
          exact ⟨s', .head ⟨hmore, hcommand⟩ hreach, hs'⟩
      · rintro ⟨s', hreach, hs'⟩
        rcases hreach.cases_head with rfl | ⟨s₁, ⟨-, hcommand⟩, hreach⟩
        · exact Or.inl hs'.2
        · exact Or.inr ⟨s₁, hcommand, (hnext s₁ hcommand).mpr ⟨s', hreach, hs'⟩⟩
    · rw [if_neg hmore]
      refine ⟨fun h => absurd h (by rintro ⟨⟩), ?_⟩
      rintro ⟨s', hreach, hmore', -⟩
      rcases hreach.cases_head with rfl | ⟨s₁, ⟨hmore'', -⟩, -⟩
      · exact absurd hmore' hmore
      · exact absurd hmore'' hmore

/-! ## The header and the footer -/

theorem value_ok_iff {α : Type} {x : Except Stop α} {a : α} :
    Stream.value x = .ok a ↔ x = .ok a := by
  rcases x with (_ | _) | _
  · exact ⟨fun h => absurd h (by rintro ⟨⟩), fun h => absurd h (by rintro ⟨⟩)⟩
  · exact Iff.rfl
  · exact Iff.rfl

theorem value_fault_iff {α : Type} {x : Except Stop α} :
    Stream.value x = .error .fault ↔ ∀ a, x ≠ .ok a := by
  rcases x with (_ | _) | a
  · exact ⟨fun _ _ h => absurd h (by rintro ⟨⟩), fun _ => rfl⟩
  · exact ⟨fun _ _ h => absurd h (by rintro ⟨⟩), fun _ => rfl⟩
  · exact ⟨fun h => absurd h (by rintro ⟨⟩), fun h => absurd rfl (h a)⟩

theorem readNumber_ok {p p' : Stream} {n : UInt32} (hp : p.Inside)
    (h : p.readNumber = .ok (n, p')) : p'.Inside ∧ p'.data = p.data := by
  obtain ⟨n', p'', hread, hp'', hdata, -⟩ := Stream.readNumber_inside hp
  obtain ⟨-, rfl⟩ := Prod.mk.inj (Except.ok.inj (hread.symm.trans h))
  exact ⟨hp'', hdata⟩

theorem readNumber_not_fault {p : Stream} (hp : p.Inside) : p.readNumber ≠ .error .fault := by
  obtain ⟨n, p', hread, -⟩ := Stream.readNumber_inside hp
  rw [hread]
  rintro ⟨⟩

theorem value_read_ok {p p' : Stream} {length : UInt32} {bytes : List UInt8} (hp : p.Inside)
    (h : Stream.value (p.read length) = .ok (bytes, p')) : p'.Inside ∧ p'.data = p.data := by
  obtain ⟨rfl, -, hle⟩ := Stream.read_eq_ok (value_ok_iff.mp h)
  have hsize := hp.length_le
  have hsum : (p.offset + length).toNat = p.offset.toNat + length.toNat :=
    Stream.toNat_add (by omega)
  exact ⟨⟨hsize, show (p.offset + length).toNat ≤ p.data.length by omega⟩, rfl⟩

theorem value_read_fault_iff {p : Stream} {length : UInt32} (hp : p.data.length ≤ 2 ^ 30) :
    Stream.value (p.read length) = .error .fault ↔
      p.data.length < p.offset.toNat + length.toNat := by
  rw [value_fault_iff]
  refine ⟨fun h => ?_, fun h a ha => ?_⟩
  · by_contra hfits
    exact h _ (Stream.read_ok (Nat.lt_of_le_of_lt hp (by decide)) (Nat.not_lt.mp hfits))
  · have := (Stream.read_eq_ok ha).2.2
    omega

theorem readHeader_ok {sourceSize : UInt32} {s' : PatchApplier} (hs : s.Inside)
    (h : s.readHeader = .ok (sourceSize, s')) :
    s'.Inside ∧ s'.patch.data = s.patch.data := by
  obtain ⟨⟨bytes, p₀⟩, hread₀, h⟩ := bind_ok_iff.mp h
  obtain ⟨hp₀, hdata₀⟩ := value_read_ok hs.patch hread₀
  dsimp only at h
  split_ifs at h
  obtain ⟨⟨n₁, p₁⟩, hread₁, h⟩ := bind_ok_iff.mp h
  obtain ⟨hp₁, hdata₁⟩ := readNumber_ok hp₀ hread₁
  obtain ⟨⟨n₂, p₂⟩, hread₂, h⟩ := bind_ok_iff.mp h
  obtain ⟨hp₂, hdata₂⟩ := readNumber_ok hp₁ hread₂
  obtain ⟨⟨n₃, p₃⟩, hread₃, h⟩ := bind_ok_iff.mp h
  obtain ⟨hp₃, hdata₃⟩ := readNumber_ok hp₂ hread₃
  dsimp only at h
  split_ifs at h
  obtain ⟨-, rfl⟩ := Prod.mk.inj (Except.ok.inj h)
  exact ⟨⟨hs.source_le, hs.target, hp₃⟩, hdata₃.trans (hdata₂.trans (hdata₁.trans hdata₀))⟩

theorem four_toNat : (4 : UInt32).toNat = 4 := rfl

theorem readHeader_fault_iff (hs : s.Inside) (hstart : s.patch.offset = 0) :
    s.readHeader = .error .fault ↔ s.patch.data.length < 4 := by
  have hread : Stream.value (s.patch.read 4) = .error .fault ↔ s.patch.data.length < 4 := by
    rw [value_read_fault_iff hs.patch.length_le, hstart, four_toNat, UInt32.toNat_zero,
      Nat.zero_add]
  rw [readHeader, bind_fault_iff, hread]
  refine ⟨?_, Or.inl⟩
  rintro (h | ⟨⟨bytes, p₀⟩, hread₀, h⟩)
  · exact h
  obtain ⟨hp₀, -⟩ := value_read_ok hs.patch hread₀
  dsimp only at h
  split_ifs at h
  · exact absurd h (by rintro ⟨⟩)
  obtain h | ⟨⟨n₁, p₁⟩, hread₁, h⟩ := bind_fault_iff.mp h
  · exact absurd h (readNumber_not_fault hp₀)
  obtain ⟨hp₁, -⟩ := readNumber_ok hp₀ hread₁
  obtain h | ⟨⟨n₂, p₂⟩, hread₂, h⟩ := bind_fault_iff.mp h
  · exact absurd h (readNumber_not_fault hp₁)
  obtain ⟨hp₂, -⟩ := readNumber_ok hp₁ hread₂
  obtain h | ⟨⟨n₃, p₃⟩, hread₃, h⟩ := bind_fault_iff.mp h
  · exact absurd h (readNumber_not_fault hp₂)
  dsimp only at h
  split_ifs at h
  exact absurd h (by rintro ⟨⟩)

theorem commandEnd_toNat_of_le (hs : s.Inside) (h : 12 ≤ s.patch.data.length) :
    s.commandEnd.toNat + 12 = s.patch.data.length := by
  have hsize := Stream.size_toNat hs.patch.length_lt
  have hle : footerSize ≤ s.patch.size := by
    rw [UInt32.le_iff_toNat_le, hsize]
    exact h
  rw [commandEnd, UInt32.toNat_sub_of_le _ _ hle, hsize]
  exact Nat.sub_add_cancel h

theorem commandEnd_toNat_of_lt (hs : s.Inside) (h : s.patch.data.length < 12) :
    s.commandEnd.toNat + 12 = 2 ^ 32 + s.patch.data.length := by
  have hsize := Stream.size_toNat hs.patch.length_lt
  rw [commandEnd, UInt32.toNat_sub, hsize, show footerSize.toNat = 12 from rfl]
  omega

theorem readFooter_ok {sourceSize targetCrc32 : UInt32} {s' : PatchApplier} (hs : s.Inside)
    (h : s.readFooter sourceSize = .ok (targetCrc32, s')) :
    s'.Inside ∧ s'.patch = s.patch := by
  obtain ⟨⟨bytes₁, p₁⟩, hread₁, h⟩ := bind_ok_iff.mp h
  obtain ⟨rfl, -, -⟩ := Stream.read_eq_ok (value_ok_iff.mp hread₁)
  obtain ⟨⟨bytes₂, p₂⟩, hread₂, h⟩ := bind_ok_iff.mp h
  obtain ⟨rfl, -, -⟩ := Stream.read_eq_ok (value_ok_iff.mp hread₂)
  dsimp only at h
  split_ifs at h
  obtain ⟨-, rfl⟩ := Prod.mk.inj (Except.ok.inj h)
  have hlength : (List.replicate s.target.data.length (0 : UInt8)).length = s.target.data.length :=
    List.length_replicate
  exact ⟨⟨hs.source_le, ⟨hlength.symm ▸ hs.target.length_le, hlength.symm ▸ hs.target.offset_le⟩,
    hs.patch⟩, rfl⟩

theorem readFooter_fault_iff (sourceSize : UInt32) (hs : s.Inside) :
    s.readFooter sourceSize = .error .fault ↔ s.patch.data.length < 12 := by
  have hsize := hs.patch.length_le
  have hread : Stream.value ((s.patch.seek s.commandEnd).read 4) = .error .fault ↔
      s.patch.data.length < s.commandEnd.toNat + 4 := by
    rw [value_read_fault_iff (p := s.patch.seek s.commandEnd) hsize, four_toNat]
    rfl
  rw [readFooter, bind_fault_iff, hread]
  refine ⟨?_, fun h => Or.inl ?_⟩
  · rintro (h | ⟨⟨bytes₁, p₁⟩, hread₁, h⟩)
    · by_contra hlong
      have := commandEnd_toNat_of_le hs (Nat.not_lt.mp hlong)
      omega
    · obtain ⟨rfl, -, hle⟩ := Stream.read_eq_ok (value_ok_iff.mp hread₁)
      by_contra hlong
      have hend := commandEnd_toNat_of_le hs (Nat.not_lt.mp hlong)
      obtain h | ⟨⟨bytes₂, p₂⟩, hread₂, h⟩ := bind_fault_iff.mp h
      · have hsum : (s.commandEnd + 4).toNat = s.commandEnd.toNat + 4 := by
          rw [Stream.toNat_add, four_toNat]
          rw [four_toNat]
          omega
        have hover := (value_read_fault_iff (p := (s.patch.seek s.commandEnd).seek
          ((s.patch.seek s.commandEnd).offset + 4)) hsize).mp h
        rw [four_toNat] at hover
        replace hover : s.patch.data.length < (s.commandEnd + 4).toNat + 4 := hover
        omega
      · dsimp only at h
        split_ifs at h
        exact absurd h (by rintro ⟨⟩)
  · have := commandEnd_toNat_of_lt hs h
    omega

theorem apply_fault_iff (hs : s.Inside) (hstart : s.patch.offset = 0) :
    s.apply ≠ .error .fault ↔ s.Bounded := by
  rw [apply, Ne, bind_fault_iff, readHeader_fault_iff hs hstart, not_or, Nat.not_lt, Bounded]
  refine and_congr_right fun _ => ?_
  rw [not_exists]
  have hloop : ∀ sourceSize s₁ targetCrc32 s₂, s.readHeader = .ok (sourceSize, s₁) →
      s₁.readFooter sourceSize = .ok (targetCrc32, s₂) →
      12 ≤ s.patch.data.length →
      (commands s₂.commandEnd (s₂.patch.data.length + 1) s₂ = .error .fault ↔
        ∃ s₃, Relation.ReflTransGen (Command s₂.commandEnd) s₂ s₃ ∧
          s₃.patch.offset < s₂.commandEnd ∧ s₃.CopyWraps) := by
    intro sourceSize s₁ targetCrc32 s₂ hheader hfooter hlong
    obtain ⟨hs₁, hdata₁⟩ := readHeader_ok hs hheader
    obtain ⟨hs₂, hpatch₂⟩ := readFooter_ok hs₁ hfooter
    have hend := commandEnd_toNat_of_le hs₂ (by rw [hpatch₂, hdata₁]; exact hlong)
    exact commands_fault_iff hs₂ (by omega) (by omega)
  refine ⟨fun h sourceSize s₁ hheader => ?_, fun h => ?_⟩
  · have hs₁ := readHeader_ok hs hheader
    have hrest := fun hfault => h (sourceSize, s₁) ⟨hheader, bind_fault_iff.mpr hfault⟩
    have hlong : 12 ≤ s.patch.data.length := by
      by_contra hshort
      refine hrest (Or.inl ((readFooter_fault_iff sourceSize hs₁.1).mpr ?_))
      rw [hs₁.2]
      exact Nat.not_le.mp hshort
    refine ⟨hlong, fun targetCrc32 s₂ hfooter s₃ hreach hmore hwraps => ?_⟩
    refine hrest (Or.inr ⟨(targetCrc32, s₂), hfooter, bind_fault_iff.mpr (Or.inl ?_)⟩)
    exact (hloop _ _ _ _ hheader hfooter hlong).mpr ⟨s₃, hreach, hmore, hwraps⟩
  · rintro ⟨sourceSize, s₁⟩ ⟨hheader, hfault⟩
    obtain ⟨hlong, hbounded⟩ := h sourceSize s₁ hheader
    have hs₁ := readHeader_ok hs hheader
    obtain hfault | ⟨⟨targetCrc32, s₂⟩, hfooter, hfault⟩ := bind_fault_iff.mp hfault
    · have hshort := (readFooter_fault_iff sourceSize hs₁.1).mp hfault
      rw [hs₁.2] at hshort
      omega
    obtain hfault | ⟨s₃, -, hfault⟩ := bind_fault_iff.mp hfault
    · obtain ⟨s₃, hreach, hmore, hwraps⟩ := (hloop _ _ _ _ hheader hfooter hlong).mp hfault
      exact hbounded targetCrc32 s₂ hfooter s₃ hreach hmore hwraps
    · split_ifs at hfault
      exact absurd hfault (by rintro ⟨⟩)

theorem start_inside {code patch : List UInt8} (hcode : code.length ≤ 2 ^ 30)
    (hpatch : patch.length ≤ 2 ^ 30) : (start code patch).Inside :=
  ⟨hcode, ⟨hcode, Nat.zero_le _⟩, ⟨hpatch, Nat.zero_le _⟩⟩

end PatchApplier

/-- The copies of the code and of the patch fit into the heap, and the patch is bounded; or the patch
is not applied at all. -/
def StaysInside (memRegionFree : UInt32) (code : List UInt8) (file : Option (List UInt8)) : Prop :=
  ∀ content, file = some content →
    ¬ min memRegionFree heapLimit < UInt32.ofNat code.length + UInt32.ofNat content.length →
      code.length + (UInt32.ofNat content.length).toNat < 2 ^ 32 ∧
        (PatchApplier.start code (content.take (UInt32.ofNat content.length).toNat)).Bounded

/-- Every access is inside exactly where no sum wraps: neither that of the sizes, nor that of a copy's
cursor and length, and where the patch has its magic and its footer. -/
theorem applyCodeBpsPatch_inside_iff (memRegionFree codeSize : UInt32) {code : List UInt8}
    (file : Option (List UInt8)) (hcode : code.length < 2 ^ 32) :
    applyCodeBpsPatch memRegionFree code codeSize file ≠ .error .fault ↔
      StaysInside memRegionFree code file := by
  rcases file with _ | content
  · refine ⟨fun _ content h => absurd h (by rintro ⟨⟩), fun _ h => absurd h (by rintro ⟨⟩)⟩
  have hmax : (UInt32.ofNat code.length).toNat = code.length := UInt32.toNat_ofNat_of_lt' hcode
  have hlimit : (min memRegionFree heapLimit).toNat ≤ 2 ^ 30 := by
    have hle : min memRegionFree heapLimit ≤ heapLimit := by
      show (if memRegionFree ≤ heapLimit then memRegionFree else heapLimit) ≤ heapLimit
      split_ifs with hle
      · exact hle
      · exact UInt32.le_refl _
    exact (UInt32.le_iff_toNat_le.mp hle).trans (by decide)
  have hpatch := (UInt32.ofNat content.length).toNat_lt
  have hinside : StaysInside memRegionFree code (some content) ↔
      (¬ min memRegionFree heapLimit < UInt32.ofNat code.length + UInt32.ofNat content.length →
        code.length + (UInt32.ofNat content.length).toNat < 2 ^ 32 ∧
          (PatchApplier.start code (content.take (UInt32.ofNat content.length).toNat)).Bounded) :=
    ⟨fun h => h content rfl, fun h _ hcontent => Option.some.inj hcontent ▸ h⟩
  rw [hinside, applyCodeBpsPatch]
  generalize UInt32.ofNat content.length = patchSize at hpatch ⊢
  generalize min memRegionFree heapLimit = heap at hlimit ⊢
  by_cases hover : heap < UInt32.ofNat code.length + patchSize
  · rw [if_pos hover]
    exact ⟨fun _ h => absurd hover h, fun _ h => absurd h (by rintro ⟨⟩)⟩
  rw [if_neg hover, hmax]
  rw [UInt32.lt_iff_toNat_lt, UInt32.toNat_add, hmax] at hover
  by_cases hheap : heap.toNat < code.length + patchSize.toNat
  · rw [if_pos hheap]
    refine ⟨fun h => absurd rfl h, fun h => ?_⟩
    have := (h (by rw [UInt32.lt_iff_toNat_lt, UInt32.toNat_add, hmax]; exact hover)).1
    omega
  rw [if_neg hheap]
  have hstart : (PatchApplier.start code (content.take patchSize.toNat)).Inside :=
    PatchApplier.start_inside (by omega) (by
      rw [List.length_take]
      omega)
  have happly := PatchApplier.apply_fault_iff hstart rfl
  rw [Ne, bind_fault_iff, not_or]
  refine ⟨fun h _ => ⟨by omega, happly.mp h.1⟩, fun h => ?_⟩
  have hbounded := (h (by rw [UInt32.lt_iff_toNat_lt, UInt32.toNat_add, hmax]; exact hover)).2
  exact ⟨happly.mpr hbounded, fun ⟨_, _, h⟩ => absurd h (by rintro ⟨⟩)⟩

/-- A patch of one copy, from before the source. -/
def backwardsPatch : List UInt8 :=
  PatchApplier.magic ++ [0x80, 0x80, 0x80] ++ [0x82, 0x83] ++ List.replicate 12 0

theorem backwardsPatch_leaves : applyCodeBpsPatch 0x04000000 (List.replicate 0x1000 0) 0x1000
    (some backwardsPatch) = .error .fault := by
  decide +kernel

theorem applyCodeBpsPatch_inside_iff_backwards :
    applyCodeBpsPatch 0x04000000 [0] 1 (some backwardsPatch) ≠ .error .fault ↔
      StaysInside 0x04000000 [0] (some backwardsPatch) :=
  applyCodeBpsPatch_inside_iff 0x04000000 1 (some backwardsPatch) (by decide)

end Presence3DS.Loader.Bps
