import Presence3DS.Loader.Bps

/-! The format of BPS patches, and what the actions of one put out. The applier follows them. -/

namespace Presence3DS.Loader.Bps

open Buffer

/-! ## The format -/

inductive Action where
  | sourceRead (length : ℕ)
  | targetRead (data : List UInt8)
  | sourceCopy (length : ℕ) (back : Bool) (distance : ℕ)
  | targetCopy (length : ℕ) (back : Bool) (distance : ℕ)

/-- A command has its length and its kind, and a distance has its sign in the lowest bit. -/
def Action.bytes : Action → List UInt8
  | sourceRead length => Vuint.encode (4 * (length - 1))
  | targetRead data => Vuint.encode (4 * (data.length - 1) + 1) ++ data
  | sourceCopy length back distance =>
    Vuint.encode (4 * (length - 1) + 2) ++ Vuint.encode (2 * distance + back.toNat)
  | targetCopy length back distance =>
    Vuint.encode (4 * (length - 1) + 3) ++ Vuint.encode (2 * distance + back.toNat)

/-- What has been put out, and the cursors of the copies. -/
structure Output where
  data : List UInt8
  sourceCursor : ℕ
  targetCursor : ℕ

/-- Bytes of the output itself, one by one. What has not been put out yet is zero. -/
def repeated : ℕ → ℕ → List UInt8 → List UInt8
  | 0, _, data => data
  | count + 1, cursor, data => repeated count (cursor + 1) (data ++ [data.getD cursor 0])

/-- A cursor that moves to the back, or forward. -/
def Moves (back : Bool) (distance cursor cursor' : ℕ) : Prop :=
  if back then cursor = cursor' + distance else cursor' = cursor + distance

/-- What an action does where its ranges are valid. -/
inductive Action.Outputs (source : List UInt8) (targetSize : ℕ) : Action → Output → Output → Prop
  | sourceRead {o : Output} {length : ℕ} (pos : 0 < length)
      (valid : o.data.length + length ≤ source.length) :
      Outputs source targetSize (.sourceRead length) o
        { o with data := o.data ++ (source.drop o.data.length).take length }
  | targetRead {o : Output} {data : List UInt8} (pos : data ≠ []) :
      Outputs source targetSize (.targetRead data) o { o with data := o.data ++ data }
  | sourceCopy {o : Output} {length distance cursor : ℕ} {back : Bool} (pos : 0 < length)
      (moves : Moves back distance o.sourceCursor cursor)
      (valid : cursor + length ≤ source.length) :
      Outputs source targetSize (.sourceCopy length back distance) o
        ⟨o.data ++ (source.drop cursor).take length, cursor + length, o.targetCursor⟩
  | targetCopy {o : Output} {length distance cursor : ℕ} {back : Bool} (pos : 0 < length)
      (moves : Moves back distance o.targetCursor cursor) (valid : cursor + length ≤ targetSize) :
      Outputs source targetSize (.targetCopy length back distance) o
        ⟨repeated length cursor o.data, o.sourceCursor, cursor + length⟩

/-- The actions one after another. -/
inductive Encodes (source : List UInt8) (targetSize : ℕ) : List Action → Output → Output → Prop
  | nil {o : Output} : Encodes source targetSize [] o o
  | cons {action : Action} {actions : List Action} {o o₁ o₂ : Output}
      (head : action.Outputs source targetSize o o₁)
      (tail : Encodes source targetSize actions o₁ o₂) :
      Encodes source targetSize (action :: actions) o o₂

def le32Bytes (n : UInt32) : List UInt8 :=
  [UInt8.ofNat n.toNat, UInt8.ofNat (n.toNat / 2 ^ 8), UInt8.ofNat (n.toNat / 2 ^ 16),
    UInt8.ofNat (n.toNat / 2 ^ 24)]

/-- A patch without metadata. The last of its checksums is that of the patch. -/
def patchBytes (source target : List UInt8) (actions : List Action) (checksum : List UInt8) :
    List UInt8 :=
  PatchApplier.magic ++ (Vuint.encode source.length ++ (Vuint.encode target.length ++
    (Vuint.encode 0 ++ (actions.flatMap Action.bytes ++
      (le32Bytes (Crc.crc 0xEDB88320 source) ++ (le32Bytes (Crc.crc 0xEDB88320 target) ++
        checksum))))))

/-! ## The applier follows the actions -/

theorem le32_le32Bytes (n : UInt32) : le32 (le32Bytes n) = n := by
  have hn := n.toNat_lt
  rw [← UInt32.toNat_inj, le32, le32Bytes]
  simp only [List.foldr, UInt8.toNat_ofNat']
  rw [UInt32.toNat_ofNat_of_lt' (show _ < 2 ^ 32 by omega)]
  omega

theorem length_repeated (count cursor : ℕ) (data : List UInt8) :
    (repeated count cursor data).length = data.length + count := by
  induction count generalizing cursor data with
  | zero => rfl
  | succ count ih =>
    rw [repeated, ih, List.length_append, List.length_singleton]
    omega

theorem length_outputs {source : List UInt8} {targetSize : ℕ} {action : Action} {o o' : Output}
    (h : action.Outputs source targetSize o o') : o.data.length ≤ o'.data.length := by
  cases h with
  | sourceRead => exact List.length_append ▸ Nat.le_add_right _ _
  | targetRead => exact List.length_append ▸ Nat.le_add_right _ _
  | sourceCopy => exact List.length_append ▸ Nat.le_add_right _ _
  | targetCopy => exact length_repeated _ _ _ ▸ Nat.le_add_right _ _

theorem length_encodes {source : List UInt8} {targetSize : ℕ} {actions : List Action}
    {o o' : Output} (h : Encodes source targetSize actions o o') :
    o.data.length ≤ o'.data.length := by
  induction h with
  | nil => exact le_rfl
  | cons head _ ih => exact (length_outputs head).trans ih

theorem splice_zeros (out data : List UInt8) (k : ℕ) :
    splice (out ++ List.replicate k 0) out.length data =
      (out ++ data) ++ List.replicate (k - data.length) 0 := by
  rw [splice, List.take_left, ← List.drop_drop, List.drop_left, List.drop_replicate]

theorem copyBytes_zeros {count cursor size : ℕ} {out : List UInt8} {dest start : UInt32}
    (hdest : dest.toNat = out.length) (hstart : start.toNat = cursor) (hsize : size < 2 ^ 32)
    (hout : out.length + count ≤ size) (hcursor : cursor + count ≤ size) :
    PatchApplier.copyBytes count dest start (out ++ List.replicate (size - out.length) 0) =
      .ok (repeated count cursor out ++ List.replicate (size - (out.length + count)) 0) := by
  induction count generalizing cursor out dest start with
  | zero => rfl
  | succ count ih =>
    have hlength : (out ++ List.replicate (size - out.length) (0 : UInt8)).length = size := by
      rw [List.length_append, List.length_replicate]
      omega
    have hbyte : (out ++ List.replicate (size - out.length) 0)[start.toNat]? =
        some (out.getD cursor 0) := by
      rw [hstart]
      by_cases hlt : cursor < out.length
      · rw [List.getElem?_append_left hlt, List.getD_eq_getElem?_getD,
          List.getElem?_eq_getElem hlt, Option.getD_some]
      · rw [List.getElem?_append_right (by omega), List.getElem?_replicate, if_pos (by omega),
          List.getD_eq_getElem?_getD, List.getElem?_eq_none (by omega), Option.getD_none]
    have hset : (out ++ List.replicate (size - out.length) 0).set dest.toNat (out.getD cursor 0) =
        (out ++ [out.getD cursor 0]) ++
          List.replicate (size - (out ++ [out.getD cursor 0]).length) 0 := by
      obtain ⟨k, hk⟩ : ∃ k, size - out.length = k + 1 := ⟨size - out.length - 1, by omega⟩
      rw [hdest, hk, List.set_append_right _ _ le_rfl, Nat.sub_self, List.replicate_succ,
        List.append_assoc, List.length_append, List.length_singleton]
      have hrest : size - (out.length + 1) = k := by omega
      rw [hrest]
      rfl
    rw [PatchApplier.copyBytes, hbyte]
    dsimp only
    rw [if_pos (by rw [hlength, hdest]; omega), hset, repeated]
    have hnext : ∀ a : UInt32, a.toNat < size → (a + 1).toNat = a.toNat + 1 := fun a ha =>
      Stream.toNat_add (b := 1) (show a.toNat + 1 < 2 ^ 32 by omega)
    have hout' : (out ++ [out.getD cursor 0]).length = out.length + 1 := List.length_append
    rw [ih (by rw [hnext dest (by omega), hdest, hout']) (by rw [hnext start (by omega), hstart])
      (by omega) (by omega), hout', Nat.add_assoc, Nat.add_comm 1]

theorem command_kind {n kind : ℕ} (hn : n < 2 ^ 30 + 1) (hkind : kind < 4) :
    UInt32.ofNat (4 * (n - 1) + kind) &&& 3 = UInt32.ofNat kind := by
  rw [← UInt32.toNat_inj, UInt32.toNat_and, UInt32.toNat_ofNat_of_lt' (show _ < 2 ^ 32 by omega),
    UInt32.toNat_ofNat_of_lt' (show kind < 2 ^ 32 by omega)]
  show (4 * (n - 1) + kind) &&& (2 ^ 2 - 1) = kind
  rw [Nat.and_two_pow_sub_one_eq_mod]
  omega

theorem command_length {n kind : ℕ} (hpos : 0 < n) (hn : n < 2 ^ 30 + 1) (hkind : kind < 4) :
    UInt32.ofNat (4 * (n - 1) + kind) >>> 2 + 1 = UInt32.ofNat n := by
  have hshift : (UInt32.ofNat (4 * (n - 1) + kind) >>> 2).toNat = n - 1 := by
    rw [UInt32.toNat_shiftRight, UInt32.toNat_ofNat_of_lt' (show _ < 2 ^ 32 by omega)]
    show (4 * (n - 1) + kind) >>> 2 = n - 1
    rw [Nat.shiftRight_eq_div_pow]
    omega
  rw [← UInt32.toNat_inj, Stream.toNat_add (b := 1) (show _ + 1 < 2 ^ 32 by omega), hshift,
    UInt32.toNat_ofNat_of_lt' (show n < 2 ^ 32 by omega)]
  exact Nat.sub_add_cancel hpos

theorem moved_moves {back : Bool} {distance cursor cursor' : ℕ} {offset : UInt32}
    (hoffset : offset.toNat = cursor) (hmoves : Moves back distance cursor cursor')
    (hcursor : cursor ≤ 2 ^ 30) (hcursor' : cursor' ≤ 2 ^ 30) :
    2 * distance + back.toNat < 2 ^ 32 ∧
      (PatchApplier.moved offset (UInt32.ofNat (2 * distance + back.toNat))).toNat = cursor' := by
  have hdistance : distance ≤ 2 ^ 30 := by
    cases back
    · have : cursor' = cursor + distance := hmoves
      omega
    · have : cursor = cursor' + distance := hmoves
      omega
  have hbit : back.toNat < 2 := Bool.toNat_lt back
  have hsize : 2 * distance + back.toNat < 2 ^ 32 := by omega
  have hshift : (UInt32.ofNat (2 * distance + back.toNat) >>> 1).toNat = distance := by
    rw [UInt32.toNat_shiftRight, UInt32.toNat_ofNat_of_lt' hsize]
    show (2 * distance + back.toNat) >>> 1 = distance
    rw [Nat.shiftRight_eq_div_pow]
    omega
  have hlow : (UInt32.ofNat (2 * distance + back.toNat) &&& 1).toNat = back.toNat := by
    rw [UInt32.toNat_and, UInt32.toNat_ofNat_of_lt' hsize, UInt32.toNat_one, Nat.and_one_is_mod]
    omega
  refine ⟨hsize, ?_⟩
  rw [PatchApplier.moved]
  cases back with
  | false =>
    have hmoved : cursor' = cursor + distance := hmoves
    rw [if_neg (not_not.mpr (UInt32.toNat_inj.mp hlow)), Stream.toNat_add (by omega), hshift,
      hoffset, hmoved]
  | true =>
    have hmoved : cursor = cursor' + distance := hmoves
    have hone : UInt32.ofNat (2 * distance + true.toNat) &&& 1 ≠ 0 := fun h => by
      rw [h] at hlow
      exact absurd hlow (by decide)
    have hle : UInt32.ofNat (2 * distance + true.toNat) >>> 1 ≤ offset := by
      rw [UInt32.le_iff_toNat_le, hshift]
      omega
    rw [if_pos hone, UInt32.toNat_sub_of_le _ _ hle, hshift]
    omega

/-- The applier and the output agree, and the bytes are still to be read. -/
structure Follows (code patch : List UInt8) (targetSize : ℕ) (s : PatchApplier) (o : Output)
    (bytes : List UInt8) : Prop where
  source : s.source.data = code
  target : s.target.data = o.data ++ List.replicate (code.length - o.data.length) 0
  targetOffset : s.target.offset.toNat = o.data.length
  sourceCursor : s.sourceRelativeOffset.toNat = o.sourceCursor
  sourceCursor_le : o.sourceCursor ≤ code.length
  targetCursor : s.targetRelativeOffset.toNat = o.targetCursor
  targetCursor_le : o.targetCursor ≤ code.length
  patchData : s.patch.data = patch
  patchOffset : s.patch.offset.toNat ≤ patch.length
  rest : s.patch.rest = bytes
  size : s.targetSize.toNat = targetSize

section Simulation

variable {code patch source bytes : List UInt8} {s : PatchApplier} {o o' : Output}
  {targetSize : ℕ}

theorem copyFrom_follows (other : Stream) {chunk : List UInt8} (hcode : code.length ≤ 2 ^ 30)
    (hf : Follows code patch targetSize s o bytes) (hn : (o.data ++ chunk).length ≤ code.length)
    (hother : other.data.length < 2 ^ 32)
    (hoffset : other.offset.toNat + chunk.length ≤ other.data.length)
    (hchunk : other.rest.take chunk.length = chunk) :
    ∃ target, s.target.copyFrom other (UInt32.ofNat chunk.length) =
        .ok (target, other.seek (other.offset + UInt32.ofNat chunk.length)) ∧
      target.data = (o.data ++ chunk) ++
        List.replicate (code.length - (o.data ++ chunk).length) 0 ∧
      target.offset.toNat = (o.data ++ chunk).length := by
  rw [List.length_append] at hn ⊢
  have hsize : (UInt32.ofNat chunk.length).toNat = chunk.length :=
    UInt32.toNat_ofNat_of_lt' (show chunk.length < 2 ^ 32 by omega)
  have htarget : s.target.data.length = code.length := by
    rw [hf.target, List.length_append, List.length_replicate]
    omega
  refine ⟨_, Stream.copyFrom_ok (by omega) (by rw [hsize, hf.targetOffset]; omega) hother
    (by rw [hsize]; exact hoffset), ?_, ?_⟩
  · show splice s.target.data s.target.offset.toNat _ = _
    rw [hsize, hchunk, hf.target, hf.targetOffset, splice_zeros, Nat.sub_sub]
  · show (s.target.offset + UInt32.ofNat chunk.length).toNat = _
    rw [Stream.toNat_add (by rw [hsize, hf.targetOffset]; omega), hsize, hf.targetOffset]

theorem copyFrom_source {cursor n : ℕ} {offset : UInt32} (hcode : code.length ≤ 2 ^ 30)
    (hsource : code.take source.length = source) (hf : Follows code patch targetSize s o bytes)
    (hoffset : offset.toNat = cursor) (h : cursor + n ≤ source.length)
    (hn : (o.data ++ (source.drop cursor).take n).length ≤ code.length) :
    ∃ target, s.target.copyFrom (s.source.seek offset) (UInt32.ofNat n) =
        .ok (target, s.source.seek (offset + UInt32.ofNat n)) ∧
      target.data = (o.data ++ (source.drop cursor).take n) ++
        List.replicate (code.length - (o.data ++ (source.drop cursor).take n).length) 0 ∧
      target.offset.toNat = (o.data ++ (source.drop cursor).take n).length := by
  have hsource_le : source.length ≤ code.length := by
    rw [← hsource, List.length_take]
    exact Nat.min_le_right _ _
  have hlength : ((source.drop cursor).take n).length = n :=
    List.length_take_of_le (by rw [List.length_drop]; omega)
  have hrest : (s.source.seek offset).rest.take n = (source.drop cursor).take n := by
    conv_rhs => rw [← hsource]
    rw [List.drop_take, List.take_take, Nat.min_eq_left (by omega), Stream.rest]
    show (s.source.data.drop offset.toNat).take n = _
    rw [hf.source, hoffset]
  have hcopy := copyFrom_follows (s.source.seek offset) hcode hf hn
    (show s.source.data.length < 2 ^ 32 by rw [hf.source]; omega)
    (show offset.toNat + ((source.drop cursor).take n).length ≤ s.source.data.length by
      rw [hlength, hf.source, hoffset]
      omega)
    (by rw [hlength, hrest])
  rw [hlength] at hcopy
  exact hcopy

theorem handleCommand_kind {n kind : ℕ} (hpatch : patch.length < 2 ^ 32)
    (hf : Follows code patch targetSize s o (Vuint.encode (4 * (n - 1) + kind) ++ bytes)) (hpos : 0 < n)
    (hn : n ≤ 2 ^ 30) (hkind : kind < 4) :
    ∃ s', Follows code patch targetSize s' o bytes ∧ s.handleCommand =
      if UInt32.ofNat kind = 0 then s'.sourceRead (UInt32.ofNat n)
      else if UInt32.ofNat kind = 1 then s'.targetRead (UInt32.ofNat n)
      else if UInt32.ofNat kind = 2 then s'.sourceCopy (UInt32.ofNat n)
      else if UInt32.ofNat kind = 3 then s'.targetCopy (UInt32.ofNat n)
      else .error .failed := by
  have hlt : n < 2 ^ 30 + 1 := Nat.lt_succ_of_le hn
  obtain ⟨p, hread, hdata, hoffset, hrest⟩ := Stream.readNumber_encode
    (hf.patchData ▸ hpatch) (hf.patchData ▸ hf.patchOffset) hf.rest
  refine ⟨{ s with patch := p }, { hf with
    patchData := hdata.trans hf.patchData
    patchOffset := hf.patchData ▸ hoffset
    rest := hrest }, ?_⟩
  rw [PatchApplier.handleCommand, hread]
  show (if UInt32.ofNat (4 * (n - 1) + kind) &&& 3 = 0 then _ else _) = _
  rw [command_kind hlt hkind, command_length hpos hlt hkind]

theorem readNumber_moves {back : Bool} {distance cursor cursor' : ℕ} {offset : UInt32}
    (hpatch : patch.length < 2 ^ 32)
    (hf : Follows code patch targetSize s o (Vuint.encode (2 * distance + back.toNat) ++ bytes))
    (hoffset : offset.toNat = cursor) (hmoves : Moves back distance cursor cursor')
    (hcursor : cursor ≤ 2 ^ 30) (hcursor' : cursor' ≤ 2 ^ 30) :
    ∃ data p, s.patch.readNumber = .ok (data, p) ∧ (PatchApplier.moved offset data).toNat = cursor' ∧
      Follows code patch targetSize { s with patch := p } o bytes := by
  obtain ⟨hsize, hmoved⟩ := moved_moves hoffset hmoves hcursor hcursor'
  obtain ⟨p, hread, hdata, hoffset', hrest⟩ := Stream.readNumber_encode
    (hf.patchData ▸ hpatch) (hf.patchData ▸ hf.patchOffset) hf.rest
  exact ⟨_, p, hread, hmoved, { hf with
    patchData := hdata.trans hf.patchData
    patchOffset := hf.patchData ▸ hoffset'
    rest := hrest }⟩

theorem handleCommand_follows {action : Action} (hcode : code.length ≤ 2 ^ 30)
    (hsource : code.take source.length = source) (hpatch : patch.length < 2 ^ 32)
    (hf : Follows code patch targetSize s o (action.bytes ++ bytes))
    (ho : action.Outputs source targetSize o o') (htarget : targetSize ≤ code.length)
    (hlen : o'.data.length ≤ targetSize) :
    ∃ s', s.handleCommand = .ok s' ∧ Follows code patch targetSize s' o' bytes := by
  have hfits : o'.data.length ≤ code.length := hlen.trans htarget
  have hsource_le : source.length ≤ code.length := by
    rw [← hsource, List.length_take]
    exact Nat.min_le_right _ _
  cases ho with
  | @sourceRead _ length pos valid =>
    obtain ⟨s', hf', hcommand⟩ := handleCommand_kind hpatch hf pos (by omega) (by decide : 0 < 4)
    obtain ⟨target, hcopy, hdata, hoffset⟩ :=
      copyFrom_source hcode hsource hf' hf'.targetOffset valid hfits
    have hrun : s'.sourceRead (UInt32.ofNat length) = .ok { s' with
        target := target
        source := s'.source.seek (s'.target.offset + UInt32.ofNat length) } := by
      rw [PatchApplier.sourceRead, hcopy]
      rfl
    exact ⟨_, hcommand.trans hrun, { hf' with target := hdata, targetOffset := hoffset }⟩
  | @targetRead _ data pos =>
    have hpos := List.length_pos_iff.mpr pos
    have hdata_le : data.length ≤ code.length :=
      (Nat.le_add_left _ _).trans (List.length_append ▸ hfits)
    rw [Action.bytes, List.append_assoc] at hf
    obtain ⟨s', hf', hcommand⟩ :=
      handleCommand_kind hpatch hf hpos (by omega) (by decide : 1 < 4)
    have hlength : s'.patch.rest.length = data.length + bytes.length := by
      rw [hf'.rest, List.length_append]
    have hpatch' := hf'.patchOffset
    rw [Stream.rest, List.length_drop, hf'.patchData] at hlength
    obtain ⟨target, hcopy, hdata, hoffset⟩ := copyFrom_follows s'.patch hcode hf' hfits
      (hf'.patchData ▸ hpatch) (by rw [hf'.patchData]; omega)
      (by rw [hf'.rest, List.take_left])
    have hnext : (s'.patch.offset + UInt32.ofNat data.length).toNat =
        s'.patch.offset.toNat + data.length := by
      have hsize : (UInt32.ofNat data.length).toNat = data.length :=
        UInt32.toNat_ofNat_of_lt' (show data.length < 2 ^ 32 by omega)
      rw [Stream.toNat_add (by omega), hsize]
    have hrun : s'.targetRead (UInt32.ofNat data.length) = .ok { s' with
        target := target
        patch := s'.patch.seek (s'.patch.offset + UInt32.ofNat data.length) } := by
      rw [PatchApplier.targetRead, hcopy]
      rfl
    refine ⟨_, hcommand.trans hrun, { hf' with
      target := hdata
      targetOffset := hoffset
      patchOffset := show (s'.patch.offset + UInt32.ofNat data.length).toNat ≤ _ by omega
      rest := ?_ }⟩
    · show s'.patch.data.drop (s'.patch.offset + UInt32.ofNat data.length).toNat = bytes
      rw [hnext, ← List.drop_drop]
      show s'.patch.rest.drop _ = bytes
      rw [hf'.rest, List.drop_left]
  | @sourceCopy _ length distance cursor back pos moves valid =>
    rw [Action.bytes, List.append_assoc] at hf
    obtain ⟨s', hf', hcommand⟩ := handleCommand_kind hpatch hf pos (by omega) (by decide : 2 < 4)
    obtain ⟨relative, p, hread, hmoved, hf''⟩ := readNumber_moves hpatch hf' hf'.sourceCursor moves
      (hf'.sourceCursor_le.trans hcode) (by omega)
    obtain ⟨target, hcopy, hdata, hoffset⟩ := copyFrom_source hcode hsource hf'' hmoved valid hfits
    have hnext : (PatchApplier.moved s'.sourceRelativeOffset relative +
        UInt32.ofNat length).toNat = cursor + length := by
      have hsize : (UInt32.ofNat length).toNat = length :=
        UInt32.toNat_ofNat_of_lt' (show length < 2 ^ 32 by omega)
      rw [Stream.toNat_add (by omega), hsize, hmoved]
    have hrun : s'.sourceCopy (UInt32.ofNat length) = .ok { s' with
        target := target
        source := s'.source.seek
          (PatchApplier.moved s'.sourceRelativeOffset relative + UInt32.ofNat length)
        patch := p
        sourceRelativeOffset :=
          PatchApplier.moved s'.sourceRelativeOffset relative + UInt32.ofNat length } := by
      rw [PatchApplier.sourceCopy, hread]
      show (s'.target.copyFrom _ _ >>= _) = _
      rw [show s'.target.copyFrom _ _ = _ from hcopy]
      rfl
    exact ⟨_, hcommand.trans hrun, { hf'' with
      target := hdata
      targetOffset := hoffset
      sourceCursor := hnext
      sourceCursor_le := valid.trans hsource_le }⟩
  | @targetCopy _ length distance cursor back pos moves valid =>
    rw [Action.bytes, List.append_assoc] at hf
    have hout : o.data.length + length ≤ code.length :=
      (length_repeated length cursor o.data) ▸ hfits
    have hcursor : cursor + length ≤ code.length := valid.trans htarget
    obtain ⟨s', hf', hcommand⟩ := handleCommand_kind hpatch hf pos (by omega) (by decide : 3 < 4)
    obtain ⟨relative, p, hread, hmoved, hf''⟩ := readNumber_moves hpatch hf' hf'.targetCursor moves
      (hf'.targetCursor_le.trans hcode) (by omega)
    have hsize : (UInt32.ofNat length).toNat = length :=
      UInt32.toNat_ofNat_of_lt' (show length < 2 ^ 32 by omega)
    have hlength : s'.target.data.length = code.length := by
      rw [hf'.target, List.length_append, List.length_replicate]
      omega
    have hnext : (s'.target.offset + UInt32.ofNat length).toNat = o.data.length + length := by
      rw [Stream.toNat_add (by rw [hf'.targetOffset]; omega), hsize, hf'.targetOffset]
    have hnext' : (PatchApplier.moved s'.targetRelativeOffset relative +
        UInt32.ofNat length).toNat = cursor + length := by
      rw [Stream.toNat_add (by omega), hsize, hmoved]
    have hfits₁ : ¬ s'.target.size < s'.target.offset + UInt32.ofNat length := by
      rw [UInt32.lt_iff_toNat_lt, Stream.size_toNat (by omega), hnext]
      omega
    have hfits₂ : ¬ s'.target.size <
        PatchApplier.moved s'.targetRelativeOffset relative + UInt32.ofNat length := by
      rw [UInt32.lt_iff_toNat_lt, Stream.size_toNat (by omega), hnext']
      omega
    have hcopy := copyBytes_zeros hf'.targetOffset hmoved
      (show code.length < 2 ^ 32 by omega) hout hcursor
    have hrun : s'.targetCopy (UInt32.ofNat length) = .ok { s' with
        target := ⟨repeated length cursor o.data ++
          List.replicate (code.length - (o.data.length + length)) 0,
            s'.target.offset + UInt32.ofNat length⟩
        patch := p
        targetRelativeOffset :=
          PatchApplier.moved s'.targetRelativeOffset relative + UInt32.ofNat length } := by
      rw [PatchApplier.targetCopy, hread]
      show (if s'.target.size < s'.target.offset + UInt32.ofNat length then _ else _) = _
      rw [if_neg hfits₁, if_neg hfits₂, hsize, hf'.target, hcopy]
      rfl
    exact ⟨_, hcommand.trans hrun, { hf'' with
      target := by rw [length_repeated]
      targetOffset := hnext.trans (length_repeated _ _ _).symm
      targetCursor := hnext'
      targetCursor_le := hcursor }⟩

theorem bytes_ne_nil (action : Action) : action.bytes ≠ [] := by
  cases action with
  | sourceRead => exact Vuint.encode_ne_nil _
  | targetRead => exact List.append_ne_nil_of_left_ne_nil (Vuint.encode_ne_nil _) _
  | sourceCopy => exact List.append_ne_nil_of_left_ne_nil (Vuint.encode_ne_nil _) _
  | targetCopy => exact List.append_ne_nil_of_left_ne_nil (Vuint.encode_ne_nil _) _

theorem commands_follows {actions : List Action} {footer : List UInt8} {commandEnd : UInt32}
    {fuel : ℕ} (hcode : code.length ≤ 2 ^ 30) (hsource : code.take source.length = source)
    (hpatch : patch.length < 2 ^ 32) (htarget : targetSize ≤ code.length)
    (hend : commandEnd.toNat + footer.length = patch.length)
    (hf : Follows code patch targetSize s o (actions.flatMap Action.bytes ++ footer))
    (ho : Encodes source targetSize actions o o') (hlen : o'.data.length ≤ targetSize)
    (hfuel : (actions.flatMap Action.bytes).length < fuel) :
    ∃ s', PatchApplier.commands commandEnd fuel s = .ok s' ∧
      Follows code patch targetSize s' o' footer := by
  induction ho generalizing s fuel with
  | nil =>
    obtain ⟨fuel, rfl⟩ := Nat.exists_eq_succ_of_ne_zero (Nat.ne_zero_of_lt hfuel)
    have hrest : s.patch.rest.length = footer.length := congrArg List.length hf.rest
    rw [Stream.rest, List.length_drop, hf.patchData] at hrest
    have hdone : ¬ s.patch.offset < commandEnd := by
      rw [UInt32.lt_iff_toNat_lt]
      have := hf.patchOffset
      omega
    exact ⟨s, by rw [PatchApplier.commands, if_neg hdone], hf⟩
  | @cons action actions o o₁ o₂ head tail ih =>
    obtain ⟨fuel, rfl⟩ := Nat.exists_eq_succ_of_ne_zero (Nat.ne_zero_of_lt hfuel)
    rw [List.flatMap_cons, List.append_assoc] at hf
    rw [List.flatMap_cons, List.length_append] at hfuel
    have hpos := List.length_pos_iff.mpr (bytes_ne_nil action)
    have hrest := congrArg List.length hf.rest
    rw [Stream.rest, List.length_drop, hf.patchData, List.length_append, List.length_append] at hrest
    have hmore : s.patch.offset < commandEnd := by
      rw [UInt32.lt_iff_toNat_lt]
      omega
    obtain ⟨s₁, hcommand, hf₁⟩ := handleCommand_follows hcode hsource hpatch hf head htarget
      ((length_encodes tail).trans hlen)
    obtain ⟨s₂, hcommands, hf₂⟩ := ih hf₁ hlen
      (show (actions.flatMap Action.bytes).length < fuel by omega)
    refine ⟨s₂, ?_, hf₂⟩
    rw [PatchApplier.commands, if_pos hmore, hcommand]
    exact hcommands

end Simulation

namespace Stream

variable {s : Stream} {length : UInt32}

theorem read_append {data bytes : List UInt8} (hdata : s.data.length < 2 ^ 32)
    (hrest : s.rest = data ++ bytes) (hlength : length.toNat = data.length) (hpos : 0 < data.length) :
    ∃ s', s.read length = .ok (data, s') ∧ s'.data = s.data ∧
      s'.offset.toNat ≤ s.data.length ∧ s'.rest = bytes := by
  have hle : s.offset.toNat + length.toNat ≤ s.data.length := by
    have := congrArg List.length hrest
    rw [rest, List.length_drop, List.length_append] at this
    omega
  have hnext : (s.offset + length).toNat = s.offset.toNat + length.toNat := toNat_add (by omega)
  refine ⟨s.seek (s.offset + length), ?_, rfl,
    show (s.offset + length).toNat ≤ s.data.length by omega, ?_⟩
  · rw [read_ok hdata hle, hrest, hlength, List.take_left]
  · show s.data.drop (s.offset + length).toNat = bytes
    rw [hnext, ← List.drop_drop]
    show s.rest.drop _ = bytes
    rw [hrest, hlength, List.drop_left]

end Stream

variable {code source target checksum patch : List UInt8} {actions : List Action}

theorem readHeader_start (hpatch : patch.length < 2 ^ 32) {bytes : List UInt8}
    (hbytes : patch = PatchApplier.magic ++ (Vuint.encode source.length ++
      (Vuint.encode target.length ++ (Vuint.encode 0 ++ bytes))))
    (hcode : code.length < 2 ^ 32) (hsource : source.length ≤ code.length)
    (htarget : target.length ≤ code.length) :
    ∃ p : Stream, p.data = patch ∧ p.offset.toNat ≤ patch.length ∧ p.rest = bytes ∧
      (PatchApplier.start code patch).readHeader = .ok (UInt32.ofNat source.length,
        { PatchApplier.start code patch with
          patch := p, targetSize := UInt32.ofNat target.length }) := by
  obtain ⟨p₀, hread₀, hdata₀, hoffset₀, hrest₀⟩ := Stream.read_append
    (s := (PatchApplier.start code patch).patch) hpatch hbytes (show (4 : UInt32).toNat = _ from rfl)
    (by decide)
  replace hdata₀ : p₀.data = patch := hdata₀
  replace hoffset₀ : p₀.offset.toNat ≤ patch.length := hoffset₀
  obtain ⟨p₁, hread₁, hdata₁, hoffset₁, hrest₁⟩ :=
    Stream.readNumber_encode (hdata₀ ▸ hpatch) (hdata₀ ▸ hoffset₀) hrest₀
  rw [hdata₀] at hdata₁ hoffset₁
  obtain ⟨p₂, hread₂, hdata₂, hoffset₂, hrest₂⟩ :=
    Stream.readNumber_encode (hdata₁ ▸ hpatch) (hdata₁ ▸ hoffset₁) hrest₁
  rw [hdata₁] at hdata₂ hoffset₂
  obtain ⟨p₃, hread₃, hdata₃, hoffset₃, hrest₃⟩ :=
    Stream.readNumber_encode (hdata₂ ▸ hpatch) (hdata₂ ▸ hoffset₂) hrest₂
  rw [hdata₂] at hdata₃ hoffset₃
  refine ⟨p₃, hdata₃, hoffset₃, hrest₃, ?_⟩
  have hsizes : ∀ n, n ≤ code.length → ¬ UInt32.ofNat code.length < UInt32.ofNat n := by
    intro n hn
    rw [UInt32.lt_iff_toNat_lt, UInt32.toNat_ofNat_of_lt' hcode,
      UInt32.toNat_ofNat_of_lt' (show n < 2 ^ 32 by omega)]
    omega
  rw [PatchApplier.readHeader, hread₀]
  show (if PatchApplier.magic ≠ PatchApplier.magic then Except.error Stop.failed
    else p₀.readNumber >>= _) = _
  rw [if_neg (not_not.mpr rfl), hread₁]
  show (p₁.readNumber >>= _) = _
  rw [hread₂]
  show (p₂.readNumber >>= _) = _
  rw [hread₃]
  have haccepted : ¬ (UInt32.ofNat code.length < UInt32.ofNat source.length ∨
      UInt32.ofNat code.length < UInt32.ofNat target.length ∨ UInt32.ofNat 0 ≠ 0) := by
    rintro (hover | hover | hmetadata)
    · exact hsizes _ hsource hover
    · exact hsizes _ htarget hover
    · exact hmetadata rfl
  exact if_neg haccepted

theorem commandEnd_toNat {s : PatchApplier} (hpatch : s.patch.data.length < 2 ^ 32)
    (hlength : 12 ≤ s.patch.data.length) :
    s.commandEnd.toNat + 12 = s.patch.data.length := by
  have hsize := Stream.size_toNat hpatch
  have hle : PatchApplier.footerSize ≤ s.patch.size := by
    rw [UInt32.le_iff_toNat_le, hsize]
    exact hlength
  rw [PatchApplier.commandEnd, UInt32.toNat_sub_of_le _ _ hle, hsize]
  exact Nat.sub_add_cancel hlength

theorem readFooter_crc {s : PatchApplier} {sourceSize targetCrc32 : UInt32}
    (hpatch : s.patch.data.length < 2 ^ 32)
    (hlength : 12 ≤ s.patch.data.length)
    (hfooter : s.patch.data.drop (s.patch.data.length - 12) =
      le32Bytes (crc32 (s.source.data.take sourceSize.toNat)) ++
        (le32Bytes targetCrc32 ++ checksum)) :
    s.readFooter sourceSize = .ok (targetCrc32, { s with
      target := ⟨List.replicate s.target.data.length 0, s.target.offset⟩ }) := by
  have hend := commandEnd_toNat hpatch hlength
  have hrest : (s.patch.seek s.commandEnd).rest = le32Bytes (crc32 (s.source.data.take
      sourceSize.toNat)) ++ (le32Bytes targetCrc32 ++ checksum) := by
    rw [← hfooter]
    show s.patch.data.drop s.commandEnd.toNat = _
    congr 1
    omega
  obtain ⟨p₁, hread₁, hdata₁, hoffset₁, hrest₁⟩ :=
    Stream.read_append (s := s.patch.seek s.commandEnd) hpatch hrest
      (show (4 : UInt32).toNat = _ from rfl) (Nat.succ_pos 3)
  replace hdata₁ : p₁.data = s.patch.data := hdata₁
  obtain ⟨p₂, hread₂, hdata₂, -, -⟩ := Stream.read_append (hdata₁ ▸ hpatch) hrest₁
    (show (4 : UInt32).toNat = _ from rfl) (Nat.succ_pos 3)
  have hback : p₂.seek s.patch.offset = s.patch := by
    rw [Stream.seek, hdata₂, hdata₁]
  rw [PatchApplier.readFooter, hread₁]
  show (Stream.value (p₁.read 4) >>= _) = _
  rw [hread₂]
  show (if crc32 (s.source.data.take sourceSize.toNat) ≠ le32 (le32Bytes _)
    then Except.error Stop.failed else _) = _
  rw [le32_le32Bytes, if_neg (not_not.mpr rfl), le32_le32Bytes, hback]

/-- A patch that encodes the target leaves the target in the code, and zeros after it. And a number
is read back from its encoding. -/
theorem apply_patchBytes : (∀ (code source target checksum : List UInt8) (actions : List Action)
      (cursor cursor' : ℕ), code.length ≤ 2 ^ 30 → code.take source.length = source →
      target.length ≤ code.length → checksum.length = 4 →
      (patchBytes source target actions checksum).length < 2 ^ 32 →
      Encodes source target.length actions ⟨[], 0, 0⟩ ⟨target, cursor, cursor'⟩ →
      ∃ s, (PatchApplier.start code (patchBytes source target actions checksum)).apply = .ok s ∧
        s.target.data = target ++ List.replicate (code.length - target.length) 0 ∧
        s.targetSize.toNat = target.length) ∧
    (∀ (n : UInt32) (s : Stream) (bytes : List UInt8), s.data.length < 2 ^ 32 →
      s.offset.toNat ≤ s.data.length → s.rest = Vuint.encode n.toNat ++ bytes →
      ∃ s', s.readNumber = .ok (n, s') ∧ s'.data = s.data ∧ s'.rest = bytes) := by
  refine ⟨?_, ?_⟩
  · intro code source target checksum actions cursor cursor' hcode hsource htarget hchecksum hpatch
      hencodes
    have hsource_le : source.length ≤ code.length := by
      rw [← hsource, List.length_take]
      exact Nat.min_le_right _ _
    have hsize : ∀ n, n ≤ code.length → (UInt32.ofNat n).toNat = n := fun n hn =>
      UInt32.toNat_ofNat_of_lt' (show n < 2 ^ 32 by omega)
    obtain ⟨p, hdata, hoffset, hrest, hheader⟩ :=
      readHeader_start hpatch rfl (by omega) hsource_le htarget
    generalize patchBytes source target actions checksum = patch at hpatch hdata hoffset hheader ⊢
    rw [← crc32_eq, ← crc32_eq] at hrest
    have hlength : (actions.flatMap Action.bytes).length + 12 =
        patch.length - p.offset.toNat := by
      have hcount := congrArg List.length hrest
      rw [Stream.rest, List.length_drop, hdata] at hcount
      simp only [List.length_append, hchecksum, show ∀ n, (le32Bytes n).length = 4 from
        fun _ => rfl] at hcount
      omega
    have hfooter : patch.drop (patch.length - 12) =
        le32Bytes (crc32 source) ++ (le32Bytes (crc32 target) ++ checksum) := by
      have hsplit : patch.length - 12 =
          p.offset.toNat + (actions.flatMap Action.bytes).length := by omega
      rw [hsplit, ← List.drop_drop, ← hdata]
      show p.rest.drop _ = _
      rw [hrest, List.drop_left]
    have hfoot : (le32Bytes (crc32 source) ++ (le32Bytes (crc32 target) ++ checksum)).length =
        12 := by
      rw [List.length_append, List.length_append, hchecksum]
      rfl
    replace hheader : (PatchApplier.start code patch).readHeader = .ok (UInt32.ofNat source.length,
        ⟨⟨code, 0⟩, ⟨code, 0⟩, p, 0, 0, UInt32.ofNat target.length⟩) := hheader
    have hcrc : p.data.drop (p.data.length - 12) =
        le32Bytes (crc32 (code.take (UInt32.ofNat source.length).toNat)) ++
          (le32Bytes (crc32 target) ++ checksum) := by
      rw [hdata, hsize _ hsource_le, hsource, hfooter]
    have hlong : 12 ≤ p.data.length := by
      rw [hdata]
      omega
    have hread := readFooter_crc (s := ⟨⟨code, 0⟩, ⟨code, 0⟩, p, 0, 0, UInt32.ofNat target.length⟩)
      (hdata ▸ hpatch) hlong hcrc
    have hend := commandEnd_toNat (s := ⟨⟨code, 0⟩, ⟨List.replicate code.length 0, 0⟩, p, 0, 0,
      UInt32.ofNat target.length⟩) (hdata ▸ hpatch) hlong
    generalize hcleared : PatchApplier.mk ⟨code, 0⟩ ⟨List.replicate code.length 0, 0⟩ p 0 0
      (UInt32.ofNat target.length) = s₀ at hend
    have hstart : Follows code patch target.length s₀ ⟨[], 0, 0⟩ (actions.flatMap Action.bytes ++
        (le32Bytes (crc32 source) ++ (le32Bytes (crc32 target) ++ checksum))) := by
      rw [← hcleared]
      exact ⟨rfl, rfl, rfl, rfl, Nat.zero_le _, rfl, Nat.zero_le _, hdata, hoffset, hrest,
        hsize _ htarget⟩
    have hpatch₀ : s₀.patch.data = patch := hstart.patchData
    rw [hpatch₀] at hend
    have hfuel : (actions.flatMap Action.bytes).length < s₀.patch.data.length + 1 := by
      rw [hpatch₀]
      omega
    obtain ⟨s, hcommands, hf⟩ := commands_follows hcode hsource hpatch htarget
      (hfoot.symm ▸ hend) hstart hencodes le_rfl hfuel
    have happly : (PatchApplier.start code patch).apply =
        PatchApplier.commands s₀.commandEnd (s₀.patch.data.length + 1) s₀ >>= fun s =>
          if crc32 (s.target.data.take s.targetSize.toNat) = crc32 target then .ok s
          else .error .failed := by
      rw [PatchApplier.apply, hheader]
      show (PatchApplier.readFooter _ _ >>= _) = _
      rw [hread, ← hcleared]
      rfl
    refine ⟨s, ?_, hf.target, hf.size⟩
    rw [happly, hcommands]
    refine if_pos ?_
    rw [hf.target, hf.size, List.take_left]
  · intro n s bytes hdata hoffset hrest
    obtain ⟨s', hread, hdata', -, hrest'⟩ := Stream.readNumber_encode hdata hoffset hrest
    rw [UInt32.ofNat_toNat] at hread
    exact ⟨s', hread, hdata', hrest'⟩

/-- A run that is copied while it is put out. -/
theorem apply_patchBytes_run : ∃ s, (PatchApplier.start [5, 0, 0, 0] (patchBytes [5] [5, 5, 5]
    [.sourceRead 1, .targetCopy 2 false 0] [0, 0, 0, 0])).apply = .ok s ∧
      s.target.data = [5, 5, 5] ++ List.replicate 1 0 ∧ s.targetSize.toNat = 3 :=
  apply_patchBytes.1 [5, 0, 0, 0] [5] [5, 5, 5] [0, 0, 0, 0] _ 0 2 (by decide) rfl (by decide) rfl
    (by simp [patchBytes, Action.bytes, Vuint.encode, PatchApplier.magic, le32Bytes])
    (.cons (.sourceRead (by decide) (by decide)) (.cons (.targetCopy (by decide) rfl (by decide)) .nil))

end Presence3DS.Loader.Bps
