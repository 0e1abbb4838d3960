import Presence3DS.Gdb.Packets

/-! Which calls of `GDB_ReceivePacket` keep to the framing of the packets. -/

namespace Presence3DS.Gdb.Packets
open Buffer CString

/-- A call, with the bytes that the client sends from there on, of which so many are queued. -/
structure Call where
  ctx : PacketContext
  buffer : Bytes
  stream : Bytes
  queued : ℕ
  outcomes : Outcomes
  sized : buffer.length = bufferSize

def Call.run (lowLast : Bool) (c : Call) : Except Stop Received × Bytes :=
  result (gdbReceivePacket lowLast c.outcomes c.ctx c.stream) c.buffer

/-! ## The framing -/

def packet (payload : Bytes) (hi lo : UInt8) : Bytes := 0x24 :: payload ++ [0x23, hi, lo]

def IsChecksum (payload : Bytes) (hi lo : UInt8) : Prop :=
  ∃ x y, gdbDecodeHexDigit hi = some x ∧ gdbDecodeHexDigit lo = some y ∧
    gdbComputeChecksum payload = UInt8.ofNat (16 * x + y)

def IsPacket (p payload : Bytes) : Prop :=
  ∃ hi lo, p = packet payload hi lo ∧ 0x23 ∉ payload ∧ IsChecksum payload hi lo

/-- The payload is in its place, with a NUL behind it. -/
structure Leaves (payload : Bytes) (received : Received) (buffer : Bytes) : Prop where
  text : 0x24 :: payload ++ [0] <+: buffer
  commandEnd : received.ctx.commandEnd = payload.length + 1

/-- What a call is to do: it keeps to its buffer; it reports packets only, each with the bytes that
it consumes; it reports the packet that is queued whole (or, of a request to send again in front of
it, takes the request away); and it leads to no handler without command data. -/
structure Framed (lowLast : Bool) (c : Call) : Prop where
  inside : (c.run lowLast).1 ≠ .error .fault
  valid : ∀ received buffer, c.run lowLast = (.ok received, buffer) → IsReport received buffer →
    ∃ lead p payload, (lead = [] ∨ lead = [0x2B]) ∧ IsPacket p payload ∧
      c.stream = lead ++ p ++ received.stream ∧ Leaves payload received buffer
  delivered : ∀ lead p payload rest, c.stream = lead ++ p ++ rest →
    lead = [] ∨ lead = [0x2B] ∨ lead = [0x2D] → lead.length + p.length ≤ c.queued →
    IsPacket p payload → ∃ received buffer, c.run lowLast = (.ok received, buffer) ∧
      (IsReport received buffer ∧ Leaves payload received buffer ∧ received.stream = rest ∨
        received.r ≠ -1 ∧ lead = [0x2D] ∧ received.stream = p ++ rest)
  commanded : ∀ received buffer, c.run lowLast = (.ok received, buffer) →
    ∀ d ∈ gdbDispatch received buffer, d.2 ≠ none

/-! ## The condition -/

/-- The call looks at the bytes of a packet up to its `#`, behind a `+` if there is one. -/
def Sees (c : Call) (lead : Bytes) (size : ℕ) : Prop :=
  lead = [] ∧ (size + 2 : ℕ) ≤ c.outcomes.peek ∨
    lead = [0x2B] ∧ c.ctx.noAck = false ∧ 1 ≤ c.outcomes.peek ∧ 1 ≤ c.outcomes.plus ∧
      (size + 2 : ℕ) ≤ c.outcomes.peekAgain

/-- A packet, or what may be one, that the call finds at the front. -/
structure Shows (c : Call) (lead payload rest : Bytes) : Prop where
  stream : c.stream = lead ++ 0x24 :: payload ++ 0x23 :: rest
  first : 0x23 ∉ payload
  sees : Sees c lead payload.length
  room : payload.length + 2 ≤ bufferSize

/-- The bytes up to the second digit do not fit into the buffer, and come nevertheless. -/
def Overruns (o : Outcomes) (size : ℕ) (rest : Bytes) : Prop :=
  bufferSize < size + 4 ∧ bufferSize < size + 2 + rest.length ∧ (bufferSize : ℤ) < o.take

/-- The packet fits and comes whole, and it can be acknowledged. -/
structure Served (c : Call) (size : ℕ) : Prop where
  taken : (size + 4 : ℕ) ≤ c.outcomes.take
  fits : size + 4 ≤ bufferSize
  answered : c.ctx.noAck = true ∨ c.outcomes.sent = true

/-- The comparison of the checksums. -/
def acceptsChecksum (lowLast : Bool) (payload : Bytes) (hi lo : UInt8) : Bool :=
  (gdbDecodeHex lowLast 1 [hi, lo]).1 = 1 &&
    gdbComputeChecksum payload = (gdbDecodeHex lowLast 1 [hi, lo]).2.headD 0

/-- The verbose commands that are sent without a separator. -/
def bareVerbose : List Bytes := gdbVerboseCommandHandlers.map fun e => 0x76 :: e.1

structure WellServed (lowLast : Bool) (c : Call) : Prop where
  roomy : ∀ lead payload rest, Shows c lead payload rest →
    ¬Overruns c.outcomes payload.length rest
  digits : ∀ lead payload hi lo rest, Shows c lead payload (hi :: lo :: rest) →
    Served c payload.length → acceptsChecksum lowLast payload hi lo = true →
      (gdbDecodeHexDigit hi).isSome ∧ (gdbDecodeHexDigit lo).isSome
  served : ∀ lead p payload rest, c.stream = lead ++ p ++ rest →
    lead = [] ∨ lead = [0x2B] ∨ lead = [0x2D] → lead.length + p.length ≤ c.queued →
      IsPacket p payload → Sees c lead payload.length ∧ Served c payload.length
  separated : ∀ lead payload hi lo rest, Shows c lead payload (hi :: lo :: rest) →
    Served c payload.length → acceptsChecksum lowLast payload hi lo = true →
      str payload ∉ bareVerbose

/-! ## Checksums -/

theorem decodeHex_append (lowLast : Bool) (hi lo : UInt8) (rest : Bytes) :
    gdbDecodeHex lowLast 1 (hi :: lo :: rest) = gdbDecodeHex lowLast 1 [hi, lo] := by
  simp [gdbDecodeHex]

theorem digit_ne_zero {c : UInt8} {x : ℕ} (h : gdbDecodeHexDigit c = some x) : c ≠ 0 := by
  rintro rfl
  cases h

theorem acceptsChecksum_iff {lowLast : Bool} {payload : Bytes} {hi lo : UInt8} {x y : ℕ}
    (hx : gdbDecodeHexDigit hi = some x) (hy : gdbDecodeHexDigit lo = some y) :
    acceptsChecksum lowLast payload hi lo = true ↔
      gdbComputeChecksum payload = UInt8.ofNat (16 * x + y) := by
  have hplain : ¬(hi = 0 ∨ lo = 0) := not_or.mpr ⟨digit_ne_zero hx, digit_ne_zero hy⟩
  have hlast : (gdbDecodeHexDigit (if lowLast then lo else hi)).isSome = true := by
    split_ifs
    · rw [hy]
      rfl
    · rw [hx]
      rfl
  simp [acceptsChecksum, gdbDecodeHex, hplain, hlast, hx, hy]

theorem isChecksum_iff {lowLast : Bool} {payload : Bytes} {hi lo : UInt8} :
    IsChecksum payload hi lo ↔ acceptsChecksum lowLast payload hi lo = true ∧
      (gdbDecodeHexDigit hi).isSome ∧ (gdbDecodeHexDigit lo).isSome := by
  constructor
  · rintro ⟨x, y, hx, hy, hsum⟩
    exact ⟨(acceptsChecksum_iff hx hy).mpr hsum, by rw [hx]; rfl, by rw [hy]; rfl⟩
  · rintro ⟨haccepts, hhi, hlo⟩
    obtain ⟨x, hx⟩ := Option.isSome_iff_exists.mp hhi
    obtain ⟨y, hy⟩ := Option.isSome_iff_exists.mp hlo
    exact ⟨x, y, hx, hy, (acceptsChecksum_iff hx hy).mp haccepts⟩

/-! ## Receiving -/

theorem recv_snd (outcome : ℤ) (len : ℕ) (stream : Bytes) :
    (recv outcome len stream).2 = stream.take (min len outcome.toNat) := by
  unfold recv
  split_ifs with hneg
  · rw [Int.toNat_of_nonpos hneg.le, Nat.min_zero, List.take_zero]
  · rw [List.take_take, Nat.min_comm]

theorem recv_fst {outcome : ℤ} (h : 0 ≤ outcome) (len : ℕ) (stream : Bytes) :
    (recv outcome len stream).1 = (recv outcome len stream).2.length := by
  unfold recv
  rw [if_neg (not_lt.mpr h)]

theorem recv_neg {outcome : ℤ} (h : outcome < 0) (len : ℕ) (stream : Bytes) :
    recv outcome len stream = (outcome, []) := if_pos h

/-! ## A packet -/

section
variable {lowLast : Bool} {o : Outcomes} {ctx : PacketContext} {payload rest b : Bytes}

theorem takePacket_overruns (hb : b.length = bufferSize) (h : Overruns o payload.length rest) :
    (result (takePacket lowLast o ctx (0x24 :: payload ++ 0x23 :: rest) (payload.length + 1))
      b).1 = .error .fault := by
  obtain ⟨hsize, hrest, htake⟩ := h
  have hdata := recv_snd o.take (3 + (payload.length + 1)) (0x24 :: payload ++ 0x23 :: rest)
  have hlong : b.length < 0 + (recv o.take (3 + (payload.length + 1))
      (0x24 :: payload ++ 0x23 :: rest)).2.length := by
    rw [hdata, hb, List.length_take, List.length_append, List.length_cons, List.length_cons]
    omega
  rw [takePacket, result_bind_error (result_write_fault hlong)]

theorem recv_whole {outcome : ℤ} {stream : Bytes} {size : ℕ} (h : (size : ℤ) ≤ outcome)
    (hstream : size ≤ stream.length) :
    recv outcome size stream = ((size : ℤ), stream.take size) := by
  have hdata : (recv outcome size stream).2 = stream.take size := by
    rw [recv_snd, Nat.min_eq_left (by omega)]
  have hr := recv_fst (le_trans (Int.natCast_nonneg size) h) size stream
  rw [hdata, List.length_take, Nat.min_eq_left hstream] at hr
  exact Prod.ext hr hdata

theorem takePacket_short (hb : b.length = bufferSize) (h : ¬Overruns o payload.length rest)
    (hshort : rest.length < 2 ∨ o.take < (payload.length + 4 : ℕ)) :
    ∃ stream b', result (takePacket lowLast o ctx (0x24 :: payload ++ 0x23 :: rest)
      (payload.length + 1)) b = (.ok (packetError o ctx stream), b') := by
  have hdata := recv_snd o.take (3 + (payload.length + 1)) (0x24 :: payload ++ 0x23 :: rest)
  have hlength := congrArg List.length hdata
  rw [List.length_take, List.length_append, List.length_cons, List.length_cons] at hlength
  have hfits : 0 + (recv o.take (3 + (payload.length + 1))
      (0x24 :: payload ++ 0x23 :: rest)).2.length ≤ b.length := by
    unfold Overruns at h
    omega
  have hr : (recv o.take (3 + (payload.length + 1)) (0x24 :: payload ++ 0x23 :: rest)).1 ≠
      3 + ((payload.length + 1 : ℕ) : ℤ) := by
    rcases lt_or_ge o.take 0 with hneg | hpos
    · rw [recv_neg hneg]
      omega
    · rw [recv_fst hpos]
      omega
  rw [takePacket, result_bind_ok (result_write hfits), result_get_bind]
  dsimp only
  rw [if_pos (.inl hr)]
  exact ⟨_, _, rfl⟩

theorem takePacket_whole {hi lo : UInt8} (hb : b.length = bufferSize)
    (htake : (payload.length + 4 : ℕ) ≤ o.take) (hfits : payload.length + 4 ≤ bufferSize) :
    if acceptsChecksum lowLast payload hi lo then
      ∃ b', result (takePacket lowLast o ctx (0x24 :: payload ++ 0x23 :: hi :: lo :: rest)
          (payload.length + 1)) b =
        (.ok (acknowledge o { ctx with commandEnd := payload.length + 1 } (payload.length + 4)
          rest), b') ∧ 0x24 :: payload ++ [0] <+: b'
    else ∃ stream b', result (takePacket lowLast o ctx (0x24 :: payload ++ 0x23 :: hi :: lo :: rest)
      (payload.length + 1)) b = (.ok (packetError o ctx stream), b') := by
  have hlength : (packet payload hi lo).length = 3 + (payload.length + 1) := by
    rw [packet]
    simp only [List.length_append, List.length_cons, List.length_nil]
    omega
  have hstream : 0x24 :: payload ++ 0x23 :: hi :: lo :: rest = packet payload hi lo ++ rest := by
    simp [packet]
  have hrecv : recv o.take (3 + (payload.length + 1)) (packet payload hi lo ++ rest) =
      (((3 + (payload.length + 1) : ℕ) : ℤ), packet payload hi lo) := by
    rw [recv_whole (by omega) (by rw [List.length_append, hlength]; omega), ← hlength,
      List.take_left]
  have hwrite : result (write 0 (packet payload hi lo)) b =
      (.ok (), packet payload hi lo ++ b.drop (packet payload hi lo).length) := by
    rw [result_write (by rw [hlength, hb]; omega), splice, Nat.zero_add, List.take_zero,
      List.nil_append]
  have hdigits : (packet payload hi lo ++ b.drop (packet payload hi lo).length).drop
      (payload.length + 1 + 1) = hi :: lo :: b.drop (packet payload hi lo).length := by
    have hsplit : packet payload hi lo ++ b.drop (packet payload hi lo).length =
        (0x24 :: payload ++ [0x23]) ++ hi :: lo :: b.drop (packet payload hi lo).length := by
      simp only [packet, List.cons_append, List.append_assoc, List.nil_append]
    rw [hsplit]
    exact List.drop_left' (by simp)
  have hpayload : ((packet payload hi lo ++ b.drop (packet payload hi lo).length).drop 1).take
      (payload.length + 1 - 1) = payload := by
    rw [packet, List.cons_append, List.cons_append, List.drop_succ_cons, List.drop_zero,
      List.append_assoc, Nat.add_sub_cancel, List.take_left]
  rw [hstream, takePacket, hrecv]
  dsimp only
  rw [result_bind_ok hwrite, result_get_bind, List.drop_left, hdigits, decodeHex_append, hpayload]
  have hcount : ((3 + (payload.length + 1) : ℕ) : ℤ) = 3 + ((payload.length + 1 : ℕ) : ℤ) :=
    Nat.cast_add 3 (payload.length + 1)
  by_cases haccepts : acceptsChecksum lowLast payload hi lo = true
  · have hchecked := haccepts
    rw [acceptsChecksum, Bool.and_eq_true, decide_eq_true_eq, decide_eq_true_eq] at hchecked
    have hback : packet payload hi lo ++ b.drop (packet payload hi lo).length =
        (0x24 :: payload) ++ 0x23 :: hi :: lo :: b.drop (packet payload hi lo).length := by
      simp only [packet, List.cons_append, List.append_assoc, List.nil_append]
    have hnul : result (write (payload.length + 1) [0])
        ((0x24 :: payload) ++ 0x23 :: hi :: lo :: b.drop (packet payload hi lo).length) =
        (.ok (), 0x24 :: payload ++ [0] ++ hi :: lo :: b.drop (packet payload hi lo).length) := by
      have hfront : payload.length + 1 = ((0x24 : UInt8) :: payload).length := rfl
      rw [hfront, result_write (by simp), splice_append]
      rfl
    have hr : ((3 + (payload.length + 1) : ℕ) : ℤ) = (payload.length : ℤ) + 4 := by omega
    rw [if_pos haccepts, if_neg (not_or.mpr ⟨not_not.mpr hcount, not_not.mpr hchecked.1⟩),
      if_neg (not_not.mpr hchecked.2), hback, result_bind_ok hnul, hr]
    exact ⟨_, rfl, List.prefix_append _ _⟩
  · have hchecked := haccepts
    rw [acceptsChecksum, Bool.and_eq_true, decide_eq_true_eq, decide_eq_true_eq] at hchecked
    rw [if_neg haccepts]
    split_ifs with hdecoded hsum
    · exact ⟨_, _, rfl⟩
    · exact ⟨_, _, rfl⟩
    · exact absurd ⟨not_not.mp (not_or.mp hdecoded).2, not_not.mp hsum⟩ hchecked

end

/-! ## The front of the stream -/

theorem write_front {b data : Bytes} (h : data.length ≤ b.length) :
    result (write 0 data) b = (.ok (), data ++ b.drop data.length) := by
  rw [result_write (by omega), splice, Nat.zero_add, List.take_zero, List.nil_append]

/-- The buffer shows so many bytes of the stream. -/
structure Peeked (b s : Bytes) (n : ℕ) : Prop where
  size : b.length = bufferSize
  bytes : b.take n = s.take n
  fits : n ≤ bufferSize
  zero : n = 0 → b.headD 0 = 0

theorem Peeked.head {b s : Bytes} {n : ℕ} (h : Peeked b s n) (hn : 0 < n) :
    b.headD 0 = s.headD 0 := by
  obtain ⟨n, rfl⟩ := Nat.exists_eq_succ_of_ne_zero hn.ne'
  have hbytes := h.bytes
  cases b with
  | nil => cases s with
    | nil => rfl
    | cons y s => cases hbytes
  | cons x b => cases s with
    | nil => cases hbytes
    | cons y s => exact (List.cons.inj hbytes).1

theorem peeked_recv {b s : Bytes} (hb : b.length = bufferSize) (hzero : b.headD 0 = 0)
    (outcome : ℤ) : ∃ b', result (write 0 (recv outcome bufferSize s).2) b = (.ok (), b') ∧
      Peeked b' s (recv outcome bufferSize s).2.length ∧
      (recv outcome bufferSize s).2.length = min (min bufferSize outcome.toNat) s.length := by
  have hdata := recv_snd outcome bufferSize s
  have hlength : (recv outcome bufferSize s).2.length =
      min (min bufferSize outcome.toNat) s.length := by rw [hdata, List.length_take]
  have hfits : (recv outcome bufferSize s).2.length ≤ b.length := by omega
  refine ⟨_, write_front hfits, ⟨?_, ?_, hfits.trans_eq hb, fun hnone => ?_⟩, hlength⟩
  · rw [List.length_append, List.length_drop, Nat.add_sub_cancel' hfits, hb]
  · rw [List.take_left, hlength, hdata, List.take_eq_take_iff]
    omega
  · rw [List.length_eq_zero_iff.mp hnone]
    exact hzero

section
variable {lowLast : Bool} {o : Outcomes} {ctx : PacketContext} {backupbuf b s : Bytes} {n : ℕ}

theorem front_shows (h : Peeked b s n) {payload rest : Bytes}
    (hs : s = 0x24 :: payload ++ 0x23 :: rest) (hfirst : 0x23 ∉ payload)
    (hn : payload.length + 2 ≤ n) {r : ℤ} (hr : r.toNat = n) :
    result (handleFront lowLast o ctx backupbuf r s) b =
      result (takePacket lowLast o ctx s (payload.length + 1)) b := by
  have hmax : (min r bufferSize).toNat = n := by
    have hfits := h.fits
    omega
  have hhead : b.headD 0 = 0x24 := by rw [h.head (by omega), hs]; rfl
  have hplain : ∀ c ∈ 0x24 :: payload, decide (c ≠ 0x23) = true := by
    rintro c (_ | ⟨_, hc⟩)
    · rfl
    · exact decide_eq_true fun heq => hfirst (heq ▸ hc)
  have hpos : ((b.take n).takeWhile (· ≠ 0x23)).length = payload.length + 1 := by
    obtain ⟨m, hm⟩ := Nat.exists_eq_add_of_le hn
    have hsize : n = (0x24 :: payload).length + (1 + m) := by
      rw [List.length_cons]
      omega
    rw [h.bytes, hs, hsize, List.take_length_add_append, List.takeWhile_append_of_pos hplain,
      Nat.add_comm 1 m, List.take_succ_cons, List.takeWhile_cons_of_neg (by decide),
      List.append_nil, List.length_cons]
  rw [handleFront, result_get_bind]
  dsimp only
  rw [hmax, hpos, hhead, if_neg (by decide), if_pos rfl, if_neg (by omega)]

theorem not_mem_of_hidden (h : Peeked b s n) (hhead : b.headD 0 = 0x24)
    (hnone : ∀ payload rest, s = 0x24 :: payload ++ 0x23 :: rest → 0x23 ∉ payload →
      n < payload.length + 2) : 0x23 ∉ b.take n := by
  intro hmem
  have hn : 0 < n := by
    rw [Nat.pos_iff_ne_zero]
    intro hzero
    exact absurd ((h.zero hzero).symm.trans hhead) (by decide)
  rw [h.bytes] at hmem
  obtain ⟨front, back, hsplit, hfront⟩ := List.eq_append_cons_of_mem hmem
  have hlength := congrArg List.length hsplit
  have hall : s = front ++ 0x23 :: (back ++ s.drop n) := by
    rw [← List.cons_append, ← List.append_assoc, ← hsplit, List.take_append_drop]
  rw [h.head hn, hall] at hhead
  cases front with
  | nil =>
    change (0x23 : UInt8) = 0x24 at hhead
    exact absurd hhead (by decide)
  | cons c payload =>
    obtain rfl : c = 0x24 := hhead
    have hshort := hnone payload _ hall fun hmem => hfront (List.mem_cons_of_mem _ hmem)
    rw [List.length_take, List.length_append, List.length_cons, List.length_cons] at hlength
    omega

theorem break_other (h : Peeked b s n) (hhead : b.headD 0 = 0x03) : ∃ received b',
    result (takeBreak o ctx s) b = (.ok received, b') ∧ ¬IsReport received b' := by
  have hdata := recv_snd o.take 1 s
  have hfits : (recv o.take 1 s).2.length ≤ b.length := by
    rw [hdata, h.size, List.length_take, bufferSize]
    omega
  have hn : 0 < n := by
    rw [Nat.pos_iff_ne_zero]
    intro hzero
    exact absurd ((h.zero hzero).symm.trans hhead) (by decide)
  have hkept : ((recv o.take 1 s).2 ++ b.drop (recv o.take 1 s).2.length).headD 0 = 0x03 := by
    rw [h.head hn] at hhead
    obtain hnone | hone : min 1 o.take.toNat = 0 ∨ min 1 o.take.toNat = 1 := by omega
    · rw [hdata, hnone]
      exact (h.head hn).trans hhead
    · cases s with
      | nil => exact absurd hhead (by decide)
      | cons c s =>
        rw [hdata, hone]
        exact hhead
  rw [takeBreak, result_bind_ok (write_front hfits)]
  split_ifs
  · exact ⟨_, _, rfl, fun hreport => absurd (hkept.symm.trans hreport.2.2) (by decide)⟩
  · exact ⟨_, _, rfl, fun hreport => absurd (hkept.symm.trans hreport.2.2) (by decide)⟩

theorem front_other (h : Peeked b s n) (hnone : ∀ payload rest,
    s = 0x24 :: payload ++ 0x23 :: rest → 0x23 ∉ payload → n < payload.length + 2)
    {r : ℤ} (hr : r.toNat = n) :
    ∃ received b', result (handleFront lowLast o ctx backupbuf r s) b = (.ok received, b') ∧
      ¬IsReport received b' := by
  have hmax : (min r bufferSize).toNat = n := by
    have hfits := h.fits
    omega
  rw [handleFront, result_get_bind]
  dsimp only
  rw [hmax]
  by_cases hrequest : b.headD 0 = 0x2D
  · rw [if_pos hrequest]
    exact ⟨_, _, rfl, fun hreport => hreport.1 rfl⟩
  rw [if_neg hrequest]
  by_cases hdollar : b.headD 0 = 0x24
  · have hall : (b.take n).takeWhile (· ≠ 0x23) = b.take n := by
      rw [List.takeWhile_eq_self_iff]
      intro c hc
      exact decide_eq_true fun heq => not_mem_of_hidden h hdollar hnone (heq ▸ hc)
    have hlength : (b.take n).length = n := by
      rw [List.length_take, h.size]
      exact Nat.min_eq_left h.fits
    rw [if_pos hdollar, hall, if_pos hlength]
    exact ⟨_, _, rfl, fun hreport => hreport.2.1 rfl⟩
  rw [if_neg hdollar]
  split_ifs with hbreak
  · exact break_other h hbreak
  · exact ⟨_, _, rfl, fun hreport => hdollar hreport.2.2⟩

end

/-! ## A call -/

theorem split_first {a b s t : Bytes} (ha : 0x23 ∉ a) (hb : 0x23 ∉ b)
    (h : a ++ 0x23 :: s = b ++ 0x23 :: t) : a = b ∧ s = t := by
  have hwhile : ∀ {a : Bytes}, 0x23 ∉ a → ∀ s, (a ++ 0x23 :: s).takeWhile (· ≠ 0x23) = a := by
    intro a ha s
    have hplain : ∀ c ∈ a, decide (c ≠ 0x23) = true := by
      intro c hc
      apply decide_eq_true
      rintro rfl
      exact ha hc
    rw [List.takeWhile_append_of_pos hplain, List.takeWhile_cons_of_neg (by decide),
      List.append_nil]
  have heq : a = b := by rw [← hwhile ha s, h, hwhile hb t]
  subst heq
  exact ⟨rfl, (List.cons.inj (List.append_cancel_left h)).2⟩

theorem stream_unique {lead payload rest lead' payload' rest' : Bytes}
    (hlead : lead = [] ∨ lead = [0x2B]) (hlead' : lead' = [] ∨ lead' = [0x2B])
    (hfirst : 0x23 ∉ payload) (hfirst' : 0x23 ∉ payload')
    (h : lead ++ 0x24 :: payload ++ 0x23 :: rest = lead' ++ 0x24 :: payload' ++ 0x23 :: rest') :
    lead = lead' ∧ payload = payload' ∧ rest = rest' := by
  have hsame : lead = lead' := by
    rcases hlead with rfl | rfl <;> rcases hlead' with rfl | rfl
    · rfl
    · exact absurd (List.cons.inj h).1 (by decide)
    · exact absurd (List.cons.inj h).1 (by decide)
    · rfl
  subst hsame
  rw [List.append_assoc, List.append_assoc] at h
  have hpackets := (List.cons.inj (List.append_cancel_left h)).2
  obtain ⟨hpayload, hrest⟩ := split_first hfirst hfirst' hpackets
  exact ⟨rfl, hpayload, hrest⟩

theorem Shows.lead {c : Call} {lead payload rest : Bytes} (h : Shows c lead payload rest) :
    lead = [] ∨ lead = [0x2B] := h.sees.imp And.left And.left

section
variable (lowLast : Bool) (c : Call)

theorem run_peek : ∃ b, Peeked b c.stream (recv c.outcomes.peek bufferSize c.stream).2.length ∧
    (recv c.outcomes.peek bufferSize c.stream).2.length =
      min (min bufferSize c.outcomes.peek.toNat) c.stream.length ∧
    c.run lowLast = result (
      if (recv c.outcomes.peek bufferSize c.stream).1 < 1 then
        pure ⟨-1, c.ctx, c.stream, []⟩
      else if b.headD 0 = 0x2B then
        handlePlus lowLast c.outcomes c.ctx (c.buffer.take c.ctx.latestSentPacketSize) c.stream
      else
        handleFront lowLast c.outcomes c.ctx (c.buffer.take c.ctx.latestSentPacketSize)
          (recv c.outcomes.peek bufferSize c.stream).1 c.stream) b := by
  have hzeros : (List.replicate bufferSize (0 : UInt8)).length = bufferSize :=
    List.length_replicate ..
  have hclear : result (memset 0 0 bufferSize) c.buffer =
      (.ok (), List.replicate bufferSize 0) := by
    have hfits : (List.replicate bufferSize (0 : UInt8)).length ≤ c.buffer.length := by
      rw [hzeros, c.sized]
    rw [memset, write_front hfits, List.drop_of_length_le (by rw [hzeros, c.sized]),
      List.append_nil]
  obtain ⟨b, hwrite, hpeeked, hlength⟩ := @peeked_recv _ c.stream hzeros rfl c.outcomes.peek
  refine ⟨b, hpeeked, hlength, ?_⟩
  rw [Call.run, gdbReceivePacket, result_get_bind, result_bind_ok hclear]
  dsimp only
  rw [result_bind_ok hwrite]
  rfl

end

theorem front_cases {lowLast : Bool} {o : Outcomes} {ctx : PacketContext} {backupbuf b s : Bytes}
    {n : ℕ} (h : Peeked b s n) {r : ℤ} (hr : r.toNat = n) :
    (∃ payload rest, s = 0x24 :: payload ++ 0x23 :: rest ∧ 0x23 ∉ payload ∧
      payload.length + 2 ≤ n ∧ result (handleFront lowLast o ctx backupbuf r s) b =
        result (takePacket lowLast o ctx s (payload.length + 1)) b) ∨
    (∃ received b', result (handleFront lowLast o ctx backupbuf r s) b = (.ok received, b') ∧
      ¬IsReport received b') ∧
      ∀ payload rest, s = 0x24 :: payload ++ 0x23 :: rest → 0x23 ∉ payload →
        n < payload.length + 2 := by
  by_cases hshows : ∃ payload rest, s = 0x24 :: payload ++ 0x23 :: rest ∧ 0x23 ∉ payload ∧
      payload.length + 2 ≤ n
  · obtain ⟨payload, rest, hs, hfirst, hn⟩ := hshows
    exact .inl ⟨payload, rest, hs, hfirst, hn, front_shows h hs hfirst hn hr⟩
  · have hnone : ∀ payload rest, s = 0x24 :: payload ++ 0x23 :: rest → 0x23 ∉ payload →
        n < payload.length + 2 := fun payload rest hs hfirst =>
      Nat.lt_of_not_le fun hn => hshows ⟨payload, rest, hs, hfirst, hn⟩
    exact .inr ⟨front_other h hnone hr, hnone⟩

theorem packetError_other (o : Outcomes) (ctx : PacketContext) (stream b : Bytes) :
    ¬IsReport (packetError o ctx stream) b := by
  unfold packetError
  split_ifs
  · exact fun h => h.2.1 rfl
  · exact fun h => h.1 rfl
  · exact fun h => h.2.1 rfl

theorem plus_cases {lowLast : Bool} {o : Outcomes} {ctx : PacketContext} {backupbuf b : Bytes}
    (s : Bytes) (hb : b.length = bufferSize) :
    (∃ payload rest b', s = 0x24 :: payload ++ 0x23 :: rest ∧ 0x23 ∉ payload ∧
      (ctx.noAck = false ∧ 1 ≤ o.plus ∧ (payload.length + 2 : ℕ) ≤ o.peekAgain) ∧
      payload.length + 2 ≤ bufferSize ∧ b'.length = bufferSize ∧
      result (handlePlus lowLast o ctx backupbuf (0x2B :: s)) b =
        result (takePacket lowLast o ctx s (payload.length + 1)) b') ∨
    (∃ received b', result (handlePlus lowLast o ctx backupbuf (0x2B :: s)) b =
        (.ok received, b') ∧ ¬IsReport received b') ∧
      ∀ payload rest, s = 0x24 :: payload ++ 0x23 :: rest → 0x23 ∉ payload →
        ctx.noAck = false → 1 ≤ o.plus → (payload.length + 2 : ℕ) ≤ o.peekAgain →
          bufferSize < payload.length + 2 := by
  unfold handlePlus
  by_cases hnoAck : ctx.noAck = true
  · rw [if_pos hnoAck]
    refine .inr ⟨⟨_, _, rfl, fun h => h.2.1 rfl⟩, fun _ _ _ _ hack => ?_⟩
    exact absurd (hack.symm.trans hnoAck) Bool.false_ne_true
  rw [if_neg hnoAck]
  by_cases hplus : o.plus < 1
  · have hdata : (recv o.plus 1 (0x2B :: s)).2 = [] := by
      rw [recv_snd, Int.toNat_of_nonpos (by omega), Nat.min_zero, List.take_zero]
    have hr : (recv o.plus 1 (0x2B :: s)).1 ≠ 1 := by
      rcases lt_or_ge o.plus 0 with hneg | hpos
      · rw [recv_neg hneg]
        omega
      · rw [recv_fst hpos, hdata]
        decide
    rw [result_bind_ok (write_front (by rw [hdata]; exact Nat.zero_le _)), if_pos hr]
    exact .inr ⟨⟨_, _, rfl, fun h => h.2.1 rfl⟩, fun _ _ _ _ _ hpositive => by omega⟩
  have hrecv : recv o.plus 1 (0x2B :: s) = ((1 : ℤ), [0x2B]) :=
    recv_whole (by omega) (by rw [List.length_cons]; omega)
  have hconsume : result (write 0 [0x2B]) b = (.ok (), [0x2B] ++ b.drop 1) :=
    write_front (by rw [hb]; decide)
  have hclear : result (write 0 [0]) ([0x2B] ++ b.drop 1) = (.ok (), [0] ++ b.drop 1) :=
    write_front (by simp)
  have hsize : ([0] ++ b.drop 1).length = bufferSize := by
    rw [List.length_append, List.length_drop, hb]
    rfl
  obtain ⟨b', hwrite, hpeeked, hlength⟩ := @peeked_recv _ s hsize rfl o.peekAgain
  rw [hrecv]
  dsimp only
  rw [result_bind_ok hconsume, if_neg (by decide), result_bind_ok hclear, List.length_singleton,
    List.drop_one, List.tail_cons, result_bind_ok hwrite]
  by_cases hfailed : (recv o.peekAgain bufferSize s).1 = -1
  · rw [if_pos hfailed]
    refine .inr ⟨⟨_, _, rfl, packetError_other _ _ _ _⟩, fun payload rest _ _ _ _ hagain => ?_⟩
    rw [recv_fst (by omega)] at hfailed
    omega
  · rw [if_neg hfailed]
    have hr : (recv o.peekAgain bufferSize s).1.toNat =
        (recv o.peekAgain bufferSize s).2.length := by
      rcases lt_or_ge o.peekAgain 0 with hneg | hpos
      · rw [recv_neg hneg]
        exact Int.toNat_of_nonpos hneg.le
      · rw [recv_fst hpos]
        rfl
    rcases @front_cases lowLast o ctx backupbuf _ _ _ hpeeked _ hr with
      ⟨payload, rest, hs, hfirst, hn, hrun⟩ | ⟨hother, hnone⟩
    · rw [hlength] at hn
      exact .inl ⟨payload, rest, b', hs, hfirst,
        ⟨Bool.eq_false_iff.mpr hnoAck, by omega, by omega⟩, by omega, hpeeked.size, hrun⟩
    · refine .inr ⟨hother, fun payload rest hs hfirst _ _ hagain => ?_⟩
      have hn := hnone payload rest hs hfirst
      rw [hlength, hs, List.length_append, List.length_cons, List.length_cons] at hn
      omega

theorem run_cases (lowLast : Bool) (c : Call) :
    (∃ lead payload rest b, Shows c lead payload rest ∧ b.length = bufferSize ∧
      c.run lowLast = result (takePacket lowLast c.outcomes c.ctx
        (0x24 :: payload ++ 0x23 :: rest) (payload.length + 1)) b) ∨
    (∃ received b, c.run lowLast = (.ok received, b) ∧ ¬IsReport received b) ∧
      ∀ lead payload rest, ¬Shows c lead payload rest := by
  obtain ⟨b, hpeeked, hlength, hrun⟩ := run_peek lowLast c
  by_cases hpeek : c.outcomes.peek < 1 ∨ c.stream = []
  · have hnone : (recv c.outcomes.peek bufferSize c.stream).1 < 1 := by
      rcases lt_or_ge c.outcomes.peek 0 with hneg | hpos
      · rw [recv_neg hneg]
        omega
      · rw [recv_fst hpos, hlength]
        rcases hpeek with hzero | hempty
        · omega
        · rw [hempty, List.length_nil]
          omega
    rw [if_pos hnone] at hrun
    refine .inr ⟨⟨_, b, hrun, fun h => h.2.1 rfl⟩, fun lead payload rest h => ?_⟩
    rcases hpeek with hzero | hempty
    · rcases h.sees with ⟨-, hsees⟩ | ⟨-, -, hsees, -⟩
      · omega
      · omega
    · have hstream := h.stream
      rw [hempty] at hstream
      simp at hstream
  obtain ⟨hpositive, hne⟩ := not_or.mp hpeek
  obtain ⟨x, s, hstream⟩ := List.exists_cons_of_ne_nil hne
  have hr := recv_fst (show 0 ≤ c.outcomes.peek by omega) bufferSize c.stream
  have hcount : 0 < (recv c.outcomes.peek bufferSize c.stream).2.length := by
    rw [hlength, hstream, List.length_cons, bufferSize]
    omega
  have hhead := hpeeked.head hcount
  rw [hr, if_neg (by omega)] at hrun
  have hfirst : b.headD 0 = x := by rw [hhead, hstream]; rfl
  by_cases hplus : x = 0x2B
  · subst hplus
    rw [if_pos hfirst, hstream] at hrun
    rcases @plus_cases lowLast c.outcomes c.ctx (c.buffer.take c.ctx.latestSentPacketSize) b s
      hpeeked.size with ⟨payload, rest, b', hs, hpayload, hsees, hroom, hb', htake⟩ |
        ⟨⟨received, b', hother, hreport⟩, hnone⟩
    · left
      refine ⟨[0x2B], payload, rest, b', ⟨?_, hpayload, .inr ⟨rfl, hsees.1, ?_, hsees.2⟩, hroom⟩,
        hb', ?_⟩
      · rw [hstream, hs]
        rfl
      · omega
      · rw [hrun, htake, hs]
    · right
      refine ⟨⟨received, b', hrun.trans hother, hreport⟩, fun lead payload rest h => ?_⟩
      have hroom := h.room
      have heq := h.stream
      rw [hstream] at heq
      rcases h.sees with ⟨rfl, -⟩ | ⟨rfl, hack, -, hplus, hagain⟩
      · exact absurd (List.cons.inj heq).1 (by decide)
      · exact absurd (hnone payload rest (List.cons.inj heq).2 h.first hack hplus hagain)
          (Nat.not_lt.mpr hroom)
  · rw [if_neg (by rw [hfirst]; exact hplus)] at hrun
    rcases @front_cases lowLast c.outcomes c.ctx (c.buffer.take c.ctx.latestSentPacketSize) _ _ _
      hpeeked _ (Int.toNat_natCast _) with ⟨payload, rest, hs, hpayload, hn, htake⟩ |
        ⟨⟨received, b', hother, hreport⟩, hnone⟩
    · rw [hlength] at hn
      left
      refine ⟨[], payload, rest, b, ⟨hs, hpayload, .inl ⟨rfl, ?_⟩, ?_⟩, hpeeked.size, ?_⟩
      · omega
      · omega
      · rw [hrun, htake, hs]
    · right
      refine ⟨⟨received, b', hrun.trans hother, hreport⟩, fun lead payload rest h => ?_⟩
      have hroom := h.room
      have heq := h.stream
      rcases h.sees with ⟨rfl, hsees⟩ | ⟨rfl, -⟩
      · have hn := hnone payload rest heq h.first
        rw [hlength, heq] at hn
        simp only [List.length_append, List.length_cons, List.length_nil] at hn
        omega
      · rw [hstream] at heq
        exact hplus (List.cons.inj heq).1

/-! ## Reports -/

theorem takePacket_cases {lowLast : Bool} {o : Outcomes} {ctx : PacketContext}
    {payload rest b : Bytes} (hb : b.length = bufferSize) (h : ¬Overruns o payload.length rest) :
    (∃ hi lo rest', rest = hi :: lo :: rest' ∧ (payload.length + 4 : ℕ) ≤ o.take ∧
      payload.length + 4 ≤ bufferSize ∧ acceptsChecksum lowLast payload hi lo = true ∧
      ∃ b', result (takePacket lowLast o ctx (0x24 :: payload ++ 0x23 :: rest)
          (payload.length + 1)) b =
        (.ok (acknowledge o { ctx with commandEnd := payload.length + 1 } (payload.length + 4)
          rest'), b') ∧ 0x24 :: payload ++ [0] <+: b') ∨
    ∃ stream b', result (takePacket lowLast o ctx (0x24 :: payload ++ 0x23 :: rest)
      (payload.length + 1)) b = (.ok (packetError o ctx stream), b') := by
  by_cases hshort : rest.length < 2 ∨ o.take < (payload.length + 4 : ℕ)
  · exact .inr (takePacket_short hb h hshort)
  obtain ⟨hlength, htake⟩ := not_or.mp hshort
  obtain ⟨hi, lo, rest, rfl⟩ : ∃ hi lo rest', rest = hi :: lo :: rest' := by
    rcases rest with _ | ⟨hi, _ | ⟨lo, rest⟩⟩
    · exact absurd Nat.zero_lt_two hlength
    · exact absurd Nat.one_lt_two hlength
    · exact ⟨hi, lo, rest, rfl⟩
  have hfits : payload.length + 4 ≤ bufferSize := by
    by_contra hlong
    refine h ⟨Nat.lt_of_not_le hlong, ?_, by omega⟩
    rw [List.length_cons, List.length_cons]
    omega
  have hwhole := @takePacket_whole lowLast o ctx payload rest b hi lo hb (not_lt.mp htake) hfits
  split_ifs at hwhole with haccepts
  · exact .inl ⟨hi, lo, rest, rfl, not_lt.mp htake, hfits, haccepts, hwhole⟩
  · exact .inr hwhole

section
variable {lowLast : Bool} {c : Call} {lead payload rest : Bytes}

theorem run_of_shows (h : Shows c lead payload rest) : ∃ b, b.length = bufferSize ∧
    c.run lowLast = result (takePacket lowLast c.outcomes c.ctx
      (0x24 :: payload ++ 0x23 :: rest) (payload.length + 1)) b := by
  rcases run_cases lowLast c with ⟨lead', payload', rest', b, hshows, hb, hrun⟩ | ⟨-, hnone⟩
  · obtain ⟨-, rfl, rfl⟩ := stream_unique h.lead hshows.lead h.first hshows.first
      (h.stream.symm.trans hshows.stream)
    exact ⟨b, hb, hrun⟩
  · exact absurd h (hnone _ _ _)

theorem fault_iff : (c.run lowLast).1 = .error .fault ↔
    ∃ lead payload rest, Shows c lead payload rest ∧ Overruns c.outcomes payload.length rest := by
  constructor
  · intro hfault
    rcases run_cases lowLast c with ⟨lead, payload, rest, b, hshows, hb, hrun⟩ |
      ⟨⟨received, b, hrun, -⟩, -⟩
    · by_contra hnone
      have hroomy : ¬Overruns c.outcomes payload.length rest := fun h =>
        hnone ⟨lead, payload, rest, hshows, h⟩
      rcases @takePacket_cases lowLast c.outcomes c.ctx payload rest b hb hroomy with
        ⟨hi, lo, rest', -, -, -, -, b', htake, -⟩ | ⟨stream, b', htake⟩
      · rw [hrun, htake] at hfault
        cases hfault
      · rw [hrun, htake] at hfault
        cases hfault
    · rw [hrun] at hfault
      cases hfault
  · rintro ⟨lead, payload, rest, hshows, hoverruns⟩
    obtain ⟨b, hb, hrun⟩ := @run_of_shows lowLast c _ _ _ hshows
    rw [hrun]
    exact takePacket_overruns hb hoverruns

theorem acknowledge_sent {o : Outcomes} {ctx : PacketContext} {r : ℤ} {stream : Bytes}
    (h : ctx.noAck = true ∨ o.sent = true) :
    (acknowledge o ctx r stream).r = r ∧ (acknowledge o ctx r stream).stream = stream ∧
      (acknowledge o ctx r stream).ctx.commandEnd = ctx.commandEnd := by
  have hsent : ¬(!ctx.noAck && !o.sent) = true := by
    rcases h with h | h
    · rw [h, Bool.not_true, Bool.false_and]
      exact Bool.false_ne_true
    · rw [h, Bool.not_true, Bool.and_false]
      exact Bool.false_ne_true
  unfold acknowledge
  rw [if_neg hsent]
  refine ⟨rfl, rfl, ?_⟩
  dsimp only
  split_ifs <;> rfl

theorem acknowledge_unsent {o : Outcomes} {ctx : PacketContext} (r : ℤ) (stream : Bytes)
    (h : ¬(ctx.noAck = true ∨ o.sent = true)) : (acknowledge o ctx r stream).r = -1 := by
  obtain ⟨hack, hsent⟩ := not_or.mp h
  rw [acknowledge, if_pos]
  rw [Bool.eq_false_iff.mpr hack, Bool.eq_false_iff.mpr hsent]
  rfl

theorem report_of_served {hi lo : UInt8} (hshows : Shows c lead payload (hi :: lo :: rest))
    (hserved : Served c payload.length) (haccepts : acceptsChecksum lowLast payload hi lo = true) :
    ∃ received b, c.run lowLast = (.ok received, b) ∧ IsReport received b ∧
      Leaves payload received b ∧ received.stream = rest := by
  obtain ⟨b, hb, hrun⟩ := @run_of_shows lowLast c _ _ _ hshows
  have hwhole := @takePacket_whole lowLast c.outcomes c.ctx payload rest b hi lo hb hserved.taken
    hserved.fits
  rw [if_pos haccepts] at hwhole
  obtain ⟨b', htake, htext⟩ := hwhole
  obtain ⟨hr, hstream, hend⟩ := @acknowledge_sent c.outcomes
    { c.ctx with commandEnd := payload.length + 1 } (payload.length + 4) rest hserved.answered
  refine ⟨_, b', hrun.trans htake, ⟨?_, ?_, ?_⟩, ⟨htext, hend⟩, hstream⟩
  · rw [hr]
    omega
  · rw [hr]
    omega
  · obtain ⟨back, rfl⟩ := htext
    rfl

theorem served_of_report {received : Received} {b : Bytes}
    (hrun : c.run lowLast = (.ok received, b)) (hreport : IsReport received b) :
    ∃ lead payload hi lo rest, Shows c lead payload (hi :: lo :: rest) ∧
      Served c payload.length ∧ acceptsChecksum lowLast payload hi lo = true := by
  rcases run_cases lowLast c with ⟨lead, payload, rest, b₀, hshows, hb, htake⟩ |
    ⟨⟨received', b', hother, hreport'⟩, -⟩
  · have hroomy : ¬Overruns c.outcomes payload.length rest := by
      intro hoverruns
      have hfault := (@fault_iff lowLast c).mpr ⟨lead, payload, rest, hshows, hoverruns⟩
      rw [hrun] at hfault
      cases hfault
    rcases @takePacket_cases lowLast c.outcomes c.ctx payload rest b₀ hb hroomy with
      ⟨hi, lo, rest', rfl, htaken, hfits, haccepts, b', hresult, -⟩ | ⟨stream, b', hresult⟩
    · refine ⟨lead, payload, hi, lo, rest', hshows, ⟨htaken, hfits, ?_⟩, haccepts⟩
      by_contra hunsent
      rw [htake, hresult] at hrun
      cases hrun
      exact hreport.2.1 (acknowledge_unsent _ _ hunsent)
    · rw [htake, hresult] at hrun
      cases hrun
      exact absurd hreport (packetError_other _ _ _ _)
  · rw [hother] at hrun
    cases hrun
    exact absurd hreport hreport'

theorem request_kept {s : Bytes} (h : c.stream = 0x2D :: s) :
    ∃ received b, c.run lowLast = (.ok received, b) ∧
      (received.r = -1 ∨ received.r = 0 ∧ received.stream = c.stream) := by
  obtain ⟨b, hpeeked, hlength, hrun⟩ := run_peek lowLast c
  by_cases hnone : (recv c.outcomes.peek bufferSize c.stream).1 < 1
  · rw [if_pos hnone] at hrun
    exact ⟨_, b, hrun, .inl rfl⟩
  · have hpositive : 0 < (recv c.outcomes.peek bufferSize c.stream).2.length := by
      rcases lt_or_ge c.outcomes.peek 0 with hneg | hpos
      · rw [recv_neg hneg] at hnone
        exact absurd (by omega) hnone
      · rw [recv_fst hpos] at hnone
        omega
    have hhead : b.headD 0 = 0x2D := by
      rw [hpeeked.head hpositive, h]
      rfl
    rw [if_neg hnone, hhead, if_neg (by decide), handleFront, result_get_bind] at hrun
    dsimp only at hrun
    rw [if_pos hhead] at hrun
    exact ⟨_, b, hrun, .inr ⟨rfl, rfl⟩⟩

end

/-! ## Command data -/

theorem str_append_cons (s t : Bytes) : str (s ++ 0 :: t) = str s := by
  induction s with
  | nil => rfl
  | cons c s ih => rw [List.cons_append, str_cons, str_cons, ih]

theorem gdbGetCommandHandler_verbose (command : UInt8) :
    gdbGetCommandHandler command = .verboseCommand ↔ command = 0x76 := by
  constructor
  · intro h
    have hentry : ∀ e ∈ gdbCommandHandlers, e.2 = .verboseCommand → e.1.toUInt8 = 0x76 := by decide
    unfold gdbGetCommandHandler at h
    cases hfind : gdbCommandHandlers.find? fun e => e.1.toUInt8 = command with
    | none =>
      rw [hfind] at h
      cases h
    | some e =>
      rw [hfind] at h
      have hcommand := List.find?_some hfind
      rw [← of_decide_eq_true hcommand]
      exact hentry e (List.mem_of_find?_eq_some hfind) h
  · rintro rfl
    rfl

theorem gdbHandleQuery_data (direction : QueryDirection) (b : Bytes) :
    ∀ d ∈ gdbHandleQuery direction b, d.2 ≠ none := by
  unfold gdbHandleQuery
  dsimp only
  split_ifs
  · exact fun d hd => absurd hd List.not_mem_nil
  all_goals
    split
    all_goals
      intro d hd
      rw [List.mem_singleton.mp hd]
      exact Option.some_ne_none _

theorem verboseNames_plain : ∀ name ∈ gdbVerboseCommandHandlers.map (·.1), name ≠ [] ∧
    (name.takeWhile fun c => c ≠ 0x3B ∧ c ≠ 0x3A) = name ∧
    (gdbVerboseCommandHandlers.find? fun e => e.1 = name).isSome = true := by decide

theorem gdbHandleVerboseCommand_data (b : Bytes) :
    (∃ d ∈ gdbHandleVerboseCommand b, d.2 = none) ↔
      str (b.drop 2) ∈ gdbVerboseCommandHandlers.map (·.1) := by
  unfold gdbHandleVerboseCommand
  dsimp only
  constructor
  · rintro ⟨d, hd, hdata⟩
    by_cases hempty : str (b.drop 2) = []
    · rw [if_pos hempty] at hd
      exact absurd hd List.not_mem_nil
    rw [if_neg hempty] at hd
    by_cases hseparated : ((str (b.drop 2)).takeWhile fun c => c ≠ 0x3B ∧ c ≠ 0x3A).length <
        (str (b.drop 2)).length
    · rw [if_pos hseparated] at hd
      split at hd
      · rw [List.mem_singleton.mp hd] at hdata
        exact absurd hdata (Option.some_ne_none _)
      · rw [List.mem_singleton.mp hd] at hdata
        exact absurd hdata (Option.some_ne_none _)
    · have hall : ((str (b.drop 2)).takeWhile fun c => c ≠ 0x3B ∧ c ≠ 0x3A) = str (b.drop 2) :=
        (List.takeWhile_prefix _).eq_of_length_le (Nat.not_lt.mp hseparated)
      rw [if_neg hseparated, hall] at hd
      split at hd
      · next e he =>
        have hname := List.find?_some he
        rw [decide_eq_true_eq] at hname
        exact List.mem_map.mpr ⟨e, List.mem_of_find?_eq_some he, hname⟩
      · rw [List.mem_singleton.mp hd] at hdata
        exact absurd hdata (Option.some_ne_none _)
  · intro hmem
    obtain ⟨hne, hwhile, hfound⟩ := verboseNames_plain _ hmem
    obtain ⟨e, he⟩ := Option.isSome_iff_exists.mp hfound
    rw [if_neg hne, hwhile, if_neg (Nat.lt_irrefl _), he]
    exact ⟨_, List.mem_singleton_self _, rfl⟩

theorem innerDispatches_data {handler : CommandHandler} (h : handler ≠ .verboseCommand)
    (b : Bytes) : ∀ d ∈ innerDispatches handler b, d.2 ≠ none := by
  unfold innerDispatches
  split
  · exact absurd rfl h
  · exact gdbHandleQuery_data _ _
  · exact gdbHandleQuery_data _ _
  · exact fun d hd => absurd hd List.not_mem_nil

theorem mem_bareVerbose {command : UInt8} {args : Bytes} : command :: args ∈ bareVerbose ↔
    command = 0x76 ∧ args ∈ gdbVerboseCommandHandlers.map (·.1) := by
  rw [bareVerbose, List.mem_map, List.mem_map]
  constructor
  · rintro ⟨e, he, heq⟩
    obtain ⟨rfl, rfl⟩ := List.cons.inj heq
    exact ⟨rfl, e, he, rfl⟩
  · rintro ⟨rfl, e, he, rfl⟩
    exact ⟨e, he, rfl⟩

theorem gdbDispatch_data {payload b : Bytes} {received : Received} (hreport : IsReport received b)
    (h : 0x24 :: payload ++ [0] <+: b) :
    (∃ d ∈ gdbDispatch received b, d.2 = none) ↔ str payload ∈ bareVerbose := by
  obtain ⟨tail, rfl⟩ := h
  rw [gdbDispatch, if_pos hreport]
  dsimp only
  have hfirst : ∀ handler : CommandHandler, ¬((handler, some 2) : Dispatch).2 = none := fun _ =>
    Option.some_ne_none _
  rw [List.exists_mem_cons_iff, or_iff_right (hfirst _)]
  cases payload with
  | nil =>
    have hhandler : gdbGetCommandHandler ((0x24 :: [] ++ [0] ++ tail).getD 1 0) = .unsupported := by
      show gdbGetCommandHandler 0 = .unsupported
      decide
    rw [hhandler]
    exact iff_of_false (fun ⟨d, hd, _⟩ => List.not_mem_nil hd) (by decide)
  | cons command args =>
    have hargs : str ((0x24 :: command :: args ++ [0] ++ tail).drop 2) = str args := by
      rw [List.append_assoc]
      exact str_append_cons args tail
    have hcommand : (0x24 :: command :: args ++ [0] ++ tail).getD 1 0 = command := rfl
    rw [hcommand]
    by_cases hverbose : command = 0x76
    · have hhandler := (gdbGetCommandHandler_verbose command).mpr hverbose
      subst hverbose
      rw [hhandler, str_cons, if_neg (by decide), mem_bareVerbose]
      show (∃ d ∈ gdbHandleVerboseCommand _, d.2 = none) ↔ _
      rw [gdbHandleVerboseCommand_data, hargs]
      exact (and_iff_right rfl).symm
    · have hhandler := mt (gdbGetCommandHandler_verbose command).mp hverbose
      refine iff_of_false (fun ⟨d, hd, hdata⟩ => innerDispatches_data hhandler _ d hd hdata) ?_
      rw [str_cons]
      split_ifs
      · decide
      · exact fun hmem => hverbose (mem_bareVerbose.mp hmem).1

/-! ## The condition is exact -/

theorem packet_append (lead payload rest : Bytes) (hi lo : UInt8) :
    lead ++ packet payload hi lo ++ rest =
      lead ++ 0x24 :: payload ++ 0x23 :: hi :: lo :: rest := by
  simp only [packet, List.append_assoc, List.cons_append, List.nil_append]

theorem WellServed.framed {lowLast : Bool} {c : Call} (h : WellServed lowLast c) :
    Framed lowLast c where
  inside := by
    intro hfault
    obtain ⟨lead, payload, rest, hshows, hoverruns⟩ := fault_iff.mp hfault
    exact h.roomy lead payload rest hshows hoverruns
  valid := by
    intro received buffer hrun hreport
    obtain ⟨lead, payload, hi, lo, rest, hshows, hserved, haccepts⟩ :=
      served_of_report hrun hreport
    obtain ⟨received', buffer', hrun', -, hleaves, hrest⟩ :=
      report_of_served hshows hserved haccepts
    rw [hrun] at hrun'
    cases hrun'
    have hdigits := h.digits lead payload hi lo rest hshows hserved haccepts
    refine ⟨lead, packet payload hi lo, payload, hshows.lead,
      ⟨hi, lo, rfl, hshows.first, isChecksum_iff.mpr ⟨haccepts, hdigits⟩⟩, ?_, hleaves⟩
    rw [hrest, packet_append]
    exact hshows.stream
  delivered := by
    intro lead p payload rest hstream hlead hqueued hpacket
    obtain ⟨hsees, hserved⟩ := h.served lead p payload rest hstream hlead hqueued hpacket
    obtain ⟨hi, lo, rfl, hfirst, hsum⟩ := hpacket
    rw [packet_append] at hstream
    have hshows : Shows c lead payload (hi :: lo :: rest) :=
      ⟨hstream, hfirst, hsees, (by omega : _ ≤ payload.length + 4).trans hserved.fits⟩
    obtain ⟨received, buffer, hrun, hreport, hleaves, hrest⟩ :=
      report_of_served hshows hserved (isChecksum_iff.mp hsum).1
    exact ⟨received, buffer, hrun, .inl ⟨hreport, hleaves, hrest⟩⟩
  commanded := by
    intro received buffer hrun d hd hdata
    by_cases hreport : IsReport received buffer
    · obtain ⟨lead, payload, hi, lo, rest, hshows, hserved, haccepts⟩ :=
        served_of_report hrun hreport
      obtain ⟨received', buffer', hrun', -, hleaves, -⟩ :=
        report_of_served hshows hserved haccepts
      rw [hrun] at hrun'
      cases hrun'
      exact h.separated lead payload hi lo rest hshows hserved haccepts
        ((gdbDispatch_data hreport hleaves.text).mp ⟨d, hd, hdata⟩)
    · rw [gdbDispatch, if_neg hreport] at hd
      exact List.not_mem_nil hd

theorem Framed.wellServed {lowLast : Bool} {c : Call} (h : Framed lowLast c) :
    WellServed lowLast c where
  roomy lead payload rest hshows hoverruns :=
    h.inside (fault_iff.mpr ⟨lead, payload, rest, hshows, hoverruns⟩)
  digits := by
    intro lead payload hi lo rest hshows hserved haccepts
    obtain ⟨received, buffer, hrun, hreport, -, -⟩ := report_of_served hshows hserved haccepts
    obtain ⟨lead', p, payload', hlead, ⟨hi', lo', rfl, hfirst, hsum⟩, hstream, -⟩ :=
      h.valid received buffer hrun hreport
    rw [packet_append] at hstream
    obtain ⟨-, rfl, hrest⟩ := stream_unique hshows.lead hlead hshows.first hfirst
      (hshows.stream.symm.trans hstream)
    rw [List.cons.injEq, List.cons.injEq] at hrest
    obtain ⟨rfl, rfl, -⟩ := hrest
    exact (@isChecksum_iff lowLast payload hi lo).mp hsum |>.2
  served := by
    intro lead p payload rest hstream hlead hqueued hpacket
    obtain ⟨received, buffer, hrun, ⟨hreport, -, -⟩ | ⟨hr, rfl, hrest⟩⟩ :=
      h.delivered lead p payload rest hstream hlead hqueued hpacket
    · obtain ⟨hi, lo, rfl, hfirst, -⟩ := hpacket
      obtain ⟨lead', payload', hi', lo', rest', hshows, hserved, -⟩ :=
        served_of_report hrun hreport
      rw [packet_append] at hstream
      have hsame := hshows.stream.symm.trans hstream
      have hplain : lead = [] ∨ lead = [0x2B] := by
        rcases hlead with hlead | hlead | rfl
        · exact .inl hlead
        · exact .inr hlead
        · rcases hshows.lead with rfl | rfl
          · exact absurd (List.cons.inj hsame).1 (by decide)
          · exact absurd (List.cons.inj hsame).1 (by decide)
      obtain ⟨rfl, rfl, -⟩ := stream_unique hshows.lead hplain hshows.first hfirst hsame
      exact ⟨hshows.sees, hserved⟩
    · obtain ⟨received', buffer', hrun', hkept⟩ := @request_kept lowLast c (p ++ rest) hstream
      rw [hrun] at hrun'
      cases hrun'
      rcases hkept with hfailed | ⟨-, hkept⟩
      · exact absurd hfailed hr
      · have hlength := congrArg List.length (hrest.symm.trans (hkept.trans hstream))
        simp at hlength
  separated := by
    intro lead payload hi lo rest hshows hserved haccepts hbare
    obtain ⟨received, buffer, hrun, hreport, hleaves, -⟩ :=
      report_of_served hshows hserved haccepts
    obtain ⟨d, hd, hdata⟩ := (gdbDispatch_data hreport hleaves.text).mpr hbare
    exact h.commanded received buffer hrun d hd hdata

/-- A call keeps to the framing exactly under these conditions, whichever digit says last whether it
is one. -/
theorem framed_iff (lowLast : Bool) (c : Call) : Framed lowLast c ↔ WellServed lowLast c :=
  ⟨Framed.wellServed, WellServed.framed⟩

/-- `$vCont#0a`, in a queue that is received as it is. -/
def bareContinue : Call where
  ctx := ⟨false, false, 0, 0⟩
  buffer := List.replicate bufferSize 0
  stream := packet (chars "vCont".toList) 0x30 0x61
  queued := 9
  outcomes := ⟨9, 9, 9, 9, true⟩
  sized := List.length_replicate ..

theorem bareContinue_not_framed : ¬Framed true bareContinue := by
  intro h
  have hserved : Served bareContinue (chars "vCont".toList).length :=
    ⟨by decide, by decide, .inr rfl⟩
  refine h.wellServed.separated [] (chars "vCont".toList) 0x30 0x61 [] ?_ hserved ?_ ?_
  · exact ⟨rfl, by decide +kernel, .inl ⟨rfl, by decide⟩, by decide⟩
  · decide +kernel
  · decide +kernel

end Presence3DS.Gdb.Packets
