import Presence3DS.Gdb.MemoryTransfers

/-! The packets that are handled as they are to be. -/

namespace Presence3DS.Gdb.Packets
open Buffer CString RawMemory

/-- The pairs that are looked at are as many as are asked for: none of them has a NUL, and each has
a digit where the decoder looks last. -/
def Passes (lowLast : Bool) : ℕ → Bytes → Prop
  | 0, _ => True
  | len + 1, hi :: lo :: src => hi ≠ 0 ∧ lo ≠ 0 ∧
      (gdbDecodeHexDigit (if lowLast then lo else hi)).isSome = true ∧ Passes lowLast len src
  | _ + 1, _ => False

/-- Each piece of a write fits, and none is tried for ever. -/
def WriteFits (t : Target) (addr len : ℕ) : Prop :=
  Fits t.writeInPage addr len len ∧
    ∀ q ∈ tried t.writeInPage (piecesOf addr len), t.writeInPage q.addr q.nb ≠ .endless

/-- Where a read has room: the doubled length has, and so has each piece that is read. -/
def ReadFits (t : Target) (p : Packet) : Prop :=
  ∀ addr len rest, gdbParseHexIntegerList 32 2 0 p.commandData = some ([addr, len], rest) →
    2 * len % 2 ^ 32 ≤ gdbBufLen → Fits t.readInPage addr len (gdbBufLen / 2)

/-- What passes is what the packet carries, and each piece of it fits. -/
def CarriedFits (decoded : Bytes → Option Bytes) (passes : ℕ → Bytes → Prop) (t : Target)
    (p : Packet) : Prop :=
  ∀ addr len dataStart,
    gdbParseHexIntegerList 32 2 0x3A p.commandData = some ([addr, len], 0x3A :: dataStart) →
    passes len dataStart →
    (∃ data, decoded (p.carried dataStart) = some data ∧ data.length = len) ∧ WriteFits t addr len

/-- The data has its end in the buffer, and has no escape but at its last byte. -/
def PassesRaw (len : ℕ) (dataStart : Bytes) : Prop :=
  Packet.place dataStart + len < bufferSize ∧ 0x7D ∉ dataStart.take (len - 1)

variable {lowLast : Bool} {t : Target} {p : Packet} {addr len i m : ℕ} {src data dataStart : Bytes}

/-! ## The place of the data -/

theorem length_str_le_of_zero {s : Bytes} (h : s[i]? = some 0) : (str s).length ≤ i := by
  by_contra hlt
  have hget : (str s)[i]? = some 0 := by
    rw [str_eq_take, List.getElem?_take_of_lt (not_le.mp hlt)]
    exact h
  exact ne_zero_of_mem_str (List.mem_of_getElem? hget) rfl

theorem stringEnd_le (p : Packet) : p.stringEnd ≤ bufferSize := by
  have hzero : p.commandData[p.commandEnd - 2]? = some 0 := by
    rw [Packet.commandData, List.getElem?_drop, Nat.add_sub_cancel' p.le_commandEnd]
    exact p.terminated
  have hle := length_str_le_of_zero hzero
  have hend := p.commandEnd_lt
  have hbegin := p.le_commandEnd
  unfold Packet.stringEnd
  omega

/-- The data stands behind the colon, in front of the NUL that ends the packet. -/
structure Placed (p : Packet) (dataStart : Bytes) : Prop where
  three_le : 3 ≤ Packet.place dataStart
  le_commandEnd : Packet.place dataStart ≤ p.commandEnd
  length_add : dataStart.length + Packet.place dataStart = bufferSize
  terminated : dataStart[p.commandEnd - Packet.place dataStart]? = some 0

theorem placed_of_parse {ns : List ℕ}
    (h : gdbParseHexIntegerList 32 2 0x3A p.commandData = some (ns, 0x3A :: dataStart)) :
    Placed p dataStart := by
  obtain ⟨-, u, hu, hne⟩ := gdbParseHexIntegerList_reads h
  have hsplit : p.buffer = (p.buffer.take 2 ++ u ++ [0x3A]) ++ dataStart := by
    rw [List.append_assoc, List.append_assoc, List.singleton_append, ← hu]
    exact (List.take_append_drop 2 p.buffer).symm
  have htwo : (p.buffer.take 2).length = 2 :=
    List.length_take_of_le (by rw [p.length_buffer]; decide)
  have hlength := congrArg List.length hsplit
  rw [p.length_buffer, List.length_append, List.length_append, List.length_append, htwo] at hlength
  have hplace : Packet.place dataStart = (p.buffer.take 2 ++ u ++ [0x3A]).length := by
    rw [List.length_append, List.length_append, htwo]
    unfold Packet.place
    omega
  have hle : Packet.place dataStart ≤ p.commandEnd := by
    by_contra hlt
    have hget := p.terminated
    rw [hsplit, List.getElem?_append_left (by omega), List.append_assoc,
      List.getElem?_append_right (by rw [htwo]; exact p.le_commandEnd)] at hget
    rcases List.mem_append.mp (List.mem_of_getElem? hget) with hmem | hmem
    · exact hne 0 hmem rfl
    · exact absurd (List.mem_singleton.mp hmem) (by decide)
  refine ⟨?_, hle, ?_, ?_⟩
  · unfold Packet.place
    rw [List.length_singleton] at hlength
    omega
  · unfold Packet.place
    omega
  · have hget := p.terminated
    rwa [hsplit, List.getElem?_append_right (by omega), ← hplace] at hget

/-! ## Decoding -/

theorem decode_bounds (lowLast : Bool) (len : ℕ) (hzero : src[i]? = some 0)
    (hroom : i + 1 < src.length) : decodeHexLooks lowLast len src ≤ i + 1 ∧
      2 * (gdbDecodeHex lowLast len src).2.length ≤ i := by
  induction len generalizing src i with
  | zero =>
    rcases src with _ | ⟨hi, _ | ⟨lo, src⟩⟩
    all_goals exact ⟨Nat.zero_le _, Nat.zero_le _⟩
  | succ len ih =>
    rcases src with _ | ⟨hi, _ | ⟨lo, src⟩⟩
    · exact absurd hroom (Nat.not_lt_zero _)
    · exact absurd hroom (by simp)
    rw [decodeHexLooks, gdbDecodeHex]
    by_cases hhi : hi = 0
    · rw [if_pos hhi, if_pos (.inl hhi)]
      exact ⟨Nat.succ_le_succ (Nat.zero_le i), Nat.zero_le i⟩
    rw [if_neg hhi]
    obtain ⟨i, rfl⟩ : ∃ k, i = k + 1 := by
      cases i with
      | zero => exact absurd (Option.some.inj hzero) hhi
      | succ k => exact ⟨k, rfl⟩
    by_cases hlo : lo = 0
    · rw [if_neg fun h => h.1 hlo, if_pos (.inr hlo)]
      exact ⟨by omega, Nat.zero_le _⟩
    obtain ⟨i, rfl⟩ : ∃ k, i = k + 1 := by
      cases i with
      | zero => exact absurd (Option.some.inj hzero) hlo
      | succ k => exact ⟨k, rfl⟩
    have hpair : ¬(hi = 0 ∨ lo = 0) := not_or.mpr ⟨hhi, hlo⟩
    rw [if_neg hpair]
    by_cases hdigit : (gdbDecodeHexDigit (if lowLast then lo else hi)).isSome = true
    · obtain ⟨hlooks, hlength⟩ := ih (show src[i]? = some 0 from hzero)
        (by simpa using hroom)
      rw [if_pos ⟨hlo, hdigit⟩, if_pos hdigit]
      dsimp only
      rw [List.length_cons]
      omega
    · rw [if_neg fun h => hdigit h.2, if_neg hdigit]
      exact ⟨by omega, by rw [List.length_singleton]; omega⟩

theorem passes_iff (lowLast : Bool) (len : ℕ) (src : Bytes) :
    Passes lowLast len src ↔ (gdbDecodeHex lowLast len src).1 = len := by
  induction len generalizing src with
  | zero =>
    rcases src with _ | ⟨hi, _ | ⟨lo, src⟩⟩
    all_goals exact iff_of_true trivial rfl
  | succ len ih =>
    rcases src with _ | ⟨hi, _ | ⟨lo, src⟩⟩
    · exact iff_of_false id (Nat.succ_ne_zero len).symm
    · exact iff_of_false id (Nat.succ_ne_zero len).symm
    rw [Passes, gdbDecodeHex]
    by_cases hpair : hi = 0 ∨ lo = 0
    · rw [if_pos hpair]
      exact iff_of_false (fun h => hpair.elim h.1 h.2.1) (Nat.succ_ne_zero len).symm
    obtain ⟨hhi, hlo⟩ := not_or.mp hpair
    rw [if_neg hpair, and_iff_right hhi, and_iff_right hlo]
    dsimp only
    by_cases hdigit : (gdbDecodeHexDigit (if lowLast then lo else hi)).isSome = true
    · rw [if_pos hdigit, and_iff_right hdigit, ih]
      exact (Nat.add_right_cancel_iff).symm
    · rw [if_neg hdigit]
      exact iff_of_false (fun h => hdigit h.1) (Nat.succ_ne_zero len).symm

theorem length_decoded (lowLast : Bool) (len : ℕ) (src : Bytes) :
    (gdbDecodeHex lowLast len src).1 ≤ (gdbDecodeHex lowLast len src).2.length := by
  induction len generalizing src with
  | zero =>
    rcases src with _ | ⟨hi, _ | ⟨lo, src⟩⟩
    all_goals exact le_rfl
  | succ len ih =>
    rcases src with _ | ⟨hi, _ | ⟨lo, src⟩⟩
    · exact le_rfl
    · exact le_rfl
    rw [gdbDecodeHex]
    split
    · exact le_rfl
    · dsimp only
      by_cases hdigit : (gdbDecodeHexDigit (if lowLast then lo else hi)).isSome = true
      · rw [if_pos hdigit]
        exact Nat.succ_le_succ (ih src)
      · rw [if_neg hdigit]
        exact Nat.zero_le _

theorem decode_of_hexBytes (h : hexBytes (src.take m) = some data) :
    gdbDecodeHex lowLast data.length src = (data.length, data) := by
  induction data generalizing src m with
  | nil =>
    rcases src with _ | ⟨hi, _ | ⟨lo, src⟩⟩
    all_goals rfl
  | cons b data ih =>
    rcases src with _ | ⟨hi, _ | ⟨lo, src⟩⟩
    · simp [hexBytes] at h
    · cases m with
      | zero => simp [hexBytes] at h
      | succ m => simp [hexBytes] at h
    rcases m with _ | _ | m
    · simp [hexBytes] at h
    · simp [hexBytes] at h
    rw [List.take_succ_cons, List.take_succ_cons, hexBytes] at h
    obtain ⟨b', hpair, hrest⟩ := Option.bind_eq_some_iff.mp h
    obtain ⟨data', hdata, hcons⟩ := Option.map_eq_some_iff.mp hrest
    obtain ⟨rfl, rfl⟩ := List.cons.inj hcons
    rw [List.length_cons, gdbDecodeHex_pair hpair, ih hdata]

/-! ## Taking off escapes -/

theorem unescape_cons {c : UInt8} (hc : c ≠ 0x7D) (len : ℕ) (src : Bytes) :
    gdbUnescapeBinaryData (len + 1) (c :: src) = c :: gdbUnescapeBinaryData len src := by
  rw [gdbUnescapeBinaryData.eq_def]
  exact if_neg hc

theorem length_unescape_eq_iff (h : len < src.length) :
    (gdbUnescapeBinaryData len src).length = len ↔ 0x7D ∉ src.take (len - 1) := by
  induction len generalizing src with
  | zero => exact iff_of_true (by rw [unescape_zero]; rfl) List.not_mem_nil
  | succ len ih =>
    rcases src with _ | ⟨c, src⟩
    · exact absurd h (Nat.not_lt_zero _)
    rw [Nat.add_sub_cancel]
    by_cases hc : c = 0x7D
    · subst hc
      rcases src with _ | ⟨d, src⟩
      · exact absurd h (by simp)
      rw [unescape_escape, List.length_cons, Nat.add_right_cancel_iff]
      have hle := unescape_length_le (len - 1) src
      cases len with
      | zero => exact iff_of_true (by rw [unescape_zero]; rfl) List.not_mem_nil
      | succ len => exact iff_of_false (by omega) fun hmem => hmem List.mem_cons_self
    · rw [unescape_cons hc, List.length_cons, Nat.add_right_cancel_iff,
        ih (Nat.lt_of_succ_lt_succ h)]
      cases len with
      | zero => exact Iff.rfl
      | succ len =>
        rw [Nat.add_sub_cancel, List.take_succ_cons, List.mem_cons, not_or,
          and_iff_right (Ne.symm hc)]

theorem unescape_of_rawBytes (h : rawBytes (src.take m) = some data)
    (hplain : 0x7D ∉ src.take (data.length - 1)) :
    gdbUnescapeBinaryData data.length src = data := by
  induction data generalizing src m with
  | nil => exact unescape_zero src
  | cons b data ih =>
    rcases src with _ | ⟨c, src⟩
    · simp [rawBytes] at h
    rcases m with _ | m
    · simp [rawBytes] at h
    rw [List.take_succ_cons, rawBytes.eq_def] at h
    dsimp only at h
    rw [List.length_cons, Nat.add_sub_cancel] at hplain
    rw [List.length_cons]
    by_cases hc : c = 0x7D
    · subst hc
      obtain rfl : data = [] := by
        by_contra hne
        obtain ⟨n, hn⟩ := Nat.exists_eq_succ_of_ne_zero (List.length_pos_iff.mpr hne).ne'
        rw [hn] at hplain
        exact hplain List.mem_cons_self
      rw [if_pos rfl] at h
      rcases src with _ | ⟨d, src⟩
      · simp at h
      rcases m with _ | m
      · simp at h
      obtain ⟨data', -, hcons⟩ := Option.map_eq_some_iff.mp h
      rw [List.length_nil, unescape_escape, unescape_zero, (List.cons.inj hcons).1]
    · rw [if_neg hc] at h
      obtain ⟨data', hdata, hcons⟩ := Option.map_eq_some_iff.mp h
      obtain ⟨rfl, rfl⟩ := List.cons.inj hcons
      rw [unescape_cons hc, ih hdata fun hmem => ?_]
      rcases Nat.eq_zero_or_pos data'.length with hzero | hpos
      · rw [hzero] at hmem
        exact List.not_mem_nil hmem
      · obtain ⟨n, hn⟩ := Nat.exists_eq_succ_of_ne_zero hpos.ne'
        rw [hn, Nat.succ_eq_add_one, Nat.add_sub_cancel] at hmem
        rw [hn] at hplain
        exact hplain (List.mem_cons_of_mem c hmem)

/-! ## Reads -/

theorem total_le_of_fits (haddr : addr < 2 ^ 32) {size : ℕ} (h : Fits t.readInPage addr len size) :
    (gdbReadTargetMemory t addr len).total ≤ size := by
  have hcomes := piecesOf_comes t.readInPage len haddr
  rcases Nat.eq_zero_or_pos (gdbReadTargetMemory t addr len).total with hzero | hpos
  · rw [hzero]
    exact Nat.zero_le size
  · obtain ⟨q, hq, hmade, hle, hlt⟩ := hcomes.covered ((gdbReadTargetMemory t addr len).total - 1)
      (Nat.zero_le _) (Nat.sub_one_lt hpos.ne')
    have hatOnce := (h q hq hmade).atOnce (isPartOf_of_tried haddr hq)
    obtain ⟨a, ha, hwide⟩ := hatOnce.all (by omega)
    have hsize := (hatOnce.one a ha).2.2.2
    omega

theorem handleReadMemory_eq {rest : Bytes} (junk : Memory)
    (h : gdbParseHexIntegerList 32 2 0 p.commandData = some ([addr, len], rest)) :
    handleReadMemory t junk p = gdbSendMemory t junk p.stringEnd addr len := by
  rw [handleReadMemory, h]

theorem looked_handleReadMemory (t : Target) (junk : Memory) (p : Packet) :
    (handleReadMemory t junk p).looked = p.stringEnd := by
  unfold handleReadMemory
  split
  · unfold gdbSendMemory
    split_ifs
    · rfl
    · rfl
  · rfl

theorem readsWell_iff (t : Target) (p : Packet) : ReadsWell t p ↔ ReadFits t p := by
  constructor
  · intro h addr len rest hparse hroom
    obtain ⟨hns, -⟩ := gdbParseHexIntegerList_reads hparse
    have haddr : addr < 2 ^ 32 := hns addr List.mem_cons_self
    have hrun := handleReadMemory_eq (t := t) (fun _ => 0) hparse
    rw [gdbSendMemory, if_neg (not_lt.mpr hroom)] at hrun
    have hexact := (h.buffers (fun _ => 0) addr len rest _ hparse (by rw [hrun])).1
    exact (exact_iff (fun _ _ _ => Target.readInPage_made) haddr).mp hexact
  · intro h
    refine ⟨fun junk => ?_, fun junk addr len rest r hparse hr => ?_,
      fun junk addr len rest hparse => ?_⟩
    · rw [looked_handleReadMemory]
      exact stringEnd_le p
    · have haddr : addr < 2 ^ 32 := (gdbParseHexIntegerList_reads hparse).1 addr List.mem_cons_self
      rw [handleReadMemory_eq junk hparse, gdbSendMemory] at hr
      split_ifs at hr with hroom
      · exact absurd hr (Option.some_ne_none r).symm
      · obtain rfl := Option.some.inj hr
        have hfits := h addr len rest hparse (not_lt.mp hroom)
        have htotal := total_le_of_fits haddr hfits
        exact ⟨(exact_iff (fun _ _ _ => Target.readInPage_made) haddr).mpr hfits,
          (Nat.mul_le_mul_left 2 htotal).trans (by decide)⟩
    · have haddr : addr < 2 ^ 32 := (gdbParseHexIntegerList_reads hparse).1 addr List.mem_cons_self
      rw [handleReadMemory_eq junk hparse, gdbSendMemory]
      split_ifs with hroom
      · exact .inl ⟨rfl, hroom.trans_le (Nat.mod_le _ _)⟩
      · have hread := read_eq haddr (h addr len rest hparse (not_lt.mp hroom)) junk
        refine .inr ⟨_, total_isGreatest t len haddr, ?_⟩
        dsimp only
        rw [hread]

/-! ## Writes -/

theorem gdbWriteTargetMemory_iff (haddr : addr < 2 ^ 32) (hdata : data.length ≤ 2 ^ 32) :
    WriteFits t addr data.length ↔
      (gdbWriteTargetMemory t addr data.length).returns = true ∧
        (gdbWriteTargetMemory t addr data.length).Exact addr data.length ∧ ∀ junk : Memory,
          ioWrite (gdbWriteTargetMemory t addr data.length).accesses t.byte (write junk 0 data) =
            putAt t.byte addr (data.take (gdbWriteTargetMemory t addr data.length).total) := by
  have hcomes := piecesOf_comes t.writeInPage data.length haddr
  have hexact : (gdbWriteTargetMemory t addr data.length).Exact addr data.length ↔
      Fits t.writeInPage addr data.length data.length :=
    exact_iff (fun _ _ _ => Target.writeInPage_made) haddr
  constructor
  · exact fun h => ⟨hcomes.returns.mpr h.2, hexact.mpr h.1, write_eq haddr hdata h.1⟩
  · exact fun h => ⟨hexact.mp h.2.1, hcomes.returns.mp h.1⟩

theorem writesWell_iff {decoded : Bytes → Option Bytes} {passes : ℕ → Bytes → Prop} {size : ℕ}
    {run : MemoryRun} (hpacket : run.looked ≤ bufferSize) (hsize : run.data.length ≤ size)
    (hperformed : ∀ addr len dataStart,
      gdbParseHexIntegerList 32 2 0x3A p.commandData = some ([addr, len], 0x3A :: dataStart) →
      (passes len dataStart ∧ run.transfer = some (gdbWriteTargetMemory t addr len) ∧
        (∀ data, decoded (p.carried dataStart) = some data → data.length = len → run.data = data)) ∨
      ¬passes len dataStart ∧ run.transfer = none) :
    WritesWell decoded size t p run ↔ CarriedFits decoded passes t p := by
  constructor
  · intro h addr len dataStart hparse hpasses
    obtain ⟨hns, -⟩ := gdbParseHexIntegerList_reads hparse
    have haddr : addr < 2 ^ 32 := hns addr List.mem_cons_self
    have hlen : len < 2 ^ 32 := hns len (List.mem_cons_of_mem _ List.mem_cons_self)
    rcases hperformed addr len dataStart hparse with ⟨-, htransfer, -⟩ | ⟨hnot, -⟩
    · obtain ⟨hdecoded, hdata, hreturns, hexact, hwrite⟩ :=
        h.performed addr len dataStart _ hparse htransfer
      refine ⟨⟨run.data, hdecoded, hdata⟩, ?_⟩
      subst hdata
      exact (gdbWriteTargetMemory_iff haddr hlen.le).mpr ⟨hreturns, hexact, hwrite⟩
    · exact absurd hpasses hnot
  · refine fun h => ⟨hpacket, hsize, fun addr len dataStart r hparse hr => ?_⟩
    obtain ⟨hns, -⟩ := gdbParseHexIntegerList_reads hparse
    have haddr : addr < 2 ^ 32 := hns addr List.mem_cons_self
    have hlen : len < 2 ^ 32 := hns len (List.mem_cons_of_mem _ List.mem_cons_self)
    rcases hperformed addr len dataStart hparse with ⟨hpasses, htransfer, hdecodes⟩ | ⟨-, hnone⟩
    · obtain ⟨⟨data, hdata, rfl⟩, hfits⟩ := h addr len dataStart hparse hpasses
      obtain rfl := Option.some.inj (htransfer.symm.trans hr)
      rw [hdecodes data hdata rfl]
      exact ⟨hdata, rfl, (gdbWriteTargetMemory_iff haddr hlen.le).mp hfits⟩
    · exact absurd (hnone.symm.trans hr) (Option.some_ne_none r).symm

theorem writeMemory_wellWrites (lowLast : Bool) (t : Target) (p : Packet) :
    WritesWell hexBytes (gdbBufLen / 2) t p (handleWriteMemory lowLast t p) ↔
      CarriedFits hexBytes (Passes lowLast) t p := by
  have hend := p.commandEnd_lt
  by_cases hparse : ∃ addr len dataStart,
    gdbParseHexIntegerList 32 2 0x3A p.commandData = some ([addr, len], 0x3A :: dataStart)
  · obtain ⟨addr, len, dataStart, hparse⟩ := hparse
    have hplaced := placed_of_parse hparse
    have hlength := hplaced.length_add
    have hle := hplaced.le_commandEnd
    have hthree := hplaced.three_le
    obtain ⟨hlooks, hdata⟩ := decode_bounds lowLast len hplaced.terminated (by omega)
    have hrun : handleWriteMemory lowLast t p =
        if beyondBuffer p dataStart (2 * len % 2 ^ 32) then .error p.stringEnd [] enomem
        else if (gdbDecodeHex lowLast len dataStart).1 ≠ len then
          .error (Packet.place dataStart + decodeHexLooks lowLast len dataStart)
            (gdbDecodeHex lowLast len dataStart).2 eilseq
        else gdbWriteMemory t (Packet.place dataStart + decodeHexLooks lowLast len dataStart)
          (gdbDecodeHex lowLast len dataStart).2 addr len := by
      rw [handleWriteMemory, hparse]
      rfl
    have hcount := length_decoded lowLast len dataStart
    have hlooked : Packet.place dataStart + decodeHexLooks lowLast len dataStart ≤ bufferSize := by
      omega
    have hroom : (gdbDecodeHex lowLast len dataStart).2.length ≤ gdbBufLen / 2 := by
      have hbuffer : bufferSize = 1028 ∧ gdbBufLen = 1024 := ⟨rfl, rfl⟩
      omega
    rw [hrun]
    split_ifs with hbeyond hn
    · refine writesWell_iff (stringEnd_le p) (Nat.zero_le _) fun addr' len' dataStart' h => ?_
      cases hparse.symm.trans h
      refine .inr ⟨fun hpasses => ?_, rfl⟩
      have hbase := p.base_lt
      rw [(passes_iff lowLast len dataStart).mp hpasses] at hcount
      unfold beyondBuffer at hbeyond
      omega
    · refine writesWell_iff hlooked hroom fun addr' len' dataStart' h => ?_
      cases hparse.symm.trans h
      exact .inr ⟨fun hpasses => hn ((passes_iff lowLast len dataStart).mp hpasses), rfl⟩
    · refine writesWell_iff hlooked hroom fun addr' len' dataStart' h => ?_
      cases hparse.symm.trans h
      refine .inl ⟨(passes_iff lowLast len dataStart).mpr (not_not.mp hn), rfl, ?_⟩
      rintro data hbytes rfl
      exact congrArg Prod.snd (decode_of_hexBytes hbytes)
  · have hrun : handleWriteMemory lowLast t p = .error p.stringEnd [] eilseq := by
      unfold handleWriteMemory
      split
      · exact absurd ⟨_, _, _, ‹_›⟩ hparse
      · rfl
    rw [hrun]
    refine writesWell_iff (stringEnd_le p) (Nat.zero_le _) fun addr len dataStart h => ?_
    exact absurd ⟨addr, len, dataStart, h⟩ hparse

theorem writeMemoryRaw_wellWrites (t : Target) (p : Packet) :
    WritesWell rawBytes gdbBufLen t p (handleWriteMemoryRaw t p) ↔
      CarriedFits rawBytes PassesRaw t p := by
  by_cases hparse : ∃ addr len dataStart,
    gdbParseHexIntegerList 32 2 0x3A p.commandData = some ([addr, len], 0x3A :: dataStart)
  · obtain ⟨addr, len, dataStart, hparse⟩ := hparse
    have hlen : len < 2 ^ 32 := (gdbParseHexIntegerList_reads hparse).1 len
      (List.mem_cons_of_mem _ List.mem_cons_self)
    have hplaced := placed_of_parse hparse
    have hlength := hplaced.length_add
    have hthree := hplaced.three_le
    have hbase := p.base_lt
    have hbuffer : bufferSize = 1028 ∧ gdbBufLen = 1024 := ⟨rfl, rfl⟩
    by_cases hroom : Packet.place dataStart + len < bufferSize
    · have hbeyond : ¬beyondBuffer p dataStart len := by
        unfold beyondBuffer
        omega
      have hcount : p.base + Packet.place dataStart + len < 2 ^ 32 := by omega
      have hrun : handleWriteMemoryRaw t p = writeUnescaped t dataStart addr len len := by
        rw [handleWriteMemoryRaw, hparse]
        show (if beyondBuffer p dataStart len then _ else _) = _
        rw [if_neg hbeyond, if_pos hcount]
      have hpasses : PassesRaw len dataStart ↔
          (gdbUnescapeBinaryData len dataStart).length = len :=
        (and_iff_right hroom).trans (length_unescape_eq_iff (by omega)).symm
      have hlooked : Packet.place dataStart + unescapeLooks len ≤ bufferSize := by
        unfold unescapeLooks
        split_ifs
        · omega
        · omega
      have hdata := unescape_length_le len dataStart
      have hfits : (gdbUnescapeBinaryData len dataStart).length ≤ gdbBufLen := by omega
      rw [hrun, writeUnescaped]
      split_ifs with hn
      · refine writesWell_iff hlooked hfits fun addr' len' dataStart' h => ?_
        cases hparse.symm.trans h
        exact .inr ⟨fun h => hn (hpasses.mp h), rfl⟩
      · refine writesWell_iff hlooked hfits fun addr' len' dataStart' h => ?_
        cases hparse.symm.trans h
        refine .inl ⟨hpasses.mpr (not_not.mp hn), rfl, ?_⟩
        rintro data hbytes rfl
        exact unescape_of_rawBytes hbytes (hpasses.mpr (not_not.mp hn)).2
    · -- the length is refused, or the sum of the pointer and the length begins from 0 again
      have hrefused : ∃ data no, data.length ≤ gdbBufLen ∧ ∃ looked ≤ bufferSize,
          handleWriteMemoryRaw t p = .error looked data no := by
        rw [handleWriteMemoryRaw, hparse]
        show ∃ data no, _ ∧ ∃ looked ≤ bufferSize,
          (if beyondBuffer p dataStart len then _ else _) = _
        by_cases hbeyond : beyondBuffer p dataStart len
        · rw [if_pos hbeyond]
          exact ⟨[], _, Nat.zero_le _, _, stringEnd_le p, rfl⟩
        · have hcount : ¬p.base + Packet.place dataStart + len < 2 ^ 32 := by
            unfold beyondBuffer at hbeyond
            omega
          have hzero : ([] : Bytes).length ≠ len := by
            show 0 ≠ len
            omega
          rw [if_neg hbeyond, if_neg hcount, writeUnescaped, unescape_zero, if_pos hzero]
          refine ⟨[], _, Nat.zero_le _, Packet.place dataStart, ?_, rfl⟩
          exact (Nat.le_add_left _ _).trans hlength.le
      obtain ⟨data, no, hdata, looked, hlooked, hrun⟩ := hrefused
      rw [hrun]
      refine writesWell_iff hlooked hdata fun addr' len' dataStart' h => ?_
      cases hparse.symm.trans h
      exact .inr ⟨fun h => hroom h.1, rfl⟩
  · have hrun : handleWriteMemoryRaw t p = .error p.stringEnd [] eilseq := by
      unfold handleWriteMemoryRaw
      split
      · exact absurd ⟨_, _, _, ‹_›⟩ hparse
      · rfl
    rw [hrun]
    refine writesWell_iff (stringEnd_le p) (Nat.zero_le _) fun addr len dataStart h => ?_
    exact absurd ⟨addr, len, dataStart, h⟩ hparse

/-- The packets are handled as they are to be exactly where reads have room, and where what is
written is what the packet carries and has room. -/
theorem memoryPackets_iff (lowLast : Bool) (t : Target) (p : Packet) :
    (ReadsWell t p ↔ ReadFits t p) ∧
    (WritesWell hexBytes (gdbBufLen / 2) t p (handleWriteMemory lowLast t p) ↔
      CarriedFits hexBytes (Passes lowLast) t p) ∧
    (WritesWell rawBytes gdbBufLen t p (handleWriteMemoryRaw t p) ↔
      CarriedFits rawBytes PassesRaw t p) :=
  ⟨readsWell_iff t p, writeMemory_wellWrites lowLast t p, writeMemoryRaw_wellWrites t p⟩

/-- `$m0,80000000` -/
def longRead : Packet where
  base := 0
  base_lt := by decide
  buffer := chars "$m0,80000000".toList ++ List.replicate 1016 0
  length_buffer := by decide +kernel
  commandEnd := 12
  le_commandEnd := by decide
  commandEnd_lt := by decide
  terminated := by decide

/-- A target that all can be read and written of -/
def openTarget : Target where
  byte := fun _ => 0
  ttbcr := 1
  ttbcr_pos := Nat.one_pos
  ttbcr_le := by decide
  enableExternalMemoryAccess := true
  svcReadProcessMemory := fun _ => true
  svcWriteProcessMemory := fun _ => true
  svcConvertVAToPA := fun _ _ => 1

/-- The doubled length of a read is 0, and a page is read into the local buffer. -/
theorem doubled_length_wraps : ¬∀ (lowLast : Bool) (t : Target) (p : Packet), ReadsWell t p ∧
    WritesWell hexBytes (gdbBufLen / 2) t p (handleWriteMemory lowLast t p) ∧
    WritesWell rawBytes gdbBufLen t p (handleWriteMemoryRaw t p) := by
  intro h
  have hfits := (readsWell_iff openTarget longRead).mp (h true openTarget longRead).1
  have hparse : gdbParseHexIntegerList 32 2 0 longRead.commandData =
      some ([0, 0x80000000], List.replicate 1016 0) := by decide +kernel
  have hpage := hfits _ _ _ hparse (by decide) ⟨0, 0, 0x1000⟩ List.mem_cons_self ⟨_, rfl⟩
  exact absurd hpage (by decide)

end Presence3DS.Gdb.Packets
