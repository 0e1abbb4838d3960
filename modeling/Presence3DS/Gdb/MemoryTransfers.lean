import Presence3DS.Gdb.MemoryPackets

/-! What the loops over the pages read and write. -/

namespace Presence3DS.Gdb.Packets
open RawMemory

/-! ## The parts of a range -/

/-- Each piece begins where the one in front of it ends. -/
def GoOn : ℕ → List Piece → Prop
  | _, [] => True
  | start, q :: qs => q.total = start ∧ GoOn (start + q.nb) qs

def lengthOf (qs : List Piece) : ℕ := (qs.map Piece.nb).sum

/-- The piece has its place in a range, and does not leave a page before the range ends. -/
structure Piece.IsPartOf (q : Piece) (addr len : ℕ) : Prop where
  addr_eq : q.addr = (addr + q.total) % 2 ^ 32
  le_len : q.total + q.nb ≤ len
  in_page : q.addr % 0x1000 + q.nb ≤ 0x1000
  ends : q.addr % 0x1000 + q.nb = 0x1000 ∨ q.total + q.nb = len

theorem pieces_tile {fuel total addr : ℕ} (base remaining : ℕ)
    (haddr : addr = (base + total) % 2 ^ 32) (hpos : 0 < fuel)
    (hfuel : addr % 0x1000 + remaining ≤ 0x1000 * fuel) :
    GoOn total (pieces fuel total addr remaining) ∧
      lengthOf (pieces fuel total addr remaining) = remaining ∧
      ∀ q ∈ pieces fuel total addr remaining, q.IsPartOf base (total + remaining) := by
  induction fuel generalizing total addr remaining with
  | zero => exact absurd hpos (Nat.lt_irrefl 0)
  | succ fuel ih =>
    rw [pieces]
    generalize hnb : (if 0x1000 - addr % 0x1000 < remaining then 0x1000 - addr % 0x1000
      else remaining) = nb
    have hnb' : nb = min (0x1000 - addr % 0x1000) remaining := by
      rw [← hnb]
      split_ifs <;> omega
    have hpart : (⟨total, addr, nb⟩ : Piece).IsPartOf base (total + remaining) := by
      constructor <;> dsimp only <;> omega
    by_cases hlast : remaining - nb = 0
    · rw [if_pos hlast]
      refine ⟨⟨rfl, trivial⟩, ?_, fun q hq => ?_⟩
      · show nb + 0 = remaining
        omega
      · obtain rfl := List.mem_singleton.mp hq
        exact hpart
    · have hnext : (addr + nb) % 2 ^ 32 = (base + (total + nb)) % 2 ^ 32 := by omega
      rw [if_neg hlast]
      obtain ⟨hgoOn, hlength, hparts⟩ := ih (remaining - nb) hnext (by omega) (by omega)
      refine ⟨⟨rfl, hgoOn⟩, ?_, fun q hq => ?_⟩
      · show nb + lengthOf _ = remaining
        rw [hlength]
        omega
      · rcases List.mem_cons.mp hq with rfl | hq
        · exact hpart
        · rw [show total + remaining = total + nb + (remaining - nb) by omega]
          exact hparts q hq

variable {addr len : ℕ}

theorem piecesOf_tile (haddr : addr < 2 ^ 32) : GoOn 0 (piecesOf addr len) ∧
    lengthOf (piecesOf addr len) = len ∧ ∀ q ∈ piecesOf addr len, q.IsPartOf addr len := by
  have hroom : addr % 0x1000 + len ≤ 0x1000 * (len / 0x1000 + 2) := by omega
  have hbegin : addr = (addr + 0) % 2 ^ 32 := (Nat.mod_eq_of_lt haddr).symm
  have htile := pieces_tile addr len hbegin (Nat.succ_pos _) hroom
  rwa [Nat.zero_add] at htile

/-! ## The loops -/

/-- The parts that a transfer tries, up to the first that is not made. -/
def tried (inPage : ℕ → ℕ → PageAccess) : List Piece → List Piece
  | [] => []
  | q :: qs =>
    q :: match inPage q.addr q.nb with
      | .made _ => tried inPage qs
      | _ => []

def Made (inPage : ℕ → ℕ → PageAccess) (q : Piece) : Prop :=
  ∃ accesses, inPage q.addr q.nb = .made accesses

/-- What a transfer comes to. -/
structure Comes (inPage : ℕ → ℕ → PageAccess) (qs : List Piece) (start : ℕ) (r : Transfer) :
    Prop where
  start_le : start ≤ r.total
  stops : r.total = start + lengthOf qs ∨ ∃ q ∈ qs, q.total = r.total ∧ ¬Made inPage q
  covered : ∀ i, start ≤ i → i < r.total →
    ∃ q ∈ tried inPage qs, Made inPage q ∧ q.total ≤ i ∧ i < q.total + q.nb
  within : ∀ q ∈ tried inPage qs, Made inPage q → q.total + q.nb ≤ r.total
  mem_accesses : ∀ a, a ∈ r.accesses ↔ ∃ q ∈ tried inPage qs, ∃ l, inPage q.addr q.nb = .made l ∧
    ∃ b ∈ l, a = { b with buffer := q.total + b.buffer }
  returns : r.returns = true ↔ ∀ q ∈ tried inPage qs, inPage q.addr q.nb ≠ .endless

theorem tried_subset (inPage : ℕ → ℕ → PageAccess) (qs : List Piece) :
    ∀ q ∈ tried inPage qs, q ∈ qs := by
  induction qs with
  | nil => exact fun q hq => hq
  | cons p qs ih =>
    intro q hq
    rw [tried] at hq
    rcases List.mem_cons.mp hq with rfl | hq
    · exact List.mem_cons_self
    · split at hq
      · exact List.mem_cons_of_mem p (ih q hq)
      · exact absurd hq List.not_mem_nil

variable {inPage : ℕ → ℕ → PageAccess} {q : Piece} {qs : List Piece} {start : ℕ}

theorem comes_of_not_made {returns : Bool} (hmade : ¬Made inPage q) (hq : q.total = start)
    (hreturns : returns = true ↔ inPage q.addr q.nb ≠ .endless)
    (htried : tried inPage (q :: qs) = [q]) :
    Comes inPage (q :: qs) start ⟨start, [], returns⟩ where
  start_le := le_rfl
  stops := .inr ⟨q, List.mem_cons_self, hq, hmade⟩
  covered i hle hlt := absurd hle (Nat.not_le.mpr hlt)
  within p hp hp' := by
    rw [htried] at hp
    exact absurd (List.mem_singleton.mp hp ▸ hp') hmade
  mem_accesses a := by
    rw [htried]
    refine iff_of_false List.not_mem_nil ?_
    rintro ⟨p, hp, l, hl, -⟩
    exact hmade ⟨l, List.mem_singleton.mp hp ▸ hl⟩
  returns := by
    rw [htried, hreturns]
    exact ⟨fun h p hp => List.mem_singleton.mp hp ▸ h, fun h => h q (List.mem_singleton_self q)⟩

theorem comes_of_made {l : List TargetAccess} {rest : Transfer}
    (hmade : inPage q.addr q.nb = .made l) (hq : q.total = start)
    (hrest : Comes inPage qs (start + q.nb) rest)
    (htried : tried inPage (q :: qs) = q :: tried inPage qs) :
    Comes inPage (q :: qs) start ⟨rest.total,
      l.map (fun a => { a with buffer := q.total + a.buffer }) ++ rest.accesses, rest.returns⟩ where
  start_le := (Nat.le_add_right start q.nb).trans hrest.start_le
  stops := by
    refine hrest.stops.imp (fun hend => ?_) fun ⟨p, hp, hstop⟩ => ?_
    swap
    · exact ⟨p, List.mem_cons_of_mem q hp, hstop⟩
    show rest.total = start + (q.nb + lengthOf qs)
    rw [hend, Nat.add_assoc]
  covered i hle hlt := by
    rw [htried]
    rcases Nat.lt_or_ge i (start + q.nb) with hfirst | hlater
    · exact ⟨q, List.mem_cons_self, ⟨l, hmade⟩, hq ▸ hle, hq ▸ hfirst⟩
    · obtain ⟨p, hp, hcovers⟩ := hrest.covered i hlater hlt
      exact ⟨p, List.mem_cons_of_mem q hp, hcovers⟩
  within p hp hp' := by
    rw [htried] at hp
    rcases List.mem_cons.mp hp with rfl | hp
    · exact hq ▸ hrest.start_le
    · exact hrest.within p hp hp'
  mem_accesses a := by
    rw [htried, List.mem_append, List.mem_map, hrest.mem_accesses]
    constructor
    · rintro (⟨b, hb, rfl⟩ | ⟨p, hp, haccess⟩)
      · exact ⟨q, List.mem_cons_self, l, hmade, b, hb, rfl⟩
      · exact ⟨p, List.mem_cons_of_mem q hp, haccess⟩
    · rintro ⟨p, hp, l', hl', b, hb, rfl⟩
      rcases List.mem_cons.mp hp with rfl | hp
      · obtain rfl : l = l' := PageAccess.made.inj (hmade.symm.trans hl')
        exact .inl ⟨b, hb, rfl⟩
      · exact .inr ⟨p, hp, l', hl', b, hb, rfl⟩
  returns := by
    rw [htried, List.forall_mem_cons, hrest.returns, hmade]
    exact (and_iff_right PageAccess.noConfusion).symm

theorem transfer_comes (h : GoOn start qs) :
    Comes inPage qs start (transfer inPage qs start) := by
  induction qs generalizing start with
  | nil =>
    refine ⟨le_rfl, .inl rfl, fun i hle hlt => absurd hle (Nat.not_le.mpr hlt), ?_, fun a => ?_, ?_⟩
    · exact fun q hq => absurd hq List.not_mem_nil
    · exact iff_of_false List.not_mem_nil fun ⟨q, hq, _⟩ => List.not_mem_nil hq
    · exact iff_of_true rfl fun q hq => absurd hq List.not_mem_nil
  | cons q qs ih =>
    obtain ⟨hq, hqs⟩ := h
    rw [transfer]
    cases hpage : inPage q.addr q.nb with
    | made l =>
      subst hq
      exact comes_of_made hpage rfl (ih hqs) (by rw [tried, hpage])
    | failed =>
      refine comes_of_not_made (fun ⟨l, hl⟩ => ?_) hq ?_ (by rw [tried, hpage])
      · exact PageAccess.noConfusion (hpage.symm.trans hl)
      · exact iff_of_true rfl (hpage ▸ PageAccess.noConfusion)
    | endless =>
      refine comes_of_not_made (fun ⟨l, hl⟩ => ?_) hq ?_ (by rw [tried, hpage])
      · exact PageAccess.noConfusion (hpage.symm.trans hl)
      · exact iff_of_false Bool.noConfusion (not_not_intro hpage)

/-! ## Accesses within a page -/

/-- The piece has room in a local buffer; in the I/O region it takes a single access. -/
def Piece.FitsIn (q : Piece) (size : ℕ) : Prop :=
  if IsIo q.addr then q.nb = 0 ∨ q.nb ≤ ioWidth q.addr ∧ q.total + ioWidth q.addr ≤ size
  else q.total + q.nb ≤ size

instance (q : Piece) (size : ℕ) : Decidable (q.FitsIn size) := by
  unfold Piece.FitsIn
  infer_instance

theorem mem_single {a : TargetAccess} {n : ℕ} : a ∈ [(⟨n, addr, 0⟩ : TargetAccess)] ↔
    a.width = n ∧ a.target = addr ∧ a.buffer = 0 := by
  rw [List.mem_singleton]
  cases a
  simp only [TargetAccess.mk.injEq]

theorem ioWidth_le_page (addr : ℕ) : addr % 0x1000 + ioWidth addr ≤ 0x1000 := by
  rcases ioWidth_cases addr with ⟨haddr, hwidth⟩ | ⟨haddr, hwidth⟩ | ⟨haddr, hwidth⟩ <;> omega

theorem misplaced {x k w : ℕ} (hpos : 0 < k) (hlt : k < 0x1000) (hw : w = 2 ∨ w = 4) :
    x % 2 ^ 32 + k ≠ (x + w * k) % 2 ^ 32 := by
  rcases hw with rfl | rfl
  · omega
  · omega

namespace Piece
variable {size : ℕ}

/-- What is accessed of a piece that fits. -/
structure AtOnce (q : Piece) (size : ℕ) (l : List TargetAccess) : Prop where
  one : ∀ a ∈ l, a.target = q.addr ∧ a.buffer = 0 ∧ q.addr % 0x1000 + a.width ≤ 0x1000 ∧
    q.total + a.width ≤ size
  all : 0 < q.nb → ∃ a ∈ l, q.nb ≤ a.width

theorem FitsIn.atOnce (h : q.FitsIn size) (hq : q.IsPartOf addr len) :
    q.AtOnce size (Target.externalAccesses q.addr q.nb) := by
  unfold FitsIn at h
  unfold Target.externalAccesses
  by_cases hio : IsIo q.addr
  · rw [if_pos hio] at h
    rw [if_pos hio]
    rcases h with hzero | ⟨hle, hsize⟩
    · rw [hzero]
      exact ⟨fun a ha => absurd ha List.not_mem_nil, fun hpos => absurd hzero hpos.ne'⟩
    · rcases Nat.eq_zero_or_pos q.nb with hzero | hpos
      · rw [hzero]
        exact ⟨fun a ha => absurd ha List.not_mem_nil, fun hpos => absurd hzero hpos.ne'⟩
      rw [ioAccesses_of_le hpos hle]
      refine ⟨fun a ha => ?_, fun _ => ⟨_, List.mem_singleton_self _, hle⟩⟩
      obtain ⟨hwidth, htarget, hbuffer⟩ := mem_single.mp ha
      rw [hwidth]
      exact ⟨htarget, hbuffer, ioWidth_le_page q.addr, hsize⟩
  · rw [if_neg hio] at h
    rw [if_neg hio]
    refine ⟨fun a ha => ?_, fun _ => ⟨_, List.mem_singleton_self _, le_rfl⟩⟩
    obtain ⟨hwidth, htarget, hbuffer⟩ := mem_single.mp ha
    rw [hwidth]
    exact ⟨htarget, hbuffer, hq.in_page, h⟩

theorem fitsIn_iff (hq : q.IsPartOf addr len) : q.FitsIn size ↔
    ∀ a ∈ Target.externalAccesses q.addr q.nb, q.total + a.buffer + a.width ≤ size ∧
      a.target = (addr + (q.total + a.buffer)) % 2 ^ 32 := by
  refine ⟨fun h a ha => ?_, fun h => ?_⟩
  · obtain ⟨htarget, hbuffer, -, hsize⟩ := (h.atOnce hq).one a ha
    rw [htarget, hbuffer, Nat.add_zero]
    exact ⟨hsize, hq.addr_eq⟩
  · unfold FitsIn
    unfold Target.externalAccesses at h
    by_cases hio : IsIo q.addr
    · rw [if_pos hio] at h
      rw [if_pos hio]
      refine or_iff_not_imp_left.mpr fun hzero => ?_
      obtain ⟨k, -, hlt, hk, hend, hmem⟩ := exists_last_access q.addr (le_refl (q.nb + 0))
        (Nat.pos_of_ne_zero hzero)
      obtain ⟨hsize, htarget⟩ := h _ hmem
      dsimp only at hsize htarget
      rcases Nat.eq_zero_or_pos k with rfl | hkpos
      · rw [Nat.mul_zero, Nat.add_zero] at hsize
        rw [Nat.zero_add] at hend
        exact ⟨hend, hsize⟩
      · -- a halfword or a word that is not the first access has another place in the buffer
        have heven : (q.addr + k) % 2 = 0 := hk.resolve_left hkpos.ne'
        have hwidth : ioWidth (q.addr + k) = 2 ∨ ioWidth (q.addr + k) = 4 := by
          rcases ioWidth_cases (q.addr + k) with ⟨hodd, -⟩ | ⟨-, hwidth⟩ | ⟨-, hwidth⟩
          · omega
          · exact .inl hwidth
          · exact .inr hwidth
        have hpage : k < 0x1000 := lt_of_lt_of_le hlt (le_of_add_le_right hq.in_page)
        rw [← Nat.add_assoc] at htarget
        nth_rewrite 1 [hq.addr_eq] at htarget
        exact absurd htarget (misplaced hkpos hpage hwidth)
    · rw [if_neg hio] at h
      rw [if_neg hio]
      exact (h _ (List.mem_singleton_self _)).1

end Piece

namespace Target
variable {t : Target} {l : List TargetAccess}

theorem limit_le (t : Target) : t.limit ≤ 0x80000000 :=
  Nat.pow_le_pow_right (by decide) (Nat.sub_le_sub_left t.ttbcr_pos 32)

theorem externalAccesses_of_not_io (h : ¬IsIo addr) :
    externalAccesses addr len = [⟨len, addr, 0⟩] := if_neg h

theorem not_io_of_lt_limit (h : addr < t.limit) : ¬IsIo addr :=
  fun hio => absurd hio.1 (not_le.mpr (h.trans_le (t.limit_le.trans (by decide))))

theorem not_io_of_kernel (h : ¬(0x80000000 ≤ addr ∧ addr < 0xB0000000)) : ¬IsIo addr :=
  fun hio => h ⟨le_trans (by decide) hio.1, lt_trans hio.2 (by decide)⟩

theorem readInPage_made (h : t.readInPage addr len = .made l) : l = externalAccesses addr len := by
  unfold readInPage at h
  split_ifs at h with hlimit hprocess hoff hexternal hmap
  · rw [externalAccesses_of_not_io (not_io_of_lt_limit hlimit)]
    exact (PageAccess.made.inj h).symm
  · exact (PageAccess.made.inj h).symm
  · rw [externalAccesses_of_not_io (not_io_of_kernel hexternal)]
    exact (PageAccess.made.inj h).symm

theorem writeInPage_made (h : t.writeInPage addr len = .made l) :
    l = externalAccesses addr len := by
  unfold writeInPage at h
  split_ifs at h with hlimit hprocess hoff hexternal hmap
  · rw [externalAccesses_of_not_io (not_io_of_lt_limit hlimit)]
    exact (PageAccess.made.inj h).symm
  · exact (PageAccess.made.inj h).symm
  · rw [externalAccesses_of_not_io (not_io_of_kernel hexternal)]
    exact (PageAccess.made.inj h).symm

theorem made_readInPage_iff (q : Piece) :
    Made t.readInPage q ↔ t.readable q.addr = true := by
  unfold Made readInPage readable
  split_ifs with hlimit hprocess hoff hexternal hmap
  · simp [hprocess]
  · simp [hprocess]
  · simp [hoff]
  · simp [hoff, hexternal]
  · simp [hexternal, hmap]
  · simp [hoff, hmap]

theorem readable_page {x y : ℕ} (h : x / 0x1000 = y / 0x1000) : t.readable x = t.readable y := by
  have hlimit : t.limit = 2 ^ (20 - t.ttbcr) * 0x1000 := by
    have hle := t.ttbcr_le
    rw [limit, show 32 - t.ttbcr = 20 - t.ttbcr + 12 by omega, Nat.pow_add]
  have hlt (n : ℕ) : x < n * 0x1000 ↔ y < n * 0x1000 := by
    rw [← Nat.div_lt_iff_lt_mul (by decide), ← Nat.div_lt_iff_lt_mul (by decide), h]
  have hlow : 0x80000000 ≤ x ↔ 0x80000000 ≤ y := by
    rw [← not_lt, ← not_lt]
    exact (hlt 0x80000).not
  have hhigh : x < 0xB0000000 ↔ y < 0xB0000000 := hlt 0xB0000
  unfold readable
  rw [hlimit, h]
  simp only [hlt, hlow, hhigh]

end Target

/-! ## Whole transfers -/

/-- Each piece that is accessed fits. -/
def Fits (inPage : ℕ → ℕ → PageAccess) (addr len size : ℕ) : Prop :=
  ∀ q ∈ tried inPage (piecesOf addr len), Made inPage q → q.FitsIn size

/-- The accesses within a page are those of `externalAccesses`, where they are made. -/
def ByPages (inPage : ℕ → ℕ → PageAccess) : Prop :=
  ∀ addr len l, inPage addr len = .made l → l = Target.externalAccesses addr len

variable {size : ℕ}

theorem piecesOf_comes (inPage : ℕ → ℕ → PageAccess) (len : ℕ) (haddr : addr < 2 ^ 32) :
    Comes inPage (piecesOf addr len) 0 (transfer inPage (piecesOf addr len) 0) :=
  transfer_comes (piecesOf_tile haddr).1

theorem isPartOf_of_tried (haddr : addr < 2 ^ 32) (hq : q ∈ tried inPage (piecesOf addr len)) :
    q.IsPartOf addr len := (piecesOf_tile haddr).2.2 q (tried_subset _ _ q hq)

theorem exact_iff (hpages : ByPages inPage) (haddr : addr < 2 ^ 32) :
    (transfer inPage (piecesOf addr len) 0).Exact addr size ↔ Fits inPage addr len size := by
  have hcomes := piecesOf_comes inPage len haddr
  unfold Fits Transfer.Exact
  constructor
  · rintro h q hq ⟨l, hl⟩
    rw [Piece.fitsIn_iff (isPartOf_of_tried haddr hq), ← hpages _ _ _ hl]
    exact fun a ha => h _ ((hcomes.mem_accesses _).mpr ⟨q, hq, l, hl, a, ha, rfl⟩)
  · intro h a ha
    obtain ⟨q, hq, l, hl, b, hb, rfl⟩ := (hcomes.mem_accesses a).mp ha
    rw [hpages _ _ _ hl] at hb
    exact (Piece.fitsIn_iff (isPartOf_of_tried haddr hq)).mp (h q hq ⟨l, hl⟩) b hb

theorem total_le (inPage : ℕ → ℕ → PageAccess) (len : ℕ) (haddr : addr < 2 ^ 32) :
    (transfer inPage (piecesOf addr len) 0).total ≤ len := by
  rcases (piecesOf_comes inPage len haddr).stops with hend | ⟨q, hq, hstop, -⟩
  · rw [hend, (piecesOf_tile haddr).2.1, Nat.zero_add]
  · rw [← hstop]
    exact (Nat.le_add_right _ _).trans ((piecesOf_tile haddr).2.2 q hq).le_len

theorem addr_add {i : ℕ} (hq : q.IsPartOf addr len) (hi : q.addr % 0x1000 + i < 0x1000) :
    q.addr + i = (addr + (q.total + i)) % 2 ^ 32 := by
  have haddr := hq.addr_eq
  omega

theorem total_isGreatest (t : Target) (len : ℕ) (haddr : addr < 2 ^ 32) :
    IsGreatest (t.prefixes addr len) (gdbReadTargetMemory t addr len).total := by
  have hcomes := piecesOf_comes t.readInPage len haddr
  refine ⟨⟨total_le _ len haddr, fun i hi => ?_⟩, fun n hn => ?_⟩
  · obtain ⟨q, hq, hmade, hle, hlt⟩ := hcomes.covered i (Nat.zero_le i) hi
    have hpart := isPartOf_of_tried haddr hq
    have hpage := hpart.in_page
    have hplace := addr_add hpart (show q.addr % 0x1000 + (i - q.total) < 0x1000 by omega)
    rw [Nat.add_sub_cancel' hle] at hplace
    rw [← hplace, ← (Target.made_readInPage_iff q).mp hmade]
    exact Target.readable_page (by omega)
  · rcases hcomes.stops with hend | ⟨q, hq, hstop, hmade⟩
    · rw [gdbReadTargetMemory, hend, (piecesOf_tile haddr).2.1, Nat.zero_add]
      exact hn.1
    · by_contra hlt
      have hread := hn.2 _ (not_le.mp hlt)
      rw [gdbReadTargetMemory, ← hstop, ← ((piecesOf_tile haddr).2.2 q hq).addr_eq] at hread
      exact hmade ((Target.made_readInPage_iff q).mpr hread)

theorem read_eq {t : Target} (haddr : addr < 2 ^ 32) (h : Fits t.readInPage addr len size)
    (junk : Memory) :
    read (ioRead (gdbReadTargetMemory t addr len).accesses t.byte junk) 0
      (gdbReadTargetMemory t addr len).total =
    bytesAt t.byte addr (gdbReadTargetMemory t addr len).total := by
  have hcomes := piecesOf_comes t.readInPage len haddr
  refine List.map_congr_left fun i hi => ?_
  rw [Nat.zero_add]
  refine foldl_write_read (f := fun i => t.byte ((addr + i) % 2 ^ 32)) (fun a ha j hj => ?_) ?_
  · obtain ⟨q, hq, l, hl, b, hb, rfl⟩ := (hcomes.mem_accesses a).mp ha
    have hpart := isPartOf_of_tried haddr hq
    rw [Target.readInPage_made hl] at hb
    obtain ⟨htarget, hbuffer, hpage, -⟩ := ((h q hq ⟨l, hl⟩).atOnce hpart).one b hb
    dsimp only at hj ⊢
    rw [htarget, hbuffer, Nat.add_zero, addr_add hpart (by omega)]
  · obtain ⟨q, hq, ⟨l, hl⟩, hle, hlt⟩ := hcomes.covered i (Nat.zero_le i) (List.mem_range.mp hi)
    have hatOnce := (h q hq ⟨l, hl⟩).atOnce (isPartOf_of_tried haddr hq)
    obtain ⟨b, hb, hwide⟩ := hatOnce.all (by omega)
    have hbuffer := (hatOnce.one b hb).2.1
    rw [← Target.readInPage_made hl] at hb
    refine .inr ⟨_, (hcomes.mem_accesses _).mpr ⟨q, hq, l, hl, b, hb, rfl⟩, ?_⟩
    dsimp only
    omega

theorem putAt_inside {m : Memory} {data : List UInt8} {k : ℕ} (haddr : addr < 2 ^ 32)
    (hdata : data.length ≤ 2 ^ 32) (hk : k < data.length) :
    putAt m addr data ((addr + k) % 2 ^ 32) = data[k] := by
  have hindex : ((addr + k) % 2 ^ 32 + (2 ^ 32 - addr)) % 2 ^ 32 = k := by omega
  rw [putAt, if_pos (Nat.mod_lt _ (Nat.two_pow_pos 32)), hindex, List.getElem?_eq_getElem hk,
    Option.getD_some]

theorem putAt_cases (m : Memory) (data : List UInt8) (haddr : addr < 2 ^ 32) (x : ℕ) :
    (∃ k < data.length, x = (addr + k) % 2 ^ 32) ∨ putAt m addr data x = m x := by
  unfold putAt
  by_cases hx : x < 2 ^ 32
  · rw [if_pos hx]
    by_cases hk : (x + (2 ^ 32 - addr)) % 2 ^ 32 < data.length
    · exact .inl ⟨_, hk, by omega⟩
    · rw [List.getElem?_eq_none (not_lt.mp hk)]
      exact .inr rfl
  · exact .inr (if_neg hx)

theorem write_eq {t : Target} {data : List UInt8} (haddr : addr < 2 ^ 32)
    (hdata : data.length ≤ 2 ^ 32) (h : Fits t.writeInPage addr data.length data.length)
    (junk : Memory) :
    ioWrite (gdbWriteTargetMemory t addr data.length).accesses t.byte (write junk 0 data) =
      putAt t.byte addr (data.take (gdbWriteTargetMemory t addr data.length).total) := by
  have hcomes := piecesOf_comes t.writeInPage data.length haddr
  have htotal : (gdbWriteTargetMemory t addr data.length).total ≤ data.length :=
    total_le _ _ haddr
  have htake : (data.take (gdbWriteTargetMemory t addr data.length).total).length =
      (gdbWriteTargetMemory t addr data.length).total := List.length_take_of_le htotal
  funext x
  refine foldl_write_read (f := putAt t.byte addr _) (fun a ha j hj => ?_) ?_
  · obtain ⟨q, hq, l, hl, b, hb, rfl⟩ := (hcomes.mem_accesses a).mp ha
    have hpart := isPartOf_of_tried haddr hq
    have hwithin : q.total + q.nb ≤ (gdbWriteTargetMemory t addr data.length).total :=
      hcomes.within q hq ⟨l, hl⟩
    rw [Target.writeInPage_made hl] at hb
    obtain ⟨htarget, hbuffer, hpage, hsize⟩ := ((h q hq ⟨l, hl⟩).atOnce hpart).one b hb
    have hends := hpart.ends
    dsimp only at hj ⊢
    have hk : q.total + j < (gdbWriteTargetMemory t addr data.length).total := by omega
    have hwrite : write junk 0 data (0 + (q.total + j)) = data[q.total + j] :=
      write_inside (hk.trans_le htotal)
    rw [htarget, hbuffer, Nat.add_zero, addr_add hpart (by omega),
      putAt_inside haddr (htake.trans_le (htotal.trans hdata)) (by rwa [htake]),
      List.getElem_take, ← hwrite, Nat.zero_add]
  · rcases putAt_cases t.byte (data.take (gdbWriteTargetMemory t addr data.length).total) haddr x
      with ⟨k, hk, rfl⟩ | hkeeps
    · rw [htake] at hk
      obtain ⟨q, hq, ⟨l, hl⟩, hle, hlt⟩ := hcomes.covered k (Nat.zero_le k) hk
      have hpart := isPartOf_of_tried haddr hq
      have hatOnce := (h q hq ⟨l, hl⟩).atOnce hpart
      obtain ⟨b, hb, hwide⟩ := hatOnce.all (by omega)
      obtain ⟨htarget, -, hpage, -⟩ := hatOnce.one b hb
      rw [← Target.writeInPage_made hl] at hb
      refine .inr ⟨_, (hcomes.mem_accesses _).mpr ⟨q, hq, l, hl, b, hb, rfl⟩, ?_⟩
      have hplace := addr_add hpart (show q.addr % 0x1000 + (k - q.total) < 0x1000 by omega)
      rw [Nat.add_sub_cancel' hle] at hplace
      dsimp only
      rw [htarget, ← hplace]
      omega
    · exact .inl hkeeps.symm

end Presence3DS.Gdb.Packets
