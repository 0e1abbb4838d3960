import Mathlib.Data.List.GetD
import Mathlib.Data.Nat.Digits.Lemmas
import Presence3DS.Gdb.HexCodec
import Presence3DS.Gdb.Xfer

/-! The list of a process's threads (`thread.c`): it is written as a text at the first query and
sent piece by piece, the next query continuing where the one before it stopped. -/

namespace Presence3DS.Gdb.ThreadList
open CString Packets Xfer

/-! ## The list -/

/-- What is read of a context; a mask is nothing where `svcGetDebugThreadParam` fails. -/
structure Context where
  multiprocessExtEnabled : Bool
  pid : UInt32
  threadInfos : List UInt32
  schedulingMask : UInt32 → Option UInt32

/-- `%lx` -/
def hexText (n : UInt32) : Bytes :=
  if n = 0 then [alphabet.getD 0 0]
  else (Nat.digits 16 n.toNat).reverse.map fun d => alphabet.getD d 0

def convertFromRealPid (pid : UInt32) : UInt32 := pid + 1

def encodeThreadId (ctx : Context) (tid : UInt32) : Bytes :=
  if ctx.multiprocessExtEnabled then
    0x70 :: hexText (convertFromRealPid ctx.pid) ++ 0x2E :: hexText tid
  else hexText tid

def isAlive (ctx : Context) (id : UInt32) : Bool :=
  match ctx.schedulingMask id with
  | some mask => mask ≠ 2
  | none => false

def aliveThreadIds (ctx : Context) : List UInt32 := ctx.threadInfos.filter (isAlive ctx)

def listText (ctx : Context) (ids : List UInt32) : Bytes :=
  List.intercalate [0x2C] (ids.map (encodeThreadId ctx))

/-- `sizeof(ctx->threadListData)` -/
def threadListDataSize : ℕ := 0x800

/-- A text that does not fit with its NUL is written past the end of the array. -/
def generateThreadListData (ctx : Context) : Option Text :=
  if h : (listText ctx (aliveThreadIds ctx)).length < threadListDataSize then
    some ⟨listText ctx (aliveThreadIds ctx), h.trans (by decide)⟩
  else none

/-! ## The queries -/

structure Pending where
  threadListData : Text
  threadListDataPos : UInt32

/-- The list is dropped when all of it has been sent, and when the process is detached. -/
def Pending.none : Pending := ⟨Text.none, 0⟩

/-- The last separator among the `len` bytes behind the first. -/
def lastSeparator (outside : UInt32 → UInt8) (l : Pending) : ℕ → ℕ
  | 0 => 0
  | len + 1 =>
    if byteAt outside l.threadListData (l.threadListDataPos + UInt32.ofNat (len + 1)) ≠ 0x2C then
      lastSeparator outside l len
    else len + 1

def pieceLength (outside : UInt32 → UInt8) (l : Pending) : UInt32 :=
  let sz := l.threadListData.size
  if sz ≤ l.threadListDataPos then 0
  else if sz - l.threadListDataPos ≤ bufLen - 1 then sz - l.threadListDataPos
  else UInt32.ofNat (lastSeparator outside l (bufLen - 1).toNat - 1)

def sendThreadData (outside : UInt32 → UInt8) (l : Pending) : Reply × Pending :=
  let sz := l.threadListData.size
  let len := pieceLength outside l
  (sendStreamData outside l.threadListData l.threadListDataPos len true,
    if sz ≤ l.threadListDataPos then .none
    else { l with threadListDataPos := l.threadListDataPos + len })

inductive Query where
  | fThreadInfo (ctx : Context)
  | sThreadInfo

def handleQuery (outside : UInt32 → UInt8) (l : Pending) : Query → Option (Reply × Pending)
  | .fThreadInfo ctx =>
    if l.threadListData.bytes = [] then
      (generateThreadListData ctx).map fun data =>
        sendThreadData outside { l with threadListData := data }
    else some (sendThreadData outside l)
  | .sThreadInfo => some (sendThreadData outside l)

/-- The data of a packet. -/
def packet (r : Reply) : Bytes := (if r.last then 0x6C else 0x6D) :: r.bytes

/-- The packets that queries are answered with, one behind the other. -/
def answers (outside : UInt32 → UInt8) : Pending → List Query → Option (List Bytes)
  | _, [] => some []
  | l, q :: qs => do
    let (reply, l) ← handleQuery outside l q
    let packets ← answers outside l qs
    return packet reply :: packets

/-- `GDB_DetachFromProcess` resets the list, whatever has been sent of it. -/
inductive Reached (outside : UInt32 → UInt8) : Pending → Prop
  | detached : Reached outside .none
  | query {l l' : Pending} {q : Query} {reply : Reply} (h : Reached outside l)
      (hq : handleQuery outside l q = some (reply, l')) : Reached outside l'

/-- The packets of a list are of whole identifiers, of all that are alive at the first query,
and the mark of the end comes behind them, whichever queries follow. -/
def SendsWhole (outside : UInt32 → UInt8) (l : Pending) (ctx : Context) : Prop :=
  ∃ lists : List (List UInt32), lists.flatten = aliveThreadIds ctx ∧
    (∀ ids ∈ lists, (0x6D :: listText ctx ids).length ≤ bufLen.toNat) ∧
    ∀ later : List Query, later.length = lists.length →
      answers outside l (.fThreadInfo ctx :: later) =
        some (lists.map (fun ids => 0x6D :: listText ctx ids) ++ [[0x6C]])

/-! ## Texts -/

section
variable {ctx : Context} {a b : List UInt32}

theorem alphabet_ne_comma (d : ℕ) : alphabet.getD d 0 ≠ 0x2C := by
  have hall : ∀ c ∈ alphabet, c ≠ 0x2C := by decide +kernel
  rcases Nat.lt_or_ge d alphabet.length with h | h
  · rw [List.getD_eq_getElem _ _ h]
    exact hall _ (List.getElem_mem h)
  · rw [List.getD_eq_default _ _ h]
    decide

theorem hexText_eq_cons (n : UInt32) : ∃ c s, hexText n = c :: s ∧ c ≠ 0x2C := by
  unfold hexText
  split_ifs with h
  · exact ⟨_, _, rfl, alphabet_ne_comma 0⟩
  · have hne : Nat.digits 16 n.toNat ≠ [] :=
      Nat.digits_ne_nil_iff_ne_zero.mpr fun h0 => h (UInt32.toNat_inj.mp h0)
    obtain ⟨d, ds, hds⟩ := List.exists_cons_of_ne_nil (List.reverse_ne_nil_iff.mpr hne)
    rw [hds]
    exact ⟨_, _, rfl, alphabet_ne_comma d⟩

theorem encodeThreadId_eq_cons (ctx : Context) (tid : UInt32) :
    ∃ c s, encodeThreadId ctx tid = c :: s ∧ c ≠ 0x2C := by
  unfold encodeThreadId
  split_ifs
  · exact ⟨_, _, rfl, by decide⟩
  · exact hexText_eq_cons tid

theorem listText_cons (ctx : Context) (id : UInt32) (ids : List UInt32) :
    ∃ c s, listText ctx (id :: ids) = c :: s ∧ c ≠ 0x2C := by
  obtain ⟨c, s, hid, hc⟩ := encodeThreadId_eq_cons ctx id
  cases ids with
  | nil => exact ⟨c, s, List.intercalate_singleton.trans hid, hc⟩
  | cons id' ids =>
    refine ⟨c, s ++ ([0x2C] ++ listText ctx (id' :: ids)), ?_, hc⟩
    rw [listText, List.map_cons, List.map_cons, List.intercalate_cons_cons, hid,
      List.append_assoc]
    rfl

theorem listText_eq_nil_iff : listText ctx a = [] ↔ a = [] := by
  cases a with
  | nil => exact iff_of_true rfl rfl
  | cons id ids =>
    obtain ⟨c, s, h, -⟩ := listText_cons ctx id ids
    rw [h]
    exact iff_of_false (List.cons_ne_nil _ _) (List.cons_ne_nil _ _)

theorem listText_append (ha : a ≠ []) (hb : b ≠ []) :
    listText ctx (a ++ b) = listText ctx a ++ 0x2C :: listText ctx b := by
  induction a with
  | nil => exact absurd rfl ha
  | cons id ids ih =>
    have hmap : (b.map (encodeThreadId ctx)) ≠ [] := fun h => hb (List.map_eq_nil_iff.mp h)
    cases ids with
    | nil =>
      show List.intercalate [0x2C] (encodeThreadId ctx id :: b.map (encodeThreadId ctx)) = _
      rw [List.intercalate_cons_of_ne_nil hmap, List.append_assoc]
      show _ = List.intercalate [0x2C] [encodeThreadId ctx id] ++ _
      rw [List.intercalate_singleton]
      rfl
    | cons id' ids =>
      have hrest := ih (List.cons_ne_nil _ _)
      show List.intercalate [0x2C] (encodeThreadId ctx id :: encodeThreadId ctx id' ::
        (ids ++ b).map (encodeThreadId ctx)) = List.intercalate [0x2C] (encodeThreadId ctx id ::
        encodeThreadId ctx id' :: ids.map (encodeThreadId ctx)) ++ _
      rw [List.intercalate_cons_cons, List.intercalate_cons_cons, List.append_assoc]
      rw [List.append_assoc, List.append_assoc]
      exact congrArg (fun s => encodeThreadId ctx id ++ ([0x2C] ++ s)) hrest

end

/-! ## Pieces -/

section
variable {outside : UInt32 → UInt8} {l : Pending}

theorem sendThreadData_last
    (h : l.threadListData.bytes.length ≤ l.threadListDataPos.toNat) :
    packet (sendThreadData outside l).1 = [0x6C] ∧ (sendThreadData outside l).2 = .none := by
  have hsize := size_le_iff.mpr h
  refine ⟨?_, if_pos hsize⟩
  have hreply : (sendThreadData outside l).1 =
      copied outside true l.threadListData l.threadListDataPos 0 := by
    show sendStreamData _ _ _ _ _ = _
    unfold sendStreamData
    rw [if_pos (Or.inl ⟨rfl, hsize⟩), if_pos hsize]
  rw [hreply]
  rfl

theorem sendThreadData_piece {n : ℕ} (hn : (pieceLength outside l).toNat = n) (hmax : n ≤ 1023)
    (h : l.threadListDataPos.toNat + n ≤ l.threadListData.bytes.length)
    (hlt : l.threadListDataPos.toNat < l.threadListData.bytes.length) :
    packet (sendThreadData outside l).1 =
        0x6D :: (l.threadListData.bytes.drop l.threadListDataPos.toNat).take n ∧
      (sendThreadData outside l).2.threadListData = l.threadListData ∧
      (sendThreadData outside l).2.threadListDataPos.toNat = l.threadListDataPos.toNat + n := by
  have hsize : ¬ l.threadListData.size ≤ l.threadListDataPos :=
    fun hle => Nat.not_le.mpr hlt (size_le_iff.mp hle)
  have hclamped : clamped (pieceLength outside l) = pieceLength outside l := by
    apply UInt32.toNat_inj.mp
    rw [toNat_clamped, hn]
    omega
  have hreply : (sendThreadData outside l).1 =
      copied outside false l.threadListData l.threadListDataPos (pieceLength outside l) := by
    show sendStreamData _ _ _ _ _ = _
    unfold sendStreamData
    rw [if_neg, hclamped]
    rintro (⟨-, hle⟩ | ⟨hforce, -⟩)
    · exact hsize hle
    · exact Bool.noConfusion hforce
  have hrest : (sendThreadData outside l).2 =
      { l with threadListDataPos := l.threadListDataPos + pieceLength outside l } := if_neg hsize
  refine ⟨?_, by rw [hrest], ?_⟩
  · rw [hreply]
    show 0x6D :: _ = _
    rw [copied_bytes (by omega), hn]
  · have hfits := l.threadListData.fits
    rw [hrest]
    show (l.threadListDataPos + pieceLength outside l).toNat = _
    rw [UInt32.toNat_add, hn]
    omega

theorem pieceLength_rest
    (hlt : l.threadListDataPos.toNat < l.threadListData.bytes.length)
    (hrest : l.threadListData.bytes.length - l.threadListDataPos.toNat ≤ 1023) :
    (pieceLength outside l).toNat =
      l.threadListData.bytes.length - l.threadListDataPos.toNat := by
  have hsub : (l.threadListData.size - l.threadListDataPos).toNat =
      l.threadListData.bytes.length - l.threadListDataPos.toNat := by
    rw [UInt32.toNat_sub_of_le, Text.toNat_size]
    rw [UInt32.le_iff_toNat_le, Text.toNat_size]
    exact hlt.le
  have hmax : (bufLen - 1).toNat = 1023 := by decide
  unfold pieceLength
  rw [if_neg, if_pos, hsub]
  · rw [UInt32.le_iff_toNat_le, hsub, hmax]
    exact hrest
  · rw [size_le_iff]
    omega

theorem lastSeparator_spec (len : ℕ) : lastSeparator outside l len ≤ len ∧
    (lastSeparator outside l len = 0 ∨ byteAt outside l.threadListData
      (l.threadListDataPos + UInt32.ofNat (lastSeparator outside l len)) = 0x2C) := by
  induction len with
  | zero => exact ⟨le_rfl, Or.inl rfl⟩
  | succ len ih =>
    unfold lastSeparator
    split_ifs with h
    · exact ⟨ih.1.trans (Nat.le_succ _), ih.2⟩
    · exact ⟨le_rfl, Or.inr (not_not.mp h)⟩

theorem pieceLength_cut
    (hlong : 1023 < l.threadListData.bytes.length - l.threadListDataPos.toNat) :
    (pieceLength outside l).toNat = 0 ∨ (pieceLength outside l).toNat ≤ 1022 ∧
      l.threadListData.bytes[l.threadListDataPos.toNat + (pieceLength outside l).toNat + 1]? =
        some 0x2C := by
  have hfits := l.threadListData.fits
  have hsub : (l.threadListData.size - l.threadListDataPos).toNat =
      l.threadListData.bytes.length - l.threadListDataPos.toNat := by
    rw [UInt32.toNat_sub_of_le, Text.toNat_size]
    rw [UInt32.le_iff_toNat_le, Text.toNat_size]
    omega
  have hmax : (bufLen - 1).toNat = 1023 := by decide
  have hlen : pieceLength outside l =
      UInt32.ofNat (lastSeparator outside l 1023 - 1) := by
    unfold pieceLength
    rw [if_neg, if_neg, hmax]
    · rw [UInt32.le_iff_toNat_le, hsub, hmax]
      omega
    · rw [size_le_iff]
      omega
  obtain ⟨hle, hsep⟩ := @lastSeparator_spec outside l 1023
  have hnat : (pieceLength outside l).toNat = lastSeparator outside l 1023 - 1 := by
    rw [hlen, UInt32.toNat_ofNat']
    omega
  rw [hnat]
  rcases Nat.eq_zero_or_pos (lastSeparator outside l 1023) with h0 | hpos
  · exact Or.inl (by rw [h0])
  · have hcomma := hsep.resolve_left hpos.ne'
    refine Or.inr ⟨by omega, ?_⟩
    have haddr : (l.threadListDataPos + UInt32.ofNat (lastSeparator outside l 1023)).toNat =
        l.threadListDataPos.toNat + lastSeparator outside l 1023 := by
      rw [UInt32.toNat_add, UInt32.toNat_ofNat']
      omega
    rw [byteAt, haddr, List.getElem?_eq_getElem (by omega), Option.getD_some] at hcomma
    rw [show l.threadListDataPos.toNat + (lastSeparator outside l 1023 - 1) + 1 =
      l.threadListDataPos.toNat + lastSeparator outside l 1023 by omega,
      List.getElem?_eq_getElem (by omega), hcomma]

end

/-! ## Whole identifiers -/

section
variable {outside : UInt32 → UInt8} {l l' : Pending} {q : Query} {reply : Reply}
  {ctx : Context} {packets : List Bytes}

theorem answers_cons {p : Reply × Pending} (h : handleQuery outside l q = some p)
    (qs : List Query) :
    answers outside l (q :: qs) = (answers outside p.2 qs).map (packet p.1 :: ·) := by
  show ((handleQuery outside l q).bind fun p => (answers outside p.2 qs).bind
    fun packets => some (packet p.1 :: packets)) = _
  rw [h]
  show (answers outside p.2 qs).bind (fun packets => some (packet p.1 :: packets)) = _
  cases answers outside p.2 qs <;> rfl

theorem handleQuery_taken (h : l.threadListData.bytes ≠ []) (q : Query) :
    handleQuery outside l q = some (sendThreadData outside l) := by
  cases q with
  | fThreadInfo ctx => exact if_neg h
  | sThreadInfo => rfl

theorem handleQuery_first {data : Text} (h : l.threadListData.bytes = [])
    (hdata : generateThreadListData ctx = some data) :
    handleQuery outside l (.fThreadInfo ctx) =
      some (sendThreadData outside { l with threadListData := data }) := by
  show (if _ then _ else _) = _
  rw [if_pos h, hdata]
  rfl

theorem handleQuery_overrun (h : l.threadListData.bytes = [])
    (hdata : generateThreadListData ctx = none) :
    handleQuery outside l (.fThreadInfo ctx) = none := by
  show (if _ then _ else _) = _
  rw [if_pos h, hdata]
  rfl

theorem sendThreadData_idle (h : l.threadListData.bytes = [] → l.threadListDataPos = 0) :
    (sendThreadData outside l).2.threadListData.bytes = [] →
      (sendThreadData outside l).2.threadListDataPos = 0 := by
  unfold sendThreadData
  dsimp only
  split_ifs with hsize
  · exact fun _ => rfl
  · intro hnil
    refine absurd (size_le_iff.mpr ?_) hsize
    show l.threadListData.bytes.length ≤ _
    rw [hnil]
    exact Nat.zero_le _

theorem Reached.pos_eq_zero (h : Reached outside l) :
    l.threadListData.bytes = [] → l.threadListDataPos = 0 := by
  induction h with
  | detached => exact fun _ => rfl
  | @query l l' q reply h hq ih =>
    cases q with
    | sThreadInfo =>
      rw [← (Prod.mk.inj (Option.some.inj hq)).2]
      exact sendThreadData_idle ih
    | fThreadInfo ctx =>
      by_cases hnil : l.threadListData.bytes = []
      · cases hdata : generateThreadListData ctx with
        | none => rw [handleQuery_overrun hnil hdata] at hq; cases hq
        | some data =>
          rw [handleQuery_first hnil hdata] at hq
          rw [← (Prod.mk.inj (Option.some.inj hq)).2]
          exact sendThreadData_idle fun _ => ih hnil
      · rw [handleQuery_taken hnil] at hq
        rw [← (Prod.mk.inj (Option.some.inj hq)).2]
        exact sendThreadData_idle fun h => absurd h hnil

theorem sendsWhole_of_short (hnil : l.threadListData.bytes = []) (hpos : l.threadListDataPos = 0)
    (hlen : (listText ctx (aliveThreadIds ctx)).length ≤ 1023) : SendsWhole outside l ctx := by
  have hgen : generateThreadListData ctx =
      some ⟨listText ctx (aliveThreadIds ctx), (hlen.trans_lt (by decide))⟩ :=
    dif_pos (hlen.trans_lt (by decide))
  have hfirst := @handleQuery_first outside l ctx _ hnil hgen
  have hfits : (listText ctx (aliveThreadIds ctx)).length < 0x100000000 :=
    hlen.trans_lt (by decide)
  generalize hl' : Pending.mk ⟨listText ctx (aliveThreadIds ctx), hfits⟩ 0 = l'
  have hbytes : l'.threadListData.bytes = listText ctx (aliveThreadIds ctx) := by rw [← hl']
  have hpos' : l'.threadListDataPos.toNat = 0 := by
    rw [← hl']
    rfl
  rw [hpos] at hfirst
  rw [show ({ threadListData := _, threadListDataPos := 0 } : Pending) = l' from hl'] at hfirst
  by_cases hids : aliveThreadIds ctx = []
  · -- No thread is alive, and the mark is sent at once.
    refine ⟨[], hids.symm, by simp, fun later hlater => ?_⟩
    rw [List.length_eq_zero_iff.mp hlater, answers_cons hfirst]
    have hlast := @sendThreadData_last outside l' (by rw [hbytes, hids]; exact Nat.zero_le _)
    show some [packet (sendThreadData outside l').1] = _
    rw [hlast.1]
    rfl
  · have htext : listText ctx (aliveThreadIds ctx) ≠ [] := fun h =>
      hids (listText_eq_nil_iff.mp h)
    have hlt := List.length_pos_iff.mpr htext
    have hn := @pieceLength_rest outside l' (by rw [hbytes, hpos']; exact hlt)
      (by rw [hbytes, hpos']; exact hlen)
    obtain ⟨hpacket, hdata, hend⟩ := sendThreadData_piece hn (by rw [hbytes, hpos']; exact hlen)
      (by omega) (by rw [hbytes, hpos']; exact hlt)
    refine ⟨[aliveThreadIds ctx], List.flatten_singleton, fun ids h => ?_, fun later hlater => ?_⟩
    · rw [List.mem_singleton.mp h]
      exact Nat.succ_le_succ hlen
    · obtain ⟨q, rfl⟩ := List.length_eq_one_iff.mp hlater
      have hlast := @sendThreadData_last outside (sendThreadData outside l').2 (by
        rw [hdata, hend]
        omega)
      have hq := @handleQuery_taken outside (sendThreadData outside l').2
        (by rw [hdata, hbytes]; exact htext) q
      rw [answers_cons hfirst, answers_cons hq]
      show some [packet (sendThreadData outside l').1, packet (sendThreadData outside _).1] = _
      rw [hlast.1, hpacket, hpos', hbytes, List.drop_zero, Nat.sub_zero, List.take_length]
      rfl

theorem answers_stuck (hne : l.threadListData.bytes ≠ [])
    (hstuck : sendThreadData outside l = (reply, l)) (qs : List Query) :
    answers outside l qs = some (List.replicate qs.length (packet reply)) := by
  induction qs with
  | nil => rfl
  | cons q qs ih =>
    rw [answers_cons ((handleQuery_taken hne q).trans (congrArg some hstuck)), ih]
    rfl

theorem piece_ne_listText {n : ℕ} {a b : List UInt32} (hn : n + 1 < (listText ctx (a ++ b)).length)
    (hcomma : (listText ctx (a ++ b))[n + 1]? = some 0x2C) (ha : a ≠ []) :
    (listText ctx (a ++ b)).take n ≠ listText ctx a := by
  intro h
  cases b with
  | nil =>
    rw [List.append_nil] at h hn
    have hlen := congrArg List.length h
    rw [List.length_take] at hlen
    omega
  | cons id ids =>
    obtain ⟨c, s, hcs, hc⟩ := listText_cons ctx id ids
    have hlen : (listText ctx a).length = n := by
      rw [← h, List.length_take]
      omega
    rw [listText_append ha (List.cons_ne_nil _ _), hcs, List.getElem?_append_right (by omega),
      hlen, Nat.add_sub_cancel_left] at hcomma
    exact hc (Option.some.inj hcomma)

theorem not_sendsWhole_of_long (hnil : l.threadListData.bytes = [])
    (hpos : l.threadListDataPos = 0)
    (hlen : 1023 < (listText ctx (aliveThreadIds ctx)).length) : ¬ SendsWhole outside l ctx := by
  rintro ⟨lists, hlists, -, hanswers⟩
  have hanswers := hanswers (List.replicate lists.length .sThreadInfo) List.length_replicate
  cases hgen : generateThreadListData ctx with
  | none =>
    rw [answers, handleQuery_overrun hnil hgen] at hanswers
    cases hanswers
  | some data =>
    have hfirst := @handleQuery_first outside l ctx _ hnil hgen
    have hbytes : data.bytes = listText ctx (aliveThreadIds ctx) := by
      unfold generateThreadListData at hgen
      split_ifs at hgen
      rw [← Option.some.inj hgen]
    generalize hl' : ({ l with threadListData := data } : Pending) = l' at hfirst
    have hbytes' : l'.threadListData.bytes = listText ctx (aliveThreadIds ctx) := by
      rw [← hl', ← hbytes]
    have hpos' : l'.threadListDataPos.toNat = 0 := by
      rw [← hl']
      exact congrArg UInt32.toNat hpos
    have hcut := @pieceLength_cut outside l' (by rw [hbytes', hpos']; exact hlen)
    generalize hn : (pieceLength outside l').toNat = n at hcut
    have hmax : n ≤ 1022 := hcut.elim (fun h => h ▸ Nat.zero_le _) And.left
    obtain ⟨hpacket, hdata, hend⟩ := sendThreadData_piece hn (by omega) (by rw [hbytes']; omega)
      (by rw [hbytes']; omega)
    rw [hpos', hbytes', List.drop_zero] at hpacket
    rw [answers_cons hfirst] at hanswers
    obtain ⟨rest, hrest, hpackets⟩ := Option.map_eq_some_iff.mp hanswers
    cases lists with
    | nil =>
      rw [hpacket] at hpackets
      cases hpackets
    | cons ids lists =>
      obtain ⟨hhead, htail⟩ := List.cons.inj hpackets
      have hids : (listText ctx (aliveThreadIds ctx)).take n = listText ctx ids :=
        (List.cons.inj (hpacket.symm.trans hhead)).2
      by_cases hne : ids = []
      · -- Nothing is sent, and the place stays where it is.
        have htake : n = 0 := by
          have hlength := congrArg List.length hids
          rw [hne, List.length_take] at hlength
          change _ = 0 at hlength
          omega
        have hsame : (sendThreadData outside l').2 = l' := by
          have hplace : (sendThreadData outside l').2.threadListDataPos = l'.threadListDataPos :=
            UInt32.toNat_inj.mp (hend.trans (by rw [htake, Nat.add_zero]))
          show Pending.mk (sendThreadData outside l').2.threadListData
            (sendThreadData outside l').2.threadListDataPos = _
          rw [hdata, hplace]
        have hstuck : sendThreadData outside l' = ((sendThreadData outside l').1, l') :=
          Prod.ext rfl hsame
        rw [hsame, answers_stuck (by rw [hbytes']; exact fun h => by simp [h] at hlen) hstuck]
          at hrest
        have hmark : ([0x6C] : Bytes) ∈ rest := by
          rw [htail]
          exact List.mem_append_right _ (List.mem_singleton_self _)
        rw [← Option.some.inj hrest] at hmark
        have hmark := List.eq_of_mem_replicate hmark
        rw [hpacket] at hmark
        cases hmark
      · have hcomma := (hcut.resolve_left fun h0 => by
          rw [h0, List.take_zero] at hids
          exact hne (listText_eq_nil_iff.mp hids.symm)).2
        rw [hbytes', hpos', Nat.zero_add] at hcomma
        rw [← hlists, List.flatten_cons] at hcomma hids hlen
        exact piece_ne_listText (by omega) hcomma hne hids

/-- A list is sent whole exactly when one packet holds it. -/
theorem threadListPackets_iff (hreached : Reached outside l)
    (hfirst : l.threadListData.bytes = []) (ctx : Context) :
    SendsWhole outside l ctx ↔ (listText ctx (aliveThreadIds ctx)).length ≤ 1023 := by
  have hpos := hreached.pos_eq_zero hfirst
  constructor
  · intro h
    by_contra hlen
    exact not_sendsWhole_of_long hfirst hpos (Nat.lt_of_not_le hlen) h
  · exact sendsWhole_of_short hfirst hpos

end

/-- As many threads as a process can have under a debugger that knows processes. -/
def crowded : Context where
  multiprocessExtEnabled := true
  pid := 0x29
  threadInfos := (List.range 127).map fun i => UInt32.ofNat (0x1000 + i)
  schedulingMask _ := some 1

theorem identifier_is_split : ¬ SendsWhole (fun _ => 0) .none crowded :=
  not_sendsWhole_of_long rfl rfl (by decide +kernel)

theorem crowded_sendsWhole_iff : SendsWhole (fun _ => 0) .none crowded ↔
    (listText crowded (aliveThreadIds crowded)).length ≤ 1023 :=
  threadListPackets_iff .detached rfl crowded

end Presence3DS.Gdb.ThreadList
