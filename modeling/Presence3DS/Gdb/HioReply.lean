import Presence3DS.Gdb.MemoryPackets

/-! The reply of the debugger to a file I/O request of the program (`HioReply` of `hio.c`). -/

namespace Presence3DS.Gdb.Packets
open CString Numerals

def eperm : ℕ := 1

structure PackedGdbHioRequest where
  magic : Bytes
  version : ℕ
  functionName : Bytes
  paramFormat : Bytes
  parameters : List ℕ
  stringLengths : List ℕ
  retval : ℤ
  gdbErrno : ℤ
  ctrlC : Bool
deriving DecidableEq

def PackedGdbHioRequest.zeroed : PackedGdbHioRequest :=
  ⟨List.replicate 4 0, 0, List.replicate 17 0, List.replicate 9 0, List.replicate 8 0,
    List.replicate 8 0, 0, 0, false⟩

structure HioContext where
  currentHioRequest : PackedGdbHioRequest
  currentHioRequestTargetAddr : ℕ
deriving DecidableEq

/-- What the handler leaves, the request that it writes to the program with its address, the error
that it replies, and whether it continues the program. -/
structure HioResult where
  ctx : HioContext
  written : Option (ℕ × PackedGdbHioRequest)
  reply : Option ℕ
  continued : Bool
deriving DecidableEq

namespace HioContext

def gdbIsHioInProgress (ctx : HioContext) : Prop := ctx.currentHioRequestTargetAddr ≠ 0

instance (ctx : HioContext) : Decidable ctx.gdbIsHioInProgress :=
  inferInstanceAs (Decidable (_ ≠ _))

def setErrno (ctx : HioContext) (gdbErrno : ℤ) : HioContext :=
  { ctx with currentHioRequest := { ctx.currentHioRequest with gdbErrno := gdbErrno } }

def setRetval (ctx : HioContext) (retval : ℤ) : HioContext :=
  { ctx with currentHioRequest := { ctx.currentHioRequest with retval := retval } }

def setCtrlC (ctx : HioContext) : HioContext :=
  { ctx with currentHioRequest := { ctx.currentHioRequest with ctrlC := true } }

/-- The request holds the values of a reply. -/
def hold (ctx : HioContext) (retval gdbErrno : ℤ) (ctrlC : Bool) : HioContext :=
  { ctx with currentHioRequest := { ctx.currentHioRequest with
      retval := retval, gdbErrno := gdbErrno, ctrlC := ctrlC } }

/-- The handler returns with an error. -/
def refuse (ctx : HioContext) (no : ℕ) : HioResult := ⟨ctx, none, some no, false⟩

/-- The request is written to the program, which goes on; `whole` says whether all of it could be
written. -/
def answer (whole : Bool) (ctx : HioContext) : HioResult :=
  ⟨⟨PackedGdbHioRequest.zeroed, 0⟩,
    some (ctx.currentHioRequestTargetAddr,
      { ctx.currentHioRequest with paramFormat := List.replicate 9 0 }),
    if whole then none else some efault, true⟩

end HioContext

/-- What is parsed behind the comma; `junk` is what an `errno_` that is not parsed holds. -/
def hioReplyErrno (junk : ℕ) (whole : Bool) (ctx : HioContext) (pos : Bytes) : HioResult :=
  match gdbParseHexIntegerList 32 1 0x2C pos with
  | some ([errno], pos) =>
    let ctx := ctx.setErrno (Int.bmod errno (2 ^ 32))
    if pos.headD 0 ≠ 0 then
      if pos.headD 0 ≠ 0x43 then ctx.refuse eilseq else ctx.setCtrlC.answer whole
    else ctx.answer whole
  | _ => (ctx.setErrno (Int.bmod junk (2 ^ 32))).refuse eilseq

/-- What is parsed behind the sign, which is in the request. -/
def hioReplyRetval (junk : ℕ) (whole : Bool) (ctx : HioContext) (pos : Bytes) : HioResult :=
  match gdbParseHexIntegerList 64 1 0x2C pos with
  | some ([retval], pos) =>
    let ctx := ctx.hold (Int.bmod (ctx.currentHioRequest.retval * retval) (2 ^ 64)) 0 false
    if pos.headD 0 ≠ 0 then hioReplyErrno junk whole ctx pos.tail
    else HioContext.answer whole ctx
  | _ => ctx.refuse eilseq

def hioReply (junk : ℕ) (whole : Bool) (ctx : HioContext) (commandData : Bytes) : HioResult :=
  let c := commandData.headD 0
  if ¬ctx.gdbIsHioInProgress then ctx.refuse eperm
  else if c = 0 ∨ c = 0x2C then ctx.refuse eilseq
  else if c = 0x2D then
    hioReplyRetval junk whole (ctx.setRetval (-1)) commandData.tail
  else
    hioReplyRetval junk whole (ctx.setRetval 1)
      (if c = 0x2B then commandData.tail else commandData)

/-! ## What the handler is to do -/

def hexNumeral (s : Bytes) : Option ℕ := numeral (strtoDigit 16) 16 s

/-- A hexadecimal numeral with a sign or without one -/
def signedHex : Bytes → Option ℤ
  | 0x2D :: s => (hexNumeral s).map fun n : ℕ => -(n : ℤ)
  | 0x2B :: s => (hexNumeral s).map fun n : ℕ => (n : ℤ)
  | s => (hexNumeral s).map fun n : ℕ => (n : ℤ)

/-- The return code, the error number and the flag of a reply. -/
def hioValues (s : Bytes) : Option (ℤ × ℕ × Bool) :=
  match s.splitOn 0x2C with
  | [r] => (signedHex r).map fun retval => (retval, 0, false)
  | [r, e] => (signedHex r).bind fun retval => (hexNumeral e).map fun no => (retval, no, false)
  | [r, e, [0x43]] =>
    (signedHex r).bind fun retval => (hexNumeral e).map fun no => (retval, no, true)
  | _ => none

/-- A reply is accepted with its values, and what is none leaves the pending request as it was. -/
def HioLaw (ctx : HioContext) (commandData : Bytes) (whole : Bool) (r : HioResult) : Prop :=
  match hioValues (str commandData) with
  | some (retval, no, ctrlC) =>
    r = (ctx.hold retval no ctrlC).answer whole
  | none => r = ctx.refuse eilseq

/-- The packet has no return code at all, or is a reply without the flag whose numbers have room. -/
def HioFits (commandData : Bytes) : Prop :=
  commandData.headD 0 = 0 ∨ commandData.headD 0 = 0x2C ∨
    ∃ retval no, hioValues (str commandData) = some (retval, no, false) ∧
      -2 ^ 63 ≤ retval ∧ retval < 2 ^ 63 ∧ no < 2 ^ 31

variable {junk : ℕ} {whole : Bool} {ctx : HioContext} {commandData s : Bytes}

/-! ## The values of a reply -/

theorem hexNumeral_eq_some {n : ℕ} (h : hexNumeral s = some n) :
    s ≠ [] ∧ (∀ c ∈ s, isDigit (strtoDigit 16) c = true) ∧ hexValue s = n :=
  numeral_eq_some_iff.mp h

theorem signedHex_cases {r : ℤ} (h : signedHex s = some r) :
    (∃ ds, ∃ n : ℕ, s = 0x2D :: ds ∧ hexNumeral ds = some n ∧ r = -n) ∨
    (∃ ds, ∃ n : ℕ, s = 0x2B :: ds ∧ hexNumeral ds = some n ∧ r = n) ∨
    ∃ n : ℕ, hexNumeral s = some n ∧ r = n := by
  unfold signedHex at h
  split at h
  · obtain ⟨n, hn, rfl⟩ := Option.map_eq_some_iff.mp h
    exact .inl ⟨_, n, rfl, hn, rfl⟩
  · obtain ⟨n, hn, rfl⟩ := Option.map_eq_some_iff.mp h
    exact .inr (.inl ⟨_, n, rfl, hn, rfl⟩)
  · obtain ⟨n, hn, rfl⟩ := Option.map_eq_some_iff.mp h
    exact .inr (.inr ⟨n, hn, rfl⟩)

theorem hioValues_cases {r : ℤ} {no : ℕ} (h : hioValues s = some (r, no, false)) :
    signedHex s = some r ∧ no = 0 ∨
      ∃ rs es, s = rs ++ 0x2C :: es ∧ signedHex rs = some r ∧ hexNumeral es = some no := by
  have hjoin := @List.intercalate_splitOn _ s _ _ (0x2C : UInt8)
  unfold hioValues at h
  split at h
  · next rs hsplit =>
    obtain ⟨r', hr, hvalues⟩ := Option.map_eq_some_iff.mp h
    obtain ⟨rfl, hno⟩ := Prod.mk.inj hvalues
    rw [hsplit] at hjoin
    have hs : rs = s := by simpa [List.intercalate] using hjoin
    exact .inl ⟨hs ▸ hr, (Prod.mk.inj hno).1.symm⟩
  · next rs es hsplit =>
    obtain ⟨r', hr, hrest⟩ := Option.bind_eq_some_iff.mp h
    obtain ⟨no', hno', hvalues⟩ := Option.map_eq_some_iff.mp hrest
    obtain ⟨rfl, hno⟩ := Prod.mk.inj hvalues
    obtain ⟨rfl, -⟩ := Prod.mk.inj hno
    rw [hsplit] at hjoin
    have hs : s = rs ++ 0x2C :: es := by simpa [List.intercalate] using hjoin.symm
    exact .inr ⟨rs, es, hs, hr, hno'⟩
  · obtain ⟨r', -, hrest⟩ := Option.bind_eq_some_iff.mp h
    obtain ⟨no', -, hvalues⟩ := Option.map_eq_some_iff.mp hrest
    exact absurd (Prod.mk.inj (Prod.mk.inj hvalues).2).2 Bool.noConfusion
  · exact absurd h (Option.some_ne_none _).symm

theorem hioValues_comma (s : Bytes) : hioValues (0x2C :: s) = none := by
  have hsplit : (0x2C :: s : Bytes).splitOn 0x2C = [] :: s.splitOn 0x2C := by
    rw [List.splitOn_cons_eq_if_modifyHead]
    exact if_pos rfl
  unfold hioValues
  rw [hsplit]
  split
  · next heq => 
    obtain ⟨rfl, -⟩ := List.cons.inj heq
    rfl
  · next heq => 
    obtain ⟨rfl, -⟩ := List.cons.inj heq
    rfl
  · next heq => 
    obtain ⟨rfl, -⟩ := List.cons.inj heq
    rfl
  · rfl

/-! ## What the handler does -/

theorem refuse_ne_answer (ctx ctx' : HioContext) (no : ℕ) :
    ctx.refuse no ≠ ctx'.answer whole := by
  intro h
  exact Bool.noConfusion (congrArg HioResult.continued h)

theorem answer_inj {ctx ctx' : HioContext} (h : ctx.answer whole = ctx'.answer whole) :
    ctx.currentHioRequest.retval = ctx'.currentHioRequest.retval ∧
      ctx.currentHioRequest.gdbErrno = ctx'.currentHioRequest.gdbErrno ∧
      ctx.currentHioRequest.ctrlC = ctx'.currentHioRequest.ctrlC := by
  have hwritten := (Prod.mk.inj (Option.some.inj (congrArg HioResult.written h))).2
  have hretval := congrArg PackedGdbHioRequest.retval hwritten
  have herrno := congrArg PackedGdbHioRequest.gdbErrno hwritten
  have hctrlC := congrArg PackedGdbHioRequest.ctrlC hwritten
  exact ⟨hretval, herrno, hctrlC⟩

theorem setErrno_gdbErrno (ctx : HioContext) (no : ℤ) :
    (ctx.setErrno no).currentHioRequest.gdbErrno = no := rfl

theorem setErrno_retval (ctx : HioContext) (no : ℤ) :
    (ctx.setErrno no).currentHioRequest.retval = ctx.currentHioRequest.retval := rfl

theorem setErrno_ctrlC (ctx : HioContext) (no : ℤ) :
    (ctx.setErrno no).currentHioRequest.ctrlC = ctx.currentHioRequest.ctrlC := rfl

theorem hioReplyErrno_cases (junk : ℕ) (whole : Bool) (ctx : HioContext) (pos : Bytes) :
    (∃ ctx' : HioContext, ctx'.currentHioRequest.ctrlC = ctx.currentHioRequest.ctrlC ∧
      hioReplyErrno junk whole ctx pos = ctx'.refuse eilseq) ∨
    ∃ ctx' : HioContext, ctx'.currentHioRequest.retval = ctx.currentHioRequest.retval ∧
      (∃ no : ℕ, ctx'.currentHioRequest.gdbErrno = Int.bmod no (2 ^ 32)) ∧
      ctx'.currentHioRequest.ctrlC = ctx.currentHioRequest.ctrlC ∧
      hioReplyErrno junk whole ctx pos = ctx'.answer whole := by
  unfold hioReplyErrno
  rw [gdbParseHexIntegerList_one]
  dsimp only
  generalize (pos.dropWhile isSpace).dropWhile (isDigit (strtoDigit 16)) = rest
  split
  · next errno rest' heq =>
    split at heq
    · next hparsed =>
      obtain ⟨-, hrest⟩ := Prod.mk.inj (Option.some.inj heq)
      subst hrest
      by_cases hend : rest.headD 0 = 0
      · rw [if_neg (not_not_intro hend)]
        exact .inr ⟨ctx.setErrno (Int.bmod errno (2 ^ 32)), setErrno_retval ctx _,
          ⟨errno, setErrno_gdbErrno ctx _⟩, setErrno_ctrlC ctx _, rfl⟩
      · have hcomma : rest.headD 0 ≠ 0x43 := by
          rw [hparsed.2.2.2.resolve_right hend]
          decide
        rw [if_pos hend, if_pos hcomma]
        exact .inl ⟨ctx.setErrno _, setErrno_ctrlC ctx _, rfl⟩
    · exact absurd heq (Option.some_ne_none _).symm
  · exact .inl ⟨ctx.setErrno _, setErrno_ctrlC ctx _, rfl⟩

theorem hioReplyRetval_cases (junk : ℕ) (whole : Bool) (ctx : HioContext) (pos : Bytes) :
    hioReplyRetval junk whole ctx pos = ctx.refuse eilseq ∨
    (∃ ctx' : HioContext, ctx'.currentHioRequest.ctrlC = false ∧
      hioReplyRetval junk whole ctx pos = ctx'.refuse eilseq) ∨
    ∃ ctx' : HioContext, (∃ x, ctx'.currentHioRequest.retval = Int.bmod x (2 ^ 64)) ∧
      (∃ x, ctx'.currentHioRequest.gdbErrno = Int.bmod x (2 ^ 32)) ∧
      ctx'.currentHioRequest.ctrlC = false ∧
      hioReplyRetval junk whole ctx pos = ctx'.answer whole := by
  unfold hioReplyRetval
  split
  · next retval rest _ =>
    dsimp only
    by_cases hend : rest.headD 0 = 0
    · rw [if_neg (not_not_intro hend)]
      exact .inr (.inr ⟨ctx.hold _ 0 false, ⟨_, rfl⟩, ⟨0, Int.zero_bmod.symm⟩, rfl, rfl⟩)
    · rw [if_pos hend]
      generalize hheld : ctx.hold (Int.bmod (ctx.currentHioRequest.retval * retval) (2 ^ 64)) 0
        false = held
      have hretval : held.currentHioRequest.retval =
          Int.bmod (ctx.currentHioRequest.retval * retval) (2 ^ 64) := by rw [← hheld]; rfl
      have hctrlC : held.currentHioRequest.ctrlC = false := by rw [← hheld]; rfl
      rcases hioReplyErrno_cases junk whole held rest.tail with
        ⟨ctx', hc, hrun⟩ | ⟨ctx', hr, ⟨no, hno⟩, hc, hrun⟩
      · exact .inr (.inl ⟨ctx', hc.trans hctrlC, hrun⟩)
      · exact .inr (.inr ⟨ctx', ⟨_, hr.trans hretval⟩, ⟨no, hno⟩, hc.trans hctrlC, hrun⟩)
  · exact .inl rfl

theorem hioReplyRetval_numeral {ds rest : Bytes} {n : ℕ} {r : ℤ} (hds : hexNumeral ds = some n)
    (hr : ctx.currentHioRequest.retval = 1 ∧ r = n ∨ ctx.currentHioRequest.retval = -1 ∧ r = -n)
    (hmin : -2 ^ 63 ≤ r) (hmax : r < 2 ^ 63) (hrest : rest.headD 0 = 0x2C ∨ rest.headD 0 = 0) :
    hioReplyRetval junk whole ctx (ds ++ rest) =
      if rest.headD 0 ≠ 0 then hioReplyErrno junk whole (ctx.hold r 0 false) rest.tail
      else (ctx.hold r 0 false).answer whole := by
  obtain ⟨hne, hdigits, hvalue⟩ := hexNumeral_eq_some hds
  have hlt : hexValue ds < 2 ^ 64 := by
    rcases hr with ⟨-, rfl⟩ | ⟨-, rfl⟩
    · omega
    · omega
  have hproduct : ctx.currentHioRequest.retval * (hexValue ds : ℤ) = r := by
    rw [hvalue]
    rcases hr with ⟨hsign, rfl⟩ | ⟨hsign, rfl⟩
    · rw [hsign, one_mul]
    · rw [hsign, neg_one_mul]
  unfold hioReplyRetval
  rw [gdbParseHexIntegerList_digits 64 hne hdigits hrest, if_pos hlt]
  dsimp only
  rw [hproduct, Int.bmod_eq_of_le (by omega) (by omega)]

theorem hioReplyErrno_numeral {es rest : Bytes} {no : ℕ} (hes : hexNumeral es = some no)
    (hmax : no < 2 ^ 31) (hrest : rest.headD 0 = 0) :
    hioReplyErrno junk whole ctx (es ++ rest) = (ctx.setErrno no).answer whole := by
  obtain ⟨hne, hdigits, hvalue⟩ := hexNumeral_eq_some hes
  unfold hioReplyErrno
  rw [gdbParseHexIntegerList_digits 32 hne hdigits (.inr hrest),
    if_pos (by rw [hvalue]; omega)]
  dsimp only
  rw [if_neg (not_not_intro hrest), hvalue, Int.bmod_eq_of_le (by omega) (by omega)]

/-! ## Every packet -/

/-- A request that is pending and has been interrupted -/
def pendingRequest : HioContext :=
  ⟨{ PackedGdbHioRequest.zeroed with retval := 5, ctrlC := true }, 1⟩

theorem pendingRequest_inProgress : pendingRequest.gdbIsHioInProgress := Nat.one_ne_zero

theorem hioFits_of_retval {pos : Bytes} {sign : ℤ} (hsign : sign ≠ 5)
    (h : HioLaw pendingRequest commandData true (hioReplyRetval 0 true
      (pendingRequest.setRetval sign) pos)) :
    HioFits commandData := by
  unfold HioLaw at h
  rcases hioReplyRetval_cases 0 true (pendingRequest.setRetval sign) pos with
    hrun | ⟨ctx', hc, hrun⟩ | ⟨ctx', ⟨x, hx⟩, ⟨y, hy⟩, hc, hrun⟩
  · split at h
    · exact absurd (hrun.symm.trans h) (refuse_ne_answer _ _ _)
    · have hctx := congrArg (fun r : HioResult => r.ctx.currentHioRequest.retval)
        (hrun.symm.trans h)
      exact absurd hctx hsign
  · split at h
    · exact absurd (hrun.symm.trans h) (refuse_ne_answer _ _ _)
    · have hctx := congrArg (fun r : HioResult => r.ctx.currentHioRequest.ctrlC)
        (hrun.symm.trans h)
      exact Bool.noConfusion (hc.symm.trans hctx)
  · split at h
    · next retval no ctrlC hvalues =>
      obtain ⟨hretval, hno, hctrlC⟩ := answer_inj (hrun.symm.trans h)
      have hmin := Int.le_bmod (x := x) (Nat.two_pow_pos 64)
      have hmax := Int.bmod_lt (x := x) (Nat.two_pow_pos 64)
      have hmaxno := Int.bmod_lt (x := y) (Nat.two_pow_pos 32)
      have hretval' : Int.bmod x (2 ^ 64) = retval := hx.symm.trans hretval
      have hno' : Int.bmod y (2 ^ 32) = (no : ℤ) := hy.symm.trans hno
      obtain rfl : ctrlC = false := hctrlC.symm.trans hc
      exact .inr (.inr ⟨retval, no, hvalues, by omega, by omega, by omega⟩)
    · exact absurd (h.symm.trans hrun) (refuse_ne_answer _ _ _)

theorem hioReply_eq (hctx : ctx.gdbIsHioInProgress) (hzero : commandData.headD 0 ≠ 0)
    (hcomma : commandData.headD 0 ≠ 0x2C) : hioReply junk whole ctx commandData =
      if commandData.headD 0 = 0x2D then
        hioReplyRetval junk whole (ctx.setRetval (-1)) commandData.tail
      else
        hioReplyRetval junk whole (ctx.setRetval 1)
          (if commandData.headD 0 = 0x2B then commandData.tail else commandData) := by
  unfold hioReply
  rw [if_neg (not_not_intro hctx), if_neg (not_or.mpr ⟨hzero, hcomma⟩)]

theorem hioFits_of_law (h : HioLaw pendingRequest commandData true
    (hioReply 0 true pendingRequest commandData)) : HioFits commandData := by
  by_cases hzero : commandData.headD 0 = 0
  · exact .inl hzero
  by_cases hcomma : commandData.headD 0 = 0x2C
  · exact .inr (.inl hcomma)
  rw [hioReply_eq pendingRequest_inProgress hzero hcomma] at h
  by_cases hminus : commandData.headD 0 = 0x2D
  · rw [if_pos hminus] at h
    exact hioFits_of_retval (by decide) h
  · rw [if_neg hminus] at h
    exact hioFits_of_retval (by decide) h

theorem hioReplyRetval_values {rs rest : Bytes} {n no : ℕ} {r : ℤ} (hrest : rest.headD 0 = 0)
    (hn : hexNumeral rs = some n)
    (hr : ctx.currentHioRequest.retval = 1 ∧ r = n ∨ ctx.currentHioRequest.retval = -1 ∧ r = -n)
    (hmin : -2 ^ 63 ≤ r) (hmax : r < 2 ^ 63) (hno : no < 2 ^ 31) {tail : Bytes}
    (htail : tail = rest ∧ no = 0 ∨ ∃ es, tail = 0x2C :: (es ++ rest) ∧ hexNumeral es = some no) :
    hioReplyRetval junk whole ctx (rs ++ tail) = (ctx.hold r no false).answer whole := by
  rcases htail with ⟨rfl, rfl⟩ | ⟨es, rfl, hes⟩
  · rw [hioReplyRetval_numeral hn hr hmin hmax (.inr hrest), if_neg (not_not_intro hrest)]
    rfl
  · have hcomma : (0x2C :: (es ++ rest)).headD 0 = (0x2C : UInt8) := rfl
    rw [hioReplyRetval_numeral hn hr hmin hmax (.inl hcomma), if_pos (by rw [hcomma]; decide),
      List.tail_cons, hioReplyErrno_numeral hes hno hrest]
    rfl

theorem hioLaw_of_fits (hctx : ctx.gdbIsHioInProgress) (h : HioFits commandData) :
    HioLaw ctx commandData whole (hioReply junk whole ctx commandData) := by
  have hrefused (hstart : commandData.headD 0 = 0 ∨ commandData.headD 0 = 0x2C) :
      hioReply junk whole ctx commandData = ctx.refuse eilseq := by
    unfold hioReply
    rw [if_neg (not_not_intro hctx), if_pos hstart]
  unfold HioLaw
  rcases h with hzero | hcomma | ⟨r, no, hvalues, hmin, hmax, hno⟩
  · have hempty : str commandData = [] := by
      cases commandData with
      | nil => rfl
      | cons c s =>
        obtain rfl : c = 0 := hzero
        rw [str_cons, if_pos rfl]
    rw [hempty]
    exact hrefused (.inl hzero)
  · have hcons : ∃ s, str commandData = 0x2C :: s := by
      cases commandData with
      | nil => exact absurd hcomma (by decide)
      | cons c s =>
        obtain rfl : c = 0x2C := hcomma
        exact ⟨str s, by rw [str_cons, if_neg (by decide)]⟩
    obtain ⟨s, hs⟩ := hcons
    rw [hs, hioValues_comma]
    exact hrefused (.inr hcomma)
  · rw [hvalues]
    obtain ⟨rest, hdata, hrest⟩ := exists_str_append commandData
    -- the packet is a return code and what stands behind it
    have hsplit : ∃ rs tail, commandData = rs ++ tail ∧ signedHex rs = some r ∧
        (tail = rest ∧ no = 0 ∨
          ∃ es, tail = 0x2C :: (es ++ rest) ∧ hexNumeral es = some no) := by
      rcases hioValues_cases hvalues with ⟨hr, hzero⟩ | ⟨rs, es, hs, hr, hes⟩
      · exact ⟨str commandData, rest, hdata, hr, .inl ⟨rfl, hzero⟩⟩
      · refine ⟨rs, 0x2C :: (es ++ rest), ?_, hr, .inr ⟨es, rfl, hes⟩⟩
        rw [hs] at hdata
        rw [hdata, List.append_assoc, List.cons_append]
    obtain ⟨rs, tail, hcommand, hr, htail⟩ := hsplit
    show _ = (ctx.hold r no false).answer whole
    rcases signedHex_cases hr with
      ⟨ds, n, rfl, hn, hsign⟩ | ⟨ds, n, rfl, hn, hsign⟩ | ⟨n, hn, hsign⟩
    · have hhead : commandData.headD 0 = 0x2D := by rw [hcommand]; rfl
      rw [hioReply_eq hctx (by rw [hhead]; decide) (by rw [hhead]; decide), if_pos hhead,
        show commandData.tail = ds ++ tail by rw [hcommand]; rfl]
      exact hioReplyRetval_values hrest hn (.inr ⟨rfl, hsign⟩) hmin hmax hno htail
    · have hhead : commandData.headD 0 = 0x2B := by rw [hcommand]; rfl
      rw [hioReply_eq hctx (by rw [hhead]; decide) (by rw [hhead]; decide),
        if_neg (by rw [hhead]; decide), if_pos hhead,
        show commandData.tail = ds ++ tail by rw [hcommand]; rfl]
      exact hioReplyRetval_values hrest hn (.inl ⟨rfl, hsign⟩) hmin hmax hno htail
    · obtain ⟨hne, hdigits, -⟩ := hexNumeral_eq_some hn
      obtain ⟨c, ds, rfl⟩ := List.exists_cons_of_ne_nil hne
      have hc := hdigits c List.mem_cons_self
      have hhead : commandData.headD 0 = c := by rw [hcommand]; rfl
      have hother (d : UInt8) (hd : isDigit (strtoDigit 16) d = false) :
          commandData.headD 0 ≠ d := by
        rw [hhead]
        rintro rfl
        exact absurd hc (Bool.eq_false_iff.mp hd)
      rw [hioReply_eq hctx (hother 0 rfl) (hother 0x2C rfl), if_neg (hother 0x2D rfl),
        if_neg (hother 0x2B rfl), hcommand]
      exact hioReplyRetval_values hrest hn (.inl ⟨rfl, hsign⟩) hmin hmax hno htail

/-- Every pending request is handled as it is to be exactly where the packet has no return code at
all, or is a reply without the flag whose numbers have room. -/
theorem hioReply_iff (commandData : Bytes) :
    (∀ junk whole (ctx : HioContext), ctx.gdbIsHioInProgress →
      HioLaw ctx commandData whole (hioReply junk whole ctx commandData)) ↔
    HioFits commandData :=
  ⟨fun h => hioFits_of_law (h 0 true pendingRequest pendingRequest_inProgress),
    fun h _ _ _ hctx => hioLaw_of_fits hctx h⟩

/-- The flag of a reply is not accepted, and the values in front of it stay in the request. -/
theorem flag_is_refused : ¬∀ junk whole (ctx : HioContext) commandData, ctx.gdbIsHioInProgress →
    HioLaw ctx commandData whole (hioReply junk whole ctx commandData) := by
  intro h
  have hlaw := h 0 true pendingRequest (chars "-1,4,C".toList) pendingRequest_inProgress
  have hvalues : hioValues (str (chars "-1,4,C".toList)) = some (-1, 4, true) := by decide +kernel
  unfold HioLaw at hlaw
  rw [hvalues] at hlaw
  exact absurd (congrArg HioResult.continued hlaw) (by decide +kernel)

end Presence3DS.Gdb.Packets
