import Mathlib.Data.List.Basic
import Presence3DS.Lib.CString

/-! The PIN that is asked for at boot (`pin.c`). -/

namespace Presence3DS.Arm9.Pin
open CString

abbrev Buttons := BitVec 32

def buttonSelect : Buttons := 1 <<< 2

def buttonStart : Buttons := 1 <<< 3

/-- A, B, X, Y, the directional pad, START and SELECT. -/
def pinButtons : Buttons := 0xCFF

/-- `"AB--RLUD--XY"` -/
def keys : Bytes := [0x41, 0x42, 0x2D, 0x2D, 0x52, 0x4C, 0x55, 0x44, 0x2D, 0x2D, 0x58, 0x59]

/-- The letter of the highest button, which the code finds by halving. -/
def pinKeyToLetter (pressed : Buttons) : UInt8 := keys.getD (Nat.log2 pressed.toNat) 0

def aesBlockSize : ℕ := 16

/-- `computePinHash`: what the console makes of a block. -/
abbrev PinHash := Bytes → { hash : Bytes // hash.length = 32 }

def pinLength (pinMode : ℕ) : ℕ := 4 + 2 * (pinMode - 1)

def lengthBlock (pinMode : ℕ) : Bytes :=
  UInt8.ofNat (pinLength pinMode) :: List.replicate (aesBlockSize - 1) 0

/-- The buffer of the digits, and how many have been entered. -/
structure Entry where
  enteredPassword : Bytes
  cnt : ℕ

def Entry.start : Entry := ⟨List.replicate aesBlockSize 0, 0⟩

def Entry.add (e : Entry) (c : UInt8) : Entry := ⟨e.enteredPassword.set e.cnt c, e.cnt + 1⟩

/-- SELECT, or a wrong PIN; the digits stay in the buffer. -/
def Entry.reset (e : Entry) : Entry := { e with cnt := 0 }

inductive NewPin where
  | skipped
  | entered (enteredPassword : Bytes)
deriving DecidableEq

/-- The loop of `newPin` over what `waitInput` returns. There is no result as long as it waits. -/
def newPinLoop (allowSkipping : Bool) (length : ℕ) (e : Entry) : List Buttons → Option NewPin
  | [] => if e.cnt < length then none else some (.entered e.enteredPassword)
  | pressed :: presses =>
    if e.cnt < length then
      if pressed &&& pinButtons = 0 then newPinLoop allowSkipping length e presses
      else
        let pressed := pressed &&& pinButtons
        let pressed := if allowSkipping then pressed else pressed &&& ~~~buttonStart
        if pressed &&& buttonStart ≠ 0 then some .skipped
        else if pressed &&& buttonSelect ≠ 0 then newPinLoop allowSkipping length e.reset presses
        else if pressed = 0 then newPinLoop allowSkipping length e presses
        else newPinLoop allowSkipping length (e.add (pinKeyToLetter pressed)) presses
    else some (.entered e.enteredPassword)

/-- The magic, the version and the two hashes, as they are in the file. -/
def pinData (lengthHash hash : Bytes) : Bytes :=
  [0x50, 0x49, 0x4E, 0x46] ++ [1, 0] ++ [3, 0] ++ lengthHash ++ hash

/-- The file that `newPin` writes; there is none where it is skipped. -/
def newPin (computePinHash : PinHash) (allowSkipping : Bool) (pinMode : ℕ)
    (presses : List Buttons) : Option (Option Bytes) :=
  (newPinLoop allowSkipping (pinLength pinMode) .start presses).map fun
    | .skipped => none
    | .entered enteredPassword => some (pinData (computePinHash (lengthBlock pinMode)).val
        (computePinHash enteredPassword).val)

inductive VerifyPin where
  | noPin
  | waiting
  | poweredOff
  | unlocked
deriving DecidableEq

def verifyPinLoop (computePinHash : PinHash) (hash : Bytes) (length : ℕ) (e : Entry) :
    List Buttons → VerifyPin
  | [] => .waiting
  | pressed :: presses =>
    if pressed &&& pinButtons = 0 then verifyPinLoop computePinHash hash length e presses
    else if pressed &&& buttonStart ≠ 0 then .poweredOff
    else
      let pressed := pressed &&& pinButtons
      if pressed &&& buttonSelect ≠ 0 then
        verifyPinLoop computePinHash hash length e.reset presses
      else if pressed = 0 then verifyPinLoop computePinHash hash length e presses
      else
        let e := e.add (pinKeyToLetter pressed)
        if e.cnt < length then verifyPinLoop computePinHash hash length e presses
        else if (computePinHash e.enteredPassword).val = hash then .unlocked
        else verifyPinLoop computePinHash hash length e.reset presses

/-- `verifyPin` for the bytes of the file; a longer file is not read. -/
def verifyPin (computePinHash : PinHash) (file : Bytes) (pinMode : ℕ) (presses : List Buttons) :
    VerifyPin :=
  if file.length ≠ 72 ∨ file.take 4 ≠ [0x50, 0x49, 0x4E, 0x46] ∨ (file.drop 4).take 2 ≠ [1, 0] ∨
      (file.drop 6).take 2 ≠ [3, 0] then .noPin
  else if (file.drop 8).take 32 ≠ (computePinHash (lengthBlock pinMode)).val then .noPin
  else
    verifyPinLoop computePinHash ((file.drop 40).take 32) (pinLength pinMode).toUInt8.toNat .start
      presses

/-! ## What is entered -/

/-- What the two loops take a press for. -/
inductive Key where
  | nothing
  | start
  | select
  | letter (c : UInt8)
deriving DecidableEq

def keyOf (pressed : Buttons) : Key :=
  if pressed &&& buttonStart ≠ 0 then .start
  else if pressed &&& buttonSelect ≠ 0 then .select
  else if pressed = 0 then .nothing
  else .letter (pinKeyToLetter pressed)

def newPinKey (allowSkipping : Bool) (pressed : Buttons) : Key :=
  keyOf (if allowSkipping then pressed &&& pinButtons
    else pressed &&& pinButtons &&& ~~~buttonStart)

def verifyPinKey (pressed : Buttons) : Key := keyOf (pressed &&& pinButtons)

/-- The words of `n` letters that are entered after the letters `w`, up to the first START. -/
def attempts (n : ℕ) (w : Bytes) : List Key → List Bytes
  | [] => []
  | .nothing :: ks => attempts n w ks
  | .start :: _ => []
  | .select :: ks => attempts n [] ks
  | .letter c :: ks =>
    if w.length + 1 < n then attempts n (w ++ [c]) ks else (w ++ [c]) :: attempts n [] ks

/-- A word as the block that is hashed. -/
def pad (w : Bytes) : Bytes := w ++ List.replicate (aesBlockSize - w.length) 0

/-- The buffer begins with the letters, and has only been written to in its first `n` bytes. -/
structure Entry.Holds (n : ℕ) (e : Entry) (w : Bytes) : Prop where
  cnt : e.cnt = w.length
  begins : e.enteredPassword.take w.length = w
  clean : e.enteredPassword.drop n = List.replicate (aesBlockSize - n) 0
  length : e.enteredPassword.length = aesBlockSize

section Loops
variable {computePinHash : PinHash} {hash : Bytes} {allowSkipping : Bool} {n : ℕ} {e : Entry}
  {w : Bytes} {c : UInt8} {pressed : Buttons} {presses : List Buttons}

theorem Entry.Holds.start (n : ℕ) : Entry.Holds n .start [] where
  cnt := rfl
  begins := rfl
  clean := List.drop_replicate
  length := rfl

theorem Entry.Holds.reset (h : e.Holds n w) : e.reset.Holds n [] where
  cnt := rfl
  begins := rfl
  clean := h.clean
  length := h.length

theorem Entry.Holds.add (h : e.Holds n w) (hroom : w.length < n) (hn : n ≤ aesBlockSize) :
    (e.add c).Holds n (w ++ [c]) := by
  have hcnt := h.cnt
  have hlength := h.length
  constructor
  · rw [List.length_append, List.length_singleton, ← hcnt]
    rfl
  · show (e.enteredPassword.set e.cnt c).take _ = _
    have hget : (e.enteredPassword.set w.length c)[w.length]? = some c :=
      List.getElem?_set_self (by omega)
    rw [hcnt, List.length_append, List.length_singleton, List.take_add_one,
      List.take_set_of_le le_rfl, h.begins, hget]
    rfl
  · show (e.enteredPassword.set e.cnt c).drop n = _
    rw [List.drop_set_of_lt (by omega), h.clean]
  · show (e.enteredPassword.set e.cnt c).length = _
    rw [List.length_set, hlength]

theorem Entry.Holds.full (h : e.Holds n w) (hfull : w.length = n) : e.enteredPassword = pad w := by
  rw [← List.take_append_drop n e.enteredPassword, h.clean, ← hfull, h.begins, pad]

theorem mask_start (pressed : Buttons) :
    pressed &&& pinButtons &&& buttonStart = pressed &&& buttonStart := by
  rw [BitVec.and_assoc]
  rfl

theorem verifyPinLoop_cons : verifyPinLoop computePinHash hash n e (pressed :: presses) =
    match verifyPinKey pressed with
    | .nothing => verifyPinLoop computePinHash hash n e presses
    | .start => .poweredOff
    | .select => verifyPinLoop computePinHash hash n e.reset presses
    | .letter c =>
      if (e.add c).cnt < n then verifyPinLoop computePinHash hash n (e.add c) presses
      else if (computePinHash (e.add c).enteredPassword).val = hash then .unlocked
      else verifyPinLoop computePinHash hash n (e.add c).reset presses := by
  rw [verifyPinLoop, verifyPinKey, keyOf, mask_start]
  by_cases hnone : pressed &&& pinButtons = 0
  · have hstart : pressed &&& buttonStart = 0 := by
      rw [← mask_start, hnone]
      rfl
    have hselect : (0 : Buttons) &&& buttonSelect = 0 := rfl
    simp only [hnone, hstart, hselect, if_true, ne_eq, not_true_eq_false, if_false]
  · rw [if_neg hnone]
    by_cases hstart : pressed &&& buttonStart = 0
    · rw [if_neg (not_not_intro hstart), if_neg (not_not_intro hstart)]
      dsimp only
      by_cases hselect : pressed &&& pinButtons &&& buttonSelect = 0
      · rw [if_neg (not_not_intro hselect), if_neg (not_not_intro hselect), if_neg hnone,
          if_neg hnone]
      · rw [if_pos hselect, if_pos hselect]
    · rw [if_pos hstart, if_pos hstart]

theorem newPinLoop_cons (hroom : e.cnt < n) : newPinLoop allowSkipping n e (pressed :: presses) =
    match newPinKey allowSkipping pressed with
    | .nothing => newPinLoop allowSkipping n e presses
    | .start => some .skipped
    | .select => newPinLoop allowSkipping n e.reset presses
    | .letter c => newPinLoop allowSkipping n (e.add c) presses := by
  rw [newPinLoop, if_pos hroom, newPinKey, keyOf]
  by_cases hnone : pressed &&& pinButtons = 0
  · have hkey : (if allowSkipping = true then pressed &&& pinButtons
        else pressed &&& pinButtons &&& ~~~buttonStart) = 0 := by
      rw [hnone]
      cases allowSkipping <;> rfl
    rw [if_pos hnone, hkey]
    rfl
  · rw [if_neg hnone]
    dsimp only
    generalize (if allowSkipping = true then pressed &&& pinButtons
      else pressed &&& pinButtons &&& ~~~buttonStart) = key
    by_cases hstart : key &&& buttonStart = 0
    · rw [if_neg (not_not_intro hstart), if_neg (not_not_intro hstart)]
      by_cases hselect : key &&& buttonSelect = 0
      · rw [if_neg (not_not_intro hselect), if_neg (not_not_intro hselect)]
        by_cases hkey : key = 0
        · rw [if_pos hkey, if_pos hkey]
        · rw [if_neg hkey, if_neg hkey]
      · rw [if_pos hselect, if_pos hselect]
    · rw [if_pos hstart, if_pos hstart]

theorem newPinLoop_full (hfull : n ≤ e.cnt) :
    newPinLoop allowSkipping n e presses = some (.entered e.enteredPassword) := by
  cases presses with
  | nil => rw [newPinLoop, if_neg (Nat.not_lt.mpr hfull)]
  | cons => rw [newPinLoop, if_neg (Nat.not_lt.mpr hfull)]

theorem verifyPinLoop_unlocked (hn : n ≤ aesBlockSize) (hholds : e.Holds n w)
    (hroom : w.length < n) : verifyPinLoop computePinHash hash n e presses = .unlocked ↔
      ∃ v ∈ attempts n w (presses.map verifyPinKey), (computePinHash (pad v)).val = hash := by
  induction presses generalizing e w with
  | nil => exact ⟨fun h => VerifyPin.noConfusion h, fun ⟨_, hv, _⟩ => absurd hv List.not_mem_nil⟩
  | cons pressed presses ih =>
    rw [verifyPinLoop_cons, List.map_cons]
    cases verifyPinKey pressed with
    | nothing => exact ih hholds hroom
    | start =>
      exact ⟨fun h => VerifyPin.noConfusion h, fun ⟨_, hv, _⟩ => absurd hv List.not_mem_nil⟩
    | select => exact ih hholds.reset (Nat.zero_lt_of_lt hroom)
    | letter c =>
      have hnext := hholds.add (c := c) hroom hn
      have hlength : (w ++ [c]).length = w.length + 1 := List.length_append
      have hcnt : (e.add c).cnt = w.length + 1 := hnext.cnt.trans hlength
      dsimp only
      rw [hcnt, attempts]
      by_cases hmore : w.length + 1 < n
      · rw [if_pos hmore, if_pos hmore]
        exact ih hnext (hlength.trans_lt hmore)
      · rw [if_neg hmore, if_neg hmore, hnext.full (by omega)]
        split_ifs with hhash
        · exact iff_of_true rfl ⟨_, List.mem_cons_self, hhash⟩
        · rw [ih hnext.reset (Nat.zero_lt_of_lt hroom)]
          constructor
          · rintro ⟨v, hv, hvhash⟩
            exact ⟨v, List.mem_cons_of_mem _ hv, hvhash⟩
          · rintro ⟨v, hv, hvhash⟩
            rcases List.mem_cons.mp hv with rfl | hv
            · exact absurd hvhash hhash
            · exact ⟨v, hv, hvhash⟩

theorem newPinLoop_entered (hn : n ≤ aesBlockSize) (hholds : e.Holds n w) (hroom : w.length < n)
    {b : Bytes} (h : newPinLoop allowSkipping n e presses = some (.entered b)) :
    ∃ v, (attempts n w (presses.map (newPinKey allowSkipping))).head? = some v ∧ b = pad v := by
  induction presses generalizing e w with
  | nil =>
    rw [newPinLoop, if_pos (hholds.cnt.trans_lt hroom)] at h
    cases h
  | cons pressed presses ih =>
    rw [newPinLoop_cons (hholds.cnt.trans_lt hroom)] at h
    rw [List.map_cons]
    cases hkey : newPinKey allowSkipping pressed with
    | nothing =>
      rw [hkey] at h
      exact ih hholds hroom h
    | start =>
      rw [hkey] at h
      cases h
    | select =>
      rw [hkey] at h
      exact ih hholds.reset (Nat.zero_lt_of_lt hroom) h
    | letter c =>
      rw [hkey] at h
      have hnext := hholds.add (c := c) hroom hn
      have hlength : (w ++ [c]).length = w.length + 1 := List.length_append
      rw [attempts]
      by_cases hmore : w.length + 1 < n
      · rw [if_pos hmore]
        exact ih hnext (hlength.trans_lt hmore) h
      · have hfull : n ≤ (e.add c).cnt := hnext.cnt.symm ▸ hlength.symm ▸ Nat.le_of_not_lt hmore
        rw [if_neg hmore]
        refine ⟨w ++ [c], rfl, ?_⟩
        dsimp only at h
        rw [newPinLoop_full hfull] at h
        obtain rfl := NewPin.entered.inj (Option.some.inj h)
        exact hnext.full (by omega)

end Loops

/-! ## The file -/

section File
variable {lengthHash hash : Bytes}

theorem length_pinData (hlength : lengthHash.length = 32) (hhash : hash.length = 32) :
    (pinData lengthHash hash).length = 72 := by
  simp [pinData, hlength, hhash]

theorem lengthHash_pinData (hlength : lengthHash.length = 32) :
    ((pinData lengthHash hash).drop 8).take 32 = lengthHash := by
  show (lengthHash ++ hash).take 32 = lengthHash
  exact List.take_left' hlength

theorem hash_pinData (hlength : lengthHash.length = 32) (hhash : hash.length = 32) :
    ((pinData lengthHash hash).drop 40).take 32 = hash := by
  have hdrop : (pinData lengthHash hash).drop 40 = (lengthHash ++ hash).drop 32 := rfl
  rw [hdrop, List.drop_left' hlength, List.take_of_length_le hhash.le]

end File

theorem verifyPin_eq {computePinHash : PinHash} {hash : Bytes} (hhash : hash.length = 32)
    {setMode pinMode : ℕ} (presses : List Buttons) :
    verifyPin computePinHash (pinData (computePinHash (lengthBlock setMode)).val hash) pinMode
        presses =
      if computePinHash (lengthBlock setMode) = computePinHash (lengthBlock pinMode) then
        verifyPinLoop computePinHash hash (pinLength pinMode).toUInt8.toNat .start presses
      else .noPin := by
  have hlength := (computePinHash (lengthBlock setMode)).property
  unfold verifyPin
  rw [if_neg, lengthHash_pinData hlength, hash_pinData hlength hhash]
  · by_cases heq : computePinHash (lengthBlock setMode) = computePinHash (lengthBlock pinMode)
    · rw [if_pos heq, if_neg (not_not_intro (congrArg Subtype.val heq))]
    · rw [if_neg heq, if_pos fun hval => heq (Subtype.ext hval)]
  · rintro (h | h | h | h)
    · exact h (length_pinData hlength hhash)
    · exact h rfl
    · exact h rfl
    · exact h rfl

theorem verifyPinLoop_ne_noPin {computePinHash : PinHash} {hash : Bytes} {n : ℕ} {e : Entry}
    (presses : List Buttons) : verifyPinLoop computePinHash hash n e presses ≠ .noPin := by
  induction presses generalizing e with
  | nil => exact VerifyPin.noConfusion
  | cons pressed presses ih =>
    rw [verifyPinLoop_cons]
    cases verifyPinKey pressed with
    | nothing => exact ih
    | start => exact VerifyPin.noConfusion
    | select => exact ih
    | letter c =>
      dsimp only
      split_ifs
      · exact ih
      · exact VerifyPin.noConfusion
      · exact ih

/-- The PIN that is set is the one that is asked for: a file that `newPin` has written unlocks
exactly where one of the words entered has the hash of the word that was set. Where another length
is set up, the file counts only if the length has the same hash. -/
theorem newPin_verifyPin (computePinHash : PinHash) {allowSkipping : Bool} {pinMode : ℕ}
    {presses : List Buttons} {file : Bytes} (hmode : 0 < pinMode ∧ pinMode < 4)
    (hnew : newPin computePinHash allowSkipping pinMode presses = some (some file)) :
    ∃ v, (attempts (pinLength pinMode) [] (presses.map (newPinKey allowSkipping))).head? = some v ∧
      (∀ presses', verifyPin computePinHash file pinMode presses' = .unlocked ↔
        ∃ w ∈ attempts (pinLength pinMode) [] (presses'.map verifyPinKey),
          computePinHash (pad w) = computePinHash (pad v)) ∧
      ∀ pinMode' presses', verifyPin computePinHash file pinMode' presses' = .noPin ↔
        computePinHash (lengthBlock pinMode) ≠ computePinHash (lengthBlock pinMode') := by
  have hlength : 0 < pinLength pinMode ∧ pinLength pinMode ≤ 8 := by
    unfold pinLength
    omega
  have hbyte : (pinLength pinMode).toUInt8.toNat = pinLength pinMode :=
    UInt8.toNat_ofNat_of_lt' (hlength.2.trans_lt (by decide))
  obtain ⟨result, hloop, hfile⟩ := Option.map_eq_some_iff.mp hnew
  cases result with
  | skipped => cases hfile
  | entered b =>
    obtain rfl := Option.some.inj hfile
    obtain ⟨v, hfirst, rfl⟩ := newPinLoop_entered (hlength.2.trans (by decide)) (.start _)
      hlength.1 hloop
    refine ⟨v, hfirst, fun presses' => ?_, fun pinMode' presses' => ?_⟩
    · rw [verifyPin_eq (computePinHash (pad v)).property, if_pos rfl, hbyte,
        verifyPinLoop_unlocked (hlength.2.trans (by decide)) (.start _) hlength.1]
      simp only [Subtype.ext_iff]
    · rw [verifyPin_eq (computePinHash (pad v)).property]
      split_ifs with heq
      · exact iff_of_false (verifyPinLoop_ne_noPin presses') (not_not_intro heq)
      · exact iff_of_true rfl heq

/-- The console's hash, for a test: the block, as often as it is needed. -/
def testHash : PinHash := fun block =>
  ⟨(block ++ block ++ List.replicate 32 0).take 32, by
    rw [List.length_take, List.length_append, List.length_replicate]
    omega⟩

theorem newPin_verifyPin_aabb : ∃ v,
    (attempts (pinLength 1) [] ([1, 1, 2, 2].map (newPinKey true))).head? = some v ∧
      (∀ presses', verifyPin testHash (pinData (testHash (lengthBlock 1)).val
          (testHash (pad [0x41, 0x41, 0x42, 0x42])).val) 1 presses' = .unlocked ↔
        ∃ w ∈ attempts (pinLength 1) [] (presses'.map verifyPinKey),
          testHash (pad w) = testHash (pad v)) ∧
      ∀ pinMode' presses', verifyPin testHash (pinData (testHash (lengthBlock 1)).val
          (testHash (pad [0x41, 0x41, 0x42, 0x42])).val) pinMode' presses' = .noPin ↔
        testHash (lengthBlock 1) ≠ testHash (lengthBlock pinMode') :=
  @newPin_verifyPin testHash true 1 [1, 1, 2, 2] _ (by decide) (by decide)

end Presence3DS.Arm9.Pin
