import Mathlib.Algebra.Order.Group.Unbundled.Abs
import Mathlib.Algebra.Order.Ring.Int
import Mathlib.Algebra.Order.Ring.Nat
import Mathlib.Data.List.TakeWhile
import Mathlib.Order.Fin.Basic
import Mathlib.Tactic.LinearCombination
import Mathlib.Tactic.Ring

/-! Setting the clock (`ntp.c` of rosalina), against a clock that counts the ticks of the system. -/

namespace Presence3DS.Rosalina

def sysclockArm11 : ℕ := 268111856

def msecDelta1900To2000 : ℕ := 3155673600000

/-- The calls of other processes. -/
inductive NtpCall
  | ptmSysmInit | ptmSetsInit | cfguInit
  | setConfigInfoBlk4 (blkId : UInt32) | updateConfigSavegame
  | setRtcTime | setUserTime | setSystemTime
  | cfguExit | ptmSetsExit | ptmSysmExit

/-- How long they take, in ticks, and what they return. -/
structure NtpCalls where
  ticks : NtpCall → ℕ
  result : NtpCall → Int32

/-- A time that is passed to a setter, and when. -/
structure TimeSet where
  now : ℕ
  msY2k : Int64
deriving DecidableEq

structure ClockState where
  now : ℕ
  timesSet : List TimeSet

abbrev ClockM := StateM ClockState

def svcGetSystemTick : ClockM UInt64 := fun s => (UInt64.ofNat s.now, s)

def sleepTicks (ns : ℕ) : ℕ := ns * sysclockArm11 / 10 ^ 9

def svcSleepThread (ns : UInt64) : ClockM Unit :=
  fun s => ((), { s with now := s.now + sleepTicks ns.toNat })

variable (calls : NtpCalls)

def NtpCalls.ipc (call : NtpCall) : ClockM Int32 :=
  fun s => (calls.result call, { s with now := s.now + calls.ticks call })

def NtpCalls.setTime (call : NtpCall) (msY2k : Int64) : ClockM Int32 :=
  fun s => (calls.result call,
    { now := s.now + calls.ticks call, timesSet := s.timesSet ++ [⟨s.now, msY2k⟩] })

/-- From ticks to milliseconds. -/
def ticksToMs (ticks : UInt64) : UInt64 := 1000 * ticks / UInt64.ofNat sysclockArm11

/-- Until the next second, which is then the time. -/
def waitNextSecond (msY2k : Int64) : ClockM Int64 := do
  if msY2k % 1000 ≠ 0 then
    let dt2 := (1000 - msY2k % 1000).toUInt64
    svcSleepThread dt2
    return (msY2k.toUInt64 + dt2).toInt64
  else
    return msY2k

def syncRtcTime (msY2k : Int64) : ClockM Int32 := do
  let samplingTick2 ← svcGetSystemTick
  let mut res ← calls.ipc (.setConfigInfoBlk4 0x30001)
  if res ≥ 0 then res ← calls.ipc (.setConfigInfoBlk4 0x30002)
  if res ≥ 0 then res ← calls.ipc .updateConfigSavegame
  let tick ← svcGetSystemTick
  let msY2k ← waitNextSecond (msY2k.toUInt64 + ticksToMs (tick - samplingTick2)).toInt64
  if res ≥ 0 then res ← calls.setTime .setRtcTime msY2k
  return res

def setUserTime (msY2k : Int64) : ClockM Int32 := do
  let mut res ← calls.setTime .setUserTime msY2k
  if res ≥ 0 then res ← calls.setTime .setSystemTime msY2k
  return res

def ntpSetTimeDateImpl (msSince1900 samplingTick : UInt64) (syncRtc : Bool) : ClockM Int32 := do
  let res ← calls.ipc .ptmSysmInit
  if res < 0 then return res
  let res ← calls.ipc .ptmSetsInit
  if res < 0 then
    let _ ← calls.ipc .ptmSysmExit
    return res
  let res ← calls.ipc .cfguInit
  if res < 0 then
    let _ ← calls.ipc .ptmSetsExit
    let _ ← calls.ipc .ptmSysmExit
    return res
  let tick ← svcGetSystemTick
  let dt := ticksToMs (tick - samplingTick)
  let msY2k := (msSince1900 + dt - UInt64.ofNat msecDelta1900To2000).toInt64
  let res ← if syncRtc then syncRtcTime calls msY2k else setUserTime calls msY2k
  let _ ← calls.ipc .cfguExit
  let _ ← calls.ipc .ptmSetsExit
  let _ ← calls.ipc .ptmSysmExit
  return res

/-! ## Against the clock -/

/-- A time, and when it was taken. -/
structure ClockSample where
  msSince1900 : UInt64
  tick : ℕ

variable (sample : ClockSample)

/-- What is set from a sample, some ticks after it was taken. -/
def timesSetFrom (delay : ℕ) (syncRtc : Bool) : List TimeSet :=
  (ntpSetTimeDateImpl calls sample.msSince1900 (UInt64.ofNat sample.tick) syncRtc
    ⟨sample.tick + delay, []⟩).2.timesSet

/-- How far a time is ahead of the sampled one and what has elapsed since then, in fractions of a
millisecond of which a tick makes a thousand. -/
def ClockSample.ahead (set : TimeSet) : ℤ :=
  (set.msY2k.toInt - (sample.msSince1900.toNat - msecDelta1900To2000)) * sysclockArm11 -
    1000 * (set.now - sample.tick)

/-- A millisecond may be lost in each conversion, of which there are two with the RTC, and this one
is set at whole seconds. -/
def TimesRight (delay : ℕ) (syncRtc : Bool) : Prop :=
  ∀ set ∈ timesSetFrom calls sample delay syncRtc,
    |sample.ahead set| ≤ (if syncRtc then 2 else 1) * sysclockArm11 ∧
      (syncRtc = true → set.msY2k.toInt % 1000 = 0)

/-- What is left to the next second. -/
def msToSecond (ms : ℤ) : ℤ := if ms.tmod 1000 = 0 then 0 else 1000 - ms.tmod 1000

/-- All services are there. -/
def NtpCalls.Started : Prop :=
  0 ≤ calls.result .ptmSysmInit ∧ 0 ≤ calls.result .ptmSetsInit ∧ 0 ≤ calls.result .cfguInit

def NtpCalls.Saved : Prop :=
  0 ≤ calls.result (.setConfigInfoBlk4 0x30001) ∧
    0 ≤ calls.result (.setConfigInfoBlk4 0x30002) ∧ 0 ≤ calls.result .updateConfigSavegame

def NtpCalls.startTicks : ℕ :=
  calls.ticks .ptmSysmInit + calls.ticks .ptmSetsInit + calls.ticks .cfguInit

def NtpCalls.saveTicks : ℕ :=
  calls.ticks (.setConfigInfoBlk4 0x30001) + calls.ticks (.setConfigInfoBlk4 0x30002) +
    calls.ticks .updateConfigSavegame

def wholeMs (ticks : ℕ) : ℕ := 1000 * ticks / sysclockArm11

def lostMs (ticks : ℕ) : ℕ := 1000 * ticks % sysclockArm11

/-- The first setter does not keep the second one waiting. -/
def UserInTime (delay : ℕ) : Prop :=
  let elapsed := delay + calls.startTicks
  calls.Started → 1000 * elapsed < 2 ^ 64 ∧
    sample.msSince1900.toNat + wholeMs elapsed < 2 ^ 63 + msecDelta1900To2000 ∧
    (0 ≤ calls.result .setUserTime →
      lostMs elapsed + 1000 * calls.ticks .setUserTime ≤ sysclockArm11)

/-- It is a whole second when the configuration has been saved, or just before one. -/
def RtcInTime (delay : ℕ) : Prop :=
  let elapsed := delay + calls.startTicks
  let ms : ℤ := sample.msSince1900.toNat - msecDelta1900To2000 + wholeMs elapsed +
    wholeMs calls.saveTicks
  calls.Started → calls.Saved → 1000 * elapsed < 2 ^ 64 ∧ 1000 * calls.saveTicks < 2 ^ 64 ∧
    ms + msToSecond ms < 2 ^ 63 ∧
    msToSecond ms * sysclockArm11 ≤ lostMs elapsed + lostMs calls.saveTicks +
      1000 * sleepTicks (msToSecond ms).toNat + 2 * sysclockArm11

section

variable {calls : NtpCalls} {sample : ClockSample} {delay : ℕ}

theorem pure_run {α : Type} (a : α) (s : ClockState) : (StateT.pure a : ClockM α) s = (a, s) := rfl

theorem tick_sub (tick elapsed : ℕ) :
    UInt64.ofNat (tick + elapsed) - UInt64.ofNat tick = UInt64.ofNat elapsed := by
  rw [UInt64.ofNat_add]
  grind

theorem timesSet_failed {syncRtc : Bool} (hstarted : ¬calls.Started) :
    timesSetFrom calls sample delay syncRtc = [] := by
  unfold timesSetFrom ntpSetTimeDateImpl
  by_cases hsysm : calls.result .ptmSysmInit < 0
  · simp [NtpCalls.ipc, hsysm, bind, StateT.bind, pure, pure_run]
  by_cases hsets : calls.result .ptmSetsInit < 0
  · simp [NtpCalls.ipc, hsysm, hsets, bind, StateT.bind, pure, pure_run]
  by_cases hcfgu : calls.result .cfguInit < 0
  · simp [NtpCalls.ipc, hsysm, hsets, hcfgu, bind, StateT.bind, pure, pure_run]
  exact absurd ⟨Int32.not_lt.mp hsysm, Int32.not_lt.mp hsets, Int32.not_lt.mp hcfgu⟩ hstarted

/-- The time in milliseconds, once all services are there. -/
def firstTime (sample : ClockSample) (elapsed : ℕ) : Int64 :=
  (sample.msSince1900 + ticksToMs (UInt64.ofNat elapsed) -
    UInt64.ofNat msecDelta1900To2000).toInt64

theorem timesSet_started {syncRtc : Bool} (hstarted : calls.Started) :
    timesSetFrom calls sample delay syncRtc =
      ((if syncRtc then syncRtcTime calls (firstTime sample (delay + calls.startTicks))
        else setUserTime calls (firstTime sample (delay + calls.startTicks)))
        ⟨sample.tick + (delay + calls.startTicks), []⟩).2.timesSet := by
  obtain ⟨hsysm, hsets, hcfgu⟩ := hstarted
  have hnow : sample.tick + delay + calls.ticks .ptmSysmInit + calls.ticks .ptmSetsInit +
      calls.ticks .cfguInit = sample.tick + (delay + calls.startTicks) := by
    unfold NtpCalls.startTicks
    omega
  unfold timesSetFrom ntpSetTimeDateImpl
  simp only [NtpCalls.ipc, Int32.not_lt.mpr hsysm, Int32.not_lt.mpr hsets, Int32.not_lt.mpr hcfgu,
    bind, StateT.bind, pure, if_false, svcGetSystemTick, hnow, tick_sub]
  cases syncRtc
  · rfl
  · rfl

theorem timesSet_user (msY2k : Int64) (now : ℕ) :
    (setUserTime calls msY2k ⟨now, []⟩).2.timesSet =
      ⟨now, msY2k⟩ :: if 0 ≤ calls.result .setUserTime then
        [⟨now + calls.ticks .setUserTime, msY2k⟩] else [] := by
  unfold setUserTime
  split_ifs with hset
  · simp [NtpCalls.setTime, bind, StateT.bind, pure, pure_run, hset]
  · simp [NtpCalls.setTime, bind, StateT.bind, pure, pure_run, hset]

/-- The milliseconds that are waited for. -/
def waitMs (msY2k : Int64) : UInt64 :=
  if msY2k % 1000 ≠ 0 then (1000 - msY2k % 1000).toUInt64 else 0

theorem waitNextSecond_run (msY2k : Int64) (s : ClockState) :
    waitNextSecond msY2k s = ((msY2k.toUInt64 + waitMs msY2k).toInt64,
      { s with now := s.now + sleepTicks (waitMs msY2k).toNat }) := by
  unfold waitNextSecond waitMs
  split_ifs with hwhole
  · rfl
  · rw [UInt64.add_zero]
    rfl

theorem timesSet_saved (hsaved : calls.Saved) (msY2k ms : Int64) (now : ℕ)
    (hms : (msY2k.toUInt64 + ticksToMs (UInt64.ofNat calls.saveTicks)).toInt64 = ms) :
    (syncRtcTime calls msY2k ⟨now, []⟩).2.timesSet =
      [⟨now + calls.saveTicks + sleepTicks (waitMs ms).toNat,
        (ms.toUInt64 + waitMs ms).toInt64⟩] := by
  obtain ⟨hfirst, hsecond, hupdate⟩ := hsaved
  have hnow : now + calls.ticks (.setConfigInfoBlk4 0x30001) +
      calls.ticks (.setConfigInfoBlk4 0x30002) + calls.ticks .updateConfigSavegame =
      now + calls.saveTicks := by
    unfold NtpCalls.saveTicks
    omega
  unfold syncRtcTime
  simp only [NtpCalls.ipc, NtpCalls.setTime, svcGetSystemTick, bind, StateT.bind, pure,
    pure_run, ge_iff_le, hfirst, hsecond, hupdate, if_true, hnow, tick_sub, hms,
    waitNextSecond_run, List.nil_append]

theorem timesSet_unsaved (hsaved : ¬calls.Saved) (msY2k : Int64) (now : ℕ) :
    (syncRtcTime calls msY2k ⟨now, []⟩).2.timesSet = [] := by
  unfold syncRtcTime
  by_cases hfirst : 0 ≤ calls.result (.setConfigInfoBlk4 0x30001)
  · by_cases hsecond : 0 ≤ calls.result (.setConfigInfoBlk4 0x30002)
    · by_cases hupdate : 0 ≤ calls.result .updateConfigSavegame
      · exact absurd ⟨hfirst, hsecond, hupdate⟩ hsaved
      · simp only [NtpCalls.ipc, svcGetSystemTick, bind, StateT.bind, pure, pure_run,
          ge_iff_le, waitNextSecond_run, hfirst, hsecond, hupdate, if_true, if_false]
    · simp only [NtpCalls.ipc, svcGetSystemTick, bind, StateT.bind, pure, pure_run,
        ge_iff_le, waitNextSecond_run, hfirst, hsecond, if_true, if_false]
  · simp only [NtpCalls.ipc, svcGetSystemTick, bind, StateT.bind, pure, pure_run,
      ge_iff_le, waitNextSecond_run, hfirst, if_false]

/-! The words, as numbers. -/

theorem ticksToMs_split (ticks : ℕ) :
    ∃ q r : ℕ, 1000 * ticks =
        2 ^ 64 * q + sysclockArm11 * (ticksToMs (UInt64.ofNat ticks)).toNat + r ∧
      r < sysclockArm11 ∧
      sysclockArm11 * (ticksToMs (UInt64.ofNat ticks)).toNat + r < 2 ^ 64 := by
  have hms : (ticksToMs (UInt64.ofNat ticks)).toNat =
      1000 * ticks % 2 ^ 64 / sysclockArm11 := by
    unfold ticksToMs
    rw [UInt64.toNat_div, UInt64.toNat_mul, UInt64.toNat_ofNat', UInt64.toNat_ofNat']
    show 1000 * (ticks % 2 ^ 64) % 2 ^ 64 / sysclockArm11 = _
    rw [Nat.mul_mod_mod]
  refine ⟨1000 * ticks / 2 ^ 64, 1000 * ticks % 2 ^ 64 % sysclockArm11, ?_,
    Nat.mod_lt _ (by decide), ?_⟩
  · rw [hms, Nat.add_assoc, Nat.div_add_mod, Nat.div_add_mod]
  · rw [hms, Nat.div_add_mod]
    exact Nat.mod_lt _ (by decide)

theorem ticksToMs_whole {ticks q r : ℕ} (hsplit : 1000 * ticks =
    2 ^ 64 * q + sysclockArm11 * (ticksToMs (UInt64.ofNat ticks)).toNat + r)
    (hr : r < sysclockArm11) (hq : q = 0) :
    wholeMs ticks = (ticksToMs (UInt64.ofNat ticks)).toNat ∧ lostMs ticks = r := by
  subst hq
  unfold wholeMs lostMs
  refine (Nat.div_mod_unique (by decide)).mpr ⟨?_, hr⟩
  rw [hsplit]
  omega

theorem toInt64_toInt (x : UInt64) : ∃ j : ℤ, x.toInt64.toInt = x.toNat + 2 ^ 64 * j := by
  have hx : x.toInt64.toInt = (x.toNat : ℤ).bmod (2 ^ 64) := BitVec.toInt_eq_toNat_bmod _
  rw [hx, Int.bmod_eq_emod]
  refine ⟨-(x.toNat / 2 ^ 64) -
    if ((2 ^ 64 : ℕ) + 1 : ℤ) / 2 ≤ x.toNat % (2 ^ 64 : ℕ) then 1 else 0, ?_⟩
  split_ifs <;> omega

theorem toUInt64_toNat (x : Int64) : ∃ j : ℤ, (x.toUInt64.toNat : ℤ) = x.toInt + 2 ^ 64 * j := by
  obtain ⟨j, hj⟩ := toInt64_toInt x.toUInt64
  rw [show x.toUInt64.toInt64 = x from rfl] at hj
  exact ⟨-j, by omega⟩

theorem addMs_toInt (x : Int64) (d : UInt64) :
    ∃ j : ℤ, (x.toUInt64 + d).toInt64.toInt = x.toInt + d.toNat + 2 ^ 64 * j := by
  obtain ⟨i, hi⟩ := toUInt64_toNat x
  obtain ⟨j, hj⟩ := toInt64_toInt (x.toUInt64 + d)
  rw [UInt64.toNat_add] at hj
  exact ⟨i + j - (x.toUInt64.toNat + d.toNat) / 2 ^ 64, by omega⟩

theorem firstTime_toInt (sample : ClockSample) (elapsed : ℕ) :
    ∃ j : ℤ, (firstTime sample elapsed).toInt = sample.msSince1900.toNat +
      (ticksToMs (UInt64.ofNat elapsed)).toNat - msecDelta1900To2000 + 2 ^ 64 * j := by
  unfold firstTime
  generalize ticksToMs (UInt64.ofNat elapsed) = d
  obtain ⟨j, hj⟩ := toInt64_toInt
    (sample.msSince1900 + d - UInt64.ofNat msecDelta1900To2000)
  rw [UInt64.toNat_sub, UInt64.toNat_add, show (UInt64.ofNat msecDelta1900To2000).toNat =
    msecDelta1900To2000 from rfl] at hj
  unfold msecDelta1900To2000 at *
  rw [hj]
  refine ⟨j + 1 - (sample.msSince1900.toNat + d.toNat) / 2 ^ 64 -
    (2 ^ 64 - 3155673600000 + (sample.msSince1900.toNat + d.toNat) % 2 ^ 64) / 2 ^ 64, ?_⟩
  omega

theorem waitMs_toNat (ms : Int64) : ((waitMs ms).toNat : ℤ) = msToSecond ms.toInt := by
  have hmod : (ms % 1000).toInt = ms.toInt.tmod 1000 := Int64.toInt_mod ms 1000
  unfold waitMs msToSecond
  rw [← hmod]
  have hmin : -1000 < (ms % 1000).toInt := hmod ▸ Int.lt_tmod_of_pos _ (by decide)
  have hmax : (ms % 1000).toInt < 1000 := hmod ▸ Int.tmod_lt_of_pos _ (by decide)
  generalize ms % 1000 = rest at *
  by_cases hrest : rest = 0
  · rw [hrest, if_neg (not_not.mpr rfl)]
    rfl
  have hrest' : rest.toInt ≠ 0 := fun hzero => hrest (Int64.toInt_inj.mp hzero)
  rw [if_pos hrest, if_neg hrest']
  have hsub : (1000 - rest).toInt = 1000 - rest.toInt := by
    rw [Int64.toInt_sub]
    exact Int.bmod_eq_of_le (by show -_ ≤ 1000 - rest.toInt; omega)
      (by show 1000 - rest.toInt < _; omega)
  obtain ⟨j, hj⟩ := toUInt64_toNat (1000 - rest)
  have hsmall := (1000 - rest).toUInt64.toNat_lt
  rw [hj, hsub]
  omega

theorem msToSecond_bounds (ms : ℤ) : 0 ≤ msToSecond ms ∧ msToSecond ms < 2000 ∧
    (ms + msToSecond ms) % 1000 = 0 := by
  have hmin : -1000 < ms.tmod 1000 := Int.lt_tmod_of_pos _ (by decide)
  have hmax : ms.tmod 1000 < 1000 := Int.tmod_lt_of_pos _ (by decide)
  have hparts := Int.mul_tdiv_add_tmod ms 1000
  unfold msToSecond
  split_ifs with hwhole
  · omega
  · omega

theorem sleepTicks_le (ns : ℕ) : 1000 * sleepTicks ns ≤ ns * sysclockArm11 := by
  unfold sleepTicks
  omega

theorem ahead_eq (elapsed : ℕ) (ms : ℤ) {v : Int64} {now : ℕ} (hnow : now = sample.tick + elapsed)
    (hv : v.toInt = sample.msSince1900.toNat - msecDelta1900To2000 + ms) :
    sample.ahead ⟨now, v⟩ = ms * sysclockArm11 - 1000 * elapsed := by
  unfold ClockSample.ahead
  rw [hv, hnow]
  push_cast
  ring

theorem user_setters {q r : ℕ} {j late : ℤ} (hr : r < sysclockArm11) (hj : j ≤ 0)
    (hlate : 0 ≤ late) :
    |2 ^ 64 * (sysclockArm11 * j - q) - (r : ℤ) - late| ≤ (1 : ℤ) * sysclockArm11 ↔
      (q = 0 ∧ j = 0) ∧ r + late ≤ sysclockArm11 := by
  rw [abs_le]
  unfold sysclockArm11 at *
  constructor
  · rintro ⟨hmin, -⟩
    have hq : q = 0 := by omega
    have hj : j = 0 := by omega
    exact ⟨⟨hq, hj⟩, by omega⟩
  · rintro ⟨⟨rfl, rfl⟩, hlate⟩
    omega

theorem setsUser_iff (hstarted : calls.Started) :
    TimesRight calls sample delay false ↔ UserInTime calls sample delay := by
  unfold TimesRight UserInTime
  rw [timesSet_started hstarted]
  simp only [Bool.false_eq_true, if_false, timesSet_user, List.forall_mem_cons]
  generalize delay + calls.startTicks = elapsed
  obtain ⟨q, r, hsplit, hr, hsmall⟩ := ticksToMs_split elapsed
  have hwhole := ticksToMs_whole hsplit hr
  obtain ⟨j, hj⟩ := firstTime_toInt sample elapsed
  have hmin := (firstTime sample elapsed).le_toInt
  have hmax := (firstTime sample elapsed).toInt_lt
  have hahead : ∀ late : ℕ,
      sample.ahead ⟨sample.tick + elapsed + late, firstTime sample elapsed⟩ =
        2 ^ 64 * (sysclockArm11 * j - q) - r - 1000 * late := by
    intro late
    rw [ahead_eq (elapsed + late) ((ticksToMs (UInt64.ofNat elapsed)).toNat + 2 ^ 64 * j)
      (Nat.add_assoc _ _ _) (by rw [hj]; ring)]
    push_cast
    have hsplit' : (1000 * elapsed : ℤ) = 2 ^ 64 * q +
      sysclockArm11 * (ticksToMs (UInt64.ofNat elapsed)).toNat + r := by exact_mod_cast hsplit
    linear_combination -hsplit'
  have hj0 : j ≤ 0 := by
    unfold msecDelta1900To2000 at hj
    omega
  have hfits : q = 0 ∧ j = 0 ↔ 1000 * elapsed < 2 ^ 64 ∧
      sample.msSince1900.toNat + wholeMs elapsed < 2 ^ 63 + msecDelta1900To2000 := by
    have hq : q = 0 ↔ 1000 * elapsed < 2 ^ 64 := by omega
    rw [← hq]
    refine and_congr_right fun hq => ?_
    rw [(hwhole hq).1]
    unfold msecDelta1900To2000 at *
    omega
  have hfirst := hahead 0
  rw [Nat.add_zero, Nat.cast_zero, mul_zero] at hfirst
  have hsecond := hahead (calls.ticks .setUserTime)
  rw [hfirst, user_setters hr hj0 le_rfl]
  split_ifs with hset
  · simp only [List.forall_mem_singleton, hsecond]
    rw [user_setters hr hj0 (by omega)]
    constructor
    · rintro ⟨-, ⟨hzero, hlate⟩, -⟩ -
      obtain ⟨hticks, hms⟩ := hfits.mp hzero
      refine ⟨hticks, hms, fun _ => ?_⟩
      rw [(hwhole hzero.1).2]
      omega
    · intro hintime
      obtain ⟨hticks, hms, hlate⟩ := hintime hstarted
      have hzero := hfits.mpr ⟨hticks, hms⟩
      have hlost := hlate hset
      rw [(hwhole hzero.1).2] at hlost
      exact ⟨⟨⟨hzero, by omega⟩, False.elim⟩, ⟨hzero, by omega⟩, False.elim⟩
  · constructor
    · rintro ⟨⟨⟨hzero, -⟩, -⟩, -⟩ -
      obtain ⟨hticks, hms⟩ := hfits.mp hzero
      exact ⟨hticks, hms, fun hset' => absurd hset' hset⟩
    · intro hintime
      obtain ⟨hticks, hms, -⟩ := hintime hstarted
      refine ⟨⟨⟨hfits.mpr ⟨hticks, hms⟩, by omega⟩, False.elim⟩, fun x hx => ?_⟩
      exact absurd hx List.not_mem_nil

theorem rtc_setter {q q' r r' sleep : ℕ} {j w : ℤ} (hr : r < sysclockArm11)
    (hr' : r' < sysclockArm11) (hj : j ≤ 0) (hw : 0 ≤ w) (hw' : w < 2000)
    (hsleep : 1000 * (sleep : ℤ) ≤ w * sysclockArm11) :
    |2 ^ 64 * (sysclockArm11 * j - q - q') + w * sysclockArm11 - r - r' - 1000 * sleep| ≤
        (2 : ℤ) * sysclockArm11 ↔
      (q = 0 ∧ q' = 0 ∧ j = 0) ∧
        w * sysclockArm11 ≤ r + r' + 1000 * sleep + 2 * sysclockArm11 := by
  rw [abs_le]
  unfold sysclockArm11 at *
  constructor
  · rintro ⟨hmin, hmax⟩
    have hq : q = 0 := by omega
    have hq' : q' = 0 := by omega
    have hj : j = 0 := by omega
    exact ⟨⟨hq, hq', hj⟩, by omega⟩
  · rintro ⟨⟨rfl, rfl, rfl⟩, hlate⟩
    omega

theorem setsRtc_iff (hstarted : calls.Started) (hsaved : calls.Saved) :
    TimesRight calls sample delay true ↔ RtcInTime calls sample delay := by
  unfold TimesRight RtcInTime
  generalize hms : ((firstTime sample (delay + calls.startTicks)).toUInt64 +
    ticksToMs (UInt64.ofNat calls.saveTicks)).toInt64 = ms
  rw [timesSet_started hstarted, if_pos rfl, timesSet_saved hsaved _ ms _ hms]
  simp only [List.forall_mem_singleton, if_true, true_imp_iff]
  generalize delay + calls.startTicks = elapsed at *
  generalize calls.saveTicks = saved at *
  obtain ⟨q, r, hsplit, hr, hsmall⟩ := ticksToMs_split elapsed
  obtain ⟨q', r', hsplit', hr', hsmall'⟩ := ticksToMs_split saved
  have hwhole := ticksToMs_whole hsplit hr
  have hwhole' := ticksToMs_whole hsplit' hr'
  obtain ⟨j, hj⟩ : ∃ j : ℤ, ms.toInt = sample.msSince1900.toNat - msecDelta1900To2000 +
      (ticksToMs (UInt64.ofNat elapsed)).toNat + (ticksToMs (UInt64.ofNat saved)).toNat +
        2 ^ 64 * j := by
    obtain ⟨i, hi⟩ := firstTime_toInt sample elapsed
    obtain ⟨k, hk⟩ := addMs_toInt (firstTime sample elapsed) (ticksToMs (UInt64.ofNat saved))
    rw [hms] at hk
    exact ⟨i + k, by omega⟩
  obtain ⟨j', hj'⟩ : ∃ j : ℤ, (ms.toUInt64 + waitMs ms).toInt64.toInt =
      sample.msSince1900.toNat - msecDelta1900To2000 +
      (ticksToMs (UInt64.ofNat elapsed)).toNat + (ticksToMs (UInt64.ofNat saved)).toNat +
        msToSecond ms.toInt + 2 ^ 64 * j := by
    obtain ⟨k, hk⟩ := addMs_toInt ms (waitMs ms)
    rw [waitMs_toNat] at hk
    exact ⟨j + k, by omega⟩
  obtain ⟨hw, hw', hsecond⟩ := msToSecond_bounds ms.toInt
  have hsleep : 1000 * (sleepTicks (waitMs ms).toNat : ℤ) ≤
      msToSecond ms.toInt * sysclockArm11 := by
    rw [← waitMs_toNat]
    exact_mod_cast sleepTicks_le (waitMs ms).toNat
  have hahead : sample.ahead ⟨sample.tick + elapsed + saved + sleepTicks (waitMs ms).toNat,
      (ms.toUInt64 + waitMs ms).toInt64⟩ =
      2 ^ 64 * (sysclockArm11 * j' - q - q') + msToSecond ms.toInt * sysclockArm11 - r - r' -
        1000 * sleepTicks (waitMs ms).toNat := by
    rw [ahead_eq (elapsed + saved + sleepTicks (waitMs ms).toNat)
      ((ticksToMs (UInt64.ofNat elapsed)).toNat + (ticksToMs (UInt64.ofNat saved)).toNat +
        msToSecond ms.toInt + 2 ^ 64 * j') (by omega) (by rw [hj']; ring)]
    push_cast
    have hsplit : (1000 * elapsed : ℤ) = 2 ^ 64 * q +
      sysclockArm11 * (ticksToMs (UInt64.ofNat elapsed)).toNat + r := by exact_mod_cast hsplit
    have hsplit' : (1000 * saved : ℤ) = 2 ^ 64 * q' +
      sysclockArm11 * (ticksToMs (UInt64.ofNat saved)).toNat + r' := by exact_mod_cast hsplit'
    linear_combination -hsplit - hsplit'
  have hmin := ms.le_toInt
  have hmax := ms.toInt_lt
  have hmin' := (ms.toUInt64 + waitMs ms).toInt64.le_toInt
  have hmax' := (ms.toUInt64 + waitMs ms).toInt64.toInt_lt
  have hj0 : j' ≤ 0 := by
    clear hsplit hsplit' hsleep hahead
    unfold msecDelta1900To2000 at *
    omega
  rw [hahead, rtc_setter hr hr' hj0 hw hw' hsleep]
  have hq : q = 0 ↔ 1000 * elapsed < 2 ^ 64 := by omega
  have hq' : q' = 0 ↔ 1000 * saved < 2 ^ 64 := by omega
  rw [hq, hq']
  have hsame : 1000 * elapsed < 2 ^ 64 → 1000 * saved < 2 ^ 64 →
      sample.msSince1900.toNat - msecDelta1900To2000 + wholeMs elapsed + wholeMs saved +
        2 ^ 64 * j = ms.toInt ∧ lostMs elapsed = r ∧ lostMs saved = r' := by
    intro hticks hticks'
    obtain ⟨hms, hlost⟩ := hwhole (hq.mpr hticks)
    obtain ⟨hms', hlost'⟩ := hwhole' (hq'.mpr hticks')
    rw [hms, hms', hj]
    exact ⟨rfl, hlost, hlost'⟩
  have hns : (msToSecond ms.toInt).toNat = (waitMs ms).toNat := by
    rw [← waitMs_toNat]
    exact Int.toNat_natCast _
  clear hsplit hsplit' hsmall hsmall' hwhole hwhole' hahead hsleep hq hq'
  unfold msecDelta1900To2000 at *
  constructor
  · rintro ⟨⟨⟨hticks, hticks', rfl⟩, hlate⟩, -⟩ - -
    obtain ⟨hsame, hlost, hlost'⟩ := hsame hticks hticks'
    have hj : j = 0 := by omega
    rw [hj, mul_zero, add_zero] at hsame
    rw [hsame, hlost, hlost', hns]
    exact ⟨hticks, hticks', by omega, hlate⟩
  · intro hintime
    obtain ⟨hticks, hticks', hfits, hlate⟩ := hintime hstarted hsaved
    obtain ⟨hsame, hlost, hlost'⟩ := hsame hticks hticks'
    have hbounds := msToSecond_bounds (sample.msSince1900.toNat - (3155673600000 : ℕ) +
      wholeMs elapsed + wholeMs saved)
    have hj : j = 0 := by omega
    rw [hj, mul_zero, add_zero] at hsame
    rw [hsame, hlost, hlost', hns] at hlate
    rw [hsame] at hfits
    have hj' : j' = 0 := by omega
    refine ⟨⟨⟨hticks, hticks', hj'⟩, hlate⟩, ?_⟩
    omega

end

/-- The times that are set are right just if the second setter is not late, and if the RTC is set
when it need not be waited for: the thread sleeps for as many nanoseconds as there are milliseconds
left. -/
theorem ntpSetTimeDate_right (calls : NtpCalls) (sample : ClockSample) (delay : ℕ)
    (syncRtc : Bool) :
    TimesRight calls sample delay syncRtc ↔
      if syncRtc then RtcInTime calls sample delay else UserInTime calls sample delay := by
  by_cases hstarted : calls.Started
  · cases syncRtc
    · exact setsUser_iff hstarted
    by_cases hsaved : calls.Saved
    · exact setsRtc_iff hstarted hsaved
    · have hnone : timesSetFrom calls sample delay true = [] := by
        rw [timesSet_started hstarted, if_pos rfl, timesSet_unsaved hsaved]
      refine iff_of_true (fun set hset => ?_) fun _ hsaved' => absurd hsaved' hsaved
      exact absurd (hnone ▸ hset) List.not_mem_nil
  · refine iff_of_true (fun set hset => ?_) ?_
    · exact absurd (timesSet_failed hstarted ▸ hset) List.not_mem_nil
    · cases syncRtc
      · exact fun hstarted' => absurd hstarted' hstarted
      · exact fun hstarted' => absurd hstarted' hstarted

/-- Half a second after a whole one, with calls that take no time. -/
def halfSecond : ClockSample where
  msSince1900 := 3155673600500
  tick := 0

def instantCalls : NtpCalls where
  ticks _ := 0
  result _ := 0

/-- The next second is set after 500 nanoseconds. -/
theorem rtc_set_early : ¬TimesRight instantCalls halfSecond 0 true := by
  intro hright
  have hset : timesSetFrom instantCalls halfSecond 0 true = [⟨134, 1000⟩] := by decide +kernel
  obtain ⟨hahead, -⟩ := hright ⟨134, 1000⟩ (hset ▸ List.mem_singleton.mpr rfl)
  exact absurd hahead (by decide +kernel)

end Presence3DS.Rosalina
