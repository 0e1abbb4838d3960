import Presence3DS.Lib.Gregorian

/-! From a number of milliseconds to a date and a time of day (`utils.c` of rosalina). -/

namespace Presence3DS.Rosalina
open Gregorian

structure CalendarTime where
  year : Int32
  month : Int8
  day : Int8
  weekday : Int8
  hour : Int8
  minute : Int8
  second : Int8
  ms : Int16
deriving DecidableEq

def msInADay : UInt64 := 1000 * 3600 * 24

def calendarTimeFromMsSince1900 (msSince1900 : UInt64) : CalendarTime :=
  let daysSince1900 := (msSince1900 / msInADay).toUInt32
  let msRem := (msSince1900 % msInADay).toUInt32
  -- the shift wraps for dates before 1970
  let s : UInt32 := 82
  let K := 719468 + 146097 * s
  let L := 400 * s
  let N := daysSince1900 - 25567 + K
  let N₁ := 4 * N + 3
  let C := N₁ / 146097
  let N_C := N₁ % 146097 / 4
  let N₂ := 4 * N_C + 3
  let P₂ : UInt64 := 2939745 * N₂.toUInt64
  let Z := (P₂ / 4294967296).toUInt32
  let N_Y := (P₂ % 4294967296).toUInt32 / 2939745 / 4
  let Y := 100 * C + Z
  let N₃ := 2141 * N_Y + 197913
  let M := N₃ / 65536
  let D := N₃ % 65536 / 2141
  let J : UInt32 := if N_Y ≥ 306 then 1 else 0
  let Y_G := (Y - L + J).toInt32
  let M_G := if J ≠ 0 then M - 12 else M
  let D_G := D + 1
  let secs := msRem / 1000
  let mins := secs / 60
  { year := Y_G
    month := M_G.toUInt8.toInt8
    day := D_G.toUInt8.toInt8
    weekday := ((1 + daysSince1900) % 7).toUInt8.toInt8
    hour := (mins / 60).toUInt8.toInt8
    minute := (mins % 60).toUInt8.toInt8
    second := (secs % 60).toUInt8.toInt8
    ms := (msRem % 1000).toUInt16.toInt16 }

/-- The day count after which the shifted one no longer fits. -/
def lastDay : ℕ := 1061067968

/-- Date, day of the week and time of the day of an instant, counted from Monday, the first of
January 1900. -/
structure IsInstant (t : CalendarTime) (msSince1900 : ℕ) : Prop where
  date : (⟨t.year.toInt, t.month.toInt.toNat, t.day.toInt.toNat⟩ : Date) =
    Date.next^[msSince1900 / 86400000] ⟨1900, 1, 1⟩
  weekday : t.weekday.toInt = (fun w : ℤ => if w = 6 then 0 else w + 1)^[msSince1900 / 86400000] 1
  hour : 0 ≤ t.hour.toInt ∧ t.hour.toInt < 24
  minute : 0 ≤ t.minute.toInt ∧ t.minute.toInt < 60
  second : 0 ≤ t.second.toInt ∧ t.second.toInt < 60
  ms : 0 ≤ t.ms.toInt ∧ t.ms.toInt < 1000
  time : ((t.hour.toInt * 60 + t.minute.toInt) * 60 + t.second.toInt) * 1000 + t.ms.toInt =
    (msSince1900 % 86400000 : ℕ)

/-! ## The steps of the computation -/

theorem toInt_int8 {x : UInt32} (hx : x.toNat < 128) : x.toUInt8.toInt8.toInt = x.toNat := by
  show x.toUInt8.toBitVec.toInt = _
  rw [BitVec.toInt_eq_toNat_of_lt]
  · show ((x.toUInt8.toNat : ℕ) : ℤ) = _
    rw [UInt32.toNat_toUInt8, Nat.mod_eq_of_lt (by omega)]
  · show 2 * x.toUInt8.toNat < 2 ^ 8
    rw [UInt32.toNat_toUInt8]
    omega

theorem toInt_int16 {x : UInt32} (hx : x.toNat < 32768) : x.toUInt16.toInt16.toInt = x.toNat := by
  show x.toUInt16.toBitVec.toInt = _
  rw [BitVec.toInt_eq_toNat_of_lt]
  · show ((x.toUInt16.toNat : ℕ) : ℤ) = _
    rw [UInt32.toNat_toUInt16, Nat.mod_eq_of_lt (by omega)]
  · show 2 * x.toUInt16.toNat < 2 ^ 16
    rw [UInt32.toNat_toUInt16]
    omega

theorem toInt_int32 {x : UInt32} (hx : x.toNat < 2147483648) : x.toInt32.toInt = x.toNat := by
  show x.toBitVec.toInt = _
  rw [BitVec.toInt_eq_toNat_of_lt]
  · rfl
  · show 2 * x.toNat < 2 ^ 32
    omega

theorem shift_toNat {days : UInt32} (h : days.toNat ≤ lastDay) :
    (days - 25567 + (719468 + 146097 * 82)).toNat = days.toNat + 12673855 := by
  unfold lastDay at h
  have hK : (719468 + 146097 * 82 : UInt32) = 12699422 := by decide
  rw [hK, UInt32.toNat_add, UInt32.toNat_sub]
  show (((4294967296 - 25567 + days.toNat) % 4294967296 + 12699422) % 4294967296) = _
  omega

theorem quarters_toNat {x : UInt32} (h : x.toNat ≤ 1073741823) :
    (4 * x + 3).toNat = 4 * x.toNat + 3 := by
  rw [UInt32.toNat_add, UInt32.toNat_mul]
  show (4 * x.toNat % 4294967296 + 3) % 4294967296 = _
  omega

theorem year_toNat {x : UInt32} (h : x.toNat < 146100) :
    (2939745 * x.toUInt64 / 4294967296).toUInt32.toNat = x.toNat / 1461 ∧
      ((2939745 * x.toUInt64 % 4294967296).toUInt32 / 2939745).toNat = x.toNat % 1461 := by
  have hproduct : (2939745 * x.toUInt64).toNat = 2939745 * x.toNat := by
    rw [UInt64.toNat_mul, UInt32.toNat_toUInt64]
    show 2939745 * x.toNat % 18446744073709551616 = _
    omega
  obtain ⟨q, r, hr, hx⟩ : ∃ q r, r < 1461 ∧ x.toNat = 1461 * q + r :=
    ⟨x.toNat / 1461, x.toNat % 1461, Nat.mod_lt _ (by decide), (Nat.div_add_mod _ _).symm⟩
  have hq : q ≤ 100 := by omega
  obtain ⟨hdiv, hmod⟩ : 2939745 * x.toNat / 4294967296 = q ∧
      2939745 * x.toNat % 4294967296 = 149 * q + 2939745 * r :=
    (Nat.div_mod_unique (by decide)).mpr ⟨by omega, by omega⟩
  obtain ⟨hdiv', hmod'⟩ := (Nat.div_mod_unique (by decide)).mpr ⟨(add_comm _ _).trans hx.symm, hr⟩
  constructor
  · rw [UInt64.toNat_toUInt32, UInt64.toNat_div, hproduct, hdiv']
    show 2939745 * x.toNat / 4294967296 % 4294967296 = q
    omega
  · rw [UInt32.toNat_div, UInt64.toNat_toUInt32, UInt64.toNat_mod, hproduct, hmod']
    show 2939745 * x.toNat % 4294967296 % 4294967296 / 2939745 = r
    rw [Nat.mod_mod, hmod]
    omega

theorem marchDay_multiplied : ∀ n < 366, marchDay n =
    ⟨306 ≤ n, if 306 ≤ n then (2141 * n + 197913) / 65536 - 12 else (2141 * n + 197913) / 65536,
      (2141 * n + 197913) % 65536 / 2141 + 1⟩ := by
  decide +kernel

theorem marchDay_lt : ∀ n < 366, (marchDay n).month < 128 ∧ (marchDay n).day < 128 := by
  decide +kernel

theorem monthDay_toNat {x J : UInt32} (h : x.toNat < 366) (hJ : J = if x ≥ 306 then 1 else 0) :
    J = (if (marchDay x.toNat).after then 1 else 0) ∧
      (if J ≠ 0 then (2141 * x + 197913) / 65536 - 12 else (2141 * x + 197913) / 65536).toNat =
        (marchDay x.toNat).month ∧
      ((2141 * x + 197913) % 65536 / 2141 + 1).toNat = (marchDay x.toNat).day := by
  have hN₃ : (2141 * x + 197913).toNat = 2141 * x.toNat + 197913 := by
    rw [UInt32.toNat_add, UInt32.toNat_mul]
    show (2141 * x.toNat % 4294967296 + 197913) % 4294967296 = _
    omega
  have hM : ((2141 * x + 197913) / 65536).toNat = (2141 * x.toNat + 197913) / 65536 := by
    rw [UInt32.toNat_div, hN₃]
    rfl
  have hD : ((2141 * x + 197913) % 65536 / 2141 + 1).toNat =
      (2141 * x.toNat + 197913) % 65536 / 2141 + 1 := by
    rw [UInt32.toNat_add, UInt32.toNat_div, UInt32.toNat_mod, hN₃]
    show ((2141 * x.toNat + 197913) % 65536 / 2141 + 1) % 4294967296 = _
    omega
  have hge : x ≥ 306 ↔ 306 ≤ x.toNat := UInt32.le_iff_toNat_le
  rw [marchDay_multiplied x.toNat h, hJ]
  refine ⟨?_, ?_, hD⟩
  · by_cases hx : 306 ≤ x.toNat
    · rw [if_pos (hge.mpr hx), if_pos (decide_eq_true hx)]
    · rw [if_neg (hx ∘ hge.mp), if_neg (by simpa using hx)]
  · by_cases hx : 306 ≤ x.toNat
    · rw [if_pos (hge.mpr hx), if_pos (by decide), UInt32.toNat_sub, hM]
      show (4294967296 - 12 + (2141 * x.toNat + 197913) / 65536) % 4294967296 =
        if 306 ≤ x.toNat then (2141 * x.toNat + 197913) / 65536 - 12 else _
      rw [if_pos hx]
      omega
    · rw [if_neg (hx ∘ hge.mp), if_neg (by decide), hM]
      exact (if_neg hx).symm

theorem year_toInt {Y J : UInt32} {after : Bool} (hY : 32800 ≤ Y.toNat ∧ Y.toNat < 2147483647)
    (hJ : J = if after then 1 else 0) :
    (Y - 400 * 82 + J).toInt32.toInt =
      if after then (Y.toNat : ℤ) - 32800 + 1 else (Y.toNat : ℤ) - 32800 := by
  have hL : (400 * 82 : UInt32) = 32800 := by decide
  have hsub : (Y - 400 * 82).toNat = Y.toNat - 32800 := by
    rw [hL, UInt32.toNat_sub]
    show (4294967296 - 32800 + Y.toNat) % 4294967296 = _
    omega
  have hJle : J.toNat = if after then 1 else 0 := by
    rw [hJ]
    cases after <;> rfl
  have hsum : (Y - 400 * 82 + J).toNat = Y.toNat - 32800 + if after then 1 else 0 := by
    rw [UInt32.toNat_add, hsub, hJle]
    exact Nat.mod_eq_of_lt (by split_ifs <;> omega)
  rw [toInt_int32 (by rw [hsum]; split_ifs <;> omega), hsum]
  split_ifs <;> omega

theorem next_iterate_1900 (n : ℕ) :
    Date.next^[n] ⟨1900, 1, 1⟩ = dateFrom (-82) (n + 12673855) := by
  have hstart : (⟨1900, 1, 1⟩ : Date) = dateFrom (-82) 12673855 := by decide
  rw [hstart, next_iterate, add_comm]

theorem weekday_iterate (n : ℕ) :
    (fun w : ℤ => if w = 6 then 0 else w + 1)^[n] 1 = ((1 + n) % 7 : ℕ) := by
  induction n with
  | zero => rfl
  | succ n ih =>
    rw [Function.iterate_succ_apply', ih]
    show (if (((1 + n) % 7 : ℕ) : ℤ) = 6 then (0 : ℤ) else ((1 + n) % 7 : ℕ) + 1) = _
    split_ifs <;> omega

theorem date_of_days {days N N₂ C N_C Z N_Y J : UInt32} (h : days.toNat ≤ lastDay)
    (hN : N = days - 25567 + (719468 + 146097 * 82)) (hC : C = (4 * N + 3) / 146097)
    (hN_C : N_C = (4 * N + 3) % 146097 / 4) (hN₂ : N₂ = 4 * N_C + 3)
    (hZ : Z = (2939745 * N₂.toUInt64 / 4294967296).toUInt32)
    (hN_Y : N_Y = (2939745 * N₂.toUInt64 % 4294967296).toUInt32 / 2939745 / 4)
    (hJ : J = if N_Y ≥ 306 then 1 else 0) :
    (⟨(100 * C + Z - 400 * 82 + J).toInt32.toInt,
      ((if J ≠ 0 then (2141 * N_Y + 197913) / 65536 - 12
        else (2141 * N_Y + 197913) / 65536).toUInt8.toInt8).toInt.toNat,
      ((2141 * N_Y + 197913) % 65536 / 2141 + 1).toUInt8.toInt8.toInt.toNat⟩ : Date) =
    Date.next^[days.toNat] ⟨1900, 1, 1⟩ := by
  have hN : N.toNat = days.toNat + 12673855 := hN ▸ shift_toNat h
  unfold lastDay at h
  have hN₁ : (4 * N + 3).toNat = 4 * (days.toNat + 12673855) + 3 := by
    rw [← hN]
    exact quarters_toNat (by omega)
  have hC : C.toNat = (4 * (days.toNat + 12673855) + 3) / 146097 := by
    rw [← hN₁, hC]
    exact UInt32.toNat_div ..
  have hN_C : N_C.toNat = (4 * (days.toNat + 12673855) + 3) % 146097 / 4 := by
    rw [← hN₁, hN_C, UInt32.toNat_div, UInt32.toNat_mod]
    rfl
  have hN_C_le : N_C.toNat ≤ 36524 := by omega
  have hN₂ : N₂.toNat = 4 * N_C.toNat + 3 := hN₂ ▸ quarters_toNat (by omega)
  obtain ⟨hyears, hquarters⟩ := @year_toNat N₂ (by omega)
  have hZ : Z.toNat = N₂.toNat / 1461 := hZ ▸ hyears
  have hN_Y : N_Y.toNat = N₂.toNat % 1461 / 4 := by
    rw [← hquarters, hN_Y]
    exact UInt32.toNat_div ..
  have hyear : N_Y.toNat < 366 := by omega
  obtain ⟨hJ, hM, hD⟩ := monthDay_toNat hyear hJ
  obtain ⟨hmonth, hday⟩ := marchDay_lt _ hyear
  have hbounds : 34600 ≤ 100 * C.toNat ∧ 100 * C.toNat + Z.toNat < 2147483647 := by omega
  have hY : (100 * C + Z).toNat = 100 * C.toNat + Z.toNat := by
    rw [UInt32.toNat_add, UInt32.toNat_mul]
    show (100 * C.toNat % 4294967296 + Z.toNat) % 4294967296 = _
    clear * - hbounds
    omega
  rw [next_iterate_1900, toInt_int8 (hM.trans_lt hmonth), toInt_int8 (hD.trans_lt hday),
    Int.toNat_natCast, Int.toNat_natCast, hM, hD, year_toInt (by omega) hJ, hY]
  unfold dateFrom
  dsimp only
  rw [← hC, ← hN_C, ← hN₂, ← hZ, ← hN_Y]
  show Date.mk _ _ _ = Date.mk (if (marchDay N_Y.toNat).after then _ else _) _ _
  congr 1
  push_cast
  split_ifs
  · ring
  · ring

theorem weekday_of_days {days : UInt32} (h : days.toNat ≤ lastDay) :
    ((1 + days) % 7).toUInt8.toInt8.toInt =
      (fun w : ℤ => if w = 6 then 0 else w + 1)^[days.toNat] 1 := by
  unfold lastDay at h
  have hweekday : ((1 + days) % 7).toNat = (1 + days.toNat) % 7 := by
    rw [UInt32.toNat_mod, UInt32.toNat_add]
    show (1 + days.toNat) % 4294967296 % 7 = _
    omega
  rw [weekday_iterate, toInt_int8 (by omega), hweekday]

theorem calendarTime_isInstant {msSince1900 : UInt64}
    (h : msSince1900.toNat / 86400000 ≤ lastDay) :
    IsInstant (calendarTimeFromMsSince1900 msSince1900) msSince1900.toNat := by
  unfold calendarTimeFromMsSince1900
  extract_lets daysSince1900 msRem s K L N N₁ C N_C N₂ P₂ Z N_Y Y N₃ M D J Y_G M_G D_G secs mins
  have hdays : daysSince1900.toNat = msSince1900.toNat / 86400000 := by
    unfold lastDay at h
    show (msSince1900 / msInADay).toUInt32.toNat = _
    rw [UInt64.toNat_toUInt32, UInt64.toNat_div]
    show msSince1900.toNat / 86400000 % 4294967296 = _
    omega
  have hrem : msRem.toNat = msSince1900.toNat % 86400000 := by
    show (msSince1900 % msInADay).toUInt32.toNat = _
    rw [UInt64.toNat_toUInt32, UInt64.toNat_mod]
    show msSince1900.toNat % 86400000 % 4294967296 = _
    omega
  have hlt : msRem.toNat < 86400000 := hrem ▸ Nat.mod_lt _ (by decide)
  have hsecs : secs.toNat = msRem.toNat / 1000 := UInt32.toNat_div ..
  have hmins : mins.toNat = secs.toNat / 60 := UInt32.toNat_div ..
  have hhour : (mins / 60).toNat = mins.toNat / 60 := UInt32.toNat_div ..
  have hminute : (mins % 60).toNat = mins.toNat % 60 := UInt32.toNat_mod ..
  have hsecond : (secs % 60).toNat = secs.toNat % 60 := UInt32.toNat_mod ..
  have hms : (msRem % 1000).toNat = msRem.toNat % 1000 := UInt32.toNat_mod ..
  rw [← hdays] at h
  have hhourInt := @toInt_int8 (mins / 60) (by omega)
  have hminuteInt := @toInt_int8 (mins % 60) (by omega)
  have hsecondInt := @toInt_int8 (secs % 60) (by omega)
  have hmsInt := @toInt_int16 (msRem % 1000) (by omega)
  rw [hhour] at hhourInt
  rw [hminute] at hminuteInt
  rw [hsecond] at hsecondInt
  rw [hms] at hmsInt
  constructor
  · rw [← hdays]
    exact date_of_days h rfl rfl rfl rfl rfl rfl rfl
  · rw [← hdays]
    exact weekday_of_days h
  · show 0 ≤ (mins / 60).toUInt8.toInt8.toInt ∧ (mins / 60).toUInt8.toInt8.toInt < 24
    rw [hhourInt]
    clear * - hlt hsecs hmins
    omega
  · show 0 ≤ (mins % 60).toUInt8.toInt8.toInt ∧ (mins % 60).toUInt8.toInt8.toInt < 60
    rw [hminuteInt]
    clear * -
    omega
  · show 0 ≤ (secs % 60).toUInt8.toInt8.toInt ∧ (secs % 60).toUInt8.toInt8.toInt < 60
    rw [hsecondInt]
    clear * -
    omega
  · show 0 ≤ (msRem % 1000).toUInt16.toInt16.toInt ∧ (msRem % 1000).toUInt16.toInt16.toInt < 1000
    rw [hmsInt]
    clear * -
    omega
  · show (((mins / 60).toUInt8.toInt8.toInt * 60 + (mins % 60).toUInt8.toInt8.toInt) * 60 +
      (secs % 60).toUInt8.toInt8.toInt) * 1000 + (msRem % 1000).toUInt16.toInt16.toInt = _
    rw [hhourInt, hminuteInt, hsecondInt, hmsInt, ← hrem]
    clear * - hsecs hmins
    omega

/-- The last millisecond of the first day. -/
theorem calendarTime_isInstant_first :
    IsInstant (calendarTimeFromMsSince1900 86399999) (86399999 : UInt64).toNat :=
  calendarTime_isInstant (by decide)

end Presence3DS.Rosalina
