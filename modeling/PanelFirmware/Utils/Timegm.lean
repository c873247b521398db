import PanelFirmware.Hal.Rtc

/-!
# `utils/src/timegm.c`: the calendar to seconds

`timegm` brings the month into its year, counts the days of the years before in a closed form, the
days of the months before with a table, and multiplies.

* `normalise_eq`: a month beyond its year, on either side.
* `daysFrom0_eq`, `daysFrom1jan_eq`: the closed form and the table count the calendar's days.
* `timegm_gregorian`: the result, for any month, and that it is `rtc.c`'s.
-/

namespace PanelFirmware.Utils

open PanelFirmware.Lib PanelFirmware.Hal

/-! ### The code -/

/-- Source: `timegm.c` `is_leap`. -/
def isLeap (year : ℤ) : ℤ :=
  if year.tmod 400 = 0 then 1
  else if year.tmod 100 = 0 then 0
  else if year.tmod 4 = 0 then 1
  else 0

/-- In `int32_t`. Source: `timegm.c` `days_from_0`. -/
def daysFrom0 (year : ℤ) : ℤ :=
  let year := wrap true 32 (year - 1)
  wrap true 32 (365 * year + year.tdiv 400 - year.tdiv 100 + year.tdiv 4)

/-- In `int32_t`. Source: `timegm.c` `days_from_1970`. -/
def daysFrom1970 (year : ℤ) : ℤ := wrap true 32 (daysFrom0 year - daysFrom0 1970)

/-- Source: `timegm.c` `days_from_1jan`, `days`. -/
def days : List (List ℤ) :=
  [[0, 31, 59, 90, 120, 151, 181, 212, 243, 273, 304, 334],
    [0, 31, 60, 91, 121, 152, 182, 213, 244, 274, 305, 335]]

/-- In `int32_t`; `none` where the table is left. Source: `timegm.c` `days_from_1jan`. -/
def daysFrom1jan (year month day : ℤ) : Option ℤ := do
  guard (1 ≤ month)
  let row ← days[(isLeap year).toNat]?
  let back ← row[(month - 1).toNat]?
  some (wrap true 32 (back + day - 1))

/-- The year and the month from zero on, after the two branches that bring the month into its
year. Both are a `time_t`, of sixty-four bits; `years_diff` and its product are an `int`, and the
product of the lowest months overflows it. Source: `timegm.c` `timegm`. -/
def normalise (year month : ℤ) : ℤ × ℤ :=
  if month > 11 then (year + month.tdiv 12, month.tmod 12)
  else if month < 0 then
    let yearsDiff := wrap true 32 ((-month + 11).tdiv 12)
    (year - yearsDiff, month + wrap true 32 (12 * yearsDiff))
  else (year, month)

/-- Source: `timegm.c` `timegm`. -/
def timegm (t : Tm) : Option ℤ := do
  let (year, month) := normalise (wrap true 32 (t.tmYear + 1900)) t.tmMon
  let month := month + 1
  let day := t.tmMday
  let dayOfYear ← daysFrom1jan (wrap true 32 year) (wrap true 32 month) (wrap true 32 day)
  let daysSinceEpoch := daysFrom1970 (wrap true 32 year) + dayOfYear
  let secondsInDay := 3600 * 24
  some (wrap true 64
    (secondsInDay * daysSinceEpoch + 3600 * t.tmHour + 60 * t.tmMin + t.tmSec))

/-! ### The calendar -/

/-- The seconds from 1970-01-01 00:00:00 to a time of the day `mday` of a month, in the proleptic
Gregorian calendar: the days are those from the first of January of the year 1 to the first of the
month, and `mday - 1` more, or fewer. The month is counted from zero. -/
def gregorianSeconds (year month : ℕ) (mday hour min sec : ℤ) : ℤ :=
  ((gregorian.ordinal 1 ⟨year, month, 0⟩ : ℤ) - gregorian.ordinal 1 ⟨1970, 0, 0⟩ + (mday - 1)) *
    86400 + hour * 3600 + min * 60 + sec

/-- The usual ranges of the time of day; a second may be a leap second. -/
structure TimeOfDay (t : Tm) : Prop where
  sec : 0 ≤ t.tmSec ∧ t.tmSec ≤ 60
  min : 0 ≤ t.tmMin ∧ t.tmMin ≤ 59
  hour : 0 ≤ t.tmHour ∧ t.tmHour ≤ 23

/-- The year after normalisation. -/
def yearOf (t : Tm) : ℤ := t.tmYear + 1900 + t.tmMon / 12

/-- A month beyond its year is brought into it by whole years, on either side, up to what an
`int` drops of it. -/
lemma normalise_eq (year : ℤ) {month : ℤ} (hmon : Fits true 32 month) :
    (normalise year month).1 = year + month / 12 ∧
      (normalise year month).2 % 2 ^ 32 = month % 12 % 2 ^ 32 := by
  have hbounds := (fits_signed_iff 31 month).mp hmon
  unfold normalise
  split_ifs with hafter hbefore
  · rw [Int.tdiv_eq_ediv_of_nonneg (by omega), Int.tmod_eq_emod_of_nonneg (by omega)]
    exact ⟨rfl, rfl⟩
  · have hdiff : wrap true 32 ((-month + 11) / 12) = -(month / 12) := by
      rw [show (-month + 11) / 12 = -(month / 12) by omega]
      exact (fits_signed_iff 31 _).mpr (by omega)
    have hproduct := wrap_emod true 32 (12 * -(month / 12))
    rw [Int.tdiv_eq_ediv_of_nonneg (by omega), hdiff]
    exact ⟨by dsimp only; omega, by dsimp only; omega⟩
  · exact ⟨by dsimp only; omega, by dsimp only; omega⟩

/-- The code's rule for leap years is the calendar's. -/
lemma isLeap_eq (year : ℕ) : isLeap year = if gregorianLeap year then 1 else 0 := by
  unfold isLeap
  rw [gregorianLeap_eq, Int.tmod_eq_emod_of_nonneg (Int.natCast_nonneg _),
    Int.tmod_eq_emod_of_nonneg (Int.natCast_nonneg _),
    Int.tmod_eq_emod_of_nonneg (Int.natCast_nonneg _)]
  have hcast : ∀ d : ℕ, (year : ℤ) % d = 0 ↔ year % d = 0 := fun d => by
    rw [← Int.natCast_mod, Int.natCast_eq_zero]
  have h400 := hcast 400
  have h100 := hcast 100
  have h4 := hcast 4
  push_cast at h400 h100 h4
  simp only [h400, h100, h4]
  split_ifs <;> simp_all

/-- The days before a year. -/
lemma daysFrom0_eq {year : ℕ} (h0 : 1 ≤ year) (h1 : year ≤ 5000000) :
    daysFrom0 year = gregorian.daysOfYears 1 (year - 1) := by
  have hclosed := gregorian_daysOfYears (year - 1)
  have hyear : wrap true 32 ((year : ℤ) - 1) = (year : ℤ) - 1 :=
    (fits_signed_iff 31 _).mpr (by omega)
  unfold daysFrom0
  dsimp only
  rw [hyear, Int.tdiv_eq_ediv_of_nonneg (by omega), Int.tdiv_eq_ediv_of_nonneg (by omega),
    Int.tdiv_eq_ediv_of_nonneg (by omega)]
  have hsum : 365 * ((year : ℤ) - 1) + ((year : ℤ) - 1) / 400 - ((year : ℤ) - 1) / 100 +
      ((year : ℤ) - 1) / 4 = gregorian.daysOfYears 1 (year - 1) := by omega
  rw [hsum]
  exact (fits_signed_iff 31 _).mpr (by omega)

/-- The days before 1970. -/
lemma ordinal_epoch : gregorian.ordinal 1 ⟨1970, 0, 0⟩ = 719162 := by
  have hyears := gregorian_daysOfYears (1970 - 1)
  rw [Calendar.ordinal_newYear]
  omega

/-- The days since 1970, or until then. -/
lemma daysFrom1970_eq {year : ℕ} (h0 : 1 ≤ year) (h1 : year ≤ 5000000) :
    daysFrom1970 year = gregorian.daysOfYears 1 (year - 1) - 719162 := by
  have hclosed := gregorian_daysOfYears (year - 1)
  have hepoch : daysFrom0 1970 = 719162 := by decide +kernel
  unfold daysFrom1970
  rw [daysFrom0_eq h0 h1, hepoch]
  exact (fits_signed_iff 31 _).mpr (by omega)

/-- The days before a month are no more than a year's. -/
lemma daysOfMonths_le (year : ℕ) {month : ℕ} (hmonth : month < 12) :
    gregorian.daysOfMonths year month ≤ 366 := by
  refine (Calendar.daysOfMonths_mono year (le_of_lt hmonth)).trans ?_
  refine (gregorian_daysOfMonths year).le.trans ?_
  split_ifs <;> decide

/-- The days before a month of a year, and before a day of it. -/
lemma daysFrom1jan_eq (year : ℕ) {month : ℕ} (hmonth : month < 12) {day : ℤ}
    (h0 : -1000000 ≤ day) (h1 : day ≤ 1000000) :
    daysFrom1jan year (month + 1) day =
      some (gregorian.daysOfMonths year month + day - 1) := by
  have hrow : (days[(isLeap year).toNat]?).bind (fun row => row[month]?) =
      some (gregorian.daysOfMonths year month : ℤ) := by
    rw [isLeap_eq]
    unfold days
    cases hleap : gregorianLeap year <;> interval_cases month <;>
      simp [Calendar.daysOfMonths, gregorian, gregorianLength, hleap]
  have hle := daysOfMonths_le year hmonth
  have hpos : (1 : ℤ) ≤ month + 1 := by omega
  obtain ⟨row, hget, hback⟩ := Option.bind_eq_some_iff.mp hrow
  have hfit : wrap true 32 ((gregorian.daysOfMonths year month : ℤ) + day - 1) =
      gregorian.daysOfMonths year month + day - 1 := (fits_signed_iff 31 _).mpr (by omega)
  unfold daysFrom1jan
  rw [add_sub_cancel_right, Int.toNat_natCast]
  simp only [guard, hpos, if_true, hget, hback, hfit, Option.bind_eq_bind, Option.pure_def,
    Option.bind_some]

/-! ### The count -/

/-- The seconds of a time of day of the month's year after normalisation. -/
lemma timegm_eq {t : Tm} (hmon : Fits true 32 t.tmMon) (h0 : 1 ≤ yearOf t)
    (h1 : yearOf t ≤ 5000000) (hday : |t.tmMday| ≤ 1000000) (htime : TimeOfDay t) :
    timegm t = some (gregorianSeconds (yearOf t).toNat (t.tmMon % 12).toNat t.tmMday t.tmHour
      t.tmMin t.tmSec) := by
  obtain ⟨year, hyear⟩ := Int.eq_ofNat_of_zero_le (show 0 ≤ yearOf t by omega)
  obtain ⟨month, hmonth⟩ := Int.eq_ofNat_of_zero_le (show 0 ≤ t.tmMon % 12 by omega)
  obtain ⟨hsec, hmin, hhour⟩ := htime
  have hmdays := abs_le.mp hday
  have hy0 : 1 ≤ year := by omega
  have hy1 : year ≤ 5000000 := by omega
  have hm1 : month < 12 := by omega
  have hclosed := gregorian_daysOfYears (year - 1)
  have hle := daysOfMonths_le year hm1
  have hfit : Fits true 64 (3600 * 24 * ((gregorian.daysOfYears 1 (year - 1) : ℤ) - 719162 +
      (gregorian.daysOfMonths year month + t.tmMday - 1)) + 3600 * t.tmHour + 60 * t.tmMin +
      t.tmSec) := (fits_signed_iff 63 _).mpr (by omega)
  have hsum : wrap true 32 (t.tmYear + 1900) = t.tmYear + 1900 := by
    have hbounds := (fits_signed_iff 31 _).mp hmon
    unfold yearOf at h0 h1
    exact (fits_signed_iff 31 _).mpr (by omega)
  have hy : wrap true 32 (year : ℤ) = year := (fits_signed_iff 31 _).mpr (by omega)
  obtain ⟨hyears, hmonths⟩ := normalise_eq (t.tmYear + 1900) hmon
  have hnorm : (normalise (t.tmYear + 1900) t.tmMon).1 = year := hyears.trans hyear
  have hm : wrap true 32 ((normalise (t.tmYear + 1900) t.tmMon).2 + 1) = month + 1 := by
    have hkept : wrap true 32 ((month : ℤ) + 1) = month + 1 :=
      (fits_signed_iff 31 _).mpr (by omega)
    rw [← hkept]
    refine wrap_congr ?_
    rw [Int.add_emod, hmonths, hmonth, ← Int.add_emod]
  have hd : wrap true 32 t.tmMday = t.tmMday := (fits_signed_iff 31 _).mpr (by omega)
  unfold timegm
  rw [hsum]
  simp only [hnorm, hyear, hmonth, hy, hm, hd, Int.toNat_natCast, Option.bind_eq_bind,
    daysFrom1jan_eq year hm1 hmdays.1 hmdays.2, Option.bind_some, Option.some.injEq,
    daysFrom1970_eq hy0 hy1]
  rw [show wrap true 64 _ = _ from hfit]
  unfold gregorianSeconds
  rw [ordinal_epoch]
  unfold Calendar.ordinal
  push_cast
  ring

/-- A date of the calendar, with a time of day. Month and day are those of `struct tm`. -/
structure ValidDate (t : Tm) : Prop where
  mon : 0 ≤ t.tmMon ∧ t.tmMon ≤ 11
  mday : 1 ≤ t.tmMday ∧ t.tmMday ≤ gregorian.length (t.tmYear + 1900).toNat t.tmMon.toNat
  time : TimeOfDay t

/-- The count of `rtc.c`, for a date of the years it is made for. -/
lemma tmToUnixTime_valid {t : Tm} (h : ValidDate t) (h0 : 1970 ≤ t.tmYear + 1900)
    (h1 : t.tmYear + 1900 ≤ 2105) :
    tmToUnixTime t = some (gregorianSeconds (t.tmYear + 1900).toNat t.tmMon.toNat t.tmMday t.tmHour
      t.tmMin t.tmSec) := by
  obtain ⟨⟨hmon0, hmon1⟩, ⟨hday0, hday1⟩, -⟩ := h
  obtain ⟨year, hyear⟩ := Int.eq_ofNat_of_zero_le (show 0 ≤ t.tmYear + 1900 by omega)
  obtain ⟨month, hmonth⟩ := Int.eq_ofNat_of_zero_le hmon0
  rw [hyear, hmonth] at hday1 ⊢
  simp only [Int.toNat_natCast] at hday1 ⊢
  have hepoch : 1970 ≤ year := by omega
  have hsplit : gregorian.daysOfYears 1 (year - 1) =
      gregorian.daysOfYears 1 (1970 - 1) + gregorian.daysOfYears 1970 (year - 1970) := by
    have hadd := gregorian.daysOfYears_add 1 (1970 - 1) (year - 1970)
    rw [show 1 + (1970 - 1) = 1970 from rfl] at hadd
    rw [← hadd, show 1970 - 1 + (year - 1970) = year - 1 by omega]
  have hlast : (gregorian.daysOfYears 1970 (year - 1970) : ℤ) + gregorian.daysOfMonths year month +
      (t.tmMday - 1) < 49673 := by
    have hvalid : gregorian.Valid ⟨year, month, (t.tmMday - 1).toNat⟩ :=
      ⟨show month < 12 by omega, by dsimp only; omega⟩
    have hlt := Calendar.ordinal_lt hvalid hepoch
    have hmono : gregorian.daysOfYears 1970 (year - 1970 + 1) ≤ gregorian.daysOfYears 1970 136 :=
      Calendar.daysOfYears_mono 1970 (by omega)
    have hdays : gregorian.daysOfYears 1970 136 = 49673 := by decide +kernel
    unfold Calendar.ordinal at hlt
    dsimp only at hlt
    omega
  rw [tmToUnixTime_eq hyear hepoch (by omega) hmonth (by omega) rfl (by omega) (by omega)]
  unfold gregorianSeconds
  rw [Calendar.ordinal_newYear]
  unfold Calendar.ordinal
  dsimp only
  rw [hsplit, Option.some.injEq]
  generalize gregorian.daysOfYears 1 (1970 - 1) = before
  push_cast
  ring

/-- **`timegm` is the Gregorian count.** For every month that an `int` holds, every day of the
month up to a million in magnitude and every time of day: the seconds since 1970-01-01 00:00:00, if
the year after normalisation is from 1 to 5000000; twelve months are a year; and for a date of the
years 1970 to 2105 it is the count of `rtc.c`. -/
theorem timegm_gregorian (t : Tm) (hmon : Fits true 32 t.tmMon) (hday : |t.tmMday| ≤ 1000000)
    (htime : TimeOfDay t) :
    (1 ≤ yearOf t → yearOf t ≤ 5000000 →
      timegm t = some (gregorianSeconds (yearOf t).toNat (t.tmMon % 12).toNat t.tmMday t.tmHour
        t.tmMin t.tmSec)) ∧
    (∀ k, Fits true 32 (t.tmMon + 12 * k) → 1 ≤ yearOf t + k → yearOf t + k ≤ 5000000 →
      timegm { t with tmMon := t.tmMon + 12 * k } = timegm { t with tmYear := t.tmYear + k }) ∧
    (ValidDate t → 1970 ≤ t.tmYear + 1900 → t.tmYear + 1900 ≤ 2105 →
      timegm t = tmToUnixTime t) := by
  refine ⟨fun h0 h1 => timegm_eq hmon h0 h1 hday htime, fun k hk h0 h1 => ?_, fun h h0 h1 => ?_⟩
  · have hmonths : yearOf { t with tmMon := t.tmMon + 12 * k } = yearOf t + k := by
      unfold yearOf
      dsimp only
      omega
    have hyears : yearOf { t with tmYear := t.tmYear + k } = yearOf t + k := by
      unfold yearOf
      dsimp only
      omega
    have hmod : (t.tmMon + 12 * k) % 12 = t.tmMon % 12 := by omega
    have hleft := timegm_eq (t := { t with tmMon := t.tmMon + 12 * k }) hk
      (hmonths ▸ h0) (hmonths ▸ h1) hday ⟨htime.sec, htime.min, htime.hour⟩
    have hright := timegm_eq (t := { t with tmYear := t.tmYear + k }) hmon
      (hyears ▸ h0) (hyears ▸ h1) hday ⟨htime.sec, htime.min, htime.hour⟩
    rw [hleft, hright, hmonths, hyears, hmod]
  · have hzero : t.tmMon / 12 = 0 := by
      have hbounds := h.mon
      omega
    have hself : t.tmMon % 12 = t.tmMon := by
      have hbounds := h.mon
      omega
    have hyear : yearOf t = t.tmYear + 1900 := by
      unfold yearOf
      omega
    rw [timegm_eq hmon (by omega) (by omega) hday htime, tmToUnixTime_valid h h0 h1, hyear, hself]

/-- The last second of a leap day, ten years on by the month. -/
theorem timegm_gregorian_leapDay :
    timegm ⟨59, 59, 23, 29, 1 + 12 * 10, 114⟩ = some 1709251199 := by
  have hcount := (timegm_gregorian ⟨59, 59, 23, 29, 1 + 12 * 10, 114⟩ (by decide) (by decide)
    ⟨by decide, by decide, by decide⟩).1 (by decide) (by decide)
  exact hcount.trans (by decide +kernel)

end PanelFirmware.Utils
