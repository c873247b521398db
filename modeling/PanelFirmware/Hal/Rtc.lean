import PanelFirmware.Lib.Calendar
import PanelFirmware.Lib.MachineInt

/-!
# `hal/src/rtc.c`: the real-time clock

The clock keeps the time of day and the date in two registers of binary-coded decimal fields.
`rtc_setTimeUnix` breaks an instant down with `gmtime_r` and packs the parts into the fields; `time`
unpacks the fields and counts the days of the years and months up to the date.

* `unpack_pack`: the fields hold what was packed.
* `tmToUnixTime_gmtimeR`: the count of days undoes the breaking down, in thirty-two bits up to the
  year 2105.
* `rtc_roundTrip`: from 2000 to 2099 an instant set is the instant read.
-/

namespace PanelFirmware.Hal

open PanelFirmware.Lib

/-- The parts of an instant. Source: `rtc.c`, `struct tm` (its members that are read). -/
@[ext] structure Tm where
  tmSec : ℤ
  tmMin : ℤ
  tmHour : ℤ
  tmMday : ℤ
  tmMon : ℤ
  tmYear : ℤ
  deriving DecidableEq

/-- The clock's registers and the two flags `rtc_setTime` asks for. Source: `rtc.c`, `RTC->TR`,
`RTC->DR`, `RCC_BDCR_RTCEN`, `RCC_BDCR_LSERDY`. -/
structure Rtc where
  tr : ℕ
  dr : ℕ
  rtcen : Bool
  lserdy : Bool

/-! ### Setting -/

/-- A number converted to `uint32_t`. -/
def toU32 (x : ℤ) : ℕ := (x % 2 ^ 32).toNat

/-- A `uint32_t` moved to a position of a register. -/
def shl (x pos : ℕ) : ℕ := (x <<< pos) % 2 ^ 32

/-- Source: `rtc.c` `binToBcd`. -/
def binToBcd (x : ℕ) : ℕ := shl (x / 10) 4 ||| x % 10

/-- The value of the register `TR`. Source: `rtc.c` `rtc_setTime`, `rtctr`. -/
def packTr (t : Tm) : ℕ :=
  shl (binToBcd (toU32 t.tmSec)) 0 ||| shl (binToBcd (toU32 t.tmMin)) 8 |||
    shl (binToBcd (toU32 t.tmHour)) 16

/-- The value of the register `DR`. Source: `rtc.c` `rtc_setTime`, `rtcdr`. -/
def packDr (t : Tm) : ℕ :=
  shl (binToBcd (toU32 t.tmMday)) 0 ||| shl (binToBcd (toU32 (t.tmMon + 1))) 8 |||
    shl (binToBcd (toU32 (t.tmYear - 100))) 16

/-- The answer and the clock afterwards; the waits for the clock's synchronisation are over.
Source: `rtc.c` `rtc_setTime`. -/
def rtcSetTime (r : Rtc) (t : Tm) : Bool × Rtc :=
  if r.rtcen = false ∨ r.lserdy = false then (false, r)
  else if t.tmSec > 59 ∨ t.tmMin > 59 ∨ t.tmHour > 23 ∨ t.tmMday > 31 ∨ t.tmMon > 12 ∨
      t.tmYear < 100 ∨ t.tmYear > 200 then (false, r)
  else (true, { r with tr := packTr t, dr := packDr t })

/-- The decomposition of an instant not before the epoch in the proleptic Gregorian calendar, as
the C library documents `gmtime_r`. -/
def gmtimeR (t : ℕ) : Tm :=
  let d := gregorian.dateOf 1970 (t / 86400)
  { tmSec := t % 60
    tmMin := t / 60 % 60
    tmHour := t / 3600 % 24
    tmMday := d.day + 1
    tmMon := d.month
    tmYear := d.year - 1900 }

/-- Source: `rtc.c` `rtc_setTimeUnix`. -/
def rtcSetTimeUnix (r : Rtc) (timeUnix : ℕ) : Bool × Rtc := rtcSetTime r (gmtimeR timeUnix)

/-! ### Reading -/

/-- A field of a register, by the width and position of its mask. Source: `stm32f412zx.h`,
`RTC_TR_*_Msk`, `RTC_DR_*_Msk`. -/
def field (reg width pos : ℕ) : ℕ := (reg &&& ((2 ^ width - 1) <<< pos)) >>> pos

/-- The parts the registers hold. Source: `rtc.c` `time`, `tm`. -/
def unpack (r : Rtc) : Tm where
  tmSec := field r.tr 4 0 + field r.tr 3 4 * 10
  tmMin := field r.tr 4 8 + field r.tr 3 12 * 10
  tmHour := field r.tr 4 16 + field r.tr 2 20 * 10
  tmMday := field r.dr 4 0 + field r.dr 2 4 * 10
  tmMon := field r.dr 4 8 + field r.dr 1 12 * 10 - 1
  tmYear := field r.dr 4 16 + field r.dr 4 20 * 10 + 100

/-- Source: `rtc.c` `TM_RTC_Months`. -/
def tmRtcMonths (leap : Bool) : List ℕ :=
  if leap then [31, 29, 31, 30, 31, 30, 31, 31, 30, 31, 30, 31]
  else [31, 28, 31, 30, 31, 30, 31, 31, 30, 31, 30, 31]

/-- Source: `rtc.c` `yearIsLeap`. -/
def yearIsLeap (year : ℕ) : Bool :=
  (year % 4 == 0 && year % 100 != 0) || year % 400 == 0

/-- Source: `rtc.c` `getDaysInYear`. -/
def getDaysInYear (year : ℕ) : ℕ := if yearIsLeap year then 366 else 365

/-- The days of `n` years from 1970 on, at most `65535 * 366`. Source: `rtc.c` `tmToUnixTime`,
its first loop. -/
def daysInBackYears : ℕ → ℕ
  | 0 => 0
  | n + 1 => daysInBackYears n + getDaysInYear (1970 + n)

/-- The days of the first `m` months, `none` where the table is left. Source: `rtc.c`
`tmToUnixTime`, its second loop. -/
def daysInBackMonths (leap : Bool) : ℕ → Option ℕ
  | 0 => some 0
  | m + 1 => do
      let days ← daysInBackMonths leap m
      let month ← (tmRtcMonths leap)[m]?
      some (days + month)

/-- The seconds since 1970; the days are counted, and multiplied, in `uint32_t`.
Source: `rtc.c` `tmToUnixTime`. -/
def tmToUnixTime (tm : Tm) : Option ℤ := do
  let year := (wrap false 16 (tm.tmYear + 1900)).toNat
  if year < 1970 then some 0
  else
    let months ← daysInBackMonths (yearIsLeap year) tm.tmMon.toNat
    let days := wrap false 32 (daysInBackYears (year - 1970) + months + (tm.tmMday - 1))
    let seconds := wrap false 32 (days * 86400)
    some (seconds + tm.tmHour * 3600 + tm.tmMin * 60 + tm.tmSec)

/-- Source: `rtc.c` `time`. -/
def time (r : Rtc) : Option ℤ := tmToUnixTime (unpack r)

/-! ### The fields -/

/-- A small number in binary-coded decimal. -/
lemma binToBcd_eq {x : ℕ} (h : x < 100) : binToBcd x = 16 * (x / 10) + x % 10 := by
  have hshl : shl (x / 10) 4 = 2 ^ 4 * (x / 10) := by
    rw [shl, Nat.shiftLeft_eq]
    omega
  have hdigit : x % 10 < 2 ^ 4 := by omega
  rw [binToBcd, hshl, ← Nat.two_pow_add_eq_or_of_lt hdigit]

/-- Three bytes at their places in a register. -/
lemma shl_or_shl_or_shl {a b c : ℕ} (ha : a < 256) (hb : b < 256) (hc : c < 256) :
    shl a 0 ||| shl b 8 ||| shl c 16 = a + 256 * b + 65536 * c := by
  have h0 : shl a 0 = a := by
    rw [shl, Nat.shiftLeft_eq]
    omega
  have h8 : shl b 8 = 2 ^ 8 * b := by
    rw [shl, Nat.shiftLeft_eq]
    omega
  have h16 : shl c 16 = 2 ^ 16 * c := by
    rw [shl, Nat.shiftLeft_eq]
    omega
  have hlow : 2 ^ 8 * b + a < 2 ^ 16 := by omega
  rw [h0, h8, h16, Nat.or_comm a, ← Nat.two_pow_add_eq_or_of_lt ha, Nat.or_comm,
    ← Nat.two_pow_add_eq_or_of_lt hlow]
  omega

/-- A field is a range of the register's bits. -/
lemma field_eq (reg width pos : ℕ) : field reg width pos = reg / 2 ^ pos % 2 ^ width := by
  have hmask : ((2 ^ width - 1) <<< pos) >>> pos = 2 ^ width - 1 := by
    rw [Nat.shiftLeft_shiftRight]
  rw [field, Nat.shiftRight_and_distrib, hmask, Nat.and_two_pow_sub_one_eq_mod,
    Nat.shiftRight_eq_div_pow]

/-- The parts are of an instant from 2000 to 2099. -/
structure Tm.InCentury (t : Tm) : Prop where
  sec : 0 ≤ t.tmSec ∧ t.tmSec ≤ 59
  min : 0 ≤ t.tmMin ∧ t.tmMin ≤ 59
  hour : 0 ≤ t.tmHour ∧ t.tmHour ≤ 23
  mday : 1 ≤ t.tmMday ∧ t.tmMday ≤ 31
  mon : 0 ≤ t.tmMon ∧ t.tmMon ≤ 11
  year : 100 ≤ t.tmYear ∧ t.tmYear ≤ 199

/-- Two decimal digits of a number between two bounds. -/
structure Digits (units tens lo hi : ℕ) : Prop where
  units_le : units ≤ 9
  tens_le : tens ≤ 9
  lo_le : lo ≤ units + 10 * tens
  le_hi : units + 10 * tens ≤ hi

/-- Every field of the registers holds decimal digits of a number of its range, and the registers
hold nothing else. -/
structure Rtc.FieldsValid (r : Rtc) : Prop where
  sec : Digits (field r.tr 4 0) (field r.tr 3 4) 0 59
  min : Digits (field r.tr 4 8) (field r.tr 3 12) 0 59
  hour : Digits (field r.tr 4 16) (field r.tr 2 20) 0 23
  mday : Digits (field r.dr 4 0) (field r.dr 2 4) 1 31
  mon : Digits (field r.dr 4 8) (field r.dr 1 12) 1 12
  year : Digits (field r.dr 4 16) (field r.dr 4 20) 0 99
  tr_eq : r.tr = field r.tr 4 0 + 2 ^ 4 * field r.tr 3 4 + 2 ^ 8 * field r.tr 4 8 +
    2 ^ 12 * field r.tr 3 12 + 2 ^ 16 * field r.tr 4 16 + 2 ^ 20 * field r.tr 2 20
  dr_eq : r.dr = field r.dr 4 0 + 2 ^ 4 * field r.dr 2 4 + 2 ^ 8 * field r.dr 4 8 +
    2 ^ 12 * field r.dr 1 12 + 2 ^ 16 * field r.dr 4 16 + 2 ^ 20 * field r.dr 4 20

/-- Two digits at a place of a register, behind what is below them and before what is above. -/
lemma fields_of_bcd (low high : ℕ) {reg x pos width : ℕ} (hlow : low < 2 ^ pos)
    (htens : x / 10 < 2 ^ width) (hwidth : width ≤ 4)
    (hreg : reg = low + 2 ^ pos * (16 * (x / 10) + x % 10 + 256 * high)) :
    field reg 4 pos = x % 10 ∧ field reg width (pos + 4) = x / 10 := by
  have hdiv : reg / 2 ^ pos = 16 * (x / 10) + x % 10 + 256 * high := by
    rw [hreg, Nat.add_mul_div_left _ _ (by positivity), Nat.div_eq_of_lt hlow, zero_add]
  rw [field_eq, field_eq, hdiv, pow_add, ← Nat.div_div_eq_div_mul, hdiv]
  refine ⟨by omega, ?_⟩
  have hquot : (16 * (x / 10) + x % 10 + 256 * high) / 2 ^ 4 = x / 10 + 2 ^ 4 * high := by omega
  have hsplit : (2 : ℕ) ^ 4 = 2 ^ width * 2 ^ (4 - width) := by
    rw [← pow_add, Nat.add_sub_cancel' hwidth]
  rw [hquot, hsplit, Nat.mul_assoc, Nat.add_mul_mod_self_left, Nat.mod_eq_of_lt htens]

/-- A register of three numbers of two digits each, whose tens have `u`, `v` and `w` bits. -/
structure Holds (reg u v w x y z : ℕ) : Prop where
  low : field reg 4 0 = x % 10 ∧ field reg u 4 = x / 10
  middle : field reg 4 8 = y % 10 ∧ field reg v 12 = y / 10
  high : field reg 4 16 = z % 10 ∧ field reg w 20 = z / 10
  eq : reg = field reg 4 0 + 2 ^ 4 * field reg u 4 + 2 ^ 8 * field reg 4 8 +
    2 ^ 12 * field reg v 12 + 2 ^ 16 * field reg 4 16 + 2 ^ 20 * field reg w 20

/-- Three packed numbers whose tens fit their fields. -/
lemma holds_pack {u v w x y z : ℕ} (hx : x < 100 ∧ x / 10 < 2 ^ u) (hu : u ≤ 4)
    (hy : y < 100 ∧ y / 10 < 2 ^ v) (hv : v ≤ 4) (hz : z < 100 ∧ z / 10 < 2 ^ w) (hw : w ≤ 4) :
    Holds (shl (binToBcd x) 0 ||| shl (binToBcd y) 8 ||| shl (binToBcd z) 16) u v w x y z := by
  have hreg : shl (binToBcd x) 0 ||| shl (binToBcd y) 8 ||| shl (binToBcd z) 16 =
      16 * (x / 10) + x % 10 + 256 * (16 * (y / 10) + y % 10) +
        65536 * (16 * (z / 10) + z % 10) := by
    rw [binToBcd_eq hx.1, binToBcd_eq hy.1, binToBcd_eq hz.1]
    exact shl_or_shl_or_shl (by omega) (by omega) (by omega)
  generalize shl (binToBcd x) 0 ||| shl (binToBcd y) 8 ||| shl (binToBcd z) 16 = reg at hreg ⊢
  have hlow := fields_of_bcd 0 (16 * (y / 10) + y % 10 + 256 * (16 * (z / 10) + z % 10))
    (show 0 < 2 ^ 0 by decide) hx.2 hu (hreg.trans (by omega))
  have hmiddle := fields_of_bcd (16 * (x / 10) + x % 10) (16 * (z / 10) + z % 10)
    (show 16 * (x / 10) + x % 10 < 2 ^ 8 by omega) hy.2 hv (hreg.trans (by omega))
  have hhigh := fields_of_bcd (16 * (x / 10) + x % 10 + 256 * (16 * (y / 10) + y % 10)) 0
    (show 16 * (x / 10) + x % 10 + 256 * (16 * (y / 10) + y % 10) < 2 ^ 16 by omega) hz.2 hw
    (hreg.trans (by omega))
  refine ⟨hlow, hmiddle, hhigh, ?_⟩
  rw [hlow.1, hlow.2, hmiddle.1, hmiddle.2, hhigh.1, hhigh.2]
  omega

/-- Two digits read back make the number, which has its bounds. -/
lemma digits_of {units tens x lo hi : ℕ} (h : units = x % 10 ∧ tens = x / 10) (hx : x < 100)
    (hlo : lo ≤ x) (hhi : x ≤ hi) : Digits units tens lo hi := by
  obtain ⟨rfl, rfl⟩ := h
  exact ⟨by omega, by omega, by omega, by omega⟩

/-- **The fields hold what was packed**: they are valid, and they read back as the parts. -/
theorem unpack_pack (r : Rtc) {t : Tm} (h : t.InCentury) :
    ({ r with tr := packTr t, dr := packDr t } : Rtc).FieldsValid ∧
      unpack { r with tr := packTr t, dr := packDr t } = t := by
  obtain ⟨⟨hs0, hs1⟩, ⟨hm0, hm1⟩, ⟨hh0, hh1⟩, ⟨hd0, hd1⟩, ⟨ho0, ho1⟩, ⟨hy0, hy1⟩⟩ := h
  have hconv : ∀ x : ℤ, 0 ≤ x → x < 100 → toU32 x = x.toNat := by
    intro x h0 h1
    unfold toU32
    omega
  have htr : Holds (packTr t) 3 3 2 t.tmSec.toNat t.tmMin.toNat t.tmHour.toNat := by
    rw [packTr, hconv _ hs0 (by omega), hconv _ hm0 (by omega), hconv _ hh0 (by omega)]
    exact holds_pack (by omega) (by decide) (by omega) (by decide) (by omega) (by decide)
  have hdr : Holds (packDr t) 2 1 4 t.tmMday.toNat (t.tmMon + 1).toNat (t.tmYear - 100).toNat := by
    rw [packDr, hconv _ (by omega) (by omega), hconv _ (by omega) (by omega),
      hconv _ (by omega) (by omega)]
    exact holds_pack (by omega) (by decide) (by omega) (by decide) (by omega) (by decide)
  constructor
  · exact
      { sec := digits_of htr.low (by omega) (by omega) (by omega)
        min := digits_of htr.middle (by omega) (by omega) (by omega)
        hour := digits_of htr.high (by omega) (by omega) (by omega)
        mday := digits_of hdr.low (by omega) (by omega) (by omega)
        mon := digits_of hdr.middle (by omega) (by omega) (by omega)
        year := digits_of hdr.high (by omega) (by omega) (by omega)
        tr_eq := htr.eq
        dr_eq := hdr.eq }
  · unfold unpack
    simp only [htr.low.1, htr.low.2, htr.middle.1, htr.middle.2, htr.high.1, htr.high.2,
      hdr.low.1, hdr.low.2, hdr.middle.1, hdr.middle.2, hdr.high.1, hdr.high.2]
    ext <;> dsimp only <;> omega

/-! ### The count of days -/

/-- The code's rule for leap years is the calendar's. -/
lemma yearIsLeap_eq (year : ℕ) : yearIsLeap year = gregorianLeap year := rfl

/-- A year has the days of its months. -/
lemma getDaysInYear_eq (year : ℕ) :
    getDaysInYear year = gregorian.daysOfMonths year gregorian.months :=
  (gregorian_daysOfMonths year).symm

/-- The first loop counts the days of the years. -/
lemma daysInBackYears_eq (n : ℕ) : daysInBackYears n = gregorian.daysOfYears 1970 n := by
  induction n with
  | zero => rfl
  | succ n ih => rw [daysInBackYears, Calendar.daysOfYears, ih, getDaysInYear_eq]

/-- An entry of the table is the length of its month. -/
lemma getElem?_tmRtcMonths (year : ℕ) {m : ℕ} (h : m < 12) :
    (tmRtcMonths (yearIsLeap year))[m]? = some (gregorian.length year m) := by
  rw [yearIsLeap_eq]
  change _ = some (gregorianLength year m)
  unfold tmRtcMonths gregorianLength
  cases gregorianLeap year
  · interval_cases m <;> rfl
  · interval_cases m <;> rfl

/-- The second loop counts the days of the months. -/
lemma daysInBackMonths_eq (year : ℕ) {m : ℕ} (h : m ≤ 12) :
    daysInBackMonths (yearIsLeap year) m = some (gregorian.daysOfMonths year m) := by
  induction m with
  | zero => rfl
  | succ m ih =>
      rw [daysInBackMonths, ih (by omega), getElem?_tmRtcMonths year (by omega)]
      rfl

/-- The count for a month of the calendar and a day in it, as long as the days, in seconds, fit
thirty-two bits. -/
lemma tmToUnixTime_eq {t : Tm} {year month : ℕ} {days : ℤ} (hyear : t.tmYear + 1900 = year)
    (hepoch : 1970 ≤ year) (hlast : year < 65536) (hmonth : t.tmMon = month) (hmonths : month ≤ 12)
    (hdays : (gregorian.daysOfYears 1970 (year - 1970) : ℤ) + gregorian.daysOfMonths year month +
      (t.tmMday - 1) = days) (h0 : 0 ≤ days) (h1 : days * 86400 < 2 ^ 32) :
    tmToUnixTime t =
      some (days * 86400 + t.tmHour * 3600 + t.tmMin * 60 + t.tmSec) := by
  have hwrap : (wrap false 16 (t.tmYear + 1900)).toNat = year := by
    have hfit : Fits false 16 (t.tmYear + 1900) := (fits_unsigned_iff 16 _).mpr (by omega)
    rw [show wrap false 16 (t.tmYear + 1900) = t.tmYear + 1900 from hfit]
    omega
  have hcount : wrap false 32 days = days := (fits_unsigned_iff 32 _).mpr (by omega)
  have hseconds : wrap false 32 (days * 86400) = days * 86400 :=
    (fits_unsigned_iff 32 _).mpr (by omega)
  unfold tmToUnixTime
  simp only [hwrap, if_neg (not_lt.mpr hepoch), hmonth, Int.toNat_natCast,
    daysInBackMonths_eq year hmonths, daysInBackYears_eq, Option.bind_eq_bind, Option.bind_some,
    hdays, hcount, hseconds]

/-- **The count of days undoes the breaking down**, as long as the seconds fit thirty-two bits. -/
theorem tmToUnixTime_gmtimeR {t : ℕ} (ht : t < 2 ^ 32) :
    tmToUnixTime (gmtimeR t) = some (t : ℤ) := by
  obtain ⟨⟨hmonth, hday⟩, hepoch, hord⟩ := gregorian.ordinal_dateOf 1970 (t / 86400)
  have hlast : t / 86400 < gregorian.daysOfYears 1970 137 := by
    have hdays : gregorian.daysOfYears 1970 137 = 50038 := by decide +kernel
    omega
  have hyear := (Calendar.year_dateOf (a := 0) (Nat.zero_le _) hlast).2
  unfold gmtimeR
  generalize gregorian.dateOf 1970 (t / 86400) = d at *
  unfold Calendar.ordinal at hord
  have hcount : (gregorian.daysOfYears 1970 (d.year - 1970) : ℤ) +
      gregorian.daysOfMonths d.year d.month + ((d.day : ℤ) + 1 - 1) = (t / 86400 : ℕ) := by
    rw [← hord]
    push_cast
    ring
  rw [tmToUnixTime_eq (by dsimp only; omega) hepoch (by omega) rfl (le_of_lt hmonth) hcount
    (by omega) (by omega), Option.some.injEq]
  dsimp only
  omega

/-! ### The round trip -/

/-- An instant from 2000 to 2099 has parts of that century. -/
lemma inCentury_gmtimeR {t : ℕ} (hlo : 946684800 ≤ t) (hhi : t ≤ 4102444799) :
    (gmtimeR t).InCentury := by
  obtain ⟨⟨hmonth, hday⟩, -, -⟩ := gregorian.ordinal_dateOf 1970 (t / 86400)
  have hfirst : gregorian.daysOfYears 1970 30 ≤ t / 86400 := by
    have hdays : gregorian.daysOfYears 1970 30 = 10957 := by decide +kernel
    omega
  have hlast : t / 86400 < gregorian.daysOfYears 1970 130 := by
    have hdays : gregorian.daysOfYears 1970 130 = 47482 := by decide +kernel
    omega
  obtain ⟨hyear0, hyear1⟩ := Calendar.year_dateOf hfirst hlast
  have hlength : ∀ y m, gregorian.length y m ≤ 31 := by
    intro y m
    simp only [gregorian, gregorianLength]
    split <;> (try split_ifs) <;> decide
  have hbound := hlength (gregorian.dateOf 1970 (t / 86400)).year
    (gregorian.dateOf 1970 (t / 86400)).month
  have hmonths : gregorian.months = 12 := rfl
  clear hfirst hlast hlo hhi hlength
  unfold gmtimeR
  generalize gregorian.dateOf 1970 (t / 86400) = d at *
  exact
    { sec := by dsimp only; omega
      min := by dsimp only; omega
      hour := by dsimp only; omega
      mday := by dsimp only; omega
      mon := by dsimp only; omega
      year := by dsimp only; omega }

/-- An instant from 2000 to 2099 is accepted by a clock that is enabled and ready. -/
lemma rtcSetTimeUnix_eq {r : Rtc} (hen : r.rtcen = true) (hrdy : r.lserdy = true) {t : ℕ}
    (hcentury : (gmtimeR t).InCentury) : rtcSetTimeUnix r t =
      (true, { r with tr := packTr (gmtimeR t), dr := packDr (gmtimeR t) }) := by
  obtain ⟨hs, hm, hh, hd, ho, hy⟩ := hcentury
  rw [rtcSetTimeUnix, rtcSetTime, if_neg (by simp [hen, hrdy]), if_neg (by omega)]

/-- **RTC round trip.** For every instant from 2000-01-01 00:00:00 to 2099-12-31 23:59:59, with the
clock enabled and ready: `rtc_setTimeUnix` returns true, every field it leaves in the registers is
valid and within its place, and `time` on these registers returns the instant. -/
theorem rtc_roundTrip (r : Rtc) (hen : r.rtcen = true) (hrdy : r.lserdy = true) (t : ℕ)
    (hlo : 946684800 ≤ t) (hhi : t ≤ 4102444799) :
    (rtcSetTimeUnix r t).1 = true ∧ (rtcSetTimeUnix r t).2.FieldsValid ∧
      time (rtcSetTimeUnix r t).2 = some (t : ℤ) := by
  have hcentury := inCentury_gmtimeR hlo hhi
  obtain ⟨hvalid, hunpack⟩ := unpack_pack r hcentury
  rw [rtcSetTimeUnix_eq hen hrdy hcentury]
  refine ⟨rfl, hvalid, ?_⟩
  rw [time, hunpack]
  exact tmToUnixTime_gmtimeR (by omega)

/-- The last second of a leap day. -/
theorem rtc_roundTrip_leapDay :
    (rtcSetTimeUnix ⟨0, 0, true, true⟩ 1709251199).1 = true ∧
      (rtcSetTimeUnix ⟨0, 0, true, true⟩ 1709251199).2.FieldsValid ∧
      time (rtcSetTimeUnix ⟨0, 0, true, true⟩ 1709251199).2 = some ((1709251199 : ℕ) : ℤ) :=
  rtc_roundTrip ⟨0, 0, true, true⟩ rfl rfl 1709251199 (by decide) (by decide)

end PanelFirmware.Hal
