import Mathlib

/-!
# Calendars

A calendar divides a year into months of given lengths. Dates follow each other day by day
(`Date.next`); counting the days of the years, of the months and of the current month before a date
numbers the dates in that order.

* `Calendar.dateOf`: the date so many days after the first day of an epoch year.
* `Calendar.ordinal_dateOf`: the count undoes it, and `Calendar.dateOf_ordinal` the other way.
* `Calendar.ordinal_lt_iff`: dates are ordered as their counts.
* `gregorian`: the proleptic Gregorian calendar; `gregorian_daysOfYears`: the days of its years
  from the year 1 on, by cycles of four, a hundred and four hundred years.

Months and days of a month are counted from zero.
-/

namespace PanelFirmware.Lib

/-- The months of a year and their lengths. -/
structure Calendar where
  months : ℕ
  length : ℕ → ℕ → ℕ
  months_pos : 0 < months
  length_pos : ∀ y m, 0 < length y m

/-- A date; months and days are counted from zero. -/
@[ext] structure Date where
  year : ℕ
  month : ℕ
  day : ℕ
  deriving DecidableEq

namespace Calendar

variable (cal : Calendar)

/-- The date is one of the calendar's. -/
def Valid (d : Date) : Prop := d.month < cal.months ∧ d.day < cal.length d.year d.month

/-- The day after. -/
def next (d : Date) : Date :=
  if d.day + 1 < cal.length d.year d.month then { d with day := d.day + 1 }
  else if d.month + 1 < cal.months then ⟨d.year, d.month + 1, 0⟩
  else ⟨d.year + 1, 0, 0⟩

/-- The date `n` days after the first day of the epoch year. -/
def dateOf (epoch : ℕ) : ℕ → Date
  | 0 => ⟨epoch, 0, 0⟩
  | n + 1 => cal.next (dateOf epoch n)

/-- The days of the first `m` months of a year. -/
def daysOfMonths (y : ℕ) : ℕ → ℕ
  | 0 => 0
  | m + 1 => daysOfMonths y m + cal.length y m

/-- The days of `n` years from `y` on. -/
def daysOfYears (y : ℕ) : ℕ → ℕ
  | 0 => 0
  | n + 1 => daysOfYears y n + cal.daysOfMonths (y + n) cal.months

/-- The days before a date, counted by years, months and days. -/
def ordinal (epoch : ℕ) (d : Date) : ℕ :=
  cal.daysOfYears epoch (d.year - epoch) + cal.daysOfMonths d.year d.month + d.day

variable {cal}

/-- More years have more days. -/
lemma daysOfYears_mono (y : ℕ) {m n : ℕ} (h : m ≤ n) :
    cal.daysOfYears y m ≤ cal.daysOfYears y n :=
  monotone_nat_of_le_succ (f := cal.daysOfYears y) (fun _ => Nat.le_add_right _ _) h

/-- Years after years. -/
lemma daysOfYears_add (cal : Calendar) (y a b : ℕ) :
    cal.daysOfYears y (a + b) = cal.daysOfYears y a + cal.daysOfYears (y + a) b := by
  induction b with
  | zero => rfl
  | succ b ih =>
      rw [← Nat.add_assoc, daysOfYears, daysOfYears, ih, Nat.add_assoc y a b, Nat.add_assoc]

/-- More months have more days. -/
lemma daysOfMonths_mono (y : ℕ) {m n : ℕ} (h : m ≤ n) :
    cal.daysOfMonths y m ≤ cal.daysOfMonths y n :=
  monotone_nat_of_le_succ (f := cal.daysOfMonths y) (fun _ => Nat.le_add_right _ _) h

/-- The days before a year. -/
lemma ordinal_newYear (epoch year : ℕ) :
    cal.ordinal epoch ⟨year, 0, 0⟩ = cal.daysOfYears epoch (year - epoch) := rfl

/-- The day after a date of the calendar is one, in the same year or a later one. -/
lemma valid_next {d : Date} (h : cal.Valid d) :
    cal.Valid (cal.next d) ∧ d.year ≤ (cal.next d).year := by
  unfold next
  split_ifs with hday hmonth
  · exact ⟨⟨h.1, hday⟩, le_refl _⟩
  · exact ⟨⟨hmonth, cal.length_pos _ _⟩, le_refl _⟩
  · exact ⟨⟨cal.months_pos, cal.length_pos _ _⟩, Nat.le_succ _⟩

/-- The day after is counted one higher. -/
lemma ordinal_next {epoch : ℕ} {d : Date} (h : cal.Valid d) (hy : epoch ≤ d.year) :
    cal.ordinal epoch (cal.next d) = cal.ordinal epoch d + 1 := by
  obtain ⟨hmonth, hday⟩ := h
  unfold next ordinal
  split_ifs with hd hm
  · simp only
    omega
  · simp only [daysOfMonths]
    omega
  · -- the last day of the year: a year is its months
    have hlast : d.month + 1 = cal.months := by omega
    have hyear : d.year + 1 - epoch = d.year - epoch + 1 := by omega
    have hback : epoch + (d.year - epoch) = d.year := by omega
    simp only [hyear, daysOfYears, hback, ← hlast, daysOfMonths]
    omega

/-- A date of the calendar is in its year. -/
lemma ordinal_lt {epoch : ℕ} {d : Date} (h : cal.Valid d) (hy : epoch ≤ d.year) :
    cal.ordinal epoch d < cal.daysOfYears epoch (d.year - epoch + 1) := by
  obtain ⟨hmonth, hday⟩ := h
  have hback : epoch + (d.year - epoch) = d.year := by omega
  have hmonths : cal.daysOfMonths d.year (d.month + 1) ≤ cal.daysOfMonths d.year cal.months :=
    daysOfMonths_mono d.year hmonth
  simp only [ordinal, daysOfYears, hback, daysOfMonths] at hmonths ⊢
  omega

/-- **The count undoes the succession of dates.** The date `n` days after the start of the epoch
is a date of the calendar, not before the epoch, and the days before it are `n`. -/
theorem ordinal_dateOf (epoch n : ℕ) : cal.Valid (cal.dateOf epoch n) ∧
    epoch ≤ (cal.dateOf epoch n).year ∧ cal.ordinal epoch (cal.dateOf epoch n) = n := by
  induction n with
  | zero =>
      refine ⟨⟨cal.months_pos, cal.length_pos _ _⟩, le_refl _, ?_⟩
      simp [ordinal, dateOf, daysOfYears, daysOfMonths]
  | succ n ih =>
      obtain ⟨hvalid, hepoch, hord⟩ := ih
      obtain ⟨hnext, hyear⟩ := valid_next hvalid
      exact ⟨hnext, hepoch.trans hyear, by rw [dateOf, ordinal_next hvalid hepoch, hord]⟩

/-- A day of years `a` to `b`, counted from the epoch, is in these years. -/
lemma year_dateOf {epoch a b n : ℕ} (ha : cal.daysOfYears epoch a ≤ n)
    (hb : n < cal.daysOfYears epoch b) :
    epoch + a ≤ (cal.dateOf epoch n).year ∧ (cal.dateOf epoch n).year < epoch + b := by
  obtain ⟨hvalid, hepoch, hord⟩ := cal.ordinal_dateOf epoch n
  have hlt := ordinal_lt hvalid hepoch
  rw [hord] at hlt
  have hge : cal.daysOfYears epoch ((cal.dateOf epoch n).year - epoch) ≤ n := by
    conv_rhs => rw [← hord]
    unfold ordinal
    omega
  constructor
  · by_contra hcontra
    have hmono : cal.daysOfYears epoch ((cal.dateOf epoch n).year - epoch + 1) ≤
        cal.daysOfYears epoch a := daysOfYears_mono epoch (by omega)
    omega
  · by_contra hcontra
    have hmono : cal.daysOfYears epoch b ≤
        cal.daysOfYears epoch ((cal.dateOf epoch n).year - epoch) :=
      daysOfYears_mono epoch (by omega)
    omega

/-- The order of dates: by year, month and day. -/
def Before (d e : Date) : Prop :=
  d.year < e.year ∨ d.year = e.year ∧ (d.month < e.month ∨ d.month = e.month ∧ d.day < e.day)

/-- Of two dates one is before the other, or they are the same. -/
lemma before_trichotomy (d e : Date) : Before d e ∨ d = e ∨ Before e d := by
  rw [Date.ext_iff]
  unfold Before
  omega

/-- An earlier date has the lower count. -/
lemma ordinal_lt_of_before {epoch : ℕ} {d e : Date} (hd : cal.Valid d) (hepoch : epoch ≤ d.year)
    (h : Before d e) : cal.ordinal epoch d < cal.ordinal epoch e := by
  rcases h with hyear | ⟨hyear, hmonth | ⟨hmonth, hday⟩⟩
  · have hlt := ordinal_lt hd hepoch
    have hmono : cal.daysOfYears epoch (d.year - epoch + 1) ≤
        cal.daysOfYears epoch (e.year - epoch) := daysOfYears_mono epoch (by omega)
    unfold ordinal at hlt ⊢
    omega
  · have hlt := hd.2
    have hmono : cal.daysOfMonths d.year (d.month + 1) ≤ cal.daysOfMonths d.year e.month :=
      daysOfMonths_mono d.year hmonth
    rw [daysOfMonths] at hmono
    unfold ordinal
    rw [← hyear]
    omega
  · unfold ordinal
    rw [← hyear, ← hmonth]
    omega

/-- **Dates are ordered as their counts.** -/
theorem ordinal_lt_iff {epoch : ℕ} {d e : Date} (hd : cal.Valid d) (he : cal.Valid e)
    (hdepoch : epoch ≤ d.year) (heepoch : epoch ≤ e.year) :
    cal.ordinal epoch d < cal.ordinal epoch e ↔ Before d e := by
  refine ⟨fun hlt => ?_, ordinal_lt_of_before hd hdepoch⟩
  rcases before_trichotomy d e with h | rfl | h
  · exact h
  · exact absurd hlt (lt_irrefl _)
  · exact absurd (ordinal_lt_of_before he heepoch h) (not_lt.mpr hlt.le)

/-- A date of the calendar is the one so many days after the start of the epoch as it counts. -/
theorem dateOf_ordinal {epoch : ℕ} {d : Date} (hd : cal.Valid d) (hepoch : epoch ≤ d.year) :
    cal.dateOf epoch (cal.ordinal epoch d) = d := by
  obtain ⟨hvalid, hyear, hord⟩ := cal.ordinal_dateOf epoch (cal.ordinal epoch d)
  rcases before_trichotomy (cal.dateOf epoch (cal.ordinal epoch d)) d with h | h | h
  · exact absurd (ordinal_lt_of_before hvalid hyear h) (by omega)
  · exact h
  · exact absurd (ordinal_lt_of_before hd hepoch h) (by omega)

end Calendar

/-! ### The Gregorian calendar -/

/-- A year divisible by four but not by a hundred, or by four hundred. -/
def gregorianLeap (y : ℕ) : Bool := (y % 4 == 0 && y % 100 != 0) || y % 400 == 0

/-- The length of a month, January being month zero. -/
def gregorianLength (y : ℕ) : ℕ → ℕ
  | 1 => if gregorianLeap y then 29 else 28
  | 3 | 5 | 8 | 10 => 30
  | _ => 31

/-- The proleptic Gregorian calendar. -/
def gregorian : Calendar where
  months := 12
  length := gregorianLength
  months_pos := by decide
  length_pos := by
    intro y m
    unfold gregorianLength
    split <;> (try split_ifs) <;> decide

/-- A year and its months. -/
lemma gregorian_daysOfMonths (y : ℕ) :
    gregorian.daysOfMonths y gregorian.months = if gregorianLeap y then 366 else 365 := by
  have hyear : gregorian.daysOfMonths y 12 = if gregorianLeap y then 366 else 365 := by
    simp only [Calendar.daysOfMonths, gregorian, gregorianLength]
    split_ifs <;> rfl
  exact hyear

/-- A year of the Gregorian calendar is a leap year by the last of three tests that applies. -/
lemma gregorianLeap_eq (y : ℕ) : gregorianLeap y =
    if y % 400 = 0 then true else if y % 100 = 0 then false else decide (y % 4 = 0) := by
  unfold gregorianLeap
  split_ifs with h400 h100
  · simp [h400]
  · simp [h100, h400]
  · rw [Bool.eq_iff_iff]
    simp [h100, h400]

/-- **The days of the years from the year 1 on.** -/
theorem gregorian_daysOfYears (n : ℕ) :
    gregorian.daysOfYears 1 n + n / 100 = 365 * n + n / 4 + n / 400 := by
  induction n with
  | zero => rfl
  | succ n ih =>
      -- a quotient grows with the multiples of its divisor
      have hdiv (d : ℕ) : (n + 1) / d = n / d + if (1 + n) % d = 0 then 1 else 0 := by
        rw [Nat.succ_div, Nat.add_comm n 1]
        simp only [Nat.dvd_iff_mod_eq_zero]
      have hcentury : (1 + n) % 400 = 0 → (1 + n) % 100 = 0 := by omega
      have hfour : (1 + n) % 100 = 0 → (1 + n) % 4 = 0 := by omega
      rw [Calendar.daysOfYears, gregorian_daysOfMonths, gregorianLeap_eq, hdiv 100, hdiv 4,
        hdiv 400]
      by_cases h400 : (1 + n) % 400 = 0
      · simp only [h400, hcentury h400, hfour (hcentury h400), if_true]
        omega
      · by_cases h100 : (1 + n) % 100 = 0
        · simp only [h400, h100, hfour h100, if_true, if_false, Bool.false_eq_true]
          omega
        · by_cases h4 : (1 + n) % 4 = 0
          · simp only [h400, h100, h4, if_false, decide_true, if_true]
            omega
          · simp only [h400, h100, h4, if_false, decide_false, Bool.false_eq_true]
            omega

end PanelFirmware.Lib
