import PanelFirmware.Lib.Decimal
import PanelFirmware.Lib.MachineInt

/-!
# `window/src/baseTSK.cpp`, `chargeTSK.cpp`: the measurements on the screens

The regulator measures in microvolts, microamperes and milliseconds. Both screens round what they
show by adding half and dividing, which truncates towards zero, and carry the sign apart from the
digits.

* `printValue`, `baseCurrent`, `chargerVoltage`, `chargerCurrent`, `chargerTime`: the texts.
* `Denotes`, `DenotesTime`: what a text says, against what was measured.
* `voltage_iff`, `baseCurrent_iff`, `chargerTime_iff`: exactly when each of them is right.
* `measurements_iff`: all of them.
-/

namespace PanelFirmware.Window.Measurements

open PanelFirmware.Lib PanelFirmware.Lib.Decimal

/-! ### The code -/

/-- The text, cut off where the buffer ends. Source: the C library, `snprintf`. -/
def snprintf (size : ℕ) (text : List Char) : List Char := text.take (size - 1)

/-- Source: `regulatorConnTSK.h` `regCrange_t`. -/
inductive Crange
  | hi
  | auto
  deriving DecidableEq

/-- The text in a buffer of thirty characters, in volts.
Source: `baseTSK.cpp` `baseTSK`, `printValue`. -/
def printValue (u : ℤ) : List Char :=
  let viewv := (wrap true 32 (u + 500)).tdiv 1000
  if viewv ≥ 0 then
    snprintf 30 (printI 2 (viewv.tdiv 1000) ++ '.' :: printI 3 (viewv.tmod 1000))
  else
    let viewv := -viewv
    snprintf 30 ('-' :: (printI 0 (viewv.tdiv 1000) ++ '.' :: printI 3 (viewv.tmod 1000)))

/-- The text in amperes. Source: `baseTSK.cpp` `baseTSK`, "Print current", the third format. -/
def ampereText (measI : ℤ) : List Char :=
  let measI := (wrap true 32 (measI + 50)).tdiv 100
  snprintf 30 (printI 1 (measI.tdiv 10000) ++ '.' :: printI 4 (measI.tmod 10000))

/-- The text, and whether an `m` is put before the `A`.
Source: `baseTSK.cpp` `baseTSK`, "Print current". -/
def baseCurrent (crange : Crange) (current : ℤ) : List Char × Bool :=
  let minus := current < 0
  let measI := if current < 0 then wrap true 32 (-current) else current
  if measI < 9999 ∧ crange = .auto then
    (snprintf 30 ((if minus then '-' else '0') ::
      (printI 0 (measI.tdiv 1000) ++ '.' :: printI 3 (measI.tmod 1000))), true)
  else if measI < 59000 ∧ crange = .auto then
    (snprintf 30 (printI 2 (measI.tdiv 1000) ++ '.' :: printI 3 (measI.tmod 1000)), true)
  else (ampereText measI, false)

/-- The measured value or, while the output is off, the setting, in a buffer of thirty-two
characters: the formats of the two lines differ by their labels, the least widths of the digits and
what stands behind. Source: `chargeTSK.cpp` `chargeTSK`, "Print voltage", "Print current". -/
def chargerLine (label suffix : List Char) (width settingWidth : ℕ) (stateenable : Bool)
    (meas : ℤ) (setting : ℕ) : List Char :=
  let view := (wrap true 32 (meas + 500)).tdiv 1000
  if stateenable then
    let minus := view < 0
    let view := if view < 0 then -view else view
    snprintf 32 (label ++ ((if minus then ['-'] else []) ++
      (printI width (view.tdiv 1000) ++ '.' :: printI 3 (view.tmod 1000))) ++ suffix)
  else
    snprintf 32 (label ++ (printU settingWidth (setting / 1000) ++ '.' ::
      printU 3 (setting % 1000)) ++ suffix)

/-- Source: `chargeTSK.cpp` `chargeTSK`, "Print voltage". -/
def chargerVoltage : Bool → ℤ → ℕ → List Char := chargerLine "U:        ".toList [] 2 2

/-- Source: `chargeTSK.cpp` `chargeTSK`, "Print current". -/
def chargerCurrent : Bool → ℤ → ℕ → List Char :=
  chargerLine "I:          ".toList " A".toList 1 0

/-- Source: `chargeTSK.cpp` `chargeTSK`, "Time", the three formats. -/
def timeText (viewTimeS : ℕ) : List Char :=
  if viewTimeS < 60 then snprintf 32 ("Time:  ".toList ++ (printU 0 viewTimeS ++ ['s']))
  else if viewTimeS < 3600 then
    snprintf 32 ("Time:  ".toList ++ (printU 0 (viewTimeS / 60) ++ 'm' :: ' ' ::
      (printU 2 (viewTimeS % 60) ++ ['s'])))
  else
    snprintf 32 ("Time:  ".toList ++ (printU 2 (viewTimeS / 3600) ++ 'h' ::
      (printU 2 (viewTimeS / 60 % 60) ++ 'm' :: (printU 2 (viewTimeS % 60) ++ ['s']))))

/-- In `uint32_t`; `time` is the elapsed time and `setTime` the parameter `chargert`, in
milliseconds. Source: `chargeTSK.cpp` `chargeTSK`, "Time". -/
def chargerTime (stateenable modeTime : Bool) (time setTime : ℕ) : List Char :=
  let regTimeS := (time + 500) % 2 ^ 32 / 1000
  let setTimeS := setTime / 1000
  let viewTimeS :=
    if stateenable then
      if modeTime then (setTimeS + 2 ^ 32 - regTimeS) % 2 ^ 32 else regTimeS
    else
      if modeTime then setTimeS else regTimeS
  timeText viewTimeS

/-! ### What the texts say -/

/-- The text denotes a number of a unit of `scale` millionths that differs from `x` millionths by
at most half of its last digit. -/
def Denotes (text : List Char) (scale : ℕ) (x : ℤ) : Prop :=
  ∃ m k, readFixed text = some (m, k) ∧ 2 * |m * scale - x * 10 ^ k| ≤ scale

/-- The unit of the base screen's current in millionths: `mA` or `A`. -/
def unit (milli : Bool) : ℕ := if milli then 1000 else 1000000

/-- A character of a time: a digit goes on with its number, a letter says what the number was of. -/
def timeStep (s : ℕ × ℕ) (c : Char) : ℕ × ℕ :=
  if c.isDigit then (s.1, 10 * s.2 + (c.toNat - '0'.toNat))
  else if c = 'h' then (s.1 + s.2 * 3600, 0)
  else if c = 'm' then (s.1 + s.2 * 60, 0)
  else if c = 's' then (s.1 + s.2, 0)
  else (s.1, 0)

/-- The seconds that a text of hours, minutes and seconds says. -/
def readTime (text : List Char) : ℕ := (text.foldl timeStep (0, 0)).1

/-- The text denotes what is left of the set time, to within one second. -/
def DenotesTime (text : List Char) (time setTime : ℕ) : Prop :=
  |1000 * (readTime text : ℤ) - max 0 ((setTime : ℤ) - time)| ≤ 1000

/-! ### The conditions -/

/-- The rounding to thousandths is right: the addition of half does not leave `int32_t`, and the
number is not below minus half, or is half way between two thousandths. -/
def RoundsRight (x : ℤ) : Prop := x ≤ 2 ^ 31 - 501 ∧ (-500 ≤ x ∨ x % 1000 = 500)

instance (x : ℤ) : Decidable (RoundsRight x) := inferInstanceAs (Decidable (_ ∧ _))

/-- The current is shown right: it is not negative and the rounding does not leave `int32_t`, or it
is negative and the format that is chosen has a sign, or shows it as zero. -/
def CurrentRight (crange : Crange) (x : ℤ) : Prop :=
  (0 ≤ x ∧ x ≤ 2 ^ 31 - 51) ∨ (crange = .auto ∧ -9999 < x ∧ x < 0) ∨
    (crange = .hi ∧ -49 ≤ x ∧ x < 0)

instance (crange : Crange) (x : ℤ) : Decidable (CurrentRight crange x) :=
  inferInstanceAs (Decidable (_ ∨ _))

/-- The time is shown right: the elapsed time, rounded, is not more than the set time, and neither
rounding takes more than a second in all; or the rounding leaves `uint32_t`, and less than two
seconds are set. -/
def TimeRight (time setTime : ℕ) : Prop :=
  (time ≤ 2 ^ 32 - 501 ∧ (time + 500) / 1000 ≤ setTime / 1000 ∧
    setTime % 1000 ≤ (time + 500) % 1000 + 500) ∨ (2 ^ 32 - 501 < time ∧ setTime < 2000)

instance (time setTime : ℕ) : Decidable (TimeRight time setTime) :=
  inferInstanceAs (Decidable (_ ∨ _))

/-! ### Texts and buffers -/

/-- A text that is shorter than its buffer is not cut off. -/
lemma snprintf_of_lt {size : ℕ} {text : List Char} (h : text.length < size) :
    snprintf size text = text :=
  List.take_of_length_le (by omega)

/-- The two numbers around a point, of a quotient and a remainder of an `int32_t`. -/
lemma length_number {w k : ℕ} {d x : ℤ} (hw : w ≤ 7) (hk : k ≤ 4) (hd : d = 1000 ∨ d = 10000)
    (hx : |x| ≤ 2 ^ 31) :
    (printI w (x.tdiv d) ++ '.' :: printI k (x.tmod d)).length ≤ 14 := by
  have hbounds := abs_le.mp hx
  have hquot : (x.tdiv d).natAbs < 10 ^ 7 := by
    rw [Int.natAbs_tdiv]
    rcases hd with rfl | rfl
    · change x.natAbs / 1000 < 10 ^ 7
      omega
    · change x.natAbs / 10000 < 10 ^ 7
      omega
  have hrem : (x.tmod d).natAbs < 10 ^ 4 := by
    rw [Int.natAbs_tmod]
    rcases hd with rfl | rfl
    · change x.natAbs % 1000 < 10 ^ 4
      omega
    · change x.natAbs % 10000 < 10 ^ 4
      omega
  have h7 := length_printI_le (by decide) hw hquot
  have h4 := length_printI_le (by decide) hk hrem
  rw [List.length_append, List.length_cons]
  omega

/-- What a text that is read denotes. -/
lemma denotes_iff {text : List Char} {m : ℤ} {k : ℕ} (h : readFixed text = some (m, k))
    (scale : ℕ) (x : ℤ) : Denotes text scale x ↔ 2 * |m * scale - x * 10 ^ k| ≤ scale := by
  unfold Denotes
  refine ⟨?_, fun hle => ⟨m, k, h, hle⟩⟩
  rintro ⟨m', k', hread, hle⟩
  rw [h, Option.some.injEq, Prod.mk.injEq] at hread
  obtain ⟨rfl, rfl⟩ := hread
  exact hle

/-- The same with a unit of `s` times its last digit, compared in digits. -/
lemma denotes_scaled {text : List Char} {m : ℤ} {k scale : ℕ} (h : readFixed text = some (m, k))
    (s : ℕ) (hs : scale = s * 10 ^ k) (x : ℤ) : Denotes text scale x ↔ 2 * |m * s - x| ≤ s := by
  have hpos : (0 : ℤ) < 10 ^ k := by positivity
  have hdiff : m * scale - x * 10 ^ k = (m * s - x) * 10 ^ k := by
    rw [hs]
    push_cast
    ring
  have hscale : (scale : ℤ) = s * 10 ^ k := by rw [hs]; push_cast; rfl
  rw [denotes_iff h, hdiff, abs_mul, abs_of_pos hpos, hscale, ← mul_assoc,
    mul_le_mul_iff_of_pos_right hpos]

/-- A text that is not read denotes nothing. -/
lemma not_denotes {text : List Char} (h : readFixed text = none) (scale : ℕ) (x : ℤ) :
    ¬ Denotes text scale x := by
  rintro ⟨m, k, hread, -⟩
  rw [h] at hread
  cases hread

/-! ### Voltages -/

/-- A measured value in thousandths. Source: `baseTSK.cpp` `printValue`, `viewv`;
`chargeTSK.cpp` `chargeTSK`, `measV`, `measI`. -/
def milli (x : ℤ) : ℤ := (wrap true 32 (x + 500)).tdiv 1000

/-- It is far from the ends of `int32_t`. -/
lemma abs_milli_le (x : ℤ) : |milli x| ≤ 2147483 := by
  obtain ⟨hlo, hhi⟩ := (fits_signed_iff 31 _).mp (fits_wrap true 32 (x + 500))
  unfold milli
  generalize wrap true 32 (x + 500) = y at hlo hhi ⊢
  rw [abs_le]
  rcases le_or_gt 0 y with hy | hy
  · rw [Int.tdiv_eq_ediv_of_nonneg hy]
    omega
  · rw [tdiv_of_nonpos hy.le]
    omega

/-- The sign and the digits of a value in thousandths read back. -/
lemma readFixed_milli {label suffix : List Char} (hlabel : Aside label) (hsuffix : Aside suffix)
    (neg : Bool) (width : ℕ) {v : ℤ} (hneg : neg = true ↔ v < 0) :
    readFixed (label ++ ((if neg then ['-'] else []) ++
      (printI width ((if v < 0 then -v else v).tdiv 1000) ++
        '.' :: printI 3 ((if v < 0 then -v else v).tmod 1000))) ++ suffix) = some (v, 3) := by
  have hpos : 0 ≤ if v < 0 then -v else v := by split_ifs <;> omega
  rw [readFixed_printI hlabel hsuffix neg width (by decide) (by norm_num) hpos]
  by_cases hv : v < 0
  · rw [if_pos (hneg.mpr hv), if_pos hv, Int.neg_neg]
  · rw [if_neg (mt hneg.mp hv), if_neg hv]

/-- The voltage of the base screen. -/
lemma readFixed_printValue (u : ℤ) : readFixed (printValue u) = some (milli u, 3) := by
  have habs := abs_milli_le u
  have hbounds := abs_le.mp habs
  have hle : |milli u| ≤ 2 ^ 31 := by omega
  have hle' : |-milli u| ≤ 2 ^ 31 := by rw [abs_neg]; exact hle
  unfold printValue
  change readFixed (if milli u ≥ 0 then
    snprintf 30 (printI 2 ((milli u).tdiv 1000) ++ '.' :: printI 3 ((milli u).tmod 1000))
    else snprintf 30 ('-' :: (printI 0 ((-milli u).tdiv 1000) ++
      '.' :: printI 3 ((-milli u).tmod 1000)))) = _
  split_ifs with hpos
  · have hlength := length_number (show 2 ≤ 7 by decide) (show 3 ≤ 4 by decide) (Or.inl rfl) hle
    rw [snprintf_of_lt (by omega)]
    have hread := readFixed_milli aside_nil aside_nil false 2
      (v := milli u) (iff_of_false (by decide) (not_lt.mpr hpos))
    rw [if_neg (not_lt.mpr hpos)] at hread
    simpa only [Bool.false_eq_true, if_false, List.nil_append, List.append_nil] using hread
  · have hlength := length_number (show 0 ≤ 7 by decide) (show 3 ≤ 4 by decide) (Or.inl rfl) hle'
    have hneg : milli u < 0 := not_le.mp hpos
    rw [snprintf_of_lt (by rw [List.length_cons]; omega)]
    have hread := readFixed_milli aside_nil aside_nil true 0
      (v := milli u) (iff_of_true rfl hneg)
    rw [if_pos hneg] at hread
    simpa only [if_true, List.nil_append, List.append_nil, List.cons_append] using hread

/-- The two lines of the charger screen, while the output is on. -/
lemma readFixed_chargerLine {label suffix : List Char} (hlabel : Aside label)
    (hsuffix : Aside suffix) (hlength : label.length + suffix.length ≤ 14) {width : ℕ}
    (hwidth : width ≤ 7) (settingWidth : ℕ) (x : ℤ) (setting : ℕ) :
    readFixed (chargerLine label suffix width settingWidth true x setting) =
      some (milli x, 3) := by
  have habs := abs_milli_le x
  have hbounds := abs_le.mp habs
  have hle : |if milli x < 0 then -milli x else milli x| ≤ 2 ^ 31 := by
    split_ifs
    · rw [abs_neg]
      omega
    · omega
  have hnumber := length_number hwidth (show 3 ≤ 4 by decide) (Or.inl rfl) hle
  have hread := readFixed_milli hlabel hsuffix (decide (milli x < 0)) width (v := milli x)
    decide_eq_true_iff
  unfold chargerLine
  rw [show (wrap true 32 (x + 500)).tdiv 1000 = milli x from rfl]
  dsimp only
  rw [if_pos rfl, snprintf_of_lt]
  · simpa only [decide_eq_true_eq] using hread
  · have hsign : (if milli x < 0 then ['-'] else []).length ≤ 1 := by split_ifs <;> decide
    rw [List.length_append, List.length_append, List.length_append]
    omega

/-- **Exactly when a value in thousandths is right.** -/
lemma denotes_milli_iff {text : List Char} {x : ℤ} (hx : Fits true 32 x)
    (hread : readFixed text = some (milli x, 3)) : Denotes text 1000000 x ↔ RoundsRight x := by
  obtain ⟨hlo, hhi⟩ := (fits_signed_iff 31 x).mp hx
  have hdenotes : Denotes text 1000000 x ↔ |milli x * 1000 - x| ≤ 500 := by
    rw [denotes_scaled hread 1000 (show 1000000 = 1000 * 10 ^ 3 by norm_num)]
    push_cast
    omega
  rw [hdenotes, abs_le]
  unfold RoundsRight milli
  by_cases hover : x ≤ 2 ^ 31 - 501
  · have hfit : wrap true 32 (x + 500) = x + 500 := (fits_signed_iff 31 _).mpr (by omega)
    rw [hfit]
    rcases le_or_gt 0 (x + 500) with hy | hy
    · rw [Int.tdiv_eq_ediv_of_nonneg hy]
      omega
    · rw [tdiv_of_nonpos hy.le]
      omega
  · have hwrap : wrap true 32 (x + 500) = x + 500 - 2 ^ 32 := wrap_eq_sub (by omega) (by omega)
    rw [hwrap, tdiv_of_nonpos (by omega)]
    omega

/-! ### The current of the base screen -/

/-- The format in amperes, where the rounding does not leave `int32_t`. -/
lemma readFixed_ampereText {y : ℤ} (h0 : 0 ≤ y) (h1 : y ≤ 2 ^ 31 - 51) :
    readFixed (ampereText y) = some ((y + 50) / 100, 4) := by
  have hfit : wrap true 32 (y + 50) = y + 50 := (fits_signed_iff 31 _).mpr (by omega)
  have hle : |(y + 50) / 100| ≤ 2 ^ 31 := by
    rw [abs_le]
    omega
  have hlength := length_number (show 1 ≤ 7 by decide) (show 4 ≤ 4 by decide) (Or.inr rfl) hle
  have hquot : (y + 50).tdiv 100 = (y + 50) / 100 := Int.tdiv_eq_ediv_of_nonneg (by omega)
  unfold ampereText
  dsimp only
  rw [hfit, hquot, snprintf_of_lt (by omega)]
  have hread := readFixed_printI (d := 10000) (x := (y + 50) / 100) aside_nil aside_nil false 1
    (show 0 < 4 by decide) (by norm_num) (by omega)
  simpa only [Bool.false_eq_true, if_false, List.nil_append, List.append_nil] using hread

/-- Elsewhere both numbers of the text have a minus, and nothing is read. -/
lemma readFixed_ampereText_none {y : ℤ} (h : y = -2 ^ 31 ∨ 2 ^ 31 - 51 < y ∧ y < 2 ^ 31) :
    readFixed (ampereText y) = none := by
  have hquot : (wrap true 32 (y + 50)).tdiv 100 = -21474836 ∨
      (wrap true 32 (y + 50)).tdiv 100 = -21474835 := by
    rcases h with rfl | ⟨hlo, hhi⟩
    · exact Or.inr (by decide)
    · have hwrap : wrap true 32 (y + 50) = y + 50 - 2 ^ 32 := wrap_eq_sub (by omega) (by omega)
      rw [hwrap, tdiv_of_nonpos (by omega)]
      omega
  unfold ampereText
  rcases hquot with hquot | hquot
  · rw [hquot]
    decide +kernel
  · rw [hquot]
    decide +kernel

/-- The two formats in milliamperes, and the reading of the first one. -/
lemma readFixed_milliampere {y : ℤ} (h0 : 0 ≤ y) (h1 : y ≤ 2 ^ 31) (neg : Bool) :
    readFixed (snprintf 30 ((if neg then '-' else '0') ::
        (printI 0 (y.tdiv 1000) ++ '.' :: printI 3 (y.tmod 1000)))) =
      some (if neg then -y else y, 3) ∧
    readFixed (snprintf 30 (printI 2 (y.tdiv 1000) ++ '.' :: printI 3 (y.tmod 1000))) =
      some (y, 3) := by
  have hle : |y| ≤ 2 ^ 31 := abs_le.mpr (by omega)
  have hlength (w : ℕ) (hw : w ≤ 7) :=
    length_number hw (show 3 ≤ 4 by decide) (Or.inl rfl) hle
  have hfirst := hlength 0 (by decide)
  have hsecond := hlength 2 (by decide)
  rw [snprintf_of_lt (by rw [List.length_cons]; omega), snprintf_of_lt (by omega)]
  constructor
  · cases neg with
    | true =>
        have hread := readFixed_printI (d := 1000) aside_nil aside_nil true 0
          (show 0 < 3 by decide) (by norm_num) h0
        simpa only [if_true, List.nil_append, List.append_nil, List.cons_append] using hread
    | false =>
        exact readFixed_zero_printI (d := 1000) 0 (show 0 < 3 by decide) (by norm_num) h0
  · have hread := readFixed_printI (d := 1000) aside_nil aside_nil false 2
      (show 0 < 3 by decide) (by norm_num) h0
    simpa only [Bool.false_eq_true, if_false, List.nil_append, List.append_nil] using hread

/-- A reading of milliamperes with three digits behind the point is right if it is exact. -/
lemma denotes_milliampere {text : List Char} {m : ℤ} (h : readFixed text = some (m, 3)) (c : ℤ) :
    Denotes text (unit true) c ↔ m = c := by
  have habs := abs_le (a := m - c) (b := 0)
  rw [denotes_scaled h 1 (show unit true = 1 * 10 ^ 3 from rfl), Nat.cast_one, mul_one]
  omega

/-- A reading of amperes with four digits behind the point. -/
lemma denotes_ampere {text : List Char} {m : ℤ} (h : readFixed text = some (m, 4)) (c : ℤ) :
    Denotes text (unit false) c ↔ |m * 100 - c| ≤ 50 := by
  rw [denotes_scaled h 100 (show unit false = 100 * 10 ^ 4 from rfl)]
  push_cast
  omega

/-- The third format shows a current of the magnitude `y`. -/
lemma denotes_ampereText {y c : ℤ} (hy : 0 ≤ y) (hy' : y < 2 ^ 31) (hc : c = y ∨ c = -y) :
    Denotes (ampereText y) (unit false) c ↔ y ≤ 2 ^ 31 - 51 ∧ -49 ≤ c := by
  by_cases hover : y ≤ 2 ^ 31 - 51
  · rw [denotes_ampere (readFixed_ampereText hy hover), abs_le]
    omega
  · have hnone := readFixed_ampereText_none (Or.inr ⟨not_le.mp hover, hy'⟩)
    exact iff_of_false (not_denotes hnone _ _) fun h => hover h.1

/-- **Exactly when the current of the base screen is right.** -/
theorem baseCurrent_iff (crange : Crange) {c : ℤ} (hc : Fits true 32 c) :
    Denotes (baseCurrent crange c).1 (unit (baseCurrent crange c).2) c ↔
      CurrentRight crange c := by
  obtain ⟨hlo, hhi⟩ := (fits_signed_iff 31 c).mp hc
  by_cases hmin : c = -2 ^ 31
  · -- the magnitude is not an `int32_t`, and stays negative
    subst hmin
    have hauto : readFixed (baseCurrent .auto (-2 ^ 31)).1 = none := by decide +kernel
    have hhi : readFixed (baseCurrent .hi (-2 ^ 31)).1 = none := by decide +kernel
    cases crange with
    | auto => exact iff_of_false (not_denotes hauto _ _) (by decide)
    | hi => exact iff_of_false (not_denotes hhi _ _) (by decide)
  · obtain ⟨y, hy⟩ : ∃ y, (if c < 0 then wrap true 32 (-c) else c) = y := ⟨_, rfl⟩
    have hmagnitude : (c < 0 ∧ y = -c) ∨ (0 ≤ c ∧ y = c) := by
      have hfit : wrap true 32 (-c) = -c := (fits_signed_iff 31 _).mpr (by omega)
      rw [hfit] at hy
      split_ifs at hy <;> omega
    have hpos : 0 ≤ y := by omega
    obtain ⟨hfirst, hsecond⟩ := readFixed_milliampere hpos (by omega) (decide (c < 0))
    have hfirst' := denotes_milliampere hfirst c
    have hsecond' := denotes_milliampere hsecond c
    have hthird := denotes_ampereText (c := c) hpos (by omega) (by omega)
    simp only [decide_eq_true_eq] at hfirst'
    unfold CurrentRight baseCurrent
    dsimp only
    rw [hy]
    by_cases h1 : y < 9999 ∧ crange = .auto
    · obtain ⟨hsmall, rfl⟩ := h1
      rw [if_pos ⟨hsmall, rfl⟩]
      refine hfirst'.trans ?_
      simp only [true_and, reduceCtorEq, false_and, or_false]
      split_ifs <;> omega
    · by_cases h2 : y < 59000 ∧ crange = .auto
      · obtain ⟨hsmall, rfl⟩ := h2
        have hlarge : 9999 ≤ y := not_lt.mp fun hlt => h1 ⟨hlt, rfl⟩
        rw [if_neg h1, if_pos ⟨hsmall, rfl⟩]
        refine hsecond'.trans ?_
        simp only [true_and, reduceCtorEq, false_and, or_false]
        omega
      · rw [if_neg h1, if_neg h2]
        refine hthird.trans ?_
        cases crange with
        | auto =>
            have hlarge : 59000 ≤ y := not_lt.mp fun hlt => h2 ⟨hlt, rfl⟩
            simp only [true_and, reduceCtorEq, false_and, or_false]
            omega
        | hi =>
            simp only [true_and, reduceCtorEq, false_and, false_or]
            omega

/-! ### The time of the charger screen -/

/-- Digits go on with their number. -/
lemma foldl_timeStep_digits {digits : List Char} (h : ∀ c ∈ digits, c.isDigit = true)
    (total n : ℕ) :
    digits.foldl timeStep (total, n) = (total, Nat.ofDigitChars 10 digits n) := by
  induction digits generalizing n with
  | nil => rfl
  | cons c cs ih =>
      obtain ⟨hc, hrest⟩ := List.forall_mem_cons.mp h
      rw [List.foldl_cons, Nat.ofDigitChars_cons, timeStep, if_pos hc, ih hrest]

/-- A printed number is taken up. -/
lemma foldl_timeStep_printU (width n total : ℕ) :
    (printU width n).foldl timeStep (total, 0) = (total, n) := by
  rw [foldl_timeStep_digits (fun c => isDigit_printU), ofDigitChars_printU]

/-- The numbers of a time are short. -/
lemma length_printU_le_seven (width : ℕ) {n : ℕ} (hwidth : width ≤ 2) (h : n < 10 ^ 7) :
    (printU width n).length ≤ 7 :=
  length_printU_le (by decide) (hwidth.trans (by decide)) h

/-- A text of a time that is not cut off is read from behind its label. -/
lemma readTime_label {rest : List Char} (h : rest.length < 25) :
    readTime (snprintf 32 ("Time:  ".toList ++ rest)) = (rest.foldl timeStep (0, 0)).1 := by
  have hlabel : "Time:  ".toList.foldl timeStep (0, 0) = (0, 0) := by decide
  have hlength : "Time:  ".toList.length = 7 := by decide
  rw [snprintf_of_lt (by rw [List.length_append]; omega), readTime, List.foldl_append, hlabel]

/-- **The text of a time says the time.** -/
theorem readTime_timeText {s : ℕ} (hs : s < 2 ^ 32) : readTime (timeText s) = s := by
  unfold timeText
  split_ifs with hseconds hminutes
  · have h0 := length_printU_le_seven 0 (n := s) (by decide) (by omega)
    rw [readTime_label (by
      simp only [List.length_append, List.length_cons, List.length_nil]
      omega),
      List.foldl_append, foldl_timeStep_printU]
    exact Nat.zero_add s
  · have h0 := length_printU_le_seven 0 (n := s / 60) (by decide) (by omega)
    have h1 := length_printU_le_seven 2 (n := s % 60) (by decide) (by omega)
    rw [readTime_label (by
      simp only [List.length_append, List.length_cons, List.length_nil]
      omega),
      List.foldl_append, foldl_timeStep_printU,
      List.foldl_cons, List.foldl_cons, List.foldl_append]
    change ((['s'].foldl timeStep ((printU 2 (s % 60)).foldl timeStep (0 + s / 60 * 60, 0))).1) = s
    rw [foldl_timeStep_printU]
    change 0 + s / 60 * 60 + s % 60 = s
    omega
  · have h0 := length_printU_le_seven 2 (n := s / 3600) (by decide) (by omega)
    have h1 := length_printU_le_seven 2 (n := s / 60 % 60) (by decide) (by omega)
    have h2 := length_printU_le_seven 2 (n := s % 60) (by decide) (by omega)
    rw [readTime_label (by
      simp only [List.length_append, List.length_cons, List.length_nil]
      omega),
      List.foldl_append, foldl_timeStep_printU,
      List.foldl_cons, List.foldl_append]
    change (('m' :: (printU 2 (s % 60) ++ ['s'])).foldl timeStep
      ((printU 2 (s / 60 % 60)).foldl timeStep (0 + s / 3600 * 3600, 0))).1 = s
    rw [foldl_timeStep_printU, List.foldl_cons, List.foldl_append]
    change (['s'].foldl timeStep ((printU 2 (s % 60)).foldl timeStep
      (0 + s / 3600 * 3600 + s / 60 % 60 * 60, 0))).1 = s
    rw [foldl_timeStep_printU]
    change 0 + s / 3600 * 3600 + s / 60 % 60 * 60 + s % 60 = s
    omega

/-- **Exactly when the remaining time is right.** -/
theorem chargerTime_iff {time setTime : ℕ} (htime : time < 2 ^ 32) (hset : setTime < 2 ^ 32) :
    DenotesTime (chargerTime true true time setTime) time setTime ↔ TimeRight time setTime := by
  unfold DenotesTime chargerTime TimeRight
  simp only [if_true]
  rw [readTime_timeText (Nat.mod_lt _ (by decide)), abs_le]
  by_cases hover : time ≤ 2 ^ 32 - 501
  · rw [Nat.mod_eq_of_lt (show time + 500 < 2 ^ 32 by omega)]
    by_cases hless : (time + 500) / 1000 ≤ setTime / 1000
    · have hdiff : (setTime / 1000 + 2 ^ 32 - (time + 500) / 1000) % 2 ^ 32 =
          setTime / 1000 - (time + 500) / 1000 := by omega
      rw [hdiff]
      omega
    · -- the difference wraps round
      have hdiff : (setTime / 1000 + 2 ^ 32 - (time + 500) / 1000) % 2 ^ 32 =
          setTime / 1000 + 2 ^ 32 - (time + 500) / 1000 := by omega
      rw [hdiff]
      omega
  · have hzero : (time + 500) % 2 ^ 32 / 1000 = 0 := by omega
    have hdiff : (setTime / 1000 + 2 ^ 32 - 0) % 2 ^ 32 = setTime / 1000 := by omega
    rw [hzero, hdiff]
    omega

/-! ### Main result -/

/-- **Exactly when the displayed measurements denote the measured values**: the voltage and the
current of the base screen, those of the charger screen while the output is on, and the charger's
remaining time. -/
theorem measurements_iff (crange : Crange) {voltage current : ℤ} (hvoltage : Fits true 32 voltage)
    (hcurrent : Fits true 32 current) {time setTime : ℕ} (htime : time < 2 ^ 32)
    (hset : setTime < 2 ^ 32) (settingU settingI : ℕ) :
    (Denotes (printValue voltage) 1000000 voltage ↔ RoundsRight voltage) ∧
    (Denotes (baseCurrent crange current).1 (unit (baseCurrent crange current).2) current ↔
      CurrentRight crange current) ∧
    (Denotes (chargerVoltage true voltage settingU) 1000000 voltage ↔ RoundsRight voltage) ∧
    (Denotes (chargerCurrent true current settingI) 1000000 current ↔ RoundsRight current) ∧
    (DenotesTime (chargerTime true true time setTime) time setTime ↔ TimeRight time setTime) := by
  refine ⟨denotes_milli_iff hvoltage (readFixed_printValue voltage),
    baseCurrent_iff crange hcurrent, denotes_milli_iff hvoltage ?_,
    denotes_milli_iff hcurrent ?_, chargerTime_iff htime hset⟩
  · exact readFixed_chargerLine (by decide) aside_nil (by decide) (by decide) 2 voltage settingU
  · exact readFixed_chargerLine (by decide) (by decide) (by decide) (by decide) 0 current settingI

/-- A reversed current of two milliamperes, at a voltage of twelve volts and half a millivolt. -/
theorem measurements_iff_reversed :
    (Denotes (printValue 12000500) 1000000 12000500 ↔ RoundsRight 12000500) ∧
    (Denotes (baseCurrent .auto (-2000)).1 (unit (baseCurrent .auto (-2000)).2) (-2000) ↔
      CurrentRight .auto (-2000)) ∧
    (Denotes (chargerVoltage true 12000500 1000) 1000000 12000500 ↔ RoundsRight 12000500) ∧
    (Denotes (chargerCurrent true (-2000) 100) 1000000 (-2000) ↔ RoundsRight (-2000)) ∧
    (DenotesTime (chargerTime true true 30000 60000) 30000 60000 ↔ TimeRight 30000 60000) :=
  measurements_iff .auto (by decide) (by decide) (by decide) (by decide) 1000 100

/-- **A wrong reading.** A reversed current of half an ampere is shown without its sign. -/
theorem not_measurements : ¬ ∀ (crange : Crange) (voltage current : ℤ), Fits true 32 voltage →
    Fits true 32 current → ∀ time setTime : ℕ, time < 2 ^ 32 → setTime < 2 ^ 32 →
    ∀ settingU settingI : ℕ, Denotes (printValue voltage) 1000000 voltage ∧
      Denotes (baseCurrent crange current).1 (unit (baseCurrent crange current).2) current ∧
      Denotes (chargerVoltage true voltage settingU) 1000000 voltage ∧
      Denotes (chargerCurrent true current settingI) 1000000 current ∧
      DenotesTime (chargerTime true true time setTime) time setTime := by
  intro h
  obtain ⟨-, hcurrent, -⟩ := h .auto 0 (-500000) (by decide) (by decide) 0 60000 (by decide)
    (by decide) 1000 100
  rw [baseCurrent_iff .auto (by decide)] at hcurrent
  exact absurd hcurrent (by decide)

end PanelFirmware.Window.Measurements
