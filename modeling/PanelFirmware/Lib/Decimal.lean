import Mathlib

/-!
# Decimal numbers in texts

Texts are lists of characters. A number is written with its digits, filled with zeros to a least
width; a fixed-point number is a sign, digits, a point and digits.

* `printU`, `printI`: the conversions of a number without and with a sign.
* `readFixed`: the fixed-point number in a text, as its digits without the point and the number of
  those behind it. What stands around the number must not be part of one.
* `readFixed_fixed`: what is read of a text that was put together, `readFixed_printI` where the two
  numbers are a quotient and a remainder.
* `Numeral`: the canonical numerals, with their text and the number they denote;
  `Numeral.fixed`: the one of a fixed-point number.
-/

namespace PanelFirmware.Lib.Decimal

/-! ### Writing -/

/-- The digits of a number, at least so many. -/
def printU (width n : ℕ) : List Char :=
  List.replicate (width - (Nat.toDigits 10 n).length) '0' ++ Nat.toDigits 10 n

/-- The digits of a number with its sign; a minus takes one place of the width. -/
def printI (width : ℕ) (x : ℤ) : List Char :=
  if x < 0 then '-' :: printU (width - 1) x.natAbs else printU width x.natAbs

/-- The digits are digits. -/
lemma isDigit_printU {width n : ℕ} {c : Char} (h : c ∈ printU width n) : c.isDigit = true := by
  rcases List.mem_append.mp h with h | h
  · rw [List.eq_of_mem_replicate h]
    rfl
  · exact Nat.isDigit_of_mem_toDigits (by decide) (by decide) h

/-- There is a digit. -/
lemma printU_ne_nil (width n : ℕ) : printU width n ≠ [] :=
  List.append_ne_nil_of_right_ne_nil _ Nat.toDigits_ne_nil

/-- The value of the digits. -/
@[simp] lemma ofDigitChars_printU (width n : ℕ) : Nat.ofDigitChars 10 (printU width n) 0 = n := by
  rw [printU, Nat.ofDigitChars_append, Nat.ofDigitChars_replicate_zero, Nat.mul_zero,
    Nat.ofDigitChars_ten_toDigits]

/-- A number that has no more digits than the width is filled up to it. -/
lemma length_printU {width n : ℕ} (hpos : 0 < width) (h : n < 10 ^ width) :
    (printU width n).length = width := by
  have hle := (Nat.length_toDigits_le_iff (by decide) hpos).mpr h
  rw [printU, List.length_append, List.length_replicate]
  omega

/-- The digits of a bounded number. -/
lemma length_printU_le {width n k : ℕ} (hpos : 0 < k) (hwidth : width ≤ k) (h : n < 10 ^ k) :
    (printU width n).length ≤ k := by
  have hle := (Nat.length_toDigits_le_iff (by decide) hpos).mpr h
  rw [printU, List.length_append, List.length_replicate]
  omega

/-- The digits of a bounded number and its sign. -/
lemma length_printI_le {width k : ℕ} {x : ℤ} (hpos : 0 < k) (hwidth : width ≤ k)
    (h : x.natAbs < 10 ^ k) : (printI width x).length ≤ k + 1 := by
  unfold printI
  split_ifs
  · rw [List.length_cons]
    exact Nat.succ_le_succ (length_printU_le hpos (by omega) h)
  · exact (length_printU_le hpos hwidth h).trans (Nat.le_succ k)

/-- A number that is not negative has no sign. -/
lemma printI_of_nonneg (width : ℕ) {x : ℤ} (h : 0 ≤ x) : printI width x = printU width x.toNat := by
  rw [printI, if_neg (not_lt.mpr h)]
  congr 1
  omega

/-! ### Reading -/

/-- A character of a fixed-point number. -/
def isNumeral (c : Char) : Bool := c.isDigit || c == '-' || c == '.'

/-- A fixed-point number, without anything around it. -/
def readNumber (cs : List Char) : Option (ℤ × ℕ) :=
  let neg := cs.head? = some '-'
  let digits := if neg then cs.tail else cs
  let whole := digits.takeWhile Char.isDigit
  let rest := digits.dropWhile Char.isDigit
  if whole ≠ [] ∧ rest.head? = some '.' ∧ rest.tail ≠ [] ∧ rest.tail.all Char.isDigit then
    let value : ℤ := Nat.ofDigitChars 10 (whole ++ rest.tail) 0
    some (if neg then -value else value, rest.tail.length)
  else none

/-- The fixed-point number in a text. -/
def readFixed (text : List Char) : Option (ℤ × ℕ) :=
  readNumber ((text.dropWhile fun c => !isNumeral c).takeWhile isNumeral)

/-- A part of a text that is not part of a number. -/
def Aside (part : List Char) : Prop := ∀ c ∈ part, isNumeral c = false

instance (part : List Char) : Decidable (Aside part) :=
  decidable_of_iff (part.all fun c => !isNumeral c)
    (by simp only [List.all_eq_true, Bool.not_eq_true', Aside])

/-- Nothing is an aside. -/
lemma aside_nil : Aside [] := fun _ h => absurd h List.not_mem_nil

/-- What stands around a number does not matter. -/
lemma readFixed_aside {label number suffix : List Char} (hlabel : Aside label)
    (hsuffix : Aside suffix) (hnumber : ∀ c ∈ number, isNumeral c = true) (hne : number ≠ []) :
    readFixed (label ++ number ++ suffix) = readNumber number := by
  have hdrop : (label ++ number ++ suffix).dropWhile (fun c => !isNumeral c) =
      number ++ suffix := by
    rw [List.append_assoc, List.dropWhile_append_of_pos fun c hc => by simp [hlabel c hc]]
    obtain ⟨c, cs, rfl⟩ := List.exists_cons_of_ne_nil hne
    rw [List.cons_append, List.dropWhile_cons_of_neg]
    simp [hnumber c List.mem_cons_self]
  have htake : suffix.takeWhile isNumeral = [] := by
    cases suffix with
    | nil => rfl
    | cons c cs =>
        rw [List.takeWhile_cons_of_neg]
        simp [hsuffix c List.mem_cons_self]
  rw [readFixed, hdrop, List.takeWhile_append_of_pos hnumber, htake, List.append_nil]

/-- Digits come to an end at the point. -/
lemma span_digits {whole : List Char} (h : ∀ c ∈ whole, c.isDigit = true) (rest : List Char) :
    (whole ++ '.' :: rest).takeWhile Char.isDigit = whole ∧
      (whole ++ '.' :: rest).dropWhile Char.isDigit = '.' :: rest := by
  have hpoint : ¬ Char.isDigit '.' = true := by decide
  refine ⟨?_, ?_⟩
  · rw [List.takeWhile_append_of_pos h, List.takeWhile_cons_of_neg hpoint, List.append_nil]
  · rw [List.dropWhile_append_of_pos h, List.dropWhile_cons_of_neg hpoint]

/-- A number of digits, a point and digits, with a minus or without. -/
lemma readNumber_digits (neg : Bool) {whole frac : List Char}
    (hwhole : ∀ c ∈ whole, c.isDigit = true) (hfrac : ∀ c ∈ frac, c.isDigit = true)
    (hne : whole ≠ []) (hne' : frac ≠ []) :
    readNumber ((if neg then ['-'] else []) ++ (whole ++ '.' :: frac)) =
      some (if neg then -(Nat.ofDigitChars 10 (whole ++ frac) 0 : ℤ)
        else (Nat.ofDigitChars 10 (whole ++ frac) 0 : ℤ), frac.length) := by
  obtain ⟨htake, hdrop⟩ := span_digits hwhole frac
  have hall : frac.all Char.isDigit = true := List.all_eq_true.mpr hfrac
  unfold readNumber
  cases neg with
  | true =>
      simp only [if_true, List.cons_append, List.nil_append, List.head?_cons, List.tail_cons, htake,
        hdrop, hall, hne, hne', ne_eq, not_false_eq_true, and_self]
  | false =>
      have hhead : (whole ++ '.' :: frac).head? ≠ some '-' := by
        obtain ⟨c, cs, rfl⟩ := List.exists_cons_of_ne_nil hne
        intro h
        have hdigit := hwhole c List.mem_cons_self
        rw [Option.some.inj h] at hdigit
        cases hdigit
      simp only [Bool.false_eq_true, if_false, List.nil_append, hhead, List.head?_cons,
        List.tail_cons, htake, hdrop, hall, hne, hne', ne_eq, not_false_eq_true, and_self, if_true]

/-- **What is read of a text that was put together** from a label, a sign, digits, a point, a
number of its least width and what stands behind: the digits and the number as one. -/
theorem readFixed_fixed {label suffix whole : List Char} (hlabel : Aside label)
    (hsuffix : Aside suffix) (neg : Bool) (hwhole : ∀ c ∈ whole, c.isDigit = true)
    (hne : whole ≠ []) {k b : ℕ} (hk : 0 < k) (hb : b < 10 ^ k) :
    readFixed (label ++ ((if neg then ['-'] else []) ++ (whole ++ '.' :: printU k b)) ++ suffix) =
      some (if neg then -((Nat.ofDigitChars 10 whole 0 * 10 ^ k + b : ℕ) : ℤ)
        else ((Nat.ofDigitChars 10 whole 0 * 10 ^ k + b : ℕ) : ℤ), k) := by
  have hvalue : Nat.ofDigitChars 10 (whole ++ printU k b) 0 =
      Nat.ofDigitChars 10 whole 0 * 10 ^ k + b := by
    rw [Nat.ofDigitChars_append, Nat.ofDigitChars_eq_ofDigitChars_zero, ofDigitChars_printU,
      length_printU hk hb, Nat.mul_comm]
  have hnumeral : ∀ c ∈ (if neg then ['-'] else []) ++ (whole ++ '.' :: printU k b),
      isNumeral c = true := by
    intro c hc
    rcases List.mem_append.mp hc with hc | hc
    · cases neg with
      | true => rw [List.mem_singleton.mp hc]; rfl
      | false => cases hc
    · rcases List.mem_append.mp hc with hc | hc
      · simp [isNumeral, hwhole c hc]
      · rcases List.mem_cons.mp hc with rfl | hc
        · rfl
        · simp [isNumeral, isDigit_printU hc]
  have hnumber : (if neg then ['-'] else []) ++ (whole ++ '.' :: printU k b) ≠ [] :=
    List.append_ne_nil_of_right_ne_nil _ (List.append_ne_nil_of_left_ne_nil hne _)
  rw [readFixed_aside hlabel hsuffix hnumeral hnumber,
    readNumber_digits neg hwhole (fun c => isDigit_printU) hne (printU_ne_nil k b), hvalue,
    length_printU hk hb]

/-- The quotient and the remainder of a number that is not negative. -/
lemma printI_tdiv_tmod (width k : ℕ) {d x : ℤ} (hd : d = 10 ^ k) (hx : 0 ≤ x) :
    printI width (x.tdiv d) = printU width (x.toNat / 10 ^ k) ∧
      printI k (x.tmod d) = printU k (x.toNat % 10 ^ k) := by
  obtain ⟨n, rfl⟩ := Int.eq_ofNat_of_zero_le hx
  have hpow : (d : ℤ) = (10 ^ k : ℕ) := by rw [hd]; push_cast; rfl
  rw [hpow, ← Int.ofNat_tdiv, ← Int.ofNat_tmod, printI_of_nonneg _ (Int.natCast_nonneg _),
    printI_of_nonneg _ (Int.natCast_nonneg _), Int.toNat_natCast, Int.toNat_natCast,
    Int.toNat_natCast]
  exact ⟨rfl, rfl⟩

/-- **What is read of a quotient and a remainder** by a power of ten around a point. -/
theorem readFixed_printI {label suffix : List Char} (hlabel : Aside label) (hsuffix : Aside suffix)
    (neg : Bool) (width : ℕ) {k : ℕ} {d x : ℤ} (hk : 0 < k) (hd : d = 10 ^ k) (hx : 0 ≤ x) :
    readFixed (label ++ ((if neg then ['-'] else []) ++
      (printI width (x.tdiv d) ++ '.' :: printI k (x.tmod d))) ++ suffix) =
        some (if neg then -x else x, k) := by
  obtain ⟨hquot, hrem⟩ := printI_tdiv_tmod width k hd hx
  have hmod : x.toNat % 10 ^ k < 10 ^ k := Nat.mod_lt _ (by positivity)
  rw [hquot, hrem, readFixed_fixed hlabel hsuffix neg (fun c => isDigit_printU)
    (printU_ne_nil _ _) hk hmod, ofDigitChars_printU, Nat.div_add_mod', Int.toNat_of_nonneg hx]

/-- A zero in front does not change it. -/
theorem readFixed_zero_printI (width : ℕ) {k : ℕ} {d x : ℤ} (hk : 0 < k) (hd : d = 10 ^ k)
    (hx : 0 ≤ x) :
    readFixed ('0' :: (printI width (x.tdiv d) ++ '.' :: printI k (x.tmod d))) = some (x, k) := by
  obtain ⟨hquot, hrem⟩ := printI_tdiv_tmod width k hd hx
  have hmod : x.toNat % 10 ^ k < 10 ^ k := Nat.mod_lt _ (by positivity)
  have hdigits : ∀ c ∈ '0' :: printU width (x.toNat / 10 ^ k), c.isDigit = true := by
    intro c hc
    rcases List.mem_cons.mp hc with rfl | hc
    · rfl
    · exact isDigit_printU hc
  have hzero : Nat.ofDigitChars 10 ('0' :: printU width (x.toNat / 10 ^ k)) 0 =
      x.toNat / 10 ^ k := by
    rw [Nat.ofDigitChars_cons, Nat.mul_zero, Nat.zero_add, Nat.sub_self, ofDigitChars_printU]
  have hread := readFixed_fixed aside_nil aside_nil false hdigits (List.cons_ne_nil _ _) hk hmod
  rw [hzero, Nat.div_add_mod', Int.toNat_of_nonneg hx] at hread
  rw [hquot, hrem]
  simpa only [Bool.false_eq_true, if_false, List.nil_append, List.append_nil,
    List.cons_append] using hread

/-! ### Canonical numerals -/

/-- The digits of a number that is not zero do not begin with a zero. -/
lemma head_toDigits_ne {n : ℕ} (h : 0 < n) : (Nat.toDigits 10 n).head? ≠ some '0' := by
  induction n using Nat.strong_induction_on with
  | _ n ih =>
      by_cases hn : n < 10
      · rw [Nat.toDigits_of_lt_base hn, List.head?_cons]
        interval_cases n <;> decide
      · rw [Nat.toDigits_of_base_le (by decide) (by omega),
          List.head?_append_of_ne_nil _ Nat.toDigits_ne_nil]
        exact ih (n / 10) (by omega) (by omega)

/-- A decimal numeral: whether it has a minus, the digits before the point, which begin with a zero
only if that is all, and the digits behind it. -/
structure Numeral where
  neg : Bool
  whole : List Char
  frac : List Char
  whole_digits : ∀ c ∈ whole, c.isDigit = true
  frac_digits : ∀ c ∈ frac, c.isDigit = true
  whole_ne_nil : whole ≠ []
  no_leading_zero : whole.head? = some '0' → whole = ['0']

namespace Numeral

/-- The digits behind the point with the point, which stands only before digits. -/
def point (frac : List Char) : List Char := if frac = [] then [] else '.' :: frac

/-- The numeral as a text. -/
def text (num : Numeral) : List Char :=
  (if num.neg then ['-'] else []) ++ (num.whole ++ point num.frac)

/-- The number that a numeral denotes. -/
def value (num : Numeral) : ℚ :=
  (if num.neg then -1 else 1) *
    (Nat.ofDigitChars 10 num.whole 0 + Nat.ofDigitChars 10 num.frac 0 / 10 ^ num.frac.length)

/-- The numeral of `x / 10 ^ k` with `k` digits behind the point. -/
def fixed (k : ℕ) (x : ℤ) : Numeral where
  neg := x < 0
  whole := printU 0 (x.natAbs / 10 ^ k)
  frac := if k = 0 then [] else printU k (x.natAbs % 10 ^ k)
  whole_digits := fun _ hc => isDigit_printU hc
  frac_digits := by
    intro c hc
    split_ifs at hc
    · cases hc
    · exact isDigit_printU hc
  whole_ne_nil := printU_ne_nil _ _
  no_leading_zero := by
    intro hhead
    rw [printU, Nat.zero_sub, List.replicate_zero, List.nil_append] at hhead ⊢
    by_cases hzero : x.natAbs / 10 ^ k = 0
    · rw [hzero]
      rfl
    · exact absurd hhead (head_toDigits_ne (Nat.pos_of_ne_zero hzero))

/-- A point is followed by as many digits as were asked for. -/
@[simp] lemma length_frac_fixed (k : ℕ) (x : ℤ) : (fixed k x).frac.length = k := by
  change (if k = 0 then [] else printU k (x.natAbs % 10 ^ k)).length = k
  split_ifs with hk
  · rw [hk, List.length_nil]
  · exact length_printU (Nat.pos_of_ne_zero hk) (Nat.mod_lt _ (by positivity))

/-- The value of the digits behind the point. -/
lemma ofDigitChars_frac_fixed (k : ℕ) (x : ℤ) :
    Nat.ofDigitChars 10 (fixed k x).frac 0 = x.natAbs % 10 ^ k := by
  change Nat.ofDigitChars 10 (if k = 0 then [] else printU k (x.natAbs % 10 ^ k)) 0 = _
  split_ifs with hk
  · rw [hk, Nat.ofDigitChars_nil, pow_zero, Nat.mod_one]
  · exact ofDigitChars_printU _ _

/-- The numeral denotes the fixed-point number it was made for. -/
theorem value_fixed (k : ℕ) (x : ℤ) : (fixed k x).value = x / 10 ^ k := by
  have hpow : (10 : ℚ) ^ k ≠ 0 := by positivity
  have hwhole : Nat.ofDigitChars 10 (fixed k x).whole 0 = x.natAbs / 10 ^ k :=
    ofDigitChars_printU _ _
  have hsplit : ((x.natAbs / 10 ^ k : ℕ) : ℚ) + ((x.natAbs % 10 ^ k : ℕ) : ℚ) / 10 ^ k =
      (x.natAbs : ℚ) / 10 ^ k := by
    rw [eq_div_iff hpow, add_mul, div_mul_cancel₀ _ hpow]
    exact_mod_cast Nat.div_add_mod' x.natAbs (10 ^ k)
  have hsign : (if (fixed k x).neg then (-1 : ℚ) else 1) * (x.natAbs : ℚ) = x := by
    change (if decide (x < 0) = true then (-1 : ℚ) else 1) * (x.natAbs : ℚ) = x
    rw [Nat.cast_natAbs]
    by_cases hx : x < 0
    · rw [if_pos (decide_eq_true hx), abs_of_neg hx]
      push_cast
      ring
    · rw [if_neg (by simpa using hx), abs_of_nonneg (not_lt.mp hx), one_mul]
  rw [value, hwhole, ofDigitChars_frac_fixed, length_frac_fixed, hsplit, ← mul_div_assoc, hsign]

/-- The numeral tells for which number it was made. -/
lemma fixed_injective (k : ℕ) : Function.Injective (fixed k) := by
  intro x y h
  have hvalue : (x : ℚ) / 10 ^ k = y / 10 ^ k := by rw [← value_fixed, h, value_fixed]
  rw [div_left_inj' (by positivity)] at hvalue
  exact_mod_cast hvalue

/-- Behind the digits before the point stands no digit. -/
lemma span_point {whole : List Char} (h : ∀ c ∈ whole, c.isDigit = true) (frac : List Char) :
    (whole ++ point frac).takeWhile Char.isDigit = whole ∧
      (whole ++ point frac).dropWhile Char.isDigit = point frac := by
  unfold point
  split_ifs
  · rw [List.append_nil]
    refine ⟨List.takeWhile_eq_self_iff.mpr h, List.dropWhile_eq_nil_iff.mpr h⟩
  · exact span_digits h frac

/-- The point and the digits behind it determine these. -/
lemma point_injective : Function.Injective point := by
  intro a b h
  unfold point at h
  split_ifs at h with ha hb hb
  · rw [ha, hb]
  · cases h
    rfl

/-- The digits of a numeral do not begin with a minus. -/
lemma head_whole_ne (num : Numeral) (rest : List Char) :
    (num.whole ++ rest).head? ≠ some '-' := by
  intro h
  rw [List.head?_append_of_ne_nil _ num.whole_ne_nil] at h
  have hdigit := num.whole_digits '-' (List.mem_of_head? h)
  cases hdigit

/-- A text is the text of one numeral only. -/
theorem text_injective : Function.Injective text := by
  intro a b h
  have hneg : a.neg = b.neg := by
    unfold text at h
    by_cases ha : a.neg <;> by_cases hb : b.neg
    · rw [ha, hb]
    · rw [if_pos ha, if_neg hb, List.nil_append] at h
      exact absurd (by rw [← h]; rfl) (head_whole_ne b (point b.frac))
    · rw [if_neg ha, if_pos hb, List.nil_append] at h
      exact absurd (by rw [h]; rfl) (head_whole_ne a (point a.frac))
    · rw [Bool.eq_false_of_not_eq_true ha, Bool.eq_false_of_not_eq_true hb]
  rw [text, text, hneg] at h
  have hrest := List.append_cancel_left h
  have hwhole : a.whole = b.whole := by
    rw [← (span_point a.whole_digits a.frac).1, hrest, (span_point b.whole_digits b.frac).1]
  have hfrac : a.frac = b.frac := by
    apply point_injective
    rw [← (span_point a.whole_digits a.frac).2, hrest, (span_point b.whole_digits b.frac).2]
  cases a
  cases b
  cases hneg
  cases hwhole
  cases hfrac
  rfl

end Numeral

end PanelFirmware.Lib.Decimal
