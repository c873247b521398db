import PanelFirmware.Lib.Decimal
import PanelFirmware.Prm.Val

/-!
# `prmsystem/src/prmSystem.cpp`: the text of a parameter

The parameters are fixed-point numbers. Their text is put together from a quotient and a remainder
in 32-bit arithmetic; a signed number is made positive first and its sign printed apart.

* `uprintval`, `iprintval`, `Val.tostring`: the functions, `none` where C leaves the result open.
* `uprintval_fixed`, `iprintval_fixed`: they print the numeral of the number.
* `printval_numeral`: what is printed denotes the number, and no other number is printed the same.
* `tostring_numeral`: so does the text of a parameter.
-/

namespace PanelFirmware.Prm

open PanelFirmware.Lib PanelFirmware.Lib.Decimal

/-! ### The code -/

/-- What is left in a buffer of `size` characters, and the length of the whole text.
Source: the C library, `snprintf`. -/
def snprintf (size : ℕ) (text : List Char) : List Char × ℕ := (text.take (size - 1), text.length)

/-- Source: `prmSystem.cpp` `Val::uprintval`, `Val::iprintval`, `pows`. -/
def pows : List ℕ := [1, 10, 100, 1000, 10000, 100000, 1000000]

/-- In `uint32_t`; `none` where the power has no entry in `pows`.
Source: `prmSystem.cpp` `Val::uprintval`. -/
def uprintval (size power var : ℕ) : Option (List Char × ℕ) :=
  if power = 0 then some (snprintf size (printU 0 var))
  else do
    let d ← pows[power]?
    let a := var / d
    let b := var % d
    some (snprintf size (printU 0 a ++ '.' :: printU power b))

/-- `if(var < 0) var = -var` in `int32_t`; `none` where the negation overflows.
Source: `prmSystem.cpp` `Val::iprintval`. -/
def withoutMinus (var : ℤ) : Option ℤ :=
  if var < 0 then (if Fits true 32 (-var) then some (-var) else none) else some var

/-- The quotient and the remainder as `uint32_t`, of which the quotient is printed as `int32_t`;
`none` where the power has no entry in `pows` or the negation overflows.
Source: `prmSystem.cpp` `Val::iprintval`. -/
def iprintval (size power : ℕ) (var : ℤ) : Option (List Char × ℕ) :=
  if power = 0 then some (snprintf size (printI 0 var))
  else do
    let d ← pows[power]?
    let minus := var < 0
    let var ← withoutMinus var
    let a := wrap false 32 (var.tdiv d)
    let b := wrap false 32 (var.tmod d)
    some (snprintf size ((if minus then ['-'] else []) ++
      (printI 0 (wrap true 32 a) ++ '.' :: printU power b.toNat)))

/-- The text of a parameter whose handler has no texts for its values; `none` also for the types
that are not printed by `uprintval` or `iprintval`.
Source: `prmSystem.cpp` `Val::tostring`. -/
def Val.tostring (p : Val) (size : ℕ) : Option (List Char × ℕ) :=
  match p.handler.T with
  | .int8 | .int16 | .int32 => iprintval size p.handler.power p.val
  | .uint8 | .uint16 | .uint32 => uprintval size p.handler.power p.val.toNat
  | _ => none

/-! ### What is printed -/

/-- A text that is shorter than its buffer is not cut off. -/
lemma snprintf_of_lt {size : ℕ} {text : List Char} (h : text.length < size) :
    snprintf size text = (text, text.length) := by
  rw [snprintf, List.take_of_length_le (by omega)]

/-- The entries of `pows` are the powers of ten. -/
lemma getElem?_pows {power : ℕ} (h : power ≤ 6) : pows[power]? = some (10 ^ power) := by
  interval_cases power <;> rfl

/-- The numeral of a number without a fraction. -/
lemma text_fixed_zero (x : ℤ) : (Numeral.fixed 0 x).text = printI 0 x := by
  have hone : x.natAbs / 10 ^ 0 = x.natAbs := Nat.div_one _
  unfold Numeral.text Numeral.fixed Numeral.point printI
  simp only [decide_eq_true_eq, if_true, hone, List.append_nil]
  by_cases hx : x < 0
  · rw [if_pos hx, if_pos hx]
    rfl
  · rw [if_neg hx, if_neg hx]
    rfl

/-- The numeral of a number with a fraction. -/
lemma text_fixed_of_pos {k : ℕ} (hk : k ≠ 0) (x : ℤ) :
    (Numeral.fixed k x).text = (if x < 0 then ['-'] else []) ++
      (printU 0 (x.natAbs / 10 ^ k) ++ '.' :: printU k (x.natAbs % 10 ^ k)) := by
  unfold Numeral.text Numeral.fixed Numeral.point
  simp only [decide_eq_true_eq, if_neg hk, if_neg (printU_ne_nil k _)]

/-- An unsigned number is printed as its numeral. -/
theorem uprintval_fixed {power : ℕ} (hpower : power ≤ 6) (size var : ℕ) :
    uprintval size power var = some (snprintf size (Numeral.fixed power var).text) := by
  have hsign : ¬ (var : ℤ) < 0 := not_lt.mpr (Int.natCast_nonneg var)
  unfold uprintval
  by_cases hk : power = 0
  · rw [if_pos hk, hk, text_fixed_zero, printI_of_nonneg _ (Int.natCast_nonneg var),
      Int.toNat_natCast]
  · rw [if_neg hk, getElem?_pows hpower, text_fixed_of_pos hk, if_neg hsign, Int.natAbs_natCast]
    rfl

/-- The quotient and the remainder of a number that is not negative are in range. -/
lemma quotient_remainder {n d : ℕ} (hn : n < 2 ^ 31) :
    wrap true 32 (wrap false 32 ((n : ℤ).tdiv d)) = (n / d : ℕ) ∧
      wrap false 32 ((n : ℤ).tmod d) = (n % d : ℕ) := by
  have hdiv : n / d ≤ n := Nat.div_le_self n d
  have hmod : n % d ≤ n := Nat.mod_le n d
  have hfits : ∀ m : ℕ, m ≤ n → Fits false 32 (m : ℤ) ∧ Fits true 32 (m : ℤ) := fun m hm =>
    ⟨(fits_unsigned_iff 32 _).mpr (by omega), (fits_signed_iff 31 _).mpr (by omega)⟩
  obtain ⟨hquot, hsigned⟩ := hfits _ hdiv
  obtain ⟨hrem, -⟩ := hfits _ hmod
  rw [← Int.ofNat_tdiv, ← Int.ofNat_tmod, show wrap false 32 _ = _ from hquot]
  exact ⟨hsigned, hrem⟩

/-- The negation does not overflow. -/
lemma withoutMinus_eq {var : ℤ} (hlo : -2 ^ 31 < var) :
    withoutMinus var = some (var.natAbs : ℤ) := by
  unfold withoutMinus
  by_cases hvar : var < 0
  · rw [if_pos hvar, if_pos ((fits_signed_iff 31 _).mpr (by omega))]
    congr 1
    omega
  · rw [if_neg hvar]
    congr 1
    omega

/-- A signed number is printed as its numeral. -/
theorem iprintval_fixed {power : ℕ} (hpower : power ≤ 6) (size : ℕ) {var : ℤ}
    (hlo : -2 ^ 31 < var) (hhi : var < 2 ^ 31) :
    iprintval size power var = some (snprintf size (Numeral.fixed power var).text) := by
  unfold iprintval
  by_cases hk : power = 0
  · rw [if_pos hk, hk, text_fixed_zero]
  obtain ⟨hquot, hrem⟩ := quotient_remainder (n := var.natAbs) (d := 10 ^ power) (by omega)
  have hprint : printI 0 ((var.natAbs / 10 ^ power : ℕ) : ℤ) =
      printU 0 (var.natAbs / 10 ^ power) := by
    rw [printI_of_nonneg _ (Int.natCast_nonneg _), Int.toNat_natCast]
  rw [if_neg hk, getElem?_pows hpower, text_fixed_of_pos hk,
    withoutMinus_eq hlo]
  simp only [Option.bind_eq_bind, Option.bind_some, hquot, hrem, hprint, Int.toNat_natCast]

/-! ### Main results -/

/-- `print` puts the text of `x / 10 ^ power` into every buffer that is large enough: the text of a
numeral that has a minus exactly for negative numbers and `power` digits behind the point and that
denotes the number; and it returns the length of that text. -/
def Prints (print : ℕ → Option (List Char × ℕ)) (power : ℕ) (x : ℤ) : Prop :=
  ∃ num : Numeral, (num.neg = true ↔ x < 0) ∧ num.frac.length = power ∧
    num.value = x / 10 ^ power ∧
      ∀ size, num.text.length < size → print size = some (num.text, num.text.length)

/-- What is printed as the numeral of a number. -/
lemma prints_of_fixed {print : ℕ → Option (List Char × ℕ)} {power : ℕ} {x : ℤ}
    (h : ∀ size, print size = some (snprintf size (Numeral.fixed power x).text)) :
    Prints print power x := by
  refine ⟨Numeral.fixed power x, decide_eq_true_iff, Numeral.length_frac_fixed power x,
    Numeral.value_fixed power x, ?_⟩
  intro size hsize
  rw [h size, snprintf_of_lt hsize]

/-- A text that fits its buffer is the whole text of the number. -/
lemma text_of_fits {size n : ℕ} {text whole : List Char}
    (h : some (snprintf size whole) = some (text, n)) (hn : n < size) : whole = text := by
  obtain ⟨htext, hlength⟩ := Prod.mk.inj (Option.some.inj h)
  rw [← htext, List.take_of_length_le (by omega)]

/-- **The text of a parameter is the exact decimal**, for every unsigned number and every signed one
but the least, and two numbers of one power never have the same text. -/
theorem printval_numeral {power : ℕ} (hpower : power ≤ 6) :
    (∀ var < 2 ^ 32, Prints (fun size => uprintval size power var) power var) ∧
      (∀ var : ℤ, -2 ^ 31 < var → var < 2 ^ 31 →
        Prints (fun size => iprintval size power var) power var) ∧
      (∀ var < 2 ^ 32, ∀ var' < 2 ^ 32, ∀ size size' text n n',
        uprintval size power var = some (text, n) → n < size →
          uprintval size' power var' = some (text, n') → n' < size' → var = var') ∧
      ∀ var var' : ℤ, -2 ^ 31 < var → var < 2 ^ 31 → -2 ^ 31 < var' → var' < 2 ^ 31 →
        ∀ size size' text n n', iprintval size power var = some (text, n) → n < size →
          iprintval size' power var' = some (text, n') → n' < size' → var = var' := by
  refine ⟨?_, ?_, ?_, ?_⟩
  · intro var _
    exact prints_of_fixed fun size => uprintval_fixed hpower size var
  · intro var hlo hhi
    exact prints_of_fixed fun size => iprintval_fixed hpower size hlo hhi
  · intro var _ var' _ size size' text n n' h hn h' hn'
    rw [uprintval_fixed hpower] at h h'
    have hsame := (text_of_fits h hn).trans (text_of_fits h' hn').symm
    exact_mod_cast Numeral.fixed_injective power (Numeral.text_injective hsame)
  · intro var var' hlo hhi hlo' hhi' size size' text n n' h hn h' hn'
    rw [iprintval_fixed hpower size hlo hhi] at h
    rw [iprintval_fixed hpower size' hlo' hhi'] at h'
    have hsame := (text_of_fits h hn).trans (text_of_fits h' hn').symm
    exact Numeral.fixed_injective power (Numeral.text_injective hsame)

/-- A number between minus one and zero keeps its sign. -/
theorem printval_numeral_three :
    iprintval 30 3 (-5) = some ("-0.005".toList, 6) ∧
      Prints (fun size => iprintval size 3 (-5)) 3 (-5) :=
  ⟨by decide, (printval_numeral (by decide)).2.1 (-5) (by decide) (by decide)⟩

/-- The text of every parameter that is printed as a number, whatever its value but the least of
`int32_t`. -/
theorem tostring_numeral {p : Val} (hpower : p.handler.power ≤ 6)
    (hT : p.handler.T ∈ [CType.int8, .uint8, .int16, .uint16, .int32, .uint32])
    (hval : p.val ≠ -2 ^ 31) : Prints p.tostring p.handler.power p.val := by
  have hrepr := p.val_repr
  have hsigned : p.val < 2 ^ 31 → -2 ^ 31 < p.val →
      Prints (fun size => iprintval size p.handler.power p.val) p.handler.power p.val :=
    fun hhi hlo => prints_of_fixed fun size => iprintval_fixed hpower size hlo hhi
  have hunsigned : 0 ≤ p.val →
      Prints (fun size => uprintval size p.handler.power p.val.toNat) p.handler.power p.val := by
    intro hpos
    have hprint := prints_of_fixed fun size => uprintval_fixed hpower size p.val.toNat
    rwa [Int.toNat_of_nonneg hpos] at hprint
  unfold Val.tostring
  simp only [List.mem_cons, List.not_mem_nil, or_false] at hT
  rcases hT with hT | hT | hT | hT | hT | hT <;> rw [hT] at hrepr
  · have h8 := (fits_signed_iff 7 p.val).mp hrepr
    simpa only [hT] using hsigned (by omega) (by omega)
  · have h8 := (fits_unsigned_iff 8 p.val).mp hrepr
    simpa only [hT] using hunsigned h8.1
  · have h16 := (fits_signed_iff 15 p.val).mp hrepr
    simpa only [hT] using hsigned (by omega) (by omega)
  · have h16 := (fits_unsigned_iff 16 p.val).mp hrepr
    simpa only [hT] using hunsigned h16.1
  · have h32 := (fits_signed_iff 31 p.val).mp hrepr
    simpa only [hT] using hsigned (by omega) (by omega)
  · have h32 := (fits_unsigned_iff 32 p.val).mp hrepr
    simpa only [hT] using hunsigned h32.1

end PanelFirmware.Prm
