import PanelFirmware.Lib.MachineInt

/-!
# `hal/src/enco.c`: the incremental encoder

TIM4 counts in sixteen bits; `enco_read` takes the displacement from the middle value since the
last read and puts the counter back there. The value returned is a number of detents (four counts
each, rounded to the nearest), which `enco_update` multiplies by seven when it exceeds two.

* `encoRead_fst`: the rounding.
* `reads`: the values that successive reads return, from the displacements between them.
* `leftover`: what a read rounds away; `sum_reads`: the sum of the reads and what is lost.
* `stepsKept_iff`: exactly when no step is lost or invented.
-/

namespace PanelFirmware.Hal

open PanelFirmware.Lib

/-- The timer's counter register and the module's two static variables.
Source: `enco.c` `TIM4->CNT`, `enco_tic`, `ntic`. -/
structure Enco where
  cnt : Fin 0x10000
  encoTic : ℕ
  ntic : ℕ

/-- The value the counter is put back to. Source: `enco.c`, `0xFFFF / 4`. -/
def encoMiddle : Fin 0x10000 := 0xFFFF / 4

/-- Source: `enco.c` `enco_read`. -/
def encoRead (e : Enco) : ℤ × Enco :=
  let step := wrap true 16 (wrap false 32 ((e.cnt.val : ℤ) - 0xFFFF / 4))
  let filtered :=
    if step > 0 then wrap true 16 ((step + 2).tdiv 4)
    else if step < 0 then wrap true 16 ((step - 2).tdiv 4)
    else step
  (filtered, { e with cnt := encoMiddle })

/-- Source: `enco.c` `enco_update`. -/
def encoUpdate (e : Enco) : ℤ × Enco :=
  if e.ntic ≥ e.encoTic then
    let (step, e') := encoRead e
    let accelerated := if step > 2 ∨ step < -2 then step * 7 else step
    (accelerated, { e' with ntic := 0 })
  else (0, { e with ntic := e.ntic + 1 })

/-- Source: `enco.c` `enco_settic`. -/
def encoSettic (n : ℕ) (e : Enco) : Enco := { e with cnt := encoMiddle, encoTic := n }

/-! ### Rounding -/

/-- What a read finds in the counter. Source: `enco.c` `enco_read`, `step` before the filter. -/
def Enco.raw (e : Enco) : ℤ := wrap true 16 (wrap false 32 ((e.cnt.val : ℤ) - 0xFFFF / 4))

/-- A read finds a number of sixteen bits. -/
lemma raw_bounds (e : Enco) : -32768 ≤ e.raw ∧ e.raw < 32768 :=
  (fits_signed_iff 15 _).mp (fits_wrap true 16 _)

/-- A read returns the quotient by four, rounded to the nearest and halves away from zero. -/
lemma encoRead_fst (e : Enco) :
    (encoRead e).1 = if e.raw > 0 then (e.raw + 2) / 4 else -((2 - e.raw) / 4) := by
  obtain ⟨hlo, hhi⟩ := raw_bounds e
  change (if e.raw > 0 then wrap true 16 ((e.raw + 2).tdiv 4)
    else if e.raw < 0 then wrap true 16 ((e.raw - 2).tdiv 4) else e.raw) = _
  generalize e.raw = step at hlo hhi ⊢
  -- the quotients fit sixteen bits, so storing them changes nothing
  have hpos : 0 < step → wrap true 16 ((step + 2).tdiv 4) = (step + 2) / 4 := by
    intro h
    rw [Int.tdiv_eq_ediv_of_nonneg (by omega)]
    exact (fits_signed_iff 15 _).mpr (by omega)
  have hneg : step < 0 → wrap true 16 ((step - 2).tdiv 4) = -((2 - step) / 4) := by
    intro h
    rw [tdiv_of_nonpos (by omega), neg_sub]
    exact (fits_signed_iff 15 _).mpr (by omega)
  split_ifs with h1 h2
  · exact hpos h1
  · exact hneg h2
  · omega

/-! ### Bounds -/

/-- A read returns at most a quarter of the counter's half range. -/
lemma abs_encoRead_le (e : Enco) : |(encoRead e).1| ≤ 8192 := by
  obtain ⟨hlo, hhi⟩ := raw_bounds e
  rw [encoRead_fst, abs_le]
  split_ifs <;> omega

/-- An update returns at most seven times that. -/
lemma abs_encoUpdate_le (e : Enco) : |(encoUpdate e).1| ≤ 57344 := by
  have hread := abs_encoRead_le e
  rw [abs_le] at hread ⊢
  unfold encoUpdate
  split_ifs
  · simp only
    split_ifs <;> omega
  · simp

/-! ### Successive reads -/

/-- The encoder is turned: the counter moves, in sixteen bits. -/
def Enco.turn (e : Enco) (x : ℤ) : Enco :=
  { e with cnt := Fin.ofNat 0x10000 (((e.cnt.val : ℤ) + x) % 0x10000).toNat }

/-- What successive reads return, by the displacements before each of them. -/
def reads : Enco → List ℤ → List ℤ
  | _, [] => []
  | e, x :: xs =>
      let (step, e') := encoRead (e.turn x)
      step :: reads e' xs

/-- What a read rounds away of a displacement. -/
def leftover (x : ℤ) : ℤ :=
  if 0 ≤ x then (x + 2) % 4 - 2 else 2 - (2 - x) % 4

/-- A read finds the displacement, in sixteen bits. -/
lemma raw_turn {e : Enco} (h : e.cnt = encoMiddle) (x : ℤ) : (e.turn x).raw = wrap true 16 x := by
  have hmod := Int.emod_nonneg (16383 + x) (show (65536 : ℤ) ≠ 0 by decide)
  have hlt := Int.emod_lt_of_pos (16383 + x) (show (0 : ℤ) < 65536 by decide)
  have hcnt : ((e.turn x).cnt.val : ℤ) = (16383 + x) % 65536 := by
    unfold Enco.turn
    rw [h]
    change (((((16383 : ℤ) + x) % 65536).toNat % 65536 : ℕ) : ℤ) = _
    omega
  unfold Enco.raw
  rw [hcnt]
  refine wrap_congr ?_
  unfold wrap
  simp only [Bool.false_eq_true, if_false]
  omega

/-- A displacement that sixteen bits hold, with its sign, is the read and what it rounds away. -/
lemma encoRead_turn {e : Enco} (h : e.cnt = encoMiddle) {x : ℤ} (h0 : -32768 ≤ x)
    (h1 : x < 32768) : 4 * (encoRead (e.turn x)).1 + leftover x = x := by
  have hfit : wrap true 16 x = x := (fits_signed_iff 15 x).mpr ⟨h0, h1⟩
  rw [encoRead_fst, raw_turn h, hfit]
  unfold leftover
  split_ifs <;> omega

/-- A longer displacement is read with the other sign. -/
lemma encoRead_turn_long {e : Enco} (h : e.cnt = encoMiddle) {x : ℤ} (h0 : 32768 ≤ x)
    (h1 : x ≤ 49152) : (encoRead (e.turn x)).1 < 0 := by
  have hwrap : wrap true 16 x = x - 65536 := wrap_eq_sub (by omega) (by omega)
  rw [encoRead_fst, raw_turn h, hwrap, if_neg (by omega)]
  omega

/-- The sum of the reads, and what they round away together. -/
theorem sum_reads {e : Enco} (h : e.cnt = encoMiddle) {xs : List ℤ}
    (hxs : ∀ x ∈ xs, -32768 ≤ x ∧ x < 32768) :
    4 * (reads e xs).sum + (xs.map leftover).sum = xs.sum := by
  induction xs generalizing e with
  | nil => rfl
  | cons x xs ih =>
      obtain ⟨hx, hrest⟩ := List.forall_mem_cons.mp hxs
      have hread := encoRead_turn h hx.1 hx.2
      have htail := ih (e := (encoRead (e.turn x)).2) rfl hrest
      rw [reads, List.map_cons, List.sum_cons, List.sum_cons, List.sum_cons]
      linarith

/-- A read does not change the sign of its displacement. -/
def SameSign (x step : ℤ) : Prop := (0 < x → 0 ≤ step) ∧ (x < 0 → step ≤ 0)

/-- No step is lost or invented: the sum of the steps is the total displacement up to one detent,
exactly if that is a whole number of detents, and no displacement changes its sign. -/
def StepsKept (e : Enco) (xs : List ℤ) : Prop :=
  |4 * (reads e xs).sum - xs.sum| < 4 ∧ (∀ d, xs.sum = 4 * d → (reads e xs).sum = d) ∧
    List.Forall₂ SameSign xs (reads e xs)

/-- Reads of displacements that sixteen bits hold keep the signs. -/
lemma sameSign_reads {e : Enco} (h : e.cnt = encoMiddle) {xs : List ℤ}
    (hxs : ∀ x ∈ xs, -32768 ≤ x ∧ x ≤ 49152) :
    List.Forall₂ SameSign xs (reads e xs) ↔ ∀ x ∈ xs, x < 32768 := by
  induction xs generalizing e with
  | nil => exact iff_of_true List.Forall₂.nil fun x hx => absurd hx List.not_mem_nil
  | cons x xs ih =>
      obtain ⟨hx, hrest⟩ := List.forall_mem_cons.mp hxs
      rw [reads, List.forall₂_cons, List.forall_mem_cons,
        ih (e := (encoRead (e.turn x)).2) rfl hrest]
      refine and_congr_left fun _ => ⟨fun hsign => ?_, fun hlt => ?_⟩
      · by_contra hge
        have hneg := encoRead_turn_long h (Int.not_lt.mp hge) hx.2
        exact absurd (hsign.1 (by omega)) (not_le.mpr hneg)
      · have hread := encoRead_turn h hx.1 hlt
        unfold leftover at hread
        unfold SameSign
        split_ifs at hread <;> omega

/-- **Exactly when no step is lost or invented**, for every sequence of displacements in the range
of the counter: none of them is longer than a signed sixteen-bit number can be, and what the reads
round away of them cancels to less than a detent. -/
theorem stepsKept_iff {e : Enco} (h : e.cnt = encoMiddle) {xs : List ℤ}
    (hxs : ∀ x ∈ xs, -32768 ≤ x ∧ x ≤ 49152) :
    StepsKept e xs ↔ (∀ x ∈ xs, x < 32768) ∧ |(xs.map leftover).sum| < 4 := by
  have hsigns := sameSign_reads h hxs
  unfold StepsKept
  rw [hsigns]
  have hsum (hlt : ∀ x ∈ xs, x < 32768) := sum_reads h fun x hx => ⟨(hxs x hx).1, hlt x hx⟩
  constructor
  · rintro ⟨habs, -, hlt⟩
    refine ⟨hlt, ?_⟩
    rw [abs_lt] at habs ⊢
    have hall := hsum hlt
    omega
  · rintro ⟨hlt, habs⟩
    have hall := hsum hlt
    rw [abs_lt] at habs
    refine ⟨?_, fun d hd => ?_, hlt⟩
    · rw [abs_lt]
      omega
    · omega

/-- A detent that is read as three counts and one, and one forth and back. -/
theorem stepsKept_detent :
    StepsKept (encoSettic 1 ⟨0, 0, 0⟩) [3, 1, 4, -4] ↔
      (∀ x ∈ [3, 1, 4, -4], x < 32768) ∧ |([3, 1, 4, -4].map leftover).sum| < 4 :=
  stepsKept_iff rfl (by decide)

/-- **Steps are invented.** A detent that is read in two halves is two steps. -/
theorem not_stepsKept :
    ¬ ∀ (e : Enco) (xs : List ℤ), e.cnt = encoMiddle → (∀ x ∈ xs, -32768 ≤ x ∧ x ≤ 49152) →
      StepsKept e xs := by
  intro h
  have hkept := h (encoSettic 1 ⟨0, 0, 0⟩) [2, 2] rfl (by decide)
  have hsum : (reads (encoSettic 1 ⟨0, 0, 0⟩) [2, 2]).sum = 2 := by decide
  have hone := hkept.2.1 1 (by decide)
  rw [hsum] at hone
  cases hone

end PanelFirmware.Hal
