import PanelFirmware.Lib.DigitalLine
import PanelFirmware.Lib.Loop
import PanelFirmware.Lib.MachineInt
import PanelFirmware.Lib.Raster

/-!
# `Disp::line`

The line goes from its first point to its last by steps along one axis or both, which a sum of the
extents decides about. The sum is kept in 16 bits, and so is its double.

* `lineRound`: a round of the loop.
* `lineRound_exact`: while the double fits, a round goes to the next point of the digital line;
  `lineRound_overflow`: where it does not, the round goes along the short axis only.
* `line_iff`: the line is drawn exactly where the double never leaves its variable, which depends on
  the extents and on their greatest common divisor.
-/

namespace PanelFirmware.Window.Line

open PanelFirmware.Lib PanelFirmware.Lib.Loop PanelFirmware.Lib.DigitalLine

/-- The arguments of the line, in 16 bits each. Source: `display.cpp` `Disp::line`. -/
structure Args where
  x1 : ℤ
  y1 : ℤ
  x2 : ℤ
  y2 : ℤ
  fits : (Fits true 16 x1 ∧ Fits true 16 y1) ∧ Fits true 16 x2 ∧ Fits true 16 y2

/-- Source: `display.cpp` `Disp::abs`. -/
def abs (x : ℤ) : ℤ :=
  wrap false 16 (if wrap true 16 x < 0 then -wrap true 16 x else wrap true 16 x)

/-- Source: `display.cpp` `Disp::line`, `deltaX`. -/
def deltaX (a : Args) : ℤ := wrap true 16 (abs (a.x2 - a.x1))

/-- Source: `display.cpp` `Disp::line`, `deltaY`. -/
def deltaY (a : Args) : ℤ := wrap true 16 (abs (a.y2 - a.y1))

/-- Source: `display.cpp` `Disp::line`, `signX`. -/
def signX (a : Args) : ℤ := if a.x1 < a.x2 then 1 else -1

/-- Source: `display.cpp` `Disp::line`, `signY`. -/
def signY (a : Args) : ℤ := if a.y1 < a.y2 then 1 else -1

/-- The variables of the loop, and the points that it has plotted. -/
structure Vars where
  x1 : ℤ
  y1 : ℤ
  error : ℤ
  plotted : List (ℤ × ℤ)

/-- A round of the loop. Source: `display.cpp` `Disp::line`. -/
def lineRound (a : Args) (s : Vars) : List (ℤ × ℤ) ⊕ Vars :=
  if s.x1 ≠ a.x2 ∨ s.y1 ≠ a.y2 then
    let error2 := wrap true 16 (s.error * 2)
    let (error, x1) :=
      if -deltaY a < error2 then
        (wrap true 16 (s.error - deltaY a), wrap true 16 (s.x1 + signX a))
      else (s.error, s.x1)
    let (error, y1) :=
      if error2 < deltaX a then (wrap true 16 (error + deltaX a), wrap true 16 (s.y1 + signY a))
      else (error, s.y1)
    .inr ⟨x1, y1, error, s.plotted ++ [(s.x1, s.y1)]⟩
  else .inl s.plotted

/-- The variables before the loop; the last point is plotted first. Source: `display.cpp`
`Disp::line`. -/
def start (a : Args) : Vars :=
  ⟨a.x1, a.y1, wrap true 16 (deltaX a - deltaY a), [(a.x2, a.y2)]⟩

/-- The line ends and has plotted these points. Source: `display.cpp` `Disp::line`. -/
def Plots (a : Args) (plotted : List (ℤ × ℤ)) : Prop := Ends (lineRound a) (start a) plotted

/-- The cell of the video buffer that a point is written to. Source: `st7735.c`
`st7735_setPixel`. -/
def cell (w : ℕ) (p : ℤ × ℤ) : ℤ := wrap false 16 p.2 * w + wrap false 16 p.1

/-! ### The line as it is meant -/

/-- The extent along the columns. -/
def lengthX (a : Args) : ℕ := (a.x2 - a.x1).natAbs

/-- The extent along the rows. -/
def lengthY (a : Args) : ℕ := (a.y2 - a.y1).natAbs

/-- The points plotted are those of a path from the first point to the last, no longer than these
are apart; they are within the box of the two, and on any screen that these are on. -/
structure Draws (a : Args) (plotted : List (ℤ × ℤ)) : Prop where
  path : ∃ path, IsPath (max (lengthX a) (lengthY a)) path (a.x1, a.y1) (a.x2, a.y2) ∧
    ∀ p, p ∈ plotted ↔ ∃ k ≤ max (lengthX a) (lengthY a), path k = p
  box : ∀ p ∈ plotted, (min a.x1 a.x2 ≤ p.1 ∧ p.1 ≤ max a.x1 a.x2) ∧
    min a.y1 a.y2 ≤ p.2 ∧ p.2 ≤ max a.y1 a.y2
  screen : ∀ w h : ℕ, (0 ≤ a.x1 ∧ a.x1 < w) ∧ 0 ≤ a.y1 ∧ a.y1 < h →
    (0 ≤ a.x2 ∧ a.x2 < w) ∧ 0 ≤ a.y2 ∧ a.y2 < h → ∀ p ∈ plotted, 0 ≤ cell w p ∧ cell w p < w * h

/-- The double of the error fits in 16 bits all along the line: its greatest value, or, if the line
is steep, the negative of its least. -/
def ErrorFits (a : Args) : Prop :=
  if lengthX a < lengthY a then peak (lengthY a) (lengthX a) ≤ 2 ^ 15
  else peak (lengthX a) (lengthY a) < 2 ^ 15

instance (a : Args) : Decidable (ErrorFits a) :=
  inferInstanceAs (Decidable (if lengthX a < lengthY a then peak (lengthY a) (lengthX a) ≤ 2 ^ 15
    else peak (lengthX a) (lengthY a) < 2 ^ 15))

/-! ### The digital line -/

section Places

variable {a : Args} {k : ℕ}

/-- The longer of the extents. -/
def long (a : Args) : ℕ := max (lengthX a) (lengthY a)

/-- How many columns the line has gone after so many steps. -/
def cols (a : Args) (k : ℕ) : ℕ :=
  if lengthX a < lengthY a then minor (lengthY a) (lengthX a) k else k

/-- How many rows the line has gone after so many steps. -/
def rows (a : Args) (k : ℕ) : ℕ :=
  if lengthX a < lengthY a then k else minor (lengthX a) (lengthY a) k

/-- The error after so many steps. -/
def error (a : Args) (k : ℕ) : ℤ := lengthX a * (1 + rows a k) - lengthY a * (1 + cols a k)

/-- The error of a steep line is the negative of the excess, that of another the excess. -/
lemma error_eq (a : Args) (k : ℕ) :
    error a k = if lengthX a < lengthY a then -excess (lengthY a) (lengthX a) k
      else excess (lengthX a) (lengthY a) k := by
  unfold error cols rows excess
  split_ifs
  · ring
  · ring

/-- A step along the columns. -/
lemma cols_succ (hk : k < long a) :
    cols a (k + 1) = if -(lengthY a : ℤ) < 2 * error a k then cols a k + 1 else cols a k := by
  rw [error_eq]
  unfold cols
  rw [long] at hk
  split_ifs with hsteep h h
  · rw [minor_succ (by omega) hsteep.le, if_pos (by omega)]
  · rw [minor_succ (by omega) hsteep.le, if_neg (by omega)]
  · rfl
  · exact absurd (neg_lt_excess (by omega) (not_lt.mp hsteep) k) h

/-- A step along the rows. -/
lemma rows_succ (hk : k < long a) :
    rows a (k + 1) = if 2 * error a k < lengthX a then rows a k + 1 else rows a k := by
  rw [error_eq]
  unfold rows
  rw [long] at hk
  split_ifs with hsteep h h
  · rfl
  · have hneg := neg_lt_excess (M := lengthY a) (by omega) hsteep.le k
    omega
  · rw [minor_succ (by omega) (not_lt.mp hsteep), if_pos h]
  · rw [minor_succ (by omega) (not_lt.mp hsteep), if_neg h]

/-- The line stays between its ends. -/
lemma places_le (hk : k ≤ long a) : cols a k ≤ lengthX a ∧ rows a k ≤ lengthY a := by
  unfold cols rows
  rw [long] at hk
  split_ifs with hsteep
  · exact ⟨minor_le (by omega), by omega⟩
  · exact ⟨by omega, minor_le (by omega)⟩

/-- The line begins at its first point. -/
lemma places_zero (a : Args) : cols a 0 = 0 ∧ rows a 0 = 0 := by
  unfold cols rows
  split_ifs
  · exact ⟨minor_zero _ _, rfl⟩
  · exact ⟨rfl, minor_zero _ _⟩

/-- The line ends at its last point. -/
lemma places_last (a : Args) : cols a (long a) = lengthX a ∧ rows a (long a) = lengthY a := by
  unfold cols rows long
  split_ifs with hsteep
  · rw [max_eq_right hsteep.le]
    exact ⟨minor_last hsteep.le, rfl⟩
  · rw [max_eq_left (not_lt.mp hsteep)]
    exact ⟨rfl, minor_last (not_lt.mp hsteep)⟩

/-- Before the end the line is not at its last point: along the long axis it has gone a place with
every step. -/
lemma places_ne (hk : k < long a) : cols a k ≠ lengthX a ∨ rows a k ≠ lengthY a := by
  unfold cols rows
  rw [long] at hk
  split_ifs with hsteep
  · exact Or.inr (by omega)
  · exact Or.inl (by omega)

/-- The error follows the steps. -/
lemma error_succ (hk : k < long a) :
    error a (k + 1) =
      error a k - (if -(lengthY a : ℤ) < 2 * error a k then (lengthY a : ℤ) else 0) +
        if 2 * error a k < lengthX a then (lengthX a : ℤ) else 0 := by
  have hstep : ∀ c r : ℕ, (lengthX a : ℤ) * (1 + (r : ℕ)) - lengthY a * (1 + (c : ℕ)) =
      error a k - lengthY a * (c - cols a k) + lengthX a * (r - rows a k) := fun c r => by
    rw [error]
    ring
  rw [error, hstep, cols_succ hk, rows_succ hk]
  split_ifs <;> push_cast <;> ring

/-- **The double of the error**, all along the line. -/
theorem errorFits_iff (hlen : lengthX a + lengthY a ≤ 16383) :
    ErrorFits a ↔ ∀ k < long a, Fits true 16 (2 * error a k) := by
  have hiff : ∀ x : ℤ, Fits true 16 x ↔ -2 ^ 15 ≤ x ∧ x < 2 ^ 15 := fits_signed_iff 15
  simp only [hiff, error_eq, ErrorFits, long]
  split_ifs with hsteep
  · rw [max_eq_right hsteep.le]
    constructor
    · intro h k _
      have hpeak := excess_le_peak (by omega) hsteep.le k
      have hneg := neg_lt_excess (by omega) hsteep.le k
      omega
    · intro h
      obtain ⟨k, hk, hpeak⟩ := exists_peak (by omega) hsteep.le
      have hfit := h k hk
      omega
  · rw [max_eq_left (not_lt.mp hsteep)]
    constructor
    · intro h k hk
      have hpeak := excess_le_peak (by omega) (not_lt.mp hsteep) k
      have hneg := neg_lt_excess (by omega) (not_lt.mp hsteep) k
      omega
    · intro h
      rcases Nat.eq_zero_or_pos (lengthX a) with h0 | hpos
      · have hpeak := peak_le (lengthX a) (lengthY a)
        omega
      · obtain ⟨k, hk, hpeak⟩ := exists_peak hpos (not_lt.mp hsteep)
        have hfit := h k hk
        omega

end Places

/-! ### The points -/

section Points

variable {a : Args} {k : ℕ}

/-- The point after so many steps. -/
def point (a : Args) (k : ℕ) : ℤ × ℤ := (a.x1 + signX a * cols a k, a.y1 + signY a * rows a k)

/-- The variables after so many steps. -/
def varsAt (a : Args) (k : ℕ) : Vars :=
  ⟨(point a k).1, (point a k).2, error a k, (a.x2, a.y2) :: (List.range k).map (point a)⟩

/-- The sign leads from one end of an axis towards the other. -/
lemma axis_spec {z1 z2 : ℤ} {c : ℕ} (hc : c ≤ (z2 - z1).natAbs) :
    (min z1 z2 ≤ z1 + (if z1 < z2 then 1 else -1) * c ∧
      z1 + (if z1 < z2 then 1 else -1) * c ≤ max z1 z2) ∧
      (z1 + (if z1 < z2 then 1 else -1) * c = z2 ↔ c = (z2 - z1).natAbs) := by
  split_ifs <;> omega

/-- The columns go from the first towards the last. -/
lemma column_spec (a : Args) {c : ℕ} (hc : c ≤ lengthX a) :
    (min a.x1 a.x2 ≤ a.x1 + signX a * c ∧ a.x1 + signX a * c ≤ max a.x1 a.x2) ∧
      (a.x1 + signX a * c = a.x2 ↔ c = lengthX a) :=
  axis_spec hc

/-- The rows go from the first towards the last. -/
lemma row_spec (a : Args) {r : ℕ} (hr : r ≤ lengthY a) :
    (min a.y1 a.y2 ≤ a.y1 + signY a * r ∧ a.y1 + signY a * r ≤ max a.y1 a.y2) ∧
      (a.y1 + signY a * r = a.y2 ↔ r = lengthY a) :=
  axis_spec hr

/-- The extents are those that the code computes. -/
lemma delta_eq (hlen : lengthX a + lengthY a ≤ 16383) :
    deltaX a = lengthX a ∧ deltaY a = lengthY a := by
  have habs : ∀ x : ℤ, x.natAbs ≤ 16383 → wrap true 16 (abs x) = x.natAbs := by
    intro x hx
    have hwrap : wrap true 16 x = x := (fits_signed_iff 15 x).mpr ⟨by omega, by omega⟩
    have hself : (if x < 0 then -x else x) = x.natAbs := by split_ifs <;> omega
    have hself' : wrap false 16 (x.natAbs : ℤ) = x.natAbs :=
      (fits_unsigned_iff 16 _).mpr ⟨by omega, by omega⟩
    rw [abs, hwrap, hself, hself']
    exact (fits_signed_iff 15 _).mpr ⟨by omega, by omega⟩
  exact ⟨habs _ (by rw [lengthX] at hlen; omega), habs _ (by rw [lengthY] at hlen; omega)⟩

/-- The coordinates between those of the ends fit in their variables. -/
lemma wrap_coordinate {c r : ℕ} (hc : c ≤ lengthX a) (hr : r ≤ lengthY a) :
    wrap true 16 (a.x1 + signX a * c) = a.x1 + signX a * c ∧
      wrap true 16 (a.y1 + signY a * r) = a.y1 + signY a * r := by
  obtain ⟨⟨hx1, hy1⟩, hx2, hy2⟩ := a.fits
  have hcol := (column_spec a hc).1
  have hrow := (row_spec a hr).1
  rw [fits_signed_iff] at hx1 hy1 hx2 hy2
  exact ⟨(fits_signed_iff 15 _).mpr ⟨by omega, by omega⟩,
    (fits_signed_iff 15 _).mpr ⟨by omega, by omega⟩⟩

/-- The line ends where its last point is reached. -/
lemma point_last (a : Args) : point a (long a) = (a.x2, a.y2) := by
  obtain ⟨hc, hr⟩ := places_last a
  rw [point, hc, hr, Prod.mk.injEq]
  exact ⟨(column_spec a le_rfl).2.mpr rfl, (row_spec a le_rfl).2.mpr rfl⟩

/-- Before the end the line is not at its last point. -/
lemma point_ne (hk : k < long a) : (point a k).1 ≠ a.x2 ∨ (point a k).2 ≠ a.y2 := by
  obtain ⟨hc, hr⟩ := places_le hk.le
  rw [point, Ne, Ne, (column_spec a hc).2, (row_spec a hr).2]
  exact places_ne hk

end Points

/-! ### The rounds -/

section Rounds

variable {a : Args} {k : ℕ}

/-- The variables before the loop are those after no step. -/
lemma start_eq (hlen : lengthX a + lengthY a ≤ 16383) : start a = varsAt a 0 := by
  obtain ⟨hdx, hdy⟩ := delta_eq hlen
  obtain ⟨hc, hr⟩ := places_zero a
  have herror : error a 0 = lengthX a - lengthY a := by
    rw [error, hc, hr, Nat.cast_zero, add_zero, mul_one, mul_one]
  have hwrap : wrap true 16 ((lengthX a : ℤ) - lengthY a) = lengthX a - lengthY a :=
    (fits_signed_iff 15 _).mpr ⟨by omega, by omega⟩
  rw [start, varsAt, point, hdx, hdy, hwrap, herror, hc, hr, Nat.cast_zero, mul_zero, mul_zero,
    add_zero, add_zero, List.range_zero, List.map_nil]

/-- What a round does, part by part. -/
lemma lineRound_eq {s : Vars} (hne : s.x1 ≠ a.x2 ∨ s.y1 ≠ a.y2) {error2 : ℤ}
    (herror2 : wrap true 16 (s.error * 2) = error2) :
    lineRound a s = .inr
      ⟨if -deltaY a < error2 then wrap true 16 (s.x1 + signX a) else s.x1,
        if error2 < deltaX a then wrap true 16 (s.y1 + signY a) else s.y1,
        if error2 < deltaX a then
          wrap true 16
            ((if -deltaY a < error2 then wrap true 16 (s.error - deltaY a) else s.error) + deltaX a)
        else if -deltaY a < error2 then wrap true 16 (s.error - deltaY a) else s.error,
        s.plotted ++ [(s.x1, s.y1)]⟩ := by
  unfold lineRound
  rw [if_pos hne]
  dsimp only
  rw [herror2]
  split_ifs <;> rfl

/-- A step along an axis comes to the next place of it, where this fits. -/
lemma step_axis {z σ : ℤ} {c c' : ℕ} {moves : Prop} [Decidable moves]
    (hplace : c' = if moves then c + 1 else c) (hwrap : wrap true 16 (z + σ * c') = z + σ * c') :
    (if moves then wrap true 16 (z + σ * c + σ) else z + σ * c) = z + σ * c' := by
  split_ifs at hplace ⊢ with h
  · rw [← hwrap, hplace]
    congr 1
    push_cast
    ring
  · rw [hplace]

/-- A step along the columns comes to the next point. -/
lemma step_column (hk : k < long a) :
    (if -(lengthY a : ℤ) < 2 * error a k then wrap true 16 ((point a k).1 + signX a)
      else (point a k).1) = (point a (k + 1)).1 :=
  step_axis (cols_succ hk) (wrap_coordinate (places_le (Nat.succ_le_of_lt hk)).1 (Nat.zero_le _)).1

/-- A step along the rows comes to the next point. -/
lemma step_row (hk : k < long a) :
    (if 2 * error a k < lengthX a then wrap true 16 ((point a k).2 + signY a)
      else (point a k).2) = (point a (k + 1)).2 :=
  step_axis (rows_succ hk) (wrap_coordinate (Nat.zero_le _) (places_le (Nat.succ_le_of_lt hk)).2).2

/-- The error comes to that of the next point. -/
lemma step_error (hlen : lengthX a + lengthY a ≤ 16383) (hk : k < long a)
    (hfit : Fits true 16 (2 * error a k)) :
    (if 2 * error a k < lengthX a then
      wrap true 16 ((if -(lengthY a : ℤ) < 2 * error a k then wrap true 16 (error a k - lengthY a)
        else error a k) + lengthX a)
      else if -(lengthY a : ℤ) < 2 * error a k then wrap true 16 (error a k - lengthY a)
        else error a k) = error a (k + 1) := by
  have hiff : ∀ x : ℤ, Fits true 16 x ↔ -2 ^ 15 ≤ x ∧ x < 2 ^ 15 := fits_signed_iff 15
  rw [hiff] at hfit
  have hminus : wrap true 16 (error a k - lengthY a) = error a k - lengthY a :=
    (hiff _).mpr ⟨by omega, by omega⟩
  rw [error_succ hk, hminus]
  split_ifs with hrow hcol hcol
  · exact (hiff _).mpr ⟨by omega, by omega⟩
  · rw [sub_zero]
    exact (hiff _).mpr ⟨by omega, by omega⟩
  · rw [add_zero]
  · rw [sub_zero, add_zero]

/-- **A round that is right.** While the double of the error fits, a round goes to the next point of
the digital line. -/
theorem lineRound_exact (hlen : lengthX a + lengthY a ≤ 16383) (hk : k < long a)
    (hfit : Fits true 16 (2 * error a k)) :
    lineRound a (varsAt a k) = .inr (varsAt a (k + 1)) := by
  obtain ⟨hdx, hdy⟩ := delta_eq hlen
  have hdouble : wrap true 16 (error a k * 2) = 2 * error a k := by
    rw [mul_comm]
    exact hfit
  have hplotted : (a.x2, a.y2) :: (List.range (k + 1)).map (point a) =
      (a.x2, a.y2) :: (List.range k).map (point a) ++ [((point a k).1, (point a k).2)] := by
    rw [List.range_succ, List.map_append, List.map_singleton, List.cons_append]
  rw [lineRound_eq (s := varsAt a k) (point_ne hk) hdouble, hdx, hdy]
  simp only [varsAt]
  rw [step_column hk, step_row hk, step_error hlen hk hfit, hplotted]

/-- While the double of the error fits, the loop comes from its start to every point. -/
lemma ends_varsAt (hlen : lengthX a + lengthY a ≤ 16383) (hk : k ≤ long a)
    (hfit : ∀ j < k, Fits true 16 (2 * error a j)) (plotted : List (ℤ × ℤ)) :
    Plots a plotted ↔ Ends (lineRound a) (varsAt a k) plotted := by
  induction k with
  | zero => rw [Plots, start_eq hlen]
  | succ k ih =>
      rw [ih (by omega) fun j hj => hfit j (by omega),
        ends_inr (lineRound_exact hlen (by omega) (hfit k (by omega)))]

/-- A line whose error fits is plotted to its end. -/
lemma plots_of_fits (hlen : lengthX a + lengthY a ≤ 16383)
    (hfit : ∀ j < long a, Fits true 16 (2 * error a j)) :
    Plots a ((a.x2, a.y2) :: (List.range (long a)).map (point a)) := by
  rw [ends_varsAt hlen le_rfl hfit]
  refine ends_inl ?_
  have hend : ¬ ((point a (long a)).1 ≠ a.x2 ∨ (point a (long a)).2 ≠ a.y2) := by
    rw [point_last]
    exact fun h => h.elim (fun h => h rfl) fun h => h rfl
  rw [lineRound, varsAt]
  exact if_neg hend

end Rounds

/-! ### The line that fits -/

section Draws

variable {a : Args}

/-- The signs are of size one. -/
lemma sign_cases (a : Args) : (signX a = 1 ∨ signX a = -1) ∧ (signY a = 1 ∨ signY a = -1) := by
  unfold signX signY
  split_ifs <;> decide

/-- Along the long axis the line has gone a place with every step. -/
lemma point_inj {i j : ℕ} (h : point a i = point a j) : i = j := by
  obtain ⟨hsx, hsy⟩ := sign_cases a
  rw [point, point, Prod.mk.injEq] at h
  obtain ⟨hx, hy⟩ := h
  by_cases hsteep : lengthX a < lengthY a
  · rw [rows, rows, if_pos hsteep, if_pos hsteep] at hy
    rcases hsy with hsy | hsy <;> rw [hsy] at hy <;> omega
  · rw [cols, cols, if_neg hsteep, if_neg hsteep] at hx
    rcases hsx with hsx | hsx <;> rw [hsx] at hx <;> omega

/-- A step along an axis goes one place at most. -/
lemma abs_axis_le {z σ : ℤ} (hσ : σ = 1 ∨ σ = -1) {c c' : ℕ} {moves : Prop} [Decidable moves]
    (hplace : c' = if moves then c + 1 else c) : |z + σ * c' - (z + σ * c)| ≤ 1 := by
  rw [abs_le]
  split_ifs at hplace <;> rcases hσ with rfl | rfl <;> omega

/-- A step goes one place at most along either axis. -/
lemma abs_step_le {k : ℕ} (hk : k < long a) :
    |(point a (k + 1)).1 - (point a k).1| ≤ 1 ∧ |(point a (k + 1)).2 - (point a k).2| ≤ 1 :=
  ⟨abs_axis_le (sign_cases a).1 (cols_succ hk), abs_axis_le (sign_cases a).2 (rows_succ hk)⟩

/-- The digital line is a path. -/
lemma isPath_point (a : Args) : IsPath (long a) (point a) (a.x1, a.y1) (a.x2, a.y2) := by
  refine ⟨?_, point_last a, fun k hk => ⟨fun h => ?_, abs_step_le hk⟩, fun i _ j _ => point_inj⟩
  · obtain ⟨hc, hr⟩ := places_zero a
    rw [point, hc, hr, Nat.cast_zero, mul_zero, mul_zero, add_zero, add_zero]
  · exact absurd (point_inj h) (Nat.succ_ne_self k).symm

/-- A point within the box of two points of a screen has a cell on it. -/
lemma cell_of_box {w h : ℕ} {p : ℤ × ℤ} (h1 : (0 ≤ a.x1 ∧ a.x1 < w) ∧ 0 ≤ a.y1 ∧ a.y1 < h)
    (h2 : (0 ≤ a.x2 ∧ a.x2 < w) ∧ 0 ≤ a.y2 ∧ a.y2 < h)
    (hbox : (min a.x1 a.x2 ≤ p.1 ∧ p.1 ≤ max a.x1 a.x2) ∧
      min a.y1 a.y2 ≤ p.2 ∧ p.2 ≤ max a.y1 a.y2) :
    0 ≤ cell w p ∧ cell w p < w * h := by
  obtain ⟨⟨hx1, hy1⟩, hx2, hy2⟩ := a.fits
  rw [fits_signed_iff] at hx1 hy1 hx2 hy2
  have hx : wrap false 16 p.1 = p.1 := (fits_unsigned_iff 16 _).mpr ⟨by omega, by omega⟩
  have hy : wrap false 16 p.2 = p.2 := (fits_unsigned_iff 16 _).mpr ⟨by omega, by omega⟩
  have hp0 : 0 ≤ p.1 ∧ 0 ≤ p.2 := ⟨by omega, by omega⟩
  rw [cell, hx, hy]
  refine ⟨add_nonneg (mul_nonneg hp0.2 (Int.natCast_nonneg w)) hp0.1, ?_⟩
  have hlt := Raster.cell_lt (w := w) (h := h) (x := p.1.toNat) (y := p.2.toNat) (by omega)
    (by omega)
  have hcast : p.2 * (w : ℤ) + p.1 = (Raster.cell w p.1.toNat p.2.toNat : ℕ) := by
    rw [Raster.cell, Nat.cast_add, Nat.cast_mul, Int.toNat_of_nonneg hp0.1,
      Int.toNat_of_nonneg hp0.2]
  rw [hcast]
  exact_mod_cast hlt

/-- The points of the digital line and its last point are what the line is to draw. -/
lemma draws_point (a : Args) : Draws a ((a.x2, a.y2) :: (List.range (long a)).map (point a)) := by
  have hmem : ∀ p, p ∈ (a.x2, a.y2) :: (List.range (long a)).map (point a) ↔
      ∃ k ≤ long a, point a k = p := by
    intro p
    rw [List.mem_cons, List.mem_map, ← point_last]
    constructor
    · rintro (rfl | ⟨k, hk, rfl⟩)
      · exact ⟨long a, le_rfl, rfl⟩
      · exact ⟨k, (List.mem_range.mp hk).le, rfl⟩
    · rintro ⟨k, hk, rfl⟩
      rcases hk.lt_or_eq with hlt | rfl
      · exact Or.inr ⟨k, List.mem_range.mpr hlt, rfl⟩
      · exact Or.inl rfl
  have hbox : ∀ p ∈ (a.x2, a.y2) :: (List.range (long a)).map (point a),
      (min a.x1 a.x2 ≤ p.1 ∧ p.1 ≤ max a.x1 a.x2) ∧
        min a.y1 a.y2 ≤ p.2 ∧ p.2 ≤ max a.y1 a.y2 := by
    intro p hp
    obtain ⟨k, hk, rfl⟩ := (hmem p).mp hp
    obtain ⟨hc, hr⟩ := places_le hk
    exact ⟨(column_spec a hc).1, (row_spec a hr).1⟩
  exact ⟨⟨point a, isPath_point a, hmem⟩, hbox, fun w h h1 h2 p hp => cell_of_box h1 h2 (hbox p hp)⟩

end Draws

/-! ### The line that does not fit -/

section Overflow

variable {a : Args}

/-- What is plotted stays plotted. -/
lemma mem_of_ends {s : Vars} {plotted : List (ℤ × ℤ)} (h : Ends (lineRound a) s plotted)
    {p : ℤ × ℤ} (hp : p ∈ s.plotted) : p ∈ plotted := by
  refine Ends.keeps (I := fun s => p ∈ s.plotted) (Q := fun plotted => p ∈ plotted) ?_ ?_ h hp
  · intro s t hs hround
    by_cases hne : s.x1 ≠ a.x2 ∨ s.y1 ≠ a.y2
    · rw [lineRound_eq hne rfl] at hround
      rw [← Sum.inr.inj hround]
      exact List.mem_append_left _ hs
    · rw [lineRound, if_neg hne] at hround
      cases hround
  · intro s r hs hround
    by_cases hne : s.x1 ≠ a.x2 ∨ s.y1 ≠ a.y2
    · rw [lineRound_eq hne rfl] at hround
      cases hround
    · rw [lineRound, if_neg hne] at hround
      exact Sum.inl.inj hround ▸ hs

/-- A point that the loop is at before the end is plotted. -/
lemma mem_of_ends_at {s : Vars} {plotted : List (ℤ × ℤ)} (h : Ends (lineRound a) s plotted)
    (hne : s.x1 ≠ a.x2 ∨ s.y1 ≠ a.y2) : (s.x1, s.y1) ∈ plotted := by
  rw [ends_inr (lineRound_eq hne rfl)] at h
  exact mem_of_ends h (List.mem_append_right _ (List.mem_singleton_self _))

variable {k : ℕ}

/-- The double that does not fit has the sign of the other side. -/
lemma wrap_double (hlen : lengthX a + lengthY a ≤ 16383) (hk : k < long a)
    (hfit : ¬ Fits true 16 (2 * error a k)) :
    (lengthX a < lengthY a → -(lengthY a : ℤ) < wrap true 16 (2 * error a k) ∧
      ¬ wrap true 16 (2 * error a k) < lengthX a) ∧
    (¬ lengthX a < lengthY a → ¬ -(lengthY a : ℤ) < wrap true 16 (2 * error a k) ∧
      wrap true 16 (2 * error a k) < lengthX a) := by
  have herror := error_eq a k
  rw [long] at hk
  constructor
  · intro hsteep
    rw [if_pos hsteep] at herror
    have hpeak := excess_le_peak (by omega) hsteep.le k
    have hbound := peak_le (lengthY a) (lengthX a)
    have hneg := neg_lt_excess (by omega) hsteep.le k
    rcases wrap_eq_or_add (w := 15) (x := 2 * error a k) (by omega) (by omega) with h | h
    · exact absurd h hfit
    · rw [fits_signed_iff] at hfit
      rw [h]
      omega
  · intro hsteep
    rw [if_neg hsteep] at herror
    have hpeak := excess_le_peak (by omega) (not_lt.mp hsteep) k
    have hbound := peak_le (lengthX a) (lengthY a)
    have hneg := neg_lt_excess (by omega) (not_lt.mp hsteep) k
    rcases wrap_eq_or_sub (w := 15) (x := 2 * error a k) (by omega) (by omega) with h | h
    · exact absurd h hfit
    · rw [fits_signed_iff] at hfit
      rw [h]
      omega

/-- Where the line goes along its short axis only. -/
def astray (a : Args) (k : ℕ) : ℤ × ℤ :=
  if lengthX a < lengthY a then (wrap true 16 ((point a k).1 + signX a), (point a k).2)
  else ((point a k).1, wrap true 16 ((point a k).2 + signY a))

/-- **A round that goes astray.** Where the double of the error does not fit, the round goes along
the short axis only. -/
theorem lineRound_overflow (hlen : lengthX a + lengthY a ≤ 16383) (hk : k < long a)
    (hfit : ¬ Fits true 16 (2 * error a k)) :
    ∃ t, lineRound a (varsAt a k) = .inr t ∧ (t.x1, t.y1) = astray a k := by
  obtain ⟨hdx, hdy⟩ := delta_eq hlen
  obtain ⟨hsteep, hflat⟩ := wrap_double hlen hk hfit
  have hdouble : wrap true 16 ((varsAt a k).error * 2) = wrap true 16 (2 * error a k) := by
    rw [varsAt, mul_comm]
  refine ⟨_, lineRound_eq (point_ne hk) hdouble, ?_⟩
  dsimp only
  rw [hdx, hdy, astray]
  by_cases h : lengthX a < lengthY a
  · rw [if_pos h, if_pos (hsteep h).1, if_neg (hsteep h).2]
    rfl
  · rw [if_neg h, if_neg (hflat h).1, if_pos (hflat h).2]
    rfl

/-- The loop is not at its end where it has gone astray. -/
lemma astray_ne (hk : k < long a) : (astray a k).1 ≠ a.x2 ∨ (astray a k).2 ≠ a.y2 := by
  obtain ⟨hc, hr⟩ := places_le hk.le
  rw [long] at hk
  unfold astray
  split_ifs with hsteep
  · refine Or.inr fun h => ?_
    have hlast := (row_spec a hr).2.mp h
    rw [rows, if_pos hsteep] at hlast
    omega
  · refine Or.inl fun h => ?_
    have hlast := (column_spec a hc).2.mp h
    rw [cols, if_neg hsteep] at hlast
    omega

/-- A step changes a coordinate, also where it wraps. -/
lemma wrap_add_sign_ne {σ : ℤ} (hσ : σ = 1 ∨ σ = -1) (x : ℤ) : wrap true 16 (x + σ) ≠ x := by
  intro h
  have hmod := wrap_emod true 16 (x + σ)
  rw [h] at hmod
  rcases hσ with rfl | rfl <;> omega

/-- On a path that is no longer than its ends are apart there is no step along the short axis
only. -/
lemma not_draws_astray {plotted : List (ℤ × ℤ)} (hpoint : point a k ∈ plotted)
    (hastray : astray a k ∈ plotted) : ¬ Draws a plotted := by
  intro hdraws
  obtain ⟨hsx, hsy⟩ := sign_cases a
  obtain ⟨path, hpath, hmem⟩ := hdraws.path
  obtain ⟨i, hi, hpi⟩ := (hmem _).mp hpoint
  obtain ⟨j, hj, hpj⟩ := (hmem _).mp hastray
  by_cases hsteep : lengthX a < lengthY a
  · rw [max_eq_right hsteep.le] at hpath hi hj
    rw [astray, if_pos hsteep] at hpj
    have hsame := hpath.inj_of_far (f := Prod.snd) (fun _ _ h => h.2.2) (Int.abs_eq_natAbs _) hi hj
      (by rw [hpi, hpj])
    rw [hpi, hpj] at hsame
    exact wrap_add_sign_ne hsx _ (congrArg Prod.fst hsame).symm
  · rw [max_eq_left (not_lt.mp hsteep)] at hpath hi hj
    rw [astray, if_neg hsteep] at hpj
    have hsame := hpath.inj_of_far (f := Prod.fst) (fun _ _ h => h.2.1) (Int.abs_eq_natAbs _) hi hj
      (by rw [hpi, hpj])
    rw [hpi, hpj] at hsame
    exact wrap_add_sign_ne hsy _ (congrArg Prod.snd hsame).symm

/-- A line whose error does not fit is not drawn as it is meant, if it ends at all. -/
lemma not_draws_of_overflow (hlen : lengthX a + lengthY a ≤ 16383) (h : ¬ ErrorFits a)
    (plotted : List (ℤ × ℤ)) : ¬ (Plots a plotted ∧ Draws a plotted) := by
  rintro ⟨hplots, hdraws⟩
  rw [errorFits_iff hlen] at h
  push Not at h
  -- the first place where the double does not fit
  obtain ⟨hk, hover⟩ := Nat.find_spec h
  have hfirst : ∀ j < Nat.find h, Fits true 16 (2 * error a j) := by
    intro j hj
    by_contra hj'
    exact Nat.find_min h hj ⟨hj.trans hk, hj'⟩
  rw [ends_varsAt hlen hk.le hfirst] at hplots
  have hpoint := mem_of_ends_at hplots (point_ne hk)
  obtain ⟨t, hround, ht⟩ := lineRound_overflow hlen hk hover
  rw [ends_inr hround] at hplots
  have hne := astray_ne hk
  rw [← ht] at hne
  have hastray := mem_of_ends_at hplots hne
  rw [ht] at hastray
  exact not_draws_astray hpoint hastray hdraws

end Overflow

/-- A line of up to 10922 points fits. -/
lemma errorFits_of_short {a : Args} (h : 3 * long a < 2 ^ 15) : ErrorFits a := by
  rw [long] at h
  unfold ErrorFits
  split_ifs
  · exact (peak_le _ _).trans (by omega)
  · exact (peak_le _ _).trans_lt (by omega)

/-- **The display.** Every line between two points of the display is drawn. -/
theorem line_on_display (a : Args) (h1 : (0 ≤ a.x1 ∧ a.x1 < 160) ∧ 0 ≤ a.y1 ∧ a.y1 < 128)
    (h2 : (0 ≤ a.x2 ∧ a.x2 < 160) ∧ 0 ≤ a.y2 ∧ a.y2 < 128) :
    ∃ plotted, Plots a plotted ∧ Draws a plotted := by
  have hshort : lengthX a < 160 ∧ lengthY a < 128 := by
    unfold lengthX lengthY
    omega
  have hlen : lengthX a + lengthY a ≤ 16383 := by omega
  have hfits := errorFits_of_short (a := a) (by rw [long]; omega)
  exact ⟨_, plots_of_fits hlen ((errorFits_iff hlen).mp hfits), draws_point a⟩

/-- **The line.** For ends that are no more than 16383 apart, along both axes together, the line is
drawn exactly where the double of the error fits in its 16 bits: with the extents `D` and `E`, the
longer `M`, the shorter `m` and their greatest common divisor `g`, where
`2 * (M - m) + 2 * g * ((M / g - 1) / 2)` is below `2 ^ 15`, or no greater if `D < E`. -/
theorem line_iff (a : Args) (hlen : lengthX a + lengthY a ≤ 16383) :
    (∃ plotted, Plots a plotted ∧ Draws a plotted) ↔ ErrorFits a := by
  constructor
  · rintro ⟨plotted, hdrawn⟩
    by_contra h
    exact not_draws_of_overflow hlen h plotted hdrawn
  · intro h
    exact ⟨_, plots_of_fits hlen ((errorFits_iff hlen).mp h), draws_point a⟩

/-- The diagonal of the display. -/
def diagonal : Args := ⟨0, 127, 159, 0, by decide⟩

/-- The diagonal is drawn. -/
theorem line_iff_diagonal : ∃ plotted, Plots diagonal plotted ∧ Draws diagonal plotted :=
  (line_iff diagonal (by decide)).mpr (by decide)

/-- A long line that is all but level. -/
def levelLine : Args := ⟨0, 0, 16382, 1, by decide⟩

/-- This line is not drawn. -/
theorem not_line_level :
    lengthX levelLine + lengthY levelLine ≤ 16383 ∧
      ¬ ∃ plotted, Plots levelLine plotted ∧ Draws levelLine plotted := by
  refine ⟨by decide, ?_⟩
  rintro ⟨plotted, hdrawn⟩
  exact not_draws_of_overflow (by decide) (by decide) plotted hdrawn

end PanelFirmware.Window.Line
