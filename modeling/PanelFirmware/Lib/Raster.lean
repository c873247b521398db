import Mathlib

/-!
# Rasters

A raster of `w` columns and `h` rows is kept row by row in a buffer of `w * h` cells.

* `cell_lt`, `cell_inj`: the points of the raster are the cells of the buffer, each by itself.
* `flatMap_rows`: the rows one after the other.
* `flatMap_chunks`: a row of `n` points taken in chunks of `k`, the last of them shorter.
-/

namespace PanelFirmware.Lib.Raster

/-- The cell of a point. -/
def cell (w x y : ℕ) : ℕ := y * w + x

/-- A point of the raster has a cell in the buffer. -/
lemma cell_lt {w h x y : ℕ} (hx : x < w) (hy : y < h) : cell w x y < w * h := by
  have hrow : y * w + w ≤ h * w := by
    rw [← Nat.succ_mul]
    exact Nat.mul_le_mul_right w hy
  rw [cell, Nat.mul_comm w h]
  omega

/-- Two points have different cells. -/
lemma cell_inj {w x y x' y' : ℕ} (hx : x < w) (hx' : x' < w) (h : cell w x y = cell w x' y') :
    x = x' ∧ y = y' := by
  have hpos : 0 < w := Nat.zero_lt_of_lt hx
  have hmod := congrArg (· % w) h
  have hdiv := congrArg (· / w) h
  simp only [cell, Nat.mul_comm _ w, Nat.mul_add_mod, Nat.mod_eq_of_lt hx, Nat.mod_eq_of_lt hx',
    Nat.mul_add_div hpos, Nat.div_eq_of_lt hx, Nat.div_eq_of_lt hx', Nat.add_zero] at hmod hdiv
  exact ⟨hmod, hdiv⟩

/-- The first `m` chunks of a row. -/
lemma flatMap_chunks_min (k n m : ℕ) :
    ((List.range m).flatMap fun b => (List.range (min k (n - k * b))).map (k * b + ·)) =
      List.range (min (k * m) n) := by
  induction m with
  | zero => rw [Nat.mul_zero, Nat.zero_min]; rfl
  | succ m ih =>
      rw [List.range_succ, List.flatMap_append, ih, List.flatMap_singleton, Nat.mul_succ]
      by_cases hm : k * m ≤ n
      · rw [Nat.min_eq_left hm, ← List.range_add]
        congr 1
        omega
      · rw [show n - k * m = 0 by omega, Nat.min_zero, List.range_zero, List.map_nil,
          List.append_nil]
        congr 1
        omega

/-- Rows of `k` points one after the other. -/
lemma flatMap_rows (k m : ℕ) :
    ((List.range m).flatMap fun b => (List.range k).map (k * b + ·)) = List.range (k * m) := by
  induction m with
  | zero => rfl
  | succ m ih =>
      rw [List.range_succ, List.flatMap_append, ih, List.flatMap_singleton, Nat.mul_succ,
        List.range_add]

/-- **A row in chunks.** -/
theorem flatMap_chunks {k : ℕ} (hk : 0 < k) (n : ℕ) :
    ((List.range ((n + k - 1) / k)).flatMap fun b =>
      (List.range (min k (n - k * b))).map (k * b + ·)) = List.range n := by
  rw [flatMap_chunks_min, Nat.min_eq_right]
  have hlt := Nat.lt_mul_div_succ (n + k - 1) hk
  rw [Nat.mul_add, Nat.mul_one] at hlt
  omega

end PanelFirmware.Lib.Raster
