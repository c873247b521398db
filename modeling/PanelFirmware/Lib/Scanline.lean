import PanelFirmware.Lib.MachineInt

/-!
# Edges and scanlines

Points with whole coordinates, the edges between them, and where they meet a scanline.

* `exact`, `trunc`: where an edge crosses a scanline, and the same rounded as integer division
  rounds.
* `abs_trunc_sub_exact_lt`: the rounded crossing is less than a pixel away; `trunc_between`: it is
  between the ends of the edge.
* `Crosses`, `isLeast_crosses`: all points of the edges of a polygon on a scanline, and how the
  outermost are found.
-/

namespace PanelFirmware.Lib.Scanline

/-- A point with whole coordinates. -/
structure Point where
  x : ℤ
  y : ℤ
  deriving DecidableEq

/-- Where the edge crosses the scanline. -/
def exact (p q : Point) (y : ℤ) : ℚ := p.x + (q.x - p.x) * (y - p.y) / (q.y - p.y)

/-- Where the edge crosses the scanline, rounded towards its first end. -/
def trunc (p q : Point) (y : ℤ) : ℤ := p.x + ((q.x - p.x) * (y - p.y)).tdiv (q.y - p.y)

/-- A point of an edge between two of the points is on the scanline in this column. -/
def Crosses (vs : Set Point) (y : ℤ) (x : ℚ) : Prop :=
  ∃ p ∈ vs, ∃ q ∈ vs, ∃ t : ℚ, 0 ≤ t ∧ t ≤ 1 ∧ p.y + t * (q.y - p.y) = y ∧
    p.x + t * (q.x - p.x) = x

section Edge

variable {p q : Point} {y : ℤ}

lemma exact_left : exact p q p.y = p.x := by
  rw [exact, sub_self, mul_zero, zero_div, add_zero]

lemma exact_right (h : p.y < q.y) : exact p q q.y = q.x := by
  have hne : (q.y : ℚ) - p.y ≠ 0 := sub_ne_zero.mpr (by exact_mod_cast h.ne')
  rw [exact, mul_div_assoc, div_self hne, mul_one, add_sub_cancel]

/-- **The rounding.** The rounded crossing is less than a pixel away from the edge. -/
theorem abs_trunc_sub_exact_lt (h : p.y < q.y) : |(trunc p q y : ℚ) - exact p q y| < 1 := by
  have hd : 0 < q.y - p.y := by omega
  have hdq : (0 : ℚ) < q.y - p.y := by exact_mod_cast hd
  have hdiv : (q.x - p.x) * (y - p.y) = (q.y - p.y) * ((q.x - p.x) * (y - p.y)).tdiv (q.y - p.y) +
      ((q.x - p.x) * (y - p.y)).tmod (q.y - p.y) := (Int.mul_tdiv_add_tmod _ _).symm
  have hmod : |((q.x - p.x) * (y - p.y)).tmod (q.y - p.y)| < q.y - p.y := by
    rw [abs_lt]
    exact ⟨Int.lt_tmod_of_pos _ hd, Int.tmod_lt_of_pos _ hd⟩
  have hdivq : ((q.x : ℚ) - p.x) * (y - p.y) =
      (q.y - p.y) * ((q.x - p.x) * (y - p.y)).tdiv (q.y - p.y) +
        ((q.x - p.x) * (y - p.y)).tmod (q.y - p.y) := by exact_mod_cast hdiv
  have hdiff : (trunc p q y : ℚ) - exact p q y =
      -(((q.x - p.x) * (y - p.y)).tmod (q.y - p.y) / (q.y - p.y) : ℚ) := by
    rw [exact, hdivq, trunc, Int.cast_add]
    field_simp
    ring
  rw [hdiff, abs_neg, abs_div, abs_of_pos hdq, div_lt_one hdq]
  exact_mod_cast hmod

/-- The rounded crossing is between the ends of the edge. -/
theorem trunc_between (h : p.y < q.y) (h0 : p.y ≤ y) (h1 : y ≤ q.y) :
    min p.x q.x ≤ trunc p q y ∧ trunc p q y ≤ max p.x q.x := by
  have hd : 0 < q.y - p.y := by omega
  have hs : 0 ≤ y - p.y := by omega
  have hle : y - p.y ≤ q.y - p.y := by omega
  unfold trunc
  rcases le_total p.x q.x with hx | hx
  · have hn : 0 ≤ (q.x - p.x) * (y - p.y) := mul_nonneg (by omega) hs
    have hdiv : (q.x - p.x) * (y - p.y) / (q.y - p.y) ≤ q.x - p.x :=
      Int.ediv_le_of_le_mul hd (mul_le_mul_of_nonneg_left hle (by omega))
    have hdiv0 := Int.ediv_nonneg hn hd.le
    rw [Int.tdiv_eq_ediv_of_nonneg hn, min_eq_left hx, max_eq_right hx]
    omega
  · have hn : (q.x - p.x) * (y - p.y) ≤ 0 := mul_nonpos_of_nonpos_of_nonneg (by omega) hs
    have hneg : -((q.x - p.x) * (y - p.y)) = (p.x - q.x) * (y - p.y) := by ring
    have hdiv : (p.x - q.x) * (y - p.y) / (q.y - p.y) ≤ p.x - q.x :=
      Int.ediv_le_of_le_mul hd (mul_le_mul_of_nonneg_left hle (by omega))
    have hdiv0 : 0 ≤ (p.x - q.x) * (y - p.y) / (q.y - p.y) :=
      Int.ediv_nonneg (mul_nonneg (by omega) hs) hd.le
    rw [tdiv_of_nonpos hn, hneg, min_eq_right hx, max_eq_left hx]
    omega

end Edge

section Polygon

variable {vs : Set Point} {y : ℤ}

/-- A corner is on its scanline. -/
lemma crosses_corner {v : Point} (hv : v ∈ vs) : Crosses vs v.y v.x :=
  ⟨v, hv, v, hv, 0, le_refl 0, zero_le_one, by rw [zero_mul, add_zero], by rw [zero_mul, add_zero]⟩

/-- An edge is on the scanlines between its ends. -/
lemma crosses_exact {p q : Point} (hp : p ∈ vs) (hq : q ∈ vs) (h : p.y < q.y) (h0 : p.y ≤ y)
    (h1 : y ≤ q.y) : Crosses vs y (exact p q y) := by
  have hd : (0 : ℚ) < q.y - p.y := sub_pos.mpr (by exact_mod_cast h)
  have hs : (0 : ℚ) ≤ y - p.y := sub_nonneg.mpr (by exact_mod_cast h0)
  have hle : (y : ℚ) - p.y ≤ q.y - p.y := sub_le_sub_right (by exact_mod_cast h1) _
  refine ⟨p, hp, q, hq, (y - p.y) / (q.y - p.y), div_nonneg hs hd.le, (div_le_one hd).mpr hle,
    ?_, ?_⟩
  · rw [div_mul_cancel₀ _ hd.ne', add_sub_cancel]
  · rw [exact, mul_comm, mul_div_assoc]

/-- A point of an edge on a scanline is where the edge crosses it, or the edge is in it. -/
lemma eq_exact_or_level {p q : Point} {t x : ℚ} (h0 : 0 ≤ t) (h1 : t ≤ 1)
    (hy : p.y + t * (q.y - p.y) = y) (hx : p.x + t * (q.x - p.x) = x) (h : p.y ≤ q.y) :
    p.y ≤ y ∧ y ≤ q.y ∧
      (p.y < q.y ∧ x = exact p q y ∨
        p.y = q.y ∧ min (p.x : ℚ) q.x ≤ x ∧ x ≤ max (p.x : ℚ) q.x) := by
  have hd : (0 : ℚ) ≤ q.y - p.y := sub_nonneg.mpr (by exact_mod_cast h)
  have hge : (p.y : ℚ) ≤ y := by
    rw [← hy]
    exact le_add_of_nonneg_right (mul_nonneg h0 hd)
  have hle : (y : ℚ) ≤ q.y := by
    have := mul_le_of_le_one_left hd h1
    linarith
  refine ⟨by exact_mod_cast hge, by exact_mod_cast hle, ?_⟩
  rcases h.lt_or_eq with hlt | heq
  · have hne : (q.y : ℚ) - p.y ≠ 0 := sub_ne_zero.mpr (by exact_mod_cast hlt.ne')
    refine Or.inl ⟨hlt, ?_⟩
    rw [← hx, exact, ← hy]
    field_simp
    ring
  · refine Or.inr ⟨heq, ?_⟩
    have hconv : x = (1 - t) * p.x + t * q.x := by
      rw [← hx]
      ring
    rw [hconv]
    constructor
    · have hp := mul_le_mul_of_nonneg_left (min_le_left (p.x : ℚ) q.x) (sub_nonneg.mpr h1)
      have hq := mul_le_mul_of_nonneg_left (min_le_right (p.x : ℚ) q.x) h0
      linarith
    · have hp := mul_le_mul_of_nonneg_left (le_max_left (p.x : ℚ) q.x) (sub_nonneg.mpr h1)
      have hq := mul_le_mul_of_nonneg_left (le_max_right (p.x : ℚ) q.x) h0
      linarith

/-- **The outermost crossings.** Two crossings between which are the corners on the scanline, and
the edges that rise over it, are the first and the last. -/
theorem isLeast_crosses {lo hi : ℚ} (hlo : Crosses vs y lo) (hhi : Crosses vs y hi)
    (hcorner : ∀ v ∈ vs, v.y = y → lo ≤ v.x ∧ v.x ≤ hi)
    (hedge : ∀ p ∈ vs, ∀ q ∈ vs, p.y < q.y → p.y ≤ y → y ≤ q.y →
      lo ≤ exact p q y ∧ exact p q y ≤ hi) :
    IsLeast {x | Crosses vs y x} lo ∧ IsGreatest {x | Crosses vs y x} hi := by
  have hall : ∀ x, Crosses vs y x → lo ≤ x ∧ x ≤ hi := by
    -- an edge may be gone along from either end: begin at the lower
    have hdir : ∀ p ∈ vs, ∀ q ∈ vs, p.y ≤ q.y → ∀ t x : ℚ, 0 ≤ t → t ≤ 1 →
        p.y + t * (q.y - p.y) = y → p.x + t * (q.x - p.x) = x → lo ≤ x ∧ x ≤ hi := by
      intro p hp q hq h t x h0 h1 hy hx
      obtain ⟨hge, hle, ⟨hlt, rfl⟩ | ⟨heq, hmin, hmax⟩⟩ := eq_exact_or_level h0 h1 hy hx h
      · exact hedge p hp q hq hlt hge hle
      · obtain ⟨hp0, hp1⟩ := hcorner p hp (by omega)
        obtain ⟨hq0, hq1⟩ := hcorner q hq (by omega)
        exact ⟨(le_min hp0 hq0).trans hmin, hmax.trans (max_le hp1 hq1)⟩
    rintro x ⟨p, hp, q, hq, t, h0, h1, hy, hx⟩
    rcases le_total p.y q.y with h | h
    · exact hdir p hp q hq h t x h0 h1 hy hx
    · exact hdir q hq p hp h (1 - t) x (sub_nonneg.mpr h1) (sub_le_self 1 h0)
        (by rw [← hy]; ring) (by rw [← hx]; ring)
  exact ⟨⟨hlo, fun x hx => (hall x hx).1⟩, ⟨hhi, fun x hx => (hall x hx).2⟩⟩

end Polygon

end PanelFirmware.Lib.Scanline
