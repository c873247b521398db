import PanelFirmware.Lib.Loop
import PanelFirmware.Lib.Scanline

/-!
# `Disp::fillTriangle`

The corners are sorted by their rows. Two loops go down the rows, one to the middle corner and one
from there, along the long edge and one of the short ones; each row is a horizontal line between
them. The edges are followed with sums of their slopes, and divided by their heights with rounding.

* `scanRound`: a round of either loop; where it divides by zero the result is `none`.
* `scan_runs`: a loop draws the rows between the rounded crossings of its two edges.
* `fillTriangle_spans`: every row of the triangle is drawn once, and is right within a pixel.
-/

namespace PanelFirmware.Window.FillTriangle

open PanelFirmware.Lib PanelFirmware.Lib.Loop PanelFirmware.Lib.Scanline

/-- The arguments of a horizontal line. Source: `display.cpp` `Disp::fastHLine`. -/
structure Span where
  x : ℤ
  y : ℤ
  w : ℕ

/-- The points of a horizontal line, from its right end. Source: `display.cpp` `Disp::fastHLine`. -/
def fastHLine (x y : ℤ) : ℕ → List (ℤ × ℤ)
  | 0 => []
  | w + 1 => (wrap false 16 (x + w), wrap false 16 y) :: fastHLine x y w

/-- The line between two columns. Source: `display.cpp` `Disp::fillTriangle`,
`if(a > b) std::swap(a, b)`. -/
def between (a b y : ℤ) : Span :=
  if b < a then ⟨b, y, (wrap false 16 (a - b + 1)).toNat⟩
  else ⟨a, y, (wrap false 16 (b - a + 1)).toNat⟩

/-- Source: `display.cpp` `Disp::fillTriangle`, `if(y0 > y1) std::swap`. -/
def order (p q : Point) : Point × Point := if q.y < p.y then (q, p) else (p, q)

/-- Source: `display.cpp` `Disp::fillTriangle`, "Sort coordinates by Y order". -/
def sortY (v0 v1 v2 : Point) : Point × Point × Point :=
  let first := order v0 v1
  let second := order first.2 v2
  let third := order first.1 second.1
  (third.1, third.2, second.2)

/-- The columns that a corner on the line is to be between. Source: `display.cpp`
`Disp::fillTriangle`, `if(x1 < a) a = x1; else if(x1 > b) b = x1;`. -/
def widen (ab : ℤ × ℤ) (x : ℤ) : ℤ × ℤ :=
  if x < ab.1 then (x, ab.2) else if ab.2 < x then (ab.1, x) else ab

/-- Source: `display.cpp` `Disp::fillTriangle`, "all-on-same-line case". -/
def level (v0 v1 v2 : Point) : Span :=
  let ab := widen (widen (v0.x, v0.x) v1.x) v2.x
  ⟨ab.1, v0.y, (wrap false 16 (ab.2 - ab.1 + 1)).toNat⟩

/-- The column an edge begins at, and its extents. Source: `display.cpp` `Disp::fillTriangle`,
`dx01`, `dy01`, `dx02`, `dy02`, `dx12`, `dy12`. -/
structure Side where
  x : ℤ
  dx : ℤ
  dy : ℤ

/-- The edge from one corner to another. -/
def side (p q : Point) : Side := ⟨p.x, wrap true 16 (q.x - p.x), wrap true 16 (q.y - p.y)⟩

/-- The variables of the loops, and what they have drawn. -/
structure Walk where
  y : ℤ
  sa : ℤ
  sb : ℤ
  spans : List Span

/-- A round of the upper or of the lower loop. Source: `display.cpp` `Disp::fillTriangle`,
`for(; y <= last; y++)`. -/
def scanRound (e f : Side) (last : ℤ) (s : Walk) : Option Walk ⊕ Walk :=
  if s.y ≤ last then
    if e.dy = 0 ∨ f.dy = 0 then .inl none
    else
      let a := wrap true 16 (e.x + s.sa.tdiv e.dy)
      let b := wrap true 16 (f.x + s.sb.tdiv f.dy)
      .inr ⟨wrap true 16 (s.y + 1), wrap true 32 (s.sa + e.dx), wrap true 32 (s.sb + f.dx),
        s.spans ++ [between a b s.y]⟩
  else .inl (some s)

/-- The last row of the upper loop. Source: `display.cpp` `Disp::fillTriangle`, `last`. -/
def lastRow (v1 v2 : Point) : ℤ := if v1.y = v2.y then v1.y else wrap true 16 (v1.y - 1)

/-- With so many rounds for each loop. Source: `display.cpp` `Disp::fillTriangle`. -/
def fillTriangle (n : ℕ) (u0 u1 u2 : Point) : Option (Option (List Span)) :=
  let (v0, v1, v2) := sortY u0 u1 u2
  if v0.y = v2.y then some (some [level v0 v1 v2])
  else
    (runs (scanRound (side v0 v1) (side v0 v2) (lastRow v1 v2)) n ⟨v0.y, 0, 0, []⟩).bind
      fun upper =>
        match upper with
        | none => some none
        | some s =>
            (runs (scanRound (side v1 v2) (side v0 v2) v2.y) n
              ⟨s.y, wrap true 32 ((side v1 v2).dx * (s.y - v1.y)),
                wrap true 32 ((side v0 v2).dx * (s.y - v0.y)), s.spans⟩).map (Option.map Walk.spans)

/-! ### The drawn rows -/

/-- A row of the triangle: a line of one point at least, within the rows and columns of the
corners, whose ends are less than a pixel from the outermost crossings of the edges. -/
structure Good (vs : Set Point) (span : Span) : Prop where
  nonempty : 0 < span.w
  points : ∀ px py, (px, py) ∈ fastHLine span.x span.y span.w ↔
    py = span.y ∧ span.x ≤ px ∧ px < span.x + span.w
  left : ∃ v ∈ vs, v.x ≤ span.x
  right : ∃ v ∈ vs, span.x + span.w - 1 ≤ v.x
  above : ∃ v ∈ vs, v.y ≤ span.y
  below : ∃ v ∈ vs, span.y ≤ v.y
  ends : ∃ lo hi : ℚ, IsLeast {x | Crosses vs span.y x} lo ∧
    IsGreatest {x | Crosses vs span.y x} hi ∧
    |(span.x : ℚ) - lo| < 1 ∧ |(span.x + span.w - 1 : ℚ) - hi| < 1

/-- A coordinate of the screen's range. -/
def InRange (z : ℤ) : Prop := 0 ≤ z ∧ z ≤ 4095

/-- The corners have coordinates of the range. -/
def AllInRange (vs : Set Point) : Prop := ∀ v ∈ vs, InRange v.x ∧ InRange v.y

/-- The points of a line that does not reach over the range of the coordinates. -/
lemma mem_fastHLine {x y : ℤ} (hy : 0 ≤ y ∧ y < 2 ^ 16) (hx : 0 ≤ x) {w : ℕ}
    (hw : x + w ≤ 2 ^ 16) (px py : ℤ) :
    (px, py) ∈ fastHLine x y w ↔ py = y ∧ x ≤ px ∧ px < x + w := by
  have hrow : wrap false 16 y = y := (fits_unsigned_iff 16 y).mpr hy
  induction w with
  | zero =>
      simp only [fastHLine, List.not_mem_nil, false_iff]
      omega
  | succ w ih =>
      have hcol : wrap false 16 (x + w) = x + w :=
        (fits_unsigned_iff 16 _).mpr ⟨by omega, by omega⟩
      have hrest := ih (by omega)
      simp only [fastHLine, List.mem_cons, hrest, hrow, hcol, Prod.mk.injEq]
      omega

/-- The line between two columns, in either order. -/
lemma between_eq {a b : ℤ} (ha : InRange a) (hb : InRange b) (y : ℤ) :
    between a b y = ⟨min a b, y, (max a b - min a b + 1).toNat⟩ := by
  obtain ⟨ha0, ha1⟩ := ha
  obtain ⟨hb0, hb1⟩ := hb
  unfold between
  split_ifs with h
  · have hwrap : wrap false 16 (a - b + 1) = a - b + 1 :=
      (fits_unsigned_iff 16 _).mpr ⟨by omega, by omega⟩
    rw [hwrap, min_eq_right h.le, max_eq_left h.le]
  · have hwrap : wrap false 16 (b - a + 1) = b - a + 1 :=
      (fits_unsigned_iff 16 _).mpr ⟨by omega, by omega⟩
    rw [hwrap, min_eq_left (by omega), max_eq_right (by omega)]

/-- A line between two columns of the range that are right within a pixel. -/
lemma good_between {vs : Set Point} {a b y : ℤ} {a' b' : ℚ} (ha : InRange a) (hb : InRange b)
    (hy : InRange y) (hcols : ∀ c, c = a ∨ c = b → (∃ v ∈ vs, v.x ≤ c) ∧ ∃ v ∈ vs, c ≤ v.x)
    (habove : ∃ v ∈ vs, v.y ≤ y) (hbelow : ∃ v ∈ vs, y ≤ v.y)
    (ha' : |(a : ℚ) - a'| < 1) (hb' : |(b : ℚ) - b'| < 1)
    (hcross : IsLeast {x | Crosses vs y x} (min a' b') ∧
      IsGreatest {x | Crosses vs y x} (max a' b')) : Good vs (between a b y) := by
  rw [between_eq ha hb]
  obtain ⟨⟨ha0, ha1⟩, hb0, hb1⟩ := And.intro ha hb
  have hle : min a b ≤ max a b := min_le_max
  have hw : (((max a b - min a b + 1).toNat : ℕ) : ℤ) = max a b - min a b + 1 :=
    Int.toNat_of_nonneg (by omega)
  have hlast : min a b + (max a b - min a b + 1).toNat - 1 = max a b := by
    rw [hw]
    ring
  refine ⟨?_, ?_, ?_, ?_, habove, hbelow, min a' b', max a' b', hcross.1, hcross.2, ?_, ?_⟩
  · dsimp only
    omega
  · refine mem_fastHLine ⟨hy.1, hy.2.trans_lt (by decide)⟩ ?_ ?_
    · dsimp only
      omega
    · dsimp only
      omega
  · exact (hcols _ (min_choice a b)).1
  · dsimp only
    rw [hlast]
    exact (hcols _ (max_choice a b)).2
  · dsimp only
    rw [Int.cast_min]
    exact (abs_min_sub_min_le_max _ _ _ _).trans_lt (max_lt ha' hb')
  · have hlastq : ((min a b : ℤ) : ℚ) + ((max a b - min a b + 1).toNat : ℕ) - 1 =
        max (a : ℚ) b := by exact_mod_cast hlast
    dsimp only
    rw [hlastq]
    exact (abs_max_sub_max_le_max _ _ _ _).trans_lt (max_lt ha' hb')

/-- The rounded crossing of an edge between two corners is within their columns. -/
lemma trunc_cols {vs : Set Point} {p q : Point} {y : ℤ} (hp : p ∈ vs) (hq : q ∈ vs)
    (h : p.y < q.y) (h0 : p.y ≤ y) (h1 : y ≤ q.y) :
    (∃ v ∈ vs, v.x ≤ trunc p q y) ∧ ∃ v ∈ vs, trunc p q y ≤ v.x := by
  obtain ⟨hmin, hmax⟩ := trunc_between h h0 h1
  constructor
  · rcases min_choice p.x q.x with hc | hc
    · exact ⟨p, hp, hc ▸ hmin⟩
    · exact ⟨q, hq, hc ▸ hmin⟩
  · rcases max_choice p.x q.x with hc | hc
    · exact ⟨p, hp, hc ▸ hmax⟩
    · exact ⟨q, hq, hc ▸ hmax⟩

/-- Columns within those of the corners are of the range. -/
lemma inRange_of_cols {vs : Set Point} (hvs : AllInRange vs) {c : ℤ}
    (h : (∃ v ∈ vs, v.x ≤ c) ∧ ∃ v ∈ vs, c ≤ v.x) : InRange c := by
  obtain ⟨⟨v, hv, hle⟩, w, hw, hge⟩ := h
  exact ⟨(hvs v hv).1.1.trans hle, hge.trans (hvs w hw).1.2⟩

/-- A row between the rounded crossings of two edges is good, if no corner and no other edge on this
row is outside of them. -/
lemma good_scan {vs : Set Point} (hvs : AllInRange vs) {p q p' q' : Point} {y : ℤ} (hp : p ∈ vs)
    (hq : q ∈ vs) (hp' : p' ∈ vs) (hq' : q' ∈ vs) (h : p.y < q.y) (h' : p'.y < q'.y)
    (hy : p.y ≤ y ∧ y ≤ q.y) (hy' : p'.y ≤ y ∧ y ≤ q'.y)
    (hcorner : ∀ v ∈ vs, v.y = y → (v.x : ℚ) = exact p q y ∨ (v.x : ℚ) = exact p' q' y)
    (hedge : ∀ v ∈ vs, ∀ w ∈ vs, v.y < w.y → v.y ≤ y → y ≤ w.y →
      exact v w y = exact p q y ∨ exact v w y = exact p' q' y) :
    Good vs (between (trunc p q y) (trunc p' q' y) y) := by
  have hcols := trunc_cols hp hq h hy.1 hy.2
  have hcols' := trunc_cols hp' hq' h' hy'.1 hy'.2
  have hrow : InRange y := ⟨(hvs p hp).2.1.trans hy.1, hy.2.trans (hvs q hq).2.2⟩
  have hwithin : ∀ x, x = exact p q y ∨ x = exact p' q' y →
      min (exact p q y) (exact p' q' y) ≤ x ∧ x ≤ max (exact p q y) (exact p' q' y) := by
    rintro x (rfl | rfl)
    · exact ⟨min_le_left _ _, le_max_left _ _⟩
    · exact ⟨min_le_right _ _, le_max_right _ _⟩
  have hcrosses : ∀ x, x = exact p q y ∨ x = exact p' q' y → Crosses vs y x := by
    rintro x (rfl | rfl)
    · exact crosses_exact hp hq h hy.1 hy.2
    · exact crosses_exact hp' hq' h' hy'.1 hy'.2
  refine good_between (inRange_of_cols hvs hcols) (inRange_of_cols hvs hcols') hrow ?_
    ⟨p, hp, hy.1⟩ ⟨q, hq, hy.2⟩ (abs_trunc_sub_exact_lt h) (abs_trunc_sub_exact_lt h')
    (isLeast_crosses (hcrosses _ (min_choice _ _)) (hcrosses _ (max_choice _ _))
      (fun v hv hvy => hwithin _ (hcorner v hv hvy))
      (fun v hv w hw hlt h0 h1 => hwithin _ (hedge v hv w hw hlt h0 h1)))
  rintro c (rfl | rfl)
  · exact hcols
  · exact hcols'

/-! ### The corners in their order -/

/-- Two corners in their order. -/
lemma order_spec (p q : Point) :
    (order p q = (p, q) ∧ p.y ≤ q.y) ∨ (order p q = (q, p) ∧ q.y < p.y) := by
  unfold order
  split_ifs with h
  · exact Or.inr ⟨rfl, h⟩
  · exact Or.inl ⟨rfl, not_lt.mp h⟩

/-- The three comparisons sort the corners. -/
lemma sortY_spec (u0 u1 u2 : Point) :
    ∃ v0 v1 v2, sortY u0 u1 u2 = (v0, v1, v2) ∧ v0.y ≤ v1.y ∧ v1.y ≤ v2.y ∧
      ({v0, v1, v2} : Set Point) = {u0, u1, u2} := by
  have hswap : ∀ p q r : Point, ({p, q, r} : Set Point) = {q, p, r} := fun p q r =>
    Set.insert_comm p q {r}
  have hlast : ∀ p q r : Point, ({p, q, r} : Set Point) = {p, r, q} := fun p q r => by
    rw [Set.pair_comm q r]
  rcases order_spec u0 u1 with ⟨h1, hle1⟩ | ⟨h1, hle1⟩ <;>
  simp only [sortY, h1]
  · rcases order_spec u1 u2 with ⟨h2, hle2⟩ | ⟨h2, hle2⟩ <;> simp only [h2]
    · rw [(order_spec u0 u1).resolve_right (by omega) |>.1]
      exact ⟨_, _, _, rfl, hle1, hle2, rfl⟩
    · rcases order_spec u0 u2 with ⟨h3, hle3⟩ | ⟨h3, hle3⟩ <;> simp only [h3]
      · exact ⟨_, _, _, rfl, hle3, hle2.le, hlast _ _ _⟩
      · exact ⟨_, _, _, rfl, hle3.le, hle1, by rw [hswap, hlast]⟩
  · rcases order_spec u0 u2 with ⟨h2, hle2⟩ | ⟨h2, hle2⟩ <;> simp only [h2]
    · rw [(order_spec u1 u0).resolve_right (by omega) |>.1]
      exact ⟨_, _, _, rfl, hle1.le, hle2, hswap _ _ _⟩
    · rcases order_spec u1 u2 with ⟨h3, hle3⟩ | ⟨h3, hle3⟩ <;> simp only [h3]
      · exact ⟨_, _, _, rfl, hle3, hle2.le, by rw [hlast, hswap]⟩
      · exact ⟨_, _, _, rfl, hle3.le, hle1.le, by rw [hswap, hlast, hswap]⟩

/-- The first and the last row of corners in their order. -/
lemma rows_eq {v0 v1 v2 u0 u1 u2 : Point} (h01 : v0.y ≤ v1.y) (h12 : v1.y ≤ v2.y)
    (h : ({v0, v1, v2} : Set Point) = {u0, u1, u2}) :
    min u0.y (min u1.y u2.y) = v0.y ∧ max u0.y (max u1.y u2.y) = v2.y := by
  have hmem : ∀ v, v ∈ ({u0, u1, u2} : Set Point) → v0.y ≤ v.y ∧ v.y ≤ v2.y := by
    intro v hv
    rw [← h] at hv
    rcases hv with rfl | rfl | rfl
    · exact ⟨le_rfl, h01.trans h12⟩
    · exact ⟨h01, h12⟩
    · exact ⟨h01.trans h12, le_rfl⟩
  have h0 := hmem u0 (Or.inl rfl)
  have h1 := hmem u1 (Or.inr (Or.inl rfl))
  have h2 := hmem u2 (Or.inr (Or.inr rfl))
  have hfirst : v0 ∈ ({u0, u1, u2} : Set Point) := h ▸ Or.inl rfl
  have hlast : v2 ∈ ({u0, u1, u2} : Set Point) := h ▸ Or.inr (Or.inr rfl)
  constructor
  · rcases hfirst with rfl | rfl | rfl <;> omega
  · rcases hlast with rfl | rfl | rfl <;> omega

/-! ### The loops -/

section Loops

variable {p q p' q' : Point} {last y : ℤ}

/-- The extents of an edge fit in their variables. -/
lemma side_eq (hp : InRange p.x ∧ InRange p.y) (hq : InRange q.x ∧ InRange q.y) :
    side p q = ⟨p.x, q.x - p.x, q.y - p.y⟩ := by
  obtain ⟨⟨hpx0, hpx1⟩, hpy0, hpy1⟩ := hp
  obtain ⟨⟨hqx0, hqx1⟩, hqy0, hqy1⟩ := hq
  have hx : wrap true 16 (q.x - p.x) = q.x - p.x := (fits_signed_iff 15 _).mpr ⟨by omega, by omega⟩
  have hy : wrap true 16 (q.y - p.y) = q.y - p.y := (fits_signed_iff 15 _).mpr ⟨by omega, by omega⟩
  rw [side, hx, hy]

/-- The sums of the slopes fit in their variables. -/
lemma wrap_slope (hp : InRange p.x ∧ InRange p.y) (hq : InRange q.x ∧ InRange q.y)
    (h0 : p.y ≤ y) (h1 : y ≤ 4096) :
    wrap true 32 ((q.x - p.x) * (y - p.y)) = (q.x - p.x) * (y - p.y) := by
  obtain ⟨⟨hpx0, hpx1⟩, hpy0, -⟩ := hp
  obtain ⟨⟨hqx0, hqx1⟩, -⟩ := hq
  have hs : 0 ≤ y - p.y := by omega
  have hle : (q.x - p.x) * (y - p.y) ≤ 4095 * (y - p.y) :=
    mul_le_mul_of_nonneg_right (by omega) hs
  have hge : -4095 * (y - p.y) ≤ (q.x - p.x) * (y - p.y) :=
    mul_le_mul_of_nonneg_right (by omega) hs
  exact (fits_signed_iff 31 _).mpr ⟨by omega, by omega⟩

/-- The row between two edges. -/
def row (p q p' q' : Point) (y : ℤ) : Span := between (trunc p q y) (trunc p' q' y) y

/-- The variables at the head of a loop: the sums are those of the slopes down to the row. -/
def walkAt (p q p' q' : Point) (y : ℤ) (spans : List Span) : Walk :=
  ⟨y, (q.x - p.x) * (y - p.y), (q'.x - p'.x) * (y - p'.y), spans⟩

/-- The edge crosses the row and the corners are of the range. -/
structure Over (p q : Point) (y : ℤ) : Prop where
  low : InRange p.x ∧ InRange p.y
  high : InRange q.x ∧ InRange q.y
  lt : p.y < q.y
  first : p.y ≤ y
  last : y ≤ q.y

/-- The rounded crossing of such an edge fits in its variable. -/
lemma Over.wrap_trunc (h : Over p q y) :
    wrap true 16 (p.x + ((q.x - p.x) * (y - p.y)).tdiv (q.y - p.y)) = trunc p q y := by
  obtain ⟨hmin, hmax⟩ := trunc_between h.lt h.first h.last
  obtain ⟨hp0, hp1⟩ := h.low.1
  obtain ⟨hq0, hq1⟩ := h.high.1
  exact (fits_signed_iff 15 (trunc p q y)).mpr ⟨by omega, by omega⟩

/-- A round draws the row between the edges. -/
lemma scanRound_row (hy : y ≤ last) (h : Over p q y) (h' : Over p' q' y) (spans : List Span) :
    scanRound (side p q) (side p' q') last (walkAt p q p' q' y spans) =
      .inr (walkAt p q p' q' (y + 1) (spans ++ [row p q p' q' y])) := by
  have hrow : 0 ≤ y ∧ y ≤ 4095 := ⟨h.low.2.1.trans h.first, h.last.trans h.high.2.2⟩
  have hdy : ¬ (q.y - p.y = 0 ∨ q'.y - p'.y = 0) := by
    have hlt := h.lt
    have hlt' := h'.lt
    omega
  have hnext : wrap true 16 (y + 1) = y + 1 := (fits_signed_iff 15 _).mpr ⟨by omega, by omega⟩
  have hsum : (q.x - p.x) * (y - p.y) + (q.x - p.x) = (q.x - p.x) * (y + 1 - p.y) := by ring
  have hsum' : (q'.x - p'.x) * (y - p'.y) + (q'.x - p'.x) = (q'.x - p'.x) * (y + 1 - p'.y) := by
    ring
  have hfirst := h.first
  have hfirst' := h'.first
  rw [side_eq h.low h.high, side_eq h'.low h'.high]
  simp only [scanRound, walkAt, if_pos hy, if_neg hdy, h.wrap_trunc, h'.wrap_trunc, hnext, hsum,
    hsum', row]
  rw [wrap_slope h.low h.high (by omega) (by omega),
    wrap_slope h'.low h'.high (by omega) (by omega)]

/-- **A loop** draws the rows from one to the last between its edges. -/
theorem scan_runs (k : ℕ) (hk : y + k = last + 1)
    (hedge : ∀ z, y ≤ z → z ≤ last → Over p q z ∧ Over p' q' z) (spans : List Span) :
    runs (scanRound (side p q) (side p' q') last) (k + 1) (walkAt p q p' q' y spans) =
      some (some (walkAt p q p' q' (last + 1)
        (spans ++ (List.range k).map fun i : ℕ => row p q p' q' (y + i)))) := by
  induction k generalizing y spans with
  | zero =>
      have hend : ¬ y ≤ last := by omega
      obtain rfl : y = last + 1 := by omega
      rw [List.range_zero, List.map_nil, List.append_nil]
      refine runs_inl ?_ 0
      simp only [scanRound, walkAt]
      exact if_neg hend
  | succ k ih =>
      have hy : y ≤ last := by omega
      obtain ⟨h, h'⟩ := hedge y le_rfl hy
      rw [runs_inr (scanRound_row hy h h' spans),
        ih (by omega) (fun z hz => hedge z (by omega)), List.append_assoc, List.range_succ_eq_map,
        List.map_cons, List.map_map, List.singleton_append]
      have hrest : ∀ i : ℕ, y + 1 + (i : ℤ) = y + (i.succ : ℕ) := fun i => by
        push_cast
        ring
      simp only [Function.comp_def, hrest, Nat.cast_zero, add_zero]

end Loops

/-! ### The triangle -/

section Triangle

variable {v0 v1 v2 : Point}

/-- The rows of a triangle that is not level: down to the middle corner, and from there. -/
def rows (v0 v1 v2 : Point) : List Span :=
  ((List.range (lastRow v1 v2 + 1 - v0.y).toNat).map fun i : ℕ => row v0 v1 v0 v2 (v0.y + i)) ++
    (List.range (v2.y - lastRow v1 v2).toNat).map fun i : ℕ =>
      row v1 v2 v0 v2 (lastRow v1 v2 + 1 + i)

/-- The corners of a triangle in range. -/
lemma AllInRange.vertices (hvs : AllInRange {v0, v1, v2}) :
    (InRange v0.x ∧ InRange v0.y) ∧ (InRange v1.x ∧ InRange v1.y) ∧ InRange v2.x ∧ InRange v2.y :=
  ⟨hvs v0 (Or.inl rfl), hvs v1 (Or.inr (Or.inl rfl)), hvs v2 (Or.inr (Or.inr rfl))⟩

/-- The row of the middle corner is the upper loop's if the triangle ends there, and the lower
loop's otherwise. -/
lemma lastRow_spec (hvs : AllInRange {v0, v1, v2}) (h12 : v1.y ≤ v2.y) :
    (v1.y = v2.y ∧ lastRow v1 v2 = v1.y) ∨ (v1.y < v2.y ∧ lastRow v1 v2 = v1.y - 1) := by
  obtain ⟨-, ⟨-, h0, h1⟩, -⟩ := hvs.vertices
  unfold lastRow
  split_ifs with h
  · exact Or.inl ⟨h, rfl⟩
  · have hwrap : wrap true 16 (v1.y - 1) = v1.y - 1 :=
      (fits_signed_iff 15 _).mpr ⟨by omega, by omega⟩
    exact Or.inr ⟨by omega, hwrap⟩

/-- The upper loop is between the first two edges. -/
lemma over_upper (hvs : AllInRange {v0, v1, v2}) (h12 : v1.y ≤ v2.y) (h02 : v0.y < v2.y) {y : ℤ}
    (h0 : v0.y ≤ y) (h1 : y ≤ lastRow v1 v2) : Over v0 v1 y ∧ Over v0 v2 y := by
  obtain ⟨hv0, hv1, hv2⟩ := hvs.vertices
  have hlast := lastRow_spec hvs h12
  exact ⟨⟨hv0, hv1, by omega, h0, by omega⟩, ⟨hv0, hv2, h02, h0, by omega⟩⟩

/-- The lower loop is between the last two edges. -/
lemma over_lower (hvs : AllInRange {v0, v1, v2}) (h01 : v0.y ≤ v1.y) (h12 : v1.y ≤ v2.y)
    (h02 : v0.y < v2.y) {y : ℤ} (h0 : lastRow v1 v2 + 1 ≤ y) (h1 : y ≤ v2.y) :
    Over v1 v2 y ∧ Over v0 v2 y := by
  obtain ⟨hv0, hv1, hv2⟩ := hvs.vertices
  have hlast := lastRow_spec hvs h12
  exact ⟨⟨hv1, hv2, by omega, by omega, h1⟩, ⟨hv0, hv2, h02, by omega, h1⟩⟩

/-- A triangle that is not level is drawn row by row. -/
lemma fillTriangle_rows {u0 u1 u2 : Point} (hsort : sortY u0 u1 u2 = (v0, v1, v2))
    (hvs : AllInRange {v0, v1, v2}) (h01 : v0.y ≤ v1.y) (h12 : v1.y ≤ v2.y) (h02 : v0.y < v2.y)
    {n : ℕ} (hn : 4097 ≤ n) :
    fillTriangle n u0 u1 u2 = some (some (rows v0 v1 v2)) := by
  obtain ⟨hv0, hv1, hv2⟩ := hvs.vertices
  have hy0 := hv0.2.1
  have hy2 := hv2.2.2
  have hlast := lastRow_spec hvs h12
  have hupper := scan_runs (lastRow v1 v2 + 1 - v0.y).toNat (by omega)
    (fun z h0 h1 => over_upper hvs h12 h02 h0 h1) []
  have hlower := scan_runs (v2.y - lastRow v1 v2).toNat (by omega)
    (fun z h0 h1 => over_lower hvs h01 h12 h02 h0 h1)
    ((List.range (lastRow v1 v2 + 1 - v0.y).toNat).map fun i : ℕ => row v0 v1 v0 v2 (v0.y + i))
  have hfirst : (⟨v0.y, 0, 0, []⟩ : Walk) = walkAt v0 v1 v0 v2 v0.y [] := by
    rw [walkAt, sub_self, mul_zero, mul_zero]
  have hslope1 := wrap_slope hv1 hv2 (show v1.y ≤ lastRow v1 v2 + 1 by omega) (by omega)
  have hslope0 := wrap_slope hv0 hv2 (show v0.y ≤ lastRow v1 v2 + 1 by omega) (by omega)
  have hdx1 : (side v1 v2).dx = v2.x - v1.x := congrArg Side.dx (side_eq hv1 hv2)
  have hdx0 : (side v0 v2).dx = v2.x - v0.x := congrArg Side.dx (side_eq hv0 hv2)
  simp only [fillTriangle, hsort, if_neg h02.ne]
  rw [hfirst, runs_mono hupper (by omega), Option.bind_some, List.nil_append]
  simp only [walkAt, hdx1, hdx0, hslope1, hslope0]
  rw [walkAt] at hlower
  rw [runs_mono hlower (by omega), Option.map_some, Option.map_some, walkAt, rows]

/-- The rows are one below the other, from the first to the last corner. -/
lemma rows_y (hvs : AllInRange {v0, v1, v2}) (h01 : v0.y ≤ v1.y) (h12 : v1.y ≤ v2.y)
    (h02 : v0.y < v2.y) :
    (rows v0 v1 v2).map Span.y =
      (List.range (v2.y - v0.y + 1).toNat).map fun i : ℕ => v0.y + i := by
  have hlast := lastRow_spec hvs h12
  obtain ⟨k, hk⟩ : ∃ k : ℕ, lastRow v1 v2 + 1 - v0.y = k :=
    ⟨_, (Int.toNat_of_nonneg (by omega)).symm⟩
  have hy : ∀ p q p' q' z, (row p q p' q' z).y = z := fun p q p' q' z => by
    rw [row, between]
    split_ifs <;> rfl
  have hrest : (v2.y - v0.y + 1).toNat = k + (v2.y - lastRow v1 v2).toNat := by omega
  have hbelow : ∀ i : ℕ, lastRow v1 v2 + 1 + i = v0.y + (k + i : ℕ) := fun i => by
    push_cast
    omega
  rw [rows, List.map_append, List.map_map, List.map_map, hrest, List.range_add, List.map_append,
    List.map_map, hk, Int.toNat_natCast]
  simp only [Function.comp_def, hy, hbelow]

/-- Above the middle corner, a row is good between the first two edges. -/
lemma good_upper (hvs : AllInRange {v0, v1, v2}) {y : ℤ} (h : Over v0 v1 y) (h' : Over v0 v2 y)
    (h12 : v1.y ≤ v2.y) : Good {v0, v1, v2} (row v0 v1 v0 v2 y) := by
  have hlt := h.lt
  have hlast := h.last
  refine good_scan hvs (Or.inl rfl) (Or.inr (Or.inl rfl)) (Or.inl rfl) (Or.inr (Or.inr rfl))
    h.lt h'.lt ⟨h.first, h.last⟩ ⟨h'.first, h'.last⟩ ?_ ?_
  · rintro v (rfl | rfl | rfl) rfl
    · exact Or.inl exact_left.symm
    · exact Or.inl (exact_right h.lt).symm
    · exact Or.inr (exact_right h'.lt).symm
  · rintro v (rfl | rfl | rfl) w (rfl | rfl | rfl) hvw h0 h1
    · exact absurd hvw (lt_irrefl _)
    · exact Or.inl rfl
    · exact Or.inr rfl
    · omega
    · exact absurd hvw (lt_irrefl _)
    · -- the third edge is met at its upper end only, which is the middle corner
      obtain rfl : y = v.y := by omega
      exact Or.inl (exact_left.trans (exact_right h.lt).symm)
    · omega
    · omega
    · exact absurd hvw (lt_irrefl _)

/-- From the middle corner on, a row is good between the last two edges. -/
lemma good_lower (hvs : AllInRange {v0, v1, v2}) {y : ℤ} (h : Over v1 v2 y) (h' : Over v0 v2 y)
    (h01 : v0.y ≤ v1.y) : Good {v0, v1, v2} (row v1 v2 v0 v2 y) := by
  have hlt := h.lt
  have hfirst := h.first
  refine good_scan hvs (Or.inr (Or.inl rfl)) (Or.inr (Or.inr rfl)) (Or.inl rfl)
    (Or.inr (Or.inr rfl)) h.lt h'.lt ⟨h.first, h.last⟩ ⟨h'.first, h'.last⟩ ?_ ?_
  · rintro v (rfl | rfl | rfl) rfl
    · exact Or.inr exact_left.symm
    · exact Or.inl exact_left.symm
    · exact Or.inr (exact_right h'.lt).symm
  · rintro v (rfl | rfl | rfl) w (rfl | rfl | rfl) hvw h0 h1
    · exact absurd hvw (lt_irrefl _)
    · -- the first edge is met at its lower end only, which is the middle corner
      obtain rfl : y = w.y := by omega
      exact Or.inl ((exact_right hvw).trans exact_left.symm)
    · exact Or.inr rfl
    · omega
    · exact absurd hvw (lt_irrefl _)
    · exact Or.inl rfl
    · omega
    · omega
    · exact absurd hvw (lt_irrefl _)

/-- The rows are right within a pixel. -/
lemma rows_good (hvs : AllInRange {v0, v1, v2}) (h01 : v0.y ≤ v1.y) (h12 : v1.y ≤ v2.y)
    (h02 : v0.y < v2.y) : ∀ span ∈ rows v0 v1 v2, Good {v0, v1, v2} span := by
  have hlast := lastRow_spec hvs h12
  intro span hspan
  rw [rows, List.mem_append, List.mem_map, List.mem_map] at hspan
  rcases hspan with ⟨i, hi, rfl⟩ | ⟨i, hi, rfl⟩ <;> rw [List.mem_range] at hi
  · obtain ⟨h, h'⟩ := over_upper hvs h12 h02 (show v0.y ≤ v0.y + i by omega) (by omega)
    exact good_upper hvs h h' h12
  · obtain ⟨h, h'⟩ := over_lower hvs h01 h12 h02
      (show lastRow v1 v2 + 1 ≤ lastRow v1 v2 + 1 + i by omega) (by omega)
    exact good_lower hvs h h' h01

/-- The columns that the corners are between. -/
lemma widen_eq {a b : ℤ} (h : a ≤ b) (x : ℤ) : widen (a, b) x = (min a x, max b x) := by
  unfold widen
  dsimp only
  split_ifs with h0 h1
  · rw [min_eq_right h0.le, max_eq_left (by omega)]
  · rw [min_eq_left (by omega), max_eq_right h1.le]
  · rw [min_eq_left (by omega), max_eq_left (by omega)]

/-- The outermost columns of the corners. -/
lemma exists_extreme (v0 v1 v2 : Point) :
    (∃ v ∈ ({v0, v1, v2} : Set Point), v.x = min (min v0.x v1.x) v2.x) ∧
      ∃ v ∈ ({v0, v1, v2} : Set Point), v.x = max (max v0.x v1.x) v2.x := by
  constructor
  · rcases min_choice (min v0.x v1.x) v2.x with h | h
    · rcases min_choice v0.x v1.x with h' | h'
      · exact ⟨v0, Or.inl rfl, (h.trans h').symm⟩
      · exact ⟨v1, Or.inr (Or.inl rfl), (h.trans h').symm⟩
    · exact ⟨v2, Or.inr (Or.inr rfl), h.symm⟩
  · rcases max_choice (max v0.x v1.x) v2.x with h | h
    · rcases max_choice v0.x v1.x with h' | h'
      · exact ⟨v0, Or.inl rfl, (h.trans h').symm⟩
      · exact ⟨v1, Or.inr (Or.inl rfl), (h.trans h').symm⟩
    · exact ⟨v2, Or.inr (Or.inr rfl), h.symm⟩

/-- A level triangle is one row. -/
lemma good_level (hvs : AllInRange {v0, v1, v2}) (h1 : v1.y = v0.y) (h2 : v2.y = v0.y) :
    Good {v0, v1, v2} (level v0 v1 v2) := by
  obtain ⟨⟨l, hl, hlx⟩, r, hr, hrx⟩ := exists_extreme v0 v1 v2
  have hrow : ∀ v ∈ ({v0, v1, v2} : Set Point), v.y = v0.y := by
    rintro v (rfl | rfl | rfl)
    · rfl
    · exact h1
    · exact h2
  have hcols : ∀ v ∈ ({v0, v1, v2} : Set Point), l.x ≤ v.x ∧ v.x ≤ r.x := by
    rintro v (rfl | rfl | rfl) <;> omega
  have hlevel : level v0 v1 v2 = between l.x r.x v0.y := by
    have hle : ¬ r.x < l.x := not_lt.mpr (hcols l hl).2
    rw [level, widen_eq le_rfl, widen_eq min_le_max, ← hlx, ← hrx, between, if_neg hle]
  have hleast : IsLeast {x | Crosses {v0, v1, v2} v0.y x} (l.x : ℚ) ∧
      IsGreatest {x | Crosses {v0, v1, v2} v0.y x} (r.x : ℚ) := by
    refine isLeast_crosses (hrow l hl ▸ crosses_corner hl) (hrow r hr ▸ crosses_corner hr) ?_ ?_
    · exact fun v hv _ => ⟨by exact_mod_cast (hcols v hv).1, by exact_mod_cast (hcols v hv).2⟩
    · intro v hv w hw hlt
      exact absurd hlt (by rw [hrow v hv, hrow w hw]; exact lt_irrefl _)
  have hle : (l.x : ℚ) ≤ r.x := by exact_mod_cast (hcols l hl).2
  rw [hlevel]
  refine good_between (hvs l hl).1 (hvs r hr).1 hvs.vertices.1.2 ?_
    ⟨v0, Or.inl rfl, le_rfl⟩ ⟨v0, Or.inl rfl, le_rfl⟩ (by rw [sub_self, abs_zero]; exact one_pos)
    (by rw [sub_self, abs_zero]; exact one_pos)
    (by rw [min_eq_left hle, max_eq_right hle]; exact hleast)
  rintro c (rfl | rfl)
  · exact ⟨⟨l, hl, le_rfl⟩, l, hl, le_rfl⟩
  · exact ⟨⟨r, hr, le_rfl⟩, r, hr, le_rfl⟩

end Triangle

/-- **The triangle.** For any three corners of the range, in any order, no division is by zero, the
rows are drawn once each from the first corner to the last, and each of them is a line within the
corners' rows and columns whose ends are less than a pixel from where the edges cross it. -/
theorem fillTriangle_spans (u0 u1 u2 : Point) (hrange : AllInRange {u0, u1, u2}) :
    ∃ spans, (∀ n, 4097 ≤ n → fillTriangle n u0 u1 u2 = some (some spans)) ∧
      spans.map Span.y =
        (List.range (max u0.y (max u1.y u2.y) - min u0.y (min u1.y u2.y) + 1).toNat).map
          (fun i : ℕ => min u0.y (min u1.y u2.y) + i) ∧
      ∀ span ∈ spans, Good {u0, u1, u2} span := by
  obtain ⟨v0, v1, v2, hsort, h01, h12, hset⟩ := sortY_spec u0 u1 u2
  obtain ⟨hmin, hmax⟩ := rows_eq h01 h12 hset
  rw [← hset] at hrange ⊢
  rw [hmin, hmax]
  rcases (h01.trans h12).eq_or_lt with h02 | h02
  · refine ⟨[level v0 v1 v2], fun n _ => ?_, ?_, ?_⟩
    · simp only [fillTriangle, hsort, if_pos h02]
    · rw [h02, sub_self, zero_add, Int.toNat_one, List.range_one, List.map_singleton,
        List.map_singleton, Nat.cast_zero, add_zero, ← h02]
      rfl
    · intro span hspan
      obtain rfl := List.mem_singleton.mp hspan
      exact good_level hrange (by omega) h02.symm
  · exact ⟨rows v0 v1 v2, fun n hn => fillTriangle_rows hsort hrange h01 h12 h02 hn,
      rows_y hrange h01 h12 h02, rows_good hrange h01 h12 h02⟩

/-- The corners out of order, with a flat bottom. -/
theorem fillTriangle_spans_flat :
    ∃ spans, (∀ n, 4097 ≤ n → fillTriangle n ⟨10, 4095⟩ ⟨4095, 0⟩ ⟨0, 4095⟩ = some (some spans)) ∧
      spans.map Span.y = (List.range 4096).map (fun i : ℕ => (0 : ℤ) + i) ∧
      ∀ span ∈ spans, Good {⟨10, 4095⟩, ⟨4095, 0⟩, ⟨0, 4095⟩} span :=
  fillTriangle_spans ⟨10, 4095⟩ ⟨4095, 0⟩ ⟨0, 4095⟩ (by
    rintro v (rfl | rfl | rfl) <;> exact ⟨by constructor <;> decide, by constructor <;> decide⟩)

end PanelFirmware.Window.FillTriangle
