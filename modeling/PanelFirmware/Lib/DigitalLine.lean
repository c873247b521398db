import Mathlib

/-!
# Digital lines

A line that goes `M` points along one axis and `m ≤ M` points along the other, drawn with the point
nearest to it for each of the `M + 1` places of the long axis.

* `minor`: how far the line is along the short axis; `minor_succ`: it moves where `excess`, a sum of
  multiples of `M` and `m`, is small.
* `excess_le_peak`, `exists_peak`: the greatest value of the excess, which is determined by the
  residues of the multiples of `m` modulo `M`.
* `IsPath`: paths from point to neighbouring point; `IsPath.inj_of_far`: a path that is as long as
  its ends are apart never stands still along that axis.
-/

namespace PanelFirmware.Lib.DigitalLine

section Line

variable {M m k : ℕ}

/-- The place along the short axis, the nearest to the line; of two the one nearer to the start. -/
def minor (M m k : ℕ) : ℕ := (2 * (m * k) + M - 1) / (2 * M)

/-- How far the line is from a move along the short axis, in units of `1 / (2 * M)` points. -/
def excess (M m k : ℕ) : ℤ := M * (1 + minor M m k) - m * (1 + k)

/-- The greatest value of twice the excess. -/
def peak (M m : ℕ) : ℕ := 2 * (M - m) + 2 * (M.gcd m * ((M / M.gcd m - 1) / 2))

/-- The place is the nearest. -/
lemma minor_spec (hM : 0 < M) (k : ℕ) :
    2 * (M * minor M m k) + 1 ≤ 2 * (m * k) + M ∧
      2 * (m * k) + M ≤ 2 * (M * minor M m k) + 2 * M := by
  have hle := Nat.mul_div_le (2 * (m * k) + M - 1) (2 * M)
  have hlt := Nat.lt_mul_div_succ (2 * (m * k) + M - 1) (show 0 < 2 * M by omega)
  rw [← minor, Nat.mul_assoc] at hle hlt
  rw [Nat.mul_add M, Nat.mul_one] at hlt
  omega

/-- The nearest place is this one. -/
lemma minor_eq {v : ℕ} (h0 : 2 * (M * v) + 1 ≤ 2 * (m * k) + M)
    (h1 : 2 * (m * k) + M ≤ 2 * (M * v) + 2 * M) : minor M m k = v := by
  refine Nat.div_eq_of_lt_le ?_ ?_
  · rw [Nat.mul_comm v, Nat.mul_assoc]
    omega
  · rw [Nat.mul_comm (v + 1), Nat.mul_assoc, Nat.mul_add M, Nat.mul_one]
    omega

/-- A line without extent stays where it is. -/
lemma minor_of_zero (m k : ℕ) : minor 0 m k = 0 := by
  rw [minor, Nat.mul_zero, Nat.div_zero]

/-- The line begins at its start. -/
lemma minor_zero (M m : ℕ) : minor M m 0 = 0 := by
  rcases Nat.eq_zero_or_pos M with rfl | hM
  · exact minor_of_zero m 0
  · exact minor_eq (by omega) (by omega)

/-- The line comes to its end. -/
lemma minor_last (hm : m ≤ M) : minor M m M = m := by
  rcases Nat.eq_zero_or_pos M with rfl | hM
  · rw [minor_of_zero]
    omega
  · exact minor_eq (by rw [Nat.mul_comm M m]; omega) (by rw [Nat.mul_comm M m]; omega)

/-- The line stays between its ends. -/
lemma minor_le (hk : k ≤ M) : minor M m k ≤ m := by
  rcases Nat.eq_zero_or_pos M with rfl | hM
  · rw [minor_of_zero]
    exact Nat.zero_le m
  by_contra hgt
  have hspec := (minor_spec (m := m) hM k).1
  have hup : M * (m + 1) ≤ M * minor M m k := Nat.mul_le_mul_left M (by omega)
  have hdown : m * k ≤ m * M := Nat.mul_le_mul_left m hk
  rw [Nat.mul_add, Nat.mul_one, Nat.mul_comm M m] at hup
  omega

/-- The excess in terms of the distance to the line. -/
lemma excess_eq (M m k : ℕ) :
    excess M m k = (M - m : ℤ) + ((M * minor M m k : ℕ) - (m * k : ℕ) : ℤ) := by
  rw [excess]
  push_cast
  ring

/-- **A move along the short axis** is made where twice the excess is less than `M`. -/
theorem minor_succ (hM : 0 < M) (hm : m ≤ M) (k : ℕ) :
    minor M m (k + 1) = if 2 * excess M m k < M then minor M m k + 1 else minor M m k := by
  obtain ⟨h0, h1⟩ := minor_spec (m := m) hM k
  have hnext : m * (k + 1) = m * k + m := Nat.mul_succ m k
  have hmove : M * (minor M m k + 1) = M * minor M m k + M := Nat.mul_succ M _
  have hexcess := excess_eq M m k
  split_ifs with h
  · exact minor_eq (by omega) (by omega)
  · exact minor_eq (by omega) (by omega)

/-- The excess is never so small that the line does not move along the long axis. -/
lemma neg_lt_excess (hM : 0 < M) (hm : m ≤ M) (k : ℕ) : -(m : ℤ) < 2 * excess M m k := by
  obtain ⟨h0, h1⟩ := minor_spec (m := m) hM k
  have hexcess := excess_eq M m k
  rcases hm.lt_or_eq with hlt | rfl
  · omega
  · have hdiag : minor m m k = k := minor_eq (by omega) (by omega)
    rw [hdiag] at hexcess
    omega

/-- The extents without their greatest common divisor. -/
lemma exists_factors (hM : 0 < M) (m : ℕ) :
    ∃ g M' m', 0 < g ∧ Nat.Coprime M' m' ∧ M = g * M' ∧ m = g * m' ∧
      peak M m = 2 * (M - m) + 2 * (g * ((M' - 1) / 2)) := by
  have hg : 0 < M.gcd m := Nat.gcd_pos_of_pos_left m hM
  obtain ⟨M', m', hcop, hM', hm'⟩ := Nat.exists_coprime M m
  have hdiv : M / M.gcd m = M' := Nat.div_eq_of_eq_mul_left hg hM'
  refine ⟨M.gcd m, M', m', hg, hcop, hM'.trans (Nat.mul_comm _ _), hm'.trans (Nat.mul_comm _ _), ?_⟩
  rw [peak, hdiv]

/-- The peak is less than three times the long extent. -/
lemma peak_le (M m : ℕ) : peak M m ≤ 3 * M := by
  have hhalf : M.gcd m * ((M / M.gcd m - 1) / 2) * 2 ≤ M := by
    rw [Nat.mul_assoc]
    calc M.gcd m * ((M / M.gcd m - 1) / 2 * 2) ≤ M.gcd m * (M / M.gcd m) :=
          Nat.mul_le_mul_left _ ((Nat.div_mul_le_self _ 2).trans (Nat.sub_le _ 1))
      _ ≤ M := Nat.mul_div_le M _
  rw [peak]
  omega

/-- **The peak** bounds the excess: the distance to the line is a multiple of the greatest common
divisor of the extents. -/
theorem excess_le_peak (hM : 0 < M) (hm : m ≤ M) (k : ℕ) : 2 * excess M m k ≤ peak M m := by
  obtain ⟨g, M', m', hg, -, hM', hm', hpeak⟩ := exists_factors hM m
  have h0 := (minor_spec (m := m) hM k).1
  obtain ⟨r, hr⟩ : ∃ r : ℤ, ((M * minor M m k : ℕ) - (m * k : ℕ) : ℤ) = g * r := by
    refine ⟨M' * minor M m k - m' * k, ?_⟩
    have hMq : (M : ℤ) = g * M' := by exact_mod_cast hM'
    have hmq : (m : ℤ) = g * m' := by exact_mod_cast hm'
    rw [Nat.cast_mul, Nat.cast_mul, hMq, hmq]
    ring
  have hlt : g * (2 * r) < g * (M' : ℤ) := by
    have hMq : (g : ℤ) * M' = M := by exact_mod_cast hM'.symm
    rw [hMq, show (g : ℤ) * (2 * r) = 2 * (g * r) by ring, ← hr]
    omega
  have hr1 : r ≤ ((M' - 1) / 2 : ℕ) := by
    have hlt' := lt_of_mul_lt_mul_left hlt (Int.natCast_nonneg g)
    omega
  have hgr : (g : ℤ) * r ≤ (g * ((M' - 1) / 2) : ℕ) := by
    rw [Nat.cast_mul]
    exact mul_le_mul_of_nonneg_left hr1 (Int.natCast_nonneg g)
  rw [hpeak, excess_eq, hr]
  push_cast [Nat.cast_sub hm] at hgr ⊢
  omega

/-- **The peak is met** before the end of the line: the multiples of the short extent go through
all residues that they can have. -/
theorem exists_peak (hM : 0 < M) (hm : m ≤ M) : ∃ k < M, 2 * excess M m k = peak M m := by
  obtain ⟨g, M', m', hg, hcop, hM', hm', hpeak⟩ := exists_factors hM m
  have hM'pos : 0 < M' := Nat.pos_of_ne_zero fun h => by
    rw [hM', h, Nat.mul_zero] at hM
    exact lt_irrefl 0 hM
  obtain ⟨t, ht⟩ : ∃ t, t = (M' - 1) / 2 := ⟨_, rfl⟩
  obtain ⟨k, hk, hmod⟩ := Nat.exists_mul_mod_eq_of_coprime (M' - t) hcop.symm hM'pos.ne'
  -- the multiple is short of a multiple of `M'` by the distance that is looked for
  obtain ⟨v, hv⟩ : M' ∣ m' * k + t := by
    have h := (Nat.ModEq.add_right t hmod : (m' * k + t) ≡ (M' - t + t) [MOD M'])
    rw [Nat.sub_add_cancel (by omega)] at h
    exact (Nat.modEq_zero_iff_dvd).mp (h.trans (by simp [Nat.ModEq]))
  have hdist : M * v = m * k + g * t := by
    rw [hM', hm', Nat.mul_assoc, ← hv]
    ring
  have hgt : 2 * (g * t) + g ≤ M := by
    rw [hM']
    calc 2 * (g * t) + g = g * (2 * t + 1) := by ring
      _ ≤ g * M' := Nat.mul_le_mul_left g (by omega)
  have hminor : minor M m k = v := minor_eq (by omega) (by omega)
  refine ⟨k, hk.trans_le ?_, ?_⟩
  · rw [hM']
    exact Nat.le_mul_of_pos_left M' hg
  · rw [hpeak, excess_eq, hminor, hdist, ← ht]
    push_cast [Nat.cast_sub hm]
    ring

end Line

/-! ### Paths -/

/-- Two points are neighbours, along an axis or a diagonal. -/
def Adjacent (p q : ℤ × ℤ) : Prop := p ≠ q ∧ |q.1 - p.1| ≤ 1 ∧ |q.2 - p.2| ≤ 1

/-- A path of `n + 1` different points from one to another. -/
structure IsPath (n : ℕ) (path : ℕ → ℤ × ℤ) (p q : ℤ × ℤ) : Prop where
  first : path 0 = p
  last : path n = q
  adjacent : ∀ k < n, Adjacent (path k) (path (k + 1))
  nodup : ∀ i ≤ n, ∀ j ≤ n, path i = path j → i = j

/-- Numbers that change by one at most come no farther than the number of their changes. -/
lemma abs_sub_le {f : ℕ → ℤ} {n : ℕ} (hstep : ∀ k < n, |f (k + 1) - f k| ≤ 1) {i j : ℕ}
    (hij : i ≤ j) (hj : j ≤ n) : |f j - f i| ≤ j - i := by
  induction j, hij using Nat.le_induction with
  | base => rw [sub_self, abs_zero, sub_self]
  | succ j hij ih =>
      have hlast := hstep j hj
      have hrest := ih (by omega)
      calc |f (j + 1) - f i| = |(f (j + 1) - f j) + (f j - f i)| := by rw [sub_add_sub_cancel]
        _ ≤ |f (j + 1) - f j| + |f j - f i| := abs_add_le _ _
        _ ≤ 1 + (j - i) := add_le_add hlast hrest
        _ = ((j + 1 : ℕ) : ℤ) - i := by
          push_cast
          ring

/-- **No place twice.** Numbers that change by one at most and come as far as they can are never the
same. -/
theorem inj_of_far {f : ℕ → ℤ} {n : ℕ} (hstep : ∀ k < n, |f (k + 1) - f k| ≤ 1)
    (hfar : |f n - f 0| = n) {i j : ℕ} (hi : i ≤ n) (hj : j ≤ n) (h : f i = f j) : i = j := by
  -- going from the earlier to the later takes nothing off the way that is left
  have hle : ∀ i j, i ≤ j → j ≤ n → f i = f j → i = j := by
    intro i j hij hj h
    have hbefore := abs_sub_le hstep (Nat.zero_le i) (hij.trans hj)
    have hafter := abs_sub_le hstep hj le_rfl
    have hsum : |f n - f 0| ≤ |f n - f j| + |f i - f 0| := by
      rw [h, ← sub_add_sub_cancel (f n) (f j) (f 0)]
      exact abs_add_le _ _
    rw [hfar] at hsum
    push_cast at hbefore
    omega
  rcases le_total i j with hij | hij
  · exact hle i j hij hj h
  · exact (hle j i hij hi h.symm).symm

/-- **A path without detours.** A path that is as long as its ends are apart along an axis has its
points at different places of this axis. -/
theorem IsPath.inj_of_far {n : ℕ} {path : ℕ → ℤ × ℤ} {p q : ℤ × ℤ} (h : IsPath n path p q)
    {f : ℤ × ℤ → ℤ} (hf : ∀ u v, Adjacent u v → |f v - f u| ≤ 1) (hfar : |f q - f p| = n)
    {i j : ℕ} (hi : i ≤ n) (hj : j ≤ n) (heq : f (path i) = f (path j)) : path i = path j := by
  have hends : |f (path n) - f (path 0)| = n := by rw [h.last, h.first, hfar]
  have hij := DigitalLine.inj_of_far (f := fun k => f (path k))
    (fun k hk => hf _ _ (h.adjacent k hk)) hends hi hj heq
  rw [hij]

end PanelFirmware.Lib.DigitalLine
