import PanelFirmware.Lib.Bytes

/-!
# Integers in fixed-width registers

`wrap sg w x` is the value a `w`-bit register holds after the integer `x` is converted to it,
signed (`sg = true`) or unsigned: the representative of `x` modulo `2 ^ w` in the register's
range. `Fits sg w x` says that `x` is in that range; then and only then the conversion is exact
(`wrap_eq_self_iff`). `encode` and `decode` are the register's memory image, low byte first, and
they are inverse to each other on the register's values (`decode_encode`).
-/

namespace PanelFirmware.Lib

/-- The value of a `w`-bit register, signed or not, after a conversion of `x`. -/
def wrap (sg : Bool) (w : ℕ) (x : ℤ) : ℤ :=
  if sg then x.bmod (2 ^ w) else x % 2 ^ w

/-- `x` is a value of the `w`-bit register. -/
def Fits (sg : Bool) (w : ℕ) (x : ℤ) : Prop := wrap sg w x = x

instance (sg : Bool) (w : ℕ) (x : ℤ) : Decidable (Fits sg w x) :=
  inferInstanceAs (Decidable (wrap sg w x = x))

/-- Conversion changes a value by a multiple of `2 ^ w` only. -/
lemma wrap_emod (sg : Bool) (w : ℕ) (x : ℤ) : wrap sg w x % 2 ^ w = x % 2 ^ w := by
  cases sg
  · exact Int.emod_emod_of_dvd x dvd_rfl
  · have h := Int.bmod_emod (x := x) (m := 2 ^ w)
    rw [Nat.cast_pow, Nat.cast_ofNat] at h
    exact h

/-- Conversion reads a value modulo `2 ^ w` only. -/
lemma wrap_congr {sg : Bool} {w : ℕ} {x y : ℤ} (h : x % 2 ^ w = y % 2 ^ w) :
    wrap sg w x = wrap sg w y := by
  cases sg
  · exact h
  · have hcast : ((2 ^ w : ℕ) : ℤ) = 2 ^ w := by push_cast; rfl
    simp only [wrap, if_true, Int.bmod_def, hcast, h]

/-- A converted value is a value of the register. -/
lemma fits_wrap (sg : Bool) (w : ℕ) (x : ℤ) : Fits sg w (wrap sg w x) :=
  wrap_congr (wrap_emod sg w x)

/-- An unsigned register holds the numbers from `0` to `2 ^ w - 1`. -/
lemma fits_unsigned_iff (w : ℕ) (x : ℤ) : Fits false w x ↔ 0 ≤ x ∧ x < 2 ^ w := by
  have hpos : (0 : ℤ) < 2 ^ w := by positivity
  constructor
  · intro h
    rw [← show x % 2 ^ w = x from h]
    exact ⟨Int.emod_nonneg _ hpos.ne', Int.emod_lt_of_pos _ hpos⟩
  · rintro ⟨h0, h1⟩
    exact Int.emod_eq_of_lt h0 h1

/-- A signed register of `w + 1` bits holds the numbers from `-2 ^ w` to `2 ^ w - 1`. -/
lemma fits_signed_iff (w : ℕ) (x : ℤ) : Fits true (w + 1) x ↔ -2 ^ w ≤ x ∧ x < 2 ^ w := by
  have hpos : (0 : ℤ) < 2 ^ w := by positivity
  have hcast : ((2 ^ (w + 1) : ℕ) : ℤ) = 2 * 2 ^ w := by push_cast; ring
  have hunf : Fits true (w + 1) x ↔ x.bmod (2 ^ (w + 1)) = x := Iff.rfl
  rw [hunf]
  constructor
  · intro h
    have hlo := Int.le_bmod (x := x) (m := 2 ^ (w + 1)) (by positivity)
    have hhi := Int.bmod_lt (x := x) (m := 2 ^ (w + 1)) (by positivity)
    rw [h, hcast] at hlo hhi
    omega
  · rintro ⟨h0, h1⟩
    exact Int.bmod_eq_of_le_mul_two (by omega) (by omega)

/-- The values of a register are an interval: whatever lies between two of them is one. -/
lemma Fits.of_between {sg : Bool} {w : ℕ} {x y z : ℤ} (hx : Fits sg w x) (hz : Fits sg w z)
    (hxy : x ≤ y) (hyz : y ≤ z) : Fits sg w y := by
  cases sg
  · rw [fits_unsigned_iff] at *
    omega
  · cases w with
    | zero =>
        have hzero : ∀ v : ℤ, Fits true 0 v → v = 0 := by
          intro v hv
          rw [← show v.bmod 1 = v from hv]
          simp
        rw [hzero x hx] at hxy
        rw [hzero z hz] at hyz
        rw [le_antisymm hyz hxy]
        rfl
    | succ w =>
        rw [fits_signed_iff] at *
        omega

/-- A signed register of `w + 1` bits reads the top bit as the sign. -/
lemma wrap_signed (w : ℕ) (x : ℤ) :
    wrap true (w + 1) x =
      if x % 2 ^ (w + 1) < 2 ^ w then x % 2 ^ (w + 1) else x % 2 ^ (w + 1) - 2 ^ (w + 1) := by
  have hcast : ((2 ^ (w + 1) : ℕ) : ℤ) = 2 * 2 ^ w := by push_cast; ring
  have hpow : (2 : ℤ) ^ (w + 1) = 2 * 2 ^ w := by ring
  have hhalf : (((2 ^ (w + 1) : ℕ) : ℤ) + 1) / 2 = 2 ^ w := by omega
  unfold wrap
  rw [if_pos rfl, Int.bmod_def, hhalf, hcast, hpow]

/-- A number in the period above a signed register's values wraps to one period below itself. -/
lemma wrap_eq_sub {w : ℕ} {x : ℤ} (h0 : 2 ^ w ≤ x) (h1 : x < 3 * 2 ^ w) :
    wrap true (w + 1) x = x - 2 ^ (w + 1) := by
  have hpow : (2 : ℤ) ^ (w + 1) = 2 * 2 ^ w := by ring
  have hfit : Fits true (w + 1) (x - 2 ^ (w + 1)) := (fits_signed_iff w _).mpr (by omega)
  rw [← show wrap true (w + 1) (x - 2 ^ (w + 1)) = x - 2 ^ (w + 1) from hfit]
  exact wrap_congr (by rw [Int.sub_emod_right])

/-- A number at most one period above a signed register's values wraps to itself or to one
period below itself. -/
lemma wrap_eq_or_sub {w : ℕ} {x : ℤ} (h0 : -2 ^ w ≤ x) (h1 : x < 3 * 2 ^ w) :
    wrap true (w + 1) x = x ∨ wrap true (w + 1) x = x - 2 ^ (w + 1) := by
  by_cases hx : x < 2 ^ w
  · exact Or.inl ((fits_signed_iff w x).mpr ⟨h0, hx⟩)
  · exact Or.inr (wrap_eq_sub (not_lt.mp hx) h1)

/-- A number at most one period below a signed register's values wraps to itself or to one
period above itself. -/
lemma wrap_eq_or_add {w : ℕ} {x : ℤ} (h0 : -(3 * 2 ^ w) ≤ x) (h1 : x < 2 ^ w) :
    wrap true (w + 1) x = x ∨ wrap true (w + 1) x = x + 2 ^ (w + 1) := by
  have hpow : (2 : ℤ) ^ (w + 1) = 2 * 2 ^ w := by ring
  by_cases hx : -2 ^ w ≤ x
  · exact Or.inl ((fits_signed_iff w x).mpr ⟨hx, h1⟩)
  · right
    have hfit : Fits true (w + 1) (x + 2 ^ (w + 1)) := (fits_signed_iff w _).mpr (by omega)
    rw [← show wrap true (w + 1) (x + 2 ^ (w + 1)) = x + 2 ^ (w + 1) from hfit]
    exact wrap_congr (by rw [Int.add_emod_right])

/-- The division of C, for a dividend that is not positive. -/
lemma tdiv_of_nonpos {x : ℤ} (h : x ≤ 0) (d : ℤ) : x.tdiv d = -(-x / d) := by
  have hpos := Int.tdiv_eq_ediv_of_nonneg (b := d) (neg_nonneg.mpr h)
  rw [← hpos, Int.neg_tdiv, neg_neg]

/-! ### The memory image -/

/-- The memory image of `x` in a register of `n` bytes. -/
def encode (n : ℕ) (x : ℤ) : List Byte := toBytesLE n (x % 2 ^ (8 * n)).toNat

/-- The value a register of `n` bytes takes from the front of a buffer. -/
def decode (sg : Bool) (n : ℕ) (bs : List Byte) : ℤ := wrap sg (8 * n) (ofBytesLE (bs.take n))

@[simp] lemma length_encode (n : ℕ) (x : ℤ) : (encode n x).length = n := length_toBytesLE _ _

/-- A decoded value is a value of the register. -/
lemma fits_decode (sg : Bool) (n : ℕ) (bs : List Byte) : Fits sg (8 * n) (decode sg n bs) :=
  fits_wrap _ _ _

/-- What the register wrote it reads back, whatever follows in the buffer. -/
theorem decode_encode {sg : Bool} {n : ℕ} {x : ℤ} (h : Fits sg (8 * n) x) (rest : List Byte) :
    decode sg n (encode n x ++ rest) = x := by
  have hpos : (0 : ℤ) < 2 ^ (8 * n) := by positivity
  have hnonneg : 0 ≤ x % 2 ^ (8 * n) := Int.emod_nonneg _ hpos.ne'
  have hlt : (x % 2 ^ (8 * n)).toNat < 256 ^ n := by
    have h256 : (256 : ℕ) ^ n = 2 ^ (8 * n) := by rw [pow_mul]; norm_num
    rw [h256, Int.toNat_lt hnonneg]
    exact_mod_cast Int.emod_lt_of_pos x hpos
  have htake : (encode n x ++ rest).take n = encode n x := by
    rw [List.take_append_of_le_length (by simp), List.take_of_length_le (by simp)]
  rw [decode, htake, encode, ofBytesLE_toBytesLE, Nat.mod_eq_of_lt hlt,
    Int.toNat_of_nonneg hnonneg]
  exact (wrap_congr (Int.emod_emod_of_dvd x dvd_rfl)).trans h

/-- What the register read it writes back: the front of the buffer. -/
theorem encode_decode {sg : Bool} {n : ℕ} {bs : List Byte} (h : n ≤ bs.length) :
    encode n (decode sg n bs) = bs.take n := by
  have hlen : (bs.take n).length = n := by rw [List.length_take]; omega
  have hlt := ofBytesLE_lt (bs.take n)
  have hback := toBytesLE_ofBytesLE (bs.take n)
  rw [hlen] at hlt hback
  have hpow : (256 : ℕ) ^ n = 2 ^ (8 * n) := by rw [pow_mul]; norm_num
  have hmod : (ofBytesLE (bs.take n) : ℤ) % 2 ^ (8 * n) = ofBytesLE (bs.take n) := by
    apply Int.emod_eq_of_lt (by positivity)
    rw [hpow] at hlt
    exact_mod_cast hlt
  rw [encode, decode, wrap_emod, hmod, Int.toNat_natCast, hback]

end PanelFirmware.Lib
