import PanelFirmware.Lib.Bytes

/-!
# Bits packed into bytes

A sequence of bits is packed into bytes in order, least significant bit of each byte first; the
last byte is filled up with zeros.

* `bitOf_packBits`: a bit is found where it was put.
* `packedByte_succ`: a byte grows by one bit at a time, with `or` and `and not` of the bit's mask;
  `packBits_of_mod`, `packBits_of_mod_ne`: the whole bytes and the one in the making.
-/

namespace PanelFirmware.Lib

/-- The byte `i` of the first `n` bits of a sequence. -/
def packedByte (f : ℕ → Bool) (n i : ℕ) : Byte :=
  BitVec.ofFnLE fun k : Fin 8 => decide (8 * i + k < n) && f (8 * i + k)

/-- The bytes of the first `n` bits of a sequence. -/
def packBits (f : ℕ → Bool) (n : ℕ) : List Byte :=
  (List.range ((n + 7) / 8)).map (packedByte f n)

/-- The bit `j` of a table of bytes. -/
def bitOf (bytes : ℕ → Byte) (j : ℕ) : Bool := (bytes (j / 8)).getLsbD (j % 8)

variable {f : ℕ → Bool}

/-- The bits of a byte. -/
lemma getLsbD_packedByte (f : ℕ → Bool) (n i : ℕ) {k : ℕ} (hk : k < 8) :
    (packedByte f n i).getLsbD k = (decide (8 * i + k < n) && f (8 * i + k)) := by
  rw [packedByte, BitVec.getLsbD_ofFnLE, dif_pos hk]

/-- As many bytes as are begun. -/
@[simp] lemma length_packBits (f : ℕ → Bool) (n : ℕ) : (packBits f n).length = (n + 7) / 8 := by
  rw [packBits, List.length_map, List.length_range]

/-- **A bit is found where it was put.** -/
theorem bitOf_packBits {bytes : ℕ → Byte} {n : ℕ}
    (h : ∀ i, i < (n + 7) / 8 → bytes i = packedByte f n i) {j : ℕ} (hj : j < n) :
    bitOf bytes j = f j := by
  have hsplit : 8 * (j / 8) + j % 8 = j := Nat.div_add_mod j 8
  rw [bitOf, h (j / 8) (by omega), getLsbD_packedByte f n (j / 8) (Nat.mod_lt j (by decide)),
    hsplit, decide_eq_true hj, Bool.true_and]

/-! ### A bit at a time -/

/-- A byte that is full does not change any more. -/
lemma packedByte_of_le {n m i : ℕ} (hn : 8 * i + 8 ≤ n) (hm : 8 * i + 8 ≤ m) :
    packedByte f n i = packedByte f m i := by
  apply BitVec.eq_of_getLsbD_eq
  intro k hk
  rw [getLsbD_packedByte f n i hk, getLsbD_packedByte f m i hk,
    decide_eq_true (by omega : 8 * i + k < n), decide_eq_true (by omega : 8 * i + k < m)]

/-- A byte does not depend on the bits behind it. -/
lemma packedByte_min (f : ℕ → Bool) (n i : ℕ) :
    packedByte f (min n (8 * i + 8)) i = packedByte f n i := by
  apply BitVec.eq_of_getLsbD_eq
  intro k hk
  rw [getLsbD_packedByte f _ i hk, getLsbD_packedByte f n i hk,
    decide_eq_decide.mpr (by omega : 8 * i + k < min n (8 * i + 8) ↔ 8 * i + k < n)]

/-- A byte that has not been begun is zero. -/
lemma packedByte_of_ge {n i : ℕ} (h : n ≤ 8 * i) : packedByte f n i = 0#8 := by
  apply BitVec.eq_of_getLsbD_eq
  intro k hk
  rw [getLsbD_packedByte f n i hk, decide_eq_false (by omega), Bool.false_and,
    BitVec.getLsbD_zero]

/-- The mask of a bit. -/
lemma getLsbD_mask {j k : ℕ} (hk : k < 8) : (1#8 <<< j).getLsbD k = decide (k = j) := by
  rw [BitVec.getLsbD_shiftLeft, BitVec.getLsbD_one, decide_eq_true hk]
  by_cases h : k = j
  · rw [h]
    simp
  · rw [decide_eq_false h]
    by_cases hlt : k < j
    · simp [hlt]
    · simp [hlt]
      omega

/-- **A byte grows by a bit.** -/
theorem packedByte_succ (f : ℕ → Bool) (n : ℕ) :
    packedByte f (n + 1) (n / 8) =
      if f n then packedByte f n (n / 8) ||| 1#8 <<< (n % 8)
      else packedByte f n (n / 8) &&& ~~~(1#8 <<< (n % 8)) := by
  have hsplit : 8 * (n / 8) + n % 8 = n := Nat.div_add_mod n 8
  apply BitVec.eq_of_getLsbD_eq
  intro k hk
  rw [getLsbD_packedByte f (n + 1) (n / 8) hk]
  by_cases hbit : k = n % 8
  · -- the new bit
    have hj : 8 * (n / 8) + k = n := by omega
    rw [hj]
    cases hf : f n with
    | true =>
        rw [if_pos rfl, BitVec.getLsbD_or, getLsbD_mask hk, decide_eq_true hbit, Bool.or_true]
        simp
    | false =>
        rw [if_neg Bool.false_ne_true, BitVec.getLsbD_and, BitVec.getLsbD_not, getLsbD_mask hk,
          decide_eq_true hbit]
        simp
  · -- the others
    have hiff : 8 * (n / 8) + k < n + 1 ↔ 8 * (n / 8) + k < n := by omega
    rw [decide_eq_decide.mpr hiff]
    cases hf : f n with
    | true =>
        rw [if_pos rfl, BitVec.getLsbD_or, getLsbD_mask hk, decide_eq_false hbit, Bool.or_false,
          getLsbD_packedByte f n (n / 8) hk]
    | false =>
        rw [if_neg Bool.false_ne_true, BitVec.getLsbD_and, BitVec.getLsbD_not, getLsbD_mask hk,
          decide_eq_false hbit, getLsbD_packedByte f n (n / 8) hk, decide_eq_true hk]
        simp

/-- The bytes that are full. -/
def wholeBytes (f : ℕ → Bool) (n : ℕ) : List Byte := (List.range (n / 8)).map (packedByte f n)

/-- Bits that fill their bytes. -/
lemma packBits_of_mod {n : ℕ} (h : n % 8 = 0) : packBits f n = wholeBytes f n := by
  rw [packBits, wholeBytes, show (n + 7) / 8 = n / 8 by omega]

/-- Bits that leave a byte in the making. -/
lemma packBits_of_mod_ne {n : ℕ} (h : n % 8 ≠ 0) :
    packBits f n = wholeBytes f n ++ [packedByte f n (n / 8)] := by
  rw [packBits, wholeBytes, show (n + 7) / 8 = n / 8 + 1 by omega, List.range_succ, List.map_append,
    List.map_singleton]

/-- A bit that fills its byte. -/
lemma wholeBytes_succ_of_mod {n : ℕ} (h : n % 8 = 7) :
    wholeBytes f (n + 1) = wholeBytes f n ++ [packedByte f (n + 1) (n / 8)] := by
  rw [wholeBytes, wholeBytes, show (n + 1) / 8 = n / 8 + 1 by omega, List.range_succ,
    List.map_append, List.map_singleton]
  congr 1
  refine List.map_congr_left fun i hi => ?_
  have hlt := List.mem_range.mp hi
  exact packedByte_of_le (by omega) (by omega)

/-- A bit that does not. -/
lemma wholeBytes_succ_of_mod_ne {n : ℕ} (h : n % 8 ≠ 7) :
    wholeBytes f (n + 1) = wholeBytes f n := by
  rw [wholeBytes, wholeBytes, show (n + 1) / 8 = n / 8 by omega]
  refine List.map_congr_left fun i hi => ?_
  have hlt := List.mem_range.mp hi
  exact packedByte_of_le (by omega) (by omega)

end PanelFirmware.Lib
