import PanelFirmware.Lib.Bytes

/-!
# Reflected cyclic redundancy codes of any width

A reflected CRC of width `w` with (reflected) polynomial `poly` is a linear shift register: one
bit is compared with the low bit of the state, the state moves down one place, and `poly` is
added when the two differ (`bitStep`).

* `bitSteps_xor`: the register is linear over exclusive or, in the state and in the bits fed.
* `byteStep_eq_table`: a byte at a time from a table of 256 words is the same register, when the
  table's word for `i` is the register's answer to `i` from the zero state.
* `bitSteps_lowBits`: fed its own low bits the state only moves down, so that a message followed
  by its own check value leaves the zero state (`byteSteps_toBytesLE`).
* `bitSteps_burst_ne_zero`: with the top bit of `poly` set, no error whose set bits fit in a
  window of `w` consecutive bits leaves the zero state.
-/

namespace PanelFirmware.Lib

variable {w : ℕ} (poly : BitVec w)

/-! ### The register -/

/-- One bit into the register. -/
def bitStep (s : BitVec w) (b : Bool) : BitVec w :=
  if xor (s.getLsbD 0) b then (s >>> 1) ^^^ poly else s >>> 1

/-- A list of bits into the register, first bit first. -/
def bitSteps (s : BitVec w) (bs : List Bool) : BitVec w := bs.foldl (bitStep poly) s

/-- One byte into the register, least significant bit first. -/
def byteStep (s : BitVec w) (b : Byte) : BitVec w := bitSteps poly s (lowBits 8 b)

/-- A buffer into the register. -/
def byteSteps (s : BitVec w) (bs : List Byte) : BitVec w := bs.foldl (byteStep poly) s

@[simp] lemma bitSteps_nil (s : BitVec w) : bitSteps poly s [] = s := rfl

@[simp] lemma bitSteps_cons (s : BitVec w) (b : Bool) (bs : List Bool) :
    bitSteps poly s (b :: bs) = bitSteps poly (bitStep poly s b) bs := rfl

lemma bitSteps_append (s : BitVec w) (bs cs : List Bool) :
    bitSteps poly s (bs ++ cs) = bitSteps poly (bitSteps poly s bs) cs :=
  List.foldl_append

@[simp] lemma byteSteps_nil (s : BitVec w) : byteSteps poly s [] = s := rfl

@[simp] lemma byteSteps_cons (s : BitVec w) (b : Byte) (bs : List Byte) :
    byteSteps poly s (b :: bs) = byteSteps poly (byteStep poly s b) bs := rfl

lemma byteSteps_append (s : BitVec w) (bs cs : List Byte) :
    byteSteps poly s (bs ++ cs) = byteSteps poly (byteSteps poly s bs) cs :=
  List.foldl_append

/-- The register reads a buffer as the string of its bits. -/
lemma byteSteps_eq_bitSteps (s : BitVec w) (bs : List Byte) :
    byteSteps poly s bs = bitSteps poly s (bytesBits bs) := by
  induction bs generalizing s with
  | nil => rfl
  | cons b bs ih => rw [byteSteps_cons, ih, bytesBits_cons, bitSteps_append, byteStep]

/-! ### Linearity -/

/-- One step is linear over exclusive or. -/
lemma bitStep_xor (s t : BitVec w) (a b : Bool) :
    bitStep poly (s ^^^ t) (xor a b) = bitStep poly s a ^^^ bitStep poly t b := by
  have hbit : xor ((s ^^^ t).getLsbD 0) (xor a b)
      = xor (xor (s.getLsbD 0) a) (xor (t.getLsbD 0) b) := by
    rw [BitVec.getLsbD_xor]
    cases s.getLsbD 0 <;> cases t.getLsbD 0 <;> cases a <;> cases b <;> rfl
  unfold bitStep
  rw [hbit, BitVec.ushiftRight_xor_distrib]
  cases xor (s.getLsbD 0) a <;> cases xor (t.getLsbD 0) b
  · simp
  · simp [BitVec.xor_assoc]
  · simp only [Bool.true_xor, Bool.not_false, if_true, Bool.false_eq_true, if_false]
    ac_rfl
  · have hcancel : s >>> 1 ^^^ poly ^^^ (t >>> 1 ^^^ poly) = s >>> 1 ^^^ t >>> 1 := by
      rw [BitVec.xor_assoc, ← BitVec.xor_assoc poly, BitVec.xor_comm poly, BitVec.xor_assoc,
        BitVec.xor_self, BitVec.xor_zero]
    simp [hcancel]

/-- A run of the register is linear over exclusive or. -/
lemma bitSteps_xor (s t : BitVec w) {bs cs : List Bool} (h : cs.length = bs.length) :
    bitSteps poly (s ^^^ t) (List.zipWith xor bs cs)
      = bitSteps poly s bs ^^^ bitSteps poly t cs := by
  induction bs generalizing s t cs with
  | nil =>
      obtain rfl : cs = [] := List.length_eq_zero_iff.mp h
      rfl
  | cons b bs ih =>
      cases cs with
      | nil => simp at h
      | cons c cs =>
          have hlen : cs.length = bs.length := by simpa using h
          simp only [List.zipWith_cons_cons, bitSteps_cons, bitStep_xor, ih _ _ hlen]

/-- An error pattern acts on the register from the zero state, whatever it is added to. -/
lemma byteSteps_xorBytes (s : BitVec w) {bs es : List Byte} (h : es.length = bs.length) :
    byteSteps poly s (xorBytes bs es) = byteSteps poly s bs ^^^ byteSteps poly 0#w es := by
  have hlen : (bytesBits es).length = (bytesBits bs).length := by simp [h]
  have hlin := bitSteps_xor poly s 0#w hlen
  rw [BitVec.xor_zero] at hlin
  rw [byteSteps_eq_bitSteps, byteSteps_eq_bitSteps, byteSteps_eq_bitSteps, bytesBits_xorBytes h,
    hlin]

/-- The zero state stays put on clear bits. -/
lemma bitSteps_zero_of_clear {bs : List Bool} (h : ∀ b ∈ bs, b = false) :
    bitSteps poly 0#w bs = 0#w := by
  induction bs with
  | nil => rfl
  | cons b bs ih =>
      simp only [List.mem_cons, forall_eq_or_imp] at h
      have hstep : bitStep poly 0#w b = 0#w := by simp [bitStep, h.1]
      rw [bitSteps_cons, hstep, ih h.2]

/-! ### The register fed its own state, and the table -/

/-- Fed its own low bits the register only shifts. -/
lemma bitSteps_lowBits (n : ℕ) (s : BitVec w) : bitSteps poly s (lowBits n s) = s >>> n := by
  induction n generalizing s with
  | zero => simp [lowBits]
  | succ n ih =>
      have hstep : bitStep poly s (s.getLsbD 0) = s >>> 1 := by simp [bitStep]
      rw [lowBits, bitSteps_cons, hstep, ih, ← BitVec.shiftRight_add, Nat.add_comm]

/-- **A byte at a time from a table**: the register's answer to `b` is the table's word for the
low byte of the state against `b`, added to the state moved down eight places. -/
theorem byteStep_eq_table (s : BitVec w) (b : Byte) :
    byteStep poly s b = (s >>> 8) ^^^ byteStep poly 0#w (s.setWidth 8 ^^^ b) := by
  have hlow : lowBits 8 (s.setWidth 8) = lowBits 8 s := by
    apply lowBits_congr
    intro i hi
    simp [hi]
  have hb : b = s.setWidth 8 ^^^ (s.setWidth 8 ^^^ b) := by
    rw [← BitVec.xor_assoc, BitVec.xor_self, BitVec.zero_xor]
  have hbits : lowBits 8 b
      = List.zipWith xor (lowBits 8 s) (lowBits 8 (s.setWidth 8 ^^^ b)) := by
    conv_lhs => rw [hb]
    rw [lowBits_xor, hlow]
  have hlen : (lowBits 8 (s.setWidth 8 ^^^ b)).length = (lowBits 8 s).length := by simp
  have hlin := bitSteps_xor poly s 0#w hlen
  rw [BitVec.xor_zero, bitSteps_lowBits] at hlin
  unfold byteStep
  rw [hbits, hlin]

/-- **The residue**: a state followed by its own little-endian bytes is the zero state. -/
theorem byteSteps_toBytesLE {k : ℕ} (hw : w = 8 * k) (s : BitVec w) :
    byteSteps poly s (toBytesLE k s.toNat) = 0#w := by
  rw [byteSteps_eq_bitSteps, bytesBits_toBytesLE, bitSteps_lowBits]
  apply BitVec.eq_of_toNat_eq
  have hlt : s.toNat < 2 ^ (8 * k) := hw ▸ s.isLt
  simp [BitVec.toNat_ushiftRight, Nat.shiftRight_eq_div_pow, Nat.div_eq_of_lt hlt]

/-! ### Error bursts -/

/-- The number a list of bits denotes, first bit least significant. -/
def bitsNat : List Bool → ℕ
  | [] => 0
  | b :: bs => b.toNat + 2 * bitsNat bs

/-- `n` bits denote a number below `2 ^ n`. -/
lemma bitsNat_lt (bs : List Bool) : bitsNat bs < 2 ^ bs.length := by
  induction bs with
  | nil => simp [bitsNat]
  | cons b bs ih =>
      have hb : b.toNat ≤ 1 := Bool.toNat_le b
      simp only [bitsNat, List.length_cons, pow_succ]
      omega

/-- Only clear bits denote zero. -/
lemma clear_of_bitsNat_eq_zero {bs : List Bool} (h : bitsNat bs = 0) : ∀ b ∈ bs, b = false := by
  induction bs with
  | nil => simp
  | cons b bs ih =>
      simp only [bitsNat] at h
      have hb : b.toNat = 0 := by omega
      have hrest : bitsNat bs = 0 := by omega
      have hb' : b = false := Bool.toNat_eq_zero.mp hb
      simpa [hb'] using ih hrest

variable {poly}

/-- One step read backwards: with the top bit of `poly` set, a next state whose top bit is clear
came about by a plain shift, from a state whose low bit was the bit fed. -/
lemma toNat_of_bitStep_lt (hp : poly.msb = true) (s : BitVec w) (b : Bool)
    (h : (bitStep poly s b).toNat < 2 ^ (w - 1)) :
    s.toNat = b.toNat + 2 * (bitStep poly s b).toNat := by
  have hw : 0 < w := by
    rcases Nat.eq_zero_or_pos w with rfl | hw
    · simp [BitVec.msb, BitVec.getMsbD] at hp
    · exact hw
  have hmsb : (bitStep poly s b).getLsbD (w - 1) = false := Nat.testBit_lt_two_pow h
  have hshift : (s >>> 1).getLsbD (w - 1) = false := by
    rw [BitVec.getLsbD_ushiftRight]
    exact BitVec.getLsbD_of_ge s _ (by omega)
  have hpoly : poly.getLsbD (w - 1) = true := by rwa [BitVec.msb_eq_getLsbD_last] at hp
  by_cases hfb : xor (s.getLsbD 0) b = true
  · rw [bitStep, if_pos hfb, BitVec.getLsbD_xor, hshift, hpoly] at hmsb
    exact absurd hmsb (by decide)
  · have hlow : s.getLsbD 0 = b := by
      by_contra hne
      exact hfb (Bool.xor_iff_ne.mpr hne)
    have hodd : s.toNat % 2 = b.toNat := by
      rw [← hlow, BitVec.getLsbD, Nat.testBit_zero]
      rcases Nat.mod_two_eq_zero_or_one s.toNat with h0 | h1
      · simp [h0]
      · simp [h1]
    rw [bitStep, if_neg hfb, BitVec.toNat_ushiftRight, Nat.shiftRight_eq_div_pow, ← hodd]
    omega

/-- A state that at most `w` bits drive to zero is the number those bits denote. -/
lemma toNat_of_bitSteps_eq_zero (hp : poly.msb = true) (bs : List Bool) (s : BitVec w)
    (hlen : bs.length ≤ w) (h : bitSteps poly s bs = 0#w) : s.toNat = bitsNat bs := by
  induction bs generalizing s with
  | nil => simp [show s = 0#w from h, bitsNat]
  | cons b bs ih =>
      rw [List.length_cons] at hlen
      have hnext : (bitStep poly s b).toNat = bitsNat bs := ih _ (by omega) h
      have hlt : (bitStep poly s b).toNat < 2 ^ (w - 1) := by
        rw [hnext]
        exact (bitsNat_lt bs).trans_le (Nat.pow_le_pow_right (by omega) (by omega))
      rw [toNat_of_bitStep_lt hp s b hlt, hnext, bitsNat]

/-- The bits of a vector denote its value modulo their number. -/
lemma bitsNat_lowBits_append {v : ℕ} (n : ℕ) (s : BitVec v) (bs : List Bool) :
    bitsNat (lowBits n s ++ bs) = s.toNat % 2 ^ n + 2 ^ n * bitsNat bs := by
  induction n generalizing s with
  | zero => simp [lowBits, Nat.mod_one]
  | succ n ih =>
      have hlow : (s.getLsbD 0).toNat = s.toNat % 2 := by
        rw [BitVec.getLsbD, Nat.testBit_zero]
        rcases Nat.mod_two_eq_zero_or_one s.toNat with h0 | h1
        · simp [h0]
        · simp [h1]
      have hdiv : (s >>> 1).toNat = s.toNat / 2 := by
        rw [BitVec.toNat_ushiftRight, Nat.shiftRight_eq_div_pow, pow_one]
      rw [lowBits, List.cons_append, bitsNat, ih, hdiv, hlow, pow_succ, Nat.mul_comm (2 ^ n) 2,
        Nat.mod_mul]
      ring

/-- The bits of a buffer denote the number the buffer denotes. -/
lemma bitsNat_bytesBits (bs : List Byte) : bitsNat (bytesBits bs) = ofBytesLE bs := by
  induction bs with
  | nil => rfl
  | cons b bs ih =>
      rw [bytesBits_cons, bitsNat_lowBits_append, ih, ofBytesLE, Nat.mod_eq_of_lt b.isLt]
      rfl

/-- **The residue, both ways**: with the top bit of `poly` set, as many bytes as the state is wide
drive it to zero exactly when they are its own bytes, low byte first. -/
theorem byteSteps_eq_zero_iff (hp : poly.msb = true) {k : ℕ} (hw : w = 8 * k) (s : BitVec w)
    {bs : List Byte} (hlen : bs.length = k) :
    byteSteps poly s bs = 0#w ↔ bs = toBytesLE k s.toNat := by
  constructor
  · intro hzero
    rw [byteSteps_eq_bitSteps] at hzero
    have hnum : s.toNat = ofBytesLE bs := by
      rw [← bitsNat_bytesBits]
      exact toNat_of_bitSteps_eq_zero hp _ s (by simp [hlen, hw]) hzero
    rw [hnum, ← hlen, toBytesLE_ofBytesLE]
  · rintro rfl
    exact byteSteps_toBytesLE poly hw s

/-- With the top bit of `poly` set, clear bits never drive a non-zero state to zero. -/
lemma bitSteps_clear_ne_zero (hp : poly.msb = true) {bs : List Bool} {s : BitVec w}
    (hclear : ∀ b ∈ bs, b = false) (hs : s ≠ 0#w) : bitSteps poly s bs ≠ 0#w := by
  induction bs generalizing s with
  | nil => simpa using hs
  | cons b bs ih =>
      simp only [List.mem_cons, forall_eq_or_imp] at hclear
      apply ih hclear.2
      intro hzero
      have hback := toNat_of_bitStep_lt hp s b (by simp [hzero])
      rw [hzero, hclear.1] at hback
      exact hs (BitVec.eq_of_toNat_eq (by simpa using hback))

/-- With the top bit of `poly` set, at most `w` bits, not all clear, do not leave the zero state. -/
lemma bitSteps_ne_zero_of_mem (hp : poly.msb = true) {bs : List Bool} (hlen : bs.length ≤ w)
    (hset : true ∈ bs) : bitSteps poly 0#w bs ≠ 0#w := by
  intro hzero
  have hnum := toNat_of_bitSteps_eq_zero hp bs _ hlen hzero
  have hclear : ∀ b ∈ bs, b = false := clear_of_bitsNat_eq_zero (by simpa using hnum.symm)
  exact absurd (hclear _ hset) (by decide)

/-- **Burst detection.** With the top bit of `poly` set, an error pattern with a set bit, whose
set bits all lie in a window of `w` consecutive positions from `p` on, does not leave the zero
state. -/
theorem bitSteps_burst_ne_zero (hp : poly.msb = true) {bs : List Bool} (p : ℕ)
    (hset : true ∈ bs) (hwin : ∀ i, bs[i]? = some true → p ≤ i ∧ i < p + w) :
    bitSteps poly 0#w bs ≠ 0#w := by
  -- before the window, the window, after the window
  have hsplit : bs = bs.take p ++ ((bs.drop p).take w ++ (bs.drop p).drop w) := by
    rw [List.take_append_drop, List.take_append_drop]
  have hbefore : ∀ b ∈ bs.take p, b = false := by
    intro b hb
    obtain ⟨i, hi, hib⟩ := List.mem_take_iff_getElem.mp hb
    rw [Bool.eq_false_iff]
    rintro rfl
    have hip : i < p := lt_of_lt_of_le hi (min_le_left _ _)
    have := (hwin i (by rw [List.getElem?_eq_getElem (by omega), hib])).1
    omega
  have hafter : ∀ b ∈ (bs.drop p).drop w, b = false := by
    intro b hb
    rw [List.drop_drop] at hb
    obtain ⟨i, hi, hib⟩ := List.mem_drop_iff_getElem.mp hb
    rw [Bool.eq_false_iff]
    rintro rfl
    have := (hwin (p + w + i) (by rw [List.getElem?_eq_getElem (by omega), hib])).2
    omega
  have hmid : true ∈ (bs.drop p).take w := by
    rw [hsplit, List.mem_append, List.mem_append] at hset
    rcases hset with h | h | h
    · exact absurd (hbefore _ h) (by decide)
    · exact h
    · exact absurd (hafter _ h) (by decide)
  rw [hsplit, bitSteps_append, bitSteps_append, bitSteps_zero_of_clear poly hbefore]
  exact bitSteps_clear_ne_zero hp hafter (bitSteps_ne_zero_of_mem hp (by simp) hmid)

end PanelFirmware.Lib
