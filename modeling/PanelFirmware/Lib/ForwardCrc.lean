import PanelFirmware.Lib.ReflectedCrc

/-!
# Forward registers and reflected ones

A forward register shifts the other way: the top bit of the state decides whether `poly`, not
reflected, is added after the state has moved up one place (`forwardStep`). Hardware units are of
this kind and add a whole word to the state before they shift.

* `reverse_forwardSteps`: with the bits of the state reversed it is the reflected register fed
  clear bits.
* `bitSteps_lowBits_xor`: bits fed one at a time may as well be added first.
* `reverse_forwardSteps_word`: a word written with its bits reversed is its bytes, low byte first.
* `reverse_forwardSteps_tail`: the same for a part of a word, moved to the low end.
* `reflectedCrc`: the check value of a buffer, bit by bit; `reflectedCrc_eq`: it is that of the
  reflected register.
* `forwardCrc`: the same with the most significant bit of each byte first; `forwardCrc_xorBytes`,
  `forwardCrc_ne_zero_of_burst`: it is linear and sees every burst as long as the register.
-/

namespace PanelFirmware.Lib

variable {w : ℕ} (poly : BitVec w)

/-- One shift of the forward register. -/
def forwardStep (s : BitVec w) : BitVec w := if s.msb then (s <<< 1) ^^^ poly else s <<< 1

/-! ### Reversed vectors -/

/-- Reversing an exclusive or. -/
lemma reverse_xor (s t : BitVec w) : (s ^^^ t).reverse = s.reverse ^^^ t.reverse := by
  apply BitVec.eq_of_getLsbD_eq
  intro i _
  simp only [BitVec.getLsbD_reverse, BitVec.getLsbD_xor, BitVec.getMsbD_xor]

/-- Reversing a vector moved down moves its reverse up. -/
lemma reverse_ushiftRight (s : BitVec w) (n : ℕ) : (s >>> n).reverse = s.reverse <<< n := by
  apply BitVec.eq_of_getLsbD_eq
  intro i hi
  rw [BitVec.getLsbD_reverse, BitVec.getMsbD_ushiftRight, BitVec.getLsbD_shiftLeft,
    BitVec.getLsbD_reverse]
  simp [hi]

/-- Reversing a vector moved up moves its reverse down. -/
lemma reverse_shiftLeft (s : BitVec w) (n : ℕ) : (s <<< n).reverse = s.reverse >>> n := by
  have h := reverse_ushiftRight s.reverse n
  rw [BitVec.reverse_reverse_eq] at h
  rw [← h, BitVec.reverse_reverse_eq]

/-! ### The two registers -/

/-- One shift of the forward register is one clear bit into the reflected one. -/
lemma reverse_forwardStep (s : BitVec w) :
    (forwardStep poly s).reverse = bitStep poly.reverse s.reverse false := by
  have hbit : s.reverse.getLsbD 0 = s.msb := BitVec.getLsbD_reverse
  unfold forwardStep bitStep
  rw [hbit, Bool.xor_false]
  split_ifs
  · rw [reverse_xor, reverse_shiftLeft]
  · exact reverse_shiftLeft s 1

/-- **Reversal.** A run of the forward register is a run of the reflected one on clear bits. -/
theorem reverse_forwardSteps (n : ℕ) (s : BitVec w) :
    ((forwardStep poly)^[n] s).reverse
      = bitSteps poly.reverse s.reverse (List.replicate n false) := by
  induction n generalizing s with
  | zero => rfl
  | succ n ih =>
      rw [Function.iterate_succ_apply, ih, reverse_forwardStep, List.replicate_succ,
        bitSteps_cons]

/-- **Bits added first.** Feeding the low bits of `x` is adding `x` to the state, feeding clear
bits, and adding what is left of `x`. -/
theorem bitSteps_lowBits_xor (n : ℕ) (s x : BitVec w) :
    bitSteps poly s (lowBits n x)
      = bitSteps poly (s ^^^ x) (List.replicate n false) ^^^ (x >>> n) := by
  have hbits : lowBits n x = List.zipWith xor (List.replicate n false) (lowBits n x) := by
    have hzero : List.replicate n false = lowBits n 0#w := by
      induction n with
      | zero => rfl
      | succ n ih => rw [List.replicate_succ, ih, lowBits]; simp
    rw [hzero, ← lowBits_xor, BitVec.zero_xor]
  have hlen : (lowBits n x).length = (List.replicate n false).length := by simp
  have hlin := bitSteps_xor poly (s ^^^ x) x hlen
  have hcancel : s ^^^ x ^^^ x = s := by rw [BitVec.xor_assoc, BitVec.xor_self, BitVec.xor_zero]
  rw [← hbits, hcancel, bitSteps_lowBits] at hlin
  exact hlin

/-- A state whose low bits are clear only moves down on as many clear bits. -/
lemma bitSteps_clear_of_low (n : ℕ) (s : BitVec w) (h : ∀ i < n, s.getLsbD i = false) :
    bitSteps poly s (List.replicate n false) = s >>> n := by
  have hlow : lowBits n s = List.replicate n false := by
    induction n generalizing s with
    | zero => rfl
    | succ n ih =>
        have hrest : lowBits n (s >>> 1) = List.replicate n false := by
          refine ih _ fun i hi => ?_
          rw [BitVec.getLsbD_ushiftRight]
          exact h (1 + i) (by omega)
        rw [lowBits, h 0 (by omega), hrest, List.replicate_succ]
  rw [← hlow, bitSteps_lowBits]

/-! ### Words and parts of words -/

/-- **A word.** A word of `k` bytes, added to the forward register with its bits reversed and
shifted through, is its bytes into the reflected register, low byte first. -/
theorem reverse_forwardSteps_word {k : ℕ} (hw : w = 8 * k) (s x : BitVec w) :
    ((forwardStep poly)^[w] (s ^^^ x.reverse)).reverse
      = byteSteps poly.reverse s.reverse (toBytesLE k x.toNat) := by
  have hnone : x >>> w = 0#w := by
    apply BitVec.eq_of_getLsbD_eq
    intro i _
    rw [BitVec.getLsbD_ushiftRight, BitVec.getLsbD_zero]
    exact BitVec.getLsbD_of_ge x _ (by omega)
  have hfed := bitSteps_lowBits_xor poly.reverse w s.reverse x
  rw [hnone, BitVec.xor_zero] at hfed
  rw [reverse_forwardSteps, reverse_xor, BitVec.reverse_reverse_eq, ← hfed, byteSteps_eq_bitSteps,
    bytesBits_toBytesLE, ← hw]

/-- The bits of a state above the low `n` only move down on `n` clear bits. -/
lemma bitSteps_clear_high (n : ℕ) (r : BitVec w) :
    bitSteps poly (r >>> n <<< n) (List.replicate n false) = r >>> n := by
  have hlow : ∀ i < n, (r >>> n <<< n).getLsbD i = false := by
    intro i hi
    rw [BitVec.getLsbD_shiftLeft]
    simp [hi]
  rw [bitSteps_clear_of_low poly n _ hlow]
  apply BitVec.eq_of_getLsbD_eq
  intro i hi
  simp only [BitVec.getLsbD_ushiftRight, BitVec.getLsbD_shiftLeft]
  by_cases htop : n + i < w
  · simp [htop]
  · simp [htop, BitVec.getLsbD_of_ge r (n + i) (by omega)]

/-- A state with `n` bits added splits into its low `n` bits and those above them, which are the
state's own. -/
lemma xor_eq_low_xor_high {n : ℕ} (hn : n ≤ w) (r x : BitVec w) (hx : x >>> n = 0#w) :
    r ^^^ x = ((x ^^^ r) <<< (w - n) >>> (w - n)) ^^^ (r >>> n <<< n) := by
  apply BitVec.eq_of_getLsbD_eq
  intro i hi
  simp only [BitVec.getLsbD_xor, BitVec.getLsbD_ushiftRight, BitVec.getLsbD_shiftLeft]
  by_cases hin : i < n
  · have hroom : w - n + i < w := by omega
    simp [hin, Bool.xor_comm, hroom]
  · have hbit : x.getLsbD i = false := by
      have hzero := congrArg (fun v => BitVec.getLsbD v (i - n)) hx
      simp only [BitVec.getLsbD_ushiftRight, BitVec.getLsbD_zero] at hzero
      rwa [Nat.add_sub_cancel' (by omega)] at hzero
    have hroom : ¬ w - n + i < w := by omega
    rw [hbit, Nat.add_sub_cancel' (by omega)]
    simp [hin, hi, hroom]

/-- **A part of a word.** `n` bits, added to the low end of the state `r`, reversed and moved to
the low end of a forward register that is zero, and shifted through; with what is above these bits
in `r` they are the same `n` bits into the reflected register. -/
theorem reverse_forwardSteps_tail {n : ℕ} (hn : n ≤ w) (r x : BitVec w) (hx : x >>> n = 0#w) :
    (r >>> n) ^^^ ((forwardStep poly)^[w] ((x ^^^ r).reverse >>> (w - n))).reverse
      = bitSteps poly.reverse r (lowBits n x) := by
  have hlow : bitSteps poly.reverse ((x ^^^ r) <<< (w - n)) (List.replicate (w - n) false)
      = (x ^^^ r) <<< (w - n) >>> (w - n) := by
    refine bitSteps_clear_of_low _ _ _ fun i hi => ?_
    rw [BitVec.getLsbD_shiftLeft]
    simp [hi]
  have hunit : ((forwardStep poly)^[w] ((x ^^^ r).reverse >>> (w - n))).reverse
      = bitSteps poly.reverse ((x ^^^ r) <<< (w - n) >>> (w - n)) (List.replicate n false) := by
    have hcount : List.replicate w false
        = List.replicate (w - n) false ++ List.replicate n false := by
      rw [List.replicate_append_replicate, Nat.sub_add_cancel hn]
    rw [reverse_forwardSteps, reverse_ushiftRight, BitVec.reverse_reverse_eq, hcount,
      bitSteps_append, hlow]
  have hlin := bitSteps_xor poly.reverse ((x ^^^ r) <<< (w - n) >>> (w - n)) (r >>> n <<< n)
    (rfl : (List.replicate n false).length = (List.replicate n false).length)
  have hclear : List.zipWith xor (List.replicate n false) (List.replicate n false)
      = List.replicate n false := by simp
  rw [hclear, ← xor_eq_low_xor_high hn r x hx, bitSteps_clear_high] at hlin
  rw [bitSteps_lowBits_xor, hx, BitVec.xor_zero, hlin, hunit, BitVec.xor_comm]

/-! ### The reflected check value of a buffer -/

/-- One bit into the forward register. -/
def forwardBit (s : BitVec w) (b : Bool) : BitVec w :=
  if xor s.msb b then (s <<< 1) ^^^ poly else s <<< 1

/-- The reflected check value of a buffer, bit by bit: the bits of each byte are fed to the forward
register of `poly` least significant first, and the state is read with its bits reversed. The
initial and the final value are added as they are read. -/
def reflectedCrc (init xorOut : BitVec w) (bs : List Byte) : BitVec w :=
  ((bytesBits bs).foldl (forwardBit poly) init.reverse).reverse ^^^ xorOut

/-- One bit into the forward register is one bit into the reflected one. -/
lemma reverse_forwardBit (s : BitVec w) (b : Bool) :
    (forwardBit poly s b).reverse = bitStep poly.reverse s.reverse b := by
  have hbit : s.reverse.getLsbD 0 = s.msb := BitVec.getLsbD_reverse
  unfold forwardBit bitStep
  rw [hbit]
  split_ifs
  · rw [reverse_xor, reverse_shiftLeft]
  · exact reverse_shiftLeft s 1

/-- The same for a list of bits. -/
lemma reverse_foldl_forwardBit (s : BitVec w) (bits : List Bool) :
    (bits.foldl (forwardBit poly) s).reverse = bitSteps poly.reverse s.reverse bits := by
  induction bits generalizing s with
  | nil => rfl
  | cons b bits ih => rw [List.foldl_cons, ih, reverse_forwardBit, bitSteps_cons]

/-- **The reflected check value is that of the reflected register.** -/
theorem reflectedCrc_eq (init xorOut : BitVec w) (bs : List Byte) :
    reflectedCrc poly init xorOut bs = byteSteps poly.reverse init bs ^^^ xorOut := by
  rw [reflectedCrc, reverse_foldl_forwardBit, BitVec.reverse_reverse_eq, byteSteps_eq_bitSteps]

/-! ### The forward check value of a buffer -/

/-- The bits of a buffer: bytes in order, most significant bit of each byte first. -/
def bytesBitsMsb (bs : List Byte) : List Bool := bs.flatMap fun b => (lowBits 8 b).reverse

/-- The forward check value of a buffer, bit by bit: the bits of each byte are fed to the forward
register of `poly` most significant first. -/
def forwardCrc (init xorOut : BitVec w) (bs : List Byte) : BitVec w :=
  (bytesBitsMsb bs).foldl (forwardBit poly) init ^^^ xorOut

@[simp] lemma bytesBitsMsb_cons (b : Byte) (bs : List Byte) :
    bytesBitsMsb (b :: bs) = (lowBits 8 b).reverse ++ bytesBitsMsb bs := rfl

/-- A buffer has eight bits a byte. -/
@[simp] lemma length_bytesBitsMsb (bs : List Byte) : (bytesBitsMsb bs).length = 8 * bs.length := by
  induction bs with
  | nil => rfl
  | cons b bs ih => simp [ih]; omega

/-- The bits of an exclusive or of buffers. -/
lemma bytesBitsMsb_xorBytes {a e : List Byte} (h : e.length = a.length) :
    bytesBitsMsb (xorBytes a e) = List.zipWith xor (bytesBitsMsb a) (bytesBitsMsb e) := by
  refine flatMap_xorBytes (fun _ _ => by simp) (fun x y => ?_) h
  rw [lowBits_xor, List.reverse_zipWith (by simp)]

/-- The zero vector reversed. -/
lemma reverse_zero : (0#w).reverse = 0#w := by
  apply BitVec.eq_of_getLsbD_eq
  intro i _
  simp only [BitVec.getLsbD_reverse, BitVec.getMsbD_zero, BitVec.getLsbD_zero]

/-- The forward check value with nothing added is that of the reflected register, reversed. -/
lemma forwardCrc_eq (bs : List Byte) :
    forwardCrc poly 0#w 0#w bs = (bitSteps poly.reverse 0#w (bytesBitsMsb bs)).reverse := by
  rw [forwardCrc, BitVec.xor_zero, ← BitVec.reverse_reverse_eq (x := List.foldl _ _ _),
    reverse_foldl_forwardBit, reverse_zero]

/-- The forward check value is linear over exclusive or. -/
theorem forwardCrc_xorBytes {a e : List Byte} (h : e.length = a.length) :
    forwardCrc poly 0#w 0#w (xorBytes a e)
      = forwardCrc poly 0#w 0#w a ^^^ forwardCrc poly 0#w 0#w e := by
  have hlen : (bytesBitsMsb e).length = (bytesBitsMsb a).length := by simp [h]
  have hlin := bitSteps_xor poly.reverse 0#w 0#w hlen
  rw [BitVec.xor_zero] at hlin
  rw [forwardCrc_eq, forwardCrc_eq, forwardCrc_eq, bytesBitsMsb_xorBytes h, hlin, reverse_xor]

/-! ### Bursts -/

/-- An error burst: a set bit, and all set bits within `n` consecutive ones. -/
def Burst (n : ℕ) (bits : List Bool) : Prop :=
  ∃ before window after,
    bits = List.replicate before false ++ (window ++ List.replicate after false) ∧
      window.length ≤ n ∧ true ∈ window

variable {poly}

/-- The reflected register sees a burst as long as itself. -/
lemma bitSteps_ne_zero_of_burst (hp : poly.msb = true) {bits : List Bool} (h : Burst w bits) :
    bitSteps poly 0#w bits ≠ 0#w := by
  obtain ⟨before, window, after, rfl, hlen, hset⟩ := h
  have hclear : ∀ n, ∀ b ∈ List.replicate n false, b = false := fun _ _ hb =>
    List.eq_of_mem_replicate hb
  rw [bitSteps_append, bitSteps_zero_of_clear _ (hclear before), bitSteps_append]
  exact bitSteps_clear_ne_zero hp (hclear after) (bitSteps_ne_zero_of_mem hp hlen hset)

/-- **Burst detection**, most significant bit first, for a polynomial with a constant term. -/
theorem forwardCrc_ne_zero_of_burst (hp : poly.getLsbD 0 = true) {bs : List Byte}
    (h : Burst w (bytesBitsMsb bs)) : forwardCrc poly 0#w 0#w bs ≠ 0#w := by
  have hmsb : poly.reverse.msb = true := by rw [BitVec.msb_reverse, hp]
  intro hzero
  refine bitSteps_ne_zero_of_burst hmsb h ?_
  rw [← BitVec.reverse_reverse_eq (x := bitSteps _ _ _), ← forwardCrc_eq, hzero, reverse_zero]

/-- **Burst detection**, least significant bit first. -/
theorem reflectedCrc_ne_zero_of_burst (hp : poly.getLsbD 0 = true) {bs : List Byte}
    (h : Burst w (bytesBits bs)) : reflectedCrc poly 0#w 0#w bs ≠ 0#w := by
  have hmsb : poly.reverse.msb = true := by rw [BitVec.msb_reverse, hp]
  rw [reflectedCrc_eq, BitVec.xor_zero, byteSteps_eq_bitSteps]
  exact bitSteps_ne_zero_of_burst hmsb h

end PanelFirmware.Lib
