import Mathlib

/-!
# Byte strings, little-endian

A byte is a `BitVec 8` and a buffer a `List Byte`. The file holds the two directions of the
little-endian encoding of a natural number in a fixed number of bytes (`toBytesLE`,
`ofBytesLE`), that what was encoded is decoded (`ofBytesLE_toBytesLE`), and the bitwise reading of
a buffer (`bytesBits`): bytes in order, bits least significant first within a byte.
-/

namespace PanelFirmware.Lib

/-- A byte of memory. -/
abbrev Byte := BitVec 8

/-! ### The encoding of a number -/

/-- The `n` low bytes of `v`, low byte first. -/
def toBytesLE : ℕ → ℕ → List Byte
  | 0, _ => []
  | n + 1, v => BitVec.ofNat 8 v :: toBytesLE n (v / 256)

/-- The number a buffer denotes, low byte first. -/
def ofBytesLE : List Byte → ℕ
  | [] => 0
  | b :: bs => b.toNat + 256 * ofBytesLE bs

/-- The encoding has the length asked for. -/
@[simp] lemma length_toBytesLE (n v : ℕ) : (toBytesLE n v).length = n := by
  induction n generalizing v with
  | zero => rfl
  | succ n ih => simp [toBytesLE, ih]

/-- A buffer of `n` bytes denotes a number below `256 ^ n`. -/
lemma ofBytesLE_lt (bs : List Byte) : ofBytesLE bs < 256 ^ bs.length := by
  induction bs with
  | nil => simp [ofBytesLE]
  | cons b bs ih =>
      have hb : b.toNat < 256 := b.isLt
      simp only [ofBytesLE, List.length_cons, pow_succ]
      omega

/-- Decoding what was encoded gives the number back, modulo the room it had. -/
lemma ofBytesLE_toBytesLE (n v : ℕ) : ofBytesLE (toBytesLE n v) = v % 256 ^ n := by
  induction n generalizing v with
  | zero => simp [toBytesLE, ofBytesLE, Nat.mod_one]
  | succ n ih =>
      have hsplit : v % (256 * 256 ^ n) = v % 256 + 256 * (v / 256 % 256 ^ n) := Nat.mod_mul
      rw [pow_succ, Nat.mul_comm (256 ^ n) 256, hsplit, ← ih (v / 256)]
      rfl

/-- Encoding what a buffer denotes gives the buffer back. -/
lemma toBytesLE_ofBytesLE (bs : List Byte) : toBytesLE bs.length (ofBytesLE bs) = bs := by
  induction bs with
  | nil => rfl
  | cons b bs ih =>
      have hb : b.toNat < 256 := b.isLt
      have hlow : BitVec.ofNat 8 (b.toNat + 256 * ofBytesLE bs) = b := by
        apply BitVec.eq_of_toNat_eq
        rw [BitVec.toNat_ofNat]
        omega
      have hhigh : (b.toNat + 256 * ofBytesLE bs) / 256 = ofBytesLE bs := by omega
      rw [List.length_cons, toBytesLE, ofBytesLE, hlow, hhigh, ih]

/-- The low bytes of the number a buffer denotes are the front of the buffer. -/
lemma ofBytesLE_mod (bs : List Byte) (r : ℕ) :
    ofBytesLE bs % 256 ^ r = ofBytesLE (bs.take r) := by
  induction r generalizing bs with
  | zero => simp [ofBytesLE, Nat.mod_one]
  | succ r ih =>
      cases bs with
      | nil => simp [ofBytesLE]
      | cons b bs =>
          have hb : b.toNat < 256 := b.isLt
          rw [pow_succ, Nat.mul_comm, Nat.mod_mul, List.take_succ_cons, ofBytesLE, ofBytesLE, ← ih]
          have hlow : (b.toNat + 256 * ofBytesLE bs) % 256 = b.toNat := by omega
          have hhigh : (b.toNat + 256 * ofBytesLE bs) / 256 = ofBytesLE bs := by omega
          rw [hlow, hhigh]

/-! ### The bits of a buffer -/

/-- The `n` low bits of `s`, least significant first. -/
def lowBits {w : ℕ} : ℕ → BitVec w → List Bool
  | 0, _ => []
  | n + 1, s => s.getLsbD 0 :: lowBits n (s >>> 1)

/-- `lowBits n` has `n` bits. -/
@[simp] lemma length_lowBits {w : ℕ} (n : ℕ) (s : BitVec w) : (lowBits n s).length = n := by
  induction n generalizing s with
  | zero => rfl
  | succ n ih => simp [lowBits, ih]

/-- The low bits of an exclusive or. -/
lemma lowBits_xor {w : ℕ} (n : ℕ) (s t : BitVec w) :
    lowBits n (s ^^^ t) = List.zipWith xor (lowBits n s) (lowBits n t) := by
  induction n generalizing s t with
  | zero => rfl
  | succ n ih => simp [lowBits, BitVec.ushiftRight_xor_distrib, ih]

/-- Two vectors that agree below `n` have the same `n` low bits. -/
lemma lowBits_congr {w v : ℕ} {n : ℕ} {s : BitVec w} {t : BitVec v}
    (h : ∀ i, i < n → s.getLsbD i = t.getLsbD i) : lowBits n s = lowBits n t := by
  induction n generalizing s t with
  | zero => rfl
  | succ n ih =>
      have hrest : lowBits n (s >>> 1) = lowBits n (t >>> 1) := by
        apply ih
        intro i hi
        simpa using h (1 + i) (by omega)
      simp only [lowBits, h 0 (by omega), hrest]

/-- The low bits split at any point. -/
lemma lowBits_add {w : ℕ} (m n : ℕ) (s : BitVec w) :
    lowBits (m + n) s = lowBits m s ++ lowBits n (s >>> m) := by
  induction m generalizing s with
  | zero => simp [lowBits]
  | succ m ih =>
      rw [Nat.add_right_comm, lowBits, lowBits, ih, ← BitVec.shiftRight_add, Nat.add_comm 1 m]
      rfl

/-- The bits of a buffer: bytes in order, least significant bit of each byte first. -/
def bytesBits (bs : List Byte) : List Bool := bs.flatMap (lowBits 8)

@[simp] lemma bytesBits_nil : bytesBits [] = [] := rfl

@[simp] lemma bytesBits_cons (b : Byte) (bs : List Byte) :
    bytesBits (b :: bs) = lowBits 8 b ++ bytesBits bs := rfl

/-- A buffer has eight bits a byte. -/
@[simp] lemma length_bytesBits (bs : List Byte) : (bytesBits bs).length = 8 * bs.length := by
  induction bs with
  | nil => rfl
  | cons b bs ih => simp [ih]; omega

/-- Exclusive or of two buffers, byte by byte. -/
def xorBytes (a e : List Byte) : List Byte := List.zipWith (· ^^^ ·) a e

@[simp] lemma xorBytes_cons (a e : Byte) (as es : List Byte) :
    xorBytes (a :: as) (e :: es) = (a ^^^ e) :: xorBytes as es := rfl

/-- The exclusive or of two buffers of one length has that length. -/
lemma length_xorBytes {a e : List Byte} (h : e.length = a.length) :
    (xorBytes a e).length = a.length := by
  simp [xorBytes, h]

/-- A bit of a vector is among its low bits. -/
lemma getLsbD_mem_lowBits {w : ℕ} {n i : ℕ} (hi : i < n) (s : BitVec w) :
    s.getLsbD i ∈ lowBits n s := by
  induction n generalizing s i with
  | zero => exact absurd hi (Nat.not_lt_zero i)
  | succ n ih =>
      cases i with
      | zero => exact List.mem_cons_self
      | succ i =>
          have hmem := ih (Nat.lt_of_succ_lt_succ hi) (s >>> 1)
          rw [BitVec.getLsbD_ushiftRight, Nat.add_comm] at hmem
          exact List.mem_cons_of_mem _ hmem

/-- An exclusive or with a buffer in which no bit is set changes nothing. -/
lemma xorBytes_of_not_mem {a e : List Byte} (hlen : e.length = a.length)
    (hset : true ∉ bytesBits e) : xorBytes a e = a := by
  induction a generalizing e with
  | nil => rfl
  | cons x xs ih =>
      cases e with
      | nil => cases hlen
      | cons y ys =>
          rw [bytesBits_cons, List.mem_append, not_or] at hset
          have hzero : y = 0 := by
            apply BitVec.eq_of_getLsbD_eq
            intro i hi
            have hmem := getLsbD_mem_lowBits hi y
            cases hbit : y.getLsbD i with
            | true => exact absurd (hbit ▸ hmem) hset.1
            | false => exact (BitVec.getLsbD_zero).symm
          rw [xorBytes_cons, hzero, ih (Nat.succ.inj hlen) hset.2]
          exact congrArg (· :: xs) BitVec.xor_zero

/-- A string of as many bits for every byte, that is an exclusive or where the byte is, is one of
the whole buffers. -/
lemma flatMap_xorBytes {f : Byte → List Bool} (hlength : ∀ x y, (f x).length = (f y).length)
    (hxor : ∀ x y, f (x ^^^ y) = List.zipWith xor (f x) (f y)) {a e : List Byte}
    (h : e.length = a.length) :
    (xorBytes a e).flatMap f = List.zipWith xor (a.flatMap f) (e.flatMap f) := by
  induction a generalizing e with
  | nil =>
      obtain rfl : e = [] := List.length_eq_zero_iff.mp h
      rfl
  | cons x xs ih =>
      cases e with
      | nil => simp at h
      | cons y ys =>
          have hlen : ys.length = xs.length := by simpa using h
          rw [xorBytes_cons, List.flatMap_cons, List.flatMap_cons, List.flatMap_cons, ih hlen, hxor,
            List.zipWith_append (hlength x y)]

/-- The bits of an exclusive or of buffers. -/
lemma bytesBits_xorBytes {a e : List Byte} (h : e.length = a.length) :
    bytesBits (xorBytes a e) = List.zipWith xor (bytesBits a) (bytesBits e) :=
  flatMap_xorBytes (fun _ _ => by simp) (lowBits_xor 8) h

/-- The bits of the little-endian encoding of a vector are its own low bits. -/
lemma bytesBits_toBytesLE {w : ℕ} (k : ℕ) (s : BitVec w) :
    bytesBits (toBytesLE k s.toNat) = lowBits (8 * k) s := by
  induction k generalizing s with
  | zero => rfl
  | succ k ih =>
      have hdiv : s.toNat / 256 = (s >>> 8).toNat := by
        simp [BitVec.toNat_ushiftRight, Nat.shiftRight_eq_div_pow]
      have hlow : lowBits 8 (BitVec.ofNat 8 s.toNat) = lowBits 8 s := by
        apply lowBits_congr
        intro i hi
        rw [BitVec.getLsbD_ofNat, decide_eq_true hi, Bool.true_and]
        rfl
      rw [toBytesLE, bytesBits_cons, hdiv, ih, hlow, ← lowBits_add]
      congr 1
      omega

end PanelFirmware.Lib
