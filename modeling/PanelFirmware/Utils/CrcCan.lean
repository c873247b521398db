import PanelFirmware.Lib.ForwardCrc
import PanelFirmware.Utils.Crc

/-!
# `utils/src/crc.c`: the checksum for the CAN bus

The comment above `crcCan` gives the polynomial `0x4599`, initial value and final value zero. The
words of the table are those of the forward register (`crcCan_table`): the register moves up and the
most significant bit of a byte comes first. `crc16Calc` moves the register down, which is right for
the tables of reflected registers only.

* `crc16Calc_crcCan_byte`: on one byte the loop does not come back to the register, and the checksum
  is the forward check value.
* `crc16Calc_crcCan_undetected`: in every longer buffer there is a burst the checksum does not see.
* `crcCan_documented_iff`: so it is the documented checksum of one byte only.
-/

namespace PanelFirmware.Utils

open PanelFirmware.Lib

/-! ### The table -/

/-- Source: `crc.c` `crcCan` (polynomial `0x4599`, initial value `0`, final value `0`). -/
def crcCan : Crc16Struct where
  table := #[
    0x0000, 0x4599, 0x8B32, 0xCEAB, 0x53FD, 0x1664, 0xD8CF, 0x9D56,
    0xA7FA, 0xE263, 0x2CC8, 0x6951, 0xF407, 0xB19E, 0x7F35, 0x3AAC,
    0x0A6D, 0x4FF4, 0x815F, 0xC4C6, 0x5990, 0x1C09, 0xD2A2, 0x973B,
    0xAD97, 0xE80E, 0x26A5, 0x633C, 0xFE6A, 0xBBF3, 0x7558, 0x30C1,
    0x14DA, 0x5143, 0x9FE8, 0xDA71, 0x4727, 0x02BE, 0xCC15, 0x898C,
    0xB320, 0xF6B9, 0x3812, 0x7D8B, 0xE0DD, 0xA544, 0x6BEF, 0x2E76,
    0x1EB7, 0x5B2E, 0x9585, 0xD01C, 0x4D4A, 0x08D3, 0xC678, 0x83E1,
    0xB94D, 0xFCD4, 0x327F, 0x77E6, 0xEAB0, 0xAF29, 0x6182, 0x241B,
    0x29B4, 0x6C2D, 0xA286, 0xE71F, 0x7A49, 0x3FD0, 0xF17B, 0xB4E2,
    0x8E4E, 0xCBD7, 0x057C, 0x40E5, 0xDDB3, 0x982A, 0x5681, 0x1318,
    0x23D9, 0x6640, 0xA8EB, 0xED72, 0x7024, 0x35BD, 0xFB16, 0xBE8F,
    0x8423, 0xC1BA, 0x0F11, 0x4A88, 0xD7DE, 0x9247, 0x5CEC, 0x1975,
    0x3D6E, 0x78F7, 0xB65C, 0xF3C5, 0x6E93, 0x2B0A, 0xE5A1, 0xA038,
    0x9A94, 0xDF0D, 0x11A6, 0x543F, 0xC969, 0x8CF0, 0x425B, 0x07C2,
    0x3703, 0x729A, 0xBC31, 0xF9A8, 0x64FE, 0x2167, 0xEFCC, 0xAA55,
    0x90F9, 0xD560, 0x1BCB, 0x5E52, 0xC304, 0x869D, 0x4836, 0x0DAF,
    0x5368, 0x16F1, 0xD85A, 0x9DC3, 0x0095, 0x450C, 0x8BA7, 0xCE3E,
    0xF492, 0xB10B, 0x7FA0, 0x3A39, 0xA76F, 0xE2F6, 0x2C5D, 0x69C4,
    0x5905, 0x1C9C, 0xD237, 0x97AE, 0x0AF8, 0x4F61, 0x81CA, 0xC453,
    0xFEFF, 0xBB66, 0x75CD, 0x3054, 0xAD02, 0xE89B, 0x2630, 0x63A9,
    0x47B2, 0x022B, 0xCC80, 0x8919, 0x144F, 0x51D6, 0x9F7D, 0xDAE4,
    0xE048, 0xA5D1, 0x6B7A, 0x2EE3, 0xB3B5, 0xF62C, 0x3887, 0x7D1E,
    0x4DDF, 0x0846, 0xC6ED, 0x8374, 0x1E22, 0x5BBB, 0x9510, 0xD089,
    0xEA25, 0xAFBC, 0x6117, 0x248E, 0xB9D8, 0xFC41, 0x32EA, 0x7773,
    0x7ADC, 0x3F45, 0xF1EE, 0xB477, 0x2921, 0x6CB8, 0xA213, 0xE78A,
    0xDD26, 0x98BF, 0x5614, 0x138D, 0x8EDB, 0xCB42, 0x05E9, 0x4070,
    0x70B1, 0x3528, 0xFB83, 0xBE1A, 0x234C, 0x66D5, 0xA87E, 0xEDE7,
    0xD74B, 0x92D2, 0x5C79, 0x19E0, 0x84B6, 0xC12F, 0x0F84, 0x4A1D,
    0x6E06, 0x2B9F, 0xE534, 0xA0AD, 0x3DFB, 0x7862, 0xB6C9, 0xF350,
    0xC9FC, 0x8C65, 0x42CE, 0x0757, 0x9A01, 0xDF98, 0x1133, 0x54AA,
    0x646B, 0x21F2, 0xEF59, 0xAAC0, 0x3796, 0x720F, 0xBCA4, 0xF93D,
    0xC391, 0x8608, 0x48A3, 0x0D3A, 0x906C, 0xD5F5, 0x1B5E, 0x5EC7]
  initVal := 0x0000
  finalXorValue := 0x0000

/-! ### What the comment says -/

/-- The bit of a byte that comes first. -/
inductive BitOrder
  | msbFirst
  | lsbFirst

/-- The bits of a buffer, in the order they come. -/
def BitOrder.bits : BitOrder → List Byte → List Bool
  | .msbFirst => bytesBitsMsb
  | .lsbFirst => bytesBits

/-- The check value of the comment above `crcCan`, bit by bit. The comment does not give the width
of the register, which is the degree of the polynomial: sixteen as that of the other 16-bit
checksums, or the fifteen of the bus. -/
def documentedCan (order : BitOrder) (degree : ℕ) (src : List Byte) : BitVec 16 :=
  let crc : BitVec degree :=
    match order with
    | .msbFirst => forwardCrc (BitVec.ofNat degree 0x4599) 0 0 src
    | .lsbFirst => reflectedCrc (BitVec.ofNat degree 0x4599) 0 0 src
  crc.setWidth 16

/-- The checksum of the buffer is the documented one, and changes with every burst no longer than
the degree. -/
def CanDocumented (order : BitOrder) (degree : ℕ) (src : List Byte) : Prop :=
  crc16Calc crcCan src = some (documentedCan order degree src) ∧
    ∀ e, e.length = src.length → Burst degree (order.bits e) →
      crc16Calc crcCan (xorBytes src e) ≠ crc16Calc crcCan src

/-! ### One byte -/

/-- The words of the table are the forward check values of the bytes. -/
lemma crcCan_table : crcCan.table.toList
    = (List.finRange 256).map fun i => forwardCrc 0x4599#16 0#16 0#16 [BitVec.ofFin i] := by
  decide +kernel

/-- A pass of the loop adds the forward check value of the index byte. -/
lemma crc16Step_crcCan (crc : BitVec 16) (b : Byte) :
    crc16Step crcCan.table crc b
      = (crc >>> 8) ^^^ forwardCrc 0x4599#16 0#16 0#16 [crc.setWidth 8 ^^^ b] := by
  rw [crc16Step, crc16Step_index]
  exact congrArg _ (getD_of_toList_eq (f := fun b => forwardCrc 0x4599#16 0#16 0#16 [b])
    crcCan_table (crc.setWidth 8 ^^^ b))

/-- The checksum of a buffer is the register after its last byte. -/
lemma crc16Calc_crcCan {src : List Byte} (h : src ≠ []) :
    crc16Calc crcCan src = some (src.foldl (crc16Step crcCan.table) 0#16) := by
  obtain ⟨b, bs, rfl⟩ := List.exists_cons_of_ne_nil h
  exact congrArg some BitVec.xor_zero

/-- The checksum of a byte is its forward check value. -/
lemma crc16Calc_crcCan_byte (b : Byte) :
    crc16Calc crcCan [b] = some (forwardCrc 0x4599#16 0#16 0#16 [b]) := by
  have hzero : (0#16) >>> 8 = 0#16 := by decide
  have hindex : (0#16).setWidth 8 ^^^ b = b := BitVec.zero_xor
  rw [crc16Calc_crcCan (List.cons_ne_nil b []), List.foldl_cons, List.foldl_nil, crc16Step_crcCan,
    hindex, hzero, BitVec.zero_xor]

/-- The documented check values of a byte that agree with its forward check value. -/
lemma forwardCrc_eq_documentedCan (b : Byte) :
    let crc := forwardCrc 0x4599#16 0#16 0#16 [b]
    crc = documentedCan .msbFirst 16 [b] ∧
      (crc = documentedCan .msbFirst 15 [b] ↔ b = 0x00#8 ∨ b = 0x01#8) ∧
      (crc = documentedCan .lsbFirst 16 [b] ↔ b = 0x00#8) ∧
      (crc = documentedCan .lsbFirst 15 [b] ↔ b = 0x00#8) := by
  have hall : ∀ i : Fin 256,
      let crc := forwardCrc 0x4599#16 0#16 0#16 [BitVec.ofFin i]
      (crc = documentedCan .msbFirst 15 [BitVec.ofFin i] ↔
          BitVec.ofFin i = 0x00#8 ∨ BitVec.ofFin i = 0x01#8) ∧
        (crc = documentedCan .lsbFirst 16 [BitVec.ofFin i] ↔ BitVec.ofFin i = 0x00#8) ∧
        (crc = documentedCan .lsbFirst 15 [BitVec.ofFin i] ↔ BitVec.ofFin i = 0x00#8) := by
    decide +kernel
  exact ⟨(BitVec.setWidth_eq _).symm, hall b.toFin⟩

/-- Damage to a byte always shows. -/
lemma crc16Calc_crcCan_byte_ne {b x : Byte} (hx : true ∈ lowBits 8 x) :
    crc16Calc crcCan [b ^^^ x] ≠ crc16Calc crcCan [b] := by
  have hlin := forwardCrc_xorBytes 0x4599#16 (a := [b]) (e := [x]) rfl
  have hburst : Burst 16 (bytesBitsMsb [x]) := by
    refine ⟨0, (lowBits 8 x).reverse, 0, by simp [bytesBitsMsb], by simp, ?_⟩
    exact List.mem_reverse.mpr hx
  have hconst : (0x4599#16).getLsbD 0 = true := by decide
  have hne := forwardCrc_ne_zero_of_burst hconst hburst
  rw [crc16Calc_crcCan_byte, crc16Calc_crcCan_byte, ne_eq, Option.some.injEq]
  intro heq
  rw [show [b ^^^ x] = xorBytes [b] [x] from rfl, hlin] at heq
  refine hne ?_
  have hcancel := congrArg (forwardCrc 0x4599#16 0#16 0#16 [b] ^^^ ·) heq
  rwa [← BitVec.xor_assoc, BitVec.xor_self, BitVec.zero_xor] at hcancel

/-! ### Two bytes and more -/

/-- A pass of the loop is linear over exclusive or. -/
lemma crc16Step_crcCan_xor (s t : BitVec 16) (b c : Byte) :
    crc16Step crcCan.table (s ^^^ t) (b ^^^ c)
      = crc16Step crcCan.table s b ^^^ crc16Step crcCan.table t c := by
  have hindex : [(s ^^^ t).setWidth 8 ^^^ (b ^^^ c)]
      = xorBytes [s.setWidth 8 ^^^ b] [t.setWidth 8 ^^^ c] := by
    rw [xorBytes_cons, BitVec.setWidth_xor]
    exact congrArg (fun x => [x]) (by ac_rfl)
  rw [crc16Step_crcCan, crc16Step_crcCan, crc16Step_crcCan, hindex,
    forwardCrc_xorBytes 0x4599#16 (List.length_singleton.trans List.length_singleton.symm),
    BitVec.ushiftRight_xor_distrib]
  ac_rfl

/-- The loop is linear over exclusive or. -/
lemma foldl_crcCan_xor (s t : BitVec 16) {bs es : List Byte} (h : es.length = bs.length) :
    (xorBytes bs es).foldl (crc16Step crcCan.table) (s ^^^ t)
      = bs.foldl (crc16Step crcCan.table) s ^^^ es.foldl (crc16Step crcCan.table) t := by
  induction bs generalizing s t es with
  | nil =>
      obtain rfl : es = [] := List.length_eq_zero_iff.mp h
      rfl
  | cons b bs ih =>
      cases es with
      | nil => simp at h
      | cons e es =>
          have hlen : es.length = bs.length := by simpa using h
          rw [xorBytes_cons, List.foldl_cons, List.foldl_cons, List.foldl_cons,
            crc16Step_crcCan_xor, ih _ _ hlen]

/-- Two bytes of damage, after `k` good ones, that the loop takes back to zero. -/
def canDamage (k : ℕ) : List Byte := List.replicate k 0#8 ++ [0x32#8, 0x01#8]

@[simp] lemma length_canDamage (k : ℕ) : (canDamage k).length = k + 2 := by simp [canDamage]

/-- The damage leaves no trace. -/
lemma foldl_canDamage (k : ℕ) : (canDamage k).foldl (crc16Step crcCan.table) 0#16 = 0#16 := by
  have hzero : crc16Step crcCan.table 0#16 0#8 = 0#16 := by
    rw [crc16Step_crcCan]
    decide
  have hpair : [0x32#8, 0x01#8].foldl (crc16Step crcCan.table) 0#16 = 0#16 := by
    rw [List.foldl_cons, List.foldl_cons, List.foldl_nil, crc16Step_crcCan, crc16Step_crcCan]
    decide
  have hzeros : (List.replicate k 0#8).foldl (crc16Step crcCan.table) 0#16 = 0#16 := by
    induction k with
    | zero => rfl
    | succ k ih => rw [List.replicate_succ, List.foldl_cons, hzero, ih]
  rw [canDamage, List.foldl_append, hzeros, hpair]

/-- Clear bytes have clear bits. -/
lemma flatMap_zeros {f : Byte → List Bool} (hf : f 0#8 = List.replicate 8 false) (k : ℕ) :
    (List.replicate k 0#8).flatMap f = List.replicate (8 * k) false := by
  induction k with
  | zero => rfl
  | succ k ih =>
      rw [List.replicate_succ, List.flatMap_cons, ih, hf, Nat.mul_succ, Nat.add_comm,
        List.replicate_add]

/-- The damage is a burst of at most fourteen bits in either order. -/
lemma burst_canDamage (order : BitOrder) {degree : ℕ} (hdegree : 14 ≤ degree) (k : ℕ) :
    Burst degree (order.bits (canDamage k)) := by
  cases order with
  | msbFirst =>
      refine ⟨8 * k + 2, [true, true, false, false, true, false, false, false, false, false, false,
        false, false, true], 0, ?_, hdegree, List.mem_cons_self⟩
      rw [BitOrder.bits, canDamage, bytesBitsMsb, List.flatMap_append, flatMap_zeros rfl,
        List.replicate_add, List.append_assoc]
      rfl
  | lsbFirst =>
      refine ⟨8 * k + 1, [true, false, false, true, true, false, false, true], 7, ?_, ?_,
        List.mem_cons_self⟩
      · rw [BitOrder.bits, canDamage, bytesBits, List.flatMap_append, flatMap_zeros rfl,
          List.replicate_add, List.append_assoc]
        rfl
      · exact le_trans (by decide) hdegree

/-- **Undetected bursts.** In every buffer of two bytes or more there is a burst of at most fourteen
bits that the checksum does not see. -/
theorem crc16Calc_crcCan_undetected (order : BitOrder) {degree : ℕ} (hdegree : 14 ≤ degree)
    {src : List Byte} (h : 2 ≤ src.length) :
    ∃ e, e.length = src.length ∧ Burst degree (order.bits e) ∧
      crc16Calc crcCan (xorBytes src e) = crc16Calc crcCan src := by
  have hlen : (canDamage (src.length - 2)).length = src.length := by
    rw [length_canDamage]
    omega
  have hsrc : src ≠ [] := List.ne_nil_of_length_pos (by omega)
  have hdam : xorBytes src (canDamage (src.length - 2)) ≠ [] := by
    rw [← List.length_pos_iff, length_xorBytes hlen]
    omega
  have hlin := foldl_crcCan_xor 0#16 0#16 hlen
  rw [foldl_canDamage, BitVec.xor_zero, BitVec.xor_zero] at hlin
  refine ⟨_, hlen, burst_canDamage order hdegree _, ?_⟩
  rw [crc16Calc_crcCan hdam, crc16Calc_crcCan hsrc, hlin]

/-- Either degree is longer than the burst, and fits the checksum. -/
lemma canDegree_range : ∀ degree ∈ [15, 16], 14 ≤ degree ∧ degree ≤ 16 := by decide

/-- The documented check value does see the damage. -/
lemma documentedCan_canDamage (order : BitOrder) {degree : ℕ} (hlow : 14 ≤ degree)
    (hhigh : degree ≤ 16) (k : ℕ) : documentedCan order degree (canDamage k) ≠ 0#16 := by
  have hburst := burst_canDamage order hlow k
  have hconst : (BitVec.ofNat degree 0x4599).getLsbD 0 = true := by
    rw [BitVec.getLsbD_ofNat, decide_eq_true (show 0 < degree by omega)]
    rfl
  have hwide : ∀ crc : BitVec degree, crc ≠ 0 → crc.setWidth 16 ≠ 0#16 := by
    intro crc hcrc hzero
    refine hcrc (BitVec.eq_of_toNat_eq ?_)
    have hnat := congrArg BitVec.toNat hzero
    have hlt : crc.toNat < 2 ^ 16 :=
      crc.isLt.trans_le (Nat.pow_le_pow_right (by decide) hhigh)
    rwa [BitVec.toNat_setWidth, Nat.mod_eq_of_lt hlt, BitVec.toNat_zero] at hnat
  cases order with
  | msbFirst => exact hwide _ (forwardCrc_ne_zero_of_burst hconst hburst)
  | lsbFirst => exact hwide _ (reflectedCrc_ne_zero_of_burst hconst hburst)

/-! ### Main result -/

/-- On one byte the checksum is as documented where its value is. -/
lemma canDocumented_byte (order : BitOrder) (degree : ℕ) (b : Byte) :
    CanDocumented order degree [b] ↔
      forwardCrc 0x4599#16 0#16 0#16 [b] = documentedCan order degree [b] := by
  unfold CanDocumented
  rw [crc16Calc_crcCan_byte, Option.some.injEq]
  refine and_iff_left_of_imp fun _ e hlen hburst => ?_
  obtain ⟨x, rfl⟩ := List.length_eq_one_iff.mp hlen
  rw [← crc16Calc_crcCan_byte]
  refine crc16Calc_crcCan_byte_ne ?_
  obtain ⟨before, window, after, hbits, -, hset⟩ := hburst
  have hmem : true ∈ order.bits [x] := by
    rw [hbits]
    exact List.mem_append_right _ (List.mem_append_left _ hset)
  cases order with
  | msbFirst => simpa [BitOrder.bits, bytesBitsMsb] using hmem
  | lsbFirst => simpa [BitOrder.bits, bytesBits] using hmem

/-- The checksum is as documented for a byte, and for that only where its value is. -/
lemma canDocumented_iff (order : BitOrder) {degree : ℕ} (hdegree : 14 ≤ degree) {src : List Byte}
    (hsrc : src ≠ []) : CanDocumented order degree src ↔
      ∃ b, src = [b] ∧ forwardCrc 0x4599#16 0#16 0#16 [b] = documentedCan order degree [b] := by
  constructor
  · intro h
    have hpos : 0 < src.length := List.length_pos_iff.mpr hsrc
    have hone : src.length = 1 := by
      by_contra hlong
      obtain ⟨e, hlen, hburst, hsame⟩ :=
        crc16Calc_crcCan_undetected order hdegree (show 2 ≤ src.length by omega)
      exact h.2 e hlen hburst hsame
    obtain ⟨b, rfl⟩ := List.length_eq_one_iff.mp hone
    exact ⟨b, rfl, (canDocumented_byte order degree b).mp h⟩
  · rintro ⟨b, rfl, hb⟩
    exact (canDocumented_byte order degree b).mpr hb

/-- **The checksum for the CAN bus is the documented one of one byte only**, with the most
significant bit first and the register sixteen bits wide. The other readings of the comment agree
with it on the byte zero, and with fifteen bits on the byte one. From two bytes on no reading gives
even the value of all buffers of a length. -/
theorem crcCan_documented_iff {src : List Byte} (hsrc : src ≠ []) :
    (CanDocumented .msbFirst 16 src ↔ src.length = 1) ∧
      (CanDocumented .msbFirst 15 src ↔ src = [0x00#8] ∨ src = [0x01#8]) ∧
      (CanDocumented .lsbFirst 16 src ↔ src = [0x00#8]) ∧
      (CanDocumented .lsbFirst 15 src ↔ src = [0x00#8]) ∧
      (2 ≤ src.length → ∀ order, ∀ degree ∈ [15, 16], ∃ other, other.length = src.length ∧
        crc16Calc crcCan other ≠ some (documentedCan order degree other)) := by
  rw [canDocumented_iff _ (by decide) hsrc, canDocumented_iff _ (by decide) hsrc,
    canDocumented_iff _ (by decide) hsrc, canDocumented_iff _ (by decide) hsrc,
    List.length_eq_one_iff]
  refine ⟨?_, ?_, ?_, ?_, ?_⟩
  · exact exists_congr fun b => and_iff_left (forwardCrc_eq_documentedCan b).1
  · simp only [(forwardCrc_eq_documentedCan _).2.1, and_or_left, exists_or, exists_eq_right]
  · simp only [(forwardCrc_eq_documentedCan _).2.2.1, exists_eq_right]
  · simp only [(forwardCrc_eq_documentedCan _).2.2.2, exists_eq_right]
  · intro hlong order degree hdegree
    obtain ⟨hlow, hhigh⟩ := canDegree_range degree hdegree
    refine ⟨canDamage (src.length - 2), ?_, ?_⟩
    · rw [length_canDamage]
      omega
    · rw [crc16Calc_crcCan (by simp [canDamage]), foldl_canDamage, ne_eq, Option.some.injEq]
      exact (documentedCan_canDamage order hlow hhigh _).symm

/-- The byte `0xA5`, and buffers of two bytes. -/
theorem crcCan_documented_a5 :
    (CanDocumented .msbFirst 16 [0xA5#8] ↔ [0xA5#8].length = 1) ∧
      ∃ other : List Byte, other.length = 2 ∧
        crc16Calc crcCan other ≠ some (documentedCan .msbFirst 16 other) := by
  have hbyte := crcCan_documented_iff (show [0xA5#8] ≠ [] by decide)
  have hpair := crcCan_documented_iff (show [0xA5#8, 0x00#8] ≠ [] by decide)
  exact ⟨hbyte.1, hpair.2.2.2.2 (by decide) .msbFirst 16 (by decide)⟩

/-- **The comment holds in no reading.** The bytes `32 01` have the checksum zero, which is
not their check value, and as damage to themselves they are a burst that nothing shows. -/
theorem crcCan_not_documented :
    (¬ ∃ order, ∃ degree ∈ [15, 16], ∀ src ≠ [],
      crc16Calc crcCan src = some (documentedCan order degree src)) ∧
      ¬ ∃ order : BitOrder, ∃ degree ∈ [15, 16], ∀ src ≠ [], ∀ e, e.length = src.length →
        Burst degree (order.bits e) → crc16Calc crcCan (xorBytes src e) ≠ crc16Calc crcCan src := by
  have hzero : crc16Calc crcCan (canDamage 0) = some 0#16 := by
    rw [crc16Calc_crcCan (by decide), foldl_canDamage]
  constructor
  · rintro ⟨order, degree, hdegree, h⟩
    have hvalue := h (canDamage 0) (by decide)
    rw [hzero, Option.some.injEq] at hvalue
    obtain ⟨hlow, hhigh⟩ := canDegree_range degree hdegree
    exact documentedCan_canDamage order hlow hhigh 0 hvalue.symm
  · rintro ⟨order, degree, hdegree, h⟩
    refine h (canDamage 0) (by decide) (canDamage 0) rfl
      (burst_canDamage order (canDegree_range degree hdegree).1 0) ?_
    have hgone : xorBytes (canDamage 0) (canDamage 0) = [0#8, 0#8] := by decide
    rw [hzero, hgone, crc16Calc_crcCan (by decide), List.foldl_cons, List.foldl_cons,
      List.foldl_nil, crc16Step_crcCan, crc16Step_crcCan]
    decide

end PanelFirmware.Utils
