import PanelFirmware.Lib.ReflectedCrc

/-!
# `utils/src/crc.c`: the table-driven CRC-16

`crc16Calc` runs the checksum structure's 256-word table over a buffer in a `do … while` loop, a
byte at a time. The table of `crcModBus` is the one of the reflected polynomial `0x8005`
(`table_toList`), so the loop is the linear register of `Lib.ReflectedCrc`
(`crc16Calc_crcModBus`); the facts its users need are that a buffer followed by its own checksum,
low byte first, has checksum zero (`crc16Calc_append_crc`), and only such a buffer has
(`crc16Calc_eq_zero_iff`), and that no damage confined to sixteen consecutive bits keeps a checksum
of zero (`crc16Calc_burst`).
-/

namespace PanelFirmware.Utils

open PanelFirmware.Lib

/-- Source: `crc.h` `crc16Struct_type`. -/
structure Crc16Struct where
  /-- One word for each value of the index byte. -/
  table : Array (BitVec 16)
  /-- The register before the first byte. -/
  initVal : BitVec 16
  /-- Added to the register after the last byte. -/
  finalXorValue : BitVec 16

/-- One pass of the loop body: `tmp = (*pBuf++ ^ crc) & 0xff; crc >>= 8; crc ^= table[tmp]`.
Source: `crc.c` `crc16Calc`. -/
def crc16Step (table : Array (BitVec 16)) (crc : BitVec 16) (b : Byte) : BitVec 16 :=
  let tmp := ((b.setWidth 16 ^^^ crc) &&& 0xff#16).toNat
  (crc >>> 8) ^^^ table.getD tmp 0#16

/-- The checksum of a buffer. The source's loop is a `do … while (len)` on an unsigned `len`, so
it has no answer for the empty buffer (it would run `2 ^ 32` times, past the buffer's end).
Source: `crc.c` `crc16Calc`. -/
def crc16Calc (dat : Crc16Struct) (src : List Byte) : Option (BitVec 16) :=
  match src with
  | [] => none
  | _ :: _ => some (src.foldl (crc16Step dat.table) dat.initVal ^^^ dat.finalXorValue)

/-- Source: `crc.c` `crcModBus` (polynomial `0x8005`, initial value `0xFFFF`, final value `0`). -/
def crcModBus : Crc16Struct where
  table := #[
    0x0000, 0xC0C1, 0xC181, 0x0140, 0xC301, 0x03C0, 0x0280, 0xC241,
    0xC601, 0x06C0, 0x0780, 0xC741, 0x0500, 0xC5C1, 0xC481, 0x0440,
    0xCC01, 0x0CC0, 0x0D80, 0xCD41, 0x0F00, 0xCFC1, 0xCE81, 0x0E40,
    0x0A00, 0xCAC1, 0xCB81, 0x0B40, 0xC901, 0x09C0, 0x0880, 0xC841,
    0xD801, 0x18C0, 0x1980, 0xD941, 0x1B00, 0xDBC1, 0xDA81, 0x1A40,
    0x1E00, 0xDEC1, 0xDF81, 0x1F40, 0xDD01, 0x1DC0, 0x1C80, 0xDC41,
    0x1400, 0xD4C1, 0xD581, 0x1540, 0xD701, 0x17C0, 0x1680, 0xD641,
    0xD201, 0x12C0, 0x1380, 0xD341, 0x1100, 0xD1C1, 0xD081, 0x1040,
    0xF001, 0x30C0, 0x3180, 0xF141, 0x3300, 0xF3C1, 0xF281, 0x3240,
    0x3600, 0xF6C1, 0xF781, 0x3740, 0xF501, 0x35C0, 0x3480, 0xF441,
    0x3C00, 0xFCC1, 0xFD81, 0x3D40, 0xFF01, 0x3FC0, 0x3E80, 0xFE41,
    0xFA01, 0x3AC0, 0x3B80, 0xFB41, 0x3900, 0xF9C1, 0xF881, 0x3840,
    0x2800, 0xE8C1, 0xE981, 0x2940, 0xEB01, 0x2BC0, 0x2A80, 0xEA41,
    0xEE01, 0x2EC0, 0x2F80, 0xEF41, 0x2D00, 0xEDC1, 0xEC81, 0x2C40,
    0xE401, 0x24C0, 0x2580, 0xE541, 0x2700, 0xE7C1, 0xE681, 0x2640,
    0x2200, 0xE2C1, 0xE381, 0x2340, 0xE101, 0x21C0, 0x2080, 0xE041,
    0xA001, 0x60C0, 0x6180, 0xA141, 0x6300, 0xA3C1, 0xA281, 0x6240,
    0x6600, 0xA6C1, 0xA781, 0x6740, 0xA501, 0x65C0, 0x6480, 0xA441,
    0x6C00, 0xACC1, 0xAD81, 0x6D40, 0xAF01, 0x6FC0, 0x6E80, 0xAE41,
    0xAA01, 0x6AC0, 0x6B80, 0xAB41, 0x6900, 0xA9C1, 0xA881, 0x6840,
    0x7800, 0xB8C1, 0xB981, 0x7940, 0xBB01, 0x7BC0, 0x7A80, 0xBA41,
    0xBE01, 0x7EC0, 0x7F80, 0xBF41, 0x7D00, 0xBDC1, 0xBC81, 0x7C40,
    0xB401, 0x74C0, 0x7580, 0xB541, 0x7700, 0xB7C1, 0xB681, 0x7640,
    0x7200, 0xB2C1, 0xB381, 0x7340, 0xB101, 0x71C0, 0x7080, 0xB041,
    0x5000, 0x90C1, 0x9181, 0x5140, 0x9301, 0x53C0, 0x5280, 0x9241,
    0x9601, 0x56C0, 0x5780, 0x9741, 0x5500, 0x95C1, 0x9481, 0x5440,
    0x9C01, 0x5CC0, 0x5D80, 0x9D41, 0x5F00, 0x9FC1, 0x9E81, 0x5E40,
    0x5A00, 0x9AC1, 0x9B81, 0x5B40, 0x9901, 0x59C0, 0x5880, 0x9841,
    0x8801, 0x48C0, 0x4980, 0x8941, 0x4B00, 0x8BC1, 0x8A81, 0x4A40,
    0x4E00, 0x8EC1, 0x8F81, 0x4F40, 0x8D01, 0x4DC0, 0x4C80, 0x8C41,
    0x4400, 0x84C1, 0x8581, 0x4540, 0x8701, 0x47C0, 0x4680, 0x8641,
    0x8201, 0x42C0, 0x4380, 0x8341, 0x4100, 0x81C1, 0x8081, 0x4040]
  initVal := 0xFFFF
  finalXorValue := 0x0000

/-- The polynomial `0x8005` of the comment above `crcModBus`, bits reversed. -/
def polyModBus : BitVec 16 := 0xA001

/-- The index byte is the low byte of the register against the input byte. -/
lemma crc16Step_index (crc : BitVec 16) (b : Byte) :
    ((b.setWidth 16 ^^^ crc) &&& 0xff#16).toNat = (crc.setWidth 8 ^^^ b).toNat := by
  have hmask : (b.setWidth 16 ^^^ crc) &&& 0xff#16 = (crc.setWidth 8 ^^^ b).setWidth 16 := by
    apply BitVec.eq_of_getLsbD_eq
    intro i hi
    have hff : (0xff#16).getLsbD i = decide (i < 8) := by
      rw [BitVec.getLsbD_ofNat, decide_eq_true hi, Bool.true_and]
      exact Nat.testBit_two_pow_sub_one 8 i
    simp only [BitVec.getLsbD_and, BitVec.getLsbD_xor, BitVec.getLsbD_setWidth, hff]
    by_cases h8 : i < 8
    · simp [hi, h8, Bool.xor_comm]
    · simp [h8, BitVec.getLsbD_of_ge b i (by omega)]
  rw [hmask, BitVec.toNat_setWidth]
  exact Nat.mod_eq_of_lt ((crc.setWidth 8 ^^^ b).isLt.trans (by decide))

/-- The words of the table are the register's answers to the bytes from the zero state. -/
lemma table_toList : crcModBus.table.toList
    = (List.finRange 256).map fun i => byteStep polyModBus 0#16 (BitVec.ofFin i) := by
  decide +kernel

/-- An entry of a table that is known as a list. -/
lemma getD_of_toList_eq {w : ℕ} {table : Array (BitVec w)} {f : Byte → BitVec w}
    (h : table.toList = (List.finRange 256).map fun i => f (BitVec.ofFin i)) (b : Byte) :
    table.getD b.toNat 0#w = f b := by
  have hlt : b.toNat < (List.finRange 256).length := by
    rw [List.length_finRange]
    exact b.isLt
  rw [Array.getD_eq_getD_getElem?, ← Array.getElem?_toList, h, List.getElem?_map,
    List.getElem?_eq_getElem hlt, List.getElem_finRange]
  rfl

/-- The loop body of `crc16Calc` on `crcModBus` is one byte into the register. -/
lemma crc16Step_crcModBus (crc : BitVec 16) (b : Byte) :
    crc16Step crcModBus.table crc b = byteStep polyModBus crc b := by
  rw [byteStep_eq_table, crc16Step, crc16Step_index]
  exact congrArg _ (getD_of_toList_eq table_toList (crc.setWidth 8 ^^^ b))

/-- **The table loop is the register**: on a non-empty buffer `crc16Calc(&crcModBus, …)` is the
reflected CRC with polynomial `0x8005` and initial value `0xFFFF`. -/
theorem crc16Calc_crcModBus {src : List Byte} (h : src ≠ []) :
    crc16Calc crcModBus src = some (byteSteps polyModBus 0xFFFF#16 src) := by
  have hstep : crc16Step crcModBus.table = byteStep polyModBus := by
    funext crc b
    exact crc16Step_crcModBus crc b
  cases src with
  | nil => exact absurd rfl h
  | cons b bs =>
      unfold crc16Calc
      rw [hstep]
      exact congrArg some (BitVec.xor_zero)

/-- A buffer followed by its own checksum, low byte first, has checksum zero. -/
theorem crc16Calc_append_crc {src : List Byte} (h : src ≠ []) {crc : BitVec 16}
    (hcrc : crc16Calc crcModBus src = some crc) :
    crc16Calc crcModBus (src ++ toBytesLE 2 crc.toNat) = some 0#16 := by
  rw [crc16Calc_crcModBus h, Option.some.injEq] at hcrc
  rw [crc16Calc_crcModBus (by simp [h]), byteSteps_append, hcrc,
    byteSteps_toBytesLE polyModBus (show 16 = 8 * 2 from rfl)]

/-- A checksum of zero is a comparison: the last two bytes are the checksum of those before them,
low byte first. -/
theorem crc16Calc_eq_zero_iff {src stored : List Byte} (h : src ≠ []) (hlen : stored.length = 2) :
    crc16Calc crcModBus (src ++ stored) = some 0#16 ↔
      ∃ crc, crc16Calc crcModBus src = some crc ∧ stored = toBytesLE 2 crc.toNat := by
  have hmsb : polyModBus.msb = true := by decide
  have hzero := byteSteps_eq_zero_iff hmsb (show 16 = 8 * 2 from rfl)
    (byteSteps polyModBus 0xFFFF#16 src) hlen
  rw [crc16Calc_crcModBus h, crc16Calc_crcModBus (by simp [h]), byteSteps_append,
    Option.some.injEq, hzero]
  constructor
  · intro hstored
    exact ⟨_, rfl, hstored⟩
  · rintro ⟨crc, hcrc, hstored⟩
    rw [Option.some.inj hcrc]
    exact hstored

/-- Damage with a set bit, all of whose set bits lie within sixteen consecutive bits of the
buffer, takes a checksum of zero to another value. -/
theorem crc16Calc_burst {src e : List Byte} (hlen : e.length = src.length)
    (hcrc : crc16Calc crcModBus src = some 0#16) (p : ℕ) (hset : true ∈ bytesBits e)
    (hwin : ∀ i, (bytesBits e)[i]? = some true → p ≤ i ∧ i < p + 16) :
    crc16Calc crcModBus (xorBytes src e) ≠ some 0#16 := by
  have hsrc : src ≠ [] := by
    rintro rfl
    simp [crc16Calc] at hcrc
  have hdam : xorBytes src e ≠ [] := by
    rw [← List.length_pos_iff, length_xorBytes hlen]
    exact List.length_pos_iff.mpr hsrc
  rw [crc16Calc_crcModBus hsrc, Option.some.injEq] at hcrc
  rw [crc16Calc_crcModBus hdam, byteSteps_xorBytes _ _ hlen, hcrc, BitVec.zero_xor,
    byteSteps_eq_bitSteps, ne_eq, Option.some.injEq]
  exact bitSteps_burst_ne_zero (by decide) p hset hwin

end PanelFirmware.Utils
