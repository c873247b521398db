import PanelFirmware.Utils.Crc

/-!
# `libmodbus/src/modbus-rtu.c`: the frame of a request

A buffer is the memory behind a pointer, by offset. `sendMsgPre` appends the checksum of a request
to it; the library has a checksum of its own, with two tables of bytes, and its frames are the
ones that `crc16Calc` of the firmware accepts (`crc16Calc_sendMsgPre`).
-/

namespace PanelFirmware.Libmodbus

open PanelFirmware.Lib PanelFirmware.Utils

/-- The memory behind a pointer, by offset. -/
abbrev Buffer := ℕ → Byte

/-- The first bytes of a buffer. -/
def Buffer.bytes (buffer : Buffer) (n : ℕ) : List Byte := (List.range n).map buffer

/-- The buffer after a copy to its start. -/
def Buffer.write (buffer : Buffer) (src : List Byte) : Buffer := fun i => src.getD i (buffer i)

/-- A copy to the start of a buffer is read back. -/
lemma Buffer.bytes_write (buffer : Buffer) (src : List Byte) :
    Buffer.bytes (buffer.write src) src.length = src := by
  refine List.ext_getElem (by rw [Buffer.bytes, List.length_map, List.length_range]) ?_
  intro i _ hi
  simp only [Buffer.bytes, List.getElem_map, List.getElem_range, Buffer.write,
    List.getD_eq_getElem _ _ hi]

/-- A byte of a copy is one of its source. -/
lemma Buffer.write_apply {buffer : Buffer} {src : List Byte} {i : ℕ} {b : Byte}
    (h : src[i]? = some b) : buffer.write src i = b := by
  obtain ⟨hi, hb⟩ := List.getElem?_eq_some_iff.mp h
  rw [Buffer.write, List.getD_eq_getElem _ _ hi, hb]

/-- Source: `modbus-rtu.c` `table_crc_hi`. -/
def tableCrcHi : Array Byte := #[
    0x00, 0xC1, 0x81, 0x40, 0x01, 0xC0, 0x80, 0x41, 0x01, 0xC0, 0x80, 0x41, 0x00, 0xC1, 0x81, 0x40,
    0x01, 0xC0, 0x80, 0x41, 0x00, 0xC1, 0x81, 0x40, 0x00, 0xC1, 0x81, 0x40, 0x01, 0xC0, 0x80, 0x41,
    0x01, 0xC0, 0x80, 0x41, 0x00, 0xC1, 0x81, 0x40, 0x00, 0xC1, 0x81, 0x40, 0x01, 0xC0, 0x80, 0x41,
    0x00, 0xC1, 0x81, 0x40, 0x01, 0xC0, 0x80, 0x41, 0x01, 0xC0, 0x80, 0x41, 0x00, 0xC1, 0x81, 0x40,
    0x01, 0xC0, 0x80, 0x41, 0x00, 0xC1, 0x81, 0x40, 0x00, 0xC1, 0x81, 0x40, 0x01, 0xC0, 0x80, 0x41,
    0x00, 0xC1, 0x81, 0x40, 0x01, 0xC0, 0x80, 0x41, 0x01, 0xC0, 0x80, 0x41, 0x00, 0xC1, 0x81, 0x40,
    0x00, 0xC1, 0x81, 0x40, 0x01, 0xC0, 0x80, 0x41, 0x01, 0xC0, 0x80, 0x41, 0x00, 0xC1, 0x81, 0x40,
    0x01, 0xC0, 0x80, 0x41, 0x00, 0xC1, 0x81, 0x40, 0x00, 0xC1, 0x81, 0x40, 0x01, 0xC0, 0x80, 0x41,
    0x01, 0xC0, 0x80, 0x41, 0x00, 0xC1, 0x81, 0x40, 0x00, 0xC1, 0x81, 0x40, 0x01, 0xC0, 0x80, 0x41,
    0x00, 0xC1, 0x81, 0x40, 0x01, 0xC0, 0x80, 0x41, 0x01, 0xC0, 0x80, 0x41, 0x00, 0xC1, 0x81, 0x40,
    0x00, 0xC1, 0x81, 0x40, 0x01, 0xC0, 0x80, 0x41, 0x01, 0xC0, 0x80, 0x41, 0x00, 0xC1, 0x81, 0x40,
    0x01, 0xC0, 0x80, 0x41, 0x00, 0xC1, 0x81, 0x40, 0x00, 0xC1, 0x81, 0x40, 0x01, 0xC0, 0x80, 0x41,
    0x00, 0xC1, 0x81, 0x40, 0x01, 0xC0, 0x80, 0x41, 0x01, 0xC0, 0x80, 0x41, 0x00, 0xC1, 0x81, 0x40,
    0x01, 0xC0, 0x80, 0x41, 0x00, 0xC1, 0x81, 0x40, 0x00, 0xC1, 0x81, 0x40, 0x01, 0xC0, 0x80, 0x41,
    0x01, 0xC0, 0x80, 0x41, 0x00, 0xC1, 0x81, 0x40, 0x00, 0xC1, 0x81, 0x40, 0x01, 0xC0, 0x80, 0x41,
    0x00, 0xC1, 0x81, 0x40, 0x01, 0xC0, 0x80, 0x41, 0x01, 0xC0, 0x80, 0x41, 0x00, 0xC1, 0x81, 0x40]

/-- Source: `modbus-rtu.c` `table_crc_lo`. -/
def tableCrcLo : Array Byte := #[
    0x00, 0xC0, 0xC1, 0x01, 0xC3, 0x03, 0x02, 0xC2, 0xC6, 0x06, 0x07, 0xC7, 0x05, 0xC5, 0xC4, 0x04,
    0xCC, 0x0C, 0x0D, 0xCD, 0x0F, 0xCF, 0xCE, 0x0E, 0x0A, 0xCA, 0xCB, 0x0B, 0xC9, 0x09, 0x08, 0xC8,
    0xD8, 0x18, 0x19, 0xD9, 0x1B, 0xDB, 0xDA, 0x1A, 0x1E, 0xDE, 0xDF, 0x1F, 0xDD, 0x1D, 0x1C, 0xDC,
    0x14, 0xD4, 0xD5, 0x15, 0xD7, 0x17, 0x16, 0xD6, 0xD2, 0x12, 0x13, 0xD3, 0x11, 0xD1, 0xD0, 0x10,
    0xF0, 0x30, 0x31, 0xF1, 0x33, 0xF3, 0xF2, 0x32, 0x36, 0xF6, 0xF7, 0x37, 0xF5, 0x35, 0x34, 0xF4,
    0x3C, 0xFC, 0xFD, 0x3D, 0xFF, 0x3F, 0x3E, 0xFE, 0xFA, 0x3A, 0x3B, 0xFB, 0x39, 0xF9, 0xF8, 0x38,
    0x28, 0xE8, 0xE9, 0x29, 0xEB, 0x2B, 0x2A, 0xEA, 0xEE, 0x2E, 0x2F, 0xEF, 0x2D, 0xED, 0xEC, 0x2C,
    0xE4, 0x24, 0x25, 0xE5, 0x27, 0xE7, 0xE6, 0x26, 0x22, 0xE2, 0xE3, 0x23, 0xE1, 0x21, 0x20, 0xE0,
    0xA0, 0x60, 0x61, 0xA1, 0x63, 0xA3, 0xA2, 0x62, 0x66, 0xA6, 0xA7, 0x67, 0xA5, 0x65, 0x64, 0xA4,
    0x6C, 0xAC, 0xAD, 0x6D, 0xAF, 0x6F, 0x6E, 0xAE, 0xAA, 0x6A, 0x6B, 0xAB, 0x69, 0xA9, 0xA8, 0x68,
    0x78, 0xB8, 0xB9, 0x79, 0xBB, 0x7B, 0x7A, 0xBA, 0xBE, 0x7E, 0x7F, 0xBF, 0x7D, 0xBD, 0xBC, 0x7C,
    0xB4, 0x74, 0x75, 0xB5, 0x77, 0xB7, 0xB6, 0x76, 0x72, 0xB2, 0xB3, 0x73, 0xB1, 0x71, 0x70, 0xB0,
    0x50, 0x90, 0x91, 0x51, 0x93, 0x53, 0x52, 0x92, 0x96, 0x56, 0x57, 0x97, 0x55, 0x95, 0x94, 0x54,
    0x9C, 0x5C, 0x5D, 0x9D, 0x5F, 0x9F, 0x9E, 0x5E, 0x5A, 0x9A, 0x9B, 0x5B, 0x99, 0x59, 0x58, 0x98,
    0x88, 0x48, 0x49, 0x89, 0x4B, 0x8B, 0x8A, 0x4A, 0x4E, 0x8E, 0x8F, 0x4F, 0x8D, 0x4D, 0x4C, 0x8C,
    0x44, 0x84, 0x85, 0x45, 0x87, 0x47, 0x46, 0x86, 0x82, 0x42, 0x43, 0x83, 0x41, 0x81, 0x80, 0x40]

/-- One pass of the loop body, on `(crc_hi, crc_lo)`. Source: `modbus-rtu.c` `crc16`. -/
def crc16Step (crc : Byte × Byte) (b : Byte) : Byte × Byte :=
  let i := (crc.1 ^^^ b).toNat
  (crc.2 ^^^ tableCrcHi.getD i 0, tableCrcLo.getD i 0)

/-- The checksum of a message, `crc_hi << 8 | crc_lo`. Source: `modbus-rtu.c` `crc16`. -/
def crc16 (buffer : List Byte) : BitVec 16 :=
  let crc := buffer.foldl crc16Step (0xFF, 0xFF)
  crc.1 ++ crc.2

/-- The checksum after the message, and the length of both.
Source: `modbus-rtu.c` `_modbus_rtu_send_msg_pre`. -/
def sendMsgPre (req : Buffer) (reqLength : ℕ) : Buffer × ℕ :=
  let crc := crc16 (req.bytes reqLength)
  let req := Function.update req reqLength ((crc >>> 8).setWidth 8)
  (Function.update req (reqLength + 1) ((crc &&& 0x00FF).setWidth 8), reqLength + 2)

/-! ### The two checksums -/

/-- The two tables hold the bytes of the firmware's table of words. -/
lemma table_toList : crcModBus.table.toList
    = List.zipWith (fun (lo hi : Byte) => lo ++ hi) tableCrcLo.toList tableCrcHi.toList := by
  decide +kernel

/-- An entry of the firmware's table. -/
lemma table_crc16 (i : Fin 256) :
    crcModBus.table.getD i 0#16 = tableCrcLo.getD i 0 ++ tableCrcHi.getD i 0 := by
  have hlo : i.val < tableCrcLo.toList.length := by
    rw [show tableCrcLo.toList.length = 256 by decide +kernel]
    exact i.isLt
  have hhi : i.val < tableCrcHi.toList.length := by
    rw [show tableCrcHi.toList.length = 256 by decide +kernel]
    exact i.isLt
  have hget := congrArg (fun t : List (BitVec 16) => t[i.val]?) table_toList
  rw [List.getElem?_zipWith, List.getElem?_eq_getElem hlo, List.getElem?_eq_getElem hhi] at hget
  rw [Array.getD_eq_getD_getElem?, ← Array.getElem?_toList, hget, Array.getD_eq_getD_getElem?,
    ← Array.getElem?_toList, List.getElem?_eq_getElem hlo, Array.getD_eq_getD_getElem?,
    ← Array.getElem?_toList, List.getElem?_eq_getElem hhi]
  rfl

/-- The registers of the two loops, side by side. -/
def register (crc : Byte × Byte) : BitVec 16 := crc.2 ++ crc.1

/-- The high byte of a word. -/
lemma setWidth_append_shift (a b : Byte) : ((a ++ b) >>> 8).setWidth 8 = a := by
  apply BitVec.eq_of_getLsbD_eq
  intro i hi
  simp only [BitVec.getLsbD_setWidth, BitVec.getLsbD_ushiftRight, BitVec.getLsbD_append]
  simp [hi]

/-- The low byte of a word. -/
lemma setWidth_append_and (a b : Byte) : ((a ++ b) &&& 0x00FF#16).setWidth 8 = b := by
  have hmask : 0x00FF#16 = 0#8 ++ BitVec.allOnes 8 := by decide
  rw [hmask, BitVec.and_append, BitVec.setWidth_append_eq_right, BitVec.and_allOnes]

/-- The index of the low byte of the register is the first register's. -/
lemma setWidth_register (crc : Byte × Byte) : (register crc).setWidth 8 = crc.1 :=
  BitVec.setWidth_append_eq_right

/-- A shift by a byte leaves the second register. -/
lemma register_shift (crc : Byte × Byte) : register crc >>> 8 = 0#8 ++ crc.2 := by
  have hfst : crc.1.toNat < 256 := crc.1.isLt
  apply BitVec.eq_of_toNat_eq
  rw [register, BitVec.toNat_ushiftRight, BitVec.toNat_append, BitVec.toNat_append,
    Nat.shiftRight_or_distrib, Nat.shiftLeft_shiftRight, BitVec.toNat_zero, Nat.zero_shiftLeft,
    Nat.zero_or, Nat.shiftRight_eq_div_pow crc.1.toNat, Nat.div_eq_of_lt hfst, Nat.or_zero]

/-- The two loop bodies keep their registers equal. -/
lemma register_crc16Step (crc : Byte × Byte) (b : Byte) :
    Utils.crc16Step crcModBus.table (register crc) b = register (crc16Step crc b) := by
  have htable := table_crc16 (crc.1 ^^^ b).toFin
  rw [BitVec.val_toFin] at htable
  rw [Utils.crc16Step, crc16Step_index, setWidth_register, register_shift, htable,
    BitVec.xor_append, BitVec.zero_xor]
  simp only [register, crc16Step]

/-- **The library's checksum is the firmware's**, in two registers. -/
theorem crc16Calc_eq {src : List Byte} (h : src ≠ []) :
    crc16Calc crcModBus src = some (register (src.foldl crc16Step (0xFF, 0xFF))) := by
  have hfold : src.foldl (Utils.crc16Step crcModBus.table) (register (0xFF, 0xFF)) =
      register (src.foldl crc16Step (0xFF, 0xFF)) :=
    List.foldl_hom register register_crc16Step
  cases src with
  | nil => exact absurd rfl h
  | cons b bs =>
      rw [← hfold]
      exact congrArg some BitVec.xor_zero

/-- The low byte of the register first. -/
lemma toBytesLE_register (crc : Byte × Byte) :
    toBytesLE 2 (register crc).toNat = [crc.1, crc.2] := by
  have hlow := setWidth_register crc
  have hhigh := congrArg BitVec.toNat (register_shift crc)
  rw [BitVec.toNat_append, BitVec.toNat_zero, Nat.zero_shiftLeft, Nat.zero_or,
    BitVec.toNat_ushiftRight, Nat.shiftRight_eq_div_pow] at hhigh
  simp only [toBytesLE]
  rw [show 256 = 2 ^ 8 from rfl, hhigh, BitVec.ofNat_toNat, BitVec.ofNat_toNat, hlow,
    BitVec.setWidth_eq]

/-- Two bytes written after the first `n`. -/
lemma bytes_update_update (req : Buffer) (n : ℕ) (a b : Byte) :
    Buffer.bytes (Function.update (Function.update req n a) (n + 1) b) (n + 2) =
      req.bytes n ++ [a, b] := by
  have hbefore : ∀ i ∈ List.range n,
      Function.update (Function.update req n a) (n + 1) b i = req i := by
    intro i hi
    have hlt := List.mem_range.mp hi
    rw [Function.update_of_ne (by omega), Function.update_of_ne (by omega)]
  rw [Buffer.bytes, List.range_succ, List.range_succ, List.map_append, List.map_append,
    List.map_congr_left hbefore, List.append_assoc]
  simp only [List.map_cons, List.map_nil, List.singleton_append, Function.update_self,
    Function.update_of_ne (Nat.succ_ne_self n).symm, Buffer.bytes]

/-- The two bytes that are appended. -/
lemma crc16_bytes (src : List Byte) :
    (crc16 src >>> 8).setWidth 8 = (src.foldl crc16Step (0xFF, 0xFF)).1 ∧
      (crc16 src &&& 0x00FF).setWidth 8 = (src.foldl crc16Step (0xFF, 0xFF)).2 :=
  ⟨setWidth_append_shift _ _, setWidth_append_and _ _⟩

/-- The frame of a request is the request and its checksum, low byte first. -/
lemma bytes_sendMsgPre (req : Buffer) (n : ℕ) :
    (sendMsgPre req n).1.bytes (sendMsgPre req n).2 = req.bytes n ++
      toBytesLE 2 (register ((req.bytes n).foldl crc16Step (0xFF, 0xFF))).toNat := by
  obtain ⟨hhi, hlo⟩ := crc16_bytes (req.bytes n)
  simp only [sendMsgPre]
  rw [toBytesLE_register, hhi, hlo, bytes_update_update]

/-- **A frame passes the firmware's check.** -/
theorem crc16Calc_sendMsgPre (req : Buffer) {n : ℕ} (h : 0 < n) :
    crc16Calc crcModBus ((sendMsgPre req n).1.bytes (sendMsgPre req n).2) = some 0#16 := by
  have hbytes : req.bytes n ≠ [] := by
    rw [← List.length_pos_iff, Buffer.bytes, List.length_map, List.length_range]
    exact h
  rw [bytes_sendMsgPre]
  exact crc16Calc_append_crc hbytes (crc16Calc_eq hbytes)

end PanelFirmware.Libmodbus
