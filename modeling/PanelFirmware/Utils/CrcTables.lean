import PanelFirmware.Lib.ForwardCrc
import PanelFirmware.Utils.Crc

/-!
# `utils/src/crc.c`: the tables against the polynomials

Beside `crc16Calc` there are the same loop with another start, `crc16CalcWithInit`, and the loop for
eight bits, `crc8Calc`, with the table of the bus to the thermometers.

* `crc16Calc_reflected`, `crc8Calc_reflected`: the tables compute the check values of the
  polynomials in the comments above them, bit by bit.
* `crc16CalcWithInit_append`: a checksum may be computed in two parts.
* `tables_reflected`: all of them.
-/

namespace PanelFirmware.Utils

open PanelFirmware.Lib

/-! ### The code -/

/-- Source: `crc.c` `crc16CalcWithInit`. -/
def crc16CalcWithInit (dat : Crc16Struct) (src : List Byte) (initVal : BitVec 16) :
    Option (BitVec 16) :=
  match src with
  | [] => none
  | _ :: _ => some (src.foldl (crc16Step dat.table) initVal ^^^ dat.finalXorValue)

/-- Source: `crc.h` `crc8Struct_type`. -/
structure Crc8Struct where
  table : Array (BitVec 8)
  initVal : BitVec 8
  finalXorValue : BitVec 8

/-- One pass of the loop body. Source: `crc.c` `crc8Calc`. -/
def crc8Step (table : Array (BitVec 8)) (crc : BitVec 8) (b : Byte) : BitVec 8 :=
  table.getD (crc ^^^ b).toNat 0#8

/-- The loop has no answer for the empty buffer, as that of `crc16Calc`.
Source: `crc.c` `crc8Calc`. -/
def crc8Calc (dat : Crc8Struct) (src : List Byte) : Option (BitVec 8) :=
  match src with
  | [] => none
  | _ :: _ => some (src.foldl (crc8Step dat.table) dat.initVal ^^^ dat.finalXorValue)

/-- Source: `crc.c` `crc1Wire` (polynomial `0x31`, initial value `0`, final value `0`). -/
def crc1Wire : Crc8Struct where
  table := #[
    0, 94, 188, 226, 97, 63, 221, 131, 194, 156, 126, 32, 163, 253, 31, 65,
    157, 195, 33, 127, 252, 162, 64, 30, 95, 1, 227, 189, 62, 96, 130, 220,
    35, 125, 159, 193, 66, 28, 254, 160, 225, 191, 93, 3, 128, 222, 60, 98,
    190, 224, 2, 92, 223, 129, 99, 61, 124, 34, 192, 158, 29, 67, 161, 255,
    70, 24, 250, 164, 39, 121, 155, 197, 132, 218, 56, 102, 229, 187, 89, 7,
    219, 133, 103, 57, 186, 228, 6, 88, 25, 71, 165, 251, 120, 38, 196, 154,
    101, 59, 217, 135, 4, 90, 184, 230, 167, 249, 27, 69, 198, 152, 122, 36,
    248, 166, 68, 26, 153, 199, 37, 123, 58, 100, 134, 216, 91, 5, 231, 185,
    140, 210, 48, 110, 237, 179, 81, 15, 78, 16, 242, 172, 47, 113, 147, 205,
    17, 79, 173, 243, 112, 46, 204, 146, 211, 141, 111, 49, 178, 236, 14, 80,
    175, 241, 19, 77, 206, 144, 114, 44, 109, 51, 209, 143, 12, 82, 176, 238,
    50, 108, 142, 208, 83, 13, 239, 177, 240, 174, 76, 18, 145, 207, 45, 115,
    202, 148, 118, 40, 171, 245, 23, 73, 8, 86, 180, 234, 105, 55, 213, 139,
    87, 9, 235, 181, 54, 104, 138, 212, 149, 203, 41, 119, 244, 170, 72, 22,
    233, 183, 85, 11, 136, 214, 52, 106, 43, 117, 151, 201, 74, 20, 246, 168,
    116, 42, 200, 150, 21, 75, 169, 247, 182, 232, 10, 84, 215, 137, 107, 53]
  initVal := 0x00
  finalXorValue := 0x00

/-! ### The tables -/

/-- The polynomial of the comment above `crcModBus` is the one of its table. -/
lemma reverse_polyModBus : (0x8005#16).reverse = polyModBus := by decide

/-- **`crc16Calc(&crcModBus)`** is the reflected check value of the polynomial `0x8005`. -/
theorem crc16Calc_reflected {src : List Byte} (h : src ≠ []) :
    crc16Calc crcModBus src = some (reflectedCrc 0x8005#16 0xFFFF#16 0x0000#16 src) := by
  rw [crc16Calc_crcModBus h, reflectedCrc_eq, reverse_polyModBus]
  exact congrArg some BitVec.xor_zero.symm

/-- The words of the table are the register's answers to the bytes from the zero state. -/
lemma table_crc1Wire_toList : crc1Wire.table.toList
    = (List.finRange 256).map fun i => byteStep (0x31#8).reverse 0#8 (BitVec.ofFin i) := by
  decide +kernel

/-- The loop body of `crc8Calc` on `crc1Wire` is one byte into the register. -/
lemma crc8Step_crc1Wire (crc b : BitVec 8) :
    crc8Step crc1Wire.table crc b = byteStep (0x31#8).reverse crc b := by
  have hshift : crc >>> 8 = 0#8 := BitVec.ushiftRight_eq_zero le_rfl
  rw [byteStep_eq_table, hshift, BitVec.zero_xor, BitVec.setWidth_eq]
  exact getD_of_toList_eq table_crc1Wire_toList (crc ^^^ b)

/-- **`crc8Calc(&crc1Wire)`** is the reflected check value of the polynomial `0x31`. -/
theorem crc8Calc_reflected {src : List Byte} (h : src ≠ []) :
    crc8Calc crc1Wire src = some (reflectedCrc 0x31#8 0x00#8 0x00#8 src) := by
  have hstep : crc8Step crc1Wire.table = byteStep (0x31#8).reverse := by
    funext crc b
    exact crc8Step_crc1Wire crc b
  rw [reflectedCrc_eq]
  cases src with
  | nil => exact absurd rfl h
  | cons b bs =>
      unfold crc8Calc
      rw [hstep]
      rfl

/-! ### In two parts -/

/-- A checksum whose final value is zero may be computed in two parts. -/
lemma crc16Calc_append {dat : Crc16Struct} (hfinal : dat.finalXorValue = 0#16) {a b : List Byte}
    (ha : a ≠ []) (hb : b ≠ []) :
    crc16Calc dat (a ++ b) = (crc16Calc dat a).bind fun crc => crc16CalcWithInit dat b crc := by
  obtain ⟨a0, as, rfl⟩ := List.exists_cons_of_ne_nil ha
  obtain ⟨b0, bs, rfl⟩ := List.exists_cons_of_ne_nil hb
  simp only [List.cons_append, crc16Calc, crc16CalcWithInit, Option.bind_some]
  rw [hfinal, ← List.cons_append, List.foldl_append, BitVec.xor_zero, BitVec.xor_zero,
    BitVec.xor_zero]

/-! ### Main result -/

/-- **The table checksums are their bitwise definitions**, for buffers of any length, and the
checksum of a buffer goes on from that of its first part. -/
theorem tables_reflected :
    (∀ src ≠ [], crc16Calc crcModBus src =
      some (reflectedCrc 0x8005#16 0xFFFF#16 0x0000#16 src)) ∧
      (∀ src ≠ [], crc8Calc crc1Wire src = some (reflectedCrc 0x31#8 0x00#8 0x00#8 src)) ∧
      ∀ a ≠ [], ∀ b ≠ [], crc16Calc crcModBus (a ++ b) =
        (crc16Calc crcModBus a).bind fun crc => crc16CalcWithInit crcModBus b crc :=
  ⟨fun _ h => crc16Calc_reflected h, fun _ h => crc8Calc_reflected h,
    fun _ ha _ hb => crc16Calc_append rfl ha hb⟩

/-- The nine digits. -/
def digits : List Byte := [0x31, 0x32, 0x33, 0x34, 0x35, 0x36, 0x37, 0x38, 0x39]

/-- The check values of the nine digits, the first of them in two parts. -/
theorem tables_reflected_digits :
    crc16Calc crcModBus digits = some 0x4B37#16 ∧ crc8Calc crc1Wire digits = some 0xA1#8 ∧
      crc16Calc crcModBus (digits.take 4 ++ digits.drop 4) =
        (crc16Calc crcModBus (digits.take 4)).bind fun crc =>
          crc16CalcWithInit crcModBus (digits.drop 4) crc := by
  obtain ⟨h16, h8, happend⟩ := tables_reflected
  refine ⟨?_, ?_, happend _ (by decide) _ (by decide)⟩
  · rw [h16 _ (by decide)]
    decide +kernel
  · rw [h8 _ (by decide)]
    decide +kernel

end PanelFirmware.Utils
