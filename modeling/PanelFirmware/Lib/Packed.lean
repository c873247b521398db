import PanelFirmware.Lib.MachineInt

/-!
# Packed structures

A packed structure is the images of its members one after the other, low byte first. A reader that
has only the bytes names a member by an offset, a size and a sign.

* `Scalar`: a number that is a value of its register.
* `readAt_pack`: read at its own offset and size, a member comes back converted to the sign it is
  read with; with its own sign it comes back as it is (`readAt_pack_self`).
-/

namespace PanelFirmware.Lib

/-- A value of a register of `size` bytes, signed or not. -/
structure Scalar (sg : Bool) (size : ℕ) where
  val : ℤ
  fits : Fits sg (8 * size) val

namespace Scalar

variable {sg : Bool} {size : ℕ}

/-- A number converted to the register. -/
def conv (x : ℤ) : Scalar sg size := ⟨wrap sg (8 * size) x, fits_wrap _ _ _⟩

end Scalar

/-- A member of a structure: its sign, its size in bytes and its value. -/
structure Member where
  sg : Bool
  size : ℕ
  value : Scalar sg size

/-- The image of a packed structure. -/
def pack (ms : List Member) : List Byte := ms.flatMap fun m => encode m.size m.value.val

/-- Where a member is in the image. -/
def memberOffset (ms : List Member) (i : ℕ) : ℕ := ((ms.take i).map Member.size).sum

/-- A number of `size` bytes read at an offset; `none` beyond the end of the buffer. -/
def readAt (sg : Bool) (size : ℕ) (src : List Byte) (off : ℕ) : Option ℤ :=
  if off + size ≤ src.length then some (decode sg size (src.drop off)) else none

@[simp] lemma pack_nil : pack [] = [] := rfl

@[simp] lemma pack_cons (m : Member) (ms : List Member) :
    pack (m :: ms) = encode m.size m.value.val ++ pack ms := rfl

/-- A number written with one sign and read with another is converted. -/
lemma decode_encode_wrap (sg : Bool) (n : ℕ) (x : ℤ) (rest : List Byte) :
    decode sg n (encode n x ++ rest) = wrap sg (8 * n) x := by
  have hself : encode n (wrap sg (8 * n) x) = encode n x := by
    rw [encode, encode, wrap_emod]
  rw [← hself]
  exact decode_encode (fits_wrap sg (8 * n) x) rest

/-- **A member at its offset.** Read with any sign, a member comes back as its value converted to
that sign. -/
theorem readAt_pack (ms : List Member) (i : ℕ) {m : Member} (h : ms[i]? = some m) (sg : Bool) :
    readAt sg m.size (pack ms) (memberOffset ms i) = some (wrap sg (8 * m.size) m.value.val) := by
  induction ms generalizing i with
  | nil => simp at h
  | cons q qs ih =>
      cases i with
      | zero =>
          obtain rfl : q = m := by simpa using h
          have hroom : memberOffset (q :: qs) 0 + q.size ≤ (pack (q :: qs)).length := by
            simp [memberOffset]
          rw [readAt, if_pos hroom]
          exact congrArg some (decode_encode_wrap sg q.size q.value.val (pack qs))
      | succ i =>
          have hoff : memberOffset (q :: qs) (i + 1) = q.size + memberOffset qs i := by
            simp [memberOffset]
          have hlen : (pack (q :: qs)).length = q.size + (pack qs).length := by simp
          have hdrop : (pack (q :: qs)).drop (q.size + memberOffset qs i) =
              (pack qs).drop (memberOffset qs i) := by
            rw [← List.drop_drop, pack_cons, List.drop_left' (length_encode _ _)]
          rw [← ih i (by simpa using h), readAt, readAt, hoff, hlen, hdrop]
          simp only [Nat.add_assoc, Nat.add_le_add_iff_left]

/-- The offset of a member is read off the sizes. -/
lemma memberOffset_eq {ms : List Member} {sizes : List ℕ} (h : ms.map Member.size = sizes)
    (i : ℕ) : memberOffset ms i = (sizes.take i).sum := by
  rw [memberOffset, List.map_take, h]

/-- A member read at the offset the sizes give: its value, converted to the sign it is read
with. -/
lemma readAt_pack_of_sizes {ms : List Member} {sizes : List ℕ} (hsizes : ms.map Member.size = sizes)
    (i : ℕ) {m : Member} (h : ms[i]? = some m) {off : ℕ} (hoff : (sizes.take i).sum = off)
    (sg : Bool) :
    readAt sg m.size (pack ms) off = some (wrap sg (8 * m.size) m.value.val) := by
  rw [← hoff, ← memberOffset_eq hsizes]
  exact readAt_pack ms i h sg

/-- Read with its own sign a member comes back as its value. -/
lemma readAt_pack_self {ms : List Member} {sizes : List ℕ} (hsizes : ms.map Member.size = sizes)
    (i : ℕ) {m : Member} (h : ms[i]? = some m) {off : ℕ} (hoff : (sizes.take i).sum = off) :
    readAt m.sg m.size (pack ms) off = some m.value.val := by
  rw [readAt_pack_of_sizes hsizes i h hoff]
  exact congrArg some m.value.fits

end PanelFirmware.Lib
