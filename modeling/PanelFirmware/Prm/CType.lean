import PanelFirmware.Lib.MachineInt

/-!
# The C scalar types of the parameter store

`Val<T>` is instantiated at the types below. A value is kept as an integer: the number itself for
`bool` and the integer types, the IEEE-754 bit pattern for `float`, so that a value and its memory
image determine each other for every type.

* `CType.Repr T v`: `v` is a value of an object of type `T`.
* `CType.gt`, `CType.lt`, `CType.isNan`: the comparisons `deserialize` makes; those of `float` are
  the IEEE ones, on the bit patterns.
* `CType.arith`, `CType.eval`, `CType.conv`: the type an arithmetic expression over `T` and `int`
  is computed in, its value there (`none` where C leaves a signed overflow undefined), and the
  conversion back to `T` on assignment.
-/

namespace PanelFirmware.Prm

open PanelFirmware.Lib

/-- The scalar types a parameter is declared with.
Source: `parametres.txt`, third column; `prmSystem.cpp` `Val<T>::tostring`. -/
inductive CType
  | bool
  | int8
  | uint8
  | int16
  | uint16
  | int32
  | uint32
  | int64
  | uint64
  | float
  deriving DecidableEq, Repr

namespace CType

/-- `sizeof(T)`. -/
def size : CType → ℕ
  | bool | int8 | uint8 => 1
  | int16 | uint16 => 2
  | int32 | uint32 | float => 4
  | int64 | uint64 => 8

/-- The type is a signed integer type. -/
def signed : CType → Bool
  | int8 | int16 | int32 | int64 => true
  | _ => false

/-- The width in bits. -/
def bits (T : CType) : ℕ := 8 * T.size

/-- `v` is a value of an object of type `T` (for `float`, a bit pattern). -/
def Repr (T : CType) (v : ℤ) : Prop := Fits T.signed T.bits v

instance (T : CType) (v : ℤ) : Decidable (T.Repr v) :=
  inferInstanceAs (Decidable (Fits T.signed T.bits v))

/-- The bytes of an object of type `T` that holds `v`: `memcpy(dst, &v, sizeof(v))`. -/
def toBytes (T : CType) (v : ℤ) : List Byte := encode T.size v

/-- The object of type `T` read from the front of a buffer: `memcpy(&v, src, sizeof(v))`. -/
def ofBytes (T : CType) (src : List Byte) : ℤ := decode T.signed T.size src

@[simp] lemma length_toBytes (T : CType) (v : ℤ) : (T.toBytes v).length = T.size :=
  length_encode _ _

/-- What is read from a buffer is a value of the type. -/
lemma repr_ofBytes (T : CType) (src : List Byte) : T.Repr (T.ofBytes src) := fits_decode _ _ _

/-- A value written and read back, with anything after it in the buffer, is the value. -/
lemma ofBytes_toBytes {T : CType} {v : ℤ} (h : T.Repr v) (rest : List Byte) :
    T.ofBytes (T.toBytes v ++ rest) = v :=
  decode_encode h rest

/-! ### Comparisons -/

/-- The bit pattern `b` of a `float` is not a number: exponent all ones, mantissa not zero. -/
def floatIsNan (b : ℤ) : Bool := decide (0x7F800000 < b % 2 ^ 31)

/-- The order of the `float`s that are numbers: sign and magnitude of the bit pattern, so that
`+0` and `-0` agree. -/
def floatKey (b : ℤ) : ℤ := if b < 2 ^ 31 then b else 2 ^ 31 - b

/-- `std::isnan(v)`, compiled for `float` only.
Source: `prmSystem.h` `Val::deserialize`. -/
def isNan : CType → ℤ → Bool
  | float, v => floatIsNan v
  | _, _ => false

/-- `a > b` on two values of type `T`; a comparison with a NaN is false. -/
def gt : CType → ℤ → ℤ → Bool
  | float, a, b => !floatIsNan a && !floatIsNan b && decide (floatKey b < floatKey a)
  | _, a, b => decide (b < a)

/-- `a < b` on two values of type `T`. -/
def lt (T : CType) (a b : ℤ) : Bool := T.gt b a

/-- Off `float` the comparison is the one of the integers. -/
lemma gt_eq_true_iff {T : CType} (h : T ≠ float) (a b : ℤ) : T.gt a b = true ↔ b < a := by
  cases T
  case float => exact absurd rfl h
  all_goals exact decide_eq_true_iff

/-- Off `float` nothing is a NaN. -/
lemma isNan_eq_false {T : CType} (h : T ≠ float) (v : ℤ) : T.isNan v = false := by
  cases T
  case float => exact absurd rfl h
  all_goals rfl

/-! ### Arithmetic -/

/-- The type in which `t op i` is computed for `t` of type `T` and `i` an `int`: integral
promotion, then the usual arithmetic conversions. -/
def arith : CType → CType
  | bool | int8 | uint8 | int16 | uint16 | int32 => int32
  | T => T

/-- The value of an arithmetic expression of type `A` whose exact value is `x`. Unsigned
arithmetic is modulo `2 ^ bits`; a signed result that does not fit is undefined. There is no
`float` parameter, and `float` arithmetic is not modelled. -/
def eval (A : CType) (x : ℤ) : Option ℤ :=
  match A with
  | float => none
  | _ => if A.signed then (if A.Repr x then some x else none) else some (wrap false A.bits x)

/-- The implicit conversion of an integer to `T` on initialisation or assignment. -/
def conv (T : CType) (x : ℤ) : ℤ :=
  match T with
  | bool => if x = 0 then 0 else 1
  | _ => wrap T.signed T.bits x

/-- A converted value is a value of the type. -/
lemma repr_conv (T : CType) (x : ℤ) : T.Repr (T.conv x) := by
  cases T
  case bool =>
    by_cases hx : x = 0
    · simp only [conv, if_pos hx]
      decide
    · simp only [conv, if_neg hx]
      decide
  all_goals exact fits_wrap _ _ _

/-- Converting a value of the type changes nothing. -/
lemma conv_eq_self {T : CType} (hT : T ≠ bool) {v : ℤ} (h : T.Repr v) : T.conv v = v := by
  cases T
  case bool => exact absurd rfl hT
  all_goals exact h

/-- The values of a type are an interval. -/
lemma Repr.of_between {T : CType} {x y z : ℤ} (hx : T.Repr x) (hz : T.Repr z) (hxy : x ≤ y)
    (hyz : y ≤ z) : T.Repr y :=
  Fits.of_between hx hz hxy hyz

/-- Promotion keeps the value. -/
lemma repr_arith {T : CType} {v : ℤ} (h : T.Repr v) : T.arith.Repr v := by
  cases T
  case bool | uint8 =>
    have hv := (fits_unsigned_iff 8 v).mp h
    exact (fits_signed_iff 31 v).mpr (by omega)
  case uint16 =>
    have hv := (fits_unsigned_iff 16 v).mp h
    exact (fits_signed_iff 31 v).mpr (by omega)
  case int8 =>
    have hv := (fits_signed_iff 7 v).mp h
    exact (fits_signed_iff 31 v).mpr (by omega)
  case int16 =>
    have hv := (fits_signed_iff 15 v).mp h
    exact (fits_signed_iff 31 v).mpr (by omega)
  all_goals exact h

/-- A signed operation is exact where its result fits and undefined elsewhere. -/
lemma eval_signed {A : CType} (hA : A.signed = true) (x : ℤ) :
    A.eval x = if A.Repr x then some x else none := by
  cases A
  case int8 | int16 | int32 | int64 => rfl
  all_goals exact absurd hA (by decide)

/-- An unsigned operation is defined, modulo the type. -/
lemma eval_unsigned {A : CType} (hA : A ≠ float) (hsg : A.signed = false) (x : ℤ) :
    A.eval x = some (wrap false A.bits x) := by
  cases A
  case float => exact absurd rfl hA
  case int8 | int16 | int32 | int64 => exact absurd hsg (by decide)
  all_goals rfl

/-- An operation whose result fits is exact. -/
lemma eval_of_repr {A : CType} (hA : A ≠ float) {x : ℤ} (h : A.Repr x) : A.eval x = some x := by
  cases hsg : A.signed
  · rw [eval_unsigned hA hsg]
    have hfit : Fits A.signed A.bits x := h
    rw [hsg] at hfit
    exact congrArg some hfit
  · rw [eval_signed hsg, if_pos h]

/-- Off `bool` and `float` an assignment converts to the register of the type. -/
lemma conv_eq_wrap {T : CType} (hT : T ≠ bool) (x : ℤ) :
    T.conv x = wrap T.signed T.bits x := by
  cases T
  case bool => exact absurd rfl hT
  all_goals rfl

/-- An expression over a signed type is computed in a signed type. -/
lemma signed_arith {T : CType} (h : T.signed = true) : T.arith.signed = true := by
  cases T
  case int8 | int16 | int32 | int64 => rfl
  all_goals exact absurd h (by decide)

/-- Every type has a bit. -/
lemma bits_pos (T : CType) : 0 < T.bits := by cases T <;> decide

/-- The type an expression is computed in is not `float` unless the operand is. -/
lemma arith_ne_float {T : CType} (h : T ≠ float) : T.arith ≠ float := by
  cases T
  case float => exact absurd rfl h
  all_goals exact CType.noConfusion

end CType

end PanelFirmware.Prm
