import PanelFirmware.Prm.CType

/-!
# `prmsystem/include/prmSystem.h`: one parameter

A `ValHandler` is the constant part of a parameter (its type, default, range, steps, address and
save class), a `Val` the parameter itself: the handler and the current value. Both carry the proof
that their numbers are values of the declared C type.

The mutators are `setdef`, `step`, `bigstep`, `deserialize` and the callback. `step` and `bigstep`
go through `stepsize`, which computes in the promoted type and truncates to `T`; its model is
`none` where the C++ leaves a signed overflow undefined.

`Val.InRange` is the store's range invariant for one parameter, in the order `deserialize` uses.
-/

namespace PanelFirmware.Prm

open PanelFirmware.Lib

/-- Source: `prmSystem.h` `Save`. -/
inductive Save
  | notsave
  | savesys
  | saveuse
  deriving DecidableEq, Repr

/-- The callbacks the table names (`nullptr` is `none`).
Source: `parametres.txt`; `prmSystemCallback.cpp`. -/
inductive Callback
  | getFwVer
  deriving DecidableEq, Repr

/-- The constant part of a parameter, as the generator emits it (fixed-point scaling applied).
Source: `prmSystem.h` `ValHandler`. -/
structure ValHandler where
  label : String
  T : CType
  dflt : ℤ
  min : ℤ
  max : ℤ
  step : ℤ
  bigstep : ℤ
  addr : ℕ
  arg : ℕ
  power : ℕ
  save : Save
  callback : Option Callback
  dflt_repr : T.Repr dflt := by decide
  min_repr : T.Repr min := by decide
  max_repr : T.Repr max := by decide
  step_repr : T.Repr step := by decide
  bigstep_repr : T.Repr bigstep := by decide

/-- A parameter: its handler and its current value, a value of the handler's type.
Source: `prmSystem.h` `Val`. -/
structure Val where
  handler : ValHandler
  val : ℤ
  val_repr : handler.T.Repr val

/-- What `version.h` is generated with. Source: `version.h.in`. -/
structure Version where
  major : ℕ
  minor : ℕ
  patch : ℕ
  tweak : ℕ

/-- The number a parameter's argument selects.
Source: `prmSystemCallback.cpp` `getFwVer`, its `switch`. -/
def Version.number (version : Version) : ℕ → Option ℕ
  | 0 => some version.major
  | 1 => some version.minor
  | 2 => some version.patch
  | 3 => some version.tweak
  | _ => none

namespace Val

/-- Two parameters with one handler and one value are one parameter. -/
lemma ext_val {p q : Val} (hh : p.handler = q.handler) (hv : p.val = q.val) : p = q := by
  cases p
  cases q
  cases hh
  cases hv
  rfl

/-- Assign a value of the type. -/
def set (p : Val) (v : ℤ) (h : p.handler.T.Repr v) : Val := { p with val := v, val_repr := h }

@[simp] lemma set_handler (p : Val) (v : ℤ) (h : p.handler.T.Repr v) :
    (p.set v h).handler = p.handler := rfl

@[simp] lemma set_val (p : Val) (v : ℤ) (h : p.handler.T.Repr v) : (p.set v h).val = v := rfl

/-- The constructor: a parameter starts at its default.
Source: `prmSystem.h` `Val::Val`. -/
def new (h : ValHandler) : Val := ⟨h, h.dflt, h.dflt_repr⟩

/-- Source: `prmSystem.h` `Val::setdef`. -/
def setdef (p : Val) : Val := p.set p.handler.dflt p.handler.dflt_repr

/-- Source: `prmSystem.h` `Val::getsize`. -/
def getsize (p : Val) : ℕ := p.handler.T.size

/-- Source: `prmSystem.h` `Val::getaddress`. -/
def getaddress (p : Val) : ℕ := p.handler.addr

/-- Source: `prmSystem.h` `Val::getsave`. -/
def getsave (p : Val) : Save := p.handler.save

/-- The bytes `memcpy(dst, &val, sizeof(val))` writes.
Source: `prmSystem.h` `Val::serialize`. -/
def serialize (p : Val) : List Byte := p.handler.T.toBytes p.val

@[simp] lemma length_serialize (p : Val) : p.serialize.length = p.getsize :=
  CType.length_toBytes _ _

/-- The test of `deserialize`: not a NaN, not above `max`, not below `min`. -/
def accepts (h : ValHandler) (v : ℤ) : Bool :=
  !h.T.isNan v && !(h.T.gt v h.max || h.T.lt v h.min)

/-- The verdict of `deserialize` and the parameter after it.
Source: `prmSystem.h` `Val::deserialize`. -/
def deserialize (p : Val) (src : List Byte) : Bool × Val :=
  let v := p.handler.T.ofBytes src
  if p.handler.T.isNan v then (false, p)
  else if p.handler.T.gt v p.handler.max || p.handler.T.lt v p.handler.min then (false, p)
  else (true, p.set v (CType.repr_ofBytes _ _))

/-- The parameter lies in its range: exactly what `deserialize` accepts. -/
def InRange (p : Val) : Prop := accepts p.handler p.val = true

instance (p : Val) : Decidable p.InRange := inferInstanceAs (Decidable (_ = true))

/-- Off `float` the range is the integer interval. -/
lemma inRange_iff {p : Val} (h : p.handler.T ≠ CType.float) :
    p.InRange ↔ p.handler.min ≤ p.val ∧ p.val ≤ p.handler.max := by
  have hgt : p.handler.T.gt p.val p.handler.max = false ↔ p.val ≤ p.handler.max := by
    rw [← not_lt, ← CType.gt_eq_true_iff h, Bool.not_eq_true]
  have hlt : p.handler.T.lt p.val p.handler.min = false ↔ p.handler.min ≤ p.val := by
    rw [← not_lt, ← CType.gt_eq_true_iff h, Bool.not_eq_true]
    rfl
  unfold InRange accepts
  rw [CType.isNan_eq_false h, Bool.not_false, Bool.true_and, Bool.not_eq_true',
    Bool.or_eq_false_iff, hgt, hlt, and_comm]

/-- `deserialize` by its test: it stores the value read exactly when the test accepts it. -/
lemma deserialize_eq (p : Val) (src : List Byte) :
    p.deserialize src =
      if accepts p.handler (p.handler.T.ofBytes src) then
        (true, p.set (p.handler.T.ofBytes src) (CType.repr_ofBytes _ _))
      else (false, p) := by
  unfold deserialize accepts
  by_cases hnan : p.handler.T.isNan (p.handler.T.ofBytes src) = true
  · simp [hnan]
  · by_cases hout : (p.handler.T.gt (p.handler.T.ofBytes src) p.handler.max ||
        p.handler.T.lt (p.handler.T.ofBytes src) p.handler.min) = true
    · simp [hnan, hout]
    · simp [hnan, hout]

/-- `deserialize` never changes the handler. -/
@[simp] lemma deserialize_handler (p : Val) (src : List Byte) :
    (p.deserialize src).2.handler = p.handler := by
  rw [deserialize_eq]
  split_ifs <;> rfl

/-- A parameter that `deserialize` is given in range is in range afterwards. -/
lemma inRange_deserialize {p : Val} (h : p.InRange) (src : List Byte) :
    (p.deserialize src).2.InRange := by
  rw [deserialize_eq]
  split_ifs with hacc
  · exact hacc
  · exact h

/-- A parameter reads back what another one with its handler, in range, wrote. -/
lemma deserialize_serialize {p q : Val} (hh : q.handler = p.handler) (hp : p.InRange)
    (rest : List Byte) : q.deserialize (p.serialize ++ rest) = (true, p) := by
  have hv : q.handler.T.ofBytes (p.serialize ++ rest) = p.val := by
    rw [hh]
    exact CType.ofBytes_toBytes p.val_repr rest
  have hacc : accepts q.handler (q.handler.T.ofBytes (p.serialize ++ rest)) = true := by
    rw [hv, hh]
    exact hp
  rw [deserialize_eq, if_pos hacc]
  exact congrArg (Prod.mk true) (ext_val hh hv)

/-! ### The callback -/

/-- Source: `prmSystemCallback.cpp` `getFwVer`. -/
def getFwVer (version : Version) (prm : Val) : Val :=
  match version.number prm.handler.arg with
  | some n => prm.set (prm.handler.T.conv n) (CType.repr_conv _ _)
  | none => prm

/-- The parameter after its callback, if it has one; the callback ignores `read` and `arg`.
Source: `prmSystem.h` `Val::operator()`. -/
def call (version : Version) (p : Val) (_read : Bool) : Val :=
  match p.handler.callback with
  | none => p
  | some .getFwVer => getFwVer version p

/-- A run of a callback: the parameter as it finds it, and its argument `read`. -/
structure CallbackRun where
  callback : Callback
  prm : Val
  read : Bool

/-- The run of the callback of a parameter, if it has one.
Source: `prmSystem.h` `Val::operator()`. -/
def callbackRun (p : Val) (read : Bool) : List CallbackRun :=
  match p.handler.callback with
  | none => []
  | some callback => [⟨callback, p, read⟩]

/-- The callback keeps the handler. -/
@[simp] lemma call_handler (version : Version) (p : Val) (read : Bool) :
    (p.call version read).handler = p.handler := by
  unfold call
  cases p.handler.callback with
  | none => rfl
  | some c =>
      cases c
      unfold getFwVer
      cases version.number p.handler.arg <;> rfl

/-! ### Stepping -/

/-- `stepsize * abs(step)` in the promoted type, truncated to `T`.
Source: `prmSystem.h` `Val::stepsize`, the initialisation of `result`. -/
def stepResult (h : ValHandler) (step stepsize : ℤ) : Option ℤ := do
  let a ← CType.int32.eval |step|
  let product ← h.T.arith.eval (stepsize * a)
  some (h.T.conv product)

/-- Source: `prmSystem.h` `Val::stepsize`; `none` where a signed overflow is undefined. -/
def stepsize (p : Val) (step stepsize : ℤ) : Option Val := do
  let h := p.handler
  let result ← stepResult h step stepsize
  if step < 0 then
    let room ← h.T.arith.eval (p.val - h.min)
    if result > room then some (p.set h.min h.min_repr)
    else
      let v ← h.T.arith.eval (p.val - result)
      some (p.set (h.T.conv v) (CType.repr_conv _ _))
  else
    let room ← h.T.arith.eval (h.max - p.val)
    if result > room then some (p.set h.max h.max_repr)
    else
      let v ← h.T.arith.eval (p.val + result)
      some (p.set (h.T.conv v) (CType.repr_conv _ _))

/-- What a step assigns, `x` before the conversion to the type.
Source: `prmSystem.h` `Val::stepsize`, `val - result` and `val + result`. -/
def assign (p : Val) (x : ℤ) : Option Val :=
  (p.handler.T.arith.eval x).map fun v => p.set (p.handler.T.conv v) (CType.repr_conv _ _)

/-- Source: `prmSystem.h` `Val::step`. -/
def step (p : Val) (n : ℤ) : Option Val := p.stepsize n p.handler.step

/-- Source: `prmSystem.h` `Val::bigstep`. -/
def bigstep (p : Val) (n : ℤ) : Option Val := p.stepsize n p.handler.bigstep

end Val

end PanelFirmware.Prm
