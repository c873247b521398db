import PanelFirmware.Lib.Packed

/-!
# `handle_statemeastask` and `net/resource/overall.js`: the measurements on the page

The firmware answers `statemeastask.bin` with the packed structure `bin_statemeastask`, filled in
from the regulator's state and target. The page reads it by offset, size and sign through a
`DataView`. Every read is of a member's own place and size; all but those of the two targets have
the member's sign.

* `readPage_eq`: what the page reads.
* `readPage_statemeastask_iff`: when it is what the firmware placed there.
-/

namespace PanelFirmware.Net

open PanelFirmware.Lib

/-! ### The firmware -/

/-- The members of the regulator's state the handler takes.
Source: `regulatorConnTSK.h` `regState_t`. -/
structure RegState where
  voltage : Scalar true 4
  current : Scalar true 4
  power : Scalar false 4
  resistance : Scalar true 4
  time : Scalar false 4
  capacity : Scalar false 4
  iFan : Scalar true 2
  tempHeatsink : Scalar true 2
  status : Scalar false 2
  error : Scalar false 2
  disablecause : Scalar false 2

/-- The members of the regulator's target the handler takes.
Source: `regulatorConnTSK.h` `regTarget_t`. -/
structure RegTarget where
  voltageSet : Scalar true 4
  currentSet : Scalar true 4

/-- Source: `htmlPage.c` `bin_statemeastask`. -/
structure Statemeastask where
  connect : Scalar false 1
  enable : Scalar false 1
  voltage : Scalar true 4
  current : Scalar true 4
  power : Scalar false 4
  resistance : Scalar true 4
  time : Scalar false 4
  capacity : Scalar false 4
  inputVoltage : Scalar true 4
  temperature : Scalar true 2
  status : Scalar false 2
  error : Scalar false 2
  disablecause : Scalar false 2
  voltageSet : Scalar true 4
  currentSet : Scalar true 4

/-- The members in the order of the declaration. Source: `htmlPage.c` `bin_statemeastask`. -/
def Statemeastask.members (b : Statemeastask) : List Member :=
  [⟨_, _, b.connect⟩, ⟨_, _, b.enable⟩, ⟨_, _, b.voltage⟩, ⟨_, _, b.current⟩, ⟨_, _, b.power⟩,
    ⟨_, _, b.resistance⟩, ⟨_, _, b.time⟩, ⟨_, _, b.capacity⟩, ⟨_, _, b.inputVoltage⟩,
    ⟨_, _, b.temperature⟩, ⟨_, _, b.status⟩, ⟨_, _, b.error⟩, ⟨_, _, b.disablecause⟩,
    ⟨_, _, b.voltageSet⟩, ⟨_, _, b.currentSet⟩]

/-- A `bool` as the number it is assigned as. -/
def ofBool (b : Bool) : Scalar false 1 := Scalar.conv b.toNat

/-- The structure after the handler: all of it when the regulator is connected, only the flag
otherwise. `regMeas`, `regenable` and `regTarget` are the handler's locals after `reg_getState`,
`reg_enableGet` and `reg_getTarget`.
Source: `htmlPage.c` `handle_statemeastask`. -/
def handleStatemeastask (b : Statemeastask) (connected regenable : Bool) (regMeas : RegState)
    (regTarget : RegTarget) : Statemeastask :=
  if connected then
    { connect := ofBool connected
      enable := ofBool regenable
      voltage := regMeas.voltage
      current := regMeas.current
      power := regMeas.power
      resistance := regMeas.resistance
      time := regMeas.time
      capacity := regMeas.capacity
      inputVoltage := Scalar.conv regMeas.iFan.val
      temperature := regMeas.tempHeatsink
      status := regMeas.status
      error := regMeas.error
      disablecause := regMeas.disablecause
      voltageSet := regTarget.voltageSet
      currentSet := regTarget.currentSet }
  else { b with connect := ofBool connected }

/-- The bytes of the reply's body. Source: `htmlPage.c` `handle_statemeastask`, `urlData`. -/
def Statemeastask.payload (b : Statemeastask) : List Byte := pack b.members

/-! ### The page -/

/-- Source: `overall.js`, `x.getUint8`. -/
def getUint8 (x : List Byte) (off : ℕ) : Option ℤ := readAt false 1 x off

/-- Source: `overall.js`, `x.getInt16` with `true` for little-endian. -/
def getInt16 (x : List Byte) (off : ℕ) : Option ℤ := readAt true 2 x off

/-- Source: `overall.js`, `x.getUint16` with `true` for little-endian. -/
def getUint16 (x : List Byte) (off : ℕ) : Option ℤ := readAt false 2 x off

/-- Source: `overall.js`, `x.getInt32` with `true` for little-endian. -/
def getInt32 (x : List Byte) (off : ℕ) : Option ℤ := readAt true 4 x off

/-- Source: `overall.js`, `x.getUint32` with `true` for little-endian. -/
def getUint32 (x : List Byte) (off : ℕ) : Option ℤ := readAt false 4 x off

/-- The numbers the page reads. Source: `overall.js` `updateInfo`. -/
@[ext] structure Page where
  connect : ℤ
  enable : ℤ
  resistance : ℤ
  voltage : ℤ
  current : ℤ
  power : ℤ
  time : ℤ
  capacity : ℤ
  temperature : ℤ
  status : ℤ
  error : ℤ
  disablecause : ℤ
  voltageSet : ℤ
  currentSet : ℤ
  deriving DecidableEq

/-- The page's reads, in its order; `none` where one is outside of the reply.
Source: `overall.js` `updateInfo`, `oReq.onload`. -/
def readPage (x : List Byte) : Option Page := do
  let connect ← getUint8 x 0
  let enable ← getUint8 x 1
  let resistance ← getInt32 x 14
  let voltage ← getInt32 x 2
  let current ← getInt32 x 6
  let power ← getUint32 x 10
  let time ← getUint32 x 18
  let capacity ← getUint32 x 22
  let temperature ← getInt16 x 30
  let status ← getUint16 x 32
  let error ← getUint16 x 34
  let disablecause ← getUint16 x 36
  let voltageSet ← getUint32 x 38
  let currentSet ← getUint32 x 42
  some { connect, enable, resistance, voltage, current, power, time, capacity, temperature, status,
         error, disablecause, voltageSet, currentSet }

/-- The values of the members the page uses. -/
def Statemeastask.page (b : Statemeastask) : Page where
  connect := b.connect.val
  enable := b.enable.val
  resistance := b.resistance.val
  voltage := b.voltage.val
  current := b.current.val
  power := b.power.val
  time := b.time.val
  capacity := b.capacity.val
  temperature := b.temperature.val
  status := b.status.val
  error := b.error.val
  disablecause := b.disablecause.val
  voltageSet := b.voltageSet.val
  currentSet := b.currentSet.val

/-- What the page should show of a regulator's state and target. -/
def shown (regenable : Bool) (regMeas : RegState) (regTarget : RegTarget) : Page where
  connect := 1
  enable := regenable.toNat
  resistance := regMeas.resistance.val
  voltage := regMeas.voltage.val
  current := regMeas.current.val
  power := regMeas.power.val
  time := regMeas.time.val
  capacity := regMeas.capacity.val
  temperature := regMeas.tempHeatsink.val
  status := regMeas.status.val
  error := regMeas.error.val
  disablecause := regMeas.disablecause.val
  voltageSet := regTarget.voltageSet.val
  currentSet := regTarget.currentSet.val

/-! ### The two together -/

/-- The sizes of the members, in order. -/
def memberSizes : List ℕ := [1, 1, 4, 4, 4, 4, 4, 4, 4, 2, 2, 2, 2, 4, 4]

/-- The structure's layout does not depend on its values. -/
lemma map_size_members (b : Statemeastask) : b.members.map Member.size = memberSizes := rfl

/-- What the page reads of a reply: each member's value, the two targets as unsigned numbers. -/
lemma readPage_eq (b : Statemeastask) :
    readPage b.payload = some { b.page with
      voltageSet := wrap false 32 b.voltageSet.val
      currentSet := wrap false 32 b.currentSet.val } := by
  have hs := map_size_members b
  have hconnect : getUint8 b.payload 0 = some b.connect.val :=
    readAt_pack_self hs 0 (m := ⟨_, _, b.connect⟩) rfl rfl
  have henable : getUint8 b.payload 1 = some b.enable.val :=
    readAt_pack_self hs 1 (m := ⟨_, _, b.enable⟩) rfl rfl
  have hvoltage : getInt32 b.payload 2 = some b.voltage.val :=
    readAt_pack_self hs 2 (m := ⟨_, _, b.voltage⟩) rfl rfl
  have hcurrent : getInt32 b.payload 6 = some b.current.val :=
    readAt_pack_self hs 3 (m := ⟨_, _, b.current⟩) rfl rfl
  have hpower : getUint32 b.payload 10 = some b.power.val :=
    readAt_pack_self hs 4 (m := ⟨_, _, b.power⟩) rfl rfl
  have hresistance : getInt32 b.payload 14 = some b.resistance.val :=
    readAt_pack_self hs 5 (m := ⟨_, _, b.resistance⟩) rfl rfl
  have htime : getUint32 b.payload 18 = some b.time.val :=
    readAt_pack_self hs 6 (m := ⟨_, _, b.time⟩) rfl rfl
  have hcapacity : getUint32 b.payload 22 = some b.capacity.val :=
    readAt_pack_self hs 7 (m := ⟨_, _, b.capacity⟩) rfl rfl
  have htemperature : getInt16 b.payload 30 = some b.temperature.val :=
    readAt_pack_self hs 9 (m := ⟨_, _, b.temperature⟩) rfl rfl
  have hstatus : getUint16 b.payload 32 = some b.status.val :=
    readAt_pack_self hs 10 (m := ⟨_, _, b.status⟩) rfl rfl
  have herror : getUint16 b.payload 34 = some b.error.val :=
    readAt_pack_self hs 11 (m := ⟨_, _, b.error⟩) rfl rfl
  have hcause : getUint16 b.payload 36 = some b.disablecause.val :=
    readAt_pack_self hs 12 (m := ⟨_, _, b.disablecause⟩) rfl rfl
  -- the targets are signed members, read as unsigned numbers
  have hvoltageSet : getUint32 b.payload 38 = some (wrap false 32 b.voltageSet.val) :=
    readAt_pack_of_sizes hs 13 (m := ⟨_, _, b.voltageSet⟩) rfl rfl false
  have hcurrentSet : getUint32 b.payload 42 = some (wrap false 32 b.currentSet.val) :=
    readAt_pack_of_sizes hs 14 (m := ⟨_, _, b.currentSet⟩) rfl rfl false
  simp only [readPage, hconnect, henable, hvoltage, hcurrent, hpower, hresistance, htime,
    hcapacity, htemperature, hstatus, herror, hcause, hvoltageSet, hcurrentSet,
    Option.bind_eq_bind, Option.bind_some]
  rfl

/-- An unsigned read of a signed member is the member's value where that is not negative. -/
lemma wrap_unsigned_eq_iff (x : Scalar true 4) : wrap false 32 x.val = x.val ↔ 0 ≤ x.val := by
  have hfit := (fits_signed_iff 31 x.val).mp x.fits
  have hiff : wrap false 32 x.val = x.val ↔ 0 ≤ x.val ∧ x.val < 2 ^ 32 := fits_unsigned_iff 32 x.val
  rw [hiff]
  omega

/-- The page has the values of the members exactly if the targets are not negative. -/
lemma readPage_payload_iff (b : Statemeastask) :
    readPage b.payload = some b.page ↔ 0 ≤ b.voltageSet.val ∧ 0 ≤ b.currentSet.val := by
  rw [readPage_eq, Option.some.injEq, ← wrap_unsigned_eq_iff, ← wrap_unsigned_eq_iff]
  constructor
  · intro h
    exact ⟨congrArg Page.voltageSet h, congrArg Page.currentSet h⟩
  · rintro ⟨hvoltage, hcurrent⟩
    rw [hvoltage, hcurrent]
    rfl

/-- With the regulator connected the handler places what should be shown. -/
lemma page_handleStatemeastask (b : Statemeastask) (regenable : Bool) (regMeas : RegState)
    (regTarget : RegTarget) :
    (handleStatemeastask b true regenable regMeas regTarget).page =
      shown regenable regMeas regTarget := by
  cases regenable <;> rfl

/-- **The decode undoes the encode, and exactly when.** For every state and target of the
regulator and whatever the structure held before, the page reads exactly the values the firmware
placed there if and only if neither target is negative; with the regulator not connected these are
the targets placed there before. -/
theorem readPage_statemeastask_iff (b : Statemeastask) (regenable : Bool) (regMeas : RegState)
    (regTarget : RegTarget) :
    (readPage (handleStatemeastask b true regenable regMeas regTarget).payload =
        some (shown regenable regMeas regTarget) ↔
      0 ≤ regTarget.voltageSet.val ∧ 0 ≤ regTarget.currentSet.val) ∧
    (readPage (handleStatemeastask b false regenable regMeas regTarget).payload =
        some { b.page with connect := 0 } ↔
      0 ≤ b.voltageSet.val ∧ 0 ≤ b.currentSet.val) := by
  constructor
  · rw [← page_handleStatemeastask b]
    exact readPage_payload_iff _
  · exact readPage_payload_iff (handleStatemeastask b false regenable regMeas regTarget)

/-- A regulator with every number of its state zero. -/
def zeroState : RegState :=
  ⟨Scalar.conv 0, Scalar.conv 0, Scalar.conv 0, Scalar.conv 0, Scalar.conv 0, Scalar.conv 0,
    Scalar.conv 0, Scalar.conv 0, Scalar.conv 0, Scalar.conv 0, Scalar.conv 0⟩

/-- **The decode does not undo the encode.** A voltage target of minus one microvolt is read as
4294967295. -/
theorem not_forall_readPage_statemeastask :
    ¬ ∀ (b : Statemeastask) (regenable : Bool) (regMeas : RegState) (regTarget : RegTarget),
      readPage (handleStatemeastask b true regenable regMeas regTarget).payload =
        some (shown regenable regMeas regTarget) := by
  intro hall
  have hread := hall ⟨Scalar.conv 0, Scalar.conv 0, Scalar.conv 0, Scalar.conv 0, Scalar.conv 0,
    Scalar.conv 0, Scalar.conv 0, Scalar.conv 0, Scalar.conv 0, Scalar.conv 0, Scalar.conv 0,
    Scalar.conv 0, Scalar.conv 0, Scalar.conv 0, Scalar.conv 0⟩ true zeroState
    ⟨Scalar.conv (-1), Scalar.conv 0⟩
  rw [readPage_eq, Option.some.injEq] at hread
  exact absurd (congrArg Page.voltageSet hread) (by decide)

end PanelFirmware.Net
