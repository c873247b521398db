import PanelFirmware.Lib.Bytes

/-!
# `hal/src/i2c.c`: transfers and their interrupts

`i2c_write` and `i2c_read` set up the DMA, generate the start condition and leave the rest to the
interrupts. The handlers look at the status register and at the driver's `state`, which says what
kind of transfer was started last.

* `i2cEventHendler_hook`, `i2cRxDmaHendler_hook`: when a handler calls the hook.
-/

namespace PanelFirmware.Hal

open PanelFirmware.Lib

/-- Source: `i2c.h` `i2cState_type`. -/
inductive I2cState
  | unknownState
  | free
  | txRun
  | rxRun
  | dmaRefresh
  | txSuccess
  | rxSuccess
  | errTx
  | errRx
  | ok
  | busError
  | acknowledgeFailure
  | pecError
  | timeout
  | softTimeout
  deriving DecidableEq

/-- Source: `i2c.h` `i2c_stopMode_type`. -/
inductive StopMode
  | needStop
  | withoutStop
  deriving DecidableEq

/-- A DMA stream: the memory address and the number of data. Source: `i2c.c` `M0AR`, `NDTR`. -/
structure Stream where
  m0ar : ℕ
  ndtr : ℕ

/-- The driver's data, with the registers that it writes: the address register's next byte, the
acknowledge bit and the two streams. Source: `i2c.h` `i2c_type`. -/
structure I2c where
  state : I2cState
  stopMode : StopMode
  slaveAdr : Byte
  lenOne : Bool
  dr : Byte
  ack : Bool
  dmaTx : Stream
  dmaRx : Stream

/-- The flags of the status register that the handlers look at. Source: `i2c.c` `I2Cx_SR1`. -/
structure SR1 where
  sb : Bool
  addr : Bool
  btf : Bool
  berr : Bool
  af : Bool
  pecerr : Bool

/-- The start of a transmission, all but the assignment to `state` at the end.
Source: `i2c.c` `i2c_write`. -/
def i2cWrite (i2c : I2c) (src len : ℕ) (slaveAdr : Byte) (stopMode : StopMode) : I2c :=
  { i2c with dmaTx := ⟨src, len⟩, slaveAdr := slaveAdr &&& 0xFE, stopMode, ack := true }

/-- The start of a reception, all but the assignment to `state` at the end.
Source: `i2c.c` `i2c_read`. -/
def i2cRead (i2c : I2c) (dst len : ℕ) (slaveAdr : Byte) : I2c :=
  { i2c with
    lenOne := decide (len = 1), dmaRx := ⟨dst, len⟩, slaveAdr := slaveAdr ||| 0x01, ack := true }

/-- The byte transfer has finished, and neither the start nor the address is still to be handled. -/
def SR1.finished (sr1 : SR1) : Bool := !sr1.sb && !sr1.addr && sr1.btf

/-- The driver after the event interrupt, and whether the hook is called. In both stop modes the
driver is left in the same state. Source: `i2c.c` `i2cEventHendler`. -/
def i2cEventHendler (i2c : I2c) (sr1 : SR1) : I2c × Bool :=
  if sr1.sb then ({ i2c with dr := i2c.slaveAdr }, false)
  else if sr1.addr then ({ i2c with ack := i2c.ack && !i2c.lenOne }, false)
  else if sr1.btf then
    if i2c.state = .txRun then ({ i2c with state := .txSuccess }, true) else (i2c, false)
  else (i2c, false)

/-- Source: `i2c.c` `i2cErrorHendler`. -/
def i2cErrorHendler (i2c : I2c) (sr1 : SR1) : I2c :=
  if sr1.berr then { i2c with state := .busError }
  else if sr1.af then { i2c with state := .acknowledgeFailure }
  else if sr1.pecerr then { i2c with state := .pecError }
  else i2c

/-- The driver after the interrupt of the receiving stream, and whether the hook is called.
Source: `i2c.c` `i2cRxDmaHendler`. -/
def i2cRxDmaHendler (i2c : I2c) : I2c × Bool :=
  if i2c.state = .rxRun then ({ i2c with state := .rxSuccess }, true) else (i2c, false)

/-- The event handler calls the hook at the end of a byte transfer while a transmission runs. -/
lemma i2cEventHendler_hook {i2c : I2c} {sr1 : SR1} (h : (i2cEventHendler i2c sr1).2 = true) :
    sr1.finished = true ∧ i2c.state = .txRun := by
  unfold i2cEventHendler at h
  split_ifs at h with hsb haddr hbtf hstate
  · refine ⟨?_, hstate⟩
    simp only [SR1.finished, Bool.eq_false_iff.mpr hsb, Bool.eq_false_iff.mpr haddr, hbtf]
    rfl

/-- The handler of the receiving stream calls the hook while a reception runs. -/
lemma i2cRxDmaHendler_hook {i2c : I2c} (h : (i2cRxDmaHendler i2c).2 = true) :
    i2c.state = .rxRun := by
  unfold i2cRxDmaHendler at h
  split_ifs at h with hstate
  exact hstate

end PanelFirmware.Hal
