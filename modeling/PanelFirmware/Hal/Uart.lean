import PanelFirmware.Lib.Bytes

/-!
# `hal/src/uart.c`: the receiver

`uart_read` points the stream at a buffer and enables it; from then on each byte on the line is
written to memory without the processor. In idle-line mode, which all ports are built with, the
reception is ended by the idle line interrupt and the stream's own interrupt is not enabled.

* `UartRx.store_bytes`: what the buffer holds after a byte, when it held what was received before.
-/

namespace PanelFirmware.Hal

open PanelFirmware.Lib

/-- Source: `uart.h` `uartRxState_type`. -/
inductive UartRxState
  | free
  | run
  | success
  | stop
  | err
  deriving DecidableEq

/-- The receiving half of the driver's data with its stream: whether the stream is enabled, the
memory address, the number of data left and the number of those that have been written.
Source: `uart.h` `uart_type`; `uart.c` `pDmaStreamRx`. -/
structure UartRx where
  rxState : UartRxState
  en : Bool
  m0ar : ℕ
  ndtr : ℕ
  index : ℕ

/-- The start of a reception, all but the assignment to `rxState` at the end; the length is cut to
16 bits. Source: `uart.c` `uart_read`. -/
def uartRead (uart : UartRx) (dst : ℕ) (len : ℤ) : UartRx :=
  { uart with en := true, m0ar := dst, ndtr := (len % 2 ^ 16).toNat, index := 0 }

/-- The last assignment. Source: `uart.c` `uart_read`. -/
def uartReadRun (uart : UartRx) : UartRx := { uart with rxState := .run }

/-- The idle line interrupt, before it calls the hook. Source: `uart.c` `USART_IRQHandler`. -/
def usartIdle (uart : UartRx) : UartRx := { uart with en := false, rxState := .success }

/-- The stream takes a byte: it is enabled and has data left. -/
def UartRx.Takes (uart : UartRx) : Prop := uart.en = true ∧ uart.ndtr ≠ 0

instance (uart : UartRx) : Decidable uart.Takes := inferInstanceAs (Decidable (_ ∧ _))

/-- The address the next byte is written to. -/
def UartRx.address (uart : UartRx) : ℕ := uart.m0ar + uart.index

/-- The stream after it has written a byte. -/
def UartRx.advance (uart : UartRx) : UartRx :=
  { uart with ndtr := uart.ndtr - 1, index := uart.index + 1 }

/-- The bytes of memory from an address on. -/
def bytesAt (memory : ℕ → Byte) (address n : ℕ) : List Byte :=
  (List.range n).map fun i => memory (address + i)

/-- A buffer that holds what the stream has written still does after the next byte. -/
lemma UartRx.store_bytes {uart : UartRx} {memory : ℕ → Byte} {frame : List Byte}
    (h : bytesAt memory uart.m0ar uart.index = frame) (b : Byte) :
    bytesAt (Function.update memory uart.address b) uart.m0ar (uart.index + 1) = frame ++ [b] := by
  have hbefore : ∀ i ∈ List.range uart.index,
      Function.update memory uart.address b (uart.m0ar + i) = memory (uart.m0ar + i) := by
    intro i hi
    have hlt := List.mem_range.mp hi
    rw [Function.update_of_ne (by rw [UartRx.address]; omega)]
  rw [bytesAt, List.range_succ, List.map_append, List.map_congr_left hbefore, ← h]
  simp only [List.map_cons, List.map_nil, ← UartRx.address.eq_def, Function.update_self, bytesAt]

end PanelFirmware.Hal
