import PanelFirmware.Prm.Parameters
import PanelFirmware.Systems.ImageHeader

/-!
# `portfreemodbus/src/porttcp.cpp`: the callbacks of the Modbus stack

`eMBRegHoldingCB` moves registers between a request and the parameter store, through a staging
buffer of four bytes; `eMBFileRecordCB` programs a record of an upgrade into the storage region.

The two loops of `eMBRegHoldingCB` differ in what they do with one parameter only, so that the
walk over the table is one definition, `walk`, with the body as a parameter. Besides its effect
the walk logs each call of `serialize` or `deserialize`, and each run of a callback, so that
results can speak of them.
-/

namespace PanelFirmware.Modbus

open PanelFirmware.Lib PanelFirmware.Hal PanelFirmware.Prm PanelFirmware.Systems

/-- Source: `freemodbus` `mb.h` `eMBErrorCode`. -/
inductive MBErrorCode
  | enoerr
  | enoreg
  | einval
  | eporterr
  | enores
  | eio
  | eillstate
  | etimedout
  deriving DecidableEq, Repr

/-- Source: `freemodbus` `mb.h` `eMBRegisterMode`. -/
inductive RegisterMode
  | read
  | write
  deriving DecidableEq, Repr

/-! ### Holding registers -/

/-- The position of the first parameter declared at an address, the table's length if there is
none. Source: `prmSystem.cpp` `getbyaddress`, `currentIndex`. -/
def getbyaddress (vals : List Val) (address : ℕ) : ℕ :=
  vals.findIdx fun p => address = p.getaddress

/-- The registers a parameter takes from the request.
Source: `porttcp.cpp` `eMBRegHoldingCB`, `switch(prmsize)`. -/
def registers (prmsize : ℕ) : ℕ :=
  match prmsize with
  | 1 | 2 => 1
  | 4 => 2
  | _ => 0

/-- The bytes of the staging buffer in the order of the frame.
Source: `porttcp.cpp` `eMBRegHoldingCB`, `switch(prmsize)` of `MB_REG_READ`. -/
def toFrame (buffer : List Byte) (prmsize : ℕ) : List Byte :=
  match prmsize with
  | 1 | 2 => [buffer.getD 1 0, buffer.getD 0 0]
  | 4 => [buffer.getD 1 0, buffer.getD 0 0, buffer.getD 3 0, buffer.getD 2 0]
  | _ => []

/-- The bytes of the staging buffer that are filled from the frame; those after them are
indeterminate.
Source: `porttcp.cpp` `eMBRegHoldingCB`, `switch(prmsize)` of `MB_REG_WRITE`. -/
def fromFrame (pucRegBuffer : ℕ → Byte) (prmsize : ℕ) : List Byte :=
  match prmsize with
  | 1 | 2 => [pucRegBuffer 1, pucRegBuffer 0]
  | 4 => [pucRegBuffer 1, pucRegBuffer 0, pucRegBuffer 3, pucRegBuffer 2]
  | _ => []

/-- What a loop body does with a parameter: it runs over the staging buffer, it rejects the
value, or it moves it, with the bytes put into the frame; and the callbacks it has run. -/
inductive Move
  | overrun (ran : List Val.CallbackRun)
  | reject (p : Val)
  | move (p : Val) (sent : List Byte) (ran : List Val.CallbackRun)

/-- `uint8_t buffer[4] = {}; ph->serialize(buffer)`; `none` where the buffer is too small.
Source: `porttcp.cpp` `eMBRegHoldingCB`, `MB_REG_READ`. -/
def stage (bytes : List Byte) : Option (List Byte) :=
  if bytes.length ≤ 4 then some (bytes ++ List.replicate (4 - bytes.length) 0) else none

/-- Source: `porttcp.cpp` `eMBRegHoldingCB`, the loop of `MB_REG_READ`. -/
def readBody (version : Version) (p : Val) (_consumed : ℕ) : Move :=
  let p' := p.call version true
  match stage p'.serialize with
  | none => .overrun (p.callbackRun true)
  | some buffer => .move p' (toFrame buffer p.getsize) (p.callbackRun true)

/-- `deserialize` reads `getsize()` bytes of the staging buffer; `.overrun` where these are not
all filled.
Source: `porttcp.cpp` `eMBRegHoldingCB`, the loop of `MB_REG_WRITE`. -/
def writeBody (version : Version) (pucRegBuffer : ℕ → Byte) (p : Val) (consumed : ℕ) : Move :=
  let buffer := fromFrame (fun i => pucRegBuffer (2 * consumed + i)) p.getsize
  if p.getsize ≤ buffer.length then
    match p.deserialize buffer with
    | (false, p') => .reject p'
    | (true, p') => .move (p'.call version false) [] (p'.callbackRun false)
  else .overrun []

/-- The bytes of the staging buffer that an iteration has filled before it hands the buffer to
the parameter: all that were initialised, or those taken from the frame. -/
def filled : RegisterMode → ℕ → ℕ
  | .read, _ => 4
  | .write, prmsize => 2 * registers prmsize

/-- A call of `serialize` or `deserialize`: the parameter, and the registers the request had
consumed before. -/
structure Access where
  handler : ValHandler
  consumed : ℕ

/-- The end of a walk: the parameters from its entry on, the bytes put into the frame, the calls,
the callbacks run, and the code returned (`none` after an overrun). -/
structure Walk where
  vals : List Val
  sent : List Byte
  calls : List Access
  callbacks : List Val.CallbackRun
  code : Option MBErrorCode

/-- The loop over the parameters from the entry on: `ph` is the head of the list, and the end of
the list is the null pointer.
Source: `porttcp.cpp` `eMBRegHoldingCB`, `while(usNRegs > 0)`; `prmSystem.cpp` `getNext`. -/
def walk (body : Val → ℕ → Move) : List Val → ℕ → ℕ → Walk
  | ps, _, 0 => ⟨ps, [], [], [], some .enoerr⟩
  | [], _, _ + 1 => ⟨[], [], [], [], some .enoreg⟩
  | p :: ps, consumed, n + 1 =>
      if p.getsize = 4 ∧ n + 1 < 2 then ⟨p :: ps, [], [], [], some .einval⟩
      else
        match body p consumed with
        | .overrun ran => ⟨p :: ps, [], [⟨p.handler, consumed⟩], ran, none⟩
        | .reject p' => ⟨p' :: ps, [], [⟨p.handler, consumed⟩], [], some .einval⟩
        | .move p' sent ran =>
            let rest := walk body ps (consumed + registers p.getsize)
              (n + 1 - registers p.getsize)
            ⟨p' :: rest.vals, sent ++ rest.sent, ⟨p.handler, consumed⟩ :: rest.calls,
              ran ++ rest.callbacks, rest.code⟩

/-- `usAddress--` of a `USHORT`. Source: `porttcp.cpp` `eMBRegHoldingCB`. -/
def startAddress (usAddress : ℕ) : ℕ := (usAddress + 0xFFFF) % 0x10000

/-- The body of the loop of a mode. -/
def bodyOf (version : Version) (pucRegBuffer : ℕ → Byte) : RegisterMode → Val → ℕ → Move
  | .read => readBody version
  | .write => writeBody version pucRegBuffer

/-- The whole call; `vals` of the result is the store afterwards.
Source: `porttcp.cpp` `eMBRegHoldingCB`. -/
def eMBRegHoldingCB (version : Version) (vals : List Val) (pucRegBuffer : ℕ → Byte)
    (usAddress usNRegs : ℕ) (eMode : RegisterMode) : Walk :=
  let index := getbyaddress vals (startAddress usAddress)
  let w := walk (bodyOf version pucRegBuffer eMode) (vals.drop index) 0 usNRegs
  { w with vals := vals.take index ++ w.vals }

/-! ### File records -/

/-- `uint8_t m[128]` after `n` rounds of the copying loop; `none` once it is overrun. The bytes
not copied are indeterminate; nothing reads them.
Source: `porttcp.cpp` `eMBFileRecordCB`, `for(size_t i = 0; i < usLen; i++)`. -/
def fillRecord (pucDataBuffer : ℕ → Byte) : ℕ → Option (ℕ → Byte)
  | 0 => some fun _ => 0
  | n + 1 => do
      let m ← fillRecord pucDataBuffer n
      if n * 2 + 1 < 128 then
        some (Function.update (Function.update m (n * 2) (pucDataBuffer (n * 2))) (n * 2 + 1)
          (pucDataBuffer (n * 2 + 1)))
      else none

/-- Source: `porttcp.cpp` `eMBFileRecordCB`. -/
def eMBFileRecordCB (pucDataBuffer : ℕ → Byte) (usFile usRecord usLen : ℕ)
    (eMode : RegisterMode) : Prog Flash MBErrorCode :=
  let offset := usRecord * 128
  if usFile ≠ 1 then pure .einval
  else if offset ≥ storageSize then pure .einval
  else
    match eMode with
    | .write => do
        let m ← Prog.ofOption (fillRecord pucDataBuffer usLen)
        flashWrite (storageStartAddress + offset) (.ram m) (usLen * 2)
        pure .enoerr
    | .read => pure .enoerr

end PanelFirmware.Modbus
