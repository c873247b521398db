import PanelFirmware.Regulator.Bridge

/-!
# `regulator/src/regulatorTcpRequest.c`: a Modbus TCP request to the regulator

`reg_tcpModbusRequest` copies a request into a packet of its own, hands the packet from the unit
identifier on to `reg_modbusRequest`, and points its caller to the packet when that succeeds. When
it fails nothing is done: the caller's pointer and length are still those of the request.

* `regTcpModbusRequest_fail`, `regTcpModbusRequest_done`: the frame in the two cases.
-/

namespace PanelFirmware.Regulator

open PanelFirmware.Lib PanelFirmware.Libmodbus

/-- What a call of `reg_modbusRequest` comes to: its result, and the buffer and the length behind
its two pointers at that time. Source: `regulatorConnTSK.c` `reg_modbusRequest`. -/
structure Answer where
  result : Bool
  req : Buffer
  reqLength : ℕ

/-- `sizeof(tcpModbusPacket_t)`. Source: `regulatorTcpRequest.c` `tcpModbusPacket_t`. -/
def packetSize : ℕ := 7 + (253 + 2)

/-- The `Length` field of a packet. Source: `regulatorTcpRequest.c` `MBAPheader_t`. -/
def mbapLength (packet : Buffer) : ℕ := 256 * (packet 4).toNat + (packet 5).toNat

/-- A packet with another `Length`. Source: `regulatorTcpRequest.c` `reg_tcpModbusRequest`. -/
def setMbapLength (packet : Buffer) (len : ℕ) : Buffer :=
  Function.update (Function.update packet 4 (BitVec.ofNat 8 (len / 256))) 5 (BitVec.ofNat 8 len)

/-- A packet from its unit identifier on. Source: `regulatorTcpRequest.c` `tcpModbusPacket_t`. -/
def fromUnit (packet : Buffer) : Buffer := fun i => packet (6 + i)

/-- A packet with other bytes from its unit identifier on. -/
def setFromUnit (packet unit : Buffer) : Buffer := fun i => if i < 6 then packet i else unit (i - 6)

/-- The length of the frame, as it is stored in a `uint16_t`.
Source: `regulatorTcpRequest.c` `reg_tcpModbusRequest`, `lentowrite`, `*buflen`. -/
def lentowrite (len : ℕ) : ℕ := (6 + len) % 0x10000

/-- The packet afterwards, and the bytes that `readdata` and `buflen` denote then.
Source: `regulatorTcpRequest.c` `reg_tcpModbusRequest`. -/
def regTcpModbusRequest (regModbusRequest : Buffer → ℕ → Answer) (tcpModbusPacket : Buffer)
    (readdata : List Byte) : Buffer × List Byte :=
  let packet := tcpModbusPacket.write (if readdata.length ≤ packetSize then readdata else [])
  let answer := regModbusRequest (fromUnit packet) (mbapLength packet)
  let packet := setFromUnit packet answer.req
  if answer.result then
    let packet := setMbapLength packet answer.reqLength
    (packet, packet.bytes (lentowrite answer.reqLength))
  else (packet, readdata)

section Frame

variable {regModbusRequest : Buffer → ℕ → Answer} {answer : Answer}
  (hanswer : ∀ req reqLength, regModbusRequest req reqLength = answer)
include hanswer

/-- A request that fails is left to be sent back. -/
lemma regTcpModbusRequest_fail (hfail : answer.result = false) (packet : Buffer)
    (readdata : List Byte) :
    (regTcpModbusRequest regModbusRequest packet readdata).2 = readdata := by
  simp only [regTcpModbusRequest, hanswer, hfail, Bool.false_eq_true, if_false]

/-- The function code of the frame of a request that succeeds is the one of the packet, if the
frame is long enough to have one. -/
lemma regTcpModbusRequest_done (hdone : answer.result = true) (packet : Buffer)
    (readdata : List Byte) :
    (regTcpModbusRequest regModbusRequest packet readdata).2[7]?
      = if 8 ≤ lentowrite answer.reqLength then some (answer.req 1) else none := by
  simp only [regTcpModbusRequest, hanswer, hdone, if_true, Buffer.bytes, List.getElem?_map]
  by_cases hlong : 8 ≤ lentowrite answer.reqLength
  · rw [List.getElem?_range (by omega), if_pos hlong]
    rfl
  · rw [List.getElem?_eq_none (by rw [List.length_range]; omega), if_neg hlong, Option.map_none]

end Frame

end PanelFirmware.Regulator
