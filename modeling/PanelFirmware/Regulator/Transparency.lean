import PanelFirmware.Modbus.Segmentation
import PanelFirmware.Regulator.Bridge

/-!
# What the bridge makes of a request and of its answer

A request goes through one buffer three times: the slave's number is put over its unit identifier
and a checksum behind it, the answer is received over it, and the length of the answer is stored in
its header. The unit identifier is not put back.

* `exists_rawModbusMessage`: `rawModbusMessage` as one function is what the mailbox's machine does.
* `transparent_iff`: for every consistent request and every valid answer, exactly when both come
  through the bridge unchanged.
-/

namespace PanelFirmware.Regulator

open PanelFirmware.Lib PanelFirmware.Libmodbus PanelFirmware.Modbus PanelFirmware.Utils

/-! ### The code -/

/-- What `rawModbusMessage` sends, and what it leaves: its result, and the buffer and the length
behind its pointers. Source: `regulatorConnTSK.c` `rawModbusMessage`. -/
structure RawMessage where
  frame : List Byte
  answer : Answer

/-- A message with its answer; the length of the frame is cut to 16 bits by the driver.
Source: `regulatorConnTSK.c` `rawModbusMessage`; `uart.c` `uart_write`. -/
def rawModbusMessage (req : Buffer) (reqLength : ℕ) (reply : Bridge.Reply) : RawMessage :=
  let sent := sendMsgPre (Function.update req 0 Bridge.defaultslave) reqLength
  let frame := sent.1.bytes (sent.2 % 0x10000)
  let req := sent.1.write reply.received
  if reply.rc < 3 then ⟨frame, ⟨false, req, reqLength⟩⟩
  else ⟨frame, ⟨true, req, (reply.rc - 2).toNat⟩⟩

/-- The packet after the copy of a request.
Source: `regulatorTcpRequest.c` `reg_tcpModbusRequest`. -/
def posted (tcpModbusPacket : Buffer) (readdata : List Byte) : Buffer :=
  tcpModbusPacket.write (if readdata.length ≤ packetSize then readdata else [])

/-- `rawModbusMessage` for a posted packet. -/
def forwarded (packet : Buffer) (reply : Bridge.Reply) : RawMessage :=
  rawModbusMessage (fromUnit packet) (mbapLength packet) reply

/-- A call of `reg_modbusRequest` that is served in time. -/
def served (reply : Bridge.Reply) (req : Buffer) (reqLength : ℕ) : Answer :=
  (rawModbusMessage req reqLength reply).answer

/-- **The function is the machine's.** A regulator task that has called `rawModbusMessage` sends its
message and has its answer, and leaves what the function says. -/
theorem exists_rawModbusMessage {s : Bridge.State} {req reqLength : ℕ}
    (hreg : s.reg = .called (some req) (some reqLength)) (reply : Bridge.Reply) :
    ∃ t u, Bridge.regStep s = some t ∧ Bridge.receiveStep t reply = some u ∧
      u.buffers req = (served reply (s.buffers req) (s.lengths reqLength)).req ∧
      u.reg = if (served reply (s.buffers req) (s.lengths reqLength)).result
        then .received req reqLength (served reply (s.buffers req) (s.lengths reqLength)).reqLength
        else .done false := by
  refine ⟨_, _, by rw [Bridge.regStep, hreg]; rfl, rfl, ?_, ?_⟩
  · simp only [served, rawModbusMessage, Function.update_self]
    split_ifs <;> rfl
  · by_cases hshort : reply.rc < 3
    · simp only [served, rawModbusMessage, if_pos hshort]
      rfl
    · simp only [served, rawModbusMessage, if_neg hshort]
      rfl

/-- The frame does not depend on the answer. -/
lemma frame_rawModbusMessage (req : Buffer) (reqLength : ℕ) (reply : Bridge.Reply) :
    (rawModbusMessage req reqLength reply).frame =
      Buffer.bytes (sendMsgPre (Function.update req 0 Bridge.defaultslave) reqLength).1
        ((reqLength + 2) % 0x10000) := by
  simp only [rawModbusMessage]
  split_ifs <;> rfl

/-! ### Frames -/

/-- The bytes of a buffer in two parts. -/
lemma bytes_add (buffer : Buffer) (m n : ℕ) :
    buffer.bytes (m + n) = buffer.bytes m ++ Buffer.bytes (fun i => buffer (m + i)) n := by
  simp only [Buffer.bytes, List.range_add, List.map_append, List.map_map]
  rfl

/-- The first bytes of a copy are those of its source. -/
lemma bytes_write_take (buffer : Buffer) {src : List Byte} {n : ℕ} (h : n ≤ src.length) :
    Buffer.bytes (buffer.write src) n = src.take n := by
  refine List.ext_getElem? fun i => ?_
  rw [Buffer.bytes, List.getElem?_map]
  by_cases hi : i < n
  · have hsrc := List.getElem?_eq_getElem (show i < src.length by omega)
    rw [List.getElem?_range hi, Option.map_some, List.getElem?_take_of_lt hi, hsrc,
      Buffer.write_apply hsrc]
  · rw [List.getElem?_eq_none (by rw [List.length_range]; omega), Option.map_none,
      List.getElem?_eq_none (by rw [List.length_take]; omega)]

/-- The frame that is sent back: the first four bytes of the packet, the length of the answer and
the answer. -/
lemma bytes_setMbapLength (packet unit : Buffer) (len n : ℕ) :
    (setMbapLength (setFromUnit packet unit) len).bytes (6 + n) =
      packet.bytes 4 ++ [BitVec.ofNat 8 (len / 256), BitVec.ofNat 8 len] ++ unit.bytes n := by
  have hunit : (fun i => setMbapLength (setFromUnit packet unit) len (6 + i)) = unit := by
    funext i
    rw [setMbapLength, Function.update_of_ne (by omega), Function.update_of_ne (by omega),
      setFromUnit, if_neg (by omega), Nat.add_sub_cancel_left]
  rw [bytes_add, hunit]
  rfl

/-- The message of a consistent request is the slave's number and the request's bytes behind its
unit identifier. -/
lemma bytes_update_fromUnit (packet : Buffer) {readdata : List Byte} {n : ℕ}
    (h : n + 7 = readdata.length) :
    Buffer.bytes (Function.update (fromUnit (packet.write readdata)) 0 Bridge.defaultslave) (1 + n)
      = Bridge.defaultslave :: readdata.drop 7 := by
  have hrest : (fun i => Function.update (fromUnit (packet.write readdata)) 0 Bridge.defaultslave
      (1 + i)) = fun i => packet.write readdata (7 + i) := by
    funext i
    rw [Function.update_of_ne (by omega), fromUnit, ← Nat.add_assoc]
  have hwhole : Buffer.bytes (packet.write readdata) (7 + n) = readdata := by
    rw [bytes_write_take _ (by omega), List.take_of_length_le (by omega)]
  rw [bytes_add] at hwhole
  have hdrop := congrArg (List.drop 7) hwhole
  rw [List.drop_left' (by rw [Buffer.bytes, List.length_map, List.length_range])] at hdrop
  rw [bytes_add, hrest, hdrop]
  rfl

/-! ### Transparency -/

/-- A consistent request: its `Length` counts the bytes behind it, of which there are two to 254,
for a unit that is not the panel. -/
structure ConsistentRequest (readdata : List Byte) : Prop where
  length : 256 * (readdata.getD 4 0).toNat + (readdata.getD 5 0).toNat + 6 = readdata.length
  two_le : 8 ≤ readdata.length
  le_254 : readdata.length ≤ 260
  unit : readdata[6]? ≠ some 2

/-- A valid answer of the regulator, delivered by the library: its number, a response and their
checksum. -/
structure ValidAnswer (reply : Bridge.Reply) (pdu : List Byte) : Prop where
  accepted : reply.accepted = true
  pdu_ne_nil : pdu ≠ []
  received : ∃ crc, crc16Calc crcModBus (Bridge.defaultslave :: pdu) = some crc ∧
    reply.received = Bridge.defaultslave :: pdu ++ toBytesLE 2 crc.toNat

/-- The request is forwarded and its answer sent back unchanged: the serial frame is the slave's
number, the request behind its unit identifier and their checksum; what is sent back has the first
four bytes of the request and its unit identifier, the number of the bytes behind it in its
`Length`, and the response. -/
def Transparent (port : Port) (inbuf : Netbuf) (reply : Bridge.Reply) (pdu : List Byte) : Prop :=
  ∃ r out crc, xMBTCPPortGetRequest (served reply) port (.ok inbuf) = some r ∧
    crc16Calc crcModBus (Bridge.defaultslave :: inbuf.payload.drop 7) = some crc ∧
    (forwarded (posted port.tcpModbusPacket inbuf.payload) reply).frame
      = Bridge.defaultslave :: inbuf.payload.drop 7 ++ toBytesLE 2 crc.toNat ∧
    r.sent = some out ∧ out.take 4 = inbuf.payload.take 4 ∧ out[6]? = inbuf.payload[6]? ∧
    256 * (out.getD 4 0).toNat + (out.getD 5 0).toNat + 6 = out.length ∧ out.drop 7 = pdu

/-- The posted packet begins with the request. -/
lemma posted_eq (packet : Buffer) {readdata : List Byte} (h : ConsistentRequest readdata) :
    posted packet readdata = packet.write readdata := by
  have hfits : readdata.length ≤ packetSize := le_trans h.le_254 (by decide)
  rw [posted, if_pos hfits]

/-- The `Length` of the posted packet. -/
lemma mbapLength_posted (packet : Buffer) {readdata : List Byte} (h : ConsistentRequest readdata) :
    mbapLength (posted packet readdata) + 6 = readdata.length := by
  have hlong := h.two_le
  have hbyte : ∀ i, i < readdata.length → packet.write readdata i = readdata.getD i 0 := by
    intro i hi
    rw [Buffer.write, List.getD_eq_getElem _ _ hi, List.getD_eq_getElem _ _ hi]
  rw [posted_eq packet h, mbapLength, hbyte 4 (by omega), hbyte 5 (by omega), h.length]

/-- **The serial frame** is the slave's number, the request behind its unit identifier and a
checksum. -/
theorem frame_forwarded (packet : Buffer) {readdata : List Byte} (h : ConsistentRequest readdata)
    (reply : Bridge.Reply) :
    ∃ crc, crc16Calc crcModBus (Bridge.defaultslave :: readdata.drop 7) = some crc ∧
      (forwarded (posted packet readdata) reply).frame
        = Bridge.defaultslave :: readdata.drop 7 ++ toBytesLE 2 crc.toNat := by
  have hlong := h.two_le
  have hshort := h.le_254
  have hlength : mbapLength (posted packet readdata) = 1 + (readdata.length - 7) := by
    have hfield := mbapLength_posted packet h
    omega
  refine ⟨_, crc16Calc_eq (List.cons_ne_nil _ _), ?_⟩
  have hmod : (1 + (readdata.length - 7) + 2) % 0x10000 = 1 + (readdata.length - 7) + 2 :=
    Nat.mod_eq_of_lt (by omega)
  have hframe := bytes_sendMsgPre
    (Function.update (fromUnit (packet.write readdata)) 0 Bridge.defaultslave)
    (1 + (readdata.length - 7))
  rw [bytes_update_fromUnit packet (by omega)] at hframe
  rw [forwarded, frame_rawModbusMessage, hlength, hmod, posted_eq packet h]
  exact hframe

/-- **What is sent back** to a request that is served in time: its first four bytes, a length, and
the answer from the slave's number on. -/
theorem sent_served (packet : Buffer) {readdata : List Byte} (h : ConsistentRequest readdata)
    {reply : Bridge.Reply} {pdu : List Byte} (hvalid : ValidAnswer reply pdu) :
    (regTcpModbusRequest (served reply) packet readdata).2 =
      readdata.take 4 ++
        [BitVec.ofNat 8 ((pdu.length + 1) / 256), BitVec.ofNat 8 (pdu.length + 1)] ++
          Bridge.defaultslave :: pdu := by
  obtain ⟨crc, -, hreceived⟩ := hvalid.received
  have hlen : reply.received.length = pdu.length + 3 := by
    rw [hreceived, List.length_append, List.length_cons, length_toBytesLE]
  have hfits := reply.fits
  have hlong := h.two_le
  have hrc : reply.rc = pdu.length + 3 := by
    rw [Bridge.Reply.rc, if_pos hvalid.accepted, hlen]
    rfl
  have hpos := List.length_pos_iff.mpr hvalid.pdu_ne_nil
  have hanswer : ∀ req n, served reply req n =
      ⟨true, (sendMsgPre (Function.update req 0 Bridge.defaultslave) n).1.write reply.received,
        pdu.length + 1⟩ := by
    intro req n
    have hstored : ((pdu.length : ℤ) + 3 - 2).toNat = pdu.length + 1 := by omega
    simp only [served, rawModbusMessage, hrc, hstored]
    rw [if_neg (by omega)]
  have hsize : lentowrite (pdu.length + 1) = 6 + (pdu.length + 1) :=
    Nat.mod_eq_of_lt (by omega)
  have hcopied : (if readdata.length ≤ packetSize then readdata else []) = readdata :=
    if_pos (le_trans h.le_254 (by decide))
  have htake : (Bridge.defaultslave :: pdu ++ toBytesLE 2 crc.toNat).take (pdu.length + 1) =
      Bridge.defaultslave :: pdu := List.take_left' (List.length_cons ..)
  simp only [regTcpModbusRequest, hanswer, if_true, hsize, hcopied]
  rw [bytes_setMbapLength, bytes_write_take _ (by omega), bytes_write_take _ (by omega), hreceived,
    htake]

/-- A request that fits the receive buffer is served and what is sent back is sent. -/
lemma getRequest_served {port : Port} (hconn : port.newconn = true) {inbuf : Netbuf}
    (h : ConsistentRequest inbuf.payload) (hfits : inbuf.payload.length ≤ workbufferSize)
    (reply : Bridge.Reply) :
    ∃ r, xMBTCPPortGetRequest (served reply) port (.ok inbuf) = some r ∧
      r.sent = some (regTcpModbusRequest (served reply) port.tcpModbusPacket inbuf.payload).2 := by
  have hlong := h.two_le
  have hsix := List.getElem?_eq_getElem (show 6 < inbuf.payload.length by omega)
  have hother : ¬ port.workbuffer.write inbuf.payload 6 = 2 := by
    intro htwo
    rw [Buffer.write_apply hsix] at htwo
    exact h.unit (by rw [hsix, htwo])
  exact ⟨_, getRequest_regulator (served reply) hconn hfits hother, rfl⟩

/-- The seventh byte that is sent back is the slave's number. -/
lemma sent_getElem?_six (header : List Byte) (a b : Byte) (pdu : List Byte)
    (h : 4 ≤ header.length) :
    (header.take 4 ++ [a, b] ++ Bridge.defaultslave :: pdu)[6]? = some Bridge.defaultslave := by
  have hsix : (header.take 4 ++ [a, b]).length = 6 := by
    rw [List.length_append, List.length_take, Nat.min_eq_left h]
    rfl
  rw [List.getElem?_append_right (by rw [hsix]), hsix]
  rfl

/-- The `Length` of what is sent back counts the bytes behind it. -/
lemma length_sent (header pdu : List Byte) (h : 4 ≤ header.length) (hpdu : pdu.length ≤ 253) :
    256 * ((header.take 4 ++ [BitVec.ofNat 8 ((pdu.length + 1) / 256),
      BitVec.ofNat 8 (pdu.length + 1)] ++ Bridge.defaultslave :: pdu).getD 4 0).toNat +
    ((header.take 4 ++ [BitVec.ofNat 8 ((pdu.length + 1) / 256),
      BitVec.ofNat 8 (pdu.length + 1)] ++ Bridge.defaultslave :: pdu).getD 5 0).toNat + 6 =
    (header.take 4 ++ [BitVec.ofNat 8 ((pdu.length + 1) / 256),
      BitVec.ofNat 8 (pdu.length + 1)] ++ Bridge.defaultslave :: pdu).length := by
  have hfour : (header.take 4).length = 4 := by rw [List.length_take, Nat.min_eq_left h]
  have hzero : (pdu.length + 1) / 256 = 0 := Nat.div_eq_of_lt (by omega)
  rw [List.append_assoc, List.getD_append_right (header.take 4) _ 0 4 hfour.le,
    List.getD_append_right (header.take 4) _ 0 5 (by omega), List.length_append, hfour, hzero]
  simp only [List.cons_append, List.nil_append, Nat.sub_self, List.getD_cons_zero, Nat.reduceSub,
    List.getD_cons_succ, List.length_cons, BitVec.toNat_ofNat]
  omega

/-- **The bridge is transparent to one unit.** For every consistent request of two to 254 bytes to a
unit other than the panel, whatever the port's buffers hold, and every valid answer of the
regulator: both come through unchanged if and only if the request is for unit 1 and not longer than
the receive buffer. -/
theorem transparent_iff (port : Port) (hconn : port.newconn = true) (inbuf : Netbuf)
    (hrequest : ConsistentRequest inbuf.payload) (reply : Bridge.Reply) (pdu : List Byte)
    (hvalid : ValidAnswer reply pdu) :
    Transparent port inbuf reply pdu ↔
      inbuf.payload[6]? = some 1 ∧ inbuf.payload.length ≤ workbufferSize := by
  have hlong := hrequest.two_le
  have hsent := sent_served port.tcpModbusPacket hrequest hvalid
  have hsix := sent_getElem?_six inbuf.payload (BitVec.ofNat 8 ((pdu.length + 1) / 256))
    (BitVec.ofNat 8 (pdu.length + 1)) pdu (by omega)
  constructor
  · rintro ⟨r, out, crc, hr, -, -, hout, -, hunit, -⟩
    by_cases hfits : inbuf.payload.length ≤ workbufferSize
    · obtain ⟨r', hr', hsent'⟩ := getRequest_served hconn hrequest hfits reply
      obtain rfl := Option.some.inj (hr'.symm.trans hr)
      obtain rfl := Option.some.inj (hsent'.symm.trans hout)
      rw [hsent, hsix] at hunit
      exact ⟨hunit.symm, hfits⟩
    · rw [getRequest_overrun (served reply) hconn (not_le.mp hfits)] at hr
      cases hr
  · rintro ⟨hunit, hfits⟩
    obtain ⟨r, hr, hout⟩ := getRequest_served hconn hrequest hfits reply
    obtain ⟨crc, hcrc, hframe⟩ := frame_forwarded port.tcpModbusPacket hrequest reply
    have hpdu : pdu.length ≤ 253 := by
      obtain ⟨crc', -, hreceived⟩ := hvalid.received
      have hlen := reply.fits
      rw [hreceived, List.length_append, List.length_cons, length_toBytesLE] at hlen
      omega
    have hfour : (inbuf.payload.take 4).length = 4 := by
      rw [List.length_take, Nat.min_eq_left (by omega)]
    rw [hsent] at hout
    refine ⟨r, _, crc, hr, hcrc, hframe, hout, ?_, ?_, ?_, ?_⟩
    · rw [List.append_assoc, List.take_left' hfour]
    · rw [hsix, hunit]
      rfl
    · exact length_sent _ _ (by omega) hpdu
    · have hseven : (inbuf.payload.take 4 ++ [BitVec.ofNat 8 ((pdu.length + 1) / 256),
          BitVec.ofNat 8 (pdu.length + 1)] ++ [Bridge.defaultslave]).length = 7 := by
        rw [List.length_append, List.length_append, hfour]
        rfl
      rw [List.append_cons, List.drop_left' hseven]

/-- A request for unit 255 to read the register at `0x0200`. -/
def readRequest (unit : Byte) : Netbuf where
  payload := [0, 1, 0, 0, 0, 6, unit, 3, 0x02, 0x00, 0, 1]
  next := []
  payload_ne_nil := List.cons_ne_nil _ _

/-- The regulator's answer is valid. -/
lemma validAnswer_readReply : ValidAnswer Bridge.readReply [0x03, 0x02, 0x12, 0x34] where
  accepted := rfl
  pdu_ne_nil := List.cons_ne_nil _ _
  received := ⟨0x33B5, by decide +kernel, by decide⟩

/-- A request to read a register is consistent, for any unit that is not the panel. -/
lemma consistent_readRequest {unit : Byte} (h : unit ≠ 2) :
    ConsistentRequest (readRequest unit).payload := by
  have hlength : (readRequest unit).payload.length = 12 := rfl
  refine ⟨rfl, ?_, ?_, fun htwo => h (Option.some.inj htwo)⟩
  · rw [hlength]
    decide
  · rw [hlength]
    decide

/-- A request for unit 1. -/
theorem transparent_readRequest :
    Transparent connected (readRequest 1) Bridge.readReply [0x03, 0x02, 0x12, 0x34] :=
  (transparent_iff connected rfl (readRequest 1) (consistent_readRequest (by decide))
    Bridge.readReply _ validAnswer_readReply).mpr ⟨rfl, by decide⟩

/-- **The unit identifier is not the request's.** A request for unit 255 is answered for unit 1. -/
theorem not_transparent_readRequest :
    ¬ ∀ (port : Port) (inbuf : Netbuf) (reply : Bridge.Reply) (pdu : List Byte),
      port.newconn = true → ConsistentRequest inbuf.payload → ValidAnswer reply pdu →
      Transparent port inbuf reply pdu := by
  intro hall
  have hconn : connected.newconn = true := rfl
  have hrequest : ConsistentRequest (readRequest 255).payload := consistent_readRequest (by decide)
  obtain ⟨r, out, crc, hr, -, -, hout, -, hunit, -⟩ := hall connected (readRequest 255)
    Bridge.readReply _ rfl hrequest validAnswer_readReply
  obtain ⟨r', hr', hsent⟩ := getRequest_served hconn hrequest (by decide) Bridge.readReply
  obtain rfl := Option.some.inj (hr'.symm.trans hr)
  obtain rfl := Option.some.inj (hsent.symm.trans hout)
  rw [sent_served _ hrequest validAnswer_readReply] at hunit
  exact absurd hunit (by decide)

end PanelFirmware.Regulator
