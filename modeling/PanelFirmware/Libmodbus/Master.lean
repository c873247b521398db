import PanelFirmware.Libmodbus.Message

/-!
# `libmodbus/src/modbus.c`: the calls of a master

A call builds a request, sends it, takes what comes back for its confirmation and copies the values
out of it. What comes back is the matter of a `Line`: any bytes with any result, from a state of
its own.

* `transact_of_confirms`, `transact_of_not_confirms`: a call succeeds exactly on a confirmation of
  its request.
* `confirms_data_iff`, `registers_iff`: what a call reads are the data of the one answer it accepts.
* `confirms_write_iff`, `write_iff`: which answers the calls that write accept; the values of the
  request are not compared.
* `transact_exception`: the number that an exception leaves in `libmodbuserrno`.
-/

namespace PanelFirmware.Libmodbus

open PanelFirmware.Lib PanelFirmware.Utils

/-- What comes back for the bytes that are sent, and the state of whatever is on the line. -/
abbrev Line (σ : Type) := σ → List Byte → Reception × σ

/-! ### Requests -/

/-- Source: `modbus-rtu.c` `_modbus_rtu_build_request_basis`. -/
def buildRequestBasis (ctxSlave function : Byte) (addr nb : ℤ) : List Byte :=
  [ctxSlave, function] ++ intBytes addr ++ intBytes nb

/-- The values that a request carries, high byte first. -/
def valueBytes (src : ℕ → BitVec 16) (nb : ℤ) : List Byte :=
  (List.range nb.toNat).flatMap fun i => wordBytes (src i)

/-- Source: `modbus.c` `modbus_write_registers`. -/
def writeRegistersRequest (ctxSlave : Byte) (addr nb : ℤ) (src : ℕ → BitVec 16) : List Byte :=
  let byteCount := nb * 2
  buildRequestBasis ctxSlave fcWriteMultipleRegisters addr nb ++ [BitVec.ofInt 8 byteCount] ++
    valueBytes src nb

/-- The count of the basis is dropped. Source: `modbus.c` `modbus_mask_write_register`. -/
def maskWriteRegisterRequest (ctxSlave : Byte) (addr : ℤ) (andMask orMask : BitVec 16) :
    List Byte :=
  (buildRequestBasis ctxSlave fcMaskWriteRegister addr 0).take 4 ++ wordBytes andMask ++
    wordBytes orMask

/-- Source: `modbus.c` `modbus_write_and_read_registers`. -/
def writeAndReadRegistersRequest (ctxSlave : Byte) (writeAddr writeNb : ℤ) (src : ℕ → BitVec 16)
    (readAddr readNb : ℤ) : List Byte :=
  let byteCount := writeNb * 2
  buildRequestBasis ctxSlave fcWriteAndReadRegisters readAddr readNb ++ intBytes writeAddr ++
    intBytes writeNb ++ [BitVec.ofInt 8 byteCount] ++ valueBytes src writeNb

/-! ### Confirmations -/

/-- Source: `modbus.c` `MSG_LENGTH_UNDEFINED`. -/
def msgLengthUndefined : ℤ := -1

/-- Source: `modbus.c` `compute_response_length_from_request`. -/
def computeResponseLengthFromRequest (req : Buffer) : ℤ :=
  let function := req 1
  let nb := (req.word 4).toNat
  if function = fcReadCoils ∨ function = fcReadDiscreteInputs then
    1 + (2 + nb / 8 + if nb % 8 ≠ 0 then 1 else 0) + 2
  else if function = fcWriteAndReadRegisters ∨ function = fcReadHoldingRegisters ∨
      function = fcReadInputRegisters then 1 + (2 + 2 * nb) + 2
  else if function = fcReadExceptionStatus then 1 + 3 + 2
  else if function = fcReportSlaveId then msgLengthUndefined
  else if function = fcMaskWriteRegister then 1 + 7 + 2
  else 1 + 5 + 2

/-- The numbers of values that are compared. Source: `modbus.c` `check_confirmation`,
`req_nb_value` and `rsp_nb_value`. -/
def nbValues (req rsp : Buffer) : ℕ × ℕ :=
  let function := rsp 1
  let nb := (req.word 4).toNat
  if function = fcReadCoils ∨ function = fcReadDiscreteInputs then
    (nb / 8 + (if nb % 8 ≠ 0 then 1 else 0), (rsp 2).toNat)
  else if function = fcWriteAndReadRegisters ∨ function = fcReadHoldingRegisters ∨
      function = fcReadInputRegisters then (nb, (rsp 2).toNat / 2)
  else if function = fcWriteMultipleCoils ∨ function = fcWriteMultipleRegisters then
    (nb, (rsp.word 4).toNat)
  else if function = fcReportSlaveId then ((rsp 2).toNat, (rsp 2).toNat)
  else (1, 1)

/-- Error recovery is off, and would do nothing on this port.
Source: `modbus.c` `check_confirmation`; `modbus-rtu.c` `_modbus_rtu_pre_check_confirmation`. -/
def checkConfirmation (req rsp : Buffer) (rspLength : ℤ) (errno : ℕ) : Return :=
  let function := rsp 1
  if req 0 ≠ rsp 0 ∧ req 0 ≠ 0 then ⟨-1, embbadslave⟩
  else if 0x80 ≤ function then
    if rspLength = 1 + 2 + 2 ∧ req 1 = function - 0x80 then
      let exceptionCode := (rsp 2).toNat
      ⟨-1, if exceptionCode < modbusExceptionMax then modbusEnobase + exceptionCode else embbadexc⟩
    else ⟨-1, embbadexc⟩
  else if rspLength = computeResponseLengthFromRequest req ∨
      computeResponseLengthFromRequest req = msgLengthUndefined then
    let (reqNbValue, rspNbValue) := nbValues req rsp
    if function ≠ req 1 then ⟨-1, embbaddata⟩
    else if reqNbValue = rspNbValue then ⟨rspNbValue, errno⟩
    else ⟨-1, embbaddata⟩
  else ⟨-1, embbaddata⟩

/-! ### Calls -/

variable {σ : Type}

/-- A call that has taken what came back, with the buffer of its confirmation. -/
structure Exchange (σ : Type) where
  ret : Return
  rsp : Buffer
  line : σ

/-- What a call that writes returns. -/
def Exchange.status (x : Exchange σ) : Return × σ := (x.ret, x.line)

/-- A call that has copied values out of its confirmation. -/
structure Read (σ α : Type) where
  ret : Return
  dest : List α
  line : σ

/-- The part the calls share: `send_msg`, which sends all of the message, `_modbus_receive_msg` and
`check_confirmation`. Source: `modbus.c` `write_single`. -/
def transact (ctxSlave : Byte) (line : Line σ) (s : σ) (req : List Byte) (errno : ℕ) :
    Exchange σ :=
  let (r, s) := line s (sendMsg req)
  let got := receiveMsg ctxSlave r .confirmation errno
  if got.rc = -1 then ⟨got, r.msg, s⟩
  else ⟨checkConfirmation (Buffer.ofList req) r.msg got.rc got.errno, r.msg, s⟩

/-- The values of a confirmation. Source: `modbus.c` `read_registers`, the loop. -/
def Exchange.registers (x : Exchange σ) : Read σ (BitVec 16) :=
  if x.ret.rc = -1 then ⟨x.ret, [], x.line⟩
  else ⟨x.ret, (List.range x.ret.rc.toNat).map fun i => x.rsp.word (3 + 2 * i), x.line⟩

/-- Source: `modbus.h` `MODBUS_MAX_READ_REGISTERS`. -/
def modbusMaxReadRegisters : ℤ := 125
/-- Source: `modbus.h` `MODBUS_MAX_WRITE_REGISTERS`. -/
def modbusMaxWriteRegisters : ℤ := 123
/-- Source: `modbus.h` `MODBUS_MAX_WR_WRITE_REGISTERS`. -/
def modbusMaxWrWriteRegisters : ℤ := 121
/-- Source: `modbus.h` `MODBUS_MAX_WR_READ_REGISTERS`. -/
def modbusMaxWrReadRegisters : ℤ := 125

/-- Source: `modbus.c` `read_registers`. -/
def readRegisters (ctxSlave : Byte) (line : Line σ) (s : σ) (function : Byte) (addr nb : ℤ)
    (errno : ℕ) : Read σ (BitVec 16) :=
  if modbusMaxReadRegisters < nb then ⟨⟨-1, embmdata⟩, [], s⟩
  else (transact ctxSlave line s (buildRequestBasis ctxSlave function addr nb) errno).registers

/-- Source: `modbus.c` `modbus_read_registers`. -/
def modbusReadRegisters (ctxSlave : Byte) (line : Line σ) (s : σ) (addr nb : ℤ) (errno : ℕ) :
    Read σ (BitVec 16) :=
  if modbusMaxReadRegisters < nb then ⟨⟨-1, embmdata⟩, [], s⟩
  else readRegisters ctxSlave line s fcReadHoldingRegisters addr nb errno

/-- Source: `modbus.c` `modbus_read_input_registers`. -/
def modbusReadInputRegisters (ctxSlave : Byte) (line : Line σ) (s : σ) (addr nb : ℤ)
    (errno : ℕ) : Read σ (BitVec 16) :=
  if modbusMaxReadRegisters < nb then ⟨⟨-1, embmdata⟩, [], s⟩
  else readRegisters ctxSlave line s fcReadInputRegisters addr nb errno

/-- Source: `modbus.c` `write_single`. -/
def writeSingle (ctxSlave : Byte) (line : Line σ) (s : σ) (function : Byte) (addr : ℤ)
    (value : BitVec 16) (errno : ℕ) : Return × σ :=
  (transact ctxSlave line s (buildRequestBasis ctxSlave function addr value.toNat) errno).status

/-- Source: `modbus.c` `modbus_write_bit`. -/
def modbusWriteBit (ctxSlave : Byte) (line : Line σ) (s : σ) (addr status : ℤ) (errno : ℕ) :
    Return × σ :=
  writeSingle ctxSlave line s fcWriteSingleCoil addr (if status ≠ 0 then 0xFF00 else 0) errno

/-- Source: `modbus.c` `modbus_write_register`. -/
def modbusWriteRegister (ctxSlave : Byte) (line : Line σ) (s : σ) (addr : ℤ) (value : BitVec 16)
    (errno : ℕ) : Return × σ :=
  writeSingle ctxSlave line s fcWriteSingleRegister addr value errno

/-- Source: `modbus.c` `modbus_write_registers`. -/
def modbusWriteRegisters (ctxSlave : Byte) (line : Line σ) (s : σ) (addr nb : ℤ)
    (src : ℕ → BitVec 16) (errno : ℕ) : Return × σ :=
  if modbusMaxWriteRegisters < nb then (⟨-1, embmdata⟩, s)
  else (transact ctxSlave line s (writeRegistersRequest ctxSlave addr nb src) errno).status

/-- Source: `modbus.c` `modbus_mask_write_register`. -/
def modbusMaskWriteRegister (ctxSlave : Byte) (line : Line σ) (s : σ) (addr : ℤ)
    (andMask orMask : BitVec 16) (errno : ℕ) : Return × σ :=
  let req := maskWriteRegisterRequest ctxSlave addr andMask orMask
  (transact ctxSlave line s req errno).status

/-- Source: `modbus.c` `modbus_write_and_read_registers`. -/
def modbusWriteAndReadRegisters (ctxSlave : Byte) (line : Line σ) (s : σ)
    (writeAddr writeNb : ℤ) (src : ℕ → BitVec 16) (readAddr readNb : ℤ) (errno : ℕ) :
    Read σ (BitVec 16) :=
  if modbusMaxWrWriteRegisters < writeNb then ⟨⟨-1, embmdata⟩, [], s⟩
  else if modbusMaxWrReadRegisters < readNb then ⟨⟨-1, embmdata⟩, [], s⟩
  else
    let req := writeAndReadRegistersRequest ctxSlave writeAddr writeNb src readAddr readNb
    (transact ctxSlave line s req errno).registers

/-! ### What is a confirmation -/

/-- A reception that confirms a request: an accepted message with the address and the function code
of the request, the length that follows from the request, and as many values. -/
structure Confirms (ctxSlave : Byte) (req : Buffer) (r : Reception) : Prop where
  accepted : Accepted ctxSlave r .confirmation
  slave : req 0 = r.msg 0 ∨ req 0 = 0
  function : r.msg 1 = req 1
  plain : ¬ 0x80 ≤ r.msg 1
  length : (lengthToRead r.msg .confirmation : ℤ) = computeResponseLengthFromRequest req ∨
    computeResponseLengthFromRequest req = msgLengthUndefined
  count : (nbValues req r.msg).1 = (nbValues req r.msg).2

variable {ctxSlave : Byte} {line : Line σ} {s : σ} {req : List Byte}

/-- The buffer of the confirmation is the one of the reception. -/
@[simp] lemma transact_rsp (errno : ℕ) :
    (transact ctxSlave line s req errno).rsp = (line s (sendMsg req)).1.msg := by
  simp only [transact]
  split_ifs <;> rfl

/-- The line is left as the exchange leaves it. -/
@[simp] lemma transact_line (errno : ℕ) :
    (transact ctxSlave line s req errno).line = (line s (sendMsg req)).2 := by
  simp only [transact]
  split_ifs <;> rfl

/-- A call that is confirmed returns the number of values of the confirmation. -/
lemma transact_of_confirms
    (h : Confirms ctxSlave (Buffer.ofList req) (line s (sendMsg req)).1) (errno : ℕ) :
    (transact ctxSlave line s req errno).ret =
      ⟨(nbValues (Buffer.ofList req) (line s (sendMsg req)).1.msg).2, errno⟩ := by
  have hslave : ¬(Buffer.ofList req 0 ≠ (line s (sendMsg req)).1.msg 0 ∧
      Buffer.ofList req 0 ≠ 0) := by
    rintro ⟨hne, hne'⟩
    exact h.slave.elim hne hne'
  have hpos : ¬ (lengthToRead (line s (sendMsg req)).1.msg .confirmation : ℤ) = -1 := by omega
  simp only [transact, receiveMsg_of_accepted h.accepted]
  rw [if_neg hpos]
  simp only [checkConfirmation]
  rw [if_neg hslave, if_neg h.plain, if_pos h.length, if_neg (not_not_intro h.function),
    if_pos h.count]

/-- A confirmation that passes has the address, the function code, the length and the number of
values that are compared. -/
lemma of_checkConfirmation {req rsp : Buffer} {rspLength : ℤ} {errno : ℕ}
    (h : (checkConfirmation req rsp rspLength errno).rc ≠ -1) :
    (req 0 = rsp 0 ∨ req 0 = 0) ∧ rsp 1 = req 1 ∧ ¬ 0x80 ≤ rsp 1 ∧
      (rspLength = computeResponseLengthFromRequest req ∨
        computeResponseLengthFromRequest req = msgLengthUndefined) ∧
      (nbValues req rsp).1 = (nbValues req rsp).2 := by
  simp only [checkConfirmation] at h
  by_cases hslave : req 0 ≠ rsp 0 ∧ req 0 ≠ 0
  · rw [if_pos hslave] at h
    exact absurd rfl h
  · rw [if_neg hslave] at h
    by_cases hplain : 0x80 ≤ rsp 1
    · rw [if_pos hplain] at h
      split_ifs at h <;> exact absurd rfl h
    · rw [if_neg hplain] at h
      split_ifs at h with hlength hfunction hcount
      · exact absurd rfl h
      · exact ⟨by tauto, not_not.mp hfunction, hplain, hlength, hcount⟩
      · exact absurd rfl h
      · exact absurd rfl h

/-- A call whose answer has a definite length fails on anything else. -/
lemma transact_of_not_confirms
    (h : ¬ Confirms ctxSlave (Buffer.ofList req) (line s (sendMsg req)).1)
    (hlength : 0 < computeResponseLengthFromRequest (Buffer.ofList req)) (errno : ℕ) :
    (transact ctxSlave line s req errno).ret.rc = -1 := by
  by_contra hrc
  by_cases haccepted : Accepted ctxSlave (line s (sendMsg req)).1 .confirmation
  · have hpos : ¬ (lengthToRead (line s (sendMsg req)).1.msg .confirmation : ℤ) = -1 := by omega
    simp only [transact, receiveMsg_of_accepted haccepted, if_neg hpos] at hrc
    obtain ⟨hslave, hfunction, hplain, hlen, hcount⟩ := of_checkConfirmation hrc
    exact h ⟨haccepted, hslave, hfunction, hplain, hlen, hcount⟩
  · rcases receiveMsg_of_not_accepted haccepted errno with hgot | ⟨hgot, -⟩
    · simp only [transact, if_pos hgot] at hrc
      exact hrc hgot
    · -- a message to another slave counts as one without bytes
      simp only [transact, hgot, if_neg (by decide : ¬ (0 : ℤ) = -1)] at hrc
      obtain ⟨-, -, -, hlen, -⟩ := of_checkConfirmation hrc
      rw [msgLengthUndefined] at hlen
      omega

/-! ### Reading -/

/-- The answer that carries data, with their count. -/
def dataAnswer (slave function : Byte) (data : List Byte) : List Byte :=
  [slave, function, BitVec.ofNat 8 data.length] ++ data

/-- The functions whose answers carry data: bits, or registers. -/
def AnswersBits (function : Byte) : Prop :=
  function = fcReadCoils ∨ function = fcReadDiscreteInputs

/-- The functions whose answers carry registers. -/
def AnswersRegisters (function : Byte) : Prop :=
  function = fcReadHoldingRegisters ∨ function = fcReadInputRegisters ∨
    function = fcWriteAndReadRegisters

instance (function : Byte) : Decidable (AnswersBits function) :=
  inferInstanceAs (Decidable (_ ∨ _))

/-- The bytes of data that are asked for. -/
def dataLength (req : Buffer) : ℕ :=
  if AnswersBits (req 1) then ((req.word 4).toNat + 7) / 8 else 2 * (req.word 4).toNat

/-- A request for data: its address, its function code and the limit of its count. -/
structure AsksData (ctxSlave : Byte) (req : Buffer) : Prop where
  slave : req 0 = ctxSlave
  function : AnswersBits (req 1) ∨ AnswersRegisters (req 1)
  le : dataLength req ≤ 250

/-- The length of an answer with data. -/
lemma lengthToRead_data {msg : Buffer} (h : AnswersBits (msg 1) ∨ AnswersRegisters (msg 1)) :
    lengthToRead msg .confirmation = 5 + (msg 2).toNat := by
  rcases h with (h | h) | h | h | h <;>
    simp [lengthToRead, computeMetaLengthAfterFunction, computeDataLengthAfterMeta, h] <;> omega

/-- The length that follows from a request for data. -/
lemma computeResponseLength_data {req : Buffer}
    (h : AnswersBits (req 1) ∨ AnswersRegisters (req 1)) :
    computeResponseLengthFromRequest req = 5 + dataLength req := by
  rcases h with (h | h) | h
  · simp [computeResponseLengthFromRequest, dataLength, AnswersBits, h]
    split_ifs <;> omega
  · simp [computeResponseLengthFromRequest, dataLength, AnswersBits, h]
    split_ifs <;> omega
  · rcases h with h | h | h <;>
      simp [computeResponseLengthFromRequest, dataLength, AnswersBits, h] <;> omega

/-- The numbers of values of an answer with as many bytes as are asked for. -/
lemma nbValues_data {req rsp : Buffer} (h : AnswersBits (req 1) ∨ AnswersRegisters (req 1))
    (hfunction : rsp 1 = req 1) (hcount : (rsp 2).toNat = dataLength req) :
    nbValues req rsp = if AnswersBits (req 1) then (dataLength req, dataLength req)
      else ((req.word 4).toNat, (req.word 4).toNat) := by
  rw [nbValues, hcount, hfunction]
  rcases h with (h | h) | h | h | h <;>
    simp [dataLength, AnswersBits, h] <;> split_ifs <;> omega

/-- **A request for data is confirmed exactly by an answer with as many bytes.** -/
theorem confirms_data_iff {req : Buffer} (hreq : AsksData ctxSlave req) (r : Reception) :
    Confirms ctxSlave req r ↔ ∃ data : List Byte, data.length = dataLength req ∧
      r.Brings (sendMsg (dataAnswer ctxSlave (req 1) data)) := by
  obtain ⟨hslave, hfunction, hle⟩ := hreq
  constructor
  · intro h
    have hanswer : AnswersBits (r.msg 1) ∨ AnswersRegisters (r.msg 1) := h.function ▸ hfunction
    have haddress : r.msg 0 = ctxSlave := by
      rcases h.slave with hreq | hreq
      · rw [← hreq, hslave]
      · rcases h.accepted.slave with hmsg | hmsg
        · exact hmsg
        · rw [hmsg, ← hreq, hslave]
    have hlength := h.length
    rw [lengthToRead_data hanswer, computeResponseLength_data hfunction, msgLengthUndefined]
      at hlength
    have hcount : (r.msg 2).toNat = dataLength req := by omega
    have hread : lengthToRead r.msg .confirmation = 3 + dataLength req + 2 := by
      rw [lengthToRead_data hanswer, hcount]
      omega
    have hdata : ((r.msg.bytes (3 + dataLength req)).drop 3).length = dataLength req := by
      rw [List.length_drop, length_bytes, Nat.add_sub_cancel_left]
    have hbytes : r.msg.bytes (3 + dataLength req) =
        dataAnswer ctxSlave (req 1) ((r.msg.bytes (3 + dataLength req)).drop 3) := by
      have hhead : r.msg.bytes 3 = [ctxSlave, req 1, BitVec.ofNat 8 (dataLength req)] := by
        rw [← haddress, ← h.function, ← hcount, BitVec.ofNat_toNat, BitVec.setWidth_eq]
        rfl
      rw [dataAnswer, hdata, ← hhead, ← take_bytes r.msg (Nat.le_add_right 3 (dataLength req)),
        List.take_append_drop]
    have hcrc := h.accepted.crc
    rw [hread, Nat.add_sub_cancel, hbytes] at hcrc
    refine ⟨_, hdata, ?_, ?_⟩
    · rw [h.accepted.res, hread, ← hcrc, length_bytes]
    · rw [← hcrc, length_bytes]
  · rintro ⟨data, hlength, hbrings⟩
    have hframe : ∀ i, i < 3 → (sendMsg (dataAnswer ctxSlave (req 1) data))[i]? =
        [ctxSlave, req 1, BitVec.ofNat 8 data.length][i]? := by
      intro i hi
      rw [sendMsg_eq, dataAnswer, List.append_assoc, List.getElem?_append_left hi]
    have haddress : r.msg 0 = ctxSlave := hbrings.apply (hframe 0 (by decide))
    have hmsg : r.msg 1 = req 1 := hbrings.apply (hframe 1 (by decide))
    have hcount : (r.msg 2).toNat = dataLength req := by
      rw [hbrings.apply (hframe 2 (by decide)), hlength, BitVec.toNat_ofNat]
      omega
    have hanswer : AnswersBits (r.msg 1) ∨ AnswersRegisters (r.msg 1) := hmsg ▸ hfunction
    have hsent : (sendMsg (dataAnswer ctxSlave (req 1) data)).length = 5 + dataLength req := by
      rw [length_sendMsg, dataAnswer, List.length_append, hlength]
      simp only [List.length_cons, List.length_nil]
      omega
    have hread : lengthToRead r.msg .confirmation = 5 + dataLength req := by
      rw [lengthToRead_data hanswer, hcount]
    refine ⟨⟨?_, Or.inl haddress, ?_⟩, Or.inl (by rw [hslave, haddress]), hmsg, ?_, Or.inl ?_, ?_⟩
    · rw [hbrings.res, hsent, hread]
    · rw [hread, hbrings.bytes_take (by omega), hbrings.bytes_take (by omega), ← hsent,
        List.take_length, length_sendMsg, Nat.add_sub_cancel, take_sendMsg]
    · rw [hmsg]
      rcases hfunction with (h | h) | h | h | h <;> rw [h] <;> decide
    · rw [hread, computeResponseLength_data hfunction]
      push_cast
      rfl
    · rw [nbValues_data hfunction hmsg hcount]
      split_ifs <;> rfl

/-- A call whose request for data is confirmed returns the number of values. -/
lemma data_of_confirms (hreq : AsksData ctxSlave (Buffer.ofList req))
    (h : Confirms ctxSlave (Buffer.ofList req) (line s (sendMsg req)).1) (errno : ℕ) :
    (transact ctxSlave line s req errno).ret =
      ⟨if AnswersBits (Buffer.ofList req 1) then dataLength (Buffer.ofList req)
        else ((Buffer.ofList req).word 4).toNat, errno⟩ := by
  have hanswer : AnswersBits ((line s (sendMsg req)).1.msg 1) ∨
      AnswersRegisters ((line s (sendMsg req)).1.msg 1) := h.function ▸ hreq.function
  have hlength := h.length
  rw [lengthToRead_data hanswer, computeResponseLength_data hreq.function, msgLengthUndefined]
    at hlength
  rw [transact_of_confirms h, nbValues_data hreq.function h.function (by omega)]
  split_ifs <;> rfl

/-- A call whose request for data is not confirmed fails. -/
lemma data_of_not_confirms (hreq : AsksData ctxSlave (Buffer.ofList req))
    (h : ¬ Confirms ctxSlave (Buffer.ofList req) (line s (sendMsg req)).1) (errno : ℕ) :
    (transact ctxSlave line s req errno).ret.rc = -1 := by
  apply transact_of_not_confirms h
  rw [computeResponseLength_data hreq.function]
  omega

/-! ### Reading registers -/

/-- The fields of a request. -/
lemma basis_apply (ctxSlave function : Byte) (addr nb : ℤ) (rest : List Byte) :
    let req := Buffer.ofList (buildRequestBasis ctxSlave function addr nb ++ rest)
    req 0 = ctxSlave ∧ req 1 = function ∧ req.word 2 = BitVec.ofInt 16 addr ∧
      req.word 4 = BitVec.ofInt 16 nb := by
  refine ⟨rfl, rfl, ?_, ?_⟩
  · rw [← append_wordBytes (BitVec.ofInt 16 addr), buildRequestBasis, intBytes_eq, intBytes_eq]
    rfl
  · rw [← append_wordBytes (BitVec.ofInt 16 nb), buildRequestBasis, intBytes_eq, intBytes_eq]
    rfl

/-- The answer that carries registers. -/
def registersAnswer (slave function : Byte) (values : List (BitVec 16)) : List Byte :=
  dataAnswer slave function (values.flatMap wordBytes)

/-- A request for registers: its address, its function code and its count. -/
structure AsksRegisters (ctxSlave : Byte) (req : Buffer) (n : ℕ) : Prop where
  slave : req 0 = ctxSlave
  function : AnswersRegisters (req 1)
  nb : (req.word 4).toNat = n
  le : n ≤ 125

/-- Registers are not bits. -/
lemma not_answersBits {function : Byte} (h : AnswersRegisters function) :
    ¬ AnswersBits function := by
  rcases h with h | h | h <;> rw [h] <;> decide

/-- The bytes that are asked for. -/
lemma AsksRegisters.dataLength {req : Buffer} {n : ℕ} (h : AsksRegisters ctxSlave req n) :
    dataLength req = 2 * n := by
  rw [Libmodbus.dataLength, if_neg (not_answersBits h.function), h.nb]

/-- A request for registers is one for data. -/
lemma AsksRegisters.asksData {req : Buffer} {n : ℕ} (h : AsksRegisters ctxSlave req n) :
    AsksData ctxSlave req := by
  refine ⟨h.slave, Or.inr h.function, ?_⟩
  rw [h.dataLength]
  have hle := h.le
  omega

/-- The registers that are copied out of an answer are those it carries. -/
lemma registers_of_brings {r : Reception} {function : Byte} {values : List (BitVec 16)}
    (h : r.Brings (sendMsg (registersAnswer ctxSlave function values))) :
    ((List.range values.length).map fun i => r.msg.word (3 + 2 * i)) = values := by
  have hlength : (registersAnswer ctxSlave function values).length = 3 + 2 * values.length := by
    rw [registersAnswer, dataAnswer, List.length_append, length_flatMap_wordBytes]
    rfl
  have hbytes := h.bytes_take (n := 3 + 2 * values.length) (by rw [length_sendMsg]; omega)
  rw [← hlength, take_sendMsg, hlength, bytes_add_words, registersAnswer, dataAnswer] at hbytes
  have hwords := (List.append_inj hbytes (by rw [length_bytes]; rfl)).2
  apply flatMap_wordBytes_inj
  rw [List.flatMap_map]
  exact hwords

/-- Data of as many bytes are registers. -/
lemma exists_registers {r : Reception} {function : Byte} {data : List Byte} {n : ℕ}
    (hlength : data.length = 2 * n)
    (h : r.Brings (sendMsg (dataAnswer ctxSlave function data))) :
    data = ((List.range n).map fun i => r.msg.word (3 + 2 * i)).flatMap wordBytes := by
  have hframe : (dataAnswer ctxSlave function data).length = 3 + 2 * n := by
    rw [dataAnswer, List.length_append, hlength]
    rfl
  have hbytes := h.bytes_take (n := 3 + 2 * n) (by rw [length_sendMsg]; omega)
  rw [← hframe, take_sendMsg, hframe, bytes_add_words, dataAnswer] at hbytes
  rw [List.flatMap_map]
  exact (List.append_inj hbytes (by rw [length_bytes]; rfl)).2.symm

/-- A call whose request is confirmed copies the registers. -/
lemma registers_of_confirms {n : ℕ} (hreq : AsksRegisters ctxSlave (Buffer.ofList req) n)
    (h : Confirms ctxSlave (Buffer.ofList req) (line s (sendMsg req)).1) (errno : ℕ) :
    (transact ctxSlave line s req errno).registers =
      ⟨⟨n, errno⟩, (List.range n).map fun i => (line s (sendMsg req)).1.msg.word (3 + 2 * i),
        (line s (sendMsg req)).2⟩ := by
  have hret := data_of_confirms hreq.asksData h errno
  rw [if_neg (not_answersBits hreq.function), hreq.nb] at hret
  have hpos : ¬ (n : ℤ) = -1 := by omega
  simp only [Exchange.registers, hret, transact_rsp, transact_line, Int.toNat_natCast]
  rw [if_neg hpos]

/-- A call whose request is not confirmed copies nothing. -/
lemma registers_of_not_confirms {n : ℕ} (hreq : AsksRegisters ctxSlave (Buffer.ofList req) n)
    (h : ¬ Confirms ctxSlave (Buffer.ofList req) (line s (sendMsg req)).1) (errno : ℕ) :
    (transact ctxSlave line s req errno).registers.ret.rc = -1 ∧
      (transact ctxSlave line s req errno).registers.dest = [] := by
  have hrc := data_of_not_confirms hreq.asksData h errno
  rw [Exchange.registers, if_pos hrc]
  exact ⟨hrc, rfl⟩

/-- The request of `read_registers`. -/
lemma asksRegisters_read (ctxSlave : Byte) {function : Byte} (hfunction : AnswersRegisters function)
    (addr : ℤ) {nb : ℕ} (hnb : nb ≤ 125) :
    AsksRegisters ctxSlave (Buffer.ofList (buildRequestBasis ctxSlave function addr nb)) nb := by
  obtain ⟨hslave, hreq, -, hcount⟩ := basis_apply ctxSlave function addr nb []
  rw [List.append_nil] at hslave hreq hcount
  refine ⟨hslave, hreq ▸ hfunction, ?_, hnb⟩
  rw [hcount, BitVec.toNat_ofInt]
  omega

/-- **A call that reads registers succeeds exactly on an answer that carries them.** -/
theorem registers_iff {n : ℕ} (hreq : AsksRegisters ctxSlave (Buffer.ofList req) n) (errno : ℕ)
    (values : List (BitVec 16)) :
    (transact ctxSlave line s req errno).registers.ret.rc = n ∧
        (transact ctxSlave line s req errno).registers.dest = values ↔
      values.length = n ∧ (line s (sendMsg req)).1.Brings
        (sendMsg (registersAnswer ctxSlave (Buffer.ofList req 1) values)) := by
  have hconfirms := confirms_data_iff hreq.asksData (line s (sendMsg req)).1
  rw [hreq.dataLength] at hconfirms
  constructor
  · rintro ⟨hrc, hdest⟩
    by_cases h : Confirms ctxSlave (Buffer.ofList req) (line s (sendMsg req)).1
    · obtain ⟨data, hlength, hbrings⟩ := hconfirms.mp h
      rw [registers_of_confirms hreq h] at hdest
      have hdest : ((List.range n).map
        fun i => (line s (sendMsg req)).1.msg.word (3 + 2 * i)) = values := hdest
      have hdata := exists_registers hlength hbrings
      rw [hdest] at hdata
      rw [hdata] at hbrings
      refine ⟨?_, hbrings⟩
      rw [← hdest, List.length_map, List.length_range]
    · have hfailed := (registers_of_not_confirms hreq h errno).1
      omega
  · rintro ⟨hlength, hbrings⟩
    have hdata : (values.flatMap wordBytes).length = 2 * n := by
      rw [length_flatMap_wordBytes, hlength]
    rw [registers_of_confirms hreq (hconfirms.mpr ⟨_, hdata, hbrings⟩)]
    refine ⟨rfl, ?_⟩
    rw [← hlength]
    exact registers_of_brings hbrings

/-- A register that is read. -/
theorem registers_one :
    let x := transact 1 (fun (s : Unit) _ =>
      (Reception.of (fun _ => 0) (sendMsg (registersAnswer 1 3 [7])), s)) ()
        (buildRequestBasis 1 fcReadHoldingRegisters 0 (1 : ℕ)) 0
    x.registers.ret.rc = (1 : ℕ) ∧ x.registers.dest = [7] :=
  (registers_iff (asksRegisters_read 1 (Or.inl rfl) 0 (by decide)) 0 [7]).mpr
    ⟨rfl, Reception.brings_of _ _⟩

/-! ### Writing -/

/-- The functions whose answers repeat part of the request. -/
def AnswersWrite (function : Byte) : Prop :=
  function = fcWriteSingleCoil ∨ function = fcWriteSingleRegister ∨
    function = fcWriteMultipleCoils ∨ function = fcWriteMultipleRegisters ∨
    function = fcMaskWriteRegister

/-- The bytes that such an answer has behind its function code. -/
def payloadLength (function : Byte) : ℕ := if function = fcMaskWriteRegister then 6 else 4

/-- Whether an answer counts: the number of values of a multiple write. -/
def Counts (function : Byte) : Prop :=
  function = fcWriteMultipleCoils ∨ function = fcWriteMultipleRegisters

instance (function : Byte) : Decidable (Counts function) :=
  inferInstanceAs (Decidable (_ ∨ _))

/-- The length of an answer to a write. -/
lemma lengthToRead_write {msg : Buffer} (h : AnswersWrite (msg 1)) :
    lengthToRead msg .confirmation = 4 + payloadLength (msg 1) := by
  rcases h with h | h | h | h | h <;>
    simp [lengthToRead, computeMetaLengthAfterFunction, computeDataLengthAfterMeta, payloadLength,
      h]

/-- The length that follows from a request to write. -/
lemma computeResponseLength_write {req : Buffer} (h : AnswersWrite (req 1)) :
    computeResponseLengthFromRequest req = 4 + payloadLength (req 1) := by
  rcases h with h | h | h | h | h <;>
    simp [computeResponseLengthFromRequest, payloadLength, h]

/-- The numbers of values that are compared. -/
lemma nbValues_write (req : Buffer) {rsp : Buffer} (h : AnswersWrite (rsp 1)) :
    nbValues req rsp =
      if Counts (rsp 1) then ((req.word 4).toNat, (rsp.word 4).toNat) else (1, 1) := by
  rcases h with h | h | h | h | h <;> simp [nbValues, Counts, h]

/-- **A write is confirmed exactly by an answer that repeats its address, its function code and, for
several values, their number**, whatever else it carries. -/
theorem confirms_write_iff {req : Buffer} (hslave : req 0 = ctxSlave)
    (hfunction : AnswersWrite (req 1)) (r : Reception) :
    Confirms ctxSlave req r ↔ ∃ payload : List Byte, payload.length = payloadLength (req 1) ∧
      (Counts (req 1) → payload.drop 2 = wordBytes (req.word 4)) ∧
      r.Brings (sendMsg ([ctxSlave, req 1] ++ payload)) := by
  constructor
  · intro h
    have hanswer : AnswersWrite (r.msg 1) := h.function ▸ hfunction
    have haddress : r.msg 0 = ctxSlave := by
      rcases h.slave with hreq | hreq
      · rw [← hreq, hslave]
      · rcases h.accepted.slave with hmsg | hmsg
        · exact hmsg
        · rw [hmsg, ← hreq, hslave]
    have hread := lengthToRead_write hanswer
    have hcount := h.count
    have hcrc := h.accepted.crc
    rw [h.function] at hread
    rw [nbValues_write req hanswer, h.function] at hcount
    have hsplit : r.msg.bytes (lengthToRead r.msg .confirmation - 2) =
        [ctxSlave, req 1] ++ (r.msg.bytes (2 + payloadLength (req 1))).drop 2 := by
      have hhead : r.msg.bytes 2 = [ctxSlave, req 1] := by
        rw [← haddress, ← h.function]
        rfl
      rw [hread, show 4 + payloadLength (req 1) - 2 = 2 + payloadLength (req 1) by omega, ← hhead,
        ← take_bytes r.msg (Nat.le_add_right 2 (payloadLength (req 1))), List.take_append_drop]
    rw [hsplit] at hcrc
    refine ⟨(r.msg.bytes (2 + payloadLength (req 1))).drop 2, ?_, ?_, ?_, ?_⟩
    · rw [List.length_drop, length_bytes, Nat.add_sub_cancel_left]
    · intro hcounts
      rw [if_pos hcounts] at hcount
      have hpayload : payloadLength (req 1) = 4 := by
        rcases hcounts with hc | hc <;> rw [hc] <;> decide
      rw [BitVec.eq_of_toNat_eq hcount, hpayload, Buffer.word, wordBytes_append]
      rfl
    · rw [h.accepted.res, ← hcrc, length_bytes]
    · rw [← hcrc, length_bytes]
  · rintro ⟨payload, hlength, hcounts, hbrings⟩
    have hmsgLength : ([ctxSlave, req 1] ++ payload).length = 2 + payload.length := by
      rw [List.length_append]
      rfl
    have hbytes : r.msg.bytes (2 + payload.length) = [ctxSlave, req 1] ++ payload := by
      rw [← hmsgLength, hbrings.bytes_take (by rw [length_sendMsg]; omega), take_sendMsg]
    have hhead : r.msg.bytes 2 = [ctxSlave, req 1] := by
      rw [← take_bytes r.msg (Nat.le_add_right 2 payload.length), hbytes]
      rfl
    obtain ⟨haddress, hrest⟩ := List.cons.inj hhead
    have hmsg : r.msg 1 = req 1 := (List.cons.inj hrest).1
    have hanswer : AnswersWrite (r.msg 1) := hmsg ▸ hfunction
    have hread := lengthToRead_write hanswer
    rw [hmsg, ← hlength] at hread
    have hsent : (sendMsg ([ctxSlave, req 1] ++ payload)).length = 4 + payload.length := by
      rw [length_sendMsg, hmsgLength]
      omega
    refine ⟨⟨?_, Or.inl haddress, ?_⟩, Or.inl (by rw [hslave, haddress]), hmsg, ?_, Or.inl ?_, ?_⟩
    · rw [hbrings.res, hsent, hread]
    · rw [hread, ← hsent, hbrings.bytes, hsent,
        show 4 + payload.length - 2 = 2 + payload.length by omega, hbytes]
    · rw [hmsg]
      rcases hfunction with h | h | h | h | h <;> rw [h] <;> decide
    · rw [hread, computeResponseLength_write hfunction, hlength]
      push_cast
      rfl
    · rw [nbValues_write req hanswer, hmsg]
      by_cases hc : Counts (req 1)
      · have hpayload : payload.length = 4 := by
          rw [hlength]
          rcases hc with hc | hc <;> rw [hc] <;> decide
        have hword : wordBytes (r.msg.word 4) = payload.drop 2 := by
          rw [hpayload] at hbytes
          rw [Buffer.word, wordBytes_append, show payload.drop 2 =
            ([ctxSlave, req 1] ++ payload).drop 4 from rfl, ← hbytes]
          rfl
        rw [hcounts hc, wordBytes_inj] at hword
        rw [if_pos hc, hword]
      · rw [if_neg hc]

/-- A request to write: its address and its function code. -/
structure AsksWrite (ctxSlave : Byte) (req : Buffer) : Prop where
  slave : req 0 = ctxSlave
  function : AnswersWrite (req 1)

/-- What a call that writes returns when it succeeds. -/
def writtenNb (req : Buffer) : ℕ := if Counts (req 1) then (req.word 4).toNat else 1

/-- A call whose write is confirmed returns the number of values. -/
lemma write_of_confirms (hreq : AsksWrite ctxSlave (Buffer.ofList req))
    (h : Confirms ctxSlave (Buffer.ofList req) (line s (sendMsg req)).1) (errno : ℕ) :
    (transact ctxSlave line s req errno).ret = ⟨writtenNb (Buffer.ofList req), errno⟩ := by
  have hanswer : AnswersWrite ((line s (sendMsg req)).1.msg 1) := h.function ▸ hreq.function
  rw [transact_of_confirms h, ← h.count, nbValues_write _ hanswer, h.function, writtenNb]
  by_cases hc : Counts (Buffer.ofList req 1)
  · rw [if_pos hc, if_pos hc]
  · rw [if_neg hc, if_neg hc]

/-- A call whose write is not confirmed fails. -/
lemma write_of_not_confirms (hreq : AsksWrite ctxSlave (Buffer.ofList req))
    (h : ¬ Confirms ctxSlave (Buffer.ofList req) (line s (sendMsg req)).1) (errno : ℕ) :
    (transact ctxSlave line s req errno).ret.rc = -1 := by
  apply transact_of_not_confirms h
  rw [computeResponseLength_write hreq.function]
  omega

/-- **A call that writes succeeds exactly on an answer that repeats its address, its function code
and its number of values**: neither the addresses nor the values are compared. -/
theorem write_iff (hreq : AsksWrite ctxSlave (Buffer.ofList req)) (errno : ℕ) :
    (transact ctxSlave line s req errno).ret.rc = writtenNb (Buffer.ofList req) ↔
      ∃ payload : List Byte, payload.length = payloadLength (Buffer.ofList req 1) ∧
        (Counts (Buffer.ofList req 1) →
          payload.drop 2 = wordBytes ((Buffer.ofList req).word 4)) ∧
        (line s (sendMsg req)).1.Brings
          (sendMsg ([ctxSlave, Buffer.ofList req 1] ++ payload)) := by
  rw [← confirms_write_iff hreq.slave hreq.function]
  constructor
  · intro hrc
    by_contra h
    have hfailed := write_of_not_confirms hreq h errno
    omega
  · intro h
    rw [write_of_confirms hreq h]

/-- A register that is written, as the slave says, at another address and with another value. -/
theorem write_one :
    (transact 1 (fun (s : Unit) _ =>
      (Reception.of (fun _ => 0) (sendMsg [1, 6, 0, 4, 0, 8]), s)) () [1, 6, 0, 5, 0, 7] 0).ret.rc =
        writtenNb (Buffer.ofList [1, 6, 0, 5, 0, 7]) := by
  have hreq : AsksWrite 1 (Buffer.ofList [1, 6, 0, 5, 0, 7]) := ⟨rfl, Or.inr (Or.inl rfl)⟩
  have hplain : ¬ Counts fcWriteSingleRegister := by decide
  exact (write_iff hreq 0).mpr
    ⟨[0, 4, 0, 8], rfl, fun h => absurd h hplain, Reception.brings_of _ _⟩

/-! ### Errors -/

/-- What an exception leaves in `libmodbuserrno`. -/
def exceptionErrno (exceptionCode : Byte) : ℕ :=
  if exceptionCode.toNat < modbusExceptionMax then modbusEnobase + exceptionCode.toNat
  else embbadexc

/-- The length of an exception. -/
lemma lengthToRead_exception {msg : Buffer} (h : 0x80 ≤ msg 1) :
    lengthToRead msg .confirmation = 5 := by
  simp only [lengthToRead, computeMetaLengthAfterFunction, computeDataLengthAfterMeta]
  rw [if_neg (by bv_omega), if_neg (by bv_omega), if_neg (by bv_omega), if_neg (by bv_omega)]

/-- **An exception fails with its own number.** -/
theorem transact_exception {function exceptionCode : Byte} (hslave : Buffer.ofList req 0 = ctxSlave)
    (hfunction : Buffer.ofList req 1 = function) (hplain : function < 0x80)
    (h : (line s (sendMsg req)).1.Brings (sendMsg [ctxSlave, function + 0x80, exceptionCode]))
    (errno : ℕ) :
    (transact ctxSlave line s req errno).ret = ⟨-1, exceptionErrno exceptionCode⟩ := by
  have hframe : ∀ i, i < 3 → (sendMsg [ctxSlave, function + 0x80, exceptionCode])[i]? =
      [ctxSlave, function + 0x80, exceptionCode][i]? := by
    intro i hi
    rw [sendMsg_eq, List.getElem?_append_left hi]
  have hsent : (sendMsg [ctxSlave, function + 0x80, exceptionCode]).length = 5 := length_sendMsg _
  set r := (line s (sendMsg req)).1 with hr
  have haddress : r.msg 0 = ctxSlave := h.apply (hframe 0 (by decide))
  have hmsg : r.msg 1 = function + 0x80 := h.apply (hframe 1 (by decide))
  have hcode : r.msg 2 = exceptionCode := h.apply (hframe 2 (by decide))
  have hexception : 0x80 ≤ r.msg 1 := by bv_omega
  have hread := lengthToRead_exception hexception
  have haccepted : Accepted ctxSlave r .confirmation := by
    refine ⟨?_, Or.inl haddress, ?_⟩
    · rw [hread, h.res, hsent]
    · rw [hread, h.bytes_take hsent.ge, h.bytes_take (by omega), ← hsent, List.take_length, hsent]
      exact congrArg sendMsg (take_sendMsg [ctxSlave, function + 0x80, exceptionCode]).symm
  have hrequest : ¬(Buffer.ofList req 0 ≠ r.msg 0 ∧ Buffer.ofList req 0 ≠ 0) := by
    rw [hslave, haddress]
    exact fun hne => hne.1 rfl
  have hown : ((5 : ℕ) : ℤ) = 1 + 2 + 2 ∧ Buffer.ofList req 1 = r.msg 1 - 0x80 := by
    refine ⟨rfl, ?_⟩
    rw [hfunction, hmsg, BitVec.add_sub_cancel]
  simp only [transact, ← hr, receiveMsg_of_accepted haccepted, hread]
  rw [if_neg (by decide)]
  simp only [checkConfirmation]
  rw [if_neg hrequest, if_pos hexception, if_pos hown, hcode]
  rfl

end PanelFirmware.Libmodbus
