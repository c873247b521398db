import PanelFirmware.Libmodbus.Rtu

/-!
# `libmodbus/src/modbus.c`, `modbus-rtu.c`: messages

Both ends of a line send a message with its checksum and accept one when its length is the one that
its function code and its counts announce, it carries the slave's address and its checksum is right.

* `sendMsg`: what is on the line for a message.
* `receiveMsg_pos_iff`: a message is accepted exactly when it has the announced length and is what
  `sendMsg` puts on the line for a message with the slave's address or the broadcast address.
* `xorBytes_sendMsg_ne`: damage within sixteen consecutive bits never makes another message.
-/

namespace PanelFirmware.Libmodbus

open PanelFirmware.Lib PanelFirmware.Utils

/-! ### Words in a message -/

/-- The bytes of a word, high byte first. -/
def wordBytes (w : BitVec 16) : List Byte := [(w >>> 8).setWidth 8, w.setWidth 8]

/-- The two bytes `value >> 8` and `value & 0x00FF` of an `int`. -/
def intBytes (value : ℤ) : List Byte := [BitVec.ofInt 8 (value >>> (8 : ℕ)), BitVec.ofInt 8 value]

/-- A word of a message, high byte first. -/
def Buffer.word (msg : Buffer) (i : ℕ) : BitVec 16 := msg i ++ msg (i + 1)

/-- A list of bytes at the start of a buffer. -/
def Buffer.ofList (msg : List Byte) : Buffer := Buffer.write (fun _ => 0) msg

/-! ### Function codes -/

/-- Source: `modbus.h` `MODBUS_FC_READ_COILS`. -/
abbrev fcReadCoils : Byte := 0x01
/-- Source: `modbus.h` `MODBUS_FC_READ_DISCRETE_INPUTS`. -/
abbrev fcReadDiscreteInputs : Byte := 0x02
/-- Source: `modbus.h` `MODBUS_FC_READ_HOLDING_REGISTERS`. -/
abbrev fcReadHoldingRegisters : Byte := 0x03
/-- Source: `modbus.h` `MODBUS_FC_READ_INPUT_REGISTERS`. -/
abbrev fcReadInputRegisters : Byte := 0x04
/-- Source: `modbus.h` `MODBUS_FC_WRITE_SINGLE_COIL`. -/
abbrev fcWriteSingleCoil : Byte := 0x05
/-- Source: `modbus.h` `MODBUS_FC_WRITE_SINGLE_REGISTER`. -/
abbrev fcWriteSingleRegister : Byte := 0x06
/-- Source: `modbus.h` `MODBUS_FC_READ_EXCEPTION_STATUS`. -/
abbrev fcReadExceptionStatus : Byte := 0x07
/-- Source: `modbus.h` `MODBUS_FC_WRITE_MULTIPLE_COILS`. -/
abbrev fcWriteMultipleCoils : Byte := 0x0F
/-- Source: `modbus.h` `MODBUS_FC_WRITE_MULTIPLE_REGISTERS`. -/
abbrev fcWriteMultipleRegisters : Byte := 0x10
/-- Source: `modbus.h` `MODBUS_FC_REPORT_SLAVE_ID`. -/
abbrev fcReportSlaveId : Byte := 0x11
/-- Source: `modbus.h` `MODBUS_FC_FILERECORD_WRITE`. -/
abbrev fcFilerecordWrite : Byte := 0x15
/-- Source: `modbus.h` `MODBUS_FC_MASK_WRITE_REGISTER`. -/
abbrev fcMaskWriteRegister : Byte := 0x16
/-- Source: `modbus.h` `MODBUS_FC_WRITE_AND_READ_REGISTERS`. -/
abbrev fcWriteAndReadRegisters : Byte := 0x17

/-! ### Error numbers -/

/-- Source: `modbus.h` `MODBUS_ENOBASE`. -/
def modbusEnobase : ℕ := 0x100
/-- Source: `modbus.h` `MODBUS_EXCEPTION_MAX`. -/
def modbusExceptionMax : ℕ := 12
/-- Source: `modbus.h` `EMBXGTAR`. -/
def embxgtar : ℕ := modbusEnobase + 11
/-- Source: `modbus.h` `EMBBADCRC`. -/
def embbadcrc : ℕ := embxgtar + 1
/-- Source: `modbus.h` `EMBBADDATA`. -/
def embbaddata : ℕ := embxgtar + 2
/-- Source: `modbus.h` `EMBBADEXC`. -/
def embbadexc : ℕ := embxgtar + 3
/-- Source: `modbus.h` `EMBMDATA`. -/
def embmdata : ℕ := embxgtar + 5
/-- Source: `modbus.h` `EMBBADSLAVE`. -/
def embbadslave : ℕ := embxgtar + 6
/-- The value of the C library. Source: `modbus.c` `_modbus_receive_msg`, `ECONNRESET`. -/
def econnreset : ℕ := 104
/-- The value of the C library. Source: `modbus-rtu.c` `_modbus_rtu_recv`, `ETIMEDOUT`. -/
def etimedout : ℕ := 116

/-- What a function returns, and `libmodbuserrno` after it. -/
structure Return where
  rc : ℤ
  errno : ℕ
  deriving DecidableEq

/-! ### Receiving -/

/-- What a reception leaves: the bytes of the buffer, those of earlier messages behind the ones it
has stored, and the result. Source: `rtuport.c` `modbus_serial_recv`. -/
structure Reception where
  msg : Buffer
  res : ℤ

/-- Source: `modbus.c` `msg_type_t`. -/
inductive MsgType
  | indication
  | confirmation

/-- Source: `modbus.c` `compute_meta_length_after_function`. -/
def computeMetaLengthAfterFunction (function : Byte) : MsgType → ℕ
  | .indication =>
      if function ≤ fcWriteSingleRegister then 4
      else if function = fcWriteMultipleCoils ∨ function = fcWriteMultipleRegisters then 5
      else if function = fcMaskWriteRegister then 6
      else if function = fcWriteAndReadRegisters then 9
      else 0
  | .confirmation =>
      if function = fcWriteSingleCoil ∨ function = fcWriteSingleRegister ∨
          function = fcWriteMultipleCoils ∨ function = fcWriteMultipleRegisters then 4
      else if function = fcFilerecordWrite then 1
      else if function = fcMaskWriteRegister then 6
      else 1

/-- The bytes that follow, with the checksum.
Source: `modbus.c` `compute_data_length_after_meta`. -/
def computeDataLengthAfterMeta (msg : Buffer) (msgType : MsgType) : ℕ :=
  let function := msg 1
  let length :=
    match msgType with
    | .indication =>
        if function = fcWriteMultipleCoils ∨ function = fcWriteMultipleRegisters then (msg 6).toNat
        else if function = fcWriteAndReadRegisters then (msg 10).toNat
        else 0
    | .confirmation =>
        if function ≤ fcReadInputRegisters ∨ function = fcReportSlaveId ∨
            function = fcWriteAndReadRegisters ∨ function = fcFilerecordWrite then (msg 2).toNat
        else 0
  length + 2

/-- Source: `modbus.c` `_modbus_receive_msg`, `length_to_read`. -/
def lengthToRead (msg : Buffer) (msgType : MsgType) : ℕ :=
  1 + 1 + computeMetaLengthAfterFunction (msg 1) msgType + computeDataLengthAfterMeta msg msgType

/-- Source: `modbus-rtu.c` `_modbus_rtu_recv`. -/
def rtuRecv (res : ℤ) (errno : ℕ) : Return :=
  if res = -1 then ⟨-1, embxgtar⟩ else if res = -2 then ⟨-1, etimedout⟩ else ⟨res, errno⟩

/-- 0 for a message to another slave. Source: `modbus-rtu.c` `_modbus_rtu_check_integrity`. -/
def checkIntegrity (ctxSlave : Byte) (msg : Buffer) (msgLength errno : ℕ) : Return :=
  let slave := msg 0
  if slave ≠ ctxSlave ∧ slave ≠ 0 then ⟨0, errno⟩
  else
    let crcCalculated := crc16 (msg.bytes (msgLength - 2))
    let crcReceived := msg.word (msgLength - 2)
    if crcCalculated = crcReceived then ⟨msgLength, errno⟩ else ⟨-1, embbadcrc⟩

/-- Source: `modbus.c` `_modbus_receive_msg`. -/
def receiveMsg (ctxSlave : Byte) (r : Reception) (msgType : MsgType) (errno : ℕ) : Return :=
  let got := rtuRecv r.res errno
  let got := if got.rc = 0 then ⟨-1, econnreset⟩ else got
  if got.rc ≠ lengthToRead r.msg msgType then ⟨-1, got.errno⟩
  else checkIntegrity ctxSlave r.msg (lengthToRead r.msg msgType) got.errno

/-! ### Sending -/

/-- What is put on the line for a message. Source: `modbus.c` `send_msg`. -/
def sendMsg (msg : List Byte) : List Byte :=
  let (buffer, length) := sendMsgPre (Buffer.ofList msg) msg.length
  buffer.bytes length

/-! ### What is on the line -/

/-- The bytes of a list at the start of a buffer are the list. -/
@[simp] lemma bytes_ofList (msg : List Byte) : (Buffer.ofList msg).bytes msg.length = msg :=
  Buffer.bytes_write _ msg

/-- A byte of a list at the start of a buffer. -/
lemma ofList_apply {msg : List Byte} {i : ℕ} {b : Byte} (h : msg[i]? = some b) :
    Buffer.ofList msg i = b :=
  Buffer.write_apply h

/-- As many bytes as are looked at. -/
@[simp] lemma length_bytes (msg : Buffer) (n : ℕ) : (msg.bytes n).length = n := by
  rw [Buffer.bytes, List.length_map, List.length_range]

/-- One of the first bytes. -/
lemma getElem?_bytes (msg : Buffer) {i n : ℕ} (h : i < n) : (msg.bytes n)[i]? = some (msg i) := by
  rw [Buffer.bytes, List.getElem?_map, List.getElem?_range h, Option.map_some]

/-- The first of the first bytes. -/
lemma take_bytes (msg : Buffer) {k n : ℕ} (h : k ≤ n) : (msg.bytes n).take k = msg.bytes k := by
  rw [Buffer.bytes, Buffer.bytes, ← List.map_take, List.take_range, min_eq_left h]

/-- Two bytes more. -/
lemma bytes_add_two (msg : Buffer) (n : ℕ) :
    msg.bytes (n + 2) = msg.bytes n ++ [msg n, msg (n + 1)] := by
  simp only [Buffer.bytes, List.range_succ, List.map_append, List.map_cons, List.map_nil,
    List.append_assoc, List.cons_append, List.nil_append]

/-- A word is its two bytes. -/
lemma append_wordBytes (w : BitVec 16) :
    ((w >>> 8).setWidth 8 : Byte) ++ (w.setWidth 8 : Byte) = w := by
  apply BitVec.eq_of_getLsbD_eq
  intro i hi
  simp only [BitVec.getLsbD_append, BitVec.getLsbD_setWidth, BitVec.getLsbD_ushiftRight]
  by_cases h8 : i < 8
  · simp [h8]
  · have hhigh : i - 8 < 8 := by omega
    simp [h8, hhigh, show 8 + (i - 8) = i by omega]

/-- The bytes of two bytes put together. -/
@[simp] lemma wordBytes_append (a b : Byte) : wordBytes (a ++ b) = [a, b] := by
  rw [wordBytes, setWidth_append_shift, BitVec.setWidth_append_eq_right]

/-- Words with the same bytes are the same. -/
lemma wordBytes_inj {v w : BitVec 16} : wordBytes v = wordBytes w ↔ v = w := by
  refine ⟨fun h => ?_, congrArg wordBytes⟩
  obtain ⟨hhigh, hrest⟩ := List.cons.inj h
  rw [← append_wordBytes v, ← append_wordBytes w, hhigh, (List.cons.inj hrest).1]

/-- The two bytes of an `int` are those of its low word. -/
lemma intBytes_eq (value : ℤ) : intBytes value = wordBytes (BitVec.ofInt 16 value) := by
  have hhigh : BitVec.ofInt 8 (value >>> (8 : ℕ)) = ((BitVec.ofInt 16 value) >>> 8).setWidth 8 := by
    apply BitVec.eq_of_toNat_eq
    rw [BitVec.toNat_ofInt, BitVec.toNat_setWidth, BitVec.toNat_ushiftRight, BitVec.toNat_ofInt,
      Int.shiftRight_eq_div_pow, Nat.shiftRight_eq_div_pow]
    omega
  have hlow : BitVec.ofInt 8 value = (BitVec.ofInt 16 value).setWidth 8 := by
    apply BitVec.eq_of_toNat_eq
    rw [BitVec.toNat_ofInt, BitVec.toNat_setWidth, BitVec.toNat_ofInt]
    omega
  rw [intBytes, wordBytes, hhigh, hlow]

/-- Words more. -/
lemma bytes_add_words (msg : Buffer) (k n : ℕ) :
    msg.bytes (k + 2 * n) =
      msg.bytes k ++ (List.range n).flatMap fun i => wordBytes (msg.word (k + 2 * i)) := by
  induction n with
  | zero => rw [List.range_zero, List.flatMap_nil, List.append_nil, Nat.mul_zero, Nat.add_zero]
  | succ n ih =>
      rw [show k + 2 * (n + 1) = k + 2 * n + 2 by omega, bytes_add_two, ih, List.range_succ,
        List.flatMap_append, List.flatMap_singleton, Buffer.word, wordBytes_append,
        List.append_assoc]

/-- As many bytes as two a word. -/
@[simp] lemma length_flatMap_wordBytes (values : List (BitVec 16)) :
    (values.flatMap wordBytes).length = 2 * values.length := by
  induction values with
  | nil => rfl
  | cons w ws ih =>
      rw [List.flatMap_cons, List.length_append, ih, List.length_cons]
      simp only [wordBytes, List.length_cons, List.length_nil]
      omega

/-- Words with the same bytes are the same. -/
lemma flatMap_wordBytes_inj {values values' : List (BitVec 16)}
    (h : values.flatMap wordBytes = values'.flatMap wordBytes) : values = values' := by
  induction values generalizing values' with
  | nil =>
      cases values' with
      | nil => rfl
      | cons w ws => cases h
  | cons v vs ih =>
      cases values' with
      | nil => cases h
      | cons w ws =>
          rw [List.flatMap_cons, List.flatMap_cons] at h
          obtain ⟨hword, hrest⟩ := List.append_inj h rfl
          rw [wordBytes_inj.mp hword, ih hrest]

/-- A message on the line is the message and its checksum. -/
lemma sendMsg_eq (msg : List Byte) : sendMsg msg = msg ++ wordBytes (crc16 msg) := by
  have hmask : ∀ w : BitVec 16, ((w &&& 0x00FF).setWidth 8 : Byte) = w.setWidth 8 := by
    intro w
    rw [← append_wordBytes w, BitVec.setWidth_append_eq_right]
    exact setWidth_append_and _ _
  simp only [sendMsg, sendMsgPre]
  rw [bytes_update_update, bytes_ofList, wordBytes, hmask]

/-- Two bytes longer. -/
@[simp] lemma length_sendMsg (msg : List Byte) : (sendMsg msg).length = msg.length + 2 := by
  rw [sendMsg_eq, List.length_append]
  rfl

/-- The message is in front. -/
lemma take_sendMsg (msg : List Byte) : (sendMsg msg).take msg.length = msg := by
  rw [sendMsg_eq, List.take_left]

/-- The checksum of a message that has been received is right exactly when it is what is sent for
the bytes before it. -/
lemma crc16_eq_word_iff (msg : Buffer) (n : ℕ) :
    crc16 (msg.bytes n) = msg.word n ↔ msg.bytes (n + 2) = sendMsg (msg.bytes n) := by
  rw [sendMsg_eq, bytes_add_two, List.append_cancel_left_eq, ← wordBytes_append, wordBytes_inj]
  exact eq_comm

/-- What is sent passes the firmware's check. -/
lemma crc16Calc_sendMsg {msg : List Byte} (h : msg ≠ []) :
    crc16Calc crcModBus (sendMsg msg) = some 0#16 :=
  crc16Calc_sendMsgPre (Buffer.ofList msg) (List.length_pos_iff.mpr h)

/-- **Damage within sixteen consecutive bits never makes another message.** -/
theorem xorBytes_sendMsg_ne {msg e : List Byte} (hmsg : msg ≠ [])
    (hlen : e.length = (sendMsg msg).length) (p : ℕ) (hset : true ∈ bytesBits e)
    (hwin : ∀ i, (bytesBits e)[i]? = some true → p ≤ i ∧ i < p + 16) (msg' : List Byte) :
    xorBytes (sendMsg msg) e ≠ sendMsg msg' := by
  intro heq
  have hpos : 0 < msg.length := List.length_pos_iff.mpr hmsg
  have hlength := congrArg List.length heq
  rw [length_xorBytes hlen, length_sendMsg, length_sendMsg] at hlength
  have hmsg' : msg' ≠ [] := List.length_pos_iff.mp (by omega)
  have hburst := crc16Calc_burst hlen (crc16Calc_sendMsg hmsg) p hset hwin
  rw [heq] at hburst
  exact hburst (crc16Calc_sendMsg hmsg')

/-! ### What is accepted -/

/-- A reception of the bytes of a list. -/
structure Reception.Brings (r : Reception) (frame : List Byte) : Prop where
  res : r.res = frame.length
  bytes : r.msg.bytes frame.length = frame

/-- A byte of what has been received. -/
lemma Reception.Brings.apply {r : Reception} {frame : List Byte} (h : r.Brings frame) {i : ℕ}
    {b : Byte} (hi : frame[i]? = some b) : r.msg i = b := by
  obtain ⟨hlt, -⟩ := List.getElem?_eq_some_iff.mp hi
  rw [← h.bytes, Buffer.bytes, List.getElem?_map, List.getElem?_range hlt] at hi
  exact Option.some.inj hi

/-- The first bytes of what has been received. -/
lemma Reception.Brings.bytes_take {r : Reception} {frame : List Byte} (h : r.Brings frame) {n : ℕ}
    (hn : n ≤ frame.length) : r.msg.bytes n = frame.take n := by
  rw [← h.bytes, take_bytes r.msg hn]

/-- A reception of a list of bytes over what the buffer held. -/
def Reception.of (msg : Buffer) (frame : List Byte) : Reception := ⟨msg.write frame, frame.length⟩

/-- It brings the list. -/
lemma Reception.brings_of (msg : Buffer) (frame : List Byte) :
    (Reception.of msg frame).Brings frame :=
  ⟨rfl, Buffer.bytes_write msg frame⟩

/-- A reception that is accepted: it has the announced length, the slave's address or the broadcast
address, and is what is sent for its bytes before the checksum. -/
structure Accepted (ctxSlave : Byte) (r : Reception) (msgType : MsgType) : Prop where
  res : r.res = lengthToRead r.msg msgType
  slave : r.msg 0 = ctxSlave ∨ r.msg 0 = 0
  crc : r.msg.bytes (lengthToRead r.msg msgType) =
    sendMsg (r.msg.bytes (lengthToRead r.msg msgType - 2))

/-- A message has an address, a function code and a checksum. -/
lemma le_lengthToRead (msg : Buffer) (msgType : MsgType) : 4 ≤ lengthToRead msg msgType := by
  simp only [lengthToRead, computeDataLengthAfterMeta]
  omega

/-- The result of a reception with the announced length. -/
lemma receiveMsg_of_res {r : Reception} {msgType : MsgType}
    (h : r.res = lengthToRead r.msg msgType) (ctxSlave : Byte) (errno : ℕ) :
    receiveMsg ctxSlave r msgType errno =
      checkIntegrity ctxSlave r.msg (lengthToRead r.msg msgType) errno := by
  have hle := le_lengthToRead r.msg msgType
  have hrecv : rtuRecv r.res errno = ⟨r.res, errno⟩ := by
    rw [rtuRecv, if_neg (by omega), if_neg (by omega)]
  simp only [receiveMsg, hrecv]
  rw [if_neg (by omega : ¬ r.res = 0)]
  exact if_neg (not_not_intro h)

/-- A reception with another length fails, by its result alone. -/
lemma receiveMsg_of_res_ne {r : Reception} {msgType : MsgType}
    (h : r.res ≠ lengthToRead r.msg msgType) (ctxSlave : Byte) (errno : ℕ) :
    receiveMsg ctxSlave r msgType errno =
      ⟨-1, (if (rtuRecv r.res errno).rc = 0 then (⟨-1, econnreset⟩ : Return)
        else rtuRecv r.res errno).errno⟩ := by
  have hle := le_lengthToRead r.msg msgType
  have hne : (if (rtuRecv r.res errno).rc = 0 then (⟨-1, econnreset⟩ : Return)
      else rtuRecv r.res errno).rc ≠ lengthToRead r.msg msgType := by
    simp only [rtuRecv]
    split_ifs <;> simp only <;> omega
  simp only [receiveMsg]
  rw [if_pos hne]

/-- An accepted message is returned with its length. -/
lemma receiveMsg_of_accepted {ctxSlave : Byte} {r : Reception} {msgType : MsgType}
    (h : Accepted ctxSlave r msgType) (errno : ℕ) :
    receiveMsg ctxSlave r msgType errno = ⟨lengthToRead r.msg msgType, errno⟩ := by
  have hle := le_lengthToRead r.msg msgType
  have hcrc := h.crc
  rw [show lengthToRead r.msg msgType = lengthToRead r.msg msgType - 2 + 2 by omega,
    Nat.add_sub_cancel] at hcrc
  have hslave : ¬(r.msg 0 ≠ ctxSlave ∧ r.msg 0 ≠ 0) := by
    rintro ⟨hne, hne'⟩
    exact h.slave.elim hne hne'
  rw [receiveMsg_of_res h.res]
  simp only [checkIntegrity]
  rw [if_neg hslave, if_pos ((crc16_eq_word_iff _ _).mpr hcrc)]

/-- Any other reception is ignored or fails. -/
lemma receiveMsg_of_not_accepted {ctxSlave : Byte} {r : Reception} {msgType : MsgType}
    (h : ¬ Accepted ctxSlave r msgType) (errno : ℕ) :
    (receiveMsg ctxSlave r msgType errno).rc = -1 ∨
      (receiveMsg ctxSlave r msgType errno).rc = 0 ∧ r.msg 0 ≠ ctxSlave ∧ r.msg 0 ≠ 0 := by
  by_cases hres : r.res = lengthToRead r.msg msgType
  · rw [receiveMsg_of_res hres]
    simp only [checkIntegrity]
    split_ifs with hslave hcrc
    · exact Or.inr ⟨rfl, hslave⟩
    · have hle := le_lengthToRead r.msg msgType
      have hframe := (crc16_eq_word_iff _ _).mp hcrc
      rw [show lengthToRead r.msg msgType - 2 + 2 = lengthToRead r.msg msgType by omega] at hframe
      exact absurd ⟨hres, by tauto, hframe⟩ h
    · exact Or.inl rfl
  · exact Or.inl (congrArg Return.rc (receiveMsg_of_res_ne hres ctxSlave errno))

/-- **A message is received exactly when it is accepted.** -/
theorem receiveMsg_pos_iff (ctxSlave : Byte) (r : Reception) (msgType : MsgType) (errno : ℕ) :
    0 < (receiveMsg ctxSlave r msgType errno).rc ↔ Accepted ctxSlave r msgType := by
  constructor
  · intro hpos
    by_contra hnot
    rcases receiveMsg_of_not_accepted hnot errno with hrc | ⟨hrc, -⟩ <;> omega
  · intro h
    have hle := le_lengthToRead r.msg msgType
    rw [receiveMsg_of_accepted h]
    simp only
    omega

end PanelFirmware.Libmodbus
