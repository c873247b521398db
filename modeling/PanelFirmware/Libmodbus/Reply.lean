import PanelFirmware.Libmodbus.Bits

/-!
# `libmodbus/src/modbus.c`: the answers of a slave

`modbus_reply` looks a request up in the tables of a mapping, changes them and builds the answer.
A mapping may begin at other addresses than 0, each table at its own.

* `modbusReply`: the answer and the tables after it; `none` where an access is outside a table,
  which the model finds at each access and not from the tests before it.
* `modbusReply_congr`: the answer depends on the bytes of the request only, not on what the buffer
  holds behind them.
* `modbusReply_eq_none_iff`: a table is left exactly by a request to write and read registers whose
  writing begins before the table.
-/

namespace PanelFirmware.Libmodbus

open PanelFirmware.Lib PanelFirmware.Lib.BoundedArray

/-- The tables of a slave, each with the address of its first entry. They hold `nb_…` entries, as
`modbus_mapping_new_start_address` allocates them. Source: `modbus.h` `modbus_mapping_t`. -/
structure Mapping where
  startBits : ℤ
  startInputBits : ℤ
  startInputRegisters : ℤ
  startRegisters : ℤ
  tabBits : List Byte
  tabInputBits : List Byte
  tabInputRegisters : List (BitVec 16)
  tabRegisters : List (BitVec 16)

/-- Source: `modbus.h` `MODBUS_EXCEPTION_ILLEGAL_FUNCTION`. -/
abbrev exceptionIllegalFunction : Byte := 0x01
/-- Source: `modbus.h` `MODBUS_EXCEPTION_ILLEGAL_DATA_ADDRESS`. -/
abbrev exceptionIllegalDataAddress : Byte := 0x02
/-- Source: `modbus.h` `MODBUS_EXCEPTION_ILLEGAL_DATA_VALUE`. -/
abbrev exceptionIllegalDataValue : Byte := 0x03
/-- Source: `modbus-private.h` `_REPORT_SLAVE_ID`. -/
abbrev reportSlaveIdByte : Byte := 180

/-- Source: `modbus-rtu.c` `_modbus_rtu_build_response_basis`. -/
def buildResponseBasis (req : Buffer) : List Byte := [req 0, req 1]

/-- Source: `modbus.c` `response_exception`. -/
def responseException (req : Buffer) (exceptionCode : Byte) : List Byte :=
  [req 0, req 1 + 0x80, exceptionCode]

/-- The number of values of a request, as the code reads it. -/
def requestNb (req : Buffer) : ℕ := (req.word 4).toNat

/-- The place of a request in a table. Source: `modbus.c` `modbus_reply`, `mapping_address`. -/
def mappingAddress (req : Buffer) (start : ℤ) : ℤ := (req.word 2).toNat - start

/-- Source: `modbus.c` `modbus_reply`, `MODBUS_FC_READ_COILS` and
`MODBUS_FC_READ_DISCRETE_INPUTS`. -/
def replyReadBits (tabBits : List Byte) (startBits : ℤ) (req : Buffer) : Option (List Byte) :=
  let nb := requestNb req
  let address := mappingAddress req startBits
  if nb < 1 ∨ modbusMaxReadBits < nb then some (responseException req exceptionIllegalDataValue)
  else if address < 0 ∨ address + nb > tabBits.length then
    some (responseException req exceptionIllegalDataAddress)
  else
    responseIoStatus tabBits address nb
      (buildResponseBasis req ++ [BitVec.ofNat 8 (nb / 8 + if nb % 8 ≠ 0 then 1 else 0)])

/-- Registers as the answer carries them. Source: `modbus.c` `modbus_reply`, the loops that read. -/
def registersBytes (tab : List (BitVec 16)) (address : ℤ) (nb : ℕ) : Option (List Byte) :=
  (loadAll tab address nb).map fun values => values.flatMap wordBytes

/-- Source: `modbus.c` `modbus_reply`, `MODBUS_FC_READ_HOLDING_REGISTERS` and
`MODBUS_FC_READ_INPUT_REGISTERS`. -/
def replyReadRegisters (tabRegisters : List (BitVec 16)) (startRegisters : ℤ) (req : Buffer) :
    Option (List Byte) :=
  let nb := requestNb req
  let address := mappingAddress req startRegisters
  if nb < 1 ∨ modbusMaxReadRegisters < nb then
    some (responseException req exceptionIllegalDataValue)
  else if address < 0 ∨ address + nb > tabRegisters.length then
    some (responseException req exceptionIllegalDataAddress)
  else
    (registersBytes tabRegisters address nb).map fun bytes =>
      buildResponseBasis req ++ [BitVec.ofNat 8 (nb <<< 1)] ++ bytes

/-- Source: `modbus.c` `modbus_reply`, `MODBUS_FC_WRITE_SINGLE_COIL`. -/
def replyWriteBit (m : Mapping) (req : Buffer) (reqLength : ℕ) : Option (Mapping × List Byte) :=
  let address := mappingAddress req m.startBits
  if address < 0 ∨ address ≥ m.tabBits.length then
    some (m, responseException req exceptionIllegalDataAddress)
  else
    let data := req.word 4
    if data = 0xFF00 ∨ data = 0 then
      (store m.tabBits address (if data ≠ 0 then 1 else 0)).map fun tabBits =>
        ({ m with tabBits }, req.bytes reqLength)
    else some (m, responseException req exceptionIllegalDataValue)

/-- Source: `modbus.c` `modbus_reply`, `MODBUS_FC_WRITE_SINGLE_REGISTER`. -/
def replyWriteRegister (m : Mapping) (req : Buffer) (reqLength : ℕ) :
    Option (Mapping × List Byte) :=
  let address := mappingAddress req m.startRegisters
  if address < 0 ∨ address ≥ m.tabRegisters.length then
    some (m, responseException req exceptionIllegalDataAddress)
  else
    (store m.tabRegisters address (req.word 4)).map fun tabRegisters =>
      ({ m with tabRegisters }, req.bytes reqLength)

/-- Source: `modbus.c` `modbus_reply`, `MODBUS_FC_WRITE_MULTIPLE_COILS`. -/
def replyWriteBits (m : Mapping) (req : Buffer) : Option (Mapping × List Byte) :=
  let nb := requestNb req
  let nbBits := (req 6).toNat
  let address := mappingAddress req m.startBits
  if nb < 1 ∨ modbusMaxWriteBits < nb ∨ nbBits * 8 < nb then
    some (m, responseException req exceptionIllegalDataValue)
  else if address < 0 ∨ address + nb > m.tabBits.length then
    some (m, responseException req exceptionIllegalDataAddress)
  else
    (setBitsFromBytes m.tabBits address nb fun i => req (7 + i)).map fun tabBits =>
      ({ m with tabBits }, buildResponseBasis req ++ [req 2, req 3, req 4, req 5])

/-- Source: `modbus.c` `modbus_reply`, `MODBUS_FC_WRITE_MULTIPLE_REGISTERS`. -/
def replyWriteRegisters (m : Mapping) (req : Buffer) : Option (Mapping × List Byte) :=
  let nb := requestNb req
  let nbBytes := (req 6).toNat
  let address := mappingAddress req m.startRegisters
  if nb < 1 ∨ modbusMaxWriteRegisters < nb ∨ nbBytes ≠ nb * 2 then
    some (m, responseException req exceptionIllegalDataValue)
  else if address < 0 ∨ address + nb > m.tabRegisters.length then
    some (m, responseException req exceptionIllegalDataAddress)
  else
    (storeAll m.tabRegisters address nb fun i => req.word (7 + 2 * i)).map fun tabRegisters =>
      ({ m with tabRegisters }, buildResponseBasis req ++ [req 2, req 3, req 4, req 5])

/-- Source: `modbus.c` `modbus_reply`, `MODBUS_FC_MASK_WRITE_REGISTER`. -/
def replyMaskWriteRegister (m : Mapping) (req : Buffer) (reqLength : ℕ) :
    Option (Mapping × List Byte) :=
  let address := mappingAddress req m.startRegisters
  if address < 0 ∨ address ≥ m.tabRegisters.length then
    some (m, responseException req exceptionIllegalDataAddress)
  else
    (load m.tabRegisters address).bind fun data =>
      let andMask := req.word 4
      let orMask := req.word 6
      (store m.tabRegisters address ((data &&& andMask) ||| (orMask &&& ~~~andMask))).map
        fun tabRegisters => ({ m with tabRegisters }, req.bytes reqLength)

/-- The place of the reading is tested for being negative twice, that of the writing never.
Source: `modbus.c` `modbus_reply`, `MODBUS_FC_WRITE_AND_READ_REGISTERS`. -/
def replyWriteAndReadRegisters (m : Mapping) (req : Buffer) : Option (Mapping × List Byte) :=
  let nb := requestNb req
  let addressWrite : ℤ := (req.word 6).toNat - m.startRegisters
  let nbWrite := (req.word 8).toNat
  let nbWriteBytes := (req 10).toNat
  let address := mappingAddress req m.startRegisters
  if nbWrite < 1 ∨ modbusMaxWrWriteRegisters < nbWrite ∨ nb < 1 ∨ modbusMaxWrReadRegisters < nb ∨
      nbWriteBytes ≠ nbWrite * 2 then
    some (m, responseException req exceptionIllegalDataValue)
  else if address < 0 ∨ address + nb > m.tabRegisters.length ∨ address < 0 ∨
      addressWrite + nbWrite > m.tabRegisters.length then
    some (m, responseException req exceptionIllegalDataAddress)
  else
    (storeAll m.tabRegisters addressWrite nbWrite fun i => req.word (11 + 2 * i)).bind
      fun tabRegisters =>
        (registersBytes tabRegisters address nb).map fun bytes =>
          ({ m with tabRegisters },
            buildResponseBasis req ++ [BitVec.ofNat 8 (nb <<< 1)] ++ bytes)

/-- The bytes of `"LMB" LIBMODBUS_VERSION_STRING` are a parameter: the build makes the header.
Source: `modbus.c` `modbus_reply`, `MODBUS_FC_REPORT_SLAVE_ID`. -/
def replyReportSlaveId (version : List Byte) (req : Buffer) : List Byte :=
  buildResponseBasis req ++ [BitVec.ofNat 8 (2 + version.length), reportSlaveIdByte, 0xFF] ++
    version

/-- The tables after a request and the answer that is built; no answer to
`MODBUS_FC_READ_EXCEPTION_STATUS`. `reqLength` is the length without the checksum.
Source: `modbus.c` `modbus_reply`, the `switch`. -/
def buildReply (version : List Byte) (m : Mapping) (req : Buffer) (reqLength : ℕ) :
    Option (Mapping × Option (List Byte)) :=
  let read (answer : Option (List Byte)) : Option (Mapping × Option (List Byte)) :=
    answer.map fun answer => (m, some answer)
  let answered (reply : Option (Mapping × List Byte)) : Option (Mapping × Option (List Byte)) :=
    reply.map fun reply => (reply.1, some reply.2)
  let function := req 1
  if function = fcReadCoils then read (replyReadBits m.tabBits m.startBits req)
  else if function = fcReadDiscreteInputs then
    read (replyReadBits m.tabInputBits m.startInputBits req)
  else if function = fcReadHoldingRegisters then
    read (replyReadRegisters m.tabRegisters m.startRegisters req)
  else if function = fcReadInputRegisters then
    read (replyReadRegisters m.tabInputRegisters m.startInputRegisters req)
  else if function = fcWriteSingleCoil then answered (replyWriteBit m req reqLength)
  else if function = fcWriteSingleRegister then answered (replyWriteRegister m req reqLength)
  else if function = fcWriteMultipleCoils then answered (replyWriteBits m req)
  else if function = fcWriteMultipleRegisters then answered (replyWriteRegisters m req)
  else if function = fcReportSlaveId then some (m, some (replyReportSlaveId version req))
  else if function = fcReadExceptionStatus then some (m, none)
  else if function = fcMaskWriteRegister then answered (replyMaskWriteRegister m req reqLength)
  else if function = fcWriteAndReadRegisters then answered (replyWriteAndReadRegisters m req)
  else some (m, some (responseException req exceptionIllegalFunction))

/-- The tables after a request and what is sent for it: nothing to a broadcast.
Source: `modbus.c` `modbus_reply`. -/
def modbusReply (version : List Byte) (m : Mapping) (req : Buffer) (reqLength : ℕ) :
    Option (Mapping × Option (List Byte)) :=
  (buildReply version m req (reqLength - 2)).map fun reply =>
    (reply.1, if req 0 = 0 then none else reply.2.map sendMsg)

/-! ### The bytes that are looked at -/

section Congruence

variable {a b : Buffer} {n : ℕ}

/-- A word of buffers that agree. -/
lemma word_congr (h : ∀ i, i < n → a i = b i) {i : ℕ} (hi : i + 1 < n) : a.word i = b.word i := by
  rw [Buffer.word, Buffer.word, h i (by omega), h (i + 1) hi]

/-- The first bytes of buffers that agree. -/
lemma bytes_congr (h : ∀ i, i < n → a i = b i) {k : ℕ} (hk : k ≤ n) : a.bytes k = b.bytes k :=
  List.map_congr_left fun i hi => h i (Nat.lt_of_lt_of_le (List.mem_range.mp hi) hk)

/-- The fields of requests that agree. -/
lemma fields_congr (h : ∀ i, i < n → a i = b i) (hn : 6 ≤ n) :
    requestNb a = requestNb b ∧ (∀ start, mappingAddress a start = mappingAddress b start) ∧
      buildResponseBasis a = buildResponseBasis b ∧
      ∀ code, responseException a code = responseException b code := by
  have h0 := h 0 (by omega)
  have h1 := h 1 (by omega)
  refine ⟨?_, fun start => ?_, ?_, fun code => ?_⟩
  · rw [requestNb, requestNb, word_congr h (by omega)]
  · rw [mappingAddress, mappingAddress, word_congr h (by omega)]
  · rw [buildResponseBasis, buildResponseBasis, h0, h1]
  · rw [responseException, responseException, h0, h1]

/-- The bits that are set come from the bytes they are in. -/
lemma setBitsFromBytes_congr (dest : List Byte) (idx : ℤ) {nbBits : ℕ} {f g : ℕ → Byte}
    (h : ∀ i, i < (nbBits + 7) / 8 → f i = g i) :
    setBitsFromBytes dest idx nbBits f = setBitsFromBytes dest idx nbBits g := by
  rw [setBitsFromBytes_eq, setBitsFromBytes_eq]
  refine storeAll_congr dest idx fun i hi => ?_
  rw [bitOf, bitOf, h (i / 8) (by omega)]

/-- The answers that look at six bytes. -/
lemma reply_congr_of_six (m : Mapping) (h : ∀ i, i < n → a i = b i) (hn : n = 6) :
    (∀ tab start, replyReadBits tab start a = replyReadBits tab start b) ∧
      (∀ tab start, replyReadRegisters tab start a = replyReadRegisters tab start b) ∧
      replyWriteBit m a n = replyWriteBit m b n ∧
      replyWriteRegister m a n = replyWriteRegister m b n := by
  obtain ⟨hnb, haddress, hbasis, hexception⟩ := fields_congr h (by omega)
  have hword := word_congr h (by omega : 4 + 1 < n)
  have hbytes := bytes_congr h (Nat.le_refl n)
  refine ⟨fun tab start => ?_, fun tab start => ?_, ?_, ?_⟩
  · simp only [replyReadBits, hnb, haddress, hbasis, hexception]
  · simp only [replyReadRegisters, hnb, haddress, hbasis, hexception]
  · simp only [replyWriteBit, haddress, hexception, hword, hbytes]
  · simp only [replyWriteRegister, haddress, hexception, hword, hbytes]

/-- The masks. -/
lemma replyMaskWriteRegister_congr (m : Mapping) (h : ∀ i, i < n → a i = b i) (hn : n = 8) :
    replyMaskWriteRegister m a n = replyMaskWriteRegister m b n := by
  obtain ⟨-, haddress, -, hexception⟩ := fields_congr h (by omega)
  simp only [replyMaskWriteRegister, haddress, hexception, word_congr h (by omega : 4 + 1 < n),
    word_congr h (by omega : 6 + 1 < n), bytes_congr h (Nat.le_refl n)]

/-- The bits of a request. -/
lemma replyWriteBits_congr (m : Mapping) (h : ∀ i, i < n → a i = b i) (hn : n = 7 + (a 6).toNat) :
    replyWriteBits m a = replyWriteBits m b := by
  obtain ⟨hnb, haddress, hbasis, hexception⟩ := fields_congr h (by omega)
  simp only [replyWriteBits, ← hnb, ← haddress, ← hbasis, ← hexception, ← h 6 (by omega),
    ← h 2 (by omega), ← h 3 (by omega), ← h 4 (by omega), ← h 5 (by omega)]
  split_ifs with hvalue
  · rfl
  · rfl
  · rw [setBitsFromBytes_congr]
    intro i hi
    exact h (7 + i) (by omega)

/-- The registers of a request. -/
lemma replyWriteRegisters_congr (m : Mapping) (h : ∀ i, i < n → a i = b i)
    (hn : n = 7 + (a 6).toNat) : replyWriteRegisters m a = replyWriteRegisters m b := by
  obtain ⟨hnb, haddress, hbasis, hexception⟩ := fields_congr h (by omega)
  simp only [replyWriteRegisters, ← hnb, ← haddress, ← hbasis, ← hexception, ← h 6 (by omega),
    ← h 2 (by omega), ← h 3 (by omega), ← h 4 (by omega), ← h 5 (by omega)]
  split_ifs with hvalue
  · rfl
  · rfl
  · rw [storeAll_congr]
    intro i hi
    exact word_congr h (by omega)

/-- The registers of a request to write and read. -/
lemma replyWriteAndReadRegisters_congr (m : Mapping) (h : ∀ i, i < n → a i = b i)
    (hn : n = 11 + (a 10).toNat) :
    replyWriteAndReadRegisters m a = replyWriteAndReadRegisters m b := by
  obtain ⟨hnb, haddress, hbasis, hexception⟩ := fields_congr h (by omega)
  have h6 := word_congr h (by omega : 6 + 1 < n)
  have h8 := word_congr h (by omega : 8 + 1 < n)
  have h10 := h 10 (by omega)
  by_cases hvalue : (a.word 8).toNat < 1 ∨ modbusMaxWrWriteRegisters < (a.word 8).toNat ∨
      requestNb a < 1 ∨ modbusMaxWrReadRegisters < requestNb a ∨
      (a 10).toNat ≠ (a.word 8).toNat * 2
  · have hvalue' := hvalue
    rw [h8, hnb, h10] at hvalue'
    simp only [replyWriteAndReadRegisters]
    rw [if_pos hvalue, if_pos hvalue', hexception]
  · have hstore : ∀ address, storeAll m.tabRegisters address (a.word 8).toNat
        (fun i => a.word (11 + 2 * i)) = storeAll m.tabRegisters address (a.word 8).toNat
        fun i => b.word (11 + 2 * i) := by
      intro address
      apply storeAll_congr
      intro i hi
      exact word_congr h (by omega)
    simp only [replyWriteAndReadRegisters, hstore]
    simp only [h8, hnb, h10, h6, haddress, hbasis, hexception]

end Congruence

/-- The bytes that a request announces, without its checksum. -/
lemma lengthToRead_indication (req : Buffer) :
    lengthToRead req .indication - 2 =
      if req 1 ≤ fcWriteSingleRegister then 6
      else if req 1 = fcWriteMultipleCoils ∨ req 1 = fcWriteMultipleRegisters then 7 + (req 6).toNat
      else if req 1 = fcMaskWriteRegister then 8
      else if req 1 = fcWriteAndReadRegisters then 11 + (req 10).toNat
      else 2 := by
  simp only [lengthToRead, computeMetaLengthAfterFunction, computeDataLengthAfterMeta]
  by_cases hsix : req 1 ≤ fcWriteSingleRegister
  · have hmany : ¬(req 1 = fcWriteMultipleCoils ∨ req 1 = fcWriteMultipleRegisters) := by
      rintro (h | h) <;> rw [h] at hsix <;> exact absurd hsix (by decide)
    have hboth : req 1 ≠ fcWriteAndReadRegisters := by
      intro h
      rw [h] at hsix
      exact absurd hsix (by decide)
    rw [if_pos hsix, if_pos hsix, if_neg hmany, if_neg hboth]
  · rw [if_neg hsix, if_neg hsix]
    by_cases hmany : req 1 = fcWriteMultipleCoils ∨ req 1 = fcWriteMultipleRegisters
    · rw [if_pos hmany, if_pos hmany, if_pos hmany]
      omega
    · rw [if_neg hmany, if_neg hmany, if_neg hmany]
      by_cases hmask : req 1 = fcMaskWriteRegister
      · have hboth : req 1 ≠ fcWriteAndReadRegisters := by
          rw [hmask]
          decide
        rw [if_pos hmask, if_pos hmask, if_neg hboth]
      · rw [if_neg hmask, if_neg hmask]
        split_ifs <;> omega

/-- **Nothing behind a request is looked at**: where two buffers agree on the bytes that a request
announces, without its checksum, the answers and the tables after them are the same. -/
theorem modbusReply_congr (version : List Byte) (m : Mapping) {a b : Buffer}
    (h : ∀ i, i < lengthToRead a .indication - 2 → a i = b i) :
    modbusReply version m a (lengthToRead a .indication) =
      modbusReply version m b (lengthToRead a .indication) := by
  have hle := le_lengthToRead a .indication
  have hn := lengthToRead_indication a
  have h0 := h 0 (by omega)
  have h1 := h 1 (by omega)
  have hbuild : buildReply version m a (lengthToRead a .indication - 2) =
      buildReply version m b (lengthToRead a .indication - 2) := by
    generalize lengthToRead a .indication - 2 = n at h hn
    have hsix : a 1 ≤ fcWriteSingleRegister → n = 6 := fun hfunction => by
      rw [hn, if_pos hfunction]
    have hmany : a 1 = fcWriteMultipleCoils ∨ a 1 = fcWriteMultipleRegisters →
        n = 7 + (a 6).toNat := by
      intro hfunction
      rw [hn, if_neg, if_pos hfunction]
      rcases hfunction with hf | hf <;> rw [hf] <;> decide
    simp only [buildReply, ← h1]
    refine ite_congr rfl (fun hf => ?_) fun _ => ?_
    · rw [(reply_congr_of_six m h (hsix (by rw [hf]; decide))).1]
    refine ite_congr rfl (fun hf => ?_) fun _ => ?_
    · rw [(reply_congr_of_six m h (hsix (by rw [hf]; decide))).1]
    refine ite_congr rfl (fun hf => ?_) fun _ => ?_
    · rw [(reply_congr_of_six m h (hsix (by rw [hf]; decide))).2.1]
    refine ite_congr rfl (fun hf => ?_) fun _ => ?_
    · rw [(reply_congr_of_six m h (hsix (by rw [hf]; decide))).2.1]
    refine ite_congr rfl (fun hf => ?_) fun _ => ?_
    · rw [(reply_congr_of_six m h (hsix (by rw [hf]; decide))).2.2.1]
    refine ite_congr rfl (fun hf => ?_) fun _ => ?_
    · rw [(reply_congr_of_six m h (hsix (by rw [hf]; decide))).2.2.2]
    refine ite_congr rfl (fun hf => ?_) fun _ => ?_
    · rw [replyWriteBits_congr m h (hmany (Or.inl hf))]
    refine ite_congr rfl (fun hf => ?_) fun _ => ?_
    · rw [replyWriteRegisters_congr m h (hmany (Or.inr hf))]
    refine ite_congr rfl (fun hf => ?_) fun _ => ?_
    · rw [replyReportSlaveId, replyReportSlaveId, buildResponseBasis, buildResponseBasis, h0, h1]
    refine ite_congr rfl (fun _ => ?_) fun _ => ?_
    · rfl
    refine ite_congr rfl (fun hf => ?_) fun _ => ?_
    · have hmask : n = 8 := by
        rw [hn, if_neg (by rw [hf]; decide), if_neg (by rw [hf]; decide), if_pos hf]
      rw [replyMaskWriteRegister_congr m h hmask]
    refine ite_congr rfl (fun hf => ?_) fun _ => ?_
    · have hboth : n = 11 + (a 10).toNat := by
        rw [hn, if_neg (by rw [hf]; decide), if_neg (by rw [hf]; decide),
          if_neg (by rw [hf]; decide), if_pos hf]
      rw [replyWriteAndReadRegisters_congr m h hboth]
    rw [responseException, responseException, h0, h1]
  rw [modbusReply, modbusReply, hbuild, h0]

/-! ### The room of an answer -/

/-- Tables of the same sizes at the same addresses. -/
structure SameShape (m m' : Mapping) : Prop where
  startBits : m'.startBits = m.startBits
  startInputBits : m'.startInputBits = m.startInputBits
  startInputRegisters : m'.startInputRegisters = m.startInputRegisters
  startRegisters : m'.startRegisters = m.startRegisters
  tabBits : m'.tabBits.length = m.tabBits.length
  tabInputBits : m'.tabInputBits = m.tabInputBits
  tabInputRegisters : m'.tabInputRegisters = m.tabInputRegisters
  tabRegisters : m'.tabRegisters.length = m.tabRegisters.length

lemma SameShape.refl (m : Mapping) : SameShape m m := ⟨rfl, rfl, rfl, rfl, rfl, rfl, rfl, rfl⟩

/-- A change of bits. -/
lemma SameShape.ofBits (m : Mapping) {tabBits : List Byte} (h : tabBits.length = m.tabBits.length) :
    SameShape m { m with tabBits } :=
  ⟨rfl, rfl, rfl, rfl, h, rfl, rfl, rfl⟩

/-- A change of registers. -/
lemma SameShape.ofRegisters (m : Mapping) {tabRegisters : List (BitVec 16)}
    (h : tabRegisters.length = m.tabRegisters.length) : SameShape m { m with tabRegisters } :=
  ⟨rfl, rfl, rfl, rfl, rfl, rfl, rfl, h⟩

/-- Two bytes a register. -/
lemma length_registersBytes {tab : List (BitVec 16)} {address : ℤ} {nb : ℕ} {bytes : List Byte}
    (h : registersBytes tab address nb = some bytes) : bytes.length = 2 * nb := by
  obtain ⟨values, hvalues, rfl⟩ := Option.map_eq_some_iff.mp h
  rw [length_flatMap_wordBytes, length_of_loadAll hvalues]

/-- What a reply may be: the tables keep their sizes, and the answer has room with its checksum in
a message of 256 bytes. -/
structure Fits (m : Mapping) (reply : Mapping × List Byte) : Prop where
  shape : SameShape m reply.1
  length : reply.2.length ≤ 254

/-- An exception fits. -/
lemma length_responseException (req : Buffer) (code : Byte) :
    (responseException req code).length ≤ 254 :=
  Nat.le_add_left 3 251

/-- An answer with bits fits. -/
lemma length_replyReadBits {tabBits : List Byte} {startBits : ℤ} {req : Buffer}
    {answer : List Byte} (h : replyReadBits tabBits startBits req = some answer) :
    answer.length ≤ 254 := by
  simp only [replyReadBits] at h
  generalize (if requestNb req % 8 ≠ 0 then 1 else 0) = rest at h
  split_ifs at h with hvalue haddress
  · exact Option.some.inj h ▸ length_responseException req _
  · exact Option.some.inj h ▸ length_responseException req _
  · rw [modbusMaxReadBits] at hvalue
    rw [length_responseIoStatus h, List.length_append]
    simp only [buildResponseBasis, List.length_cons, List.length_nil]
    omega

/-- An answer with registers fits. -/
lemma length_replyReadRegisters {tabRegisters : List (BitVec 16)} {startRegisters : ℤ}
    {req : Buffer} {answer : List Byte}
    (h : replyReadRegisters tabRegisters startRegisters req = some answer) :
    answer.length ≤ 254 := by
  simp only [replyReadRegisters] at h
  split_ifs at h with hvalue haddress
  · exact Option.some.inj h ▸ length_responseException req _
  · exact Option.some.inj h ▸ length_responseException req _
  · rw [modbusMaxReadRegisters] at hvalue
    obtain ⟨bytes, hbytes, rfl⟩ := Option.map_eq_some_iff.mp h
    rw [List.length_append, List.length_append, length_registersBytes hbytes]
    simp only [buildResponseBasis, List.length_cons, List.length_nil]
    omega

/-- A request that is refused. -/
lemma fits_refused {m : Mapping} {req : Buffer} {code : Byte} {reply : Mapping × List Byte}
    (h : some (m, responseException req code) = some reply) : Fits m reply :=
  Option.some.inj h ▸ ⟨SameShape.refl m, length_responseException req code⟩

/-- A table of bits that is replaced by one of its size. -/
lemma fits_bits {m : Mapping} {x : Option (List Byte)} {answer : List Byte}
    {reply : Mapping × List Byte} (hx : ∀ tabBits, x = some tabBits →
      tabBits.length = m.tabBits.length) (hanswer : answer.length ≤ 254)
    (h : x.map (fun tabBits => ({ m with tabBits }, answer)) = some reply) : Fits m reply := by
  obtain ⟨tabBits, htab, rfl⟩ := Option.map_eq_some_iff.mp h
  exact ⟨SameShape.ofBits m (hx tabBits htab), hanswer⟩

/-- A table of registers that is replaced by one of its size. -/
lemma fits_registers {m : Mapping} {x : Option (List (BitVec 16))} {answer : List Byte}
    {reply : Mapping × List Byte} (hx : ∀ tabRegisters, x = some tabRegisters →
      tabRegisters.length = m.tabRegisters.length) (hanswer : answer.length ≤ 254)
    (h : x.map (fun tabRegisters => ({ m with tabRegisters }, answer)) = some reply) :
    Fits m reply := by
  obtain ⟨tabRegisters, htab, rfl⟩ := Option.map_eq_some_iff.mp h
  exact ⟨SameShape.ofRegisters m (hx tabRegisters htab), hanswer⟩

/-- The answer to a request to write and read fits. -/
lemma fits_writeAndRead {m : Mapping} {req : Buffer} {reply : Mapping × List Byte}
    (h : replyWriteAndReadRegisters m req = some reply) : Fits m reply := by
  simp only [replyWriteAndReadRegisters] at h
  split_ifs at h with hvalue haddress
  · exact fits_refused h
  · exact fits_refused h
  · rw [modbusMaxWrReadRegisters] at hvalue
    obtain ⟨tabRegisters, htab, hread⟩ := Option.bind_eq_some_iff.mp h
    obtain ⟨bytes, hbytes, rfl⟩ := Option.map_eq_some_iff.mp hread
    refine ⟨SameShape.ofRegisters m (length_of_storeAll htab), ?_⟩
    rw [List.length_append, List.length_append, length_registersBytes hbytes]
    simp only [buildResponseBasis, List.length_cons, List.length_nil]
    omega

/-- The replies that change one table. -/
def IsWrite (m : Mapping) (req : Buffer) (reqLength : ℕ) (reply : Option (Mapping × List Byte)) :
    Prop :=
  reply = replyWriteBit m req reqLength ∨ reply = replyWriteRegister m req reqLength ∨
    reply = replyWriteBits m req ∨ reply = replyWriteRegisters m req ∨
    reply = replyMaskWriteRegister m req reqLength

/-- The answers to writes fit. -/
lemma fits_write {m : Mapping} {req : Buffer} {reqLength : ℕ} {reply : Mapping × List Byte}
    (hlength : reqLength ≤ 254) (h : IsWrite m req reqLength (some reply)) : Fits m reply := by
  have hecho : (req.bytes reqLength).length ≤ 254 := by rwa [length_bytes]
  have hheader : (buildResponseBasis req ++ [req 2, req 3, req 4, req 5]).length ≤ 254 :=
    Nat.le_add_left 6 248
  rcases h with h | h | h | h | h
  · simp only [replyWriteBit] at h
    generalize (if req.word 4 ≠ 0 then (1 : Byte) else 0) = value at h
    split_ifs at h with haddress hdata
    · exact fits_refused h.symm
    · exact fits_bits (fun _ => length_of_store) hecho h.symm
    · exact fits_refused h.symm
  · simp only [replyWriteRegister] at h
    split_ifs at h with haddress
    · exact fits_refused h.symm
    · exact fits_registers (fun _ => length_of_store) hecho h.symm
  · simp only [replyWriteBits, setBitsFromBytes_eq] at h
    split_ifs at h with hvalue haddress
    · exact fits_refused h.symm
    · exact fits_refused h.symm
    · exact fits_bits (fun _ => length_of_storeAll) hheader h.symm
  · simp only [replyWriteRegisters] at h
    split_ifs at h with hvalue haddress
    · exact fits_refused h.symm
    · exact fits_refused h.symm
    · exact fits_registers (fun _ => length_of_storeAll) hheader h.symm
  · simp only [replyMaskWriteRegister] at h
    split_ifs at h with haddress
    · exact fits_refused h.symm
    · obtain ⟨data, -, hstore⟩ := Option.bind_eq_some_iff.mp h.symm
      exact fits_registers (fun _ => length_of_store) hecho hstore

/-- What holds of every kind of reply holds of the one to a request. -/
lemma buildReply_property {version : List Byte} {m : Mapping} {req : Buffer} {reqLength : ℕ}
    {P : Option (Mapping × Option (List Byte)) → Prop}
    (hbits : ∀ tab start, P ((replyReadBits tab start req).map fun answer => (m, some answer)))
    (hregisters : ∀ tab start,
      P ((replyReadRegisters tab start req).map fun answer => (m, some answer)))
    (hwrite : ∀ reply, IsWrite m req reqLength reply →
      P (reply.map fun reply => (reply.1, some reply.2)))
    (hslave : P (some (m, some (replyReportSlaveId version req)))) (hstatus : P (some (m, none)))
    (hboth : req 1 = fcWriteAndReadRegisters →
      P ((replyWriteAndReadRegisters m req).map fun reply => (reply.1, some reply.2)))
    (hillegal : P (some (m, some (responseException req exceptionIllegalFunction)))) :
    P (buildReply version m req reqLength) := by
  have hcons : ∀ {c : Prop} [Decidable c] {x y : Option (Mapping × Option (List Byte))},
      (c → P x) → (¬c → P y) → P (if c then x else y) := by
    intro c _ x y hx hy
    by_cases hc : c
    · rw [if_pos hc]
      exact hx hc
    · rw [if_neg hc]
      exact hy hc
  refine hcons (fun _ => hbits _ _) fun _ => ?_
  refine hcons (fun _ => hbits _ _) fun _ => ?_
  refine hcons (fun _ => hregisters _ _) fun _ => ?_
  refine hcons (fun _ => hregisters _ _) fun _ => ?_
  refine hcons (fun _ => hwrite _ (Or.inl rfl)) fun _ => ?_
  refine hcons (fun _ => hwrite _ (Or.inr (Or.inl rfl))) fun _ => ?_
  refine hcons (fun _ => hwrite _ (Or.inr (Or.inr (Or.inl rfl)))) fun _ => ?_
  refine hcons (fun _ => hwrite _ (Or.inr (Or.inr (Or.inr (Or.inl rfl))))) fun _ => ?_
  refine hcons (fun _ => hslave) fun _ => ?_
  refine hcons (fun _ => hstatus) fun _ => ?_
  refine hcons (fun _ => hwrite _ (Or.inr (Or.inr (Or.inr (Or.inr rfl))))) fun _ => ?_
  exact hcons hboth fun _ => hillegal

/-- **The tables keep their sizes and the answer its room**, for every request that fits a message
and a version string that fits an answer. -/
theorem buildReply_fits {version : List Byte} {m m' : Mapping} {req : Buffer} {reqLength : ℕ}
    {rsp : Option (List Byte)} (hversion : version.length ≤ 249) (hlength : reqLength ≤ 254)
    (h : buildReply version m req reqLength = some (m', rsp)) :
    SameShape m m' ∧ ∀ answer, rsp = some answer → answer.length ≤ 254 := by
  have hanswer : ∀ answer : List Byte, answer.length ≤ 254 →
      (m, some answer) = (m', rsp) →
      SameShape m m' ∧ ∀ answer, rsp = some answer → answer.length ≤ 254 := by
    intro answer hanswer hsome
    obtain ⟨rfl, rfl⟩ := Prod.mk.inj hsome
    exact ⟨SameShape.refl m, fun _ heq => Option.some.inj heq ▸ hanswer⟩
  have hreply : ∀ reply : Option (Mapping × List Byte), (∀ r, reply = some r → Fits m r) →
      reply.map (fun reply => (reply.1, some reply.2)) = some (m', rsp) →
      SameShape m m' ∧ ∀ answer, rsp = some answer → answer.length ≤ 254 := by
    intro reply hfits hsome
    obtain ⟨r, hr, heq⟩ := Option.map_eq_some_iff.mp hsome
    obtain ⟨rfl, rfl⟩ := Prod.mk.inj heq
    exact ⟨(hfits r hr).shape, fun _ heq => Option.some.inj heq ▸ (hfits r hr).length⟩
  revert h
  apply buildReply_property (P := fun x => x = some (m', rsp) →
    SameShape m m' ∧ ∀ answer, rsp = some answer → answer.length ≤ 254)
  case hbits =>
      intro tab start h
      obtain ⟨answer, hbits, heq⟩ := Option.map_eq_some_iff.mp h
      exact hanswer answer (length_replyReadBits hbits) heq
  case hregisters =>
      intro tab start h
      obtain ⟨answer, hregisters, heq⟩ := Option.map_eq_some_iff.mp h
      exact hanswer answer (length_replyReadRegisters hregisters) heq
  case hwrite =>
      intro reply hwrite h
      exact hreply reply (fun r hr => fits_write hlength (hr ▸ hwrite)) h
  case hslave =>
      intro h
      refine hanswer _ ?_ (Option.some.inj h)
      rw [replyReportSlaveId, List.length_append, List.length_append]
      simp only [buildResponseBasis, List.length_cons, List.length_nil]
      omega
  case hstatus =>
      intro h
      obtain ⟨rfl, rfl⟩ := Prod.mk.inj (Option.some.inj h)
      exact ⟨SameShape.refl m, fun _ heq => (by cases heq)⟩
  case hboth => exact fun _ h => hreply _ (fun _ => fits_writeAndRead) h
  case hillegal =>
      exact fun h => hanswer _ (length_responseException req _) (Option.some.inj h)

/-- A register that is written. -/
theorem buildReply_fits_one :
    SameShape ⟨0, 0, 0, 0, [], [], [], [3, 4]⟩ ⟨0, 0, 0, 0, [], [], [], [3, 7]⟩ ∧
      ∀ answer : List Byte, some [1, 6, 0, 1, 0, 7] = some answer → answer.length ≤ 254 := by
  have hbuild : buildReply [] ⟨0, 0, 0, 0, [], [], [], [3, 4]⟩
      (Buffer.ofList [1, 6, 0, 1, 0, 7]) 6 =
        some (⟨0, 0, 0, 0, [], [], [], [3, 7]⟩, some [1, 6, 0, 1, 0, 7]) := rfl
  exact buildReply_fits (by decide) (by decide) hbuild

/-! ### The tables that are kept within -/

/-- The answer to a request to write and read. -/
lemma buildReply_both (version : List Byte) (m : Mapping) {req : Buffer} (reqLength : ℕ)
    (hfunction : req 1 = fcWriteAndReadRegisters) :
    buildReply version m req reqLength =
      (replyWriteAndReadRegisters m req).map fun reply => (reply.1, some reply.2) := by
  rw [buildReply, hfunction]
  rfl

/-- Registers within a table are read. -/
lemma registersBytes_eq {tab : List (BitVec 16)} {address : ℤ} {nb : ℕ} (h0 : 0 ≤ address)
    (h : address + nb ≤ tab.length) :
    registersBytes tab address nb =
      some (((tab.drop address.toNat).take nb).flatMap wordBytes) := by
  rw [registersBytes, loadAll_eq h0 h, Option.map_some]

/-- Reading bits keeps within their table. -/
lemma replyReadBits_ne_none (tabBits : List Byte) (startBits : ℤ) (req : Buffer) :
    replyReadBits tabBits startBits req ≠ none := by
  simp only [replyReadBits]
  generalize (if requestNb req % 8 ≠ 0 then 1 else 0) = rest
  split_ifs with hvalue haddress
  · exact Option.some_ne_none _
  · exact Option.some_ne_none _
  · have h0 : 0 ≤ mappingAddress req startBits := by omega
    obtain ⟨rsp, hrsp⟩ := responseIoStatus_isSome tabBits h0
      (show mappingAddress req startBits + requestNb req ≤ tabBits.length by omega)
      (buildResponseBasis req ++ [BitVec.ofNat 8 (requestNb req / 8 + rest)])
    rw [hrsp]
    exact Option.some_ne_none rsp

/-- Reading registers keeps within their table. -/
lemma replyReadRegisters_ne_none (tabRegisters : List (BitVec 16)) (startRegisters : ℤ)
    (req : Buffer) : replyReadRegisters tabRegisters startRegisters req ≠ none := by
  simp only [replyReadRegisters]
  split_ifs with hvalue haddress
  · exact Option.some_ne_none _
  · exact Option.some_ne_none _
  · rw [registersBytes_eq (by omega) (by omega), Option.map_some]
    exact Option.some_ne_none _

/-- Writing keeps within the table that is written. -/
lemma IsWrite.ne_none {m : Mapping} {req : Buffer} {reqLength : ℕ}
    {reply : Option (Mapping × List Byte)} (h : IsWrite m req reqLength reply) : reply ≠ none := by
  rcases h with rfl | rfl | rfl | rfl | rfl
  · simp only [replyWriteBit]
    generalize (if req.word 4 ≠ 0 then (1 : Byte) else 0) = value
    split_ifs with haddress hdata
    · exact Option.some_ne_none _
    · rw [store_of_lt (by omega) (by omega), Option.map_some]
      exact Option.some_ne_none _
    · exact Option.some_ne_none _
  · simp only [replyWriteRegister]
    split_ifs with haddress
    · exact Option.some_ne_none _
    · rw [store_of_lt (by omega) (by omega), Option.map_some]
      exact Option.some_ne_none _
  · simp only [replyWriteBits, setBitsFromBytes_eq]
    split_ifs with hvalue haddress
    · exact Option.some_ne_none _
    · exact Option.some_ne_none _
    · obtain ⟨tabBits, htab, -⟩ := storeAll_spec m.tabBits
        (i := mappingAddress req m.startBits) (n := requestNb req)
        (fun i => bitByte (bitOf (fun i => req (7 + i)) i)) (by omega) (by omega)
      rw [htab, Option.map_some]
      exact Option.some_ne_none _
  · simp only [replyWriteRegisters]
    split_ifs with hvalue haddress
    · exact Option.some_ne_none _
    · exact Option.some_ne_none _
    · obtain ⟨tabRegisters, htab, -⟩ := storeAll_spec m.tabRegisters
        (i := mappingAddress req m.startRegisters) (n := requestNb req)
        (fun i => req.word (7 + 2 * i)) (by omega) (by omega)
      rw [htab, Option.map_some]
      exact Option.some_ne_none _
  · simp only [replyMaskWriteRegister]
    split_ifs with haddress
    · exact Option.some_ne_none _
    · rw [load_of_lt (by omega) (by omega), Option.bind_some, store_of_lt (by omega) (by omega),
        Option.map_some]
      exact Option.some_ne_none _

/-- **A table is left exactly by a write that begins before it**, in a request to write and read
that passes every test. -/
theorem modbusReply_eq_none_iff (version : List Byte) (m : Mapping) (req : Buffer)
    (reqLength : ℕ) :
    modbusReply version m req reqLength = none ↔
      req 1 = fcWriteAndReadRegisters ∧
        (1 ≤ requestNb req ∧ requestNb req ≤ 125) ∧
        (1 ≤ (req.word 8).toNat ∧ (req.word 8).toNat ≤ 121 ∧
          (req 10).toNat = (req.word 8).toNat * 2) ∧
        (0 ≤ mappingAddress req m.startRegisters ∧
          mappingAddress req m.startRegisters + requestNb req ≤ m.tabRegisters.length) ∧
        ((req.word 6).toNat - m.startRegisters + (req.word 8).toNat ≤ m.tabRegisters.length ∧
          (req.word 6).toNat < m.startRegisters) := by
  rw [modbusReply, Option.map_eq_none_iff]
  by_cases hfunction : req 1 = fcWriteAndReadRegisters
  · rw [buildReply_both version m _ hfunction, Option.map_eq_none_iff]
    simp only [replyWriteAndReadRegisters]
    split_ifs with hvalue haddress <;>
      rw [modbusMaxWrWriteRegisters, modbusMaxWrReadRegisters] at hvalue
    · refine iff_of_false (fun h => (by cases h)) ?_
      rintro ⟨-, hnb, hnbWrite, -⟩
      omega
    · refine iff_of_false (fun h => (by cases h)) ?_
      rintro ⟨-, -, -, hread, hbefore⟩
      omega
    · by_cases hwrite : (req.word 6).toNat < m.startRegisters
      · refine iff_of_true ?_ ⟨hfunction, ?_, ?_, ?_, ?_⟩
        · rw [storeAll_eq_none _ (by omega) (by omega), Option.bind_none]
        all_goals omega
      · refine iff_of_false ?_ fun h => hwrite h.2.2.2.2.2
        obtain ⟨tabRegisters, htab, hlength, -⟩ :=
          storeAll_spec m.tabRegisters
            (i := (req.word 6).toNat - m.startRegisters) (n := (req.word 8).toNat)
            (fun i => req.word (11 + 2 * i)) (by omega) (by omega)
        rw [htab, Option.bind_some, registersBytes_eq (by omega) (by omega), Option.map_some]
        exact Option.some_ne_none _
  · refine iff_of_false ?_ fun h => hfunction h.1
    apply buildReply_property (P := fun x => ¬ x = none)
    case hbits =>
        intro tab start
        exact Option.map_eq_none_iff.not.mpr (replyReadBits_ne_none tab start req)
    case hregisters =>
        intro tab start
        exact Option.map_eq_none_iff.not.mpr (replyReadRegisters_ne_none tab start req)
    case hwrite => exact fun _ hwrite => Option.map_eq_none_iff.not.mpr hwrite.ne_none
    case hslave => exact Option.some_ne_none _
    case hstatus => exact Option.some_ne_none _
    case hboth => exact fun h => absurd h hfunction
    case hillegal => exact Option.some_ne_none _

end PanelFirmware.Libmodbus
