import PanelFirmware.Lib.Table
import PanelFirmware.Libmodbus.Reply

/-!
# Both ends of a line: a device and the requests to it

What a slave is for: four tables, of bits and of registers, that requests read and write by
address. `Device.serve` says what a request does to them; a request outside a table does nothing.

* `buildReply_serves`: `modbus_reply` on the message of a request does what the request says.
-/

namespace PanelFirmware.Libmodbus

open PanelFirmware.Lib PanelFirmware.Lib.BoundedArray

/-! ### What a request does -/

/-- The tables of a slave, by address. -/
structure Device where
  bit : Table Bool
  inputBit : Table Bool
  inputRegister : Table (BitVec 16)
  register : Table (BitVec 16)

/-- The requests of a master. -/
inductive Query
  | readBits (input : Bool) (addr : BitVec 16) (nb : ℕ)
  | readRegisters (input : Bool) (addr : BitVec 16) (nb : ℕ)
  | writeBit (addr : BitVec 16) (status : Bool)
  | writeRegister (addr value : BitVec 16)
  | writeBits (addr : BitVec 16) (src : List Bool)
  | writeRegisters (addr : BitVec 16) (src : List (BitVec 16))
  | maskWriteRegister (addr andMask orMask : BitVec 16)
  | writeAndReadRegisters (writeAddr : BitVec 16) (src : List (BitVec 16)) (readAddr : BitVec 16)
      (readNb : ℕ)

/-- What a request brings back. -/
inductive Response
  | bits (values : List Bool)
  | registers (values : List (BitVec 16))
  | done

/-- What a request does; `none` where it lies outside a table. -/
def Device.serve (d : Device) : Query → Option (Response × Device)
  | .readBits input addr nb =>
      ((if input then d.inputBit else d.bit).read addr.toNat nb).map fun vs => (.bits vs, d)
  | .readRegisters input addr nb =>
      ((if input then d.inputRegister else d.register).read addr.toNat nb).map fun vs =>
        (.registers vs, d)
  | .writeBit addr status =>
      (d.bit.write addr.toNat [status]).map fun bit => (.done, { d with bit })
  | .writeRegister addr value =>
      (d.register.write addr.toNat [value]).map fun register => (.done, { d with register })
  | .writeBits addr src =>
      (d.bit.write addr.toNat src).map fun bit => (.done, { d with bit })
  | .writeRegisters addr src =>
      (d.register.write addr.toNat src).map fun register => (.done, { d with register })
  | .maskWriteRegister addr andMask orMask =>
      (d.register addr.toNat).bind fun v =>
        (d.register.write addr.toNat [(v &&& andMask) ||| (orMask &&& ~~~andMask)]).map
          fun register => (.done, { d with register })
  | .writeAndReadRegisters writeAddr src readAddr readNb =>
      (d.register.write writeAddr.toNat src).bind fun register =>
        (Table.read register readAddr.toNat readNb).map fun vs =>
          (.registers vs, { d with register })

/-- The requests that the library sends: those with at least one value and not too many. -/
def Query.Valid : Query → Prop
  | .readBits _ _ nb => 1 ≤ nb ∧ nb ≤ 2000
  | .readRegisters _ _ nb => 1 ≤ nb ∧ nb ≤ 125
  | .writeBit _ _ | .writeRegister _ _ | .maskWriteRegister _ _ _ => True
  | .writeBits _ src => 1 ≤ src.length ∧ src.length ≤ 1968
  | .writeRegisters _ src => 1 ≤ src.length ∧ src.length ≤ 123
  | .writeAndReadRegisters _ src _ readNb =>
      (1 ≤ src.length ∧ src.length ≤ 121) ∧ 1 ≤ readNb ∧ readNb ≤ 125

/-- The tables of a mapping, by address. -/
def Mapping.device (m : Mapping) : Device where
  bit := Table.map (fun b => decide (b ≠ 0)) (Table.ofList m.startBits m.tabBits)
  inputBit := Table.map (fun b => decide (b ≠ 0)) (Table.ofList m.startInputBits m.tabInputBits)
  inputRegister := Table.ofList m.startInputRegisters m.tabInputRegisters
  register := Table.ofList m.startRegisters m.tabRegisters

/-- The tables of bits hold 0 and 1, as `ON` and `OFF` are. -/
structure Mapping.WellFormed (m : Mapping) : Prop where
  bits : ∀ b ∈ m.tabBits, b = 0 ∨ b = 1
  inputBits : ∀ b ∈ m.tabInputBits, b = 0 ∨ b = 1

/-! ### The messages -/

/-- The function code of a request. -/
def Query.function : Query → Byte
  | .readBits input _ _ => if input then fcReadDiscreteInputs else fcReadCoils
  | .readRegisters input _ _ => if input then fcReadInputRegisters else fcReadHoldingRegisters
  | .writeBit _ _ => fcWriteSingleCoil
  | .writeRegister _ _ => fcWriteSingleRegister
  | .writeBits _ _ => fcWriteMultipleCoils
  | .writeRegisters _ _ => fcWriteMultipleRegisters
  | .maskWriteRegister _ _ _ => fcMaskWriteRegister
  | .writeAndReadRegisters _ _ _ _ => fcWriteAndReadRegisters

/-- The message that the library builds for a request. -/
def Query.message (slave : Byte) : Query → List Byte
  | .readBits input addr nb =>
      buildRequestBasis slave (Query.readBits input addr nb).function addr.toNat nb
  | .readRegisters input addr nb =>
      buildRequestBasis slave (Query.readRegisters input addr nb).function addr.toNat nb
  | .writeBit addr status =>
      buildRequestBasis slave fcWriteSingleCoil addr.toNat
        (if status then 0xFF00 else 0 : BitVec 16).toNat
  | .writeRegister addr value =>
      buildRequestBasis slave fcWriteSingleRegister addr.toNat value.toNat
  | .writeBits addr src =>
      writeBitsRequest slave addr.toNat src.length fun i => bitByte (src.getD i false)
  | .writeRegisters addr src =>
      writeRegistersRequest slave addr.toNat src.length fun i => src.getD i 0
  | .maskWriteRegister addr andMask orMask =>
      maskWriteRegisterRequest slave addr.toNat andMask orMask
  | .writeAndReadRegisters writeAddr src readAddr readNb =>
      writeAndReadRegistersRequest slave writeAddr.toNat src.length (fun i => src.getD i 0)
        readAddr.toNat readNb

/-- The message of the answer to a request. -/
def Query.answer (slave : Byte) (request : Query) : Response → List Byte
  | .bits values =>
      dataAnswer slave request.function (packBits (fun i => values.getD i false) values.length)
  | .registers values => registersAnswer slave request.function values
  | .done =>
      -- several values are only counted
      if Counts request.function then (request.message slave).take 6 else request.message slave

/-- The first word of a request. -/
def Query.addr : Query → BitVec 16
  | .readBits _ addr _ | .readRegisters _ addr _ | .writeBit addr _ | .writeRegister addr _
  | .writeBits addr _ | .writeRegisters addr _ | .maskWriteRegister addr _ _ => addr
  | .writeAndReadRegisters _ _ readAddr _ => readAddr

/-- The second word of a request: a count, or a value. -/
def Query.second : Query → BitVec 16
  | .readBits _ _ nb | .readRegisters _ _ nb => BitVec.ofNat 16 nb
  | .writeBit _ status => if status then 0xFF00 else 0
  | .writeRegister _ value => value
  | .writeBits _ src => BitVec.ofNat 16 src.length
  | .writeRegisters _ src => BitVec.ofNat 16 src.length
  | .maskWriteRegister _ andMask _ => andMask
  | .writeAndReadRegisters _ _ _ readNb => BitVec.ofNat 16 readNb

/-- The bytes of a request behind its two words. -/
def Query.rest : Query → List Byte
  | .readBits _ _ _ | .readRegisters _ _ _ | .writeBit _ _ | .writeRegister _ _ => []
  | .writeBits _ src =>
      BitVec.ofNat 8 ((src.length + 7) / 8) :: packBits (fun i => src.getD i false) src.length
  | .writeRegisters _ src => BitVec.ofNat 8 (2 * src.length) :: src.flatMap wordBytes
  | .maskWriteRegister _ _ orMask => wordBytes orMask
  | .writeAndReadRegisters writeAddr src _ _ =>
      wordBytes writeAddr ++ wordBytes (BitVec.ofNat 16 src.length) ++
        BitVec.ofNat 8 (2 * src.length) :: src.flatMap wordBytes

/-- The bytes of a count. -/
lemma intBytes_natCast (n : ℕ) : intBytes n = wordBytes (BitVec.ofNat 16 n) := by
  rw [intBytes_eq, BitVec.ofInt_natCast]

/-- The bytes of a word. -/
lemma intBytes_toNat (w : BitVec 16) : intBytes w.toNat = wordBytes w := by
  rw [intBytes_natCast, BitVec.ofNat_toNat, BitVec.setWidth_eq]

/-- A list by its indices. -/
lemma map_getD_range {α : Type} (l : List α) (d : α) :
    ((List.range l.length).map fun i => l.getD i d) = l := by
  refine List.ext_getElem (by rw [List.length_map, List.length_range]) fun i hi hi' => ?_
  rw [List.getElem_map, List.getElem_range, List.getD_eq_getElem _ _ hi']

/-- The values of a request. -/
lemma valueBytes_getD (src : List (BitVec 16)) :
    valueBytes (fun i => src.getD i 0) src.length = src.flatMap wordBytes := by
  rw [valueBytes, Int.toNat_natCast, ← List.flatMap_map (fun i => src.getD i 0) wordBytes,
    map_getD_range]

/-- A bit is what is packed for its byte. -/
lemma nonzero_bitByte (f : ℕ → Bool) : nonzero (fun i => bitByte (f i)) = f := by
  funext i
  rw [nonzero, bitByte]
  cases f i <;> rfl

/-- **The form of a message.** -/
theorem message_eq (slave : Byte) (request : Query) :
    request.message slave = [slave, request.function] ++ wordBytes request.addr ++
      wordBytes request.second ++ request.rest := by
  cases request with
  | readBits input addr nb =>
      rw [Query.message, buildRequestBasis, intBytes_toNat, intBytes_natCast]
      exact (List.append_nil _).symm
  | readRegisters input addr nb =>
      rw [Query.message, buildRequestBasis, intBytes_toNat, intBytes_natCast]
      exact (List.append_nil _).symm
  | writeBit addr status =>
      rw [Query.message, buildRequestBasis, intBytes_toNat, intBytes_toNat]
      exact (List.append_nil _).symm
  | writeRegister addr value =>
      rw [Query.message, buildRequestBasis, intBytes_toNat, intBytes_toNat]
      exact (List.append_nil _).symm
  | writeBits addr src =>
      rw [Query.message, writeBitsRequest_eq, buildRequestBasis, intBytes_toNat, intBytes_natCast,
        nonzero_bitByte, List.append_assoc]
      rfl
  | writeRegisters addr src =>
      have hcount : BitVec.ofInt 8 ((src.length : ℤ) * 2) = BitVec.ofNat 8 (2 * src.length) := by
        rw [show (src.length : ℤ) * 2 = ((2 * src.length : ℕ) : ℤ) by push_cast; ring,
          BitVec.ofInt_natCast]
      simp only [Query.message, writeRegistersRequest, valueBytes_getD, hcount]
      rw [buildRequestBasis, intBytes_toNat, intBytes_natCast, List.append_assoc]
      rfl
  | maskWriteRegister addr andMask orMask =>
      rw [Query.message, maskWriteRegisterRequest, buildRequestBasis, intBytes_toNat]
      rfl
  | writeAndReadRegisters writeAddr src readAddr readNb =>
      have hcount : BitVec.ofInt 8 ((src.length : ℤ) * 2) = BitVec.ofNat 8 (2 * src.length) := by
        rw [show (src.length : ℤ) * 2 = ((2 * src.length : ℕ) : ℤ) by push_cast; ring,
          BitVec.ofInt_natCast]
      simp only [Query.message, writeAndReadRegistersRequest, valueBytes_getD, hcount]
      rw [buildRequestBasis, intBytes_toNat, intBytes_natCast, intBytes_toNat, intBytes_natCast]
      simp only [Query.rest, Query.function, Query.addr, Query.second, List.append_assoc,
        List.cons_append, List.nil_append]

/-- A byte of a list behind another. -/
lemma ofList_append (l rest : List Byte) (i : ℕ) :
    Buffer.ofList (l ++ rest) (l.length + i) = Buffer.ofList rest i := by
  rw [Buffer.ofList, Buffer.ofList, Buffer.write, Buffer.write,
    List.getD_append_right _ _ _ _ (Nat.le_add_right _ _), Nat.add_sub_cancel_left]

/-- The fields of a message. -/
lemma message_apply (slave : Byte) (request : Query) :
    let req := Buffer.ofList (request.message slave)
    req 0 = slave ∧ req 1 = request.function ∧ req.word 2 = request.addr ∧
      req.word 4 = request.second ∧ ∀ i, req (6 + i) = Buffer.ofList request.rest i := by
  rw [message_eq]
  refine ⟨rfl, rfl, append_wordBytes _, append_wordBytes _, fun i => ?_⟩
  exact ofList_append ([slave, request.function] ++ wordBytes request.addr ++
    wordBytes request.second) request.rest i

/-! ### What the slave does -/

/-- `modbus_reply` on the message of a request does what the request says, or answers that an
address is illegal. The registers begin where they did. -/
def Serves (version : List Byte) (slave : Byte) (m : Mapping) (request : Query) : Prop :=
  match m.device.serve request with
  | some (answer, d) => ∃ m' : Mapping,
      buildReply version m (Buffer.ofList (request.message slave)) (request.message slave).length =
        some (m', some (request.answer slave answer)) ∧ m'.device = d ∧ m'.WellFormed ∧
        m'.startRegisters = m.startRegisters
  | none =>
      buildReply version m (Buffer.ofList (request.message slave)) (request.message slave).length =
        some (m, some [slave, request.function + 0x80, exceptionIllegalDataAddress])

/-- What an access outside a table is answered with. -/
lemma responseException_message (slave : Byte) (request : Query) (code : Byte) :
    responseException (Buffer.ofList (request.message slave)) code =
      [slave, request.function + 0x80, code] := by
  obtain ⟨h0, h1, -⟩ := message_apply slave request
  rw [responseException, h0, h1]

/-- The bits that are read. -/
lemma replyReadBits_eq {slave : Byte} {request : Query} {tabBits : List Byte} {startBits : ℤ}
    {nb : ℕ} (hbits : ∀ b ∈ tabBits, b = 0 ∨ b = 1) (hnb : request.second = BitVec.ofNat 16 nb)
    (hpos : 1 ≤ nb) (hle : nb ≤ 2000) :
    replyReadBits tabBits startBits (Buffer.ofList (request.message slave)) =
      match (Table.map (fun b => decide (b ≠ 0)) (Table.ofList startBits tabBits)).read
        request.addr.toNat nb with
      | some vs =>
          some (dataAnswer slave request.function (packBits (fun i => vs.getD i false) vs.length))
      | none => some [slave, request.function + 0x80, exceptionIllegalDataAddress] := by
  obtain ⟨h0, h1, h2, h4, -⟩ := message_apply slave request
  have hcount : requestNb (Buffer.ofList (request.message slave)) = nb := by
    rw [requestNb, h4, hnb, BitVec.toNat_ofNat]
    omega
  have hvalue : ¬(nb < 1 ∨ modbusMaxReadBits < (nb : ℤ)) := by
    rw [modbusMaxReadBits]
    omega
  simp only [replyReadBits, hcount, mappingAddress, h2, responseException_message]
  rw [if_neg hvalue]
  rw [Table.map_ofList, Table.read_ofList _ _ _ hpos, List.length_map]
  by_cases hrange : (request.addr.toNat : ℤ) - startBits < 0 ∨
      (request.addr.toNat : ℤ) - startBits + nb > tabBits.length
  · rw [if_pos hrange, if_pos hrange]
  · rw [if_neg hrange, if_neg hrange]
    generalize hk : ((request.addr.toNat : ℤ) - startBits).toNat = k
    have hlength : (((tabBits.map fun b => decide (b ≠ 0)).drop k).take nb).length = nb := by
      rw [List.length_take, List.length_drop, List.length_map]
      omega
    have hbit : ∀ i : ℕ, i < nb →
        load tabBits ((request.addr.toNat : ℤ) - startBits + i) =
          some (bitByte
            ((((tabBits.map fun b => decide (b ≠ 0)).drop k).take nb).getD i false)) := by
      intro i hi
      have hplace : ((request.addr.toNat : ℤ) - startBits + i).toNat = k + i := by omega
      have hlt : k + i < tabBits.length := by omega
      rw [load_of_lt (by omega) (by omega), List.getD_eq_getElem _ _ (by omega),
        List.getElem_take, List.getElem_drop, List.getElem_map]
      simp only [hplace]
      rcases hbits _ (List.getElem_mem hlt) with hzero | hone
      · rw [hzero]
        rfl
      · rw [hone]
        rfl
    have hheader : nb / 8 + (if nb % 8 ≠ 0 then 1 else 0) = (nb + 7) / 8 := by
      split_ifs <;> omega
    simp only
    rw [responseIoStatus_eq hbit, hlength, hheader, dataAnswer, length_packBits, buildResponseBasis,
      h0, h1]
    rfl

/-- Registers as they are put into an answer one after the other. -/
lemma registersAnswer_of_range (slave function : Byte) {tab : List (BitVec 16)} {address : ℤ}
    {nb : ℕ} (h0 : 0 ≤ address) (h : address + nb ≤ tab.length) :
    (registersBytes tab address nb).map
        (fun bytes => [slave, function] ++ [BitVec.ofNat 8 (nb <<< 1)] ++ bytes) =
      some (registersAnswer slave function ((tab.drop address.toNat).take nb)) := by
  have hlength : ((tab.drop address.toNat).take nb).length = nb := by
    rw [List.length_take, List.length_drop]
    omega
  rw [registersBytes_eq h0 h, Option.map_some, registersAnswer, dataAnswer,
    length_flatMap_wordBytes, hlength, Nat.shiftLeft_eq, Nat.pow_one, Nat.mul_comm nb 2]
  rfl

/-- The registers that are read. -/
lemma replyReadRegisters_eq {slave : Byte} {request : Query} {tabRegisters : List (BitVec 16)}
    {startRegisters : ℤ} {nb : ℕ} (hnb : request.second = BitVec.ofNat 16 nb) (hpos : 1 ≤ nb)
    (hle : nb ≤ 125) :
    replyReadRegisters tabRegisters startRegisters (Buffer.ofList (request.message slave)) =
      match (Table.ofList startRegisters tabRegisters).read request.addr.toNat nb with
      | some vs => some (registersAnswer slave request.function vs)
      | none => some [slave, request.function + 0x80, exceptionIllegalDataAddress] := by
  obtain ⟨h0, h1, h2, h4, -⟩ := message_apply slave request
  have hcount : requestNb (Buffer.ofList (request.message slave)) = nb := by
    rw [requestNb, h4, hnb, BitVec.toNat_ofNat]
    omega
  have hvalue : ¬(nb < 1 ∨ modbusMaxReadRegisters < (nb : ℤ)) := by
    rw [modbusMaxReadRegisters]
    omega
  simp only [replyReadRegisters, hcount, mappingAddress, h2, responseException_message]
  rw [if_neg hvalue, Table.read_ofList _ _ _ hpos]
  by_cases hrange : (request.addr.toNat : ℤ) - startRegisters < 0 ∨
      (request.addr.toNat : ℤ) - startRegisters + nb > tabRegisters.length
  · rw [if_pos hrange, if_pos hrange]
  · rw [if_neg hrange, if_neg hrange, buildResponseBasis, h0, h1]
    exact registersAnswer_of_range slave request.function (by omega) (by omega)

/-! ### The values of a write -/

/-- A word behind the two words of a message. -/
lemma message_word (slave : Byte) (request : Query) (i : ℕ) :
    (Buffer.ofList (request.message slave)).word (6 + i) = (Buffer.ofList request.rest).word i := by
  obtain ⟨-, -, -, -, hrest⟩ := message_apply slave request
  rw [Buffer.word, Buffer.word, Nat.add_assoc, hrest, hrest]

/-- A value behind other bytes. -/
lemma word_values (l : List Byte) {src : List (BitVec 16)} {i : ℕ} (hi : i < src.length) :
    (Buffer.ofList (l ++ src.flatMap wordBytes)).word (l.length + 2 * i) = src[i] := by
  induction src generalizing l i with
  | nil => exact absurd hi (Nat.not_lt_zero i)
  | cons v vs ih =>
      rw [List.flatMap_cons]
      cases i with
      | zero =>
          rw [Buffer.word, Nat.add_assoc, ofList_append, ofList_append]
          exact append_wordBytes v
      | succ i =>
          have hnext : l.length + 2 * (i + 1) = (l ++ wordBytes v).length + 2 * i := by
            rw [List.length_append, wordBytes, List.length_cons, List.length_cons, List.length_nil]
            omega
          rw [← List.append_assoc, hnext]
          exact ih (l ++ wordBytes v) (Nat.lt_of_succ_lt_succ hi)

/-- The stores of a request are a write of its values. -/
lemma storeAll_write {start : ℤ} {tab vs : List (BitVec 16)} {addr : ℕ}
    {value : ℕ → BitVec 16} (hvs : 0 < vs.length)
    (hrange : ¬((addr : ℤ) - start < 0 ∨ (addr : ℤ) - start + vs.length > tab.length))
    (hvalue : ∀ i (hi : i < vs.length), value i = vs[i]) :
    ∃ tab', storeAll tab ((addr : ℤ) - start) vs.length value = some tab' ∧
      tab'.length = tab.length ∧
      (Table.ofList start tab).write addr vs = some (Table.ofList start tab') := by
  obtain ⟨tab', hstore, hlength, hget⟩ := storeAll_spec tab value
    (by omega : 0 ≤ (addr : ℤ) - start) (by omega : (addr : ℤ) - start + vs.length ≤ tab.length)
  refine ⟨tab', hstore, hlength, Table.write_ofList hvs hrange fun i => ?_⟩
  rw [hget]
  by_cases hin : ((addr : ℤ) - start).toNat ≤ i ∧ i < ((addr : ℤ) - start).toNat + vs.length
  · rw [if_pos hin, if_pos hin, hvalue _ (by omega), List.getElem?_eq_getElem]
  · rw [if_neg hin, if_neg hin]

/-- The bits of a request are written; they are 0 or 1. -/
lemma setBits_write {start : ℤ} {tab : List Byte} {addr : ℕ} {vs : List Bool}
    {tabByte : ℕ → Byte} (hvs : 0 < vs.length)
    (hrange : ¬((addr : ℤ) - start < 0 ∨ (addr : ℤ) - start + vs.length > tab.length))
    (htab : ∀ b ∈ tab, b = 0 ∨ b = 1) (hbit : ∀ i (hi : i < vs.length), bitOf tabByte i = vs[i]) :
    ∃ tab', setBitsFromBytes tab ((addr : ℤ) - start) vs.length tabByte = some tab' ∧
      (∀ b ∈ tab', b = 0 ∨ b = 1) ∧
      (Table.map (fun b : Byte => decide (b ≠ 0)) (Table.ofList start tab)).write addr vs =
        some (Table.map (fun b : Byte => decide (b ≠ 0)) (Table.ofList start tab')) := by
  obtain ⟨tab', hstore, -, hget⟩ := storeAll_spec tab
    (fun i => bitByte (bitOf tabByte i)) (by omega : 0 ≤ (addr : ℤ) - start)
    (by omega : (addr : ℤ) - start + vs.length ≤ tab.length)
  refine ⟨tab', by rw [setBitsFromBytes_eq, hstore], fun b hb => ?_, ?_⟩
  · obtain ⟨i, hi⟩ := List.mem_iff_getElem?.mp hb
    rw [hget] at hi
    split_ifs at hi
    · rw [← Option.some.inj hi, bitByte]
      cases bitOf tabByte (i - ((addr : ℤ) - start).toNat)
      · exact Or.inl rfl
      · exact Or.inr rfl
    · exact htab b (List.mem_iff_getElem?.mpr ⟨i, hi⟩)
  · rw [Table.map_ofList, Table.map_ofList]
    refine Table.write_ofList hvs (by rwa [List.length_map]) fun i => ?_
    rw [List.getElem?_map, List.getElem?_map, hget]
    by_cases hin : ((addr : ℤ) - start).toNat ≤ i ∧ i < ((addr : ℤ) - start).toNat + vs.length
    · rw [if_pos hin, if_pos hin, hbit _ (by omega), List.getElem?_eq_getElem (by omega),
        Option.map_some]
      congr 1
      cases vs[i - ((addr : ℤ) - start).toNat] <;> rfl
    · rw [if_neg hin, if_neg hin]

/-! ### The slave does what a request says -/

section Serves

variable {version : List Byte} {slave : Byte} {m : Mapping} {request : Query}

/-- A request that is served. -/
lemma serves_of_some (answer : Response) (m' : Mapping)
    (hserve : m.device.serve request = some (answer, m'.device))
    (hbuild : buildReply version m (Buffer.ofList (request.message slave))
      (request.message slave).length = some (m', some (request.answer slave answer)))
    (hm' : m'.WellFormed) (hstart : m'.startRegisters = m.startRegisters) :
    Serves version slave m request := by
  rw [Serves, hserve]
  exact ⟨m', hbuild, rfl, hm', hstart⟩

/-- A request that is refused. -/
lemma serves_of_none (hserve : m.device.serve request = none)
    (hbuild : buildReply version m (Buffer.ofList (request.message slave))
      (request.message slave).length =
        some (m, some (responseException (Buffer.ofList (request.message slave))
          exceptionIllegalDataAddress))) : Serves version slave m request := by
  rw [Serves, hserve]
  rw [hbuild, responseException_message]

/-- Reading bits. -/
lemma serves_readBits (hm : m.WellFormed) (input : Bool) (addr : BitVec 16) {nb : ℕ}
    (hvalid : (Query.readBits input addr nb).Valid) :
    Serves version slave m (.readBits input addr nb) := by
  obtain ⟨hpos, hle⟩ := hvalid
  obtain ⟨-, h1, -⟩ := message_apply slave (.readBits input addr nb)
  have hread : ∀ (tabBits : List Byte) (startBits : ℤ), (∀ b ∈ tabBits, b = 0 ∨ b = 1) →
      m.device.serve (.readBits input addr nb) =
        ((Table.map (fun b => decide (b ≠ 0)) (Table.ofList startBits tabBits)).read addr.toNat
          nb).map (fun vs => (.bits vs, m.device)) →
      buildReply version m (Buffer.ofList ((Query.readBits input addr nb).message slave))
        ((Query.readBits input addr nb).message slave).length =
          (replyReadBits tabBits startBits
            (Buffer.ofList ((Query.readBits input addr nb).message slave))).map
              (fun answer => (m, some answer)) →
      Serves version slave m (.readBits input addr nb) := by
    intro tabBits startBits hbits hserve hbuild
    rw [replyReadBits_eq hbits rfl hpos hle] at hbuild
    cases htable : (Table.map (fun b => decide (b ≠ 0)) (Table.ofList startBits tabBits)).read
      addr.toNat nb with
    | none =>
        rw [htable] at hserve
        refine serves_of_none hserve ?_
        rw [hbuild, responseException_message, Query.addr, htable]
        rfl
    | some vs =>
        rw [htable] at hserve
        refine serves_of_some (.bits vs) m hserve ?_ hm rfl
        rw [hbuild, Query.addr, htable]
        rfl
  cases input with
  | true =>
      exact hread m.tabInputBits m.startInputBits hm.inputBits rfl (by rw [buildReply, h1]; rfl)
  | false => exact hread m.tabBits m.startBits hm.bits rfl (by rw [buildReply, h1]; rfl)

/-- Reading registers. -/
lemma serves_readRegisters (hm : m.WellFormed) (input : Bool) (addr : BitVec 16) {nb : ℕ}
    (hvalid : (Query.readRegisters input addr nb).Valid) :
    Serves version slave m (.readRegisters input addr nb) := by
  obtain ⟨hpos, hle⟩ := hvalid
  obtain ⟨-, h1, -⟩ := message_apply slave (.readRegisters input addr nb)
  have hread : ∀ (tabRegisters : List (BitVec 16)) (startRegisters : ℤ),
      m.device.serve (.readRegisters input addr nb) =
        ((Table.ofList startRegisters tabRegisters).read addr.toNat nb).map
          (fun vs => (.registers vs, m.device)) →
      buildReply version m (Buffer.ofList ((Query.readRegisters input addr nb).message slave))
        ((Query.readRegisters input addr nb).message slave).length =
          (replyReadRegisters tabRegisters startRegisters
            (Buffer.ofList ((Query.readRegisters input addr nb).message slave))).map
              (fun answer => (m, some answer)) →
      Serves version slave m (.readRegisters input addr nb) := by
    intro tabRegisters startRegisters hserve hbuild
    rw [replyReadRegisters_eq rfl hpos hle] at hbuild
    cases htable : (Table.ofList startRegisters tabRegisters).read addr.toNat nb with
    | none =>
        rw [htable] at hserve
        refine serves_of_none hserve ?_
        rw [hbuild, responseException_message, Query.addr, htable]
        rfl
    | some vs =>
        rw [htable] at hserve
        refine serves_of_some (.registers vs) m hserve ?_ hm rfl
        rw [hbuild, Query.addr, htable]
        rfl
  cases input with
  | true =>
      exact hread m.tabInputRegisters m.startInputRegisters rfl (by rw [buildReply, h1]; rfl)
  | false => exact hread m.tabRegisters m.startRegisters rfl (by rw [buildReply, h1]; rfl)

/-- What counts the values of a write repeats the head of its request. -/
lemma head_message (slave : Byte) (request : Query) :
    let req := Buffer.ofList (request.message slave)
    buildResponseBasis req ++ [req 2, req 3, req 4, req 5] = (request.message slave).take 6 := by
  have hlength : 6 ≤ (request.message slave).length := by
    rw [message_eq, List.length_append, List.length_append, List.length_append]
    simp only [wordBytes, List.length_cons, List.length_nil]
    omega
  have htake := take_bytes (Buffer.ofList (request.message slave)) hlength
  rw [bytes_ofList] at htake
  rw [htake]
  rfl

/-- Writing a bit. -/
lemma serves_writeBit (hm : m.WellFormed) (addr : BitVec 16) (status : Bool) :
    Serves version slave m (.writeBit addr status) := by
  obtain ⟨-, h1, h2, h4, -⟩ := message_apply slave (.writeBit addr status)
  have hbuild : ∀ n, buildReply version m
      (Buffer.ofList ((Query.writeBit addr status).message slave)) n =
        (replyWriteBit m (Buffer.ofList ((Query.writeBit addr status).message slave)) n).map
          fun reply => (reply.1, some reply.2) := by
    intro n
    rw [buildReply, h1]
    rfl
  simp only [replyWriteBit, mappingAddress, h2, h4, Query.addr, Query.second] at hbuild
  by_cases hrange : (addr.toNat : ℤ) - m.startBits < 0 ∨
      (addr.toNat : ℤ) - m.startBits ≥ m.tabBits.length
  · refine serves_of_none ?_ ?_
    · rw [Device.serve, Mapping.device, Table.map_ofList,
        Table.write_set_eq_none status (by rwa [List.length_map])]
      rfl
    · rw [hbuild, if_pos hrange, Option.map_some]
  · have hdata : ((if status then 0xFF00 else 0 : BitVec 16) = 0xFF00 ∨
        (if status then 0xFF00 else 0 : BitVec 16) = 0) := by
      cases status
      · exact Or.inr rfl
      · exact Or.inl rfl
    have hvalue : (if (if status then 0xFF00 else 0 : BitVec 16) ≠ 0 then (1 : Byte) else 0) =
        bitByte status := by
      cases status <;> rfl
    refine serves_of_some .done { m with
      tabBits := m.tabBits.set ((addr.toNat : ℤ) - m.startBits).toNat (bitByte status) }
      ?_ ?_ ⟨?_, hm.inputBits⟩ rfl
    · have hwritten : decide (bitByte status ≠ 0) = status := by cases status <;> rfl
      rw [Device.serve, Mapping.device, Table.map_ofList, Table.write_set status (by
        rwa [List.length_map]), Mapping.device]
      simp only [Table.map_ofList, List.map_set, hwritten, Option.map_some]
    · rw [hbuild, if_neg hrange, if_pos hdata, hvalue, store_of_lt (by omega) (by omega),
        bytes_ofList]
      rfl
    · intro b hb
      rcases List.mem_or_eq_of_mem_set hb with hold | hnew
      · exact hm.bits b hold
      · rw [hnew]
        cases status
        · exact Or.inl rfl
        · exact Or.inr rfl

/-- Writing a register. -/
lemma serves_writeRegister (hm : m.WellFormed) (addr value : BitVec 16) :
    Serves version slave m (.writeRegister addr value) := by
  obtain ⟨-, h1, h2, h4, -⟩ := message_apply slave (.writeRegister addr value)
  have hbuild : ∀ n, buildReply version m
      (Buffer.ofList ((Query.writeRegister addr value).message slave)) n =
        (replyWriteRegister m
          (Buffer.ofList ((Query.writeRegister addr value).message slave)) n).map
            fun reply => (reply.1, some reply.2) := by
    intro n
    rw [buildReply, h1]
    rfl
  simp only [replyWriteRegister, mappingAddress, h2, h4, Query.addr, Query.second] at hbuild
  by_cases hrange : (addr.toNat : ℤ) - m.startRegisters < 0 ∨
      (addr.toNat : ℤ) - m.startRegisters ≥ m.tabRegisters.length
  · refine serves_of_none ?_ ?_
    · rw [Device.serve, Mapping.device, Table.write_set_eq_none value hrange]
      rfl
    · rw [hbuild, if_pos hrange, Option.map_some]
  · refine serves_of_some .done { m with
      tabRegisters := m.tabRegisters.set ((addr.toNat : ℤ) - m.startRegisters).toNat value }
      ?_ ?_ ⟨hm.bits, hm.inputBits⟩ rfl
    · rw [Device.serve, Mapping.device, Table.write_set value hrange]
      rfl
    · rw [hbuild, if_neg hrange, store_of_lt (by omega) (by omega), bytes_ofList]
      rfl

/-- Masking a register. -/
lemma serves_maskWriteRegister (hm : m.WellFormed) (addr andMask orMask : BitVec 16) :
    Serves version slave m (.maskWriteRegister addr andMask orMask) := by
  obtain ⟨-, h1, h2, h4, -⟩ := message_apply slave (.maskWriteRegister addr andMask orMask)
  have h6 : (Buffer.ofList ((Query.maskWriteRegister addr andMask orMask).message slave)).word 6 =
      orMask :=
    (message_word slave (.maskWriteRegister addr andMask orMask) 0).trans (append_wordBytes orMask)
  have hbuild : ∀ n, buildReply version m
      (Buffer.ofList ((Query.maskWriteRegister addr andMask orMask).message slave)) n =
        (replyMaskWriteRegister m
          (Buffer.ofList ((Query.maskWriteRegister addr andMask orMask).message slave)) n).map
            fun reply => (reply.1, some reply.2) := by
    intro n
    rw [buildReply, h1]
    rfl
  simp only [replyMaskWriteRegister, mappingAddress, h2, h4, h6, Query.addr, Query.second]
    at hbuild
  by_cases hrange : (addr.toNat : ℤ) - m.startRegisters < 0 ∨
      (addr.toNat : ℤ) - m.startRegisters ≥ m.tabRegisters.length
  · refine serves_of_none ?_ ?_
    · have hnone : m.device.register addr.toNat = none := by
        change Table.ofList m.startRegisters m.tabRegisters addr.toNat = none
        rw [Table.ofList]
        by_cases hstart : m.startRegisters ≤ addr.toNat
        · rw [if_pos hstart, List.getElem?_eq_none (by omega)]
        · rw [if_neg hstart]
      rw [Device.serve, hnone]
      rfl
    · rw [hbuild, if_pos hrange, Option.map_some]
  · have hlt : ((addr.toNat : ℤ) - m.startRegisters).toNat < m.tabRegisters.length := by omega
    have hsome : m.device.register addr.toNat =
        some m.tabRegisters[((addr.toNat : ℤ) - m.startRegisters).toNat] := by
      change Table.ofList m.startRegisters m.tabRegisters addr.toNat = _
      rw [Table.ofList, if_pos (by omega), List.getElem?_eq_getElem hlt]
    refine serves_of_some .done { m with
      tabRegisters := m.tabRegisters.set ((addr.toNat : ℤ) - m.startRegisters).toNat
        ((m.tabRegisters[((addr.toNat : ℤ) - m.startRegisters).toNat] &&& andMask) |||
          (orMask &&& ~~~andMask)) }
      ?_ ?_ ⟨hm.bits, hm.inputBits⟩ rfl
    · rw [Device.serve, hsome, Option.bind_some, Mapping.device, Table.write_set _ hrange]
      rfl
    · rw [hbuild, if_neg hrange, load_of_lt (by omega) hlt, Option.bind_some,
        store_of_lt (by omega) (by omega), bytes_ofList]
      rfl

/-- Writing bits. -/
lemma serves_writeBits (hm : m.WellFormed) (addr : BitVec 16) {src : List Bool}
    (hvalid : (Query.writeBits addr src).Valid) :
    Serves version slave m (.writeBits addr src) := by
  obtain ⟨hpos, hle⟩ := hvalid
  obtain ⟨-, h1, h2, h4, hrest⟩ := message_apply slave (.writeBits addr src)
  have hhead := head_message slave (.writeBits addr src)
  have hnb : requestNb (Buffer.ofList ((Query.writeBits addr src).message slave)) =
      src.length := by
    rw [requestNb, h4, Query.second, BitVec.toNat_ofNat]
    omega
  have hbytes : (Buffer.ofList ((Query.writeBits addr src).message slave) 6).toNat =
      (src.length + 7) / 8 := by
    rw [hrest 0]
    change (BitVec.ofNat 8 ((src.length + 7) / 8)).toNat = _
    rw [BitVec.toNat_ofNat]
    omega
  have hbit : ∀ i (hi : i < src.length),
      bitOf (fun i => Buffer.ofList ((Query.writeBits addr src).message slave) (7 + i)) i =
        src[i] := by
    intro i hi
    refine (bitOf_packBits (f := fun i => src.getD i false) (fun k hk => ?_) hi).trans
      (List.getD_eq_getElem _ _ hi)
    rw [show 7 + k = 6 + (1 + k) by omega, hrest]
    refine (ofList_append [_] (packBits (fun i => src.getD i false) src.length) k).trans
      (ofList_apply ?_)
    rw [packBits, List.getElem?_map, List.getElem?_range hk]
    rfl
  have hbuild : ∀ n, buildReply version m
      (Buffer.ofList ((Query.writeBits addr src).message slave)) n =
        (replyWriteBits m (Buffer.ofList ((Query.writeBits addr src).message slave))).map
          fun reply => (reply.1, some reply.2) := by
    intro n
    rw [buildReply, h1]
    rfl
  have hvalue : ¬(src.length < 1 ∨ modbusMaxWriteBits < (src.length : ℤ) ∨
      (src.length + 7) / 8 * 8 < src.length) := by
    rw [modbusMaxWriteBits]
    omega
  simp only [replyWriteBits, hnb, hbytes, mappingAddress, h2, Query.addr] at hbuild hhead
  simp only [if_neg hvalue] at hbuild
  by_cases hrange : (addr.toNat : ℤ) - m.startBits < 0 ∨
      (addr.toNat : ℤ) - m.startBits + src.length > m.tabBits.length
  · refine serves_of_none ?_ ?_
    · rw [Device.serve, Mapping.device, Table.map_ofList,
        Table.write_ofList_eq_none hpos (by rwa [List.length_map])]
      rfl
    · rw [hbuild, if_pos hrange, Option.map_some]
  · obtain ⟨tabBits, hset, hbits, hwrite⟩ := setBits_write hpos hrange hm.bits hbit
    refine serves_of_some .done { m with tabBits } ?_ ?_ ⟨hbits, hm.inputBits⟩ rfl
    · rw [Device.serve, Mapping.device, hwrite]
      rfl
    · rw [hbuild, if_neg hrange, hset, hhead]
      rfl

/-- Writing registers. -/
lemma serves_writeRegisters (hm : m.WellFormed) (addr : BitVec 16) {src : List (BitVec 16)}
    (hvalid : (Query.writeRegisters addr src).Valid) :
    Serves version slave m (.writeRegisters addr src) := by
  obtain ⟨hpos, hle⟩ := hvalid
  obtain ⟨-, h1, h2, h4, hrest⟩ := message_apply slave (.writeRegisters addr src)
  have hhead := head_message slave (.writeRegisters addr src)
  have hnb : requestNb (Buffer.ofList ((Query.writeRegisters addr src).message slave)) =
      src.length := by
    rw [requestNb, h4, Query.second, BitVec.toNat_ofNat]
    omega
  have hbytes : (Buffer.ofList ((Query.writeRegisters addr src).message slave) 6).toNat =
      src.length * 2 := by
    rw [hrest 0]
    change (BitVec.ofNat 8 (2 * src.length)).toNat = _
    rw [BitVec.toNat_ofNat]
    omega
  have hword : ∀ i (hi : i < src.length),
      (Buffer.ofList ((Query.writeRegisters addr src).message slave)).word (7 + 2 * i) =
        src[i] := by
    intro i hi
    rw [show 7 + 2 * i = 6 + (1 + 2 * i) by omega, message_word]
    exact word_values [_] hi
  have hbuild : ∀ n, buildReply version m
      (Buffer.ofList ((Query.writeRegisters addr src).message slave)) n =
        (replyWriteRegisters m (Buffer.ofList ((Query.writeRegisters addr src).message slave))).map
          fun reply => (reply.1, some reply.2) := by
    intro n
    rw [buildReply, h1]
    rfl
  have hvalue : ¬(src.length < 1 ∨ modbusMaxWriteRegisters < (src.length : ℤ) ∨
      src.length * 2 ≠ src.length * 2) := by
    rw [modbusMaxWriteRegisters]
    omega
  simp only [replyWriteRegisters, hnb, hbytes, mappingAddress, h2, Query.addr] at hbuild hhead
  simp only [if_neg hvalue] at hbuild
  by_cases hrange : (addr.toNat : ℤ) - m.startRegisters < 0 ∨
      (addr.toNat : ℤ) - m.startRegisters + src.length > m.tabRegisters.length
  · refine serves_of_none ?_ ?_
    · rw [Device.serve, Mapping.device, Table.write_ofList_eq_none hpos hrange]
      rfl
    · rw [hbuild, if_pos hrange, Option.map_some]
  · obtain ⟨tabRegisters, hstore, -, hwrite⟩ := storeAll_write hpos hrange hword
    refine serves_of_some .done { m with tabRegisters } ?_ ?_ ⟨hm.bits, hm.inputBits⟩ rfl
    · rw [Device.serve, Mapping.device, hwrite]
      rfl
    · rw [hbuild, if_neg hrange, hstore, hhead]
      rfl

/-- Writing and reading registers, where the writing does not begin before the table. -/
lemma serves_writeAndReadRegisters (hm : m.WellFormed) {writeAddr : BitVec 16}
    {src : List (BitVec 16)} {readAddr : BitVec 16} {readNb : ℕ}
    (hvalid : (Query.writeAndReadRegisters writeAddr src readAddr readNb).Valid)
    (hstart : m.startRegisters ≤ writeAddr.toNat) :
    Serves version slave m (.writeAndReadRegisters writeAddr src readAddr readNb) := by
  obtain ⟨⟨hpos, hle⟩, hpos', hle'⟩ := hvalid
  have hserves : ∀ request, request = Query.writeAndReadRegisters writeAddr src readAddr readNb →
      Serves version slave m request := by
    intro request hrequest
    obtain ⟨h0, h1, h2, h4, hrest⟩ := message_apply slave request
    have h6 := message_word slave request 0
    have h8 := message_word slave request 2
    have h10 := hrest 4
    have hword : ∀ i (hi : i < src.length),
        (Buffer.ofList (request.message slave)).word (11 + 2 * i) = src[i] := by
      intro i hi
      rw [show 11 + 2 * i = 6 + (5 + 2 * i) by omega, message_word, hrequest]
      exact word_values (wordBytes writeAddr ++ wordBytes (BitVec.ofNat 16 src.length) ++
        [BitVec.ofNat 8 (2 * src.length)]) hi
    have hnb : requestNb (Buffer.ofList (request.message slave)) = readNb := by
      rw [requestNb, h4, hrequest, Query.second, BitVec.toNat_ofNat]
      omega
    have haddr : (Buffer.ofList (request.message slave)).word 6 = writeAddr := by
      rw [h6, hrequest]
      exact append_wordBytes writeAddr
    have hnbWrite : ((Buffer.ofList (request.message slave)).word 8).toNat = src.length := by
      rw [h8, hrequest, show (Buffer.ofList (Query.rest (.writeAndReadRegisters writeAddr src
        readAddr readNb))).word 2 = BitVec.ofNat 16 src.length from append_wordBytes _,
        BitVec.toNat_ofNat]
      omega
    have hbytes : (Buffer.ofList (request.message slave) 10).toNat = src.length * 2 := by
      rw [h10, hrequest]
      change (BitVec.ofNat 8 (2 * src.length)).toNat = _
      rw [BitVec.toNat_ofNat]
      omega
    have hfunction : Buffer.ofList (request.message slave) 1 = fcWriteAndReadRegisters := by
      rw [h1, hrequest]
      rfl
    have hboth := fun n => buildReply_both version m n hfunction
    have hvalue : ¬(src.length < 1 ∨ modbusMaxWrWriteRegisters < (src.length : ℤ) ∨ readNb < 1 ∨
        modbusMaxWrReadRegisters < (readNb : ℤ) ∨ src.length * 2 ≠ src.length * 2) := by
      rw [modbusMaxWrWriteRegisters, modbusMaxWrReadRegisters]
      omega
    have hreadAddr : request.addr = readAddr := by rw [hrequest, Query.addr]
    simp only [replyWriteAndReadRegisters, hnb, haddr, hnbWrite, hbytes, mappingAddress, h2,
      hreadAddr, if_neg hvalue, buildResponseBasis, h0, h1] at hboth
    have hserve : m.device.serve request =
        ((Table.ofList m.startRegisters m.tabRegisters).write writeAddr.toNat src).bind
          fun register => (Table.read register readAddr.toNat readNb).map fun vs =>
            (.registers vs, { m.device with register }) := by
      rw [hrequest]
      rfl
    by_cases hwrite : (writeAddr.toNat : ℤ) - m.startRegisters < 0 ∨
        (writeAddr.toNat : ℤ) - m.startRegisters + src.length > m.tabRegisters.length
    · refine serves_of_none ?_ ?_
      · rw [hserve, Table.write_ofList_eq_none hpos hwrite]
        rfl
      · rw [hboth, if_pos (by omega)]
        rfl
    · obtain ⟨tabRegisters, hstore, hlength, hwritten⟩ := storeAll_write hpos hwrite hword
      rw [hwritten, Option.bind_some, Table.read_ofList _ _ _ hpos', hlength] at hserve
      by_cases hread : (readAddr.toNat : ℤ) - m.startRegisters < 0 ∨
          (readAddr.toNat : ℤ) - m.startRegisters + readNb > m.tabRegisters.length
      · rw [if_pos hread] at hserve
        refine serves_of_none hserve ?_
        rw [hboth, if_pos (by omega)]
        rfl
      · rw [if_neg hread] at hserve
        refine serves_of_some _ { m with tabRegisters } hserve ?_ ⟨hm.bits, hm.inputBits⟩ rfl
        have hanswer := registersAnswer_of_range slave request.function
          (by omega : 0 ≤ (readAddr.toNat : ℤ) - m.startRegisters)
          (by omega : (readAddr.toNat : ℤ) - m.startRegisters + readNb ≤ tabRegisters.length)
        obtain ⟨bytes, hbytes, hregisters⟩ := Option.map_eq_some_iff.mp hanswer
        rw [hboth, if_neg (by omega), hstore, Option.bind_some, hbytes, Option.map_some,
          Option.map_some, hregisters]
        rfl
  exact hserves _ rfl

/-- The requests that keep within the memory of the tables: a write that is also a read begins no
earlier than the registers do. -/
def Query.Within (startRegisters : ℤ) : Query → Prop
  | .writeAndReadRegisters writeAddr _ _ _ => startRegisters ≤ writeAddr.toNat
  | _ => True

/-- **A slave does what a request says.** -/
theorem buildReply_serves (version : List Byte) (slave : Byte) (hm : m.WellFormed)
    (hvalid : request.Valid) (hwithin : request.Within m.startRegisters) :
    Serves version slave m request := by
  cases request with
  | readBits input addr nb => exact serves_readBits hm input addr hvalid
  | readRegisters input addr nb => exact serves_readRegisters hm input addr hvalid
  | writeBit addr status => exact serves_writeBit hm addr status
  | writeRegister addr value => exact serves_writeRegister hm addr value
  | writeBits addr src => exact serves_writeBits hm addr hvalid
  | writeRegisters addr src => exact serves_writeRegisters hm addr hvalid
  | maskWriteRegister addr andMask orMask => exact serves_maskWriteRegister hm addr andMask orMask
  | writeAndReadRegisters writeAddr src readAddr readNb =>
      exact serves_writeAndReadRegisters hm hvalid hwithin

end Serves

end PanelFirmware.Libmodbus
