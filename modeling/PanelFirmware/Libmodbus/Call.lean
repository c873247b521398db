import PanelFirmware.Libmodbus.Device

/-!
# `libmodbus/src/modbus.c`: requests as calls

Each request of `Query` is one call of the library. What it returns depends on what comes back for
its message.

* `Query.call_of_answer`: on the answer to the request the call returns what the answer carries.
* `Query.call_of_exception`: on an exception it fails with the exception's number.
* `Query.call_of_not_confirms`: on anything that does not confirm the request it fails.
-/

namespace PanelFirmware.Libmodbus

open PanelFirmware.Lib

variable {σ : Type}

/-- What a call returns, and what it has read. -/
structure Outcome where
  ret : Return
  answer : Response

/-- The call of a request. -/
def Query.call (slave : Byte) (line : Line σ) (s : σ) (errno : ℕ) : Query → Outcome × σ
  | .readBits input addr nb =>
      let x := if input then modbusReadInputBits slave line s addr.toNat nb errno
        else modbusReadBits slave line s addr.toNat nb errno
      (⟨x.ret, .bits (x.dest.map fun b => decide (b ≠ 0))⟩, x.line)
  | .readRegisters input addr nb =>
      let x := if input then modbusReadInputRegisters slave line s addr.toNat nb errno
        else modbusReadRegisters slave line s addr.toNat nb errno
      (⟨x.ret, .registers x.dest⟩, x.line)
  | .writeBit addr status =>
      let x := modbusWriteBit slave line s addr.toNat (if status then 1 else 0) errno
      (⟨x.1, .done⟩, x.2)
  | .writeRegister addr value =>
      let x := modbusWriteRegister slave line s addr.toNat value errno
      (⟨x.1, .done⟩, x.2)
  | .writeBits addr src =>
      let x := modbusWriteBits slave line s addr.toNat src.length
        (fun i => bitByte (src.getD i false)) errno
      (⟨x.1, .done⟩, x.2)
  | .writeRegisters addr src =>
      let x := modbusWriteRegisters slave line s addr.toNat src.length (fun i => src.getD i 0) errno
      (⟨x.1, .done⟩, x.2)
  | .maskWriteRegister addr andMask orMask =>
      let x := modbusMaskWriteRegister slave line s addr.toNat andMask orMask errno
      (⟨x.1, .done⟩, x.2)
  | .writeAndReadRegisters writeAddr src readAddr readNb =>
      let x := modbusWriteAndReadRegisters slave line s writeAddr.toNat src.length
        (fun i => src.getD i 0) readAddr.toNat readNb errno
      (⟨x.ret, .registers x.dest⟩, x.line)

/-- What the call of a request returns when it succeeds. -/
def Query.count : Query → ℕ
  | .readBits _ _ nb | .readRegisters _ _ nb | .writeAndReadRegisters _ _ _ nb => nb
  | .writeBit _ _ | .writeRegister _ _ | .maskWriteRegister _ _ _ => 1
  | .writeBits _ src => src.length
  | .writeRegisters _ src => src.length

/-- The answers of the form a request asks for. -/
def Query.Asks : Query → Response → Prop
  | .readBits _ _ nb, .bits values => values.length = nb
  | .readRegisters _ _ nb, .registers values => values.length = nb
  | .writeAndReadRegisters _ _ _ nb, .registers values => values.length = nb
  | .writeBit _ _, .done | .writeRegister _ _, .done | .maskWriteRegister _ _ _, .done => True
  | .writeBits _ _, .done | .writeRegisters _ _, .done => True
  | _, _ => False

/-- What is served has the form that is asked for. -/
lemma asks_of_serve {d d' : Device} {request : Query} {answer : Response}
    (h : d.serve request = some (answer, d')) : request.Asks answer := by
  cases request with
  | readBits input addr nb =>
      obtain ⟨vs, hread, heq⟩ := Option.map_eq_some_iff.mp h
      rw [← (Prod.mk.inj heq).1]
      exact (Table.read_eq_some_iff.mp hread).1
  | readRegisters input addr nb =>
      obtain ⟨vs, hread, heq⟩ := Option.map_eq_some_iff.mp h
      rw [← (Prod.mk.inj heq).1]
      exact (Table.read_eq_some_iff.mp hread).1
  | writeBit addr status =>
      obtain ⟨t, -, heq⟩ := Option.map_eq_some_iff.mp h
      rw [← (Prod.mk.inj heq).1]
      trivial
  | writeRegister addr value =>
      obtain ⟨t, -, heq⟩ := Option.map_eq_some_iff.mp h
      rw [← (Prod.mk.inj heq).1]
      trivial
  | writeBits addr src =>
      obtain ⟨t, -, heq⟩ := Option.map_eq_some_iff.mp h
      rw [← (Prod.mk.inj heq).1]
      trivial
  | writeRegisters addr src =>
      obtain ⟨t, -, heq⟩ := Option.map_eq_some_iff.mp h
      rw [← (Prod.mk.inj heq).1]
      trivial
  | maskWriteRegister addr andMask orMask =>
      obtain ⟨v, -, hwrite⟩ := Option.bind_eq_some_iff.mp h
      obtain ⟨t, -, heq⟩ := Option.map_eq_some_iff.mp hwrite
      rw [← (Prod.mk.inj heq).1]
      trivial
  | writeAndReadRegisters writeAddr src readAddr readNb =>
      obtain ⟨t, -, hread⟩ := Option.bind_eq_some_iff.mp h
      obtain ⟨vs, hvs, heq⟩ := Option.map_eq_some_iff.mp hread
      rw [← (Prod.mk.inj heq).1]
      exact (Table.read_eq_some_iff.mp hvs).1

/-! ### What a call makes of its exchange -/

/-- What the call of a request makes of what has come back. -/
def Query.outcome (request : Query) (x : Exchange σ) : Outcome :=
  match request with
  | .readBits _ _ nb =>
      if x.ret.rc = -1 then ⟨⟨-1, x.ret.errno⟩, .bits []⟩
      else ⟨⟨nb, x.ret.errno⟩,
        .bits ((ioStatusValues x.rsp x.ret.rc.toNat nb).map fun b => decide (b ≠ 0))⟩
  | .readRegisters _ _ _ | .writeAndReadRegisters _ _ _ _ =>
      ⟨x.registers.ret, .registers x.registers.dest⟩
  | .writeBit _ _ | .writeRegister _ _ | .writeBits _ _ | .writeRegisters _ _
  | .maskWriteRegister _ _ _ => ⟨x.ret, .done⟩

/-- The line after a call that reads registers. -/
@[simp] lemma registers_line (x : Exchange σ) : x.registers.line = x.line := by
  rw [Exchange.registers]
  split_ifs <;> rfl

/-- The calls that read bits. -/
lemma readBitsWith_eq (slave : Byte) (line : Line σ) (s : σ) (function : Byte) (addr : ℤ) {nb : ℕ}
    (hnb : nb ≤ 2000) (errno : ℕ) :
    let x := transact slave line s (buildRequestBasis slave function addr nb) errno
    let r := readBitsWith slave line s function addr nb errno
    (⟨r.ret, .bits (r.dest.map fun b => decide (b ≠ 0))⟩, r.line) =
      ((if x.ret.rc = -1 then ⟨⟨-1, x.ret.errno⟩, .bits []⟩
        else ⟨⟨nb, x.ret.errno⟩,
          .bits ((ioStatusValues x.rsp x.ret.rc.toNat nb).map fun b => decide (b ≠ 0))⟩ :
          Outcome), x.line) := by
  have hmax : ¬ modbusMaxReadBits < (nb : ℤ) := by
    rw [modbusMaxReadBits]
    omega
  simp only [readBitsWith, readIoStatus, if_neg hmax]
  split_ifs with hrc
  · rfl
  · rfl

/-- **A call sends the message of its request** and makes its outcome of what comes back. -/
theorem Query.call_eq (slave : Byte) (line : Line σ) (s : σ) (errno : ℕ) {request : Query}
    (hvalid : request.Valid) :
    request.call slave line s errno =
      (request.outcome (transact slave line s (request.message slave) errno),
        (transact slave line s (request.message slave) errno).line) := by
  cases request with
  | readBits input addr nb =>
      obtain ⟨-, hle⟩ := hvalid
      cases input with
      | true => exact readBitsWith_eq slave line s fcReadDiscreteInputs addr.toNat hle errno
      | false => exact readBitsWith_eq slave line s fcReadCoils addr.toNat hle errno
  | readRegisters input addr nb =>
      obtain ⟨-, hle⟩ := hvalid
      have hmax : ¬ modbusMaxReadRegisters < (nb : ℤ) := by
        rw [modbusMaxReadRegisters]
        omega
      cases input with
      | true =>
          simp only [Query.call, modbusReadInputRegisters, Libmodbus.readRegisters,
            if_neg hmax, if_true, registers_line]
          rfl
      | false =>
          simp only [Query.call, modbusReadRegisters, Libmodbus.readRegisters, if_neg hmax,
            Bool.false_eq_true, if_false, registers_line]
          rfl
  | writeBit addr status => cases status <;> rfl
  | writeRegister addr value => rfl
  | writeBits addr src =>
      obtain ⟨-, hle⟩ := hvalid
      have hmax : ¬ modbusMaxWriteBits < (src.length : ℤ) := by
        rw [modbusMaxWriteBits]
        omega
      simp only [Query.call, modbusWriteBits, if_neg hmax]
      rfl
  | writeRegisters addr src =>
      obtain ⟨-, hle⟩ := hvalid
      have hmax : ¬ modbusMaxWriteRegisters < (src.length : ℤ) := by
        rw [modbusMaxWriteRegisters]
        omega
      simp only [Query.call, modbusWriteRegisters, if_neg hmax]
      rfl
  | maskWriteRegister addr andMask orMask => rfl
  | writeAndReadRegisters writeAddr src readAddr readNb =>
      obtain ⟨⟨-, hle⟩, -, hle'⟩ := hvalid
      have hmax : ¬ modbusMaxWrWriteRegisters < (src.length : ℤ) := by
        rw [modbusMaxWrWriteRegisters]
        omega
      have hmax' : ¬ modbusMaxWrReadRegisters < (readNb : ℤ) := by
        rw [modbusMaxWrReadRegisters]
        omega
      simp only [Query.call, modbusWriteAndReadRegisters, if_neg hmax, if_neg hmax',
        registers_line]
      rfl

/-- What a call that fails has read. -/
def Query.nothing : Query → Response
  | .readBits _ _ _ => .bits []
  | .readRegisters _ _ _ | .writeAndReadRegisters _ _ _ _ => .registers []
  | .writeBit _ _ | .writeRegister _ _ | .writeBits _ _ | .writeRegisters _ _
  | .maskWriteRegister _ _ _ => .done

/-- A call whose exchange has failed fails with it. -/
lemma outcome_of_failed (request : Query) {x : Exchange σ} (h : x.ret.rc = -1) :
    request.outcome x = ⟨⟨-1, x.ret.errno⟩, request.nothing⟩ := by
  have hret : x.ret = ⟨-1, x.ret.errno⟩ := by rw [← h]
  have hregisters : (⟨x.registers.ret, .registers x.registers.dest⟩ : Outcome) =
      ⟨⟨-1, x.ret.errno⟩, .registers []⟩ := by
    rw [Exchange.registers, if_pos h, ← hret]
  cases request with
  | readBits input addr nb =>
      rw [Query.outcome, if_pos h]
      rfl
  | readRegisters input addr nb => exact hregisters
  | writeBit addr status => exact congrArg (Outcome.mk · .done) hret
  | writeRegister addr value => exact congrArg (Outcome.mk · .done) hret
  | writeBits addr src => exact congrArg (Outcome.mk · .done) hret
  | writeRegisters addr src => exact congrArg (Outcome.mk · .done) hret
  | maskWriteRegister addr andMask orMask => exact congrArg (Outcome.mk · .done) hret
  | writeAndReadRegisters writeAddr src readAddr readNb => exact hregisters

/-! ### What confirms a request -/

/-- The requests for bits, those for registers, and those to write. -/
lemma function_message (slave : Byte) (request : Query) :
    AnswersBits (Buffer.ofList (request.message slave) 1) ∨
      AnswersRegisters (Buffer.ofList (request.message slave) 1) ∨
      AnswersWrite (Buffer.ofList (request.message slave) 1) := by
  obtain ⟨-, h1, -⟩ := message_apply slave request
  rw [h1]
  cases request with
  | readBits input addr nb =>
      cases input with
      | true => exact Or.inl (Or.inr rfl)
      | false => exact Or.inl (Or.inl rfl)
  | readRegisters input addr nb =>
      cases input with
      | true => exact Or.inr (Or.inl (Or.inr (Or.inl rfl)))
      | false => exact Or.inr (Or.inl (Or.inl rfl))
  | writeBit addr status => exact Or.inr (Or.inr (Or.inl rfl))
  | writeRegister addr value => exact Or.inr (Or.inr (Or.inr (Or.inl rfl)))
  | writeBits addr src => exact Or.inr (Or.inr (Or.inr (Or.inr (Or.inl rfl))))
  | writeRegisters addr src => exact Or.inr (Or.inr (Or.inr (Or.inr (Or.inr (Or.inl rfl)))))
  | maskWriteRegister addr andMask orMask =>
      exact Or.inr (Or.inr (Or.inr (Or.inr (Or.inr (Or.inr rfl)))))
  | writeAndReadRegisters writeAddr src readAddr readNb =>
      exact Or.inr (Or.inl (Or.inr (Or.inr rfl)))

/-- The answer to a request has a definite length. -/
lemma computeResponseLength_message (slave : Byte) (request : Query) :
    0 < computeResponseLengthFromRequest (Buffer.ofList (request.message slave)) := by
  rcases function_message slave request with h | h | h
  · rw [computeResponseLength_data (Or.inl h)]
    omega
  · rw [computeResponseLength_data (Or.inr h)]
    omega
  · rw [computeResponseLength_write h]
    omega

/-- The second word of a request for bits. -/
lemma dataLength_readBits (slave : Byte) (input : Bool) (addr : BitVec 16) {nb : ℕ}
    (hnb : nb ≤ 2000) :
    AnswersBits (Buffer.ofList ((Query.readBits input addr nb).message slave) 1) ∧
      dataLength (Buffer.ofList ((Query.readBits input addr nb).message slave)) =
        (nb + 7) / 8 := by
  obtain ⟨-, h1, -, h4, -⟩ := message_apply slave (.readBits input addr nb)
  have hbits : AnswersBits (Query.readBits input addr nb).function := by
    cases input with
    | true => exact Or.inr rfl
    | false => exact Or.inl rfl
  have hcount : (Query.readBits input addr nb).second.toNat = nb := by
    rw [Query.second, BitVec.toNat_ofNat]
    omega
  refine ⟨h1 ▸ hbits, ?_⟩
  rw [dataLength, h1, if_pos hbits, h4, hcount]

/-- A request for bits is one for data. -/
lemma asksData_readBits (slave : Byte) (input : Bool) (addr : BitVec 16) {nb : ℕ}
    (hnb : nb ≤ 2000) :
    AsksData slave (Buffer.ofList ((Query.readBits input addr nb).message slave)) := by
  obtain ⟨hbits, hlength⟩ := dataLength_readBits slave input addr hnb
  refine ⟨(message_apply slave _).1, Or.inl hbits, ?_⟩
  rw [hlength]
  omega

/-- A request for registers. -/
lemma asksRegisters_message (slave : Byte) (request : Query) {n : ℕ}
    (hfunction : AnswersRegisters request.function) (hsecond : request.second = BitVec.ofNat 16 n)
    (hn : n ≤ 125) : AsksRegisters slave (Buffer.ofList (request.message slave)) n := by
  obtain ⟨h0, h1, -, h4, -⟩ := message_apply slave request
  refine ⟨h0, h1 ▸ hfunction, ?_, hn⟩
  rw [h4, hsecond, BitVec.toNat_ofNat]
  omega

/-! ### What a call returns -/

variable {slave : Byte} {line : Line σ} {s : σ} {request : Query}

/-- The line after the call of a request. -/
lemma Query.call_line (slave : Byte) (line : Line σ) (s : σ) (hvalid : request.Valid)
    (errno : ℕ) :
    (request.call slave line s errno).2 = (line s (sendMsg (request.message slave))).2 := by
  rw [request.call_eq slave line s errno hvalid, transact_line]

/-- **A call fails on anything that does not confirm its request.** -/
theorem Query.call_of_not_confirms (hvalid : request.Valid)
    (h : ¬ Confirms slave (Buffer.ofList (request.message slave))
      (line s (sendMsg (request.message slave))).1) (errno : ℕ) :
    (request.call slave line s errno).1.ret.rc = -1 := by
  have hrc := transact_of_not_confirms h (computeResponseLength_message slave request) errno
  rw [request.call_eq slave line s errno hvalid, outcome_of_failed request hrc]

/-- **A call fails with the number of an exception.** -/
theorem Query.call_of_exception (hvalid : request.Valid) {code : Byte}
    (h : (line s (sendMsg (request.message slave))).1.Brings
      (sendMsg [slave, request.function + 0x80, code])) (errno : ℕ) :
    (request.call slave line s errno).1 = ⟨⟨-1, exceptionErrno code⟩, request.nothing⟩ := by
  obtain ⟨h0, h1, -⟩ := message_apply slave request
  have hplain : request.function < 0x80 := by
    rw [← h1]
    rcases function_message slave request with (h | h) | (h | h | h) | h | h | h | h | h <;>
      rw [h] <;>
      decide
  have hret := transact_exception h0 h1 hplain h errno
  rw [request.call_eq slave line s errno hvalid,
    outcome_of_failed request (congrArg Return.rc hret), hret]

/-- What the call of a request for bits makes of its answer. -/
lemma outcome_readBits {input : Bool} {addr : BitVec 16} {values : List Bool}
    (hle : values.length ≤ 2000)
    (h : (line s (sendMsg ((Query.readBits input addr values.length).message slave))).1.Brings
      (sendMsg ((Query.readBits input addr values.length).answer slave (.bits values))))
    (errno : ℕ) :
    (Query.readBits input addr values.length).outcome (transact slave line s
      ((Query.readBits input addr values.length).message slave) errno) =
        ⟨⟨values.length, errno⟩, .bits values⟩ := by
  obtain ⟨hbits, hdata⟩ := dataLength_readBits slave input addr hle
  have hasks := asksData_readBits slave input addr hle
  have hfunction := (message_apply slave (.readBits input addr values.length)).2.1
  have hconfirms := (confirms_data_iff hasks _).mpr
    ⟨packBits (fun i => values.getD i false) values.length, by rw [length_packBits, hdata], by
      rw [hfunction]; exact h⟩
  have hret := data_of_confirms hasks hconfirms errno
  rw [if_pos hbits, hdata] at hret
  have hbyte : ∀ i, i < (values.length + 7) / 8 →
      (line s (sendMsg ((Query.readBits input addr values.length).message slave))).1.msg (3 + i) =
        packedByte (fun i => values.getD i false) values.length i := by
    intro i hi
    apply h.apply
    have hlt : i < (packBits (fun i => values.getD i false) values.length).length := by
      rwa [length_packBits]
    rw [sendMsg_eq, Query.answer, dataAnswer, List.append_assoc,
      List.getElem?_append_right (Nat.le_add_right 3 i),
      show 3 + i - [slave, (Query.readBits input addr values.length).function, BitVec.ofNat 8
        (packBits (fun i => values.getD i false) values.length).length].length = i from
        Nat.add_sub_cancel_left 3 i,
      List.getElem?_append_left hlt, packBits, List.getElem?_map, List.getElem?_range hi]
    rfl
  have hvalues : ((ioStatusValues
      (line s (sendMsg ((Query.readBits input addr values.length).message slave))).1.msg
      ((values.length + 7) / 8) values.length).map fun b => decide (b ≠ 0)) = values := by
    rw [ioStatusValues_eq, List.map_map]
    refine (List.map_congr_left fun j hj => ?_).trans (map_getD_range values false)
    rw [Function.comp_apply, bitOf_packBits hbyte (List.mem_range.mp hj)]
    cases values.getD j false <;> rfl
  simp only [Query.outcome, hret, transact_rsp, Int.toNat_natCast]
  rw [if_neg (by omega), hvalues]

/-- What a call that reads registers makes of its answer. -/
lemma registers_of_answer {n : ℕ}
    (hasks : AsksRegisters slave (Buffer.ofList (request.message slave)) n)
    {values : List (BitVec 16)} (hlength : values.length = n)
    (h : (line s (sendMsg (request.message slave))).1.Brings
      (sendMsg (registersAnswer slave request.function values))) (errno : ℕ) :
    (transact slave line s (request.message slave) errno).registers =
      ⟨⟨n, errno⟩, values, (line s (sendMsg (request.message slave))).2⟩ := by
  have hfunction := (message_apply slave request).2.1
  have hconfirms := (confirms_data_iff hasks.asksData _).mpr ⟨values.flatMap wordBytes, by
    rw [length_flatMap_wordBytes, hasks.dataLength, hlength], by rw [hfunction]; exact h⟩
  have hvalues := registers_of_brings h
  rw [registers_of_confirms hasks hconfirms, ← hlength, hvalues]

/-- What a call that writes makes of its answer. -/
lemma write_of_answer {payload : List Byte} (hfunction : AnswersWrite request.function)
    (hlength : payload.length = payloadLength request.function)
    (hcounts : Counts request.function → payload.drop 2 = wordBytes request.second)
    (h : (line s (sendMsg (request.message slave))).1.Brings
      (sendMsg ([slave, request.function] ++ payload))) (errno : ℕ) :
    (transact slave line s (request.message slave) errno).ret =
      ⟨(if Counts request.function then request.second.toNat else 1 : ℕ), errno⟩ := by
  obtain ⟨h0, h1, -, h4, -⟩ := message_apply slave request
  have hasks : AsksWrite slave (Buffer.ofList (request.message slave)) := ⟨h0, h1 ▸ hfunction⟩
  have hconfirms := (confirms_write_iff hasks.slave hasks.function _).mpr
    ⟨payload, by rw [h1, hlength], by rw [h1, h4]; exact hcounts, by rw [h1]; exact h⟩
  rw [write_of_confirms hasks hconfirms, writtenNb, h1, h4]

/-- What a call that writes several values makes of its answer. -/
lemma write_of_counted (request : Query) (hcounts : Counts request.function)
    (h : (line s (sendMsg (request.message slave))).1.Brings
      (sendMsg ((request.message slave).take 6))) (errno : ℕ) :
    (transact slave line s (request.message slave) errno).ret =
      ⟨request.second.toNat, errno⟩ := by
  have hfunction : AnswersWrite request.function := by
    rcases hcounts with hc | hc
    · exact Or.inr (Or.inr (Or.inl hc))
    · exact Or.inr (Or.inr (Or.inr (Or.inl hc)))
  have hlength : (wordBytes request.addr ++ wordBytes request.second).length =
      payloadLength request.function := by
    rcases hcounts with hc | hc <;> rw [hc] <;> rfl
  have htake : (request.message slave).take 6 =
      [slave, request.function] ++ (wordBytes request.addr ++ wordBytes request.second) := by
    rw [message_eq]
    rfl
  rw [htake] at h
  rw [write_of_answer hfunction hlength (fun _ => rfl) h, if_pos hcounts]

/-- What a call that writes one value makes of its answer. -/
lemma write_of_repeated (request : Query) (hfunction : AnswersWrite request.function)
    (hcounts : ¬ Counts request.function)
    (hrest : 4 + request.rest.length = payloadLength request.function)
    (h : (line s (sendMsg (request.message slave))).1.Brings (sendMsg (request.message slave)))
    (errno : ℕ) : (transact slave line s (request.message slave) errno).ret = ⟨1, errno⟩ := by
  have hlength : (wordBytes request.addr ++ wordBytes request.second ++ request.rest).length =
      payloadLength request.function := by
    rw [← hrest, List.length_append]
    rfl
  have hbrings : (line s (sendMsg (request.message slave))).1.Brings (sendMsg
      ([slave, request.function] ++
        (wordBytes request.addr ++ wordBytes request.second ++ request.rest))) := by
    rw [← List.append_assoc, ← List.append_assoc, ← message_eq]
    exact h
  have hret := write_of_answer hfunction hlength (fun hc => absurd hc hcounts) hbrings errno
  rwa [if_neg hcounts] at hret

/-- **A call returns what the answer to its request carries.** -/
theorem Query.call_of_answer (hvalid : request.Valid) {answer : Response}
    (hanswer : request.Asks answer)
    (h : (line s (sendMsg (request.message slave))).1.Brings
      (sendMsg (request.answer slave answer))) (errno : ℕ) :
    (request.call slave line s errno).1 = ⟨⟨request.count, errno⟩, answer⟩ := by
  rw [request.call_eq slave line s errno hvalid]
  cases request with
  | readBits input addr nb =>
      cases answer with
      | bits values =>
          obtain rfl : values.length = nb := hanswer
          exact outcome_readBits hvalid.2 h errno
      | registers values => exact absurd hanswer id
      | done => exact absurd hanswer id
  | readRegisters input addr nb =>
      cases answer with
      | bits values => exact absurd hanswer id
      | registers values =>
          have hasks := asksRegisters_message slave (.readRegisters input addr nb)
            (by cases input <;> simp [AnswersRegisters, Query.function]) rfl hvalid.2
          have hregisters := registers_of_answer hasks hanswer h errno
          simp only [Query.outcome, hregisters]
          rfl
      | done => exact absurd hanswer id
  | writeBit addr status =>
      cases answer with
      | bits values => exact absurd hanswer id
      | registers values => exact absurd hanswer id
      | done =>
          have hplain : ¬ Counts fcWriteSingleCoil := by decide
          have hret := write_of_repeated (.writeBit addr status) (Or.inl rfl) hplain
            rfl h errno
          exact congrArg (Outcome.mk · .done) hret
  | writeRegister addr value =>
      cases answer with
      | bits values => exact absurd hanswer id
      | registers values => exact absurd hanswer id
      | done =>
          have hplain : ¬ Counts fcWriteSingleRegister := by decide
          have hret := write_of_repeated (.writeRegister addr value)
            (Or.inr (Or.inl rfl)) hplain rfl h errno
          exact congrArg (Outcome.mk · .done) hret
  | writeBits addr src =>
      cases answer with
      | bits values => exact absurd hanswer id
      | registers values => exact absurd hanswer id
      | done =>
          have hret := write_of_counted (.writeBits addr src) (Or.inl rfl) h errno
          have hsecond : (Query.writeBits addr src).second.toNat = src.length := by
            have hle := hvalid.2
            rw [Query.second, BitVec.toNat_ofNat]
            omega
          rw [hsecond] at hret
          exact congrArg (Outcome.mk · .done) hret
  | writeRegisters addr src =>
      cases answer with
      | bits values => exact absurd hanswer id
      | registers values => exact absurd hanswer id
      | done =>
          have hret := write_of_counted (.writeRegisters addr src) (Or.inr rfl) h errno
          have hsecond : (Query.writeRegisters addr src).second.toNat = src.length := by
            have hle := hvalid.2
            rw [Query.second, BitVec.toNat_ofNat]
            omega
          rw [hsecond] at hret
          exact congrArg (Outcome.mk · .done) hret
  | maskWriteRegister addr andMask orMask =>
      cases answer with
      | bits values => exact absurd hanswer id
      | registers values => exact absurd hanswer id
      | done =>
          have hplain : ¬ Counts fcMaskWriteRegister := by decide
          have hret := write_of_repeated (.maskWriteRegister addr andMask orMask)
            (Or.inr (Or.inr (Or.inr (Or.inr rfl)))) hplain rfl h errno
          exact congrArg (Outcome.mk · .done) hret
  | writeAndReadRegisters writeAddr src readAddr readNb =>
      cases answer with
      | bits values => exact absurd hanswer id
      | registers values =>
          have hasks := asksRegisters_message slave
            (.writeAndReadRegisters writeAddr src readAddr readNb)
            (Or.inr (Or.inr rfl)) rfl hvalid.2.2
          have hregisters := registers_of_answer hasks hanswer h errno
          simp only [Query.outcome, hregisters]
          rfl
      | done => exact absurd hanswer id

end PanelFirmware.Libmodbus
