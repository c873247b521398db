import PanelFirmware.Libmodbus.Session

/-!
# What lies behind a message

Both ends receive into arrays that they do not clear: behind what has been received stand the bytes
of earlier messages, or whatever was in memory. Where the length, the counts and the checksum of a
message are read off such an array, they may be read behind its end.

* `receiveMsg_congr`: whether a message is received does not depend on what lies behind it.
* `round_and_call_congr`: neither does what a slave does with it, nor what a call makes of it.
-/

namespace PanelFirmware.Libmodbus

open PanelFirmware.Lib

/-- Two receptions of the same bytes. -/
structure Reception.Same (r r' : Reception) : Prop where
  res : r'.res = r.res
  msg : ∀ i : ℕ, (i : ℤ) < r.res → r.msg i = r'.msg i

variable {slave : Byte} {r r' : Reception}

/-- The roles may be exchanged. -/
lemma Reception.Same.symm (h : r.Same r') : r'.Same r :=
  ⟨h.res.symm, fun i hi => (h.msg i (h.res ▸ hi)).symm⟩

/-- A message that announces what has been received announces it whatever lies behind. -/
lemma Reception.Same.lengthToRead (h : r.Same r') {msgType : MsgType}
    (hres : r.res = lengthToRead r.msg msgType) :
    Libmodbus.lengthToRead r'.msg msgType = Libmodbus.lengthToRead r.msg msgType := by
  apply lengthToRead_congr
  intro i hi
  exact h.msg i (by omega)

/-- **Whether a message is received does not depend on what lies behind it.** -/
theorem receiveMsg_congr (h : r.Same r') (slave : Byte) (msgType : MsgType) (errno : ℕ) :
    receiveMsg slave r msgType errno = receiveMsg slave r' msgType errno := by
  by_cases hres : r.res = lengthToRead r.msg msgType
  · have hlength := h.lengthToRead hres
    have hres' : r'.res = lengthToRead r'.msg msgType := by rw [h.res, hres, hlength]
    have hle := le_lengthToRead r.msg msgType
    have hagree : ∀ i, i < lengthToRead r.msg msgType → r.msg i = r'.msg i :=
      fun i hi => h.msg i (by omega)
    rw [receiveMsg_of_res hres, receiveMsg_of_res hres', hlength]
    simp only [checkIntegrity, hagree 0 (by omega), bytes_congr hagree (Nat.sub_le _ 2),
      word_congr hagree (show lengthToRead r.msg msgType - 2 + 1 < _ by omega)]
  · have hres' : r'.res ≠ lengthToRead r'.msg msgType := by
      intro hres'
      have hlength := h.symm.lengthToRead hres'
      rw [h.res, ← hlength] at hres'
      exact hres hres'
    rw [receiveMsg_of_res_ne hres, receiveMsg_of_res_ne hres', h.res]

/-- What a slave does with a message. -/
lemma Server.round_congr (version : List Byte) (v : Server) (h : r.Same r') :
    v.round version slave r = v.round version slave r' := by
  by_cases hignore : v.confirmationToIgnore = true
  · rw [Server.round_of_ignore hignore, Server.round_of_ignore hignore]
  · rw [Server.round, Server.round, rtuReceive, rtuReceive, if_neg hignore, if_neg hignore,
      ← receiveMsg_congr h]
    by_cases haccepted : Accepted slave r .indication
    · have hlength := h.lengthToRead haccepted.res
      have hreply : modbusReply version v.mapping r.msg (lengthToRead r.msg .indication) =
          modbusReply version v.mapping r'.msg (lengthToRead r.msg .indication) := by
        apply modbusReply_congr
        intro i hi
        exact h.msg i (by rw [haccepted.res]; omega)
      simp only [receiveMsg_of_accepted haccepted, Int.toNat_natCast, hreply]
    · have hrc : ¬ 0 < (receiveMsg slave r .indication 0).rc := by
        rw [receiveMsg_pos_iff]
        exact haccepted
      simp only [if_neg hrc]

/-- What a call makes of its confirmation. -/
lemma checkConfirmation_congr (h : r.Same r') (hres : r.res = lengthToRead r.msg .confirmation)
    (req : Buffer) (rspLength : ℤ) (errno : ℕ) :
    checkConfirmation req r.msg rspLength errno = checkConfirmation req r'.msg rspLength errno := by
  have hle := le_lengthToRead r.msg .confirmation
  have h0 := h.msg 0 (by omega)
  have h1 := h.msg 1 (by omega)
  have h2 := h.msg 2 (by omega)
  have hcount : nbValues req r.msg = nbValues req r'.msg := by
    by_cases hcounts : Counts (r.msg 1)
    · have hread : lengthToRead r.msg .confirmation = 8 := by
        rw [lengthToRead_write (by
          rcases hcounts with hc | hc
          · exact Or.inr (Or.inr (Or.inl hc))
          · exact Or.inr (Or.inr (Or.inr (Or.inl hc))))]
        rcases hcounts with hc | hc <;> rw [hc] <;> rfl
      have h4 := h.msg 4 (by omega)
      have h5 := h.msg 5 (by omega)
      have hword : r.msg.word 4 = r'.msg.word 4 := by
        rw [Buffer.word, Buffer.word, h4, h5]
      rw [nbValues, nbValues, hword, h2, h1]
    · have hcounts' : ¬(r.msg 1 = fcWriteMultipleCoils ∨ r.msg 1 = fcWriteMultipleRegisters) :=
        hcounts
      rw [nbValues, nbValues, ← h1]
      simp only [if_neg hcounts', h2]
  simp only [checkConfirmation, hcount, h0, h1, h2]

variable {σ : Type} {line line' : Line σ} {s : σ}

/-- What a call returns before it copies values. -/
lemma transact_ret_congr (slave : Byte) {req : List Byte}
    (h : (line s (sendMsg req)).1.Same (line' s (sendMsg req)).1) (errno : ℕ) :
    (transact slave line s req errno).ret = (transact slave line' s req errno).ret := by
  simp only [transact, ← receiveMsg_congr h]
  by_cases hrc : (receiveMsg slave (line s (sendMsg req)).1 .confirmation errno).rc = -1
  · rw [if_pos hrc, if_pos hrc]
  · rw [if_neg hrc, if_neg hrc]
    by_cases hres : (line s (sendMsg req)).1.res =
        lengthToRead (line s (sendMsg req)).1.msg .confirmation
    · exact checkConfirmation_congr h hres _ _ _
    · exact absurd (congrArg Return.rc (receiveMsg_of_res_ne hres slave errno)) hrc

/-- The bytes of an answer that carries data have been received. -/
lemma lt_res_of_confirms {req : Buffer} (hreq : AsksData slave req)
    (h : Confirms slave req r) : r.res = 5 + dataLength req := by
  obtain ⟨data, hlength, hbrings⟩ := (confirms_data_iff hreq r).mp h
  rw [hbrings.res, length_sendMsg, dataAnswer, List.length_append, hlength]
  simp only [List.length_cons, List.length_nil]
  omega

/-- The bits that a call copies. -/
lemma ioStatusValues_congr {a b : Buffer} {nb : ℕ}
    (h : ∀ i, i < (nb + 7) / 8 → a (3 + i) = b (3 + i)) :
    ioStatusValues a ((nb + 7) / 8) nb = ioStatusValues b ((nb + 7) / 8) nb := by
  rw [ioStatusValues_eq, ioStatusValues_eq]
  refine List.map_congr_left fun j hj => ?_
  have hlt := List.mem_range.mp hj
  rw [bitOf, bitOf, h (j / 8) (by omega)]

/-- The registers that a call copies. -/
lemma registers_congr {req : List Byte} {n : ℕ}
    (hasks : AsksRegisters slave (Buffer.ofList req) n)
    (h : (line s (sendMsg req)).1.Same (line' s (sendMsg req)).1)
    (hconfirms : Confirms slave (Buffer.ofList req) (line s (sendMsg req)).1) (errno : ℕ) :
    let x := (transact slave line s req errno).registers
    let x' := (transact slave line' s req errno).registers
    x.ret = x'.ret ∧ x.dest = x'.dest := by
  have hret := data_of_confirms hasks.asksData hconfirms errno
  rw [if_neg (not_answersBits hasks.function), hasks.nb] at hret
  have hres := lt_res_of_confirms hasks.asksData hconfirms
  rw [hasks.dataLength] at hres
  have hne : ¬ (n : ℤ) = -1 := by omega
  simp only [Exchange.registers, ← transact_ret_congr slave h, hret, transact_rsp, if_neg hne,
    Int.toNat_natCast]
  refine ⟨trivial, List.map_congr_left fun i hi => ?_⟩
  have hlt := List.mem_range.mp hi
  rw [Buffer.word, Buffer.word, h.msg (3 + 2 * i) (by omega), h.msg (3 + 2 * i + 1) (by omega)]

/-- **Nothing behind a message counts**, neither for what a slave does with it nor for what a call
returns and reads. -/
theorem round_and_call_congr (version : List Byte) (v : Server) (hquery : r.Same r')
    {request : Query} (hvalid : request.Valid)
    (hrsp : (line s (sendMsg (request.message slave))).1.Same
      (line' s (sendMsg (request.message slave))).1) (errno : ℕ) :
    v.round version slave r = v.round version slave r' ∧
      (request.call slave line s errno).1 = (request.call slave line' s errno).1 := by
  refine ⟨Server.round_congr version v hquery, ?_⟩
  have hret := transact_ret_congr slave hrsp errno
  rw [request.call_eq slave line s errno hvalid, request.call_eq slave line' s errno hvalid]
  by_cases hconfirms : Confirms slave (Buffer.ofList (request.message slave))
      (line s (sendMsg (request.message slave))).1
  · cases request with
    | readBits input addr nb =>
        obtain ⟨hbits, hdata⟩ := dataLength_readBits slave input addr hvalid.2
        have hasks := asksData_readBits slave input addr hvalid.2
        have hrc := data_of_confirms hasks hconfirms errno
        have hres := lt_res_of_confirms hasks hconfirms
        rw [if_pos hbits, hdata] at hrc
        rw [hdata] at hres
        simp only [Query.outcome, ← hret, hrc, transact_rsp, Int.toNat_natCast]
        rw [ioStatusValues_congr fun i hi => hrsp.msg (3 + i) (by omega)]
    | readRegisters input addr nb =>
        have hfunction : AnswersRegisters (Query.readRegisters input addr nb).function := by
          cases input <;> simp [AnswersRegisters, Query.function]
        have hasks := asksRegisters_message slave (.readRegisters input addr nb) hfunction rfl
          hvalid.2
        obtain ⟨hrc, hdest⟩ := registers_congr hasks hrsp hconfirms errno
        simp only [Query.outcome, hrc, hdest]
    | writeBit addr status => exact congrArg (Outcome.mk · .done) hret
    | writeRegister addr value => exact congrArg (Outcome.mk · .done) hret
    | writeBits addr src => exact congrArg (Outcome.mk · .done) hret
    | writeRegisters addr src => exact congrArg (Outcome.mk · .done) hret
    | maskWriteRegister addr andMask orMask => exact congrArg (Outcome.mk · .done) hret
    | writeAndReadRegisters writeAddr src readAddr readNb =>
        have hasks := asksRegisters_message slave
          (.writeAndReadRegisters writeAddr src readAddr readNb) (Or.inr (Or.inr rfl)) rfl
          hvalid.2.2
        obtain ⟨hrc, hdest⟩ := registers_congr hasks hrsp hconfirms errno
        simp only [Query.outcome, hrc, hdest]
  · have hfailed := transact_of_not_confirms hconfirms
      (computeResponseLength_message slave request) errno
    rw [outcome_of_failed request hfailed, outcome_of_failed request (hret ▸ hfailed), hret]

/-- A reception does not depend on what the buffer held. -/
lemma Reception.same_of (msg msg' : Buffer) (frame : List Byte) :
    (Reception.of msg frame).Same (Reception.of msg' frame) := by
  refine ⟨rfl, fun i hi => ?_⟩
  have hlt : i < frame.length := Int.ofNat_lt.mp hi
  have hget := List.getElem?_eq_getElem hlt
  exact (Buffer.write_apply hget).trans (Buffer.write_apply hget).symm

/-- A read of a register between buffers of zeros and buffers of ones. -/
theorem round_and_call_small :
    let query := sendMsg ((Query.readRegisters false 0 1).message 1)
    let rsp := sendMsg [1, 3, 2, 0, 7]
    let v : Server := ⟨⟨0, 0, 0, 0, [], [], [], [7]⟩, false⟩
    v.round [] 1 (Reception.of (fun _ => 0) query) =
        v.round [] 1 (Reception.of (fun _ => 0xFF) query) ∧
      ((Query.readRegisters false 0 1).call 1
          (fun (s : Unit) _ => (Reception.of (fun _ => 0) rsp, s)) () 0).1 =
        ((Query.readRegisters false 0 1).call 1
          (fun (s : Unit) _ => (Reception.of (fun _ => 0xFF) rsp, s)) () 0).1 := by
  have hvalid : (Query.readRegisters false 0 1).Valid := ⟨by decide, by decide⟩
  exact round_and_call_congr [] ⟨⟨0, 0, 0, 0, [], [], [], [7]⟩, false⟩
    (Reception.same_of (fun _ => 0) (fun _ => 0xFF) _) hvalid
    (Reception.same_of (fun _ => 0) (fun _ => 0xFF) _) 0

end PanelFirmware.Libmodbus
