import PanelFirmware.Libmodbus.Call

/-!
# Sessions over a line that loses and damages messages

A master calls a slave whose server replies to what it receives. On the way a message may be lost
or damaged within sixteen consecutive bits, and what the buffers held before is arbitrary. A slave
that takes a message for another's waits for the confirmation of it, and so ignores the next
message.

* `Bus.call_takes`: a call is served once or not at all, and succeeds only when it was served, with
  what the slave has read.
* `runCalls_explained`: the calls of a session that were served, in their order, account for the
  tables of the slave and for what every successful call has read.
* `serve_again`: a request that is served again changes nothing and reads the same.
-/

namespace PanelFirmware.Libmodbus

open PanelFirmware.Lib PanelFirmware.Utils

/-! ### The slave -/

/-- A slave: its tables, and whether the next message is the confirmation of another's.
Source: `modbus-rtu-private.h` `modbus_rtu_t`, `confirmation_to_ignore`. -/
structure Server where
  mapping : Mapping
  confirmationToIgnore : Bool

/-- Errors of a confirmation to ignore are ignored. Source: `modbus-rtu.c` `_modbus_rtu_receive`. -/
def rtuReceive (slave : Byte) (confirmationToIgnore : Bool) (r : Reception) (errno : ℕ) :
    Return × Bool :=
  if confirmationToIgnore then (⟨0, (receiveMsg slave r .confirmation errno).errno⟩, false)
  else
    let got := receiveMsg slave r .indication errno
    (got, decide (got.rc = 0))

/-- What a server does with a message: it replies to a request. `none` where it leaves a table.
Source: `modbus.c` `modbus_receive`, `modbus_reply`, called one after the other as by
`unit-test-server.c` `main`. The special cases of its loop are left out, and so are its reply to a
message with a wrong checksum and its exits: this server goes on after an error, and one that does
not is a line on which the later requests are lost. -/
def Server.round (version : List Byte) (slave : Byte) (v : Server) (r : Reception) :
    Option (Server × Option (List Byte)) :=
  let (got, confirmationToIgnore) := rtuReceive slave v.confirmationToIgnore r 0
  if 0 < got.rc then
    (modbusReply version v.mapping r.msg got.rc.toNat).map fun reply =>
      (⟨reply.1, confirmationToIgnore⟩, reply.2)
  else some (⟨v.mapping, confirmationToIgnore⟩, none)

/-! ### The line -/

/-- What happens to a message: `none` where it is lost, else what is added to its bits. -/
abbrev Noise := Option (ℕ → Byte)

/-- What arrives of a message. -/
def Noise.arrives (noise : Noise) (frame : List Byte) : Option (List Byte) :=
  noise.map fun pattern => xorBytes frame ((List.range frame.length).map pattern)

/-- Damage within sixteen consecutive bits. -/
def WithinSixteen (pattern : ℕ → Byte) : Prop :=
  ∃ p, ∀ n i, (bytesBits ((List.range n).map pattern))[i]? = some true → p ≤ i ∧ i < p + 16

/-- The faults of a transaction, and what the buffers at both ends held before. -/
structure Fault where
  request : Noise
  answer : Noise
  query : Buffer
  rsp : Buffer

/-- The faults that a checksum is there for. -/
structure Fault.Tolerable (fault : Fault) : Prop where
  request : ∀ pattern, fault.request = some pattern → WithinSixteen pattern
  answer : ∀ pattern, fault.answer = some pattern → WithinSixteen pattern

/-- No fault. -/
structure Fault.Clean (fault : Fault) : Prop where
  request : fault.request = some fun _ => 0
  answer : fault.answer = some fun _ => 0

/-- What the master receives: a time-out where nothing arrives. -/
def Fault.reception (fault : Fault) (answer : Option (List Byte)) : Reception :=
  match answer.bind fault.answer.arrives with
  | some rsp => Reception.of fault.rsp rsp
  | none => ⟨fault.rsp, -2⟩

/-- The slave, `none` once it has left a table, and the faults to come. -/
structure Bus where
  server : Option Server
  faults : ℕ → Fault

/-- The slave after a message that arrives, and its answer. -/
def Bus.served (version : List Byte) (slave : Byte) (b : Bus) (frame : List Byte) :
    Option Server × Option (List Byte) :=
  match b.server, (b.faults 0).request.arrives frame with
  | some v, some query =>
      match v.round version slave (Reception.of (b.faults 0).query query) with
      | some (v', answer) => (some v', answer)
      | none => (none, none)
  | server, _ => (server, none)

/-- The line of a bus. -/
def Bus.line (version : List Byte) (slave : Byte) : Line Bus := fun b frame =>
  let (server, answer) := b.served version slave frame
  ((b.faults 0).reception answer, ⟨server, fun i => b.faults (i + 1)⟩)

/-! ### What a server does with a message -/

/-- The length that a message announces is in the bytes that it announces, without its checksum. -/
lemma lengthToRead_congr {a b : Buffer} {msgType : MsgType}
    (h : ∀ i, i < lengthToRead a msgType - 2 → a i = b i) :
    lengthToRead b msgType = lengthToRead a msgType := by
  have hle := le_lengthToRead a msgType
  have h1 := h 1 (by omega)
  cases msgType with
  | indication =>
      have h6 : a 1 = fcWriteMultipleCoils ∨ a 1 = fcWriteMultipleRegisters → b 6 = a 6 := by
        intro hmany
        refine (h 6 ?_).symm
        rw [lengthToRead_indication, if_neg (by rcases hmany with hf | hf <;> rw [hf] <;> decide),
          if_pos hmany]
        omega
      have h10 : a 1 = fcWriteAndReadRegisters → b 10 = a 10 := by
        intro hboth
        refine (h 10 ?_).symm
        rw [lengthToRead_indication, if_neg (by rw [hboth]; decide), if_neg (by rw [hboth]; decide),
          if_neg (by rw [hboth]; decide), if_pos hboth]
        omega
      simp only [lengthToRead, computeDataLengthAfterMeta, ← h1]
      by_cases hmany : a 1 = fcWriteMultipleCoils ∨ a 1 = fcWriteMultipleRegisters
      · rw [if_pos hmany, if_pos hmany, h6 hmany]
      · rw [if_neg hmany, if_neg hmany]
        by_cases hboth : a 1 = fcWriteAndReadRegisters
        · rw [if_pos hboth, if_pos hboth, h10 hboth]
        · rw [if_neg hboth, if_neg hboth]
  | confirmation =>
      simp only [lengthToRead, computeDataLengthAfterMeta, ← h1]
      by_cases hdata : a 1 ≤ fcReadInputRegisters ∨ a 1 = fcReportSlaveId ∨
          a 1 = fcWriteAndReadRegisters ∨ a 1 = fcFilerecordWrite
      · have h2 : a 2 = b 2 := by
          refine h 2 ?_
          have hmeta : computeMetaLengthAfterFunction (a 1) .confirmation ≠ 0 := by
            simp only [computeMetaLengthAfterFunction]
            split_ifs <;> decide
          simp only [lengthToRead, computeDataLengthAfterMeta]
          omega
        rw [if_pos hdata, if_pos hdata, h2]
      · rw [if_neg hdata, if_neg hdata]

/-- A request announces its own length. -/
lemma lengthToRead_message (slave : Byte) {request : Query} (hvalid : request.Valid) :
    lengthToRead (Buffer.ofList (request.message slave)) .indication =
      (request.message slave).length + 2 := by
  have hle := le_lengthToRead (Buffer.ofList (request.message slave)) .indication
  have hlength : (request.message slave).length = 6 + request.rest.length := by
    rw [message_eq, List.length_append]
    rfl
  have hread := lengthToRead_indication (Buffer.ofList (request.message slave))
  obtain ⟨-, h1, -, -, hrest⟩ := message_apply slave request
  have h6 := hrest 0
  have h10 := hrest 4
  rw [h1] at hread
  suffices hbytes : lengthToRead (Buffer.ofList (request.message slave)) .indication - 2 =
      6 + request.rest.length by omega
  rw [hread]
  cases request with
  | readBits input addr nb => cases input <;> rfl
  | readRegisters input addr nb => cases input <;> rfl
  | writeBit addr status => rfl
  | writeRegister addr value => rfl
  | writeBits addr src =>
      have hcount : (Buffer.ofList ((Query.writeBits addr src).message slave) 6).toNat =
          (src.length + 7) / 8 := by
        have hle' := hvalid.2
        rw [h6]
        change (BitVec.ofNat 8 ((src.length + 7) / 8)).toNat = _
        rw [BitVec.toNat_ofNat]
        omega
      rw [hcount, Query.rest, List.length_cons, length_packBits]
      change 7 + (src.length + 7) / 8 = _
      omega
  | writeRegisters addr src =>
      have hcount : (Buffer.ofList ((Query.writeRegisters addr src).message slave) 6).toNat =
          2 * src.length := by
        have hle' := hvalid.2
        rw [h6]
        change (BitVec.ofNat 8 (2 * src.length)).toNat = _
        rw [BitVec.toNat_ofNat]
        omega
      rw [hcount, Query.rest, List.length_cons, length_flatMap_wordBytes]
      change 7 + 2 * src.length = _
      omega
  | maskWriteRegister addr andMask orMask => rfl
  | writeAndReadRegisters writeAddr src readAddr readNb =>
      have hcount : (Buffer.ofList ((Query.writeAndReadRegisters writeAddr src readAddr
          readNb).message slave) 10).toNat = 2 * src.length := by
        have hle' := hvalid.1.2
        rw [h10]
        change (BitVec.ofNat 8 (2 * src.length)).toNat = _
        rw [BitVec.toNat_ofNat]
        omega
      rw [hcount, Query.rest, List.length_append, List.length_cons, length_flatMap_wordBytes]
      change 11 + 2 * src.length = _
      simp only [wordBytes, List.length_append, List.length_cons, List.length_nil]
      omega

variable {version : List Byte} {slave : Byte} {v : Server} {r : Reception} {request : Query}

/-- A message that is no request to the slave changes no table and is not answered. -/
lemma Server.round_of_not_accepted (version : List Byte) (v : Server)
    (h : ¬ Accepted slave r .indication) :
    ∃ confirmationToIgnore,
      v.round version slave r = some (⟨v.mapping, confirmationToIgnore⟩, none) := by
  rw [Server.round, rtuReceive]
  by_cases hignore : v.confirmationToIgnore = true
  · rw [if_pos hignore]
    exact ⟨false, rfl⟩
  · have hrc : ¬ 0 < (receiveMsg slave r .indication 0).rc := by
      rw [receiveMsg_pos_iff]
      exact h
    rw [if_neg hignore]
    simp only [if_neg hrc]
    exact ⟨_, rfl⟩

/-- A message that is taken for a confirmation changes no table and is not answered. -/
lemma Server.round_of_ignore (h : v.confirmationToIgnore = true) (r : Reception) :
    v.round version slave r = some (⟨v.mapping, false⟩, none) := by
  rw [Server.round, rtuReceive, if_pos h]
  rfl

/-- A request is accepted, and announces its own length. -/
lemma accepted_message (hvalid : request.Valid)
    (h : r.Brings (sendMsg (request.message slave))) :
    Accepted slave r .indication ∧
      lengthToRead r.msg .indication = (request.message slave).length + 2 ∧
      ∀ i, i < (request.message slave).length →
        Buffer.ofList (request.message slave) i = r.msg i := by
  have hbytes : ∀ i, i < (request.message slave).length →
      Buffer.ofList (request.message slave) i = r.msg i := by
    intro i hi
    have hget : (request.message slave)[i]? = some (request.message slave)[i] :=
      List.getElem?_eq_getElem hi
    rw [ofList_apply hget]
    refine (h.apply ?_).symm
    rw [sendMsg_eq, List.getElem?_append_left hi, hget]
  have hread := lengthToRead_message slave hvalid
  have hlength : lengthToRead r.msg .indication = (request.message slave).length + 2 := by
    rw [← hread]
    apply lengthToRead_congr
    rw [hread, Nat.add_sub_cancel]
    exact hbytes
  have hpos : 0 < (request.message slave).length := by
    have hle := le_lengthToRead r.msg .indication
    omega
  refine ⟨⟨?_, Or.inl ?_, ?_⟩, hlength, hbytes⟩
  · rw [h.res, hlength, length_sendMsg]
  · rw [← hbytes 0 hpos]
    exact (message_apply slave request).1
  · rw [hlength, h.bytes_take (by rw [length_sendMsg]), Nat.add_sub_cancel,
      h.bytes_take (by rw [length_sendMsg]; omega), take_sendMsg, ← length_sendMsg,
      List.take_length]

/-- A request that is received is replied to. -/
lemma Server.round_of_message (version : List Byte) (hvalid : request.Valid)
    (hignore : v.confirmationToIgnore = false) (hslave : slave ≠ 0)
    (h : r.Brings (sendMsg (request.message slave))) :
    v.round version slave r =
      (buildReply version v.mapping (Buffer.ofList (request.message slave))
        (request.message slave).length).map fun reply =>
          (⟨reply.1, false⟩, reply.2.map sendMsg) := by
  obtain ⟨haccepted, hlength, hbytes⟩ := accepted_message hvalid h
  have hread := lengthToRead_message slave hvalid
  have hpos : 0 < (lengthToRead r.msg .indication : ℤ) := by
    have hle := le_lengthToRead r.msg .indication
    omega
  have hreply : modbusReply version v.mapping r.msg (lengthToRead r.msg .indication) =
      modbusReply version v.mapping (Buffer.ofList (request.message slave))
        ((request.message slave).length + 2) := by
    rw [hlength, ← hread]
    refine (modbusReply_congr version v.mapping ?_).symm
    rw [hread, Nat.add_sub_cancel]
    exact hbytes
  have haddress : ¬ Buffer.ofList (request.message slave) 0 = 0 := by
    rw [(message_apply slave request).1]
    exact hslave
  rw [Server.round, rtuReceive, hignore, if_neg Bool.false_ne_true]
  have hne : ¬ (lengthToRead r.msg .indication : ℤ) = 0 := by omega
  simp only [receiveMsg_of_accepted haccepted, if_pos hpos, Int.toNat_natCast, decide_eq_false hne]
  rw [hreply, modbusReply, Option.map_map, Nat.add_sub_cancel]
  congr 1
  funext reply
  rw [Function.comp_apply, if_neg haddress]

/-! ### What arrives -/

/-- Bytes of zero have no bits. -/
lemma true_not_mem_zero (n : ℕ) :
    true ∉ bytesBits ((List.range n).map fun _ => (0 : Byte)) := by
  rw [List.map_const', bytesBits, List.mem_flatMap]
  rintro ⟨b, hb, hset⟩
  rw [List.eq_of_mem_replicate hb] at hset
  exact absurd hset (by decide)

/-- Nothing is added to a message. -/
@[simp] lemma arrives_clean (frame : List Byte) :
    Noise.arrives (some fun _ => 0) frame = some frame := by
  rw [Noise.arrives, Option.map_some, xorBytes_of_not_mem (by rw [List.length_map,
    List.length_range]) (true_not_mem_zero _)]

/-- A message is lost, or arrives, or makes no message. -/
lemma arrives_cases {noise : Noise}
    (h : ∀ pattern, noise = some pattern → WithinSixteen pattern) {msg : List Byte}
    (hmsg : msg ≠ []) :
    noise.arrives (sendMsg msg) = none ∨ noise.arrives (sendMsg msg) = some (sendMsg msg) ∨
      ∃ frame, noise.arrives (sendMsg msg) = some frame ∧ ∀ msg', frame ≠ sendMsg msg' := by
  cases noise with
  | none => exact Or.inl rfl
  | some pattern =>
      obtain ⟨p, hwin⟩ := h pattern rfl
      have hlen :
          ((List.range (sendMsg msg).length).map pattern).length = (sendMsg msg).length := by
        rw [List.length_map, List.length_range]
      by_cases hset : true ∈ bytesBits ((List.range (sendMsg msg).length).map pattern)
      · exact Or.inr (Or.inr ⟨_, rfl, xorBytes_sendMsg_ne hmsg hlen p hset (hwin _)⟩)
      · exact Or.inr (Or.inl (congrArg some (xorBytes_of_not_mem hlen hset)))

/-- What makes no message is not accepted. -/
lemma not_accepted_of_ne (slave : Byte) {frame : List Byte} (h : r.Brings frame)
    (hne : ∀ msg, frame ≠ sendMsg msg) (msgType : MsgType) : ¬ Accepted slave r msgType := by
  intro haccepted
  have hres := haccepted.res
  rw [h.res] at hres
  have hlength : lengthToRead r.msg msgType = frame.length := by omega
  have hcrc := haccepted.crc
  rw [hlength, h.bytes] at hcrc
  exact hne _ hcrc

/-- A time-out is not accepted. -/
lemma not_accepted_of_timeout (msg : Buffer) (msgType : MsgType) :
    ¬ Accepted slave ⟨msg, -2⟩ msgType := by
  intro haccepted
  have hle := le_lengthToRead msg msgType
  have hres : (-2 : ℤ) = lengthToRead msg msgType := haccepted.res
  omega

/-- A message is not empty. -/
lemma message_ne_nil (slave : Byte) (request : Query) : request.message slave ≠ [] := by
  rw [message_eq]
  exact List.cons_ne_nil _ _

/-- Nor is an answer. -/
lemma answer_ne_nil (slave : Byte) (request : Query) (answer : Response) :
    request.answer slave answer ≠ [] := by
  cases answer with
  | bits values => exact List.cons_ne_nil _ _
  | registers values => exact List.cons_ne_nil _ _
  | done =>
      rw [Query.answer, message_eq]
      split_ifs
      · exact List.cons_ne_nil _ _
      · exact List.cons_ne_nil _ _

/-! ### A call -/

/-- What a call may make of the tables of the slave: nothing, or what its request says, once; it
succeeds only in the second case. -/
inductive Takes (request : Query) (d : Device) : Outcome → Device → Prop
  | served {answer : Response} {d' : Device} (errno : ℕ)
      (hserve : d.serve request = some (answer, d')) :
      Takes request d ⟨⟨request.count, errno⟩, answer⟩ d'
  | unconfirmed {answer : Response} {d' : Device} {o : Outcome}
      (hserve : d.serve request = some (answer, d')) (hfailed : o.ret.rc = -1) :
      Takes request d o d'
  | failed {o : Outcome} (hfailed : o.ret.rc = -1) : Takes request d o d

/-- A bus with a slave whose tables are those of a device and whose registers begin at `start`. -/
structure Bus.Sound (start : ℤ) (b : Bus) (d : Device) : Prop where
  server : ∃ v, b.server = some v ∧ v.mapping.device = d ∧ v.mapping.WellFormed ∧
    v.mapping.startRegisters = start
  faults : ∀ i, (b.faults i).Tolerable

/-- What a slave has made of a request. -/
inductive ServedAs (slave : Byte) (request : Query) (m : Mapping) :
    Option Server × Option (List Byte) → Prop
  | ignored (confirmationToIgnore : Bool) :
      ServedAs slave request m (some ⟨m, confirmationToIgnore⟩, none)
  | refused (hserve : m.device.serve request = none) :
      ServedAs slave request m (some ⟨m, false⟩,
        some (sendMsg [slave, request.function + 0x80, exceptionIllegalDataAddress]))
  | answered (m' : Mapping) (answer : Response)
      (hserve : m.device.serve request = some (answer, m'.device)) (hm' : m'.WellFormed)
      (hstart : m'.startRegisters = m.startRegisters) :
      ServedAs slave request m (some ⟨m', false⟩, some (sendMsg (request.answer slave answer)))

/-- A request that arrives is served. -/
lemma Bus.served_of_arrives (version : List Byte) {b : Bus} (hserver : b.server = some v)
    (hignore : v.confirmationToIgnore = false) (hm : v.mapping.WellFormed)
    (hvalid : request.Valid) (hwithin : request.Within v.mapping.startRegisters)
    (hslave : slave ≠ 0)
    (harrives : (b.faults 0).request.arrives (sendMsg (request.message slave)) =
      some (sendMsg (request.message slave))) :
    ServedAs slave request v.mapping
        (b.served version slave (sendMsg (request.message slave))) ∧
      (b.served version slave (sendMsg (request.message slave))).2 ≠ none := by
  have hserves := buildReply_serves version slave hm hvalid hwithin
  have hround := Server.round_of_message version hvalid hignore hslave
    (Reception.brings_of (b.faults 0).query (sendMsg (request.message slave)))
  rw [Bus.served, hserver, harrives]
  simp only [hround]
  rw [Serves] at hserves
  cases hserve : v.mapping.device.serve request with
  | none =>
      simp only [hserve] at hserves
      rw [hserves]
      exact ⟨.refused hserve, Option.some_ne_none _⟩
  | some served =>
      obtain ⟨answer, d⟩ := served
      simp only [hserve] at hserves
      obtain ⟨m', hbuild, rfl, hm', hstart⟩ := hserves
      rw [hbuild]
      exact ⟨.answered m' answer hserve hm' hstart, Option.some_ne_none _⟩

/-- A request is served, refused or ignored. -/
lemma Bus.served_as (version : List Byte) {b : Bus} (hserver : b.server = some v)
    (hm : v.mapping.WellFormed) (hvalid : request.Valid)
    (hwithin : request.Within v.mapping.startRegisters) (hslave : slave ≠ 0)
    (htolerable : (b.faults 0).Tolerable) :
    ServedAs slave request v.mapping
      (b.served version slave (sendMsg (request.message slave))) := by
  have hunserved : ∀ query, (b.faults 0).request.arrives (sendMsg (request.message slave)) =
      some query → ∀ confirmationToIgnore,
      v.round version slave (Reception.of (b.faults 0).query query) =
        some (⟨v.mapping, confirmationToIgnore⟩, none) →
      ServedAs slave request v.mapping
        (b.served version slave (sendMsg (request.message slave))) := by
    intro query hquery confirmationToIgnore hround
    rw [Bus.served, hserver, hquery]
    simp only [hround]
    exact .ignored confirmationToIgnore
  rcases arrives_cases htolerable.request (message_ne_nil slave request) with hlost | harrives |
    ⟨frame, hdamaged, hne⟩
  · rw [Bus.served, hserver, hlost]
    exact .ignored v.confirmationToIgnore
  · cases hignore : v.confirmationToIgnore with
    | true => exact hunserved _ harrives false (Server.round_of_ignore hignore _)
    | false => exact (served_of_arrives version hserver hignore hm hvalid hwithin hslave harrives).1
  · obtain ⟨confirmationToIgnore, hround⟩ := Server.round_of_not_accepted version v
      (not_accepted_of_ne slave (Reception.brings_of (b.faults 0).query frame) hne .indication)
    exact hunserved frame hdamaged confirmationToIgnore hround

/-- What a master receives for an answer: the answer, or nothing that is accepted. -/
lemma Fault.reception_cases (slave : Byte) {fault : Fault} (htolerable : fault.Tolerable)
    {msg : List Byte} (hmsg : msg ≠ []) :
    (fault.reception (some (sendMsg msg))).Brings (sendMsg msg) ∨
      ¬ Accepted slave (fault.reception (some (sendMsg msg))) .confirmation := by
  rcases arrives_cases htolerable.answer hmsg with hlost | harrives | ⟨frame, hdamaged, hne⟩
  · right
    rw [Fault.reception, Option.bind_some, hlost]
    exact not_accepted_of_timeout _ _
  · left
    rw [Fault.reception, Option.bind_some, harrives]
    exact Reception.brings_of _ _
  · right
    rw [Fault.reception, Option.bind_some, hdamaged]
    exact not_accepted_of_ne slave (Reception.brings_of _ _) hne _

/-- What a master receives on a clean line. -/
lemma Fault.reception_of_clean {fault : Fault} (hclean : fault.Clean) (frame : List Byte) :
    (fault.reception (some frame)).Brings frame := by
  rw [Fault.reception, Option.bind_some, hclean.answer, arrives_clean]
  exact Reception.brings_of _ _

/-- A call whose reception is not accepted fails. -/
lemma Query.call_of_not_accepted {σ : Type} {line : Line σ} {s : σ} (hvalid : request.Valid)
    (h : ¬ Accepted slave (line s (sendMsg (request.message slave))).1 .confirmation)
    (errno : ℕ) : (request.call slave line s errno).1.ret.rc = -1 :=
  Query.call_of_not_confirms hvalid (fun hconfirms => h hconfirms.accepted) errno

/-- What a slave may make of a request: it passes it over, refuses it, or serves and answers it. -/
inductive Replied (slave : Byte) (request : Query) (d : Device) :
    Device → Option (List Byte) → Prop
  | passedOver : Replied slave request d d none
  | refused (code : Byte) (hserve : d.serve request = none) :
      Replied slave request d d (some (sendMsg [slave, request.function + 0x80, code]))
  | answered {answer : Response} {d' : Device} (hserve : d.serve request = some (answer, d')) :
      Replied slave request d d' (some (sendMsg (request.answer slave answer)))

/-- A request that is not answered has changed nothing. -/
lemma Replied.eq_of_none {d d' : Device} {reply : Option (List Byte)}
    (h : Replied slave request d d' reply) (hnone : reply = none) : d' = d := by
  cases h with
  | passedOver => rfl
  | refused code _ => cases hnone
  | answered _ => cases hnone

/-- What the master makes of it, over any line. -/
lemma Replied.takes {σ : Type} {line : Line σ} {s : σ} {d d' : Device} {fault : Fault}
    {reply : Option (List Byte)} (h : Replied slave request d d' reply)
    (htolerable : fault.Tolerable) (hvalid : request.Valid)
    (hline : (line s (sendMsg (request.message slave))).1 = fault.reception reply) (errno : ℕ) :
    Takes request d (request.call slave line s errno).1 d' := by
  cases h with
  | passedOver =>
      refine .failed (Query.call_of_not_accepted hvalid ?_ errno)
      rw [hline]
      exact not_accepted_of_timeout _ _
  | refused code hserve =>
      refine .failed ?_
      have hmsg : [slave, request.function + 0x80, code] ≠ [] := List.cons_ne_nil _ _
      rcases Fault.reception_cases slave htolerable hmsg with hbrings | hnot
      · rw [Query.call_of_exception hvalid (by rw [hline]; exact hbrings)]
      · exact Query.call_of_not_accepted hvalid (by rw [hline]; exact hnot) errno
  | @answered answer _ hserve =>
      rcases Fault.reception_cases slave htolerable (answer_ne_nil slave request answer) with
        hbrings | hnot
      · rw [Query.call_of_answer hvalid (asks_of_serve hserve) (by rw [hline]; exact hbrings)]
        exact .served errno hserve
      · exact .unconfirmed hserve
          (Query.call_of_not_accepted hvalid (by rw [hline]; exact hnot) errno)

/-- A server that has a request is a slave still. -/
lemma ServedAs.replied {m : Mapping} {x : Option Server × Option (List Byte)}
    (h : ServedAs slave request m x) (hm : m.WellFormed) :
    ∃ v, x.1 = some v ∧ v.mapping.WellFormed ∧ v.mapping.startRegisters = m.startRegisters ∧
      Replied slave request m.device v.mapping.device x.2 := by
  cases h with
  | ignored confirmationToIgnore => exact ⟨_, rfl, hm, rfl, .passedOver⟩
  | refused hserve => exact ⟨_, rfl, hm, rfl, .refused _ hserve⟩
  | answered m' answer hserve hm' hstart => exact ⟨_, rfl, hm', hstart, .answered hserve⟩

/-- **A call is served once or not at all, and succeeds only when it was served.** -/
theorem Bus.call_takes (version : List Byte) {start : ℤ} {b : Bus} {d : Device}
    (hb : b.Sound start d) (hslave : slave ≠ 0) (hvalid : request.Valid)
    (hwithin : request.Within start) (errno : ℕ) :
    let x := request.call slave (Bus.line version slave) b errno
    ∃ d', Takes request d x.1 d' ∧ x.2.Sound start d' := by
  obtain ⟨⟨v, hserver, rfl, hm, hstart⟩, hfaults⟩ := hb
  have hserved := served_as version hserver hm hvalid (hstart.symm ▸ hwithin) hslave (hfaults 0)
  obtain ⟨v', hv', hm', hstart', hreplied⟩ := hserved.replied hm
  refine ⟨v'.mapping.device, hreplied.takes (hfaults 0) hvalid rfl errno, ?_, ?_⟩
  · rw [request.call_line slave (Bus.line version slave) b hvalid errno]
    exact ⟨v', hv', rfl, hm', hstart'.trans hstart⟩
  · rw [request.call_line slave (Bus.line version slave) b hvalid errno]
    exact fun i => hfaults (i + 1)

/-- A slave that takes the next message for a request. -/
def Bus.Listens (b : Bus) : Prop := ∀ v, b.server = some v → v.confirmationToIgnore = false

/-- What a call returns that is refused. -/
def Query.refused (request : Query) : Outcome :=
  ⟨⟨-1, exceptionErrno exceptionIllegalDataAddress⟩, request.nothing⟩

/-- **Without a fault a call returns what the slave does.** -/
theorem Bus.call_of_clean (version : List Byte) {start : ℤ} {b : Bus} {d : Device}
    (hb : b.Sound start d) (hlistens : b.Listens) (hclean : (b.faults 0).Clean) (hslave : slave ≠ 0)
    (hvalid : request.Valid) (hwithin : request.Within start) (errno : ℕ) :
    let x := request.call slave (Bus.line version slave) b errno
    x.2.Listens ∧
      match d.serve request with
      | some (answer, d') => x.1 = ⟨⟨request.count, errno⟩, answer⟩ ∧ x.2.Sound start d'
      | none => x.1 = request.refused ∧ x.2.Sound start d := by
  obtain ⟨⟨v, hserver, hdevice, hm, hstart⟩, hfaults⟩ := hb
  have harrives : (b.faults 0).request.arrives (sendMsg (request.message slave)) =
      some (sendMsg (request.message slave)) := by
    rw [hclean.request, arrives_clean]
  obtain ⟨hserved, hanswered⟩ := served_of_arrives version hserver
    (hlistens v hserver) hm hvalid (hstart.symm ▸ hwithin) hslave harrives
  have hcall := request.call_line slave (Bus.line version slave) b hvalid errno
  have hline : (Bus.line version slave) b (sendMsg (request.message slave)) =
      ((b.faults 0).reception (b.served version slave (sendMsg (request.message slave))).2,
        ⟨(b.served version slave (sendMsg (request.message slave))).1,
          fun i => b.faults (i + 1)⟩) := rfl
  have hnext : ∀ i, (b.faults (i + 1)).Tolerable := fun i => hfaults (i + 1)
  have hbrings := Fault.reception_of_clean hclean
  generalize hx : b.served version slave (sendMsg (request.message slave)) = x
    at hserved hanswered hline
  rw [hline] at hcall
  simp only [hcall]
  cases hserved with
  | ignored confirmationToIgnore => exact absurd rfl hanswered
  | refused hserve =>
      rw [hdevice] at hserve
      rw [hserve]
      refine ⟨fun v' hv' => ?_, ?_, ⟨⟨_, rfl, hdevice, hm, hstart⟩, hnext⟩⟩
      · rw [← Option.some.inj hv']
      · apply Query.call_of_exception hvalid
        rw [hline]
        exact hbrings _
  | answered m' answer hserve hm' hstart' =>
      rw [hdevice] at hserve
      rw [hserve]
      refine ⟨fun v' hv' => ?_, ?_, ⟨⟨_, rfl, rfl, hm', hstart'.trans hstart⟩, hnext⟩⟩
      · rw [← Option.some.inj hv']
      · apply Query.call_of_answer hvalid (asks_of_serve hserve)
        rw [hline]
        exact hbrings _

/-! ### Sessions -/

/-- A slave of two bits and four registers, on a line. -/
def smallBus (faults : ℕ → Fault) : Bus :=
  ⟨some ⟨⟨0, 0, 0, 0, [0, 1], [], [], [1, 2, 3, 4]⟩, false⟩, faults⟩

/-- Its tables. -/
def smallDevice : Device := Mapping.device ⟨0, 0, 0, 0, [0, 1], [], [], [1, 2, 3, 4]⟩

/-- Faults of a line on which the answer to the first message is lost. -/
def firstAnswerLost (i : ℕ) : Fault :=
  ⟨some fun _ => 0, if i = 0 then none else some fun _ => 0, fun _ => 0, fun _ => 0⟩

/-- The small slave is one, whatever a checksum is there for. -/
lemma sound_smallBus {faults : ℕ → Fault} (h : ∀ i, (faults i).Tolerable) :
    (smallBus faults).Sound 0 smallDevice :=
  ⟨⟨_, rfl, rfl, ⟨by decide, by decide⟩, rfl⟩, h⟩

/-- What is damaged nowhere is damaged within sixteen bits. -/
lemma withinSixteen_zero : WithinSixteen fun _ => 0 :=
  ⟨0, fun n _ h => absurd (List.mem_of_getElem? h) (true_not_mem_zero n)⟩

/-- A loss is a fault that a checksum is there for. -/
lemma tolerable_firstAnswerLost (i : ℕ) : (firstAnswerLost i).Tolerable := by
  refine ⟨fun pattern h => Option.some.inj h ▸ withinSixteen_zero, fun pattern h => ?_⟩
  by_cases hi : i = 0
  · simp only [firstAnswerLost, if_pos hi] at h
    cases h
  · simp only [firstAnswerLost, if_neg hi] at h
    exact Option.some.inj h ▸ withinSixteen_zero

/-- A write and a read of every register. -/
def smallSession : List Query := [.writeRegister 1 7, .readRegisters false 0 4]

/-- They are requests that the library sends. -/
lemma valid_smallSession : ∀ request ∈ smallSession, request.Valid ∧ request.Within 0 :=
  List.forall_mem_cons.mpr ⟨⟨trivial, trivial⟩,
    List.forall_mem_cons.mpr ⟨⟨⟨by decide, by decide⟩, trivial⟩, nofun⟩⟩

variable {σ : Type}

/-- The calls of a session, one after the other. -/
def runCalls (slave : Byte) (line : Line σ) : List Query → σ → ℕ → List Outcome × σ
  | [], s, _ => ([], s)
  | request :: requests, s, errno =>
      let x := request.call slave line s errno
      let rest := runCalls slave line requests x.2 x.1.ret.errno
      (x.1 :: rest.1, rest.2)

/-- A history of calls that takes the tables of a slave from one state to another. -/
inductive Explained : Device → List (Query × Outcome) → Device → Prop
  | nil (d : Device) : Explained d [] d
  | cons {d d' d'' : Device} {request : Query} {o : Outcome} {history : List (Query × Outcome)}
      (hcall : Takes request d o d') (hrest : Explained d' history d'') :
      Explained d ((request, o) :: history) d''

/-- **A session is explained by the calls that were served**, each once and in their order. -/
theorem runCalls_explained (version : List Byte) {start : ℤ} {b : Bus} {d : Device}
    (hb : b.Sound start d) (hslave : slave ≠ 0) {requests : List Query}
    (hrequests : ∀ request ∈ requests, request.Valid ∧ request.Within start) (errno : ℕ) :
    let x := runCalls slave (Bus.line version slave) requests b errno
    ∃ d', Explained d (requests.zip x.1) d' ∧ x.2.Sound start d' := by
  induction requests generalizing b d errno with
  | nil => exact ⟨d, .nil d, hb⟩
  | cons request requests ih =>
      obtain ⟨hvalid, hwithin⟩ := hrequests request List.mem_cons_self
      obtain ⟨d', htakes, hb'⟩ := Bus.call_takes version hb hslave hvalid hwithin errno
      obtain ⟨d'', hexplained, hb''⟩ := ih hb'
        (fun q hq => hrequests q (List.mem_cons_of_mem _ hq)) _
      exact ⟨d'', .cons htakes hexplained, hb''⟩

/-- A session whose first answer is lost. -/
theorem explained_smallSession :
    let x := runCalls 1 (Bus.line [] 1) smallSession (smallBus firstAnswerLost) 0
    ∃ d', Explained smallDevice (smallSession.zip x.1) d' ∧ x.2.Sound 0 d' :=
  runCalls_explained [] (sound_smallBus tolerable_firstAnswerLost) (by decide) valid_smallSession 0

/-- What the calls of a session return, and the device after them, where the requests are served one
after the other. -/
def Device.session (d : Device) : List Query → ℕ → List Outcome × Device
  | [], _ => ([], d)
  | request :: requests, errno =>
      match d.serve request with
      | some (answer, d') =>
          let rest := d'.session requests errno
          (⟨⟨request.count, errno⟩, answer⟩ :: rest.1, rest.2)
      | none =>
          let rest := d.session requests request.refused.ret.errno
          (request.refused :: rest.1, rest.2)

/-- **A session without faults is one of the device.** -/
theorem runCalls_clean (version : List Byte) {start : ℤ} {b : Bus} {d : Device}
    (hb : b.Sound start d) (hlistens : b.Listens) (hclean : ∀ i, (b.faults i).Clean)
    (hslave : slave ≠ 0) {requests : List Query}
    (hrequests : ∀ request ∈ requests, request.Valid ∧ request.Within start) (errno : ℕ) :
    let x := runCalls slave (Bus.line version slave) requests b errno
    x.1 = (d.session requests errno).1 ∧ x.2.Sound start (d.session requests errno).2 := by
  induction requests generalizing b d errno with
  | nil => exact ⟨rfl, hb⟩
  | cons request requests ih =>
      obtain ⟨hvalid, hwithin⟩ := hrequests request List.mem_cons_self
      obtain ⟨hlistens', hcall⟩ := Bus.call_of_clean version hb hlistens (hclean 0) hslave hvalid
        hwithin errno
      have hfaults := request.call_line slave (Bus.line version slave) b hvalid errno
      have hclean' : ∀ i, ((request.call slave (Bus.line version slave) b errno).2.faults i).Clean
        := by
        rw [hfaults]
        exact fun i => hclean (i + 1)
      have hrest := fun q hq => hrequests q (List.mem_cons_of_mem request hq)
      rw [Device.session]
      cases hserve : d.serve request with
      | none =>
          rw [hserve] at hcall
          obtain ⟨houtcome, hb'⟩ := hcall
          obtain ⟨hlist, hb''⟩ := ih hb' hlistens' hclean' hrest request.refused.ret.errno
          simp only [runCalls, houtcome]
          exact ⟨congrArg (request.refused :: ·) hlist, hb''⟩
      | some served =>
          obtain ⟨answer, d'⟩ := served
          rw [hserve] at hcall
          obtain ⟨houtcome, hb'⟩ := hcall
          obtain ⟨hlist, hb''⟩ := ih hb' hlistens' hclean' hrest errno
          simp only [runCalls, houtcome]
          exact ⟨congrArg (_ :: ·) hlist, hb''⟩

/-- A session on a line without faults. -/
theorem clean_smallSession :
    let x := runCalls 1 (Bus.line [] 1) smallSession
      (smallBus fun i => firstAnswerLost (i + 1)) 0
    x.1 = (smallDevice.session smallSession 0).1 ∧
      x.2.Sound 0 (smallDevice.session smallSession 0).2 :=
  runCalls_clean [] (sound_smallBus fun i => tolerable_firstAnswerLost (i + 1))
    (fun v hv => by rw [← Option.some.inj hv]) (fun _ => ⟨rfl, rfl⟩) (by decide)
    valid_smallSession 0

/-! ### Serving again -/

/-- A masked value masked again. -/
lemma mask_again (v andMask orMask : BitVec 16) :
    ((v &&& andMask ||| orMask &&& ~~~andMask) &&& andMask) ||| (orMask &&& ~~~andMask) =
      v &&& andMask ||| orMask &&& ~~~andMask := by
  apply BitVec.eq_of_getLsbD_eq
  intro i hi
  simp only [BitVec.getLsbD_or, BitVec.getLsbD_and, BitVec.getLsbD_not, decide_eq_true hi,
    Bool.true_and]
  cases v.getLsbD i <;> cases andMask.getLsbD i <;> cases orMask.getLsbD i <;> rfl

/-- **A request that is served again changes nothing and reads the same.** -/
theorem serve_again {d d' : Device} {answer : Response}
    (h : d.serve request = some (answer, d')) : d'.serve request = some (answer, d') := by
  cases request with
  | readBits input addr nb =>
      obtain ⟨vs, hread, heq⟩ := Option.map_eq_some_iff.mp h
      obtain ⟨rfl, rfl⟩ := Prod.mk.inj heq
      exact h
  | readRegisters input addr nb =>
      obtain ⟨vs, hread, heq⟩ := Option.map_eq_some_iff.mp h
      obtain ⟨rfl, rfl⟩ := Prod.mk.inj heq
      exact h
  | writeBit addr status =>
      obtain ⟨t, hwrite, heq⟩ := Option.map_eq_some_iff.mp h
      obtain ⟨rfl, rfl⟩ := Prod.mk.inj heq
      rw [Device.serve, Table.write_self hwrite]
      rfl
  | writeRegister addr value =>
      obtain ⟨t, hwrite, heq⟩ := Option.map_eq_some_iff.mp h
      obtain ⟨rfl, rfl⟩ := Prod.mk.inj heq
      rw [Device.serve, Table.write_self hwrite]
      rfl
  | writeBits addr src =>
      obtain ⟨t, hwrite, heq⟩ := Option.map_eq_some_iff.mp h
      obtain ⟨rfl, rfl⟩ := Prod.mk.inj heq
      rw [Device.serve, Table.write_self hwrite]
      rfl
  | writeRegisters addr src =>
      obtain ⟨t, hwrite, heq⟩ := Option.map_eq_some_iff.mp h
      obtain ⟨rfl, rfl⟩ := Prod.mk.inj heq
      rw [Device.serve, Table.write_self hwrite]
      rfl
  | maskWriteRegister addr andMask orMask =>
      obtain ⟨v, hv, hmap⟩ := Option.bind_eq_some_iff.mp h
      obtain ⟨t, hwrite, heq⟩ := Option.map_eq_some_iff.mp hmap
      obtain ⟨rfl, rfl⟩ := Prod.mk.inj heq
      have hnew : t addr.toNat = some (v &&& andMask ||| orMask &&& ~~~andMask) := by
        have hcell := Table.write_apply hwrite addr.toNat
        rw [if_pos ⟨Nat.le_refl _, Nat.lt_succ_self _⟩, Nat.sub_self] at hcell
        exact hcell
      rw [Device.serve]
      simp only [hnew, Option.bind_some, mask_again, Table.write_self hwrite]
      rfl
  | writeAndReadRegisters writeAddr src readAddr readNb =>
      obtain ⟨t, hwrite, hmap⟩ := Option.bind_eq_some_iff.mp h
      obtain ⟨vs, hread, heq⟩ := Option.map_eq_some_iff.mp hmap
      obtain ⟨rfl, rfl⟩ := Prod.mk.inj heq
      rw [Device.serve]
      simp only [Table.write_self hwrite, Option.bind_some, hread]
      rfl

end PanelFirmware.Libmodbus
