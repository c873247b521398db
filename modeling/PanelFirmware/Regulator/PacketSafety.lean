import PanelFirmware.Regulator.TcpRequest

/-!
# `regulator/src/regulatorTcpRequest.c`: the accesses to the bridge's packet

`reg_tcpModbusRequest` copies a request into its static packet, unless it is too long, and forwards
as many bytes as the `Length` field of the packet says. `rawModbusMessage` appends a checksum to
them and receives the answer over them. The machine is the one of the mailbox, with the packet its
calls fill.

* `Safe`: the accesses are inside the packet and to the variable of the call in progress, and the
  bytes forwarded are of the request.
* `safe_iff_consistent`: over all runs whose requests are attended, exactly when the `Length` of
  every request that is served fits it and the packet.
-/

namespace PanelFirmware.Regulator.PacketSafety

open PanelFirmware.Lib PanelFirmware.Libmodbus

/-! ### The code -/

/-- The address of the packet's unit identifier, which the TCP task passes to
`reg_modbusRequest`. Source: `regulatorTcpRequest.c` `tcpModbusPacket`. -/
def unitIdentifier : ℕ := 0

/-- The size of the packet from its unit identifier on. -/
def unitSize : ℕ := packetSize - 6

/-- What is copied of a request. Source: `regulatorTcpRequest.c` `reg_tcpModbusRequest`. -/
def copied (readdata : List Byte) : List Byte :=
  if readdata.length ≤ packetSize then readdata else []

/-- The mailbox, and the first six bytes of the packet, whose others are the mailbox's buffer at
the unit identifier. The last request and the `Length` of the packet after its copy are recorded.
Source: `regulatorTcpRequest.c` `tcpModbusPacket`. -/
structure State where
  mailbox : Bridge.State
  header : Buffer
  readdata : List Byte
  length : ℕ

/-- What can happen next: as in the mailbox, with a request to be copied for a call; the address of
the call's variable `len` is on the stack. -/
inductive Event
  | tick
  | request (readdata : List Byte) (len : ℕ)
  | tcp
  | reg
  | receive (reply : Bridge.Reply)

/-- The static packet. -/
def State.tcpModbusPacket (s : State) : Buffer :=
  setFromUnit s.header (s.mailbox.buffers unitIdentifier)

/-- A call up to `reg_modbusRequest`. Source: `regulatorTcpRequest.c` `reg_tcpModbusRequest`. -/
def request (s : State) (readdata : List Byte) (len : ℕ) : Option State :=
  let packet := s.tcpModbusPacket.write (copied readdata)
  let length := mbapLength packet
  (Bridge.step s.mailbox
      (.enter unitIdentifier len (fromUnit packet) (BitVec.ofNat 16 length))).map fun mailbox =>
    ⟨mailbox, packet, readdata, length⟩

/-- A step of the system; a call that has succeeded stores the length of the answer in the packet.
Source: `regulatorTcpRequest.c` `reg_tcpModbusRequest`; `regulatorConnTSK.c`. -/
def step (s : State) : Event → Option State
  | .tick => (Bridge.step s.mailbox .tick).map fun mailbox => { s with mailbox }
  | .request readdata len => request s readdata len
  | .tcp => (Bridge.step s.mailbox .tcp).map fun mailbox =>
      { s with
        mailbox
        header :=
          if mailbox.tcp = .returned true then
            setMbapLength s.header (mailbox.lengths mailbox.call.reqLength)
          else s.header }
  | .reg => (Bridge.step s.mailbox .reg).map fun mailbox => { s with mailbox }
  | .receive reply => (Bridge.step s.mailbox (.receive reply)).map fun mailbox => { s with mailbox }

/-- The start. -/
def start : State := ⟨Bridge.init, fun _ => 0, [], 0⟩

/-! ### Safety -/

/-- The send of a message: it takes the packet and the variable of the call in progress, the
message and its checksum lie inside the packet, and the bytes after the slave's number are those of
the request. -/
def SafeSend (s : State) (req reqLength : Option ℕ) : Prop :=
  s.mailbox.tcp.inCall = true ∧ req = some unitIdentifier ∧
    reqLength = some s.mailbox.call.reqLength ∧
    s.mailbox.lengths s.mailbox.call.reqLength + 2 ≤ unitSize ∧
    ∀ i b, 1 ≤ i →
      (Bridge.message (s.mailbox.buffers unitIdentifier)
        (s.mailbox.lengths s.mailbox.call.reqLength))[i]? = some b →
      (copied s.readdata)[6 + i]? = some b

/-- A step of the regulator task is safe; after the answer its length is stored in the variable of
the call in progress. -/
def SafeReg (s : State) : Bridge.RegPhase → Prop
  | .called req reqLength => SafeSend s req reqLength
  | .received _ reqLength _ =>
      s.mailbox.tcp.inCall = true ∧ reqLength = s.mailbox.call.reqLength
  | _ => True

/-- The answer is received inside the packet. -/
def SafeReceive (reply : Bridge.Reply) : Bridge.RegPhase → Prop
  | .sent req _ => req = unitIdentifier ∧ reply.received.length ≤ unitSize
  | _ => True

/-- The accesses of a step are safe. -/
def Safe (s : State) : Event → Prop
  | .request readdata _ => (copied readdata).length ≤ packetSize
  | .reg => SafeReg s s.mailbox.reg
  | .receive reply => SafeReceive reply s.mailbox.reg
  | .tick | .tcp => True

/-- A request whose `Length` leaves room for the checksum and is not more than was copied; the
slave's number takes the place of the first byte. -/
def Consistent (readdata : List Byte) (length : ℕ) : Prop :=
  length + 2 ≤ unitSize ∧ (length ≤ 1 ∨ length + 6 ≤ (copied readdata).length)

/-- A message that is sent is of a consistent request. -/
def ConsistentReg (s : State) : Bridge.RegPhase → Prop
  | .called _ _ => Consistent s.readdata s.length
  | _ => True

/-- The requests that are served are consistent. -/
def ConsistentStep (s : State) : Event → Prop
  | .reg => ConsistentReg s s.mailbox.reg
  | .tick | .request _ _ | .tcp | .receive _ => True

/-- The requests are attended. -/
def Attended (s : State) : Event → Prop
  | .tcp => Bridge.Attended s.mailbox .tcp
  | .reg => Bridge.Attended s.mailbox .reg
  | .tick | .request _ _ | .receive _ => True

instance (s : State) : (r : Bridge.RegPhase) → Decidable (ConsistentReg s r)
  | .called _ _ => inferInstanceAs (Decidable (_ ∧ (_ ∨ _)))
  | .polling | .tested | .dataLoaded _ | .sent _ _ | .received _ _ _ | .done _ | .stored
  | .cleared => inferInstanceAs (Decidable True)

instance (s : State) : (e : Event) → Decidable (ConsistentStep s e)
  | .reg => inferInstanceAs (Decidable (ConsistentReg s s.mailbox.reg))
  | .tick | .request _ _ | .tcp | .receive _ => inferInstanceAs (Decidable True)

instance (s : State) : (e : Event) → Decidable (Attended s e)
  | .tcp => inferInstanceAs (Decidable (Bridge.Attended s.mailbox .tcp))
  | .reg => inferInstanceAs (Decidable (Bridge.Attended s.mailbox .reg))
  | .tick | .request _ _ | .receive _ => inferInstanceAs (Decidable True)

/-! ### One request -/

/-- No more is copied than the packet holds. -/
lemma length_copied_le (readdata : List Byte) : (copied readdata).length ≤ packetSize := by
  unfold copied
  split_ifs with hfits
  · exact hfits
  · exact Nat.zero_le _

/-- A `Length` is a word. -/
lemma mbapLength_lt (packet : Buffer) : mbapLength packet < 2 ^ 16 := by
  have hhigh := (packet 4).isLt
  have hlow := (packet 5).isLt
  unfold mbapLength
  omega

/-- A message has the length it is asked for. -/
lemma length_message (req : Buffer) (len : ℕ) : (Bridge.message req len).length = len := by
  rw [Bridge.message, Buffer.bytes, List.length_map, List.length_range]

/-- A byte of a message after the slave's number is one of the packet. -/
lemma message_getElem? {packet : Buffer} {len i : ℕ} (hi : 1 ≤ i) (hlen : i < len) :
    (Bridge.message (fromUnit packet) len)[i]? = some (packet (6 + i)) := by
  rw [Bridge.message, Buffer.bytes, List.getElem?_map, List.getElem?_range hlen, Option.map_some,
    Function.update_of_ne (by omega), fromUnit]

/-- The bytes forwarded are of the request exactly if there are no more of them than were
copied. -/
lemma forwarded_iff (before : Buffer) (src : List Byte) (len : ℕ) :
    (∀ i b, 1 ≤ i → (Bridge.message (fromUnit (before.write src)) len)[i]? = some b →
      src[6 + i]? = some b) ↔ len ≤ 1 ∨ len + 6 ≤ src.length := by
  constructor
  · intro h
    by_cases hlen : len ≤ 1
    · exact Or.inl hlen
    · have hlast := h (len - 1) _ (by omega) (message_getElem? (by omega) (by omega))
      obtain ⟨hi, -⟩ := List.getElem?_eq_some_iff.mp hlast
      exact Or.inr (by omega)
  · intro h i b hi hb
    obtain ⟨hlen, -⟩ := List.getElem?_eq_some_iff.mp hb
    rw [length_message] at hlen
    rw [message_getElem? hi hlen] at hb
    have hsrc := List.getElem?_eq_getElem (show 6 + i < src.length by omega)
    rw [Buffer.write_apply hsrc] at hb
    rw [hsrc, hb]

/-! ### The invariant -/

/-- The mailbox is correct, and the call in progress asks for the message of the last request. -/
structure Inv (s : State) : Prop where
  mailbox : Bridge.MailboxInv s.mailbox
  req : s.mailbox.call.req = unitIdentifier
  message : ∃ before : Buffer, s.mailbox.call.message =
    Bridge.message (fromUnit (before.write (copied s.readdata))) s.length

/-- A step of the TCP task leaves the call. -/
lemma call_tcpStep {m n : Bridge.State} (h : Bridge.tcpStep m = some n) : n.call = m.call := by
  unfold Bridge.tcpStep at h
  cases htcp : m.tcp with
  | outside | returned _ =>
      rw [htcp] at h
      cases h
  | entered | dataStored | lenStored | woken _ =>
      rw [htcp] at h
      obtain rfl := Option.some.inj h
      rfl
  | waiting since =>
      simp only [htcp] at h
      split_ifs at h
      · obtain rfl := Option.some.inj h
        rfl
      · obtain rfl := Option.some.inj h
        rfl

/-- A request fills the packet and asks for its message. -/
lemma call_enter {m n : Bridge.State} {req len : ℕ} {packet : Buffer} {length : BitVec 16}
    (h : Bridge.step m (.enter req len packet length) = some n) :
    n.call.req = req ∧ n.call.message = Bridge.message packet length.toNat := by
  simp only [Bridge.step] at h
  split at h
  · obtain rfl := Option.some.inj h
    exact ⟨rfl, rfl⟩
  · obtain rfl := Option.some.inj h
    exact ⟨rfl, rfl⟩
  · cases h

/-- The invariant depends on the header only through the requests to come. -/
lemma Inv.change {s : State} (hinv : Inv s) {m : Bridge.State} (hm : Bridge.MailboxInv m)
    (hcall : m.call = s.mailbox.call) (header : Buffer) :
    Inv { s with mailbox := m, header } := by
  refine ⟨hm, ?_, ?_⟩
  · rw [hcall]
    exact hinv.req
  · rw [hcall]
    exact hinv.message

/-- A step that is attended keeps the invariant. -/
theorem Inv.step {s t : State} {e : Event} (hinv : Inv s) (hok : Attended s e)
    (h : PacketSafety.step s e = some t) : Inv t := by
  cases e with
  | tick =>
      obtain rfl := Option.some.inj h
      exact hinv.change (m := { s.mailbox with now := s.mailbox.now + 1 }) hinv.mailbox rfl s.header
  | request readdata len =>
      obtain ⟨m, hm, rfl⟩ := Option.map_eq_some_iff.mp h
      obtain ⟨hreq, hmessage⟩ := call_enter hm
      rw [BitVec.toNat_ofNat, Nat.mod_eq_of_lt (mbapLength_lt _)] at hmessage
      exact ⟨hinv.mailbox.enter hm, hreq, s.tcpModbusPacket, hmessage⟩
  | tcp =>
      obtain ⟨m, hm, rfl⟩ := Option.map_eq_some_iff.mp h
      exact hinv.change (hinv.mailbox.tcp hok hm) (call_tcpStep hm) _
  | reg =>
      obtain ⟨m, hm, rfl⟩ := Option.map_eq_some_iff.mp h
      exact hinv.change (hinv.mailbox.reg hok hm) (Bridge.regStep_frame hm).2 s.header
  | receive reply =>
      obtain ⟨m, hm, rfl⟩ := Option.map_eq_some_iff.mp h
      exact hinv.change (hinv.mailbox.receive hm) (Bridge.receiveStep_frame hm).2 s.header

/-! ### Runs -/

/-- The send of a message that is attended is safe exactly if its request is consistent. -/
lemma Inv.safeSend_iff {s : State} (hinv : Inv s) {req reqLength : Option ℕ}
    (hreg : s.mailbox.reg = .called req reqLength) :
    SafeSend s req reqLength ↔ Consistent s.readdata s.length := by
  obtain ⟨hcall, hpointers⟩ := hinv.mailbox.correct.1 (req, reqLength) (by rw [hreg]; rfl)
  obtain ⟨rfl, rfl⟩ := Prod.mk.inj hpointers
  obtain ⟨-, -, hprogress⟩ := hinv.mailbox.progress (by rw [hreg]; rfl)
  rw [Bridge.State.Progress, hreg] at hprogress
  obtain ⟨before, hmessage⟩ := hinv.message
  have hfresh := hprogress.2.2.trans hmessage
  rw [hinv.req] at hfresh
  have hlength : s.mailbox.lengths s.mailbox.call.reqLength = s.length := by
    have hsame := congrArg List.length hfresh
    rwa [length_message, length_message] at hsame
  rw [SafeSend, hfresh, forwarded_iff, hlength, hinv.req, Consistent, and_iff_right hcall,
    and_iff_right rfl, and_iff_right rfl]

/-- The step of the regulator task is safe exactly if the request it forwards is consistent. -/
lemma Inv.safe_iff {s : State} (hinv : Inv s) (e : Event) : Safe s e ↔ ConsistentStep s e := by
  cases e with
  | tick | tcp => exact Iff.rfl
  | request readdata len => exact iff_of_true (length_copied_le readdata) trivial
  | reg =>
      change SafeReg s s.mailbox.reg ↔ ConsistentReg s s.mailbox.reg
      cases hreg : s.mailbox.reg with
      | called req reqLength => exact hinv.safeSend_iff hreg
      | received req reqLength length =>
          obtain ⟨hcall, hpointers⟩ :=
            hinv.mailbox.correct.1 (some req, some reqLength) (by rw [hreg]; rfl)
          have hsame := Option.some.inj (Prod.mk.inj hpointers).2
          exact iff_of_true ⟨hcall, hsame⟩ trivial
      | polling | tested | dataLoaded _ | sent _ _ | done _ | stored | cleared => exact Iff.rfl
  | receive reply =>
      change SafeReceive reply s.mailbox.reg ↔ True
      cases hreg : s.mailbox.reg with
      | sent req reqLength =>
          obtain ⟨-, hpointers⟩ :=
            hinv.mailbox.correct.1 (some req, some reqLength) (by rw [hreg]; rfl)
          have hsame := Option.some.inj (Prod.mk.inj hpointers).1
          rw [hinv.req] at hsame
          exact iff_of_true ⟨hsame, reply.fits⟩ trivial
      | polling | tested | dataLoaded _ | called _ _ | received _ _ _ | done _ | stored
      | cleared => exact Iff.rfl

/-- The invariant holds at the start. -/
lemma inv_start : Inv start := ⟨⟨rfl, rfl⟩, rfl, fun _ => 0, rfl⟩

/-- The regulator's answer to a write of 1 to the register at `0x0310`. -/
def writeReply : Bridge.Reply where
  received := [0x01, 0x06, 0x03, 0x10, 0x00, 0x01, 0x49, 0x8B]
  accepted := true
  fits := by decide

/-- The write of 1 to the register at `0x0310`, served in time. -/
def writeRun : List Event :=
  [.request [0x00, 0x01, 0x00, 0x00, 0x00, 0x06, 0x01, 0x06, 0x03, 0x10, 0x00, 0x01] 0,
    .tcp, .tcp, .tcp, .reg, .reg, .reg, .reg, .receive writeReply, .reg, .reg, .reg, .reg,
    .tcp, .tcp]

/-- The write, and then the first eight bytes of another request of the same length, up to the send
of its message. -/
def shortRun : List Event :=
  writeRun ++ [.request [0x00, 0x02, 0x00, 0x00, 0x00, 0x06, 0x01, 0x06] 0,
    .tcp, .tcp, .tcp, .reg, .reg, .reg]

end PanelFirmware.Regulator.PacketSafety
