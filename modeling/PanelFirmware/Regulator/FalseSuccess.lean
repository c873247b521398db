import PanelFirmware.Modbus.Segmentation

/-!
# What a client gets when the regulator does not answer

`reg_modbusRequest` returns false when its wait runs out or the regulator's answer is not valid.
`reg_tcpModbusRequest` then leaves the pointer and the length of its caller as they are, and
returns true; `xMBTCPPortGetRequest` sends what they denote, which is the request. For a write of
one register or coil the request is also the normal reply.

* `falseSuccess_iff`: exactly when the frame is not taken for a success.
* `echo_of_silence`: without a valid reply the request is sent back, in every attended run.
-/

namespace PanelFirmware.Regulator

open PanelFirmware.Lib PanelFirmware.Libmodbus PanelFirmware.Modbus

/-- What a call of `reg_modbusRequest` that has returned came to. -/
def answerOf (t : Bridge.State) : Answer where
  result := t.tcp = .returned true
  req := t.buffers t.call.req
  reqLength := t.lengths t.call.reqLength

/-- A normal reply to a request carries its function code; an exception sets the top bit of it.
Source: `modbus-rtu.c`; `mb.c` `MB_FUNC_ERROR`. -/
def NormalReply (request reply : List Byte) : Prop :=
  ∃ code, request[7]? = some code ∧ reply[7]? = some code

/-! ### One call -/

/-- The step in which `reg_modbusRequest` returns reads the result and leaves the packet. -/
lemma answerOf_return {s t : Bridge.State} {given : Bool} (hwoken : s.tcp = .woken given)
    (hreturn : Bridge.step s .tcp = some t) :
    answerOf t = ⟨given && s.mobusRequstResult, s.buffers s.call.req,
      s.lengths s.call.reqLength⟩ := by
  simp only [Bridge.step, Bridge.tcpStep, hwoken] at hreturn
  obtain rfl := Option.some.inj hreturn
  cases given
  · rfl
  · cases s.mobusRequstResult <;> simp [answerOf]

/-- A call whose wait has ended returns. -/
lemma exists_return {s : Bridge.State} {given : Bool} (hwoken : s.tcp = .woken given) :
    ∃ t, Bridge.step s .tcp = some t := by
  simp only [Bridge.step, Bridge.tcpStep, hwoken]
  exact ⟨_, rfl⟩

/-- The frame that is sent for a request to the regulator. -/
lemma sent_of_regulator {port : Port} (hconn : port.newconn = true) {inbuf : Netbuf}
    (hwf : WellFormed inbuf.payload) (hunit : inbuf.payload[6]? ≠ some 2)
    (regModbusRequest : Buffer → ℕ → Answer) :
    ∃ r, xMBTCPPortGetRequest regModbusRequest port (.ok inbuf) = some r ∧
      r.sent
        = some (regTcpModbusRequest regModbusRequest port.tcpModbusPacket inbuf.payload).2 := by
  have hsix := List.getElem?_eq_getElem (show 6 < inbuf.payload.length from hwf.header)
  have hother : ¬ port.workbuffer.write inbuf.payload 6 = 2 := by
    intro h
    rw [Buffer.write_apply hsix] at h
    rw [hsix, h] at hunit
    exact hunit rfl
  exact ⟨_, getRequest_regulator regModbusRequest hconn hwf.adu hother, rfl⟩

/-- Whether a frame is a normal reply is decided by its function code, if it has one. -/
lemma normalReply_iff {request frame : List Byte} {len : ℕ} {code : Byte}
    (hframe : frame[7]? = if 8 ≤ lentowrite len then some code else none) :
    NormalReply request frame ↔ 8 ≤ lentowrite len ∧ request[7]? = some code := by
  unfold NormalReply
  rw [hframe]
  split_ifs with hlong
  · rw [and_iff_right hlong]
    constructor
    · rintro ⟨code', hrequest, hreply⟩
      rw [hrequest, hreply]
    · intro hsame
      exact ⟨_, hsame, rfl⟩
  · refine iff_of_false ?_ fun h => hlong h.1
    rintro ⟨code', -, hreply⟩
    cases hreply

/-- **No false success, and exactly when.** For every request addressed to the regulator and every
state of the mailbox in which the wait for it ends, whatever the regulator has done: the frame sent
back is neither a normal reply nor the request itself if and only if the semaphore was given with
a true result, while the function code in the packet is not, or no longer, the one of the
request. -/
theorem falseSuccess_iff (port : Port) (hconn : port.newconn = true) (inbuf : Netbuf)
    (hwf : WellFormed inbuf.payload) (hcode : 8 ≤ inbuf.payload.length)
    (hunit : inbuf.payload[6]? ≠ some 2) (s t : Bridge.State) (given : Bool)
    (hwoken : s.tcp = .woken given) (hreturn : Bridge.step s .tcp = some t) :
    ∃ r frame, xMBTCPPortGetRequest (fun _ _ => answerOf t) port (.ok inbuf) = some r ∧
      r.sent = some frame ∧
      ((¬ NormalReply inbuf.payload frame ∧ frame ≠ inbuf.payload) ↔
        given = true ∧ s.mobusRequstResult = true ∧
          ¬ (8 ≤ lentowrite (s.lengths s.call.reqLength) ∧
            inbuf.payload[7]? = some (s.buffers s.call.req 1))) := by
  obtain ⟨r, hr, hsent⟩ := sent_of_regulator hconn hwf hunit fun _ _ => answerOf t
  refine ⟨r, _, hr, hsent, ?_⟩
  have hanswer := answerOf_return hwoken hreturn
  by_cases hresult : given = true ∧ s.mobusRequstResult = true
  · have hdone : (answerOf t).result = true := by
      rw [hanswer]
      exact Bool.and_eq_true_iff.mpr hresult
    have hframe := regTcpModbusRequest_done (fun _ _ => rfl) hdone port.tcpModbusPacket
      inbuf.payload
    generalize (regTcpModbusRequest _ port.tcpModbusPacket inbuf.payload).2 = frame at hframe ⊢
    rw [hanswer] at hframe
    rw [← normalReply_iff hframe]
    constructor
    · rintro ⟨hother, -⟩
      exact ⟨hresult.1, hresult.2, hother⟩
    · rintro ⟨-, -, hother⟩
      refine ⟨hother, ?_⟩
      rintro rfl
      have hseven := List.getElem?_eq_getElem (show 7 < inbuf.payload.length from hcode)
      exact hother ⟨_, hseven, hseven⟩
  · have hfail : (answerOf t).result = false := by
      rw [hanswer]
      exact Bool.eq_false_iff.mpr fun h => hresult (Bool.and_eq_true_iff.mp h)
    rw [regTcpModbusRequest_fail (fun _ _ => rfl) hfail]
    exact iff_of_false (fun h => h.2 rfl) fun h => hresult ⟨h.1, h.2.1⟩

/-- A request that times out. -/
theorem falseSuccess_timeout :
    ∃ r frame, xMBTCPPortGetRequest
        (fun _ _ => answerOf { Bridge.init with tcp := .returned false }) connected
        (.ok unitRequest) = some r ∧ r.sent = some frame ∧
      ((¬ NormalReply unitRequest.payload frame ∧ frame ≠ unitRequest.payload) ↔
        false = true ∧ Bridge.init.mobusRequstResult = true ∧
          ¬ (8 ≤ lentowrite (Bridge.init.lengths Bridge.init.call.reqLength) ∧
            unitRequest.payload[7]? = some (Bridge.init.buffers Bridge.init.call.req 1))) :=
  falseSuccess_iff connected rfl unitRequest (by decide) (by decide) (by decide)
    { Bridge.init with tcp := .woken false } { Bridge.init with tcp := .returned false } false rfl
    rfl

/-! ### Silence -/

/-- An event of the wait for a request, and not a valid reply of the regulator. -/
def Silence : Bridge.Event → Prop
  | .enter _ _ _ _ => False
  | .receive reply => reply.rc < 3
  | .tick | .tcp | .reg => True

/-- The regulator task has not stored a true result, and none is on its way. -/
def NoResult (mobusRequstResult : Bool) : Bridge.RegPhase → Prop
  | .received _ _ _ => False
  | .done result => result = false
  | .stored | .cleared => mobusRequstResult = false
  | .polling | .tested | .dataLoaded _ | .called _ _ | .sent _ _ => True

/-- The mailbox has no true result for the call in progress, and none is on its way. -/
structure Silent (s : Bridge.State) : Prop where
  reg : NoResult s.mobusRequstResult s.reg
  given : s.tcpSem = true → s.mobusRequstResult = false
  woken : s.tcp = .woken true → s.mobusRequstResult = false

/-- A step of the call keeps it. -/
lemma Silent.tcp {s t : Bridge.State} (hs : Silent s) (h : Bridge.tcpStep s = some t) :
    Silent t := by
  unfold Bridge.tcpStep at h
  cases htcp : s.tcp with
  | outside | returned _ =>
      rw [htcp] at h
      cases h
  | entered | dataStored | lenStored | woken _ =>
      rw [htcp] at h
      obtain rfl := Option.some.inj h
      exact ⟨hs.reg, hs.given, nofun⟩
  | waiting since =>
      simp only [htcp] at h
      split_ifs at h with hsem
      · obtain rfl := Option.some.inj h
        exact ⟨hs.reg, nofun, fun _ => hs.given hsem⟩
      · obtain rfl := Option.some.inj h
        exact ⟨hs.reg, hs.given, nofun⟩

/-- A step of the regulator task keeps it. -/
lemma Silent.regStep {s t : Bridge.State} (hs : Silent s) (h : Bridge.regStep s = some t) :
    Silent t := by
  have hreg' := hs.reg
  unfold Bridge.regStep at h
  cases hreg : s.reg with
  | polling =>
      rw [hreg] at h
      obtain rfl := Option.some.inj h
      refine ⟨?_, hs.given, hs.woken⟩
      dsimp only
      split_ifs <;> trivial
  | tested | dataLoaded req =>
      rw [hreg] at h
      obtain rfl := Option.some.inj h
      exact ⟨trivial, hs.given, hs.woken⟩
  | called req reqLength =>
      rw [hreg] at h
      cases req with
      | none => cases h
      | some req =>
          cases reqLength with
          | none => cases h
          | some reqLength =>
              obtain rfl := Option.some.inj h
              exact ⟨trivial, hs.given, hs.woken⟩
  | sent req reqLength =>
      rw [hreg] at h
      cases h
  | received req reqLength length =>
      rw [hreg] at hreg'
      exact hreg'.elim
  | done result =>
      rw [hreg] at h hreg'
      obtain rfl := Option.some.inj h
      exact ⟨hreg', fun _ => hreg', fun _ => hreg'⟩
  | stored =>
      rw [hreg] at h hreg'
      obtain rfl := Option.some.inj h
      exact ⟨hreg', hs.given, hs.woken⟩
  | cleared =>
      rw [hreg] at h hreg'
      obtain rfl := Option.some.inj h
      exact ⟨trivial, fun _ => hreg', hs.woken⟩

/-- A reply that is not valid keeps it. -/
lemma Silent.receive {s t : Bridge.State} (hs : Silent s) {reply : Bridge.Reply}
    (hreply : reply.rc < 3) (h : Bridge.receiveStep s reply = some t) : Silent t := by
  unfold Bridge.receiveStep at h
  cases hreg : s.reg with
  | sent req reqLength =>
      simp only [hreg, if_pos hreply] at h
      obtain rfl := Option.some.inj h
      exact ⟨rfl, hs.given, hs.woken⟩
  | polling | tested | dataLoaded _ | called _ _ | received _ _ _ | done _ | stored | cleared =>
      rw [hreg] at h
      cases h

/-- Every event without a valid reply keeps it. -/
lemma Silent.step {s t : Bridge.State} (hs : Silent s) {e : Bridge.Event} (he : Silence e)
    (h : Bridge.step s e = some t) : Silent t := by
  cases e with
  | tick =>
      obtain rfl := Option.some.inj h
      exact ⟨hs.reg, hs.given, hs.woken⟩
  | enter req reqLength packet length => exact he.elim
  | tcp => exact hs.tcp h
  | reg => exact hs.regStep h
  | receive reply => exact hs.receive he h

/-- A call that begins with the mailbox idle has no result yet. -/
lemma silent_enter {s t : Bridge.State} (hinv : Bridge.MailboxInv s) {req reqLength : ℕ}
    {packet : Buffer} {length : BitVec 16}
    (h : Bridge.step s (.enter req reqLength packet length) = some t) : Silent t := by
  have hsilent : s.Idle → Silent (Bridge.enter s req reqLength packet length) := by
    rintro ⟨hsem, hserving⟩
    refine ⟨?_, fun hgiven => ?_, nofun⟩
    · change NoResult s.mobusRequstResult s.reg
      cases hreg : s.reg with
      | polling | tested => trivial
      | _ =>
          rw [hreg] at hserving
          cases hserving
    · exact absurd (hsem.symm.trans hgiven) Bool.false_ne_true
  simp only [Bridge.step] at h
  cases htcp : s.tcp with
  | outside =>
      rw [Bridge.MailboxInv, htcp] at hinv
      rw [htcp] at h
      rw [← Option.some.inj h]
      exact hsilent hinv
  | returned result =>
      rw [Bridge.MailboxInv, htcp] at hinv
      rw [htcp] at h
      rw [← Option.some.inj h]
      cases result with
      | true => exact hsilent hinv.1
      | false => exact hsilent hinv
  | entered | dataStored | lenStored | waiting _ | woken _ =>
      rw [htcp] at h
      cases h

/-- **Silence is taken for an echo.** In every run whose steps up to a call are attended, a call
without a valid reply (silence, a bad checksum, a wait that runs out, a regulator that is not
there) ends in a frame that is the request. -/
theorem echo_of_silence (port : Port) (hconn : port.newconn = true) (inbuf : Netbuf)
    (hwf : WellFormed inbuf.payload) (hunit : inbuf.payload[6]? ≠ some 2)
    {es es' : List Bridge.Event} {s₀ s t : Bridge.State} {req reqLength : ℕ} {packet : Buffer}
    {length : BitVec 16} {given : Bool}
    (hok : Machine.Meets Bridge.step Bridge.Attended Bridge.init es)
    (hrun : Machine.run Bridge.step Bridge.init es = some s₀)
    (hwait : Machine.run Bridge.step s₀ (.enter req reqLength packet length :: es') = some s)
    (hsilence : ∀ e ∈ es', Silence e) (hwoken : s.tcp = .woken given)
    (hreturn : Bridge.step s .tcp = some t) :
    ∃ r, xMBTCPPortGetRequest (fun _ _ => answerOf t) port (.ok inbuf) = some r ∧
      r.sent = some inbuf.payload := by
  have hinit : Bridge.MailboxInv Bridge.init := ⟨rfl, rfl⟩
  have hinv : Bridge.MailboxInv s₀ :=
    Machine.run_induction (fun _ _ _ hI hs ht => hI.step hs ht) hinit hok hrun
  obtain ⟨u, hu, hrest⟩ := Machine.run_cons hwait
  have hsilent : Silent s :=
    Machine.run_induction (fun _ _ _ hI hs ht => Silent.step hI hs ht) (silent_enter hinv hu)
      (Machine.meets_of_forall hsilence u) hrest
  have hfail : (answerOf t).result = false := by
    rw [answerOf_return hwoken hreturn]
    cases given with
    | false => rfl
    | true => exact hsilent.woken hwoken
  obtain ⟨r, hr, hsent⟩ := sent_of_regulator hconn hwf hunit fun _ _ => answerOf t
  rw [regTcpModbusRequest_fail (fun _ _ => rfl) hfail] at hsent
  exact ⟨r, hr, hsent⟩

/-- A regulator that is not there: the wait runs out after 1000 ticks. -/
def disconnectedWait : List Bridge.Event :=
  List.replicate 3 Bridge.Event.tcp ++ List.replicate 1000 Bridge.Event.tick ++ [Bridge.Event.tcp]

/-- **A request is sent back.** A write to the regulator is confirmed by the frame of the request
when the regulator is not there. -/
theorem request_sent_back :
    ¬ ∀ (port : Port) (inbuf : Netbuf), port.newconn = true → WellFormed inbuf.payload →
      8 ≤ inbuf.payload.length → inbuf.payload[6]? ≠ some 2 →
      ∀ (es : List Bridge.Event) (packet : Buffer) (length : BitVec 16) (s t : Bridge.State)
        (given : Bool),
        Machine.run Bridge.step Bridge.init (.enter 0 0 packet length :: es) = some s →
        (∀ e ∈ es, Silence e) → s.tcp = .woken given → Bridge.step s .tcp = some t →
        ∀ r frame, xMBTCPPortGetRequest (fun _ _ => answerOf t) port (.ok inbuf) = some r →
          r.sent = some frame →
          ¬ NormalReply inbuf.payload frame ∧ frame ≠ inbuf.payload := by
  intro hall
  have hview : (Machine.run Bridge.step Bridge.init (.enter 0 0
      (fun i => unitRequest.payload.getD (6 + i) 0) 6 :: disconnectedWait)).map (fun s => s.tcp)
        = some (.woken false) := by
    decide +kernel
  have hsilence : ∀ e ∈ disconnectedWait, Silence e := by
    intro e he
    simp only [disconnectedWait, List.mem_append, List.mem_replicate, List.mem_singleton] at he
    rcases he with (⟨-, rfl⟩ | ⟨-, rfl⟩) | rfl <;> trivial
  obtain ⟨s, hrun, hwoken⟩ := Option.map_eq_some_iff.mp hview
  obtain ⟨t, hreturn⟩ := exists_return hwoken
  have hunit : unitRequest.payload[6]? ≠ some 2 := by decide
  have hok : Machine.Meets Bridge.step Bridge.Attended Bridge.init [] := trivial
  obtain ⟨r, hr, hsent⟩ := echo_of_silence connected rfl unitRequest (by decide) hunit hok rfl hrun
    hsilence hwoken hreturn
  exact (hall connected unitRequest rfl (by decide) (by decide) hunit _ _ _ s t false hrun hsilence
    hwoken hreturn r _ hr hsent).2 rfl

end PanelFirmware.Regulator
