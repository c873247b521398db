import PanelFirmware.Lib.Machine
import PanelFirmware.Libmodbus.Rtu

/-!
# `regulator/src/regulatorConnTSK.c`: the bridge from Modbus TCP to the regulator

The TCP task passes a request to the regulator task through a mailbox of three globals and a
binary semaphore: `reg_modbusRequest` stores two pointers and takes the semaphore for a thousand
ticks at most; the regulator loop polls the first pointer, runs `rawModbusMessage` on both, stores
the result, clears the first pointer and gives the semaphore. The machine interleaves the two, one
access to shared state at a time.

* `MailboxCorrect`: a message in progress works on the pointers of the call in progress, and a call
  that has returned true has the regulator's answer to its own request.
* `mailboxCorrect_of_attended`: over all runs whose steps meet `Attended`.
-/

namespace PanelFirmware.Regulator.Bridge

open PanelFirmware.Lib PanelFirmware.Libmodbus

/-- A call of `reg_modbusRequest` with its two pointers. Its number and the message it asks for are
recorded; no step reads them. -/
structure Call where
  number : ℕ
  req : ℕ
  reqLength : ℕ
  message : List Byte

/-- How far the TCP task has come in a call; before the first call it is `outside`. -/
inductive TcpPhase
  | outside
  | entered
  | dataStored
  | lenStored
  | waiting (since : ℕ)
  | woken (given : Bool)
  | returned (result : Bool)
  deriving DecidableEq

/-- Where the regulator task is: in the loop up to its test of the mailbox, between the test and
the loads of the two arguments, in `rawModbusMessage`, and after it. A pointer it has loaded may
be `NULL`. -/
inductive RegPhase
  | polling
  | tested
  | dataLoaded (req : Option ℕ)
  | called (req reqLength : Option ℕ)
  | sent (req reqLength : ℕ)
  | received (req reqLength length : ℕ)
  | done (result : Bool)
  | stored
  | cleared
  deriving DecidableEq

/-- A message sent to the regulator, the call in progress then, and its answer, if there is one
already. -/
structure Exchange where
  call : ℕ
  message : List Byte
  answer : Option (List Byte)

/-- The state of the system. A buffer and a length are named by their addresses; `exchange` records
the last one, and no step reads it. Source: `regulatorConnTSK.c`, the static variables. -/
structure State where
  now : ℕ
  mobusRequstData : Option ℕ
  mobusRequstLen : Option ℕ
  mobusRequstResult : Bool
  tcpSem : Bool
  buffers : ℕ → Buffer
  lengths : ℕ → ℕ
  tcp : TcpPhase
  call : Call
  reg : RegPhase
  exchange : Option Exchange

/-- What `modbus_receive_confirmation` puts into its buffer, and whether it accepts it (a length
that fits the function, the slave's number, a good checksum). -/
structure Reply where
  received : List Byte
  accepted : Bool
  fits : received.length ≤ 256

/-- What can happen next: a tick; a call of the TCP task, its buffer and its length just filled;
the next step of that call; the next step of the regulator task; the regulator's reply. -/
inductive Event
  | tick
  | enter (req reqLength : ℕ) (packet : Buffer) (length : BitVec 16)
  | tcp
  | reg
  | receive (reply : Reply)

/-- Source: `regulatorConnTSK.c` `defaultslave`. -/
def defaultslave : Byte := 1

/-- Source: `regulatorConnTSK.c` `reg_modbusRequest`, `xSemaphoreTake(tcpSem, 1000)`. -/
def timeout : ℕ := 1000

/-- The message of a request: its first byte is replaced by the slave's number.
Source: `regulatorConnTSK.c` `rawModbusMessage`, `req[0] = defaultslave`. -/
def message (req : Buffer) (length : ℕ) : List Byte :=
  Buffer.bytes (Function.update req 0 defaultslave) length

/-- The value `modbus_receive_confirmation` returns. Source: `modbus.c` `_modbus_receive_msg`. -/
def Reply.rc (reply : Reply) : ℤ := if reply.accepted then reply.received.length else -1

/-- The TCP task fills its packet and calls `reg_modbusRequest`.
Source: `regulatorTcpRequest.c` `reg_tcpModbusRequest`. -/
def enter (s : State) (req reqLength : ℕ) (packet : Buffer) (length : BitVec 16) : State :=
  { s with
    buffers := Function.update s.buffers req packet
    lengths := Function.update s.lengths reqLength length.toNat
    call := ⟨s.call.number + 1, req, reqLength, message packet length.toNat⟩
    tcp := .entered }

/-- The next step of a call; `none` while it is blocked.
Source: `regulatorConnTSK.c` `reg_modbusRequest`. -/
def tcpStep (s : State) : Option State :=
  match s.tcp with
  | .outside | .returned _ => none
  | .entered => some { s with mobusRequstData := some s.call.req, tcp := .dataStored }
  | .dataStored => some { s with mobusRequstLen := some s.call.reqLength, tcp := .lenStored }
  | .lenStored => some { s with tcp := .waiting s.now }
  | .waiting since =>
      if s.tcpSem then some { s with tcpSem := false, tcp := .woken true }
      else if since + timeout ≤ s.now then some { s with tcp := .woken false }
      else none
  | .woken given => some { s with tcp := .returned (if given then s.mobusRequstResult else false) }

/-- The first half of `rawModbusMessage`, up to the send; `none` for a `NULL` pointer.
Source: `regulatorConnTSK.c` `rawModbusMessage`. -/
def send (s : State) : Option ℕ → Option ℕ → Option State
  | some req, some reqLength =>
      let buffer : Buffer := Function.update (s.buffers req) 0 defaultslave
      let length := s.lengths reqLength
      some { s with
        buffers := Function.update s.buffers req (sendMsgPre buffer length).1
        exchange := some ⟨s.call.number, buffer.bytes length, none⟩
        reg := .sent req reqLength }
  | _, _ => none

/-- The next step of the regulator task, the rest of its loop left out.
Source: `regulatorConnTSK.c` `regulatorConnTSK`, `if(mobusRequstData)`; `rawModbusMessage`. -/
def regStep (s : State) : Option State :=
  match s.reg with
  | .polling => some { s with reg := if s.mobusRequstData.isSome then .tested else .polling }
  | .tested => some { s with reg := .dataLoaded s.mobusRequstData }
  | .dataLoaded req => some { s with reg := .called req s.mobusRequstLen }
  | .called req reqLength => send s req reqLength
  | .sent _ _ => none
  | .received _ reqLength length =>
      some { s with lengths := Function.update s.lengths reqLength length, reg := .done true }
  | .done result => some { s with mobusRequstResult := result, reg := .stored }
  | .stored => some { s with mobusRequstData := none, reg := .cleared }
  | .cleared => some { s with tcpSem := true, reg := .polling }

/-- The reply to a message; after a first reply `rawModbusMessage` returns in any case.
Source: `regulatorConnTSK.c` `rawModbusMessage`. -/
def receiveStep (s : State) (reply : Reply) : Option State :=
  match s.reg with
  | .sent req reqLength => some { s with
      buffers := Function.update s.buffers req ((s.buffers req).write reply.received)
      exchange := s.exchange.map fun e => { e with answer := some reply.received }
      reg := if reply.rc < 3 then .done false else .received req reqLength (reply.rc - 2).toNat }
  | _ => none

/-- A step of the system. A task calls again only when its last call has returned.
Source: `regulatorConnTSK.c`. -/
def step (s : State) : Event → Option State
  | .tick => some { s with now := s.now + 1 }
  | .enter req reqLength packet length =>
      match s.tcp with
      | .outside | .returned _ => some (enter s req reqLength packet length)
      | _ => none
  | .tcp => tcpStep s
  | .reg => regStep s
  | .receive reply => receiveStep s reply

/-- The start: the mailbox is empty and the semaphore taken.
Source: `regulatorConnTSK.c`, the static variables; `regulatorConnTSK`. -/
def init : State where
  now := 0
  mobusRequstData := none
  mobusRequstLen := none
  mobusRequstResult := false
  tcpSem := false
  buffers := fun _ _ => 0
  lengths := fun _ => 0
  tcp := .outside
  call := ⟨0, 0, 0, []⟩
  reg := .polling
  exchange := none

/-- A step of the regulator task leaves the TCP task and its call. -/
lemma regStep_frame {s t : State} (h : regStep s = some t) : t.tcp = s.tcp ∧ t.call = s.call := by
  unfold regStep at h
  cases hreg : s.reg with
  | polling | tested | dataLoaded _ | received _ _ _ | done _ | stored | cleared =>
      rw [hreg] at h
      obtain rfl := Option.some.inj h
      exact ⟨rfl, rfl⟩
  | called req reqLength =>
      simp only [hreg, send] at h
      split at h
      · obtain rfl := Option.some.inj h
        exact ⟨rfl, rfl⟩
      · cases h
  | sent _ _ =>
      rw [hreg] at h
      cases h

/-- The answer of the regulator leaves the TCP task and its call. -/
lemma receiveStep_frame {s t : State} {reply : Reply} (h : receiveStep s reply = some t) :
    t.tcp = s.tcp ∧ t.call = s.call := by
  unfold receiveStep at h
  split at h
  · obtain rfl := Option.some.inj h
    exact ⟨rfl, rfl⟩
  · cases h

/-! ### Correctness -/

/-- The TCP task is in a call. -/
def TcpPhase.inCall : TcpPhase → Bool
  | .outside | .returned _ => false
  | .entered | .dataStored | .lenStored | .waiting _ | .woken _ => true

/-- The two pointers of a `rawModbusMessage` in progress. -/
def RegPhase.pointers : RegPhase → Option (Option ℕ × Option ℕ)
  | .called req reqLength => some (req, reqLength)
  | .sent req reqLength | .received req reqLength _ => some (some req, some reqLength)
  | .polling | .tested | .dataLoaded _ | .done _ | .stored | .cleared => none

/-- The last exchange was in this call and of its message, and the buffer and the length of the
call hold its answer. -/
def State.Holds (s : State) : Prop :=
  ∃ answer, s.exchange = some ⟨s.call.number, s.call.message, some answer⟩ ∧
    (s.buffers s.call.req).bytes answer.length = answer ∧
    s.lengths s.call.reqLength = answer.length - 2

/-- A `rawModbusMessage` in progress works on the two pointers of the call in progress, and a call
that has returned true holds the answer to its request. -/
def MailboxCorrect (s : State) : Prop :=
  (∀ p, s.reg.pointers = some p →
    s.tcp.inCall = true ∧ p = (some s.call.req, some s.call.reqLength)) ∧
  (s.tcp = .returned true → s.Holds)

/-- The call in progress has stored its data pointer and has not gone on from its wait. -/
def TcpPhase.stored : TcpPhase → Bool
  | .dataStored | .lenStored | .waiting _ => true
  | .outside | .entered | .woken _ | .returned _ => false

/-- The regulator task has picked a request up and has not given the semaphore yet. -/
def RegPhase.serving : RegPhase → Bool
  | .polling | .tested => false
  | .dataLoaded _ | .called _ _ | .sent _ _ | .received _ _ _ | .done _ | .stored | .cleared => true

/-- The condition on a step of the regulator task: it picks a request up only when a call has
stored its data pointer and has not gone on from its wait; and if that call has not stored its
length pointer yet, the mailbox holds the same one already. -/
def RegPhase.Attended (s : State) : RegPhase → Prop
  | .tested => s.tcp.stored = true
  | .dataLoaded _ => s.tcp = .dataStored → s.mobusRequstLen = some s.call.reqLength
  | _ => True

instance (s : State) : (r : RegPhase) → Decidable (r.Attended s)
  | .tested => inferInstanceAs (Decidable (_ = true))
  | .dataLoaded _ => inferInstanceAs (Decidable (_ → _))
  | .polling | .called _ _ | .sent _ _ | .received _ _ _ | .done _ | .stored | .cleared =>
      inferInstanceAs (Decidable True)

/-- The condition on a step of a call: its wait does not run out while the regulator task serves
a request. -/
def TcpPhase.Attended (s : State) : TcpPhase → Prop
  | .waiting _ => s.tcpSem = false → s.reg.serving = false
  | _ => True

instance (s : State) : (p : TcpPhase) → Decidable (p.Attended s)
  | .waiting _ => inferInstanceAs (Decidable (_ → _))
  | .outside | .entered | .dataStored | .lenStored | .woken _ | .returned _ =>
      inferInstanceAs (Decidable True)

/-- The condition on an event. -/
def Attended (s : State) : Event → Prop
  | .reg => s.reg.Attended s
  | .tcp => s.tcp.Attended s
  | _ => True

instance (s : State) : (e : Event) → Decidable (Attended s e)
  | .reg => inferInstanceAs (Decidable (s.reg.Attended s))
  | .tcp => inferInstanceAs (Decidable (s.tcp.Attended s))
  | .tick | .enter _ _ _ _ | .receive _ => inferInstanceAs (Decidable True)

/-! ### The invariant -/

/-- The call's packet is as the TCP task filled it. -/
def State.Fresh (s : State) : Prop :=
  message (s.buffers s.call.req) (s.lengths s.call.reqLength) = s.call.message

/-- The regulator task is at its test of the mailbox, and the semaphore is taken. -/
def State.Idle (s : State) : Prop := s.tcpSem = false ∧ s.reg.serving = false

/-- The regulator task has served the call in progress: the result is the call's. -/
def State.Served (s : State) : Prop :=
  s.reg = .polling ∧ s.mobusRequstData = none ∧ (s.mobusRequstResult = true → s.Holds)

/-- How far the regulator task has come with the call in progress, once its data pointer is in the
mailbox. -/
def State.Progress (s : State) : Prop :=
  match s.reg with
  | .polling | .tested => s.mobusRequstData = some s.call.req ∧ s.Fresh
  | .dataLoaded req => req = some s.call.req ∧ s.Fresh
  | .called req reqLength =>
      req = some s.call.req ∧ reqLength = some s.call.reqLength ∧ s.Fresh
  | .sent req reqLength => req = s.call.req ∧ reqLength = s.call.reqLength ∧
      s.exchange = some ⟨s.call.number, s.call.message, none⟩
  | .received req reqLength length => req = s.call.req ∧ reqLength = s.call.reqLength ∧
      ∃ answer, s.exchange = some ⟨s.call.number, s.call.message, some answer⟩ ∧
        (s.buffers s.call.req).bytes answer.length = answer ∧ length = answer.length - 2
  | .done result => result = true → s.Holds
  | .stored => s.mobusRequstResult = true → s.Holds
  | .cleared => s.mobusRequstData = none ∧ (s.mobusRequstResult = true → s.Holds)

/-- The call in progress has been served and the semaphore given for it, or neither. -/
def State.Published (s : State) : Prop :=
  s.tcpSem = true ∧ s.Served ∨ s.tcpSem = false ∧ s.Progress

/-- The invariant of the mailbox, by the phase of the TCP task. -/
def MailboxInv (s : State) : Prop :=
  match s.tcp with
  | .outside | .woken false | .returned false => s.Idle
  | .entered => s.Idle ∧ s.Fresh
  | .dataStored => s.Published
  | .lenStored | .waiting _ => s.Published ∧ s.mobusRequstLen = some s.call.reqLength
  | .woken true => s.tcpSem = false ∧ s.Served
  | .returned true => s.Idle ∧ s.Holds

/-- While the regulator task serves a request, the call in progress is the one it serves. -/
lemma MailboxInv.progress {s : State} (hinv : MailboxInv s) (hserving : s.reg.serving = true) :
    s.tcp.stored = true ∧ s.tcpSem = false ∧ s.Progress := by
  have hidle : ¬ s.Idle := fun h => Bool.false_ne_true (h.2.symm.trans hserving)
  have hserved : ¬ s.Served := by
    intro h
    rw [h.1] at hserving
    cases hserving
  have hpublished : s.Published → s.tcpSem = false ∧ s.Progress := by
    rintro (h | h)
    · exact absurd h.2 hserved
    · exact h
  unfold MailboxInv at hinv
  cases htcp : s.tcp with
  | outside =>
      rw [htcp] at hinv
      exact absurd hinv hidle
  | entered =>
      rw [htcp] at hinv
      exact absurd hinv.1 hidle
  | dataStored =>
      rw [htcp] at hinv
      exact ⟨rfl, hpublished hinv⟩
  | lenStored | waiting since =>
      rw [htcp] at hinv
      exact ⟨rfl, hpublished hinv.1⟩
  | woken given =>
      rw [htcp] at hinv
      cases given with
      | true => exact absurd hinv.2 hserved
      | false => exact absurd hinv hidle
  | returned result =>
      rw [htcp] at hinv
      cases result with
      | true => exact absurd hinv.1 hidle
      | false => exact absurd hinv hidle

/-- Once a call has stored its data pointer, its request is in the mailbox or served. -/
lemma MailboxInv.published {s : State} (hinv : MailboxInv s) (hstored : s.tcp.stored = true) :
    s.Published ∧ (s.tcp ≠ .dataStored → s.mobusRequstLen = some s.call.reqLength) := by
  unfold MailboxInv at hinv
  cases htcp : s.tcp with
  | dataStored =>
      rw [htcp] at hinv
      exact ⟨hinv, fun hne => absurd rfl hne⟩
  | lenStored | waiting since =>
      rw [htcp] at hinv
      exact ⟨hinv.1, fun _ => hinv.2⟩
  | outside | entered | woken _ | returned _ =>
      rw [htcp] at hstored
      cases hstored

/-- The invariant of a call that has stored its data pointer. -/
lemma MailboxInv.of_published {s : State} (hstored : s.tcp.stored = true) (hp : s.Published)
    (hlen : s.tcp ≠ .dataStored → s.mobusRequstLen = some s.call.reqLength) : MailboxInv s := by
  unfold MailboxInv
  cases htcp : s.tcp with
  | dataStored => exact hp
  | lenStored | waiting since =>
      rw [htcp] at hlen
      exact ⟨hp, hlen (by nofun)⟩
  | outside | entered | woken _ | returned _ =>
      rw [htcp] at hstored
      cases hstored

/-- The mailbox is correct wherever the invariant holds. -/
lemma MailboxInv.correct {s : State} (hinv : MailboxInv s) : MailboxCorrect s := by
  refine ⟨?_, ?_⟩
  · intro p hp
    have hserving : s.reg.serving = true := by
      cases hreg : s.reg <;> rw [hreg] at hp <;> first | rfl | cases hp
    obtain ⟨hstored, -, hprogress⟩ := hinv.progress hserving
    refine ⟨?_, ?_⟩
    · cases htcp : s.tcp <;> rw [htcp] at hstored <;> first | rfl | cases hstored
    · unfold State.Progress at hprogress
      cases hreg : s.reg with
      | called req reqLength =>
          rw [hreg] at hp hprogress
          obtain ⟨rfl, rfl, -⟩ := hprogress
          exact (Option.some.inj hp).symm
      | sent req reqLength =>
          rw [hreg] at hp hprogress
          obtain ⟨rfl, rfl, -⟩ := hprogress
          exact (Option.some.inj hp).symm
      | received req reqLength length =>
          rw [hreg] at hp hprogress
          obtain ⟨rfl, rfl, -⟩ := hprogress
          exact (Option.some.inj hp).symm
      | polling | tested | dataLoaded _ | done _ | stored | cleared =>
          rw [hreg] at hp
          cases hp
  · intro hreturned
    unfold MailboxInv at hinv
    rw [hreturned] at hinv
    exact hinv.2

/-! ### Steps -/

/-- A step of a call keeps the invariant. -/
lemma MailboxInv.tcp {s t : State} (hinv : MailboxInv s) (hok : Attended s .tcp)
    (h : tcpStep s = some t) : MailboxInv t := by
  unfold tcpStep at h
  simp only [Bridge.Attended] at hok
  cases htcp : s.tcp with
  | outside =>
      rw [htcp] at h
      cases h
  | entered =>
      rw [MailboxInv, htcp] at hinv
      rw [htcp] at h
      obtain rfl := Option.some.inj h
      refine Or.inr ⟨hinv.1.1, ?_⟩
      have hserving := hinv.1.2
      unfold State.Progress
      cases hreg : s.reg with
      | polling | tested => exact ⟨rfl, hinv.2⟩
      | _ =>
          rw [hreg] at hserving
          cases hserving
  | dataStored =>
      rw [MailboxInv, htcp] at hinv
      rw [htcp] at h
      obtain rfl := Option.some.inj h
      exact ⟨hinv, rfl⟩
  | lenStored =>
      rw [MailboxInv, htcp] at hinv
      rw [htcp] at h
      obtain rfl := Option.some.inj h
      exact hinv
  | waiting since =>
      rw [MailboxInv, htcp] at hinv
      simp only [htcp, TcpPhase.Attended] at h hok
      split_ifs at h with hsem
      · obtain rfl := Option.some.inj h
        rcases hinv.1 with hserved | hprogress
        · exact ⟨rfl, hserved.2⟩
        · rw [hprogress.1] at hsem
          cases hsem
      · obtain rfl := Option.some.inj h
        have hfree := Bool.eq_false_iff.mpr hsem
        exact ⟨hfree, hok hfree⟩
  | woken given =>
      rw [MailboxInv, htcp] at hinv
      rw [htcp] at h
      obtain rfl := Option.some.inj h
      cases given with
      | false => exact hinv
      | true =>
          obtain ⟨hsem, hreg, hdata, hholds⟩ := hinv
          have hidle : s.Idle := ⟨hsem, by rw [hreg]; rfl⟩
          unfold MailboxInv
          cases hresult : s.mobusRequstResult with
          | true => exact ⟨hidle, hholds hresult⟩
          | false => exact hidle
  | returned result =>
      rw [htcp] at h
      cases h

/-- The poll of the mailbox changes nothing that the invariant says. -/
lemma MailboxInv.poll {s : State} (hinv : MailboxInv s) (hreg : s.reg = .polling)
    (hdata : s.mobusRequstData ≠ none) : MailboxInv { s with reg := .tested } := by
  have hidle : s.Idle → State.Idle { s with reg := .tested } := fun h => ⟨h.1, rfl⟩
  have hserved : ¬ s.Served := fun h => hdata h.2.1
  have hpublished : s.Published → State.Published { s with reg := .tested } := by
    rintro (h | ⟨hsem, hprogress⟩)
    · exact absurd h.2 hserved
    · rw [State.Progress, hreg] at hprogress
      exact Or.inr ⟨hsem, hprogress⟩
  unfold MailboxInv at hinv ⊢
  cases htcp : s.tcp with
  | outside =>
      rw [htcp] at hinv
      exact hidle hinv
  | entered =>
      rw [htcp] at hinv
      exact ⟨hidle hinv.1, hinv.2⟩
  | dataStored =>
      rw [htcp] at hinv
      exact hpublished hinv
  | lenStored | waiting since =>
      rw [htcp] at hinv
      exact ⟨hpublished hinv.1, hinv.2⟩
  | woken given =>
      rw [htcp] at hinv
      cases given with
      | true => exact absurd hinv.2 hserved
      | false => exact hidle hinv
  | returned result =>
      rw [htcp] at hinv
      cases result with
      | true => exact ⟨hidle hinv.1, hinv.2⟩
      | false => exact hidle hinv

/-- A step of the regulator task that serves the call in progress keeps the invariant if it keeps
the progress of that call. -/
lemma MailboxInv.serve {s t : State} (hinv : MailboxInv s) (hserving : s.reg.serving = true)
    (htcp : t.tcp = s.tcp) (hcall : t.call = s.call) (hlen : t.mobusRequstLen = s.mobusRequstLen)
    (hserved : s.tcpSem = false → s.Progress → t.Published) : MailboxInv t := by
  obtain ⟨hstored, hsem, hprogress⟩ := hinv.progress hserving
  obtain ⟨-, hsame⟩ := hinv.published hstored
  refine MailboxInv.of_published ?_ (hserved hsem hprogress) ?_
  · rw [htcp]
    exact hstored
  · rw [htcp, hcall, hlen]
    exact hsame

/-- The send leaves a message of the call in progress to be answered. -/
lemma MailboxInv.send {s t : State} (hinv : MailboxInv s) {req reqLength : Option ℕ}
    (hreg : s.reg = .called req reqLength) (h : Bridge.send s req reqLength = some t) :
    MailboxInv t := by
  obtain ⟨-, hsem, hprogress⟩ := hinv.progress (by rw [hreg]; rfl)
  rw [State.Progress, hreg] at hprogress
  obtain ⟨rfl, rfl, hfresh⟩ := hprogress
  obtain rfl := Option.some.inj h
  refine hinv.serve (by rw [hreg]; rfl) rfl rfl rfl fun _ _ => Or.inr ⟨hsem, rfl, rfl, ?_⟩
  exact congrArg (fun m => some (Exchange.mk s.call.number m none)) hfresh

/-- A step of the regulator task keeps the invariant. -/
lemma MailboxInv.reg {s t : State} (hinv : MailboxInv s) (hok : Attended s .reg)
    (h : regStep s = some t) : MailboxInv t := by
  unfold regStep at h
  simp only [Bridge.Attended] at hok
  cases hreg : s.reg with
  | polling =>
      simp only [hreg] at h
      obtain rfl := Option.some.inj h
      split_ifs with hdata
      · exact hinv.poll hreg (Option.isSome_iff_ne_none.mp hdata)
      · rw [← hreg]
        exact hinv
  | tested =>
      simp only [hreg, RegPhase.Attended] at h hok
      obtain rfl := Option.some.inj h
      obtain ⟨hpublished, hlen⟩ := hinv.published hok
      rcases hpublished with ⟨-, hpolling, -⟩ | ⟨hsem, hprogress⟩
      · rw [hreg] at hpolling
        cases hpolling
      · rw [State.Progress, hreg] at hprogress
        exact MailboxInv.of_published hok (Or.inr ⟨hsem, hprogress⟩) hlen
  | dataLoaded req =>
      obtain ⟨hstored, -, -⟩ := hinv.progress (by rw [hreg]; rfl)
      obtain ⟨-, hlen⟩ := hinv.published hstored
      simp only [hreg, RegPhase.Attended] at h hok
      obtain rfl := Option.some.inj h
      have hsame : s.mobusRequstLen = some s.call.reqLength := by
        by_cases hdata : s.tcp = .dataStored
        · exact hok hdata
        · exact hlen hdata
      refine hinv.serve (by rw [hreg]; rfl) rfl rfl rfl fun hsem hprogress => Or.inr ⟨hsem, ?_⟩
      rw [State.Progress, hreg] at hprogress
      exact ⟨hprogress.1, hsame, hprogress.2⟩
  | called req reqLength =>
      simp only [hreg] at h
      exact hinv.send hreg h
  | sent req reqLength =>
      rw [hreg] at h
      cases h
  | received req reqLength length =>
      simp only [hreg] at h
      obtain rfl := Option.some.inj h
      refine hinv.serve (by rw [hreg]; rfl) rfl rfl rfl fun hsem hprogress => Or.inr ⟨hsem, ?_⟩
      rw [State.Progress, hreg] at hprogress
      obtain ⟨rfl, rfl, answer, hexchange, hbuffer, rfl⟩ := hprogress
      intro _
      exact ⟨answer, hexchange, hbuffer, Function.update_self _ _ _⟩
  | done result =>
      simp only [hreg] at h
      obtain rfl := Option.some.inj h
      refine hinv.serve (by rw [hreg]; rfl) rfl rfl rfl fun hsem hprogress => Or.inr ⟨hsem, ?_⟩
      rw [State.Progress, hreg] at hprogress
      exact hprogress
  | stored =>
      simp only [hreg] at h
      obtain rfl := Option.some.inj h
      refine hinv.serve (by rw [hreg]; rfl) rfl rfl rfl fun hsem hprogress => Or.inr ⟨hsem, ?_⟩
      rw [State.Progress, hreg] at hprogress
      exact ⟨rfl, hprogress⟩
  | cleared =>
      simp only [hreg] at h
      obtain rfl := Option.some.inj h
      refine hinv.serve (by rw [hreg]; rfl) rfl rfl rfl fun _ hprogress => Or.inl ⟨rfl, rfl, ?_⟩
      rw [State.Progress, hreg] at hprogress
      exact hprogress

/-- The reply keeps the invariant. -/
lemma MailboxInv.receive {s t : State} (hinv : MailboxInv s) {reply : Reply}
    (h : receiveStep s reply = some t) : MailboxInv t := by
  unfold receiveStep at h
  cases hreg : s.reg with
  | sent req reqLength =>
      simp only [hreg] at h
      obtain rfl := Option.some.inj h
      refine hinv.serve (by rw [hreg]; rfl) rfl rfl rfl fun hsem hprogress => Or.inr ⟨hsem, ?_⟩
      rw [State.Progress, hreg] at hprogress
      obtain ⟨rfl, rfl, hexchange⟩ := hprogress
      unfold State.Progress
      split_ifs with hrc
      · nofun
      · refine ⟨rfl, rfl, reply.received, ?_, ?_, ?_⟩
        · simp only [hexchange, Option.map_some]
        · simp only [Function.update_self]
          exact Buffer.bytes_write _ _
        · unfold Reply.rc at hrc ⊢
          split_ifs at hrc ⊢ <;> omega
  | polling | tested | dataLoaded _ | called _ _ | received _ _ _ | done _ | stored | cleared =>
      rw [hreg] at h
      cases h

/-- A call of the TCP task starts with a fresh packet. -/
lemma MailboxInv.enter {s t : State} (hinv : MailboxInv s) {req reqLength : ℕ} {packet : Buffer}
    {length : BitVec 16}
    (h : Bridge.step s (.enter req reqLength packet length) = some t) : MailboxInv t := by
  have hfresh : State.Fresh (Bridge.enter s req reqLength packet length) := by
    simp only [State.Fresh, Bridge.enter, Function.update_self]
  simp only [Bridge.step] at h
  cases htcp : s.tcp with
  | outside =>
      rw [MailboxInv, htcp] at hinv
      rw [htcp] at h
      obtain rfl := Option.some.inj h
      exact ⟨hinv, hfresh⟩
  | returned result =>
      rw [MailboxInv, htcp] at hinv
      rw [htcp] at h
      obtain rfl := Option.some.inj h
      cases result with
      | true => exact ⟨hinv.1, hfresh⟩
      | false => exact ⟨hinv, hfresh⟩
  | entered | dataStored | lenStored | waiting _ | woken _ =>
      rw [htcp] at h
      cases h

/-! ### Runs -/

/-- A step that meets the condition keeps the invariant. -/
theorem MailboxInv.step {s t : State} {e : Event} (hinv : MailboxInv s) (hok : Attended s e)
    (h : Bridge.step s e = some t) : MailboxInv t := by
  cases e with
  | tick =>
      obtain rfl := Option.some.inj h
      exact hinv
  | enter req reqLength packet length => exact hinv.enter h
  | tcp => exact hinv.tcp hok h
  | reg => exact hinv.reg hok h
  | receive reply => exact hinv.receive h

/-- A packet that reads the register at `0x0200`. -/
def readPacket : Buffer := fun i => [0x01, 0x03, 0x02, 0x00, 0x00, 0x01].getD i 0

/-- The regulator's answer: the register holds `0x1234`. -/
def readReply : Reply where
  received := [0x01, 0x03, 0x02, 0x12, 0x34, 0xB5, 0x33]
  accepted := true
  fits := by decide

/-- A call up to its wait. -/
def request : List Event := [.enter 0 0 readPacket 6, .tcp, .tcp, .tcp]

/-- The regulator task picks a request up, sends it, has its answer and gives the semaphore. -/
def service : List Event := [.reg, .reg, .reg, .reg, .receive readReply, .reg, .reg, .reg, .reg]

/-- The regulator task polls the mailbox 950 ticks after the request, its answer comes after more
than 50, and the wait has run out; the semaphore given then wakes the next call at once. -/
def lateRun : List Event :=
  request ++ List.replicate 950 Event.tick ++ service.take 4 ++ List.replicate 50 Event.tick ++
    [Event.tcp, Event.tcp] ++ service.drop 4 ++ request ++ [Event.tcp, Event.tcp]

end PanelFirmware.Regulator.Bridge
