import PanelFirmware.Modbus.PortTcp
import PanelFirmware.Regulator.TcpRequest

/-!
# `portfreemodbus/src/porttcp.cpp`: the receive path

`xMBTCPPortGetRequest` copies the first fragment of what `netconn_recv` delivers into a buffer of
256 bytes and looks at its seventh byte for the unit. `eMBTCPReceive` reads the frame whenever it
returns true. There are more ways to return true than the one with a frame for the panel.

* `safe_iff`: one call, on any connection and any contents of the buffer.
* `receiveSafe_iff`: the calls of a run of the stack's loop.
-/

namespace PanelFirmware.Modbus

open PanelFirmware.Lib PanelFirmware.Libmodbus PanelFirmware.Regulator

/-! ### The code -/

/-- A buffer that `netconn_recv` delivers: the fragment that `netbuf_data` gives, which is not
empty, and the bytes of the fragments after it.
Source: `lwip` `netbuf.c` `netbuf_data`, `netbuf_next`. -/
structure Netbuf where
  payload : List Byte
  next : List Byte
  payload_ne_nil : payload ≠ []

/-- What a call of `netconn_recv` comes to; after a timeout, whether the link is up.
Source: `porttcp.cpp` `xMBTCPPortGetRequest`, `res`. -/
inductive Received
  | ok (inbuf : Netbuf)
  | timeout (up : Bool)
  | error

/-- What `*ppucMBTCPFrame` is set to. Source: `porttcp.cpp` `xMBTCPPortGetRequest`. -/
inductive Frame
  | workbuffer
  | nullptr
  deriving DecidableEq

/-- The party a segment is passed to, and its bytes. -/
inductive Dispatch
  | panel (segment : List Byte)
  | regulator (segment : List Byte)
  deriving DecidableEq

/-- The port's data: whether there is a connection, the receive buffer, the bridge's packet and
the remote flag. Source: `porttcp.cpp` `newconn`, `workbuffer`; `regulatorTcpRequest.c`
`tcpModbusPacket`; `regulatorConnTSK.c` `gremote`. -/
structure Port where
  newconn : Bool
  workbuffer : Buffer
  tcpModbusPacket : Buffer
  gremote : Bool

/-- How `xMBTCPPortGetRequest` returns: its result and its two outputs, `none` where they are not
set. The party the segment was passed to and the frame sent are recorded. -/
structure Return where
  port : Port
  result : Bool
  frame : Option Frame
  usTCPLength : Option ℕ
  dispatch : Option Dispatch
  sent : Option (List Byte)

/-- `uint8_t workbuffer[256]`. Source: `porttcp.cpp`. -/
def workbufferSize : ℕ := 256

/-- `none` where the copy runs over the receive buffer.
Source: `porttcp.cpp` `xMBTCPPortGetRequest`. -/
def xMBTCPPortGetRequest (regModbusRequest : Buffer → ℕ → Answer) (port : Port) (res : Received) :
    Option Return :=
  if port.newconn then
    match res with
    | .ok inbuf =>
        let buflen := inbuf.payload.length
        if buflen ≤ workbufferSize then
          let workbuffer := port.workbuffer.write inbuf.payload
          if workbuffer 6 = 2 then
            some ⟨{ port with workbuffer }, true, some .workbuffer, some buflen,
              some (.panel (workbuffer.bytes buflen)), none⟩
          else
            let (tcpModbusPacket, reply) := regTcpModbusRequest regModbusRequest
              port.tcpModbusPacket (workbuffer.bytes buflen)
            -- the result is true as for the panel, and the frame a null pointer
            some ⟨⟨true, workbuffer, tcpModbusPacket, true⟩, true, some .nullptr, some 0,
              some (.regulator (workbuffer.bytes buflen)), some reply⟩
        else none
    | .timeout up =>
        if up then some ⟨port, true, none, none, none, none⟩
        else some ⟨{ port with gremote := false }, false, none, none, none, none⟩
    | .error =>
        some ⟨{ port with newconn := false, gremote := false }, false, none, none, none, none⟩
  else some ⟨port, true, none, none, none, none⟩

/-- The code, with the length of the frame handed on for `MB_ENOERR`; `none` where the frame that
is read is null or not set. Source: `freemodbus` `mbtcp.c` `eMBTCPReceive`. -/
def eMBTCPReceive (r : Return) : Option (MBErrorCode × Option ℕ) :=
  if r.result then
    match r.frame, r.usTCPLength with
    | some .workbuffer, some usLength =>
        let usPID := 256 * (r.port.workbuffer 2).toNat + (r.port.workbuffer 3).toNat
        if usPID = 0 then some (.enoerr, some ((usLength + 0x10000 - 7) % 0x10000))
        else some (.eio, none)
    | _, _ => none
  else some (.eio, none)

/-- The port after the poll, and its result; `accepted` is the result of `netconn_accept`.
Source: `porttcp.cpp` `xMBPortTCPPoll`. -/
def xMBPortTCPPoll (port : Port) (accepted : Bool) : Port × Bool :=
  if port.newconn then (port, true)
  else if accepted then ({ port with newconn := true }, true)
  else (port, false)

/-- The stack between two turns of its loop: `EV_EXECUTE` is in the queue or not.
Source: `portevent.c` `eQueuedEvent`, `xEventInQueue`. -/
structure Stack where
  port : Port
  execute : Bool

/-- What a turn of the loop meets: the results of `netconn_accept` and `netconn_recv`, the
regulator's answer, and, when a request is executed, what its handler leaves in the receive
buffer, in which it answers. -/
structure Turn where
  accepted : Bool
  res : Received
  regModbusRequest : Buffer → ℕ → Answer
  executed : Buffer

/-- The port a turn of the loop calls `xMBTCPPortGetRequest` with, if it does.
Source: `portevent.c` `xMBPortEventGet`; `freemodbus` `mb.c` `eMBPoll`, `EV_FRAME_RECEIVED`. -/
def frameReceived (s : Stack) (t : Turn) : Option Port :=
  if s.execute then none
  else
    match xMBPortTCPPoll s.port t.accepted with
    | (port, true) => some port
    | (_, false) => none

/-- A turn of the loop. Source: `freemodbus` `mb.c` `eMBPoll`. -/
def eMBPoll (s : Stack) (t : Turn) : Option Stack :=
  match frameReceived s t with
  | some port => do
      let r ← xMBTCPPortGetRequest t.regModbusRequest port t.res
      let (eStatus, _) ← eMBTCPReceive r
      some ⟨r.port, eStatus = .enoerr⟩
  | none =>
      if s.execute then some ⟨{ s.port with workbuffer := t.executed }, false⟩ else some s

/-- The start: no connection, and all static data zero. -/
def Stack.start : Stack := ⟨⟨false, fun _ => 0, fun _ => 0, false⟩, false⟩

/-! ### Safety -/

/-- A call is safe: it stores inside the receive buffer, it takes the unit from a byte of the
segment, it returns true only with a frame for the panel of at least eight bytes, which it has
received, and `eMBTCPReceive` reads no other one. -/
def Safe (regModbusRequest : Buffer → ℕ → Answer) (port : Port) (res : Received) : Prop :=
  ∃ r, xMBTCPPortGetRequest regModbusRequest port res = some r ∧
    (r.dispatch.isSome → ∃ inbuf, res = .ok inbuf ∧ 7 ≤ inbuf.payload.length) ∧
    (r.result = true → ∃ inbuf, res = .ok inbuf ∧ 8 ≤ inbuf.payload.length ∧
      inbuf.payload[6]? = some 2 ∧ r.frame = some .workbuffer ∧
      r.usTCPLength = some inbuf.payload.length ∧
      r.port.workbuffer.bytes inbuf.payload.length = inbuf.payload) ∧
    (eMBTCPReceive r).isSome

/-- The outcomes of `netconn_recv` that are handled: a segment for the panel that fits the buffer
and has a function code, a timeout when the link is down, and an error. -/
def Received.Handled : Received → Prop
  | .ok inbuf => 8 ≤ inbuf.payload.length ∧ inbuf.payload.length ≤ workbufferSize ∧
      inbuf.payload[6]? = some 2
  | .timeout up => up = false
  | .error => True

section Call

variable (regModbusRequest : Buffer → ℕ → Answer) {port : Port} (hconn : port.newconn = true)
include hconn

/-- A segment longer than the receive buffer overruns it. -/
lemma getRequest_overrun {inbuf : Netbuf} (h : workbufferSize < inbuf.payload.length) :
    xMBTCPPortGetRequest regModbusRequest port (.ok inbuf) = none := by
  simp only [xMBTCPPortGetRequest, hconn, if_true, if_neg (not_le.mpr h)]

/-- A segment with the panel's unit in the seventh byte of the buffer is the frame. -/
lemma getRequest_panel {inbuf : Netbuf} (hfits : inbuf.payload.length ≤ workbufferSize)
    (hunit : port.workbuffer.write inbuf.payload 6 = 2) :
    xMBTCPPortGetRequest regModbusRequest port (.ok inbuf)
      = some ⟨{ port with workbuffer := port.workbuffer.write inbuf.payload }, true,
          some .workbuffer, some inbuf.payload.length, some (.panel inbuf.payload), none⟩ := by
  simp only [xMBTCPPortGetRequest, hconn, if_true, if_pos hfits, if_pos hunit, Buffer.bytes_write]

/-- A segment with another unit there goes to the regulator, and the frame is a null pointer. -/
lemma getRequest_regulator {inbuf : Netbuf} (hfits : inbuf.payload.length ≤ workbufferSize)
    (hunit : ¬ port.workbuffer.write inbuf.payload 6 = 2) :
    xMBTCPPortGetRequest regModbusRequest port (.ok inbuf)
      = some ⟨⟨true, port.workbuffer.write inbuf.payload,
            (regTcpModbusRequest regModbusRequest port.tcpModbusPacket inbuf.payload).1, true⟩,
          true, some .nullptr, some 0, some (.regulator inbuf.payload),
          some (regTcpModbusRequest regModbusRequest port.tcpModbusPacket inbuf.payload).2⟩ := by
  simp only [xMBTCPPortGetRequest, hconn, if_true, if_pos hfits, if_neg hunit, Buffer.bytes_write]

/-- A call without a segment sets no output. -/
lemma getRequest_timeout (up : Bool) :
    ∃ port', xMBTCPPortGetRequest regModbusRequest port (.timeout up)
      = some ⟨port', up, none, none, none, none⟩ := by
  simp only [xMBTCPPortGetRequest, hconn, if_true]
  cases up
  · exact ⟨_, rfl⟩
  · exact ⟨_, rfl⟩

/-- An error closes the connection. -/
lemma getRequest_error :
    ∃ port', xMBTCPPortGetRequest regModbusRequest port .error
      = some ⟨port', false, none, none, none, none⟩ := by
  simp only [xMBTCPPortGetRequest, hconn, if_true]
  exact ⟨_, rfl⟩

/-- **A call is safe exactly in the handled outcomes**, on a connection, whatever the receive
buffer and the regulator hold. -/
theorem safe_iff (res : Received) : Safe regModbusRequest port res ↔ res.Handled := by
  constructor
  · rintro ⟨r, hr, -, hresult, -⟩
    cases res with
    | ok inbuf =>
        by_cases hfits : inbuf.payload.length ≤ workbufferSize
        · have htrue : r.result = true := by
            by_cases hunit : port.workbuffer.write inbuf.payload 6 = 2
            · rw [getRequest_panel regModbusRequest hconn hfits hunit] at hr
              rw [← Option.some.inj hr]
            · rw [getRequest_regulator regModbusRequest hconn hfits hunit] at hr
              rw [← Option.some.inj hr]
          obtain ⟨_, hsame, hlong, hunit, -⟩ := hresult htrue
          obtain rfl := Received.ok.inj hsame
          exact ⟨hlong, hfits, hunit⟩
        · rw [getRequest_overrun regModbusRequest hconn (not_le.mp hfits)] at hr
          cases hr
    | timeout up =>
        obtain ⟨port', hport'⟩ := getRequest_timeout regModbusRequest hconn up
        rw [hport'] at hr
        obtain rfl := Option.some.inj hr
        cases up with
        | false => rfl
        | true =>
            obtain ⟨_, hsame, -⟩ := hresult rfl
            cases hsame
    | error => trivial
  · intro hhandled
    cases res with
    | ok inbuf =>
        obtain ⟨hlong, hfits, hunit⟩ := hhandled
        have hread : port.workbuffer.write inbuf.payload 6 = 2 := Buffer.write_apply hunit
        refine ⟨_, getRequest_panel regModbusRequest hconn hfits hread, ?_, ?_, ?_⟩
        · intro _
          exact ⟨inbuf, rfl, by omega⟩
        · intro _
          exact ⟨inbuf, rfl, hlong, hunit, rfl, rfl, Buffer.bytes_write _ _⟩
        · unfold eMBTCPReceive
          dsimp only
          split_ifs <;> rfl
    | timeout up =>
        obtain rfl : up = false := hhandled
        obtain ⟨port', hport'⟩ := getRequest_timeout regModbusRequest hconn false
        exact ⟨_, hport', fun h => absurd h Bool.false_ne_true,
          fun h => absurd h Bool.false_ne_true, rfl⟩
    | error =>
        obtain ⟨port', hport'⟩ := getRequest_error regModbusRequest hconn
        exact ⟨_, hport', fun h => absurd h Bool.false_ne_true,
          fun h => absurd h Bool.false_ne_true, rfl⟩

end Call

/-! ### Runs -/

/-- The call that a turn of the loop makes, if it makes one, is safe. -/
def SafeTurn (s : Stack) (t : Turn) : Prop :=
  ∀ port, frameReceived s t = some port → Safe t.regModbusRequest port t.res

/-- The outcome that a turn of the loop meets in its call, if it makes one, is handled. -/
def HandledTurn (s : Stack) (t : Turn) : Prop := (frameReceived s t).isSome → t.res.Handled

/-- There is a connection in every call. -/
lemma newconn_of_frameReceived {s : Stack} {t : Turn} {port : Port}
    (h : frameReceived s t = some port) : port.newconn = true := by
  unfold frameReceived xMBPortTCPPoll at h
  split_ifs at h with hexecute hconn haccepted
  · rw [← Option.some.inj h]
    exact hconn
  · rw [← Option.some.inj h]

/-- **The receive path, and exactly when it is safe.** In every run of the stack's loop, with any
outcomes of `netconn_recv`, any segments and any answers of the regulator: every call of
`xMBTCPPortGetRequest` is safe if and only if every one meets an outcome that is handled. -/
theorem receiveSafe_iff (ts : List Turn) :
    Machine.Meets eMBPoll SafeTurn Stack.start ts ↔
      Machine.Meets eMBPoll HandledTurn Stack.start ts := by
  apply Machine.meets_congr
  intro s t
  unfold SafeTurn HandledTurn
  constructor
  · intro hsafe hcall
    obtain ⟨port, hport⟩ := Option.isSome_iff_exists.mp hcall
    exact (safe_iff _ (newconn_of_frameReceived hport) _).mp (hsafe port hport)
  · intro hhandled port hport
    refine (safe_iff _ (newconn_of_frameReceived hport) _).mpr (hhandled ?_)
    rw [hport]
    rfl

/-- A request to write a register of the regulator, unit 1. -/
def unitRequest : Netbuf where
  payload := [0, 1, 0, 0, 0, 6, 1, 6, 0x03, 0x10, 0, 1]
  next := []
  payload_ne_nil := List.cons_ne_nil _ _

/-- **A null frame is returned.** A request to the regulator is served, and then handed to
`eMBTCPReceive` as a null pointer. -/
theorem regulator_request_unsafe :
    ¬ ∀ ts : List Turn, Machine.Meets eMBPoll SafeTurn Stack.start ts := by
  intro h
  have hturn := (h [⟨true, .ok unitRequest, fun req reqLength => ⟨false, req, reqLength⟩,
    fun _ => 0⟩]).1
  have hsafe := hturn ⟨true, fun _ => 0, fun _ => 0, false⟩ rfl
  obtain ⟨-, -, hunit⟩ := (safe_iff _ rfl _).mp hsafe
  exact absurd hunit (by decide)

end PanelFirmware.Modbus
