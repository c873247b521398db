import PanelFirmware.Lib.ByReference
import PanelFirmware.Net.HttpServer
import PanelFirmware.Regulator.Transparency

/-!
# The buffers that responses are sent from

Both servers give their responses to the TCP stack by reference (`NETCONN_NOCOPY`), and go on with
the next request when `netconn_write` returns. The next request is received into the buffer that
the response is sent from, or its answer is put together there.

The machine interleaves the Modbus server, the HTTP server, the regulator task, which stores its
answers in the bridge's packet, and the arrival of bytes at the clients. A transmission that is
lost changes nothing.

* `bridge_sent`, `page_sent`: the steps of the servers send what the functions of the source say.
* `intact_of_free`: over all runs in which a buffer is stored to only when what was sent from it
  has been received, the clients receive what the buffers held.
-/

namespace PanelFirmware.Net

open PanelFirmware.Lib PanelFirmware.Lib.ByReference PanelFirmware.Libmodbus PanelFirmware.Modbus
  PanelFirmware.Regulator

/-- The memory that is sent from. Source: `porttcp.cpp` `workbuffer`; `regulatorTcpRequest.c`
`tcpModbusPacket`; `httpServerTSK.c` `pageData`; `htmlPage.c` `bin_version`, `bin_statemeastask`,
the files. -/
inductive Region
  | workbuffer
  | tcpModbusPacket
  | pageData
  | handled (h : Handler)
  | file (f : File)
  deriving DecidableEq

/-- How far the Modbus server has come: in `netconn_recv`, with a segment in its buffer, in
`reg_modbusRequest`, and before `netconn_write` of the first bytes of a buffer. -/
inductive ModbusPhase
  | waiting
  | received (buflen : ℕ)
  | posted (buflen : ℕ)
  | ready (r : Region) (usTCPLength : ℕ)
  deriving DecidableEq

/-- How far the HTTP server has come: between two connections, before the handler, before the header
is put together, and before the two writes. -/
inductive HttpPhase
  | waiting
  | handling (h : Handler)
  | page (found : Bool) (type : UrlType) (payload : Region)
  | headed (size : ℕ) (payload : Region)
  | body (payload : Region)
  deriving DecidableEq

/-- The state of the system. -/
structure State where
  sender : Sender Region Byte
  modbus : ModbusPhase
  http : HttpPhase

/-- What can happen next: the Modbus server receives a segment, executes a request for the panel
with what its handler leaves in the buffer, drops a frame, posts a request for the regulator, has
an answer to it of some length or none, sends its response; the regulator task stores in the packet
from the unit identifier on; the HTTP server receives a request on a new connection, fills in a
resource, puts the header together, sends it and sends the resource, with its size; a byte of what
has been sent arrives. -/
inductive Event
  | recv (payload : List Byte)
  | execute (frame : Buffer) (usTCPLength : ℕ)
  | drop
  | post
  | answered (len : ℕ)
  | failed
  | respond
  | regulator (unit : Buffer)
  | request (buf : List Char)
  | handle (data : Buffer)
  | page
  | writeHeader
  | writePayload (size : ℕ)
  | deliver (k i : ℕ)

/-- What a region holds. -/
def State.memory (s : State) (r : Region) : Buffer := s.sender.memory r

/-- A step of the Modbus server.
Source: `porttcp.cpp` `xMBTCPPortGetRequest`, `xMBTCPPortSendResponse`; `freemodbus` `mb.c`
`eMBPoll`; `regulatorTcpRequest.c` `reg_tcpModbusRequest`. -/
def modbusStep (s : State) : Event → Option State
  | .recv payload =>
      if s.modbus = .waiting ∧ payload.length ≤ workbufferSize then
        some { s with
          sender := s.sender.store .workbuffer ((s.memory .workbuffer).write payload)
          modbus := .received payload.length }
      else none
  | .execute frame usTCPLength =>
      match s.modbus with
      | .received _ =>
          if s.memory .workbuffer 6 = 2 then
            some { s with
              sender := s.sender.store .workbuffer frame
              modbus := .ready .workbuffer usTCPLength }
          else none
      | _ => none
  | .drop =>
      match s.modbus with
      | .received _ =>
          if s.memory .workbuffer 6 = 2 then some { s with modbus := .waiting } else none
      | _ => none
  | .post =>
      match s.modbus with
      | .received buflen =>
          if s.memory .workbuffer 6 = 2 then none
          else some { s with
            sender := s.sender.store .tcpModbusPacket
              (Regulator.posted (s.memory .tcpModbusPacket)
                ((s.memory .workbuffer).bytes buflen))
            modbus := .posted buflen }
      | _ => none
  | .answered len =>
      match s.modbus with
      | .posted _ => some { s with
          sender := s.sender.store .tcpModbusPacket
            (setMbapLength (s.memory .tcpModbusPacket) len)
          modbus := .ready .tcpModbusPacket (lentowrite len) }
      | _ => none
  | .failed =>
      match s.modbus with
      | .posted buflen => some { s with modbus := .ready .workbuffer buflen }
      | _ => none
  | .respond =>
      match s.modbus with
      | .ready r usTCPLength =>
          some { s with sender := s.sender.write r usTCPLength, modbus := .waiting }
      | _ => none
  | _ => none

/-- The region of a resource. Source: `htmlPage.c` `httpResource`. -/
def Payload.region : Payload → Region
  | .file f => .file f
  | .handled h => .handled h

/-- A step of the HTTP server. Source: `httpServerTSK.c` `http_server_serve`. -/
def httpStep (s : State) : Event → Option State
  | .request buf =>
      if s.http = .waiting then
        match serve buf with
        | none => some s
        | some (found, r) => some { s with
            http := match r.payload with
              | .handled h => .handling h
              | .file f => .page found r.type (.file f) }
      else none
  | .handle data =>
      match s.http with
      | .handling h => some { s with
          sender := s.sender.store (.handled h) data
          http := .page true .bin (.handled h) }
      | _ => none
  | .page =>
      match s.http with
      | .page found type payload => some { s with
          sender := s.sender.store .pageData
            ((s.memory .pageData).write (bytesOf (header found type) ++ [0]))
          http := .headed (bytesOf (header found type)).length payload }
      | _ => none
  | .writeHeader =>
      match s.http with
      | .headed size payload =>
          some { s with sender := s.sender.write .pageData size, http := .body payload }
      | _ => none
  | .writePayload size =>
      match s.http with
      | .body payload => some { s with sender := s.sender.write payload size, http := .waiting }
      | _ => none
  | _ => none

/-- A step of the system. Source: `regulatorConnTSK.c` `rawModbusMessage`, besides those of the
servers. -/
def step (s : State) : Event → Option State
  | .regulator unit => some { s with
      sender := s.sender.store .tcpModbusPacket (setFromUnit (s.memory .tcpModbusPacket) unit) }
  | .deliver k i => some { s with sender := s.sender.deliver k i }
  | .request buf => httpStep s (.request buf)
  | .handle data => httpStep s (.handle data)
  | .page => httpStep s .page
  | .writeHeader => httpStep s .writeHeader
  | .writePayload size => httpStep s (.writePayload size)
  | e => modbusStep s e

/-- The start: the buffers are zero, the files what they are. -/
def init (files : File → Buffer) : State where
  sender := ⟨fun r => match r with
    | .file f => files f
    | .workbuffer | .tcpModbusPacket | .pageData | .handled _ => fun _ => 0, []⟩
  modbus := .waiting
  http := .waiting

/-! ### What is sent -/

/-- A segment that has just been given to the sender. -/
def segment (r : Region) (bytes : List Byte) : Segment Region Byte := ⟨r, bytes, fun _ => none⟩

/-- What is given to the sender. -/
lemma segments_write (s : Sender Region Byte) (r : Region) (n : ℕ) :
    (s.write r n).segments = s.segments ++ [segment r (Buffer.bytes (s.memory r) n)] := rfl

/-- **The steps for a request to the regulator are the bridge's function.** A segment for it that
fits, whatever comes of `reg_modbusRequest`: the packet afterwards, and what is sent. -/
theorem bridge_sent {s : State} (hwaiting : s.modbus = .waiting) {payload : List Byte}
    (hfits : payload.length ≤ workbufferSize)
    (hunit : (s.memory .workbuffer).write payload 6 ≠ 2) (answer : Answer) :
    ∃ t r, Machine.run step s [.recv payload, .post, .regulator answer.req,
        if answer.result then .answered answer.reqLength else .failed, .respond] = some t ∧
      t.memory .tcpModbusPacket =
        (regTcpModbusRequest (fun _ _ => answer) (s.memory .tcpModbusPacket) payload).1 ∧
      t.sender.segments = s.sender.segments ++
        [segment r (regTcpModbusRequest (fun _ _ => answer) (s.memory .tcpModbusPacket) payload).2]
      := by
  have hunit : ¬ Buffer.write (s.sender.memory .workbuffer) payload 6 = 2 := hunit
  have hother : Region.tcpModbusPacket ≠ .workbuffer := by decide
  have hbuffer : Region.workbuffer ≠ .tcpModbusPacket := by decide
  cases hresult : answer.result with
  | false =>
      rw [if_neg Bool.false_ne_true, regTcpModbusRequest_fail (fun _ _ => rfl) hresult]
      simp only [Machine.run, step, modbusStep, hwaiting, hfits, and_self, if_true, if_neg hunit,
        Option.bind_some, State.memory, Sender.store, Function.update_self,
        Function.update_of_ne hother, Buffer.bytes_write]
      refine ⟨_, .workbuffer, rfl, ?_, ?_⟩
      · simp only [Sender.write, Function.update_self, regTcpModbusRequest, hresult]
        rfl
      · simp only [segments_write, Function.update_of_ne hbuffer, Function.update_self,
          Buffer.bytes_write]
  | true =>
      rw [if_pos rfl]
      simp only [Machine.run, step, modbusStep, hwaiting, hfits, and_self, if_true, if_neg hunit,
        Option.bind_some, State.memory, Sender.store, Function.update_self,
        Function.update_of_ne hother, Buffer.bytes_write]
      refine ⟨_, .tcpModbusPacket, rfl, ?_, ?_⟩
      · simp only [Sender.write, Function.update_self, regTcpModbusRequest, hresult]
        rfl
      · simp only [segments_write, Function.update_self, regTcpModbusRequest, hresult]
        rfl

/-- **The header of a page** is what is sent from `pageData`. -/
theorem page_sent {s : State} {found : Bool} {type : UrlType} {payload : Region}
    (hpage : s.http = .page found type payload) :
    ∃ t, Machine.run step s [.page, .writeHeader] = some t ∧ t.http = .body payload ∧
      t.sender.segments =
        s.sender.segments ++ [segment .pageData (bytesOf (header found type))] := by
  simp only [Machine.run, step, httpStep, hpage, Option.bind_some]
  refine ⟨_, rfl, rfl, ?_⟩
  have hheader : Buffer.bytes ((s.memory .pageData).write (bytesOf (header found type) ++ [0]))
      (bytesOf (header found type)).length = bytesOf (header found type) := by
    rw [bytes_write_take _ (by rw [List.length_append]; omega), List.take_left]
  simp only [segments_write, Sender.store, Function.update_self, hheader]

/-! ### Integrity -/

/-- The region that an event stores to. -/
def target (s : State) : Event → Option Region
  | .recv _ | .execute _ _ => some .workbuffer
  | .post | .answered _ | .regulator _ => some .tcpModbusPacket
  | .handle _ =>
      match s.http with
      | .handling h => some (.handled h)
      | _ => none
  | .page => some .pageData
  | .drop | .failed | .respond | .request _ | .writeHeader | .writePayload _ | .deliver _ _ => none

/-- The condition on an event: what was sent from the region it stores to has been received. -/
def Free (s : State) (e : Event) : Prop := ∀ r ∈ target s e, s.sender.Settled r

instance (s : State) (e : Event) : Decidable (Free s e) :=
  inferInstanceAs (Decidable (∀ r ∈ target s e, s.sender.Settled r))

/-- What has been received of every response is what the buffer held when it was sent. -/
def Intact (s : State) : Prop := ∀ seg ∈ s.sender.segments, seg.Intact

/-- What a step may do to the sender: nothing, a store into a region, a write, a delivery. -/
inductive Effect (target : Option Region) (before after : Sender Region Byte) : Prop
  | none (hafter : after = before)
  | store (r : Region) (hr : r ∈ target) (cells : Buffer) (hafter : after = before.store r cells)
  | write (r : Region) (n : ℕ) (hafter : after = before.write r n)
  | deliver (k i : ℕ) (hafter : after = before.deliver k i)

/-- What a step of the Modbus server does to the sender. -/
lemma effect_modbusStep {s t : State} {e : Event} (h : modbusStep s e = some t) :
    Effect (target s e) s.sender t.sender := by
  cases e with
  | recv payload =>
      simp only [modbusStep] at h
      split_ifs at h
      obtain rfl := Option.some.inj h
      exact .store _ rfl _ rfl
  | execute frame usTCPLength =>
      simp only [modbusStep] at h
      split at h
      · split_ifs at h
        obtain rfl := Option.some.inj h
        exact .store _ rfl _ rfl
      · cases h
  | drop =>
      simp only [modbusStep] at h
      split at h
      · split_ifs at h
        obtain rfl := Option.some.inj h
        exact .none rfl
      · cases h
  | post =>
      simp only [modbusStep] at h
      split at h
      · split_ifs at h
        obtain rfl := Option.some.inj h
        exact .store _ rfl _ rfl
      · cases h
  | answered len =>
      simp only [modbusStep] at h
      split at h
      · obtain rfl := Option.some.inj h
        exact .store _ rfl _ rfl
      · cases h
  | failed =>
      simp only [modbusStep] at h
      split at h
      · obtain rfl := Option.some.inj h
        exact .none rfl
      · cases h
  | respond =>
      simp only [modbusStep] at h
      split at h
      · obtain rfl := Option.some.inj h
        exact .write _ _ rfl
      · cases h
  | regulator | request | handle | page | writeHeader | writePayload | deliver => cases h

/-- What a step of the HTTP server does to the sender. -/
lemma effect_httpStep {s t : State} {e : Event} (h : httpStep s e = some t) :
    Effect (target s e) s.sender t.sender := by
  cases e with
  | request buf =>
      simp only [httpStep] at h
      split_ifs at h
      split at h
      · obtain rfl := Option.some.inj h
        exact .none rfl
      · obtain rfl := Option.some.inj h
        exact .none rfl
  | handle data =>
      cases hphase : s.http with
      | handling r =>
          simp only [httpStep, hphase] at h
          obtain rfl := Option.some.inj h
          exact .store (.handled r) (by rw [target, hphase]; rfl) _ rfl
      | waiting | page _ _ _ | headed _ _ | body _ =>
          simp only [httpStep, hphase] at h
          cases h
  | page =>
      simp only [httpStep] at h
      split at h
      · obtain rfl := Option.some.inj h
        exact .store _ rfl _ rfl
      · cases h
  | writeHeader =>
      simp only [httpStep] at h
      split at h
      · obtain rfl := Option.some.inj h
        exact .write _ _ rfl
      · cases h
  | writePayload size =>
      simp only [httpStep] at h
      split at h
      · obtain rfl := Option.some.inj h
        exact .write _ _ rfl
      · cases h
  | recv | execute | drop | post | answered | failed | respond | regulator | deliver => cases h

/-- What a step does to the sender. -/
lemma effect_step {s t : State} {e : Event} (h : step s e = some t) :
    Effect (target s e) s.sender t.sender := by
  cases e with
  | regulator unit =>
      obtain rfl := Option.some.inj h
      exact .store _ rfl _ rfl
  | deliver k i =>
      obtain rfl := Option.some.inj h
      exact .deliver k i rfl
  | request | handle | page | writeHeader | writePayload => exact effect_httpStep h
  | recv | execute | drop | post | answered | failed | respond => exact effect_modbusStep h

/-- A step that stores to a free region keeps the sender sound. -/
theorem sound_step {s t : State} {e : Event} (hsound : s.sender.Sound) (hfree : Free s e)
    (h : step s e = some t) : t.sender.Sound := by
  rcases effect_step h with hsame | ⟨r, hr, cells, hstore⟩ | ⟨r, n, hwrite⟩ | ⟨k, i, hdeliver⟩
  · rw [hsame]
    exact hsound
  · rw [hstore]
    exact hsound.store (hfree r hr) cells
  · rw [hwrite]
    exact hsound.write r n
  · rw [hdeliver]
    exact hsound.deliver k i

/-- **The responses are intact as long as no buffer is reused too early.** In every run of any
requests to both servers, in every interleaving with the regulator task and with the arrival of the
bytes, whose steps store to a buffer only when everything sent from it has been received: what a
client has received of a response is what the buffer held when the response was sent. -/
theorem intact_of_free (files : File → Buffer) (es : List Event) (s : State)
    (hok : Machine.Meets step Free (init files) es)
    (hrun : Machine.run step (init files) es = some s) : Intact s := by
  have hinit : (init files).sender.Sound := fun _ h => absurd h List.not_mem_nil
  have hsound : s.sender.Sound :=
    Machine.run_induction (I := fun s => s.sender.Sound)
      (fun _ _ _ hI hfree ht => sound_step hI hfree ht) hinit hok hrun
  exact fun seg hseg => (hsound seg hseg).intact

/-- A request to read a register of the panel, with its transaction identifier. -/
def panelRequest (id : Byte) : List Byte := [0, id, 0, 0, 0, 6, 2, 3, 0, 0, 0, 1]

/-- What the handler leaves in the buffer: the answer with the value of the register. -/
def panelResponse (id value : Byte) : Buffer :=
  Buffer.write (fun _ => 0) [0, id, 0, 0, 0, 5, 2, 3, 2, 0, value]

/-- A request is answered, the answer arrives, and the next request is received. -/
def answeredRun : List Event :=
  [Event.recv (panelRequest 1), Event.execute (panelResponse 1 7) 11, Event.respond] ++
    (List.range 11).map (Event.deliver 0) ++ [Event.recv (panelRequest 2)]

/-- The answer is intact. -/
theorem intact_answeredRun :
    ∃ s, Machine.run step (init fun _ _ => 0) answeredRun = some s ∧ Intact s := by
  obtain ⟨s, hrun⟩ : ∃ s, Machine.run step (init fun _ _ => 0) answeredRun = some s :=
    Option.isSome_iff_exists.mp (by decide +kernel)
  exact ⟨s, hrun, intact_of_free _ answeredRun s (by decide +kernel) hrun⟩

/-- The first transmission of the answer is lost, and the next request is received and answered
before the second one. -/
def pipelinedRun : List Event :=
  [.recv (panelRequest 1), .execute (panelResponse 1 7) 11, .respond, .recv (panelRequest 2),
    .execute (panelResponse 2 9) 11, .deliver 0 1, .deliver 0 10]

/-- **One request's value is the answer to another.** The client receives the transaction
identifier and the value of the second request as the answer to the first. -/
theorem not_intact_pipelinedRun :
    ¬ ∀ files es s, Machine.run step (init files) es = some s → Intact s := by
  intro hall
  have hview : (Machine.run step (init fun _ _ => 0) pipelinedRun).map
      (fun s => s.sender.segments.map fun seg => (seg.bytes[10]?, seg.received 10)) =
        some [(some 7, some 9)] := by
    decide +kernel
  obtain ⟨s, hrun, hs⟩ := Option.map_eq_some_iff.mp hview
  have hmem : (some 7, some 9) ∈ s.sender.segments.map
      fun seg => (seg.bytes[10]?, seg.received 10) := by
    rw [hs]
    exact List.mem_singleton_self _
  obtain ⟨seg, hseg, hbyte⟩ := List.mem_map.mp hmem
  obtain ⟨hheld, hreceived⟩ := Prod.mk.inj hbyte
  have hintact := hall _ pipelinedRun s hrun seg hseg 10 9 hreceived
  rw [hheld] at hintact
  exact absurd (Option.some.inj hintact) (by decide)

end PanelFirmware.Net
