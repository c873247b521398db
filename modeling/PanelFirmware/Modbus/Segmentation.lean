import PanelFirmware.Modbus.TcpPort

/-!
# Requests and segments

A TCP connection carries bytes; where one request ends and the next begins is in the `Length`
fields of the requests. `xMBTCPPortGetRequest` does not read them. It takes each buffer that
`netconn_recv` delivers, as far as its first fragment goes, for one request.

* `serve_bytes`: what is dispatched is the first fragments, whatever they hold.
* `segmentation_iff`: exactly when the requests of a connection are dispatched.
-/

namespace PanelFirmware.Modbus

open PanelFirmware.Lib PanelFirmware.Libmodbus PanelFirmware.Regulator

/-- All bytes of a buffer. -/
def Netbuf.bytes (inbuf : Netbuf) : List Byte := inbuf.payload ++ inbuf.next

/-- A well-formed request: its `Length` field is the number of the bytes after it, and all of it
is at most 256 bytes long. Source: `freemodbus` `mbtcp.c`, the comment on the frame. -/
structure WellFormed (request : List Byte) : Prop where
  header : 7 ≤ request.length
  length : 256 * (request.getD 4 0).toNat + (request.getD 5 0).toNat = request.length - 6
  adu : request.length ≤ 256

instance (request : List Byte) : Decidable (WellFormed request) :=
  decidable_of_iff (7 ≤ request.length ∧
      256 * (request.getD 4 0).toNat + (request.getD 5 0).toNat = request.length - 6 ∧
      request.length ≤ 256)
    ⟨fun ⟨header, length, adu⟩ => ⟨header, length, adu⟩, fun h => ⟨h.header, h.length, h.adu⟩⟩

/-- Whom a request is for. -/
def dispatchOf (request : List Byte) : Dispatch :=
  if request[6]? = some 2 then .panel request else .regulator request

/-- The bytes that are dispatched. -/
def Dispatch.bytes : Dispatch → List Byte
  | .panel segment | .regulator segment => segment

/-- A segment as it is delivered, with the regulator's answer to it if it goes there, and with
what the stack makes of the receive buffer before the next one. -/
structure Delivery where
  inbuf : Netbuf
  regModbusRequest : Buffer → ℕ → Answer
  executed : Buffer → Buffer

/-- The port when the stack has executed a request. -/
def Port.executed (port : Port) (executed : Buffer → Buffer) : Port :=
  { port with workbuffer := executed port.workbuffer }

/-- What the port dispatches of the segments of a connection; `none` where one of them overruns
the receive buffer. -/
def serve (port : Port) : List Delivery → Option (List Dispatch)
  | [] => some []
  | d :: ds => do
      let r ← xMBTCPPortGetRequest d.regModbusRequest port (.ok d.inbuf)
      let rest ← serve (r.port.executed d.executed) ds
      some (r.dispatch.toList ++ rest)

/-- The request is its own bytes. -/
@[simp] lemma bytes_dispatchOf (request : List Byte) : (dispatchOf request).bytes = request := by
  unfold dispatchOf
  split_ifs <;> rfl

/-- A segment that fits the receive buffer is dispatched as it is, and the connection stays. -/
lemma getRequest_dispatch (regModbusRequest : Buffer → ℕ → Answer) {port : Port}
    (hconn : port.newconn = true) {inbuf : Netbuf}
    (hfits : inbuf.payload.length ≤ workbufferSize) :
    ∃ r d, xMBTCPPortGetRequest regModbusRequest port (.ok inbuf) = some r ∧
      r.port.newconn = true ∧ r.dispatch = some d ∧ d.bytes = inbuf.payload ∧
      (7 ≤ inbuf.payload.length → d = dispatchOf inbuf.payload) := by
  have hbyte : 7 ≤ inbuf.payload.length →
      inbuf.payload[6]? = some (port.workbuffer.write inbuf.payload 6) := by
    intro hlong
    have hsix := List.getElem?_eq_getElem (show 6 < inbuf.payload.length by omega)
    rw [hsix, Buffer.write_apply hsix]
  by_cases hunit : port.workbuffer.write inbuf.payload 6 = 2
  · refine ⟨_, _, getRequest_panel regModbusRequest hconn hfits hunit, hconn, rfl, rfl, ?_⟩
    intro hlong
    rw [dispatchOf, hbyte hlong, hunit, if_pos rfl]
  · refine ⟨_, _, getRequest_regulator regModbusRequest hconn hfits hunit, rfl, rfl, rfl, ?_⟩
    intro hlong
    rw [dispatchOf, hbyte hlong, if_neg fun h => hunit (Option.some.inj h)]

/-- **What is dispatched** is the first fragments, one by one. -/
theorem serve_bytes {port : Port} (hconn : port.newconn = true) {ds : List Delivery}
    {out : List Dispatch} (h : serve port ds = some out) :
    out.map Dispatch.bytes = ds.map fun d => d.inbuf.payload := by
  induction ds generalizing port out with
  | nil =>
      rw [← Option.some.inj h]
      rfl
  | cons d ds ih =>
      obtain ⟨r, hr, h⟩ := Option.bind_eq_some_iff.mp h
      obtain ⟨rest, hrest, h⟩ := Option.bind_eq_some_iff.mp h
      by_cases hfits : d.inbuf.payload.length ≤ workbufferSize
      · obtain ⟨r', e, hr', hconn', he, hbytes, -⟩ :=
          getRequest_dispatch d.regModbusRequest hconn hfits
        obtain rfl := Option.some.inj (hr'.symm.trans hr)
        rw [← Option.some.inj h, he, Option.toList_some, List.singleton_append, List.map_cons,
          List.map_cons, hbytes, ih (show (r'.port.executed d.executed).newconn = true from hconn')
            hrest]
      · rw [getRequest_overrun d.regModbusRequest hconn (not_le.mp hfits)] at hr
        cases hr

/-- First fragments that are requests are dispatched to the units they are for. -/
lemma serve_requests {port : Port} (hconn : port.newconn = true) {ds : List Delivery}
    (hrequests : ∀ d ∈ ds, WellFormed d.inbuf.payload) :
    serve port ds = some (ds.map fun d => dispatchOf d.inbuf.payload) := by
  induction ds generalizing port with
  | nil => rfl
  | cons d ds ih =>
      obtain ⟨hhead, htail⟩ := List.forall_mem_cons.mp hrequests
      obtain ⟨r, e, hr, hconn', he, -, hdispatch⟩ :=
        getRequest_dispatch d.regModbusRequest hconn hhead.adu
      have hrest := ih (show (r.port.executed d.executed).newconn = true from hconn') htail
      rw [serve, hr, Option.bind_eq_bind, Option.bind_some, hrest, he, hdispatch hhead.header]
      rfl

/-- The bytes of the segments are those of the first fragments and of the others. -/
lemma length_flatten_bytes (ds : List Delivery) :
    (ds.map fun d => d.inbuf.bytes).flatten.length
      = (ds.map fun d => d.inbuf.payload).flatten.length
        + (ds.map fun d => d.inbuf.next).flatten.length := by
  induction ds with
  | nil => rfl
  | cons d ds ih =>
      simp only [List.map_cons, List.flatten_cons, List.length_append, Netbuf.bytes] at ih ⊢
      omega

/-- Fragments after the first ones are empty if they add no byte. -/
lemma next_eq_nil {ds : List Delivery}
    (h : (ds.map fun d => d.inbuf.bytes).flatten = (ds.map fun d => d.inbuf.payload).flatten) :
    ∀ d ∈ ds, d.inbuf.next = [] := by
  have hempty : (ds.map fun d => d.inbuf.next).flatten = [] := by
    have htotal := length_flatten_bytes ds
    rw [h] at htotal
    exact List.length_eq_zero_iff.mp (by omega)
  intro d hd
  exact List.flatten_eq_nil_iff.mp hempty _ (List.mem_map_of_mem hd)

/-- **Segmentation, and exactly when it does no harm.** For every list of well-formed requests on
a connection, and every way in which their bytes are delivered: each request is dispatched once, in
order and with its own bytes, to the unit it is for, if and only if each is delivered in one buffer
of its own, in a single fragment. -/
theorem segmentation_iff (port : Port) (hconn : port.newconn = true) (requests : List (List Byte))
    (hwf : ∀ request ∈ requests, WellFormed request) (ds : List Delivery)
    (hstream : (ds.map fun d => d.inbuf.bytes).flatten = requests.flatten) :
    serve port ds = some (requests.map dispatchOf) ↔
      (ds.map fun d => d.inbuf.bytes) = requests ∧ ∀ d ∈ ds, d.inbuf.next = [] := by
  constructor
  · intro hserved
    have hbytes := serve_bytes hconn hserved
    have hid : Dispatch.bytes ∘ dispatchOf = id := funext bytes_dispatchOf
    rw [List.map_map, hid, List.map_id] at hbytes
    rw [hbytes] at hstream
    have hsingle := next_eq_nil hstream
    refine ⟨?_, hsingle⟩
    rw [hbytes]
    apply List.map_congr_left
    intro d hd
    rw [Netbuf.bytes, hsingle d hd, List.append_nil]
  · rintro ⟨hrequests, hsingle⟩
    have hpayload : ∀ d ∈ ds, d.inbuf.payload = d.inbuf.bytes := by
      intro d hd
      rw [Netbuf.bytes, hsingle d hd, List.append_nil]
    rw [← hrequests, List.map_map, serve_requests hconn]
    · exact congrArg some (List.map_congr_left fun d hd => congrArg dispatchOf (hpayload d hd))
    · intro d hd
      rw [hpayload d hd]
      apply hwf
      rw [← hrequests]
      exact List.mem_map_of_mem hd

/-- A request to read a register of the panel, unit 2. -/
def panelRequest : Netbuf where
  payload := [0, 1, 0, 0, 0, 6, 2, 3, 0, 3, 0, 1]
  next := []
  payload_ne_nil := List.cons_ne_nil _ _

/-- A request to the panel and one to the regulator, in one segment. -/
def mergedRequests : Netbuf where
  payload := panelRequest.payload ++ unitRequest.payload
  next := []
  payload_ne_nil := List.cons_ne_nil _ _

/-- A connection with a clean buffer. -/
def connected : Port := ⟨true, fun _ => 0, fun _ => 0, false⟩

/-- A delivery that the regulator does not answer. -/
def delivery (inbuf : Netbuf) : Delivery :=
  ⟨inbuf, fun req reqLength => ⟨false, req, reqLength⟩, id⟩

/-- The two requests, one by one. -/
theorem separate_dispatched :
    serve connected [delivery panelRequest, delivery unitRequest]
        = some ([panelRequest.payload, unitRequest.payload].map dispatchOf) ↔
      ([delivery panelRequest, delivery unitRequest].map fun d => d.inbuf.bytes)
          = [panelRequest.payload, unitRequest.payload] ∧
        ∀ d ∈ [delivery panelRequest, delivery unitRequest], d.inbuf.next = [] :=
  segmentation_iff connected rfl [panelRequest.payload, unitRequest.payload] (by decide)
    [delivery panelRequest, delivery unitRequest] (by decide)

/-- **Merged requests are not told apart.** The two requests in one segment are dispatched to the
panel as one. -/
theorem merged_not_dispatched :
    ¬ ∀ (port : Port), port.newconn = true → ∀ (requests : List (List Byte)),
      (∀ request ∈ requests, WellFormed request) → ∀ (ds : List Delivery),
        (ds.map fun d => d.inbuf.bytes).flatten = requests.flatten →
        serve port ds = some (requests.map dispatchOf) := by
  intro h
  have hserved := h connected rfl [panelRequest.payload, unitRequest.payload] (by decide)
    [delivery mergedRequests] (by decide)
  exact absurd hserved (by decide)

end PanelFirmware.Modbus
