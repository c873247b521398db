import PanelFirmware.Lib.Machine
import PanelFirmware.Modbus.TcpPort

/-!
# `portfreemodbus/src/portevent.c`: the stack's event queue

The queue is a single slot. `xMBPortTCPPoll` posts `EV_FRAME_RECEIVED` into it and `eMBPoll`, when
the frame is one, `EV_EXECUTE`; a post replaces what is there. `xMBPortEventGet` polls the network
only when no `EV_EXECUTE` is waiting, so nothing is replaced.

The outcome of the receive step is left open: whatever `xMBTCPPortGetRequest` returns, and wherever
the frame pointer it leaves leads.

* `inv_eMBPoll`: what a call of `eMBPoll` keeps.
* `frames_executed_once`: over every run.
* `eMBPoll_ofReturn`: the loop of `TcpPort` is this one.
-/

namespace PanelFirmware.Modbus.EventPort

open PanelFirmware.Lib PanelFirmware.Libmodbus

/-! ### The code -/

/-- Source: `mbport.h` `eMBEventType`. -/
inductive EventType
  | ready
  | frameReceived
  | execute
  | frameSent
  deriving DecidableEq

/-- A frame handed to the stack: the memory from its function code on and its length.
Source: `mb.c` `eMBPoll`, `ucMBFrame`, `usLength`. -/
structure MBFrame where
  ucMBFrame : Buffer
  usLength : ℕ

/-- What the loop does, in order: a post, with the event it replaces; an event fetched; a frame
for which the receive step returned `MB_ENOERR`; a frame executed. -/
inductive Action
  | post (replaced : Option EventType) (eEvent : EventType)
  | fetch (eEvent : EventType)
  | receive (frame : MBFrame)
  | execute (frame : MBFrame)

/-- The state between two calls of `eMBPoll`, and a record of what was done. Source: `mb.c`
`eMBState`, `eMBPoll` (its static variables); `portevent.c`; `porttcp.cpp` `newconn`. -/
structure State where
  enabled : Bool
  newconn : Bool
  eQueuedEvent : EventType
  xEventInQueue : Bool
  ucRcvAddress : ℕ
  frame : MBFrame
  log : List Action

/-- How `xMBTCPPortGetRequest` returns: its result, the memory at the frame pointer, the length,
and whether there is still a connection. -/
structure Request where
  result : Bool
  pucMBTCPFrame : Buffer
  usTCPLength : ℕ
  newconn : Bool

/-- What a call of `eMBPoll` meets: the result of `netconn_accept`, and the request. -/
structure Turn where
  accepted : Bool
  request : Request

/-- The event in the queue. -/
def State.queued (s : State) : Option EventType :=
  if s.xEventInQueue then some s.eQueuedEvent else none

/-- Add to the record. -/
def State.did (s : State) (a : Action) : State := { s with log := s.log ++ [a] }

/-- Source: `portevent.c` `xMBPortEventPost`. -/
def xMBPortEventPost (s : State) (eEvent : EventType) : State :=
  { s.did (.post s.queued eEvent) with xEventInQueue := true, eQueuedEvent := eEvent }

/-- Source: `porttcp.cpp` `xMBPortTCPPoll`. -/
def xMBPortTCPPoll (s : State) (accepted : Bool) : State :=
  if s.newconn then xMBPortEventPost s .frameReceived
  else if accepted then xMBPortEventPost { s with newconn := true } .frameReceived
  else s

/-- The event in the queue is taken out. Source: `portevent.c` `xMBPortEventGet`, its second
part. -/
def takeEvent (s : State) : Option EventType × State :=
  if s.xEventInQueue then
    (some s.eQueuedEvent, { s.did (.fetch s.eQueuedEvent) with xEventInQueue := false })
  else (none, s)

/-- The event, if one happened, and the state afterwards. Source: `portevent.c`
`xMBPortEventGet`. -/
def xMBPortEventGet (s : State) (accepted : Bool) : Option EventType × State :=
  if s.xEventInQueue ∧ s.eQueuedEvent = .execute then takeEvent s
  else takeEvent (xMBPortTCPPoll s accepted)

/-- Source: `mbtcp.h` `MB_TCP_PSEUDO_ADDRESS`; `mb.c` `eMBTCPInit`, `ucMBAddress`. -/
def ucMBAddress : ℕ := 255

/-- Source: `mbproto.h` `MB_ADDRESS_BROADCAST`. -/
def mbAddressBroadcast : ℕ := 0

/-- The address and the frame for `MB_ENOERR`, `none` for an error. Source: `mbtcp.c`
`eMBTCPReceive`. -/
def eMBTCPReceive (r : Request) : Option (ℕ × MBFrame) :=
  if r.result then
    let usPID := 256 * (r.pucMBTCPFrame 2).toNat + (r.pucMBTCPFrame 3).toNat
    if usPID = 0 then
      some (255, ⟨fun i => r.pucMBTCPFrame (i + 7), (r.usTCPLength + 0x10000 - 7) % 0x10000⟩)
    else none
  else none

/-- `EV_FRAME_RECEIVED`. Source: `mb.c` `eMBPoll`. -/
def frameReceived (s : State) (r : Request) : State :=
  let s := { s with newconn := r.newconn }
  match eMBTCPReceive r with
  | some (address, frame) =>
      let s := { s.did (.receive frame) with ucRcvAddress := address, frame := frame }
      if address = ucMBAddress ∨ address = mbAddressBroadcast then xMBPortEventPost s .execute
      else s
  | none => s

/-- A call. The function handlers and the reply do not touch the queue.
Source: `mb.c` `eMBPoll`. -/
def eMBPoll (s : State) (t : Turn) : State :=
  if s.enabled then
    match xMBPortEventGet s t.accepted with
    | (some .frameReceived, s) => frameReceived s t.request
    | (some .execute, s) => s.did (.execute s.frame)
    | (_, s) => s
  else s

/-- The start, after `xMBPortEventInit`. -/
def State.start (enabled : Bool) : State :=
  ⟨enabled, false, .ready, false, 0, ⟨fun _ => 0, 0⟩, []⟩

/-- The calls of a run. -/
def step (s : State) (t : Turn) : Option State := some (eMBPoll s t)

/-! ### The frames of a record -/

/-- The frames for which the receive step returned `MB_ENOERR`. -/
def received : List Action → List MBFrame
  | [] => []
  | .receive frame :: as => frame :: received as
  | _ :: as => received as

/-- The frames executed. -/
def executed : List Action → List MBFrame
  | [] => []
  | .execute frame :: as => frame :: executed as
  | _ :: as => executed as

/-- The frame that waits for its execution. -/
def State.pending (s : State) : List MBFrame :=
  if s.queued = some .execute then [s.frame] else []

lemma received_append (as bs : List Action) :
    received (as ++ bs) = received as ++ received bs := by
  induction as with
  | nil => rfl
  | cons a as ih =>
      cases a with
      | receive frame => exact congrArg (frame :: ·) ih
      | post _ _ => exact ih
      | fetch _ => exact ih
      | execute _ => exact ih

lemma executed_append (as bs : List Action) :
    executed (as ++ bs) = executed as ++ executed bs := by
  induction as with
  | nil => rfl
  | cons a as ih =>
      cases a with
      | execute frame => exact congrArg (frame :: ·) ih
      | post _ _ => exact ih
      | fetch _ => exact ih
      | receive _ => exact ih

/-- Whenever an `EV_FRAME_RECEIVED` is fetched, every frame received before has been executed. -/
def Ordered (log : List Action) : Prop :=
  ∀ before after, log = before ++ .fetch .frameReceived :: after → received before = executed before

/-- A record one action longer is ordered if it was and the action keeps the order. -/
lemma Ordered.snoc {log : List Action} (h : Ordered log) {a : Action}
    (ha : a = .fetch .frameReceived → received log = executed log) : Ordered (log ++ [a]) := by
  intro before after heq
  rcases List.eq_nil_or_concat after with rfl | ⟨init, last, rfl⟩
  · obtain ⟨rfl, hlast⟩ := List.append_inj' heq rfl
    exact ha (List.singleton_inj.mp hlast)
  · have hsplit : log ++ [a] = (before ++ .fetch .frameReceived :: init) ++ [last] := by
      rw [heq, List.concat_eq_append, ← List.cons_append, List.append_assoc]
    exact h before init (List.append_inj' hsplit rfl).1

/-! ### One call -/

/-- An empty queue holds no event. -/
lemma queued_eq_none {s : State} (h : s.xEventInQueue = false) : s.queued = none := by
  rw [State.queued, h]
  rfl

/-- A post is what the queue then holds. -/
lemma queued_xMBPortEventPost (s : State) (eEvent : EventType) :
    (xMBPortEventPost s eEvent).queued = some eEvent := rfl

/-- The event in the queue is the one taken out. -/
lemma takeEvent_of_queued {s : State} {eEvent : EventType} (h : s.queued = some eEvent) :
    takeEvent s = (some eEvent, { s.did (.fetch eEvent) with xEventInQueue := false }) := by
  unfold State.queued at h
  split_ifs at h with hin
  rw [takeEvent, if_pos hin, Option.some.inj h]

/-- A waiting event is fetched without a poll. -/
lemma xMBPortEventGet_of_pending {s : State} (h : s.queued = some .execute) {accepted : Bool} :
    xMBPortEventGet s accepted =
      (some .execute, { s.did (.fetch .execute) with xEventInQueue := false }) := by
  have hwaits : s.xEventInQueue = true ∧ s.eQueuedEvent = .execute := by
    unfold State.queued at h
    split_ifs at h with hin
    exact ⟨hin, Option.some.inj h⟩
  rw [xMBPortEventGet, if_pos hwaits, takeEvent_of_queued h]

/-- On an empty queue without a connection nothing happens. -/
lemma xMBPortEventGet_idle {s : State} (h : s.xEventInQueue = false) {accepted : Bool}
    (hconn : ¬ (s.newconn = true ∨ accepted = true)) : xMBPortEventGet s accepted = (none, s) := by
  have hpoll : xMBPortTCPPoll s accepted = s := by
    rw [xMBPortTCPPoll, if_neg (fun hc => hconn (Or.inl hc)),
      if_neg (fun hc => hconn (Or.inr hc))]
  rw [xMBPortEventGet, if_neg (by simp [h]), hpoll, takeEvent, if_neg (by simp [h])]

/-- On an empty queue with a connection a frame is announced. -/
lemma xMBPortEventGet_announce {s : State} (h : s.xEventInQueue = false) {accepted : Bool}
    (hconn : s.newconn = true ∨ accepted = true) :
    ∃ s', xMBPortEventGet s accepted = (some .frameReceived, s') ∧ s'.enabled = s.enabled ∧
      s'.xEventInQueue = false ∧
      s'.log = s.log ++ [Action.post none .frameReceived] ++ [Action.fetch .frameReceived] := by
  obtain ⟨newconn, hpoll⟩ : ∃ newconn,
      xMBPortTCPPoll s accepted = xMBPortEventPost { s with newconn } .frameReceived := by
    unfold xMBPortTCPPoll
    split_ifs with hc hacc
    · exact ⟨s.newconn, rfl⟩
    · exact ⟨true, rfl⟩
    · exact absurd hconn (not_or.mpr ⟨hc, hacc⟩)
  have hempty : ({ s with newconn := newconn } : State).queued = none := queued_eq_none h
  rw [xMBPortEventGet, if_neg (by simp [h]), hpoll,
    takeEvent_of_queued (queued_xMBPortEventPost _ _)]
  refine ⟨_, rfl, rfl, rfl, ?_⟩
  simp only [xMBPortEventPost, State.did, hempty]

/-- On an empty queue the receive step leaves the queue empty, or it receives a frame and posts its
`EV_EXECUTE`: the address is always the stack's own. -/
lemma frameReceived_cases {s : State} (h : s.xEventInQueue = false) (r : Request) :
    ((eMBTCPReceive r).isSome = false ∧ (frameReceived s r).queued = none ∧
        (frameReceived s r).log = s.log) ∨
      ((eMBTCPReceive r).isSome = true ∧ (frameReceived s r).queued = some .execute ∧
        (frameReceived s r).log =
          s.log ++ [Action.receive (frameReceived s r).frame] ++ [Action.post none .execute]) := by
  have hreceive : eMBTCPReceive r = none ∨ ∃ frame, eMBTCPReceive r = some (255, frame) := by
    unfold eMBTCPReceive
    split_ifs with hresult
    · dsimp only
      split_ifs with hpid
      · exact Or.inr ⟨_, rfl⟩
      · exact Or.inl rfl
    · exact Or.inl rfl
  unfold frameReceived
  rcases hreceive with hnone | ⟨frame, hsome⟩
  · left
    rw [hnone]
    exact ⟨rfl, queued_eq_none h, rfl⟩
  · right
    rw [hsome]
    refine ⟨rfl, rfl, ?_⟩
    simp [ucMBAddress, xMBPortEventPost, State.did, State.queued, h]

/-- The receive step leaves the stack enabled and the connection as it finds it. -/
lemma fields_frameReceived (s : State) (r : Request) :
    (frameReceived s r).enabled = s.enabled ∧ (frameReceived s r).newconn = r.newconn := by
  unfold frameReceived
  cases eMBTCPReceive r with
  | none => exact ⟨rfl, rfl⟩
  | some received =>
      dsimp only
      split_ifs
      · exact ⟨rfl, rfl⟩
      · exact ⟨rfl, rfl⟩

/-- A waiting event is fetched without a poll, and the frame executed. -/
lemma eMBPoll_of_pending {s : State} (henabled : s.enabled = true)
    (h : s.queued = some .execute) (t : Turn) : (eMBPoll s t).queued = none ∧
      (eMBPoll s t).log = s.log ++ [Action.fetch .execute] ++ [Action.execute s.frame] ∧
      (eMBPoll s t).enabled = s.enabled ∧ (eMBPoll s t).newconn = s.newconn := by
  rw [eMBPoll, if_pos henabled, xMBPortEventGet_of_pending h]
  exact ⟨queued_eq_none rfl, rfl, rfl, rfl⟩

/-- The queue is empty. -/
lemma xEventInQueue_eq_false {s : State} (h : s.queued = none) : s.xEventInQueue = false := by
  unfold State.queued at h
  split_ifs at h with hin
  exact Bool.eq_false_iff.mpr hin

/-- With an empty queue and no connection a call does nothing. -/
lemma eMBPoll_idle {s : State} (henabled : s.enabled = true) (h : s.queued = none) {t : Turn}
    (hconn : ¬ (s.newconn = true ∨ t.accepted = true)) : eMBPoll s t = s := by
  rw [eMBPoll, if_pos henabled, xMBPortEventGet_idle (xEventInQueue_eq_false h) hconn]

/-- With an empty queue and a connection a call is a receive step. -/
lemma eMBPoll_announce {s : State} (henabled : s.enabled = true) (h : s.queued = none) {t : Turn}
    (hconn : s.newconn = true ∨ t.accepted = true) :
    ∃ s', eMBPoll s t = frameReceived s' t.request ∧ s'.enabled = s.enabled ∧
      s'.xEventInQueue = false ∧
      s'.log = s.log ++ [Action.post none .frameReceived] ++ [Action.fetch .frameReceived] := by
  obtain ⟨s', hget, hs'⟩ := xMBPortEventGet_announce (xEventInQueue_eq_false h) hconn
  exact ⟨s', by rw [eMBPoll, if_pos henabled, hget], hs'⟩

/-- What a call does when the queue is empty or holds an `EV_EXECUTE`: nothing; it executes the
frame; it receives none; it receives one and posts its `EV_EXECUTE`. -/
lemma eMBPoll_cases {s : State} (h : s.queued = none ∨ s.queued = some .execute) (t : Turn) :
    eMBPoll s t = s ∨
      (s.queued = some .execute ∧ (eMBPoll s t).queued = none ∧
        (eMBPoll s t).log = s.log ++ [Action.fetch .execute] ++ [Action.execute s.frame]) ∨
      (s.queued = none ∧ (eMBPoll s t).queued = none ∧
        (eMBPoll s t).log =
          s.log ++ [Action.post none .frameReceived] ++ [Action.fetch .frameReceived]) ∨
      (s.queued = none ∧ (eMBPoll s t).queued = some .execute ∧
        (eMBPoll s t).log =
          s.log ++ [Action.post none .frameReceived] ++ [Action.fetch .frameReceived] ++
            [Action.receive (eMBPoll s t).frame] ++ [Action.post none .execute]) := by
  by_cases henabled : s.enabled = true
  swap
  · left
    rw [eMBPoll, if_neg henabled]
  rcases h with hempty | hexecute
  · by_cases hconn : s.newconn = true ∨ t.accepted = true
    · obtain ⟨s', hcall, -, hin, hlog'⟩ := eMBPoll_announce henabled hempty hconn
      rw [hcall, ← hlog']
      rcases frameReceived_cases hin t.request with ⟨-, hnone, hlog⟩ | ⟨-, hsome, hlog⟩
      · exact Or.inr (Or.inr (Or.inl ⟨hempty, hnone, hlog⟩))
      · exact Or.inr (Or.inr (Or.inr ⟨hempty, hsome, hlog⟩))
    · exact Or.inl (eMBPoll_idle henabled hempty hconn)
  · obtain ⟨hs', hlog, -⟩ := eMBPoll_of_pending henabled hexecute t
    exact Or.inr (Or.inl ⟨hexecute, hs', hlog⟩)

/-- The frame that the receive step returns is the one that is kept. -/
lemma frame_frameReceived {s : State} {r : Request} {address : ℕ} {frame : MBFrame}
    (h : eMBTCPReceive r = some (address, frame)) : (frameReceived s r).frame = frame := by
  unfold frameReceived
  rw [h]
  dsimp only
  split_ifs
  · rfl
  · rfl

/-- A call that fetches `EV_FRAME_RECEIVED` receives the frame that the receive step returns. -/
lemma received_eMBPoll {s : State} (henabled : s.enabled = true)
    (h : s.queued = none ∨ s.queued = some .execute) {t : Turn}
    (hfetch : (xMBPortEventGet s t.accepted).1 = some .frameReceived) :
    received (eMBPoll s t).log =
      received s.log ++ ((eMBTCPReceive t.request).map Prod.snd).toList := by
  rcases h with hempty | hexecute
  swap
  · rw [xMBPortEventGet_of_pending hexecute] at hfetch
    cases hfetch
  by_cases hconn : s.newconn = true ∨ t.accepted = true
  swap
  · rw [xMBPortEventGet_idle (xEventInQueue_eq_false hempty) hconn] at hfetch
    cases hfetch
  obtain ⟨s', hcall, -, hin, hlog'⟩ := eMBPoll_announce henabled hempty hconn
  have hreceived : received s'.log = received s.log := by
    rw [hlog']
    simp [received_append, received]
  rw [hcall]
  rcases frameReceived_cases hin t.request with ⟨hnone, -, hlog⟩ | ⟨hsome, -, hlog⟩
  · have hnone' : eMBTCPReceive t.request = none :=
      Option.not_isSome_iff_eq_none.mp (by rw [hnone]; exact Bool.false_ne_true)
    rw [hlog, hreceived, hnone', Option.map_none, Option.toList_none, List.append_nil]
  · obtain ⟨⟨address, frame⟩, hreceive⟩ := Option.isSome_iff_exists.mp hsome
    rw [hlog, frame_frameReceived hreceive, hreceive]
    simp [received_append, received, hreceived]

/-- A call does not disable the stack. -/
lemma enabled_eMBPoll {s : State} (h : s.queued = none ∨ s.queued = some .execute) (t : Turn) :
    (eMBPoll s t).enabled = s.enabled := by
  by_cases henabled : s.enabled = true
  swap
  · rw [eMBPoll, if_neg henabled]
  rcases h with hempty | hexecute
  · by_cases hconn : s.newconn = true ∨ t.accepted = true
    · obtain ⟨s', hcall, hs', -⟩ := eMBPoll_announce henabled hempty hconn
      rw [hcall, (fields_frameReceived s' t.request).1, hs']
    · rw [eMBPoll_idle henabled hempty hconn]
  · exact (eMBPoll_of_pending henabled hexecute t).2.2.1

/-- Between two calls the queue is empty or holds an `EV_EXECUTE`; the frames received are those
executed and the one that waits, in order; no post has replaced an `EV_EXECUTE`; and no event of a
new frame was fetched before the frames received were executed. -/
structure Inv (s : State) : Prop where
  slot : s.queued = none ∨ s.queued = some .execute
  frames : received s.log = executed s.log ++ s.pending
  posts : ∀ eEvent, Action.post (some .execute) eEvent ∉ s.log
  ordered : Ordered s.log
  live : s.queued = some .execute → s.enabled = true

/-- Nothing has happened at the start. -/
lemma inv_start (enabled : Bool) : Inv (State.start enabled) := by
  refine ⟨Or.inl rfl, rfl, fun _ hmem => (by cases hmem), ?_, fun h => (by cases h)⟩
  intro before after heq
  exact absurd heq.symm (List.append_ne_nil_of_right_ne_nil _ (List.cons_ne_nil _ _))

/-- **A call keeps the invariant.** -/
theorem inv_eMBPoll {s : State} (h : Inv s) (t : Turn) : Inv (eMBPoll s t) := by
  obtain ⟨hslot, hframes, hposts, hordered, hlive⟩ := h
  have hlive' : s.queued = none → (eMBPoll s t).queued = some .execute →
      (eMBPoll s t).enabled = true := by
    intro hs hs'
    by_contra henabled
    rw [enabled_eMBPoll hslot] at henabled
    rw [eMBPoll, if_neg henabled, hs] at hs'
    cases hs'
  rcases eMBPoll_cases hslot t with hsame | ⟨hs, hs', hlog⟩ | ⟨hs, hs', hlog⟩ | ⟨hs, hs', hlog⟩
  · rw [hsame]
    exact ⟨hslot, hframes, hposts, hordered, hlive⟩
  · -- the waiting frame is executed
    rw [State.pending, hs, if_pos rfl] at hframes
    refine ⟨Or.inl hs', ?_, ?_, ?_, fun hex => absurd (hs'.symm.trans hex) (by simp)⟩
    · rw [State.pending, hs', hlog]
      simp [received_append, executed_append, received, executed, hframes]
    · intro eEvent hmem
      rw [hlog] at hmem
      simp only [List.mem_append, List.mem_singleton, reduceCtorEq, or_false] at hmem
      exact hposts eEvent hmem
    · rw [hlog]
      exact (hordered.snoc fun heq => (by cases heq)).snoc fun heq => (by cases heq)
  all_goals
    rw [State.pending, hs, if_neg (by simp), List.append_nil] at hframes
    have hfetch : Ordered
        (s.log ++ [Action.post none .frameReceived] ++ [Action.fetch .frameReceived]) := by
      refine (hordered.snoc fun heq => (by cases heq)).snoc fun _ => ?_
      simp [received_append, executed_append, received, executed, hframes]
  · -- no frame is received
    refine ⟨Or.inl hs', ?_, ?_, ?_, hlive' hs⟩
    · rw [State.pending, hs', hlog]
      simp [received_append, executed_append, received, executed, hframes]
    · intro eEvent hmem
      rw [hlog] at hmem
      simp only [List.mem_append, List.mem_singleton, Action.post.injEq, reduceCtorEq, false_and,
        or_false] at hmem
      exact hposts eEvent hmem
    · rw [hlog]
      exact hfetch
  · -- a frame is received, and waits
    refine ⟨Or.inr hs', ?_, ?_, ?_, hlive' hs⟩
    · rw [State.pending, hs', if_pos rfl, hlog]
      simp [received_append, executed_append, received, executed, hframes]
    · intro eEvent hmem
      rw [hlog] at hmem
      simp only [List.mem_append, List.mem_singleton, Action.post.injEq, reduceCtorEq, false_and,
        or_false] at hmem
      exact hposts eEvent hmem
    · rw [hlog]
      exact (hfetch.snoc fun heq => (by cases heq)).snoc fun heq => (by cases heq)

/-! ### Runs -/

/-- Every run is defined. -/
lemma exists_run (s : State) (ts : List Turn) : ∃ s', Machine.run step s ts = some s' := by
  induction ts generalizing s with
  | nil => exact ⟨s, rfl⟩
  | cons t ts ih => exact ih (eMBPoll s t)

/-- Every state of a run meets the invariant. -/
lemma inv_of_run {enabled : Bool} {ts : List Turn} {s : State}
    (h : Machine.run step (State.start enabled) ts = some s) : Inv s := by
  refine Machine.run_invariant ?_ (inv_start enabled) h
  intro s t s' hs hstep
  rw [← Option.some.inj hstep]
  exact inv_eMBPoll hs t

/-- **Nothing is lost and nothing repeated.** In every run of `eMBPoll` calls, whatever the network
accepts and the receive step returns: the frames for which it returned `MB_ENOERR` are the frames
executed, in order and each once, but for the one whose `EV_EXECUTE` waits, which the next call
executes; whenever an `EV_FRAME_RECEIVED` is fetched all frames received before have been executed,
and the call receives the frame that the receive step returns, if it returns one; and no post has
replaced a waiting `EV_EXECUTE`. -/
theorem frames_executed_once (enabled : Bool) (ts : List Turn) :
    ∃ s, Machine.run step (State.start enabled) ts = some s ∧
      received s.log = executed s.log ++ s.pending ∧ Ordered s.log ∧
      (∀ eEvent, Action.post (some .execute) eEvent ∉ s.log) ∧
      ∀ t, (s.queued = some .execute → (eMBPoll s t).queued = none ∧
          (eMBPoll s t).log = s.log ++ [.fetch .execute] ++ [.execute s.frame]) ∧
        (s.enabled = true → (xMBPortEventGet s t.accepted).1 = some .frameReceived →
          received (eMBPoll s t).log =
            received s.log ++ ((eMBTCPReceive t.request).map Prod.snd).toList) := by
  obtain ⟨s, hrun⟩ := exists_run (State.start enabled) ts
  have hinv := inv_of_run hrun
  refine ⟨s, hrun, hinv.frames, hinv.ordered, hinv.posts, fun t => ⟨fun hwaits => ?_, ?_⟩⟩
  · obtain ⟨hs', hlog, -⟩ := eMBPoll_of_pending (hinv.live hwaits) hwaits t
    exact ⟨hs', hlog⟩
  · exact fun henabled hfetch => received_eMBPoll henabled hinv.slot hfetch

/-! ### The loop with its port -/

/-- A return of the port's `xMBTCPPortGetRequest`; `wild` is the memory at a frame pointer that is
null or not set, and `usLength` a length that is not set. -/
def Request.ofReturn (r : Return) (wild : Buffer) (usLength : ℕ) : Request where
  result := r.result
  pucMBTCPFrame := if r.frame = some .workbuffer then r.port.workbuffer else wild
  usTCPLength := r.usTCPLength.getD usLength
  newconn := r.port.newconn

/-- A state of the loop with its port and one of the loop with its queue. -/
structure Corresponds (stack : Stack) (s : State) : Prop where
  enabled : s.enabled = true
  newconn : s.newconn = stack.port.newconn
  queued : s.queued = if stack.execute then some .execute else none

/-- The receive step decides alike. -/
lemma eMBTCPReceive_ofReturn {r : Return} {eStatus : MBErrorCode} {usLength : Option ℕ}
    (h : Modbus.eMBTCPReceive r = some (eStatus, usLength)) (wild : Buffer) :
    (eMBTCPReceive (Request.ofReturn r wild 0)).isSome = decide (eStatus = .enoerr) := by
  unfold Modbus.eMBTCPReceive at h
  split_ifs at h with hresult
  · split at h
    · next usTCPLength hframe hlength =>
        have hmem : (Request.ofReturn r wild 0).pucMBTCPFrame = r.port.workbuffer := if_pos hframe
        unfold eMBTCPReceive
        rw [if_pos (show (Request.ofReturn r wild 0).result = true from hresult), hmem]
        dsimp only at h ⊢
        split_ifs at h ⊢ with hpid
        · obtain ⟨rfl, -⟩ := Prod.mk.inj (Option.some.inj h)
          rfl
        · obtain ⟨rfl, -⟩ := Prod.mk.inj (Option.some.inj h)
          rfl
    · cases h
  · obtain ⟨rfl, -⟩ := Prod.mk.inj (Option.some.inj h)
    unfold eMBTCPReceive
    rw [if_neg (show ¬ (Request.ofReturn r wild 0).result = true from hresult)]
    rfl

/-- **The loop of the receive path is this one.** Every turn of it is a call of `eMBPoll` with the
queue, on the request the port returned. -/
theorem corresponds_eMBPoll {stack stack' : Stack} {s : State} (h : Corresponds stack s)
    {t : Modbus.Turn} (hstep : Modbus.eMBPoll stack t = some stack') :
    ∃ u, Corresponds stack' (eMBPoll s u) := by
  obtain ⟨henabled, hnewconn, hqueued⟩ := h
  by_cases hexecute : stack.execute = true
  · have hnone : Modbus.frameReceived stack t = none := by
      rw [Modbus.frameReceived, if_pos hexecute]
    rw [Modbus.eMBPoll, hnone] at hstep
    simp only [hexecute, if_true, Option.some.injEq] at hstep hqueued
    rw [← hstep]
    obtain ⟨hs', -, hen, hconn⟩ := eMBPoll_of_pending henabled hqueued
      ⟨false, ⟨false, fun _ => 0, 0, false⟩⟩
    exact ⟨_, hen.trans henabled, hconn.trans hnewconn, hs'⟩
  rw [if_neg hexecute] at hqueued
  unfold Modbus.eMBPoll Modbus.frameReceived at hstep
  rw [if_neg hexecute] at hstep
  by_cases hconn : s.newconn = true ∨ t.accepted = true
  · obtain ⟨port, hpoll⟩ : ∃ port, Modbus.xMBPortTCPPoll stack.port t.accepted = (port, true) := by
      unfold Modbus.xMBPortTCPPoll
      split_ifs with hc hacc
      · exact ⟨_, rfl⟩
      · exact ⟨_, rfl⟩
      · exact absurd hconn (not_or.mpr ⟨by rwa [hnewconn], hacc⟩)
    rw [hpoll] at hstep
    obtain ⟨r, -, hstep⟩ := Option.bind_eq_some_iff.mp hstep
    obtain ⟨⟨eStatus, usLength⟩, hreceive, hstep⟩ := Option.bind_eq_some_iff.mp hstep
    rw [← Option.some.inj hstep]
    have hdecides := eMBTCPReceive_ofReturn hreceive (fun _ => 0)
    refine ⟨⟨t.accepted, Request.ofReturn r (fun _ => 0) 0⟩, ?_⟩
    obtain ⟨s', hcall, hen, hin, -⟩ := eMBPoll_announce henabled hqueued (t := ⟨t.accepted,
      Request.ofReturn r (fun _ => 0) 0⟩) hconn
    rw [hcall]
    obtain ⟨hen', hconn'⟩ := fields_frameReceived s' (Request.ofReturn r (fun _ => 0) 0)
    refine ⟨hen'.trans (hen.trans henabled), hconn', ?_⟩
    rcases frameReceived_cases hin (Request.ofReturn r (fun _ => 0) 0) with
      ⟨hsome, hslot, -⟩ | ⟨hsome, hslot, -⟩
    · rw [hslot]
      dsimp only
      rw [← hdecides, hsome]
      rfl
    · rw [hslot]
      dsimp only
      rw [← hdecides, hsome]
      rfl
  · have hpoll : Modbus.xMBPortTCPPoll stack.port t.accepted = (stack.port, false) := by
      rw [Modbus.xMBPortTCPPoll, if_neg (by rw [← hnewconn]; exact fun hc => hconn (Or.inl hc)),
        if_neg (fun hacc => hconn (Or.inr hacc))]
    rw [hpoll] at hstep
    simp only [if_neg hexecute, Option.some.injEq] at hstep
    rw [← hstep]
    refine ⟨⟨t.accepted, ⟨false, fun _ => 0, 0, false⟩⟩, ?_⟩
    rw [eMBPoll_idle henabled hqueued hconn]
    exact ⟨henabled, hnewconn, by rw [hqueued, if_neg hexecute]⟩

end PanelFirmware.Modbus.EventPort
