import PanelFirmware.Modbus.Execute

/-!
# `lib/freemodbus`: the requests of a run

The loop of the stack takes a request for the panel in one turn and answers it in the next. Between
requests come turns without one: timeouts, connections that are closed and accepted again, requests
for the regulator, frames of another protocol.

* `Panel.turn_cases`: what a turn can do; `Panel.turn_refines`: it is a turn of the stack's loop.
* `Panel.run_answers`: the requests of a run are answered one after the other.
* `Panel.run_bounds`: over a table of 123 registers at most, no answer but the one to file records
  is longer than the receive buffer, and nothing behind the buffer is written.
-/

namespace PanelFirmware.Modbus

open PanelFirmware.Lib PanelFirmware.Hal PanelFirmware.Prm PanelFirmware.Libmodbus

/-! ### The turns of the loop -/

/-- The stack with the data its requests are executed on: `usLength` of `eMBPoll`, and the store. -/
structure Panel where
  stack : Stack
  usLength : ℕ
  vals : List Val

/-- What a turn of the loop does with a request: it takes one for the panel, or it answers one. -/
inductive Event
  | request (segment : List Byte)
  | answer (bytes : List Byte)

/-- A turn of the loop. A frame pointer that is null or not set ends the run, or, where `ignored`,
what is behind it has another protocol identifier. Source: `freemodbus` `mb.c` `eMBPoll`. -/
def Panel.turn (version : Version) (ignored : Bool) (s : Panel) (t : Turn) :
    Prog Flash (Panel × List Event) :=
  match frameReceived s.stack t with
  | some port =>
      match xMBTCPPortGetRequest t.regModbusRequest port t.res with
      | none => Prog.ofOption none
      | some r =>
          match eMBTCPReceive r, r.dispatch with
          | some (.enoerr, some usLength), some (.panel segment) =>
              pure (⟨⟨r.port, true⟩, usLength, s.vals⟩, [.request segment])
          | some _, _ => pure ({ s with stack := ⟨r.port, false⟩ }, [])
          | none, _ =>
              if ignored then pure ({ s with stack := ⟨r.port, false⟩ }, [])
              else Prog.ofOption none
  | none =>
      if s.stack.execute then do
        let e ← execute version s.vals s.stack.port.workbuffer s.usLength
        pure (⟨⟨{ s.stack.port with workbuffer := e.workbuffer }, false⟩, e.usLength, e.vals⟩,
          [.answer e.sent])
      else pure (s, [])

/-- The turns of the loop, with what they do with requests. -/
def Panel.run (version : Version) (ignored : Bool) : Panel → List Turn →
    Prog Flash (Panel × List Event)
  | s, [] => pure (s, [])
  | s, t :: ts => do
      let (s', events) ← s.turn version ignored t
      let (s'', events') ← Panel.run version ignored s' ts
      pure (s'', events ++ events')

/-! ### Requests and answers -/

/-- Requests and their answers: each request is answered before the next, the last one may not have
been yet. -/
inductive Exchange : List Event → Prop
  | done : Exchange []
  | pending (request : List Byte) : Exchange [.request request]
  | next {request answer : List Byte} {events : List Event} (answers : Answers request answer)
      (rest : Exchange events) : Exchange (.request request :: .answer answer :: events)

/-- The request a panel has to answer is the one in its receive buffer. -/
structure Panel.Awaits (s : Panel) (awaited : Option (List Byte)) : Prop where
  execute : s.stack.execute = awaited.isSome
  workbuffer : ∀ segment ∈ awaited, ∀ i b, segment[i]? = some b → s.stack.port.workbuffer i = b
  usLength : ∀ segment ∈ awaited, 8 ≤ segment.length → 1 ≤ s.usLength

/-- The poll leaves the receive buffer as it is. -/
lemma workbuffer_of_frameReceived {s : Stack} {t : Turn} {port : Port}
    (h : frameReceived s t = some port) :
    s.execute = false ∧ port.workbuffer = s.port.workbuffer := by
  unfold frameReceived at h
  split_ifs at h with hexecute
  refine ⟨Bool.eq_false_iff.mpr hexecute, ?_⟩
  unfold xMBPortTCPPoll at h
  by_cases hconn : s.port.newconn
  · simp only [if_pos hconn, Option.some.injEq] at h
    rw [← h]
  · by_cases haccepted : t.accepted
    · simp only [if_neg hconn, if_pos haccepted, Option.some.injEq] at h
      rw [← h]
    · simp only [if_neg hconn, if_neg haccepted] at h
      cases h

/-- What a call leaves in the receive buffer; where it gives a frame, that is the segment passed to
the panel. -/
lemma getRequest_workbuffer {regModbusRequest : Buffer → ℕ → Regulator.Answer} {port : Port}
    {res : Received} {r : Return}
    (hget : xMBTCPPortGetRequest regModbusRequest port res = some r) :
    ∃ segment : List Byte, segment.length ≤ workbufferSize ∧
      r.port.workbuffer = port.workbuffer.write segment ∧
      (r.frame = some .workbuffer → r.dispatch = some (.panel segment) ∧
        r.usTCPLength = some segment.length) := by
  have hnil : port.workbuffer = port.workbuffer.write [] := rfl
  unfold xMBTCPPortGetRequest at hget
  dsimp only at hget
  split_ifs at hget with hconn
  · cases res with
    | ok inbuf =>
        dsimp only at hget
        split_ifs at hget with hfits hunit
        · obtain rfl := Option.some.inj hget
          exact ⟨inbuf.payload, hfits, rfl, fun _ => ⟨by rw [Buffer.bytes_write], rfl⟩⟩
        · obtain rfl := Option.some.inj hget
          exact ⟨inbuf.payload, hfits, rfl, nofun⟩
    | timeout up =>
        cases up <;>
        · obtain rfl := Option.some.inj hget
          exact ⟨[], Nat.zero_le _, hnil, nofun⟩
    | error =>
        obtain rfl := Option.some.inj hget
        exact ⟨[], Nat.zero_le _, hnil, nofun⟩
  · obtain rfl := Option.some.inj hget
    exact ⟨[], Nat.zero_le _, hnil, nofun⟩

/-- A frame that is taken is the one in the receive buffer. -/
lemma receive_accepted {r : Return} {usLength : ℕ}
    (h : eMBTCPReceive r = some (.enoerr, some usLength)) :
    r.frame = some .workbuffer ∧
      ∀ n ∈ r.usTCPLength, usLength = (n + 0x10000 - 7) % 0x10000 := by
  unfold eMBTCPReceive at h
  split_ifs at h
  · split at h
    · rename_i n hframe hlength
      dsimp only at h
      split_ifs at h
      · refine ⟨hframe, fun m hm => ?_⟩
        rw [hlength] at hm
        rw [← Option.some.inj hm]
        exact (Option.some.inj (Prod.mk.inj (Option.some.inj h)).2).symm
      · cases h
    · cases h
  · cases h

section Turn

variable {version : Version} {ignored : Bool} {s s' : Panel} {t : Turn} {events : List Event}
  {f f' : Flash} {l : List Flash}

/-- What a turn that takes no request leaves: the receive buffer behind its end, and the store. -/
structure Panel.Idle (s s' : Panel) : Prop where
  execute : s.stack.execute = false ∧ s'.stack.execute = false
  vals : s'.vals = s.vals
  workbuffer : ∀ i, workbufferSize ≤ i →
    s'.stack.port.workbuffer i = s.stack.port.workbuffer i

/-- What a turn that takes a request leaves: the request in the receive buffer. -/
structure Panel.Takes (s s' : Panel) (segment : List Byte) : Prop where
  execute : s.stack.execute = false ∧ s'.stack.execute = true
  vals : s'.vals = s.vals
  length : segment.length ≤ workbufferSize
  workbuffer : s'.stack.port.workbuffer = s.stack.port.workbuffer.write segment
  usLength : s'.usLength = (segment.length + 0x10000 - 7) % 0x10000

/-- What a turn that executes a request leaves: what its handler does. -/
structure Panel.Executes (version : Version) (s s' : Panel) (e : Executed) : Prop where
  turns : s.stack.execute = true ∧ s'.stack.execute = false
  vals : s'.vals = e.vals
  workbuffer : s'.stack.port.workbuffer = e.workbuffer
  runs : ∃ f l f', Prog.Runs (execute version s.vals s.stack.port.workbuffer s.usLength) f l e f'

/-- What a turn does: nothing with requests, or it takes one, or it answers one. -/
lemma Panel.turn_cases (hrun : Prog.Runs (s.turn version ignored t) f l (s', events) f') :
    (events = [] ∧ s.Idle s') ∨
    (∃ segment, events = [.request segment] ∧ s.Takes s' segment) ∨
    (∃ e, events = [.answer e.sent] ∧ s.Executes version s' e) := by
  unfold Panel.turn at hrun
  cases hreceived : frameReceived s.stack t with
  | none =>
      simp only [hreceived] at hrun
      by_cases hexecute : s.stack.execute
      · rw [if_pos hexecute] at hrun
        obtain ⟨l₁, e, f₁, l₂, hexec, hret, -⟩ := Prog.Runs.of_bind hrun
        obtain ⟨rfl, rfl⟩ := Prod.mk.inj (Prog.Runs.of_pure hret)
        exact Or.inr (Or.inr ⟨e, rfl, ⟨hexecute, rfl⟩, rfl, rfl, f, l₁, f₁, hexec⟩)
      · rw [if_neg hexecute] at hrun
        obtain ⟨rfl, rfl⟩ := Prod.mk.inj (Prog.Runs.of_pure hrun)
        have hfalse := Bool.eq_false_iff.mpr hexecute
        exact Or.inl ⟨rfl, ⟨hfalse, hfalse⟩, rfl, fun _ _ => rfl⟩
  | some port =>
      obtain ⟨hfalse, hbuffer⟩ := workbuffer_of_frameReceived hreceived
      simp only [hreceived] at hrun
      cases hget : xMBTCPPortGetRequest t.regModbusRequest port t.res with
      | none =>
          simp only [hget] at hrun
          cases Prog.Runs.of_ofOption hrun
      | some r =>
          obtain ⟨segment, hfits, hwrite, hframe⟩ := getRequest_workbuffer hget
          rw [hbuffer] at hwrite
          have hidle : s.Idle { s with stack := ⟨r.port, false⟩ } := by
            refine ⟨⟨hfalse, rfl⟩, rfl, fun i hi => ?_⟩
            change r.port.workbuffer i = _
            rw [hwrite, Buffer.write, List.getD_eq_default _ _ (hfits.trans hi)]
          simp only [hget] at hrun
          split at hrun
          · rename_i usLength segment' hreceive hdispatch
            obtain ⟨rfl, rfl⟩ := Prod.mk.inj (Prog.Runs.of_pure hrun)
            obtain ⟨hworkbuffer, hlength⟩ := receive_accepted hreceive
            obtain ⟨hpanel, hn⟩ := hframe hworkbuffer
            rw [hpanel] at hdispatch
            obtain rfl := Dispatch.panel.inj (Option.some.inj hdispatch)
            exact Or.inr (Or.inl ⟨segment, rfl, ⟨hfalse, rfl⟩, rfl, hfits, hwrite,
              hlength segment.length hn⟩)
          · obtain ⟨rfl, rfl⟩ := Prod.mk.inj (Prog.Runs.of_pure hrun)
            exact Or.inl ⟨rfl, hidle⟩
          · split_ifs at hrun
            · obtain ⟨rfl, rfl⟩ := Prod.mk.inj (Prog.Runs.of_pure hrun)
              exact Or.inl ⟨rfl, hidle⟩
            · cases Prog.Runs.of_ofOption hrun

/-- The status of a reception, and whether there is a length. -/
lemma receive_cases (r : Return) :
    eMBTCPReceive r = none ∨ eMBTCPReceive r = some (.eio, none) ∨
      ∃ usLength, eMBTCPReceive r = some (.enoerr, some usLength) := by
  unfold eMBTCPReceive
  split_ifs
  · split
    · dsimp only
      split_ifs
      · exact Or.inr (Or.inr ⟨_, rfl⟩)
      · exact Or.inr (Or.inl rfl)
    · exact Or.inl rfl
  · exact Or.inr (Or.inl rfl)

/-- A turn that does not ignore a frame pointer that is not set is one of the stack's loop, with
what the handler leaves in the receive buffer. -/
theorem Panel.turn_refines (hrun : Prog.Runs (s.turn version false t) f l (s', events) f') :
    ∃ executed, eMBPoll s.stack { t with executed := executed } = some s'.stack := by
  have hreceived : ∀ executed, frameReceived s.stack { t with executed := executed } =
      frameReceived s.stack t := fun _ => rfl
  unfold Panel.turn at hrun
  cases hframe : frameReceived s.stack t with
  | none =>
      simp only [hframe] at hrun
      by_cases hexecute : s.stack.execute
      · rw [if_pos hexecute] at hrun
        obtain ⟨l₁, e, f₁, l₂, hexec, hret, -⟩ := Prog.Runs.of_bind hrun
        obtain ⟨rfl, -⟩ := Prod.mk.inj (Prog.Runs.of_pure hret)
        refine ⟨e.workbuffer, ?_⟩
        simp only [eMBPoll, hreceived, hframe, if_pos hexecute]
      · rw [if_neg hexecute] at hrun
        obtain ⟨rfl, -⟩ := Prod.mk.inj (Prog.Runs.of_pure hrun)
        refine ⟨fun _ => 0, ?_⟩
        simp only [eMBPoll, hreceived, hframe, if_neg hexecute]
  | some port =>
      simp only [hframe] at hrun
      refine ⟨fun _ => 0, ?_⟩
      cases hget : xMBTCPPortGetRequest t.regModbusRequest port t.res with
      | none =>
          simp only [hget] at hrun
          cases Prog.Runs.of_ofOption hrun
      | some r =>
          simp only [hget] at hrun
          rcases receive_cases r with hreceive | hreceive | ⟨usLength, hreceive⟩
          · rw [hreceive] at hrun
            cases Prog.Runs.of_ofOption hrun
          · rw [hreceive] at hrun
            obtain ⟨rfl, -⟩ := Prod.mk.inj (Prog.Runs.of_pure hrun)
            simp [eMBPoll, hreceived, hframe, hget, hreceive]
          · obtain ⟨segment, -, -, hpanel⟩ := getRequest_workbuffer hget
            rw [hreceive, (hpanel (receive_accepted hreceive).1).1] at hrun
            obtain ⟨rfl, -⟩ := Prod.mk.inj (Prog.Runs.of_pure hrun)
            simp [eMBPoll, hreceived, hframe, hget, hreceive]

/-- Between requests there is none to be answered. -/
lemma Panel.Awaits.eq_none {s : Panel} {awaited : Option (List Byte)} (h : s.Awaits awaited)
    (hfalse : s.stack.execute = false) : awaited = none :=
  Option.not_isSome_iff_eq_none.mp (by rw [← h.execute, hfalse]; decide)

/-- A turn keeps what the panel has to answer: it adds a request, or it answers it. -/
lemma Panel.Awaits.turn {awaited : Option (List Byte)} (h : s.Awaits awaited)
    (hrun : Prog.Runs (s.turn version ignored t) f l (s', events) f') :
    ∃ awaited', s'.Awaits awaited' ∧ ∀ later,
      Exchange ((awaited'.map Event.request).toList ++ later) →
        Exchange ((awaited.map Event.request).toList ++ (events ++ later)) := by
  rcases Panel.turn_cases hrun with ⟨rfl, hidle⟩ | ⟨segment, rfl, htakes⟩ | ⟨e, rfl, hexecutes⟩
  · obtain rfl := h.eq_none hidle.execute.1
    exact ⟨none, ⟨hidle.execute.2, nofun, nofun⟩, fun later hlater => hlater⟩
  · obtain rfl := h.eq_none htakes.execute.1
    refine ⟨some segment, ⟨htakes.execute.2, ?_, ?_⟩, fun later hlater => hlater⟩
    · rintro _ ⟨⟩ i b hb
      rw [htakes.workbuffer]
      exact Buffer.write_apply hb
    · rintro _ ⟨⟩ hlen
      have hfits : segment.length ≤ 256 := htakes.length
      rw [htakes.usLength]
      omega
  · obtain ⟨segment, rfl⟩ := Option.isSome_iff_exists.mp (h.execute.symm.trans hexecutes.turns.1)
    obtain ⟨f₁, l₁, f₂, hexec⟩ := hexecutes.runs
    have hanswers := execute_answers (h.workbuffer segment rfl) (h.usLength segment rfl) hexec
    exact ⟨none, ⟨hexecutes.turns.2, nofun, nofun⟩, fun later hlater => .next hanswers hlater⟩

/-- A turn keeps the number of registers, and what is behind the receive buffer. -/
lemma Panel.turn_bounds (hregisters : registersOf s.vals ≤ 123)
    (hrun : Prog.Runs (s.turn version ignored t) f l (s', events) f') :
    registersOf s'.vals ≤ 123 ∧
      (∀ i, workbufferSize ≤ i →
        s'.stack.port.workbuffer i = s.stack.port.workbuffer i) ∧
      ∀ a, Event.answer a ∈ events →
        a.length ≤ workbufferSize ∨ a[7]? = some mbFuncWriteFileRecord := by
  rcases Panel.turn_cases hrun with ⟨rfl, hidle⟩ | ⟨segment, rfl, htakes⟩ | ⟨e, rfl, hexecutes⟩
  · exact ⟨hidle.vals ▸ hregisters, hidle.workbuffer, fun a ha => absurd ha List.not_mem_nil⟩
  · refine ⟨htakes.vals ▸ hregisters, fun i hi => ?_, fun a ha => ?_⟩
    · rw [htakes.workbuffer, Buffer.write, List.getD_eq_default _ _ (htakes.length.trans hi)]
    · cases List.mem_singleton.mp ha
  · obtain ⟨f₁, l₁, f₂, hexec⟩ := hexecutes.runs
    obtain ⟨hbehind, hsame, hlength⟩ := execute_bounds hregisters hexec
    refine ⟨?_, fun i hi => ?_, fun a ha => ?_⟩
    · rw [hexecutes.vals, registersOf_congr hsame]
      exact hregisters
    · rw [hexecutes.workbuffer]
      exact hbehind i hi
    · obtain rfl := Event.answer.inj (List.mem_singleton.mp ha)
      exact hlength

end Turn

section Run

variable {version : Version} {ignored : Bool} {s s' : Panel} {ts : List Turn}
  {events : List Event} {f f' : Flash} {l : List Flash}

/-- A run keeps what the panel has to answer. -/
lemma Panel.Awaits.run {awaited : Option (List Byte)} (h : s.Awaits awaited)
    (hrun : Prog.Runs (s.run version ignored ts) f l (s', events) f') :
    Exchange ((awaited.map Event.request).toList ++ events) := by
  induction ts generalizing s awaited events f f' l with
  | nil =>
      obtain ⟨rfl, rfl⟩ := Prod.mk.inj (Prog.Runs.of_pure hrun)
      cases awaited with
      | none => exact .done
      | some segment => exact .pending segment
  | cons t ts ih =>
      obtain ⟨l₁, ⟨s₁, events₁⟩, f₁, l₂, hturn, hrest, -⟩ := Prog.Runs.of_bind hrun
      obtain ⟨l₃, ⟨s₂, events₂⟩, f₂, l₄, htail, hret, -⟩ := Prog.Runs.of_bind hrest
      obtain ⟨rfl, rfl⟩ := Prod.mk.inj (Prog.Runs.of_pure hret)
      obtain ⟨awaited', hawaits, hexchange⟩ := h.turn hturn
      exact hexchange events₂ (ih hawaits htail)

/-- **The requests of a run are answered** one after the other, from any state between requests:
each answer is to the request before it, whatever comes between them. -/
theorem Panel.run_answers (hidle : s.stack.execute = false)
    (hrun : Prog.Runs (s.run version ignored ts) f l (s', events) f') : Exchange events := by
  have hawaits : s.Awaits none := ⟨hidle, nofun, nofun⟩
  exact hawaits.run hrun

/-- A request for the slave's identifier, and the turn in which it is answered. -/
def slaveIdTurns : List Turn :=
  let inbuf : Netbuf := ⟨[0, 1, 0, 0, 0, 2, 2, 17], [], List.cons_ne_nil _ _⟩
  let turn : Turn := ⟨true, .ok inbuf, fun _ _ => ⟨false, fun _ => 0, 0⟩, fun _ => 0⟩
  [turn, turn]

/-- It is taken and executed. -/
lemma exists_slaveId_run :
    ∃ (s : Panel) (events : List Event),
      Prog.Runs (Panel.run ⟨1, 0, 0, 0⟩ false ⟨Stack.start, 0, valuearray⟩ slaveIdTurns)
        (fun _ => 0xFF) [] (s, events) (fun _ => 0xFF) :=
  ⟨_, _, rfl⟩

/-- It is answered. -/
theorem slaveId_answered :
    ∃ (s : Panel) (events : List Event),
      Prog.Runs (Panel.run ⟨1, 0, 0, 0⟩ false ⟨Stack.start, 0, valuearray⟩ slaveIdTurns)
        (fun _ => 0xFF) [] (s, events) (fun _ => 0xFF) ∧ Exchange events := by
  obtain ⟨s, events, hrun⟩ := exists_slaveId_run
  exact ⟨s, events, hrun, Panel.run_answers rfl hrun⟩

/-- **No answer leaves the receive buffer** in a run over a table of 123 registers at most, but one
to file records; what is behind the buffer is never written. -/
theorem Panel.run_bounds (hregisters : registersOf s.vals ≤ 123)
    (hrun : Prog.Runs (s.run version ignored ts) f l (s', events) f') :
    (∀ i, workbufferSize ≤ i → s'.stack.port.workbuffer i = s.stack.port.workbuffer i) ∧
      ∀ a, Event.answer a ∈ events →
        a.length ≤ workbufferSize ∨ a[7]? = some mbFuncWriteFileRecord := by
  induction ts generalizing s events f f' l with
  | nil =>
      obtain ⟨rfl, rfl⟩ := Prod.mk.inj (Prog.Runs.of_pure hrun)
      exact ⟨fun _ _ => rfl, fun a ha => absurd ha List.not_mem_nil⟩
  | cons t ts ih =>
      obtain ⟨l₁, ⟨s₁, events₁⟩, f₁, l₂, hturn, hrest, -⟩ := Prog.Runs.of_bind hrun
      obtain ⟨l₃, ⟨s₂, events₂⟩, f₂, l₄, htail, hret, -⟩ := Prog.Runs.of_bind hrest
      obtain ⟨rfl, rfl⟩ := Prod.mk.inj (Prog.Runs.of_pure hret)
      obtain ⟨hregisters₁, hbehind₁, hlength₁⟩ := Panel.turn_bounds hregisters hturn
      obtain ⟨hbehind₂, hlength₂⟩ := ih hregisters₁ htail
      refine ⟨fun i hi => (hbehind₂ i hi).trans (hbehind₁ i hi), fun a ha => ?_⟩
      rcases List.mem_append.mp ha with ha | ha
      · exact hlength₁ a ha
      · exact hlength₂ a ha

/-- The answer fits the receive buffer. -/
theorem slaveId_bounds :
    ∃ (s : Panel) (events : List Event),
      Prog.Runs (Panel.run ⟨1, 0, 0, 0⟩ false ⟨Stack.start, 0, valuearray⟩ slaveIdTurns)
        (fun _ => 0xFF) [] (s, events) (fun _ => 0xFF) ∧
      (∀ i, workbufferSize ≤ i → s.stack.port.workbuffer i = Stack.start.port.workbuffer i) ∧
      ∀ a, Event.answer a ∈ events →
        a.length ≤ workbufferSize ∨ a[7]? = some mbFuncWriteFileRecord := by
  have hregisters : registersOf valuearray ≤ 123 := by decide
  obtain ⟨s, events, hrun⟩ := exists_slaveId_run
  exact ⟨s, events, hrun, Panel.run_bounds hregisters hrun⟩

end Run

end PanelFirmware.Modbus
