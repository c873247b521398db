import PanelFirmware.Lib.Machine

/-!
# `regulator/src/regulatorConnTSK.c`: commands to the regulator

Any number of tasks call `reg_waitCommand`; the regulator task takes their commands from a queue
of eight. The machine interleaves their steps, the ticks of the kernel and the answers of the
regulator, or its silence, in any order.

* A call lives on its issuer's stack, and its record holds what is shared with the regulator task:
  the local `res` and the command, which the queue copies.
* A semaphore is a block of the heap. A call creates one and deletes it, and the heap may then hand
  out its block again: a give to the block of a deleted semaphore goes to the semaphore that is
  there now. What else the heap makes of a free block is not part of the machine.
* `Call.next` is the next step of a call, one access to shared state at a time; `processStep` is
  the next step of the regulator task on the command it has received.
* `stamp` and `history` of a call record what has happened to it. No step reads them.
-/

namespace PanelFirmware.Regulator

/-- What a caller asks for: registers to write, to read, or both.
Source: `regulatorConnTSK.c` `command_t`. -/
structure Request where
  writeAddr : ℕ
  writeNum : ℕ
  readAddr : ℕ
  readNum : ℕ
  transacts : writeNum ≠ 0 ∨ readNum ≠ 0

/-- A command as the queue holds it; its `src`, `dst` and `result` are those of the call it names,
its `semaphore` is a block of the heap. Source: `regulatorConnTSK.c` `command_t`. -/
structure Command where
  call : ℕ
  request : Request
  expireTime : ℕ
  semaphore : ℕ

/-- How far a call of `reg_waitCommand` has come. -/
inductive Phase
  | entered
  | connectedRead
  | spacesRead
  | created
  | stamped
  | sent
  | waiting (since : ℕ)
  | woken (given : Bool)
  | deleted (given : Bool)
  | returned (result : Bool)
  deriving DecidableEq

/-- What the regulator task has done for a call: it has dequeued the command before the expiry,
its write has succeeded, its read has succeeded. -/
structure History where
  inTime : Bool
  writeOk : Bool
  readOk : Bool
  deriving DecidableEq

/-- A call of `reg_waitCommand`; `stamp` is the tick its expiry counts from. -/
structure Call where
  phase : Phase
  request : Request
  expireTime : ℕ
  semaphore : ℕ
  res : Option Bool
  stamp : ℕ
  history : History

/-- What the regulator task does with the command it has received: nothing, the expiry test, a try
of a transaction with the number of tries left, the store of the result, the give. -/
inductive RegPhase
  | idle
  | received (c : Command)
  | writing (c : Command) (tries : ℕ)
  | written (c : Command) (tries : ℕ)
  | reading (c : Command) (tries : ℕ)
  | storing (c : Command) (result : Bool)
  | giving (c : Command)

/-- The state of the system. `now` counts every tick; the kernel's counter is `now` modulo
`2 ^ 32`. `semaphores` are the blocks of the heap that are semaphores, and whether they are
given. -/
structure State where
  now : ℕ
  connected : Bool
  errorCount : ℕ
  queue : List Command
  reg : RegPhase
  semaphores : ℕ → Option Bool
  calls : ℕ → Option Call

/-- What can happen next: a tick; a task entering `reg_waitCommand`; a step of a call (`alloc`:
the block that the heap has for a semaphore, if it has one); another transaction of the regulator
loop; its update of `connected`; its receipt of a command; its next step on that command
(`answered`: whether the regulator gives a valid answer to a try). -/
inductive Event
  | tick
  | enter (id : ℕ) (request : Request)
  | issuer (id : ℕ) (alloc : Option ℕ)
  | exchange (answered : Bool)
  | publish
  | receive
  | process (answered : Bool)

/-- Source: `regulatorConnTSK.c` `reg_waitCommand`, `expire`. -/
def expire : ℕ := 150

/-- Source: `regulatorConnTSK.c` `regulatorConnTSK`, `xQueueCreate(8, ..)`. -/
def queueLength : ℕ := 8

/-- Source: `regulatorConnTSK.c` `regulatorConnTSK`, `errorThreshold`. -/
def errorThreshold : ℕ := 5

/-- The kernel's tick counter. Source: `xTaskGetTickCount`. -/
def State.tickCount (s : State) : ℕ := s.now % 2 ^ 32

/-- A call on entry. -/
def Call.new (request : Request) : Call :=
  ⟨.entered, request, 0, 0, none, 0, ⟨false, false, false⟩⟩

/-- The copy of a call's command that the queue takes. -/
def Call.command (c : Call) (id : ℕ) : Command :=
  ⟨id, c.request, c.expireTime, c.semaphore⟩

/-- The next step of a call; `none` while it is blocked. The heap hands out no block that is in use.
The value returned at the end is `cmd->result`, a pointer, converted to `bool`.
Source: `regulatorConnTSK.c` `reg_waitCommand`. -/
def Call.next (c : Call) (s : State) (alloc : Option ℕ) : Option Call :=
  match c.phase with
  | .entered => some { c with phase := if s.connected then .connectedRead else .returned false }
  | .connectedRead =>
      some { c with phase := if s.queue.length = queueLength then .returned false else .spacesRead }
  | .spacesRead =>
      match alloc with
      | none => some { c with phase := .returned false }
      | some block =>
          if s.semaphores block = none then some { c with semaphore := block, phase := .created }
          else none
  | .created =>
      some { c with
        expireTime := (s.tickCount + expire) % 2 ^ 32, stamp := s.now, phase := .stamped }
  | .stamped => some { c with phase := .sent }
  | .sent => some { c with phase := .waiting s.now }
  | .waiting since =>
      if s.semaphores c.semaphore = some true then some { c with phase := .woken true }
      else if since + (expire + 10) ≤ s.now then some { c with phase := .woken false }
      else none
  | .woken given => some { c with phase := .deleted given }
  | .deleted _ => some { c with phase := .returned true }
  | .returned _ => none

/-- The queue after a step of a call: `xQueueSend(commandQueue, cmd, 0)` appends the command if
there is room, and its result is not looked at.
Source: `regulatorConnTSK.c` `reg_waitCommand`. -/
def Call.send (c : Call) (id : ℕ) (queue : List Command) : List Command :=
  if c.phase = .stamped ∧ queue.length < queueLength then queue ++ [c.command id] else queue

/-- The semaphores after a step of a call, which creates its own, takes it and deletes it.
Source: `regulatorConnTSK.c` `reg_waitCommand`. -/
def Call.heap (c : Call) (alloc : Option ℕ) (semaphores : ℕ → Option Bool) : ℕ → Option Bool :=
  match c.phase with
  | .spacesRead =>
      match alloc with
      | none => semaphores
      | some block => Function.update semaphores block (some false)
  | .waiting _ =>
      Function.update semaphores c.semaphore ((semaphores c.semaphore).map fun _ => false)
  | .woken _ => Function.update semaphores c.semaphore none
  | _ => semaphores

/-- A step of a call. -/
def issuerStep (s : State) (id : ℕ) (alloc : Option ℕ) : Option State :=
  match s.calls id with
  | none => none
  | some c => (c.next s alloc).map fun c' =>
      { s with
        queue := c.send id s.queue
        semaphores := c.heap alloc s.semaphores
        calls := Function.update s.calls id (some c') }

/-- The state with one call changed. -/
def State.update (s : State) (id : ℕ) (f : Call → Call) : State :=
  { s with calls := Function.update s.calls id ((s.calls id).map f) }

/-- The semaphores after a give: that of the block is given, if one is there. -/
def give (semaphores : ℕ → Option Bool) (block : ℕ) : ℕ → Option Bool :=
  Function.update semaphores block ((semaphores block).map fun _ => true)

/-- Source: `regulatorConnTSK.c` `regulatorConnTSK`, `if(command.readNum)`. -/
def readPart (c : Command) (result : Bool) : RegPhase :=
  if c.request.readNum ≠ 0 then .reading c 3 else .storing c result

/-- Source: `regulatorConnTSK.c` `regulatorConnTSK`, `if(command.writeNum)`. -/
def writePart (c : Command) : RegPhase :=
  if c.request.writeNum ≠ 0 then .writing c 3 else readPart c false

/-- The next step of the regulator task on its command. A write reads `command.src` and sends
(`writing`), then has an answer or not (`written`); a read stores at `command.dst` when it has an
answer (`reading`).
Source: `regulatorConnTSK.c` `regulatorConnTSK`, the command processing; `writeReg`, `writeRegs`,
`readRegs`. -/
def processStep (s : State) (answered : Bool) : Option State :=
  match s.reg with
  | .idle => none
  | .received c =>
      if c.expireTime > s.tickCount then
        some { s.update c.call fun k =>
            { k with history.inTime := decide (s.now < k.stamp + expire) } with
          reg := writePart c }
      else some { s with reg := .idle }
  | .writing _ 0 => none
  | .writing c (tries + 1) => some { s with reg := .written c (tries + 1) }
  | .written _ 0 => none
  | .written c (tries + 1) =>
      if answered then
        some { s.update c.call fun k => { k with history.writeOk := true } with
          reg := readPart c true }
      else some { s with reg := if tries = 0 then readPart c false else .writing c tries }
  | .reading _ 0 => none
  | .reading c (tries + 1) =>
      if answered then
        some { s.update c.call fun k => { k with history.readOk := true } with
          reg := .storing c true }
      else some { s with reg := if tries = 0 then .storing c false else .reading c tries }
  | .storing c result =>
      some { s.update c.call fun k => { k with res := some result } with reg := .giving c }
  | .giving c => some { s with semaphores := give s.semaphores c.semaphore, reg := .idle }

/-- A step of the system. The other transactions of the regulator loop, its update of `connected`
and its receipt happen between two commands.
Source: `regulatorConnTSK.c`. -/
def step (s : State) : Event → Option State
  | .tick => some { s with now := s.now + 1 }
  | .enter id request =>
      if s.calls id = none then
        some { s with calls := Function.update s.calls id (some (Call.new request)) }
      else none
  | .issuer id alloc => issuerStep s id alloc
  | .exchange answered =>
      match s.reg with
      | .idle => some { s with
          errorCount := if answered then 0
            else if s.errorCount < errorThreshold then s.errorCount + 1 else s.errorCount }
      | _ => none
  | .publish =>
      match s.reg with
      | .idle => some { s with connected := decide (s.errorCount < errorThreshold) }
      | _ => none
  | .receive =>
      match s.reg, s.queue with
      | .idle, c :: rest => some { s with queue := rest, reg := .received c }
      | _, _ => none
  | .process answered => processStep s answered

/-- The start: no calls, an empty queue, `connected` set, no semaphore of a call.
Source: `regulatorConnTSK.c`, the static variables. -/
def init : State := ⟨0, true, 0, [], .idle, fun _ => none, fun _ => none⟩

/-! ### What a step changes -/

/-- The issuer's steps change neither the request nor the history of a call. -/
lemma Call.next_history {c c' : Call} {s : State} {alloc : Option ℕ}
    (h : c.next s alloc = some c') : c'.request = c.request ∧ c'.history = c.history := by
  unfold Call.next at h
  cases hphase : c.phase <;> simp only [hphase] at h
  case spacesRead =>
    cases alloc with
    | none => cases h; exact ⟨rfl, rfl⟩
    | some block =>
        simp only at h
        split_ifs at h
        cases h
        exact ⟨rfl, rfl⟩
  case waiting since =>
    split_ifs at h <;> cases h <;> exact ⟨rfl, rfl⟩
  all_goals cases h <;> exact ⟨rfl, rfl⟩

/-- What a step of a call changes: the call, the queue and the semaphores. -/
lemma issuerStep_eq {s t : State} {id : ℕ} {alloc : Option ℕ}
    (h : issuerStep s id alloc = some t) :
    ∃ c c', s.calls id = some c ∧ c.next s alloc = some c' ∧
      t = { s with
        queue := c.send id s.queue
        semaphores := c.heap alloc s.semaphores
        calls := Function.update s.calls id (some c') } := by
  unfold issuerStep at h
  cases hc : s.calls id with
  | none =>
      rw [hc] at h
      cases h
  | some c =>
      rw [hc] at h
      obtain ⟨c', hnext, rfl⟩ := Option.map_eq_some_iff.mp h
      exact ⟨c, c', rfl, hnext, rfl⟩

/-- What a step of the regulator task on its command does, one case for each way the step goes. -/
inductive Processed (s : State) (answered : Bool) : State → Prop
  | begins {c : Command} (hreg : s.reg = .received c) (htest : c.expireTime > s.tickCount) :
      Processed s answered { s.update c.call fun k =>
        { k with history.inTime := decide (s.now < k.stamp + expire) } with reg := writePart c }
  | expires {c : Command} (hreg : s.reg = .received c) (htest : ¬ c.expireTime > s.tickCount) :
      Processed s answered { s with reg := .idle }
  | sends {c : Command} {tries : ℕ} (hreg : s.reg = .writing c (tries + 1)) :
      Processed s answered { s with reg := .written c (tries + 1) }
  | writes {c : Command} {tries : ℕ} (hreg : s.reg = .written c (tries + 1))
      (hanswered : answered = true) :
      Processed s answered { s.update c.call fun k =>
        { k with history.writeOk := true } with reg := readPart c true }
  | failsWrite {c : Command} (hreg : s.reg = .written c 1) (hanswered : answered ≠ true) :
      Processed s answered { s with reg := readPart c false }
  | repeatsWrite {c : Command} {tries : ℕ} (hreg : s.reg = .written c (tries + 1))
      (hanswered : answered ≠ true) : Processed s answered { s with reg := .writing c tries }
  | reads {c : Command} {tries : ℕ} (hreg : s.reg = .reading c (tries + 1))
      (hanswered : answered = true) :
      Processed s answered { s.update c.call fun k =>
        { k with history.readOk := true } with reg := .storing c true }
  | failsRead {c : Command} (hreg : s.reg = .reading c 1) (hanswered : answered ≠ true) :
      Processed s answered { s with reg := .storing c false }
  | repeatsRead {c : Command} {tries : ℕ} (hreg : s.reg = .reading c (tries + 1))
      (hanswered : answered ≠ true) : Processed s answered { s with reg := .reading c tries }
  | stores {c : Command} {result : Bool} (hreg : s.reg = .storing c result) :
      Processed s answered { s.update c.call fun k =>
        { k with res := some result } with reg := .giving c }
  | gives {c : Command} (hreg : s.reg = .giving c) :
      Processed s answered { s with semaphores := give s.semaphores c.semaphore, reg := .idle }

/-- A step of the regulator task goes one of these ways. -/
lemma processed_of_processStep {s t : State} {answered : Bool}
    (h : processStep s answered = some t) : Processed s answered t := by
  unfold processStep at h
  cases hreg : s.reg with
  | idle =>
      rw [hreg] at h
      cases h
  | received c =>
      simp only [hreg] at h
      split_ifs at h with htest
      · exact Option.some.inj h ▸ .begins hreg htest
      · exact Option.some.inj h ▸ .expires hreg htest
  | writing c tries =>
      rw [hreg] at h
      cases tries with
      | zero => cases h
      | succ tries => exact Option.some.inj h ▸ .sends hreg
  | written c tries =>
      rw [hreg] at h
      cases tries with
      | zero => cases h
      | succ tries =>
          simp only at h
          split_ifs at h with hanswered hlast
          · exact Option.some.inj h ▸ .writes hreg hanswered
          · subst hlast
            exact Option.some.inj h ▸ .failsWrite hreg hanswered
          · exact Option.some.inj h ▸ .repeatsWrite hreg hanswered
  | reading c tries =>
      rw [hreg] at h
      cases tries with
      | zero => cases h
      | succ tries =>
          simp only at h
          split_ifs at h with hanswered hlast
          · exact Option.some.inj h ▸ .reads hreg hanswered
          · subst hlast
            exact Option.some.inj h ▸ .failsRead hreg hanswered
          · exact Option.some.inj h ▸ .repeatsRead hreg hanswered
  | storing c result =>
      rw [hreg] at h
      exact Option.some.inj h ▸ .stores hreg
  | giving c =>
      rw [hreg] at h
      exact Option.some.inj h ▸ .gives hreg

/-- A give changes one block at most. -/
lemma give_of_ne {semaphores : ℕ → Option Bool} {block other : ℕ} (h : other ≠ block) :
    give semaphores block other = semaphores other :=
  Function.update_of_ne h _ _

/-- A give neither creates a semaphore nor deletes one. -/
lemma give_eq_none_iff {semaphores : ℕ → Option Bool} {block other : ℕ} :
    give semaphores block other = none ↔ semaphores other = none := by
  by_cases hb : other = block
  · rw [hb, give, Function.update_self, Option.map_eq_none_iff]
  · rw [give_of_ne hb]

/-- The command the regulator task works on. -/
def RegPhase.command : RegPhase → Option Command
  | .idle => none
  | .received c | .writing c _ | .written c _ | .reading c _ | .storing c _ | .giving c => some c

/-- The commands that are on their way. -/
def State.commands (s : State) : List Command := s.queue ++ s.reg.command.toList

/-- The call of the command that the regulator task executes; a command it has received and not
tested yet is not executed. -/
def RegPhase.executes : RegPhase → Option ℕ
  | .idle | .received _ => none
  | .writing c _ | .written c _ | .reading c _ | .storing c _ | .giving c => some c.call

/-- The regulator task works on a command and executes it. -/
def RegPhase.Executing (r : RegPhase) (cmd : Command) : Prop :=
  r.command = some cmd ∧ r.executes = some cmd.call

/-- The read part executes its command. -/
lemma readPart_executing (cmd : Command) (result : Bool) :
    (readPart cmd result).Executing cmd := by
  unfold readPart
  split_ifs
  · exact ⟨rfl, rfl⟩
  · exact ⟨rfl, rfl⟩

/-- The write part executes its command. -/
lemma writePart_executing (cmd : Command) : (writePart cmd).Executing cmd := by
  unfold writePart
  split_ifs
  · exact ⟨rfl, rfl⟩
  · exact readPart_executing cmd false

/-- A change of a call that leaves all but `res` and the history. -/
def Call.Kept (f : Call → Call) : Prop :=
  ∀ c, (f c).phase = c.phase ∧ (f c).request = c.request ∧ (f c).stamp = c.stamp ∧
    (f c).expireTime = c.expireTime ∧ (f c).semaphore = c.semaphore

/-- The change that changes nothing. -/
lemma State.update_id (s : State) (id : ℕ) : s.update id (fun c => c) = s := by
  rw [State.update, Option.map_id', Function.update_eq_self]

/-- A call after a change of one is that one changed, or another as it was. -/
lemma State.entry_of_update {s : State} {id i : ℕ} {f : Call → Call} {k : Call}
    (h : (s.update id f).calls i = some k) :
    ∃ c, s.calls i = some c ∧ (k = c ∨ i = id ∧ k = f c) := by
  rcases Lib.Machine.entry_of_update h with ⟨hi, hk⟩ | ⟨-, hk⟩
  · obtain ⟨c, hc, rfl⟩ := Option.map_eq_some_iff.mp hk
    exact ⟨c, hi ▸ hc, Or.inr ⟨hi, rfl⟩⟩
  · exact ⟨k, hk, Or.inl rfl⟩

/-- The phases of the regulator task after a step on a command: it is done, it goes on with the
execution, or it begins it. -/
def RegPhase.Next (s : State) (cmd : Command) (reg : RegPhase) : Prop :=
  reg = .idle ∨ reg.Executing cmd ∧
    (s.reg.Executing cmd ∨ s.reg = .received cmd ∧ cmd.expireTime > s.tickCount)

/-- What a step of the regulator task on its command leaves: it goes on, with a change of the
command's call that leaves all but `res` and the history, or it gives the command's semaphore. -/
lemma processStep_cases {s t : State} {answered : Bool} (h : processStep s answered = some t) :
    ∃ cmd, s.reg.command = some cmd ∧
      ((∃ f reg, t = { s.update cmd.call f with reg := reg } ∧ Call.Kept f ∧ reg.Next s cmd) ∨
        s.reg = .giving cmd ∧
          t = { s with semaphores := give s.semaphores cmd.semaphore, reg := .idle }) := by
  have hsame : ∀ (cmd : Command) (reg : RegPhase),
      ({ s with reg := reg } : State) = { s.update cmd.call (fun c => c) with reg := reg } :=
    fun cmd reg => by rw [s.update_id]
  have hkept : Call.Kept fun c => c := fun _ => ⟨rfl, rfl, rfl, rfl, rfl⟩
  have hgo : ∀ {cmd : Command} {reg : RegPhase}, s.reg.Executing cmd → reg.Executing cmd →
      reg.Next s cmd := fun hs hreg => Or.inr ⟨hreg, Or.inl hs⟩
  cases processed_of_processStep h with
  | @begins cmd hreg htest =>
      exact ⟨cmd, hreg ▸ rfl, Or.inl ⟨_, _, rfl, fun _ => ⟨rfl, rfl, rfl, rfl, rfl⟩,
        Or.inr ⟨writePart_executing cmd, Or.inr ⟨hreg, htest⟩⟩⟩⟩
  | @expires cmd hreg _ =>
      exact ⟨cmd, hreg ▸ rfl, Or.inl ⟨_, _, hsame cmd _, hkept, Or.inl rfl⟩⟩
  | @sends cmd tries hreg =>
      have hexec : s.reg.Executing cmd := hreg ▸ ⟨rfl, rfl⟩
      exact ⟨cmd, hexec.1, Or.inl ⟨_, _, hsame cmd _, hkept, hgo hexec ⟨rfl, rfl⟩⟩⟩
  | @writes cmd tries hreg _ =>
      have hexec : s.reg.Executing cmd := hreg ▸ ⟨rfl, rfl⟩
      exact ⟨cmd, hexec.1, Or.inl ⟨_, _, rfl, fun _ => ⟨rfl, rfl, rfl, rfl, rfl⟩,
        hgo hexec (readPart_executing cmd true)⟩⟩
  | @failsWrite cmd hreg _ =>
      have hexec : s.reg.Executing cmd := hreg ▸ ⟨rfl, rfl⟩
      exact ⟨cmd, hexec.1, Or.inl ⟨_, _, hsame cmd _, hkept,
        hgo hexec (readPart_executing cmd false)⟩⟩
  | @repeatsWrite cmd tries hreg _ | @failsRead cmd hreg _ | @repeatsRead cmd tries hreg _ =>
      have hexec : s.reg.Executing cmd := hreg ▸ ⟨rfl, rfl⟩
      exact ⟨cmd, hexec.1, Or.inl ⟨_, _, hsame cmd _, hkept, hgo hexec ⟨rfl, rfl⟩⟩⟩
  | @reads cmd tries hreg _ | @stores cmd result hreg =>
      have hexec : s.reg.Executing cmd := hreg ▸ ⟨rfl, rfl⟩
      exact ⟨cmd, hexec.1, Or.inl ⟨_, _, rfl, fun _ => ⟨rfl, rfl, rfl, rfl, rfl⟩,
        hgo hexec ⟨rfl, rfl⟩⟩⟩
  | @gives cmd hreg => exact ⟨cmd, hreg ▸ rfl, Or.inr ⟨hreg, rfl⟩⟩

end PanelFirmware.Regulator
