import PanelFirmware.Hal.Uart
import PanelFirmware.Lib.Machine

/-!
# `libmodbusport/rtuport.c`: receptions and the calls they belong to

`modbus_serial_recv` starts a reception unless the driver says that one is running, waits for the
semaphore that the hook of the idle line interrupt gives, and returns what the stream's counter
says. A call that times out leaves the reception running, with its buffer.

The machine interleaves the calls with the bytes and the idle lines of the regulator's responses;
the buffers may lie anywhere in memory.

* `Owned`: a call that returns more than 0 has a response of its time in its buffer, and the stream
  has written to no other.
* `owned_of_onTime`: over all runs whose steps meet `OnTime`.
-/

namespace PanelFirmware.Libmodbus.Serial

open PanelFirmware.Lib PanelFirmware.Hal

/-- The arguments of a call, the timeout in microseconds.
Source: `rtuport.c` `modbus_serial_recv`. -/
structure Call where
  rsp : ℕ
  rspLength : ℤ
  responseTimeout : ℕ

/-- How far the current call has come: entered, with the stream enabled by `uart_read`, after the
`if`, in the wait for the semaphore, after it, and returned. -/
inductive Phase
  | entered
  | enabled
  | armed
  | waiting (since : ℕ)
  | woken (given : Bool)
  | returned (result : ℤ)
  deriving DecidableEq

/-- The state of the port. Recorded beside it are the number of the current call and that of the
call that started the reception, the bytes on the line since it was last idle and whether the
first of them came before the current call, the responses that have come during the call, the
addresses that the stream has written during the call, and whether it has ever written for a call
that has returned. -/
structure State where
  now : ℕ
  uart : UartRx
  uartRxSem : Bool
  memory : ℕ → Byte
  call : Call
  phase : Phase
  number : ℕ
  starter : ℕ
  frame : List Byte
  early : Bool
  responses : List (List Byte)
  written : List ℕ
  stray : Bool

/-- What can happen next: a tick; a call; the next step of the call; a byte on the line; the line
falling idle. -/
inductive Event
  | tick
  | enter (call : Call)
  | task
  | byte (b : Byte)
  | idle

/-- The call has returned. -/
def Phase.isReturned : Phase → Bool
  | .returned _ => true
  | .entered | .enabled | .armed | .waiting _ | .woken _ => false

/-- The size the counter is taken from. Source: `uart.h` `UART1_RxBffSz`. -/
def uart1RxBffSz : ℕ := 256

/-- What a call returns, by whether it was given the semaphore.
Source: `rtuport.c` `modbus_serial_recv`. -/
def recvResult (uart : UartRx) (given : Bool) : ℤ :=
  if given then
    let received : ℤ := uart1RxBffSz - uart.ndtr
    if received = 0 then -1 else received
  else -2

/-- The next step of a call; `none` while it is blocked or there is none.
Source: `rtuport.c` `modbus_serial_recv`. -/
def taskStep (s : State) : Option State :=
  match s.phase with
  | .entered =>
      if s.uart.rxState ≠ .run then
        some { s with
          uart := uartRead s.uart s.call.rsp s.call.rspLength
          starter := s.number
          phase := .enabled }
      else some { s with phase := .armed }
  | .enabled => some { s with uart := uartReadRun s.uart, phase := .armed }
  | .armed => some { s with phase := .waiting s.now }
  | .waiting since =>
      if s.uartRxSem then some { s with uartRxSem := false, phase := .woken true }
      else if since + s.call.responseTimeout / 1000 ≤ s.now then
        some { s with phase := .woken false }
      else none
  | .woken given => some { s with phase := .returned (recvResult s.uart given) }
  | .returned _ => none

/-- A byte on the line. Whether the stream takes it does not depend on the call. -/
def receive (s : State) (b : Byte) : State :=
  let s := { s with frame := s.frame ++ [b] }
  if s.uart.Takes then
    { s with
      uart := s.uart.advance
      memory := Function.update s.memory s.uart.address b
      written := s.written ++ [s.uart.address]
      stray := s.stray || s.phase.isReturned || decide (s.starter ≠ s.number) }
  else s

/-- The line falling idle. The hook gives the semaphore, since the handler has set the state it
tests. Source: `uart.c` `USART_IRQHandler`; `rtuport.c` `uartRxHandler`. -/
def idleLine (s : State) : State :=
  { s with
    uart := usartIdle s.uart
    uartRxSem := true
    frame := []
    early := false
    responses :=
      if s.phase.isReturned ∨ s.early = true then s.responses else s.responses ++ [s.frame] }

/-- A step of the port; the line falls idle after a byte.
Source: `rtuport.c` `modbus_serial_recv`; `uart.c` `USART_IRQHandler`. -/
def step (s : State) : Event → Option State
  | .tick => some { s with now := s.now + 1 }
  | .enter call =>
      if s.phase.isReturned then
        some { s with
          call
          phase := .entered
          number := s.number + 1
          early := decide (s.frame ≠ [])
          responses := []
          written := [] }
      else none
  | .task => taskStep s
  | .byte b => some (receive s b)
  | .idle => if s.frame = [] then none else some (idleLine s)

/-- The start: no reception, the semaphore taken. Source: `rtuport.c` `modbus_serial_connect`. -/
def init : State where
  now := 0
  uart := ⟨.free, false, 0, 0, 0⟩
  uartRxSem := false
  memory := fun _ => 0
  call := ⟨0, 0, 0⟩
  phase := .returned 0
  number := 0
  starter := 0
  frame := []
  early := false
  responses := []
  written := []
  stray := false

/-! ### Receptions -/

/-- A response that has come during the current call is in its buffer, and the stream has written
nothing else during the call. -/
def State.Received (s : State) (n : ℤ) : Prop :=
  ∃ r ∈ s.responses, (r.length : ℤ) = n ∧ bytesAt s.memory s.call.rsp r.length = r ∧
    s.written = (List.range r.length).map (s.call.rsp + ·)

/-- A call that has returned more than 0 has received a response of that length, and the stream has
never written for a call that has returned. -/
def Owned (s : State) : Prop :=
  s.stray = false ∧ ∀ n, 0 < n → s.phase = .returned n → s.Received n

/-- The call has come to its reception and not through the wait. -/
def Phase.receiving : Phase → Bool
  | .enabled | .armed | .waiting _ => true
  | .entered | .woken _ | .returned _ => false

/-- A response is awaited: by a call in its reception, which this call has started and which no
idle line has ended. -/
def State.Awaited (s : State) : Prop :=
  s.phase.receiving = true ∧ s.starter = s.number ∧ s.uartRxSem = false

/-- The condition on an event: a reception is started with the size the counter is taken from;
bytes come while a response is awaited and fit into it; the line falls idle while a response is
awaited and `rxState` has been set. -/
def OnTime (s : State) : Event → Prop
  | .task => s.phase = .entered → s.uart.rxState ≠ .run → s.call.rspLength % 2 ^ 16 = uart1RxBffSz
  | .byte _ => s.Awaited ∧ s.uart.ndtr ≠ 0
  | .idle => s.Awaited ∧ s.phase ≠ .enabled
  | .tick | .enter _ => True

instance (s : State) : (e : Event) → Decidable (OnTime s e)
  | .task => inferInstanceAs (Decidable (_ → _))
  | .byte _ | .idle => inferInstanceAs (Decidable ((_ ∧ _ ∧ _) ∧ _))
  | .tick | .enter _ => inferInstanceAs (Decidable True)

/-! ### The invariant -/

/-- While a response is awaited the stream is at work in the buffer of the call, which holds what
has come since the line was last idle. -/
structure Collecting (s : State) : Prop where
  rxState : s.phase ≠ .enabled → s.uart.rxState = .run
  en : s.uart.en = true
  m0ar : s.uart.m0ar = s.call.rsp
  count : s.uart.index + s.uart.ndtr = uart1RxBffSz
  early : s.early = false
  memory : bytesAt s.memory s.uart.m0ar s.uart.index = s.frame
  written : s.written = (List.range s.uart.index).map (s.call.rsp + ·)

/-- What the counter stands for once the response has come. -/
def State.Counted (s : State) : Prop := s.Received (uart1RxBffSz - s.uart.ndtr)

/-- The invariant of the port. A reception that is not running has no bytes behind it; the
semaphore is given to the call whose response has come. -/
structure Inv (s : State) : Prop where
  stray : s.stray = false
  number : s.starter ≤ s.number
  entered : s.phase = .entered → s.starter < s.number ∧ s.written = []
  early : s.early = true → s.frame ≠ []
  quiet : s.uart.rxState ≠ .run → s.phase ≠ .enabled → s.frame = []
  awaited : s.Awaited → Collecting s
  given : s.uartRxSem = true → s.phase.receiving = true ∧ s.phase ≠ .enabled ∧ s.Counted
  woken : s.phase = .woken true → s.Counted
  returned : ∀ n, 0 < n → s.phase = .returned n → s.Received n

/-- The semaphore is not given to a call that is not in its reception. -/
lemma Inv.sem_eq_false {s : State} (h : Inv s) (hphase : s.phase.receiving = false) :
    s.uartRxSem = false := by
  cases hsem : s.uartRxSem with
  | false => rfl
  | true =>
      have hreceiving := (h.given hsem).1
      rw [hphase] at hreceiving
      cases hreceiving

/-- A call that waits for its response has not just been entered, is not woken, and has not
returned. -/
lemma Phase.ne_of_receiving {p : Phase} (h : p.receiving = true) :
    p ≠ .entered ∧ (∀ given, p ≠ .woken given) ∧ ∀ n, p ≠ .returned n := by
  cases p with
  | enabled | armed | waiting =>
      exact ⟨fun h => (by cases h), fun _ h => (by cases h), fun _ h => (by cases h)⟩
  | entered | woken | returned => cases h

lemma Phase.isReturned_of_receiving {p : Phase} (h : p.receiving = true) :
    p.isReturned = false := by
  cases p with
  | enabled | armed | waiting => rfl
  | entered | woken | returned => cases h

/-- A buffer holds as many bytes as are looked at. -/
lemma length_bytesAt (memory : ℕ → Byte) (address n : ℕ) :
    (bytesAt memory address n).length = n := by
  rw [bytesAt, List.length_map, List.length_range]

/-- What has been collected is as long as the count. -/
lemma Collecting.length_frame {s : State} (h : Collecting s) : s.frame.length = s.uart.index := by
  rw [← h.memory, length_bytesAt]

/-- A call that returns more than 0 was given the semaphore and has counted. -/
lemma recvResult_pos {uart : UartRx} {given : Bool} (h : 0 < recvResult uart given) :
    given = true ∧ recvResult uart given = uart1RxBffSz - uart.ndtr := by
  cases given with
  | false => cases h
  | true =>
      have hresult : recvResult uart true =
          if (uart1RxBffSz : ℤ) - uart.ndtr = 0 then -1 else (uart1RxBffSz : ℤ) - uart.ndtr := rfl
      by_cases hzero : (uart1RxBffSz : ℤ) - uart.ndtr = 0
      · rw [hresult, if_pos hzero] at h
        cases h
      · exact ⟨rfl, hresult.trans (if_neg hzero)⟩

/-! ### Steps -/

/-- A call begins with nothing written for it. -/
lemma Inv.enter {s : State} (h : Inv s) (hreturned : s.phase.isReturned = true) (call : Call) :
    Inv { s with
      call
      phase := .entered
      number := s.number + 1
      early := decide (s.frame ≠ [])
      responses := []
      written := [] } := by
  have hphase : s.phase ≠ .enabled ∧ s.phase.receiving = false := by
    cases hp : s.phase with
    | returned n => exact ⟨fun h => (by cases h), rfl⟩
    | entered | enabled | armed | waiting | woken =>
        rw [hp] at hreturned
        cases hreturned
  have hnumber := h.number
  constructor
  case stray => exact h.stray
  case number => exact Nat.le_succ_of_le h.number
  case entered => exact fun _ => ⟨Nat.lt_succ_of_le h.number, rfl⟩
  case early => exact of_decide_eq_true
  case quiet => exact fun hstate _ => h.quiet hstate hphase.1
  case awaited => exact fun ha => (by cases ha.1)
  case given =>
      intro hsem
      have hempty := h.sem_eq_false hphase.2
      exact absurd (hempty.symm.trans hsem) Bool.false_ne_true
  case woken => exact fun hp => (by cases hp)
  case returned => exact fun n _ hp => (by cases hp)

/-- A byte that comes on time is put behind those that have come before it. -/
lemma Inv.byte {s : State} (h : Inv s) (hawaited : s.Awaited) (hroom : s.uart.ndtr ≠ 0) (b : Byte) :
    Inv (receive s b) := by
  obtain ⟨hreceiving, hown, hempty⟩ := hawaited
  have hc := h.awaited ⟨hreceiving, hown, hempty⟩
  have hcount := hc.count
  have hnot := Phase.isReturned_of_receiving hreceiving
  obtain ⟨hentered, hwoken, hreturned⟩ := Phase.ne_of_receiving hreceiving
  have hreceive : receive s b = { s with
      frame := s.frame ++ [b]
      uart := s.uart.advance
      memory := Function.update s.memory s.uart.address b
      written := s.written ++ [s.uart.address]
      stray := s.stray || s.phase.isReturned || decide (s.starter ≠ s.number) } :=
    if_pos ⟨hc.en, hroom⟩
  rw [hreceive]
  constructor
  case stray =>
      simp only [h.stray, hnot, Bool.false_or, decide_eq_false_iff_not]
      exact fun hne => hne hown
  case number => exact h.number
  case entered => exact fun hp => absurd hp hentered
  case early => exact fun _ => List.append_ne_nil_of_right_ne_nil _ (List.cons_ne_nil b [])
  case quiet => exact fun hstate hp => absurd (hc.rxState hp) hstate
  case awaited =>
      refine fun _ => ⟨hc.rxState, hc.en, hc.m0ar, ?_, hc.early, ?_, ?_⟩
      · simp only [UartRx.advance]
        omega
      · exact UartRx.store_bytes hc.memory b
      · simp only [UartRx.advance, UartRx.address, hc.written, hc.m0ar, List.range_succ,
          List.map_append, List.map_cons, List.map_nil]
  case given =>
      intro hsem
      have hsem : s.uartRxSem = true := hsem
      rw [hempty] at hsem
      cases hsem
  case woken => exact fun hp => absurd hp (hwoken true)
  case returned => exact fun n _ hp => absurd hp (hreturned n)

/-- The idle line that ends an awaited response gives the semaphore for it. -/
lemma Inv.idle {s : State} (h : Inv s) (hawaited : s.Awaited) (hphase : s.phase ≠ .enabled) :
    Inv (idleLine s) := by
  obtain ⟨hreceiving, hown, hempty⟩ := hawaited
  have hc := h.awaited ⟨hreceiving, hown, hempty⟩
  have hcount := hc.count
  have hresponses : ¬(s.phase.isReturned = true ∨ s.early = true) := by
    rintro (hdone | hearly)
    · rw [Phase.isReturned_of_receiving hreceiving] at hdone
      cases hdone
    · rw [hc.early] at hearly
      cases hearly
  obtain ⟨hentered, hwoken, hreturned⟩ := Phase.ne_of_receiving hreceiving
  constructor
  case stray => exact h.stray
  case number => exact h.number
  case entered => exact fun hp => absurd hp hentered
  case early => exact fun hearly => (by cases hearly)
  case quiet => exact fun _ _ => rfl
  case awaited => exact fun ha => (by cases ha.2.2)
  case given =>
      refine fun _ => ⟨hreceiving, hphase, s.frame, ?_, ?_, ?_, ?_⟩
      · simp only [idleLine, if_neg hresponses]
        exact List.mem_append_right _ List.mem_cons_self
      · simp only [idleLine, usartIdle, hc.length_frame]
        omega
      · simp only [idleLine]
        rw [hc.length_frame, ← hc.m0ar]
        exact hc.memory
      · simp only [idleLine, hc.length_frame, hc.written]
  case woken => exact fun hp => absurd hp (hwoken true)
  case returned => exact fun n _ hp => absurd hp (hreturned n)

/-- The start of a reception for the call. -/
lemma Inv.uartRead {s : State} (h : Inv s) (hphase : s.phase = .entered)
    (hstate : s.uart.rxState ≠ .run) (hlength : s.call.rspLength % 2 ^ 16 = uart1RxBffSz) :
    Inv { s with
      uart := Hal.uartRead s.uart s.call.rsp s.call.rspLength
      starter := s.number
      phase := .enabled } := by
  have hframe : s.frame = [] := h.quiet hstate (by rw [hphase]; exact fun h => (by cases h))
  have hempty : s.uartRxSem = false := h.sem_eq_false (by rw [hphase]; rfl)
  constructor
  case stray => exact h.stray
  case number => exact le_refl _
  case entered => exact fun hp => (by cases hp)
  case early => exact h.early
  case quiet => exact fun _ hp => absurd rfl hp
  case awaited =>
      refine fun _ => ⟨fun hp => absurd rfl hp, rfl, rfl, ?_, ?_, hframe.symm, ?_⟩
      · simp only [Hal.uartRead, hlength]
        rfl
      · cases hearly : s.early with
        | false => rfl
        | true => exact absurd hframe (h.early hearly)
      · exact (h.entered hphase).2
  case given =>
      intro hsem
      exact absurd (hempty.symm.trans hsem) Bool.false_ne_true
  case woken => exact fun hp => (by cases hp)
  case returned => exact fun n _ hp => (by cases hp)

/-- The end of the wait, with the semaphore or without it. -/
lemma Inv.wake {s : State} (h : Inv s) (hstarted : s.phase ≠ .enabled) {given sem : Bool}
    (hgiven : given = s.uartRxSem) (hsem : sem = false) :
    Inv { s with uartRxSem := sem, phase := .woken given } := by
  constructor
  case stray => exact h.stray
  case number => exact h.number
  case entered => exact fun hp => (by cases hp)
  case early => exact h.early
  case quiet => exact fun hstate _ => h.quiet hstate hstarted
  case awaited => exact fun ha => (by cases ha.1)
  case given => exact fun hgiven => absurd (hsem.symm.trans hgiven) Bool.false_ne_true
  case woken =>
      intro hp
      obtain rfl : given = true := Phase.woken.inj hp
      exact (h.given hgiven.symm).2.2
  case returned => exact fun n _ hp => (by cases hp)

/-- A step of a call keeps the invariant. -/
lemma Inv.task {s t : State} (h : Inv s) (hok : OnTime s .task) (ht : taskStep s = some t) :
    Inv t := by
  unfold taskStep at ht
  split at ht
  · -- entered
    next hphase =>
      split_ifs at ht with hstate
      · obtain rfl := Option.some.inj ht
        exact h.uartRead hphase hstate (hok hphase hstate)
      · obtain rfl := Option.some.inj ht
        have hstarter := (h.entered hphase).1
        exact {
          stray := h.stray
          number := h.number
          entered := fun hp => (by cases hp)
          early := h.early
          quiet := fun hstate' _ => absurd hstate' hstate
          awaited := fun ha => absurd ha.2.1 (Nat.ne_of_lt hstarter)
          given := fun hsem =>
            have hempty := h.sem_eq_false (by rw [hphase]; rfl)
            absurd (hempty.symm.trans hsem) Bool.false_ne_true
          woken := fun hp => (by cases hp)
          returned := fun n _ hp => (by cases hp) }
  · -- enabled
    next hphase =>
      obtain rfl := Option.some.inj ht
      exact {
        stray := h.stray
        number := h.number
        entered := fun hp => (by cases hp)
        early := h.early
        quiet := fun hstate _ => absurd rfl hstate
        awaited := fun ha =>
          have hc := h.awaited ⟨by rw [hphase]; rfl, ha.2⟩
          ⟨fun _ => rfl, hc.en, hc.m0ar, hc.count, hc.early, hc.memory, hc.written⟩
        given := fun hsem => absurd hphase (h.given hsem).2.1
        woken := fun hp => (by cases hp)
        returned := fun n _ hp => (by cases hp) }
  · -- armed
    next hphase =>
      obtain rfl := Option.some.inj ht
      have hstarted : s.phase ≠ .enabled := by rw [hphase]; exact fun h => (by cases h)
      exact {
        stray := h.stray
        number := h.number
        entered := fun hp => (by cases hp)
        early := h.early
        quiet := fun hstate _ => h.quiet hstate hstarted
        awaited := fun ha =>
          have hc := h.awaited ⟨by rw [hphase]; rfl, ha.2⟩
          ⟨fun _ => hc.rxState hstarted, hc.en, hc.m0ar, hc.count, hc.early, hc.memory, hc.written⟩
        given := fun hsem => ⟨rfl, fun hp => (by cases hp), (h.given hsem).2.2⟩
        woken := fun hp => (by cases hp)
        returned := fun n _ hp => (by cases hp) }
  · -- waiting
    next since hphase =>
      have hstarted : s.phase ≠ .enabled := by rw [hphase]; exact fun h => (by cases h)
      split_ifs at ht with hsem hexpired
      · obtain rfl := Option.some.inj ht
        exact h.wake hstarted hsem.symm rfl
      · obtain rfl := Option.some.inj ht
        have hempty : s.uartRxSem = false := Bool.eq_false_iff.mpr hsem
        exact h.wake hstarted hempty.symm hempty
  · -- woken
    next given hphase =>
      obtain rfl := Option.some.inj ht
      exact {
        stray := h.stray
        number := h.number
        entered := fun hp => (by cases hp)
        early := h.early
        quiet := fun hstate _ =>
          h.quiet hstate (by rw [hphase]; exact fun h => (by cases h))
        awaited := fun ha => (by cases ha.1)
        given := fun hsem =>
          have hempty := h.sem_eq_false (by rw [hphase]; rfl)
          absurd (hempty.symm.trans hsem) Bool.false_ne_true
        woken := fun hp => (by cases hp)
        returned := fun n hn hp => by
          obtain rfl := Phase.returned.inj hp
          obtain ⟨rfl, hresult⟩ := recvResult_pos hn
          rw [hresult]
          exact h.woken hphase }
  · cases ht

/-! ### Runs -/

/-- A step that meets the condition keeps the invariant. -/
theorem Inv.step {s t : State} {e : Event} (h : Inv s) (hok : OnTime s e)
    (ht : Serial.step s e = some t) : Inv t := by
  cases e with
  | tick =>
      obtain rfl := Option.some.inj ht
      exact ⟨h.stray, h.number, h.entered, h.early, h.quiet,
        fun ha =>
          have hc := h.awaited ha
          ⟨hc.rxState, hc.en, hc.m0ar, hc.count, hc.early, hc.memory, hc.written⟩,
        h.given, h.woken, h.returned⟩
  | enter call =>
      simp only [Serial.step] at ht
      split_ifs at ht with hreturned
      obtain rfl := Option.some.inj ht
      exact h.enter hreturned call
  | task => exact h.task hok ht
  | byte b =>
      obtain rfl := Option.some.inj ht
      exact h.byte hok.1 hok.2 b
  | idle =>
      simp only [Serial.step] at ht
      split_ifs at ht
      obtain rfl := Option.some.inj ht
      exact h.idle hok.1 hok.2

/-- **A reception belongs to its call as long as responses are on time.** In every run of any calls
with any buffers, in every interleaving with the bytes and idle lines of the responses, whose steps
all meet `OnTime`: a call that returns more than 0 has had a response of that length, received
during the call, written to its buffer, and the stream never writes for a call that has returned. -/
theorem owned_of_onTime (es : List Event) (s : State)
    (hok : Machine.Meets Serial.step OnTime init es)
    (hrun : Machine.run Serial.step init es = some s) : Owned s := by
  have hinit : Inv init :=
    ⟨rfl, le_refl 0, fun hp => (by cases hp), fun he => (by cases he), fun _ _ => rfl,
      fun ha => (by cases ha.1), fun hs => (by cases hs), fun hp => (by cases hp),
      fun n hn hp => absurd hn (by rw [← Phase.returned.inj hp]; exact Int.lt_irrefl 0)⟩
  have hinv : Inv s :=
    Machine.run_induction (fun _ _ _ hI hs ht => hI.step hs ht) hinit hok hrun
  exact ⟨hinv.stray, hinv.returned⟩

/-- A call whose response comes in time. -/
def onTimeRun : List Event :=
  [.enter ⟨0x1000, 256, 100000⟩, .task, .task, .task, .byte 0x01, .byte 0x83, .byte 0x02,
    .byte 0xC0, .byte 0xF1, .idle, .task, .task]

/-- The call returns 5, with the response in its buffer. -/
theorem owned_onTimeRun : ∃ s, Machine.run Serial.step init onTimeRun = some s ∧ Owned s := by
  obtain ⟨s, hrun⟩ : ∃ s, Machine.run Serial.step init onTimeRun = some s :=
    Option.isSome_iff_exists.mp (by decide +kernel)
  exact ⟨s, hrun, owned_of_onTime onTimeRun s (by decide +kernel) hrun⟩

/-- A call that times out without a response, and one with another buffer whose response comes in
time. -/
def lostRun : List Event :=
  [Event.enter ⟨0x1000, 256, 100000⟩, Event.task, Event.task, Event.task] ++
    List.replicate 100 Event.tick ++
    [Event.task, Event.task, Event.enter ⟨0x2000, 256, 100000⟩, Event.task, Event.task,
      Event.byte 0x01, Event.byte 0x83, Event.byte 0x02, Event.byte 0xC0, Event.byte 0xF1,
      Event.idle, Event.task, Event.task]

/-- **A lost response leaves the reception to the call that has returned.** The second call returns
5, and its response has been written to the buffer of the first. -/
theorem not_owned_lostRun :
    ¬ ∀ es s, Machine.run Serial.step init es = some s → Owned s := by
  intro hall
  have hview : (Machine.run Serial.step init lostRun).map
      (fun s => (s.phase, s.stray, bytesAt s.memory 0x1000 5, bytesAt s.memory 0x2000 5)) =
        some (.returned 5, true, [0x01, 0x83, 0x02, 0xC0, 0xF1], [0, 0, 0, 0, 0]) := by
    decide +kernel
  obtain ⟨s, hrun, hs⟩ := Option.map_eq_some_iff.mp hview
  have hstray : s.stray = true := (Prod.mk.inj (Prod.mk.inj hs).2).1
  rw [(hall lostRun s hrun).1] at hstray
  cases hstray

end PanelFirmware.Libmodbus.Serial
