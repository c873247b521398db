import PanelFirmware.Dev.Eep24AA
import PanelFirmware.Hal.I2c
import PanelFirmware.Lib.Machine

/-!
# `driver/src/i2c.cpp`: transfers and the semaphore they share

A call of `I2cManager::write` or `read` takes the mutex, starts its transfer and takes the semaphore
that the hook of the interrupt handlers gives. The semaphore is not drained before a transfer is
started, so that a completion which comes after its call has timed out is left for the next call.
The machine interleaves any number of tasks with the interrupts of the transfers they have started.

* `Belongs`: every call that has returned true started a transfer that has completed.
* `belongs_of_drained`: over all runs whose steps meet `Drained`.
-/

namespace PanelFirmware.Driver

open PanelFirmware.Lib PanelFirmware.Hal

/-- A call of the manager; buffers are named by their addresses.
Source: `i2c.cpp` `I2cManager::write`, `I2cManager::read`. -/
inductive Transfer
  | write (devAddr : Byte) (src len : ℕ) (needstop : Bool)
  | read (devAddr : Byte) (dst len : ℕ)
  deriving DecidableEq

/-- How a transfer has ended. -/
inductive Outcome
  | completed
  | failed
  deriving DecidableEq

/-- How far a task has come in its current call: in the wait for the mutex, with the mutex, with
the start condition generated for a transfer (transfers are numbered), in the wait for the
semaphore, after it, and after the last call of its job. -/
inductive Phase
  | entered (since : ℕ)
  | locked
  | begun (n : ℕ)
  | waiting (n since : ℕ)
  | woken (n : ℕ) (given : Bool)
  | returned (result : Bool)
  deriving DecidableEq

/-- A task with a job, the calls it makes one after the other until one returns false. The calls
that are left begin with the current one. The calls that have returned true are recorded with the
number of their transfer. -/
structure Task where
  phase : Phase
  timeout : ℕ
  job : List Transfer
  left : List Transfer
  done : List (Transfer × ℕ)

/-- The state of the system; `mutex` and `sem` say whether a take succeeds. The transfers started
are recorded in order, with their outcome once they have ended.
Source: `i2c.cpp` `m_mutex`, `m_sem`; `i2c.c` `i2c1Sct`. -/
structure State where
  now : ℕ
  mutex : Bool
  sem : Bool
  i2c : I2c
  transfers : List (Transfer × Option Outcome)
  tasks : ℕ → Option Task

/-- What can happen next: a tick; a task beginning a job; the next step of a task; an event
interrupt, an error interrupt or the end of the reception of a transfer. -/
inductive Event
  | tick
  | enter (id : ℕ) (job : List Transfer) (timeout : ℕ)
  | task (id : ℕ)
  | eventIrq (n : ℕ) (sr1 : SR1)
  | errorIrq (n : ℕ) (sr1 : SR1)
  | rxDmaIrq (n : ℕ)

/-- A transfer to the device. -/
def Transfer.isWrite : Transfer → Bool
  | .write _ _ _ _ => true
  | .read _ _ _ => false

/-- The start condition of a transfer. Source: `i2c.c` `i2c_write`, `i2c_read`. -/
def Transfer.start (i2c : I2c) : Transfer → I2c
  | .write devAddr src len needstop =>
      i2cWrite i2c src len devAddr (if needstop then .needStop else .withoutStop)
  | .read devAddr dst len => i2cRead i2c dst len devAddr

/-- The last assignment of the two functions. Source: `i2c.c` `i2c_write`, `i2c_read`. -/
def Transfer.run (i2c : I2c) (t : Transfer) : I2c :=
  { i2c with state := if t.isWrite then .txRun else .rxRun }

/-- The state with one task changed. -/
def State.update (s : State) (id : ℕ) (k : Task) : State :=
  { s with tasks := Function.update s.tasks id (some k) }

/-- A task after its current call has returned. -/
def Task.return (k : Task) (t : Transfer) (rest : List Transfer) (n now : ℕ) (result : Bool) :
    Task :=
  if result then
    { k with
      phase := if rest = [] then .returned true else .entered now
      left := rest
      done := k.done ++ [(t, n)] }
  else { k with phase := .returned false }

/-- The next step of a task; `none` while it is blocked.
Source: `i2c.cpp` `I2cManager::write`, `I2cManager::read`. -/
def taskStep (s : State) (id : ℕ) (k : Task) : Option State :=
  match k.phase, k.left with
  | .entered since, _ =>
      if s.mutex then some (State.update { s with mutex := false } id { k with phase := .locked })
      else if since + k.timeout ≤ s.now then some (s.update id { k with phase := .returned false })
      else none
  | .locked, t :: _ =>
      some (State.update { s with i2c := t.start s.i2c, transfers := s.transfers ++ [(t, none)] } id
        { k with phase := .begun s.transfers.length })
  | .begun n, t :: _ =>
      some (State.update { s with i2c := t.run s.i2c } id { k with phase := .waiting n s.now })
  | .waiting n since, _ =>
      if s.sem then
        some (State.update { s with sem := false } id { k with phase := .woken n true })
      else if since + k.timeout ≤ s.now then some (s.update id { k with phase := .woken n false })
      else none
  | .woken n given, t :: rest =>
      some (State.update { s with mutex := true } id (k.return t rest n s.now given))
  | _, _ => none

/-- A transfer has been started and has not ended. -/
def State.Running (s : State) (n : ℕ) (write : Bool) : Prop :=
  ∃ t, s.transfers[n]? = some (t, none) ∧ t.isWrite = write

instance (s : State) (n : ℕ) (write : Bool) : Decidable (s.Running n write) :=
  decidable_of_iff
    (s.transfers[n]?.any fun x => decide (x.2 = none) && decide (x.1.isWrite = write)) <| by
    unfold State.Running
    cases s.transfers[n]? with
    | none => simp
    | some x =>
        obtain ⟨t, o⟩ := x
        simp

/-- The state after an interrupt of a transfer: what the handler leaves, the semaphore given by the
hook, and the outcome if the transfer has ended. -/
def interrupt (s : State) (n : ℕ) (outcome : Option Outcome) (handler : I2c × Bool) : State :=
  { s with
    i2c := handler.1
    sem := s.sem || handler.2
    transfers :=
      if outcome.isSome then s.transfers.modify n fun x => (x.1, outcome) else s.transfers }

/-- A step of the system. While data is transmitted the byte transfer finishes when the last byte
is out; a received byte is fetched by the DMA.
Source: `i2c.cpp`; `i2c.c` `I2C1_EV_IRQHandler`, `I2C1_ER_IRQHandler`, `DMA1_Stream5_IRQHandler`. -/
def step (s : State) : Event → Option State
  | .tick => some { s with now := s.now + 1 }
  | .enter id job timeout =>
      if s.tasks id = none ∧ job ≠ [] then
        some (s.update id ⟨.entered s.now, timeout, job, job, []⟩)
      else none
  | .task id => (s.tasks id).bind fun k => taskStep s id k
  | .eventIrq n sr1 =>
      if s.Running n true ∨ s.Running n false ∧ sr1.btf = false then
        some (interrupt s n (if sr1.finished then some .completed else none)
          (i2cEventHendler s.i2c sr1))
      else none
  | .errorIrq n sr1 =>
      if s.Running n true ∨ s.Running n false then
        some (interrupt s n (some .failed) (i2cErrorHendler s.i2c sr1, false))
      else none
  | .rxDmaIrq n =>
      if s.Running n false then some (interrupt s n (some .completed) (i2cRxDmaHendler s.i2c))
      else none

/-- The start: the mutex is free, the semaphore taken. Source: `i2c.cpp` `I2cManager::init`. -/
def init : State where
  now := 0
  mutex := true
  sem := false
  i2c := ⟨.unknownState, .needStop, 0, false, 0, true, ⟨0, 0⟩, ⟨0, 0⟩⟩
  transfers := []
  tasks := fun _ => none

/-- The calls of a read of the EEPROM, its address byte at `adrInBlock`.
Source: `24AAxx.cpp` `Eep24AA::read`. -/
def eepRead (dst src len adrInBlock : ℕ) : List Transfer :=
  [.write (Dev.eepAddress Dev.eepWrite src) adrInBlock 1 false,
    .read (Dev.eepAddress Dev.eepRead src) dst len]

/-! ### Completions -/

/-- A transfer has completed. -/
def State.Completed (s : State) (t : Transfer) (n : ℕ) : Prop :=
  s.transfers[n]? = some (t, some .completed)

/-- Every call that has returned true started a transfer that has completed; and a job that has
returned true has made all its calls, and each returned true. -/
def Belongs (s : State) : Prop :=
  ∀ id k, s.tasks id = some k →
    (∀ t n, (t, n) ∈ k.done → s.Completed t n) ∧
    (k.phase = .returned true → k.done.map Prod.fst = k.job)

/-- The condition on an event: a transfer is started with the semaphore empty, and a handler gives
it for the transfer that was started last. -/
def Drained (s : State) : Event → Prop
  | .task id => ∀ k ∈ s.tasks id, k.phase = .locked → s.sem = false
  | .eventIrq n sr1 => sr1.finished = true ∧ s.i2c.state = .txRun → n + 1 = s.transfers.length
  | .rxDmaIrq n => s.i2c.state = .rxRun → n + 1 = s.transfers.length
  | _ => True

instance (s : State) : (e : Event) → Decidable (Drained s e)
  | .task id => inferInstanceAs (Decidable (∀ k ∈ s.tasks id, _ → _))
  | .eventIrq _ _ | .rxDmaIrq _ => inferInstanceAs (Decidable (_ → _))
  | .tick | .enter _ _ _ | .errorIrq _ _ => inferInstanceAs (Decidable True)

/-! ### The invariant -/

/-- The task holds the mutex. -/
def Phase.holds : Phase → Bool
  | .locked | .begun _ | .waiting _ _ | .woken _ _ => true
  | .entered _ | .returned _ => false

/-- The transfer the task has started. -/
def Phase.transfer : Phase → Option ℕ
  | .begun n | .waiting n _ | .woken n _ => some n
  | .entered _ | .locked | .returned _ => none

/-- What holds of a task: its transfer is the last one and the one of its current call; after a
take of the semaphore it has completed; so have those of the calls that have returned true, which
are the ones of the job that are not left. -/
structure TaskInv (s : State) (k : Task) : Prop where
  current : ∀ n, k.phase.transfer = some n → n + 1 = s.transfers.length ∧
    ∃ t rest o, k.left = t :: rest ∧ s.transfers[n]? = some (t, o)
  woken : ∀ n, k.phase = .woken n true → ∃ t rest, k.left = t :: rest ∧ s.Completed t n
  done : ∀ t n, (t, n) ∈ k.done → s.Completed t n
  job : k.done.map Prod.fst ++ k.left = k.job
  left : k.phase = .returned true → k.left = []

/-- The invariant of the manager: one task at most holds the mutex, and the semaphore is given for
the transfer that was started last, which has completed. -/
structure Inv (s : State) : Prop where
  tasks : ∀ i k, s.tasks i = some k → TaskInv s k
  holder : ∀ i k, s.tasks i = some k → k.phase.holds = true →
    s.mutex = false ∧ ∀ j l, s.tasks j = some l → l.phase.holds = true → j = i
  sem : s.sem = true → ∃ t n, n + 1 = s.transfers.length ∧ s.Completed t n

/-- A task with a transfer holds the mutex. -/
lemma Phase.holds_of_transfer {p : Phase} {n : ℕ} (h : p.transfer = some n) : p.holds = true := by
  cases p <;> first | rfl | cases h

/-- What holds of a task still does when transfers end, and, for a task without the mutex, when
one is started. -/
lemma TaskInv.grow {s t : State} {k : Task} (h : TaskInv s k)
    (hcompleted : ∀ (x : Transfer) (n : ℕ), s.Completed x n → t.Completed x n)
    (hcurrent : k.phase.holds = true → t.transfers.length = s.transfers.length ∧
      ∀ (n : ℕ) (x : Transfer) (o : Option Outcome), s.transfers[n]? = some (x, o) →
        ∃ o', t.transfers[n]? = some (x, o')) :
    TaskInv t k := by
  refine ⟨?_, ?_, fun x n hmem => hcompleted x n (h.done x n hmem), h.job, h.left⟩
  · intro n hn
    obtain ⟨hlast, x, rest, o, hleft, hx⟩ := h.current n hn
    obtain ⟨hlen, hentry⟩ := hcurrent (Phase.holds_of_transfer hn)
    obtain ⟨o', ho'⟩ := hentry n x o hx
    exact ⟨by rw [hlen]; exact hlast, x, rest, o', hleft, ho'⟩
  · intro n hn
    obtain ⟨x, rest, hleft, hx⟩ := h.woken n hn
    exact ⟨x, rest, hleft, hcompleted x n hx⟩

/-- What holds of a task depends on the transfers only. -/
lemma TaskInv.congr {s t : State} {k : Task} (h : TaskInv s k)
    (htransfers : t.transfers = s.transfers) : TaskInv t k := by
  refine h.grow (fun x n hx => ?_) fun _ => ⟨by rw [htransfers], fun n x o ho => ⟨o, ?_⟩⟩
  · rw [State.Completed, htransfers]
    exact hx
  · rw [htransfers]
    exact ho

/-- What a step of a task has to show: what holds of the tasks afterwards, that the task and the
others do not hold the mutex together, and that the semaphore is not given wrongly. -/
lemma Inv.change {s t : State} (hinv : Inv s) {id : ℕ} {k : Task}
    (htasks : t.tasks = Function.update s.tasks id (some k)) (hk : TaskInv t k)
    (hrest : ∀ j l, j ≠ id → s.tasks j = some l → TaskInv t l)
    (hmutex : k.phase.holds = true → t.mutex = false)
    (hothers : ∀ j l, j ≠ id → s.tasks j = some l → l.phase.holds = true →
      t.mutex = false ∧ k.phase.holds = false)
    (hsem : t.sem = true → ∃ x n, n + 1 = t.transfers.length ∧ t.Completed x n) : Inv t := by
  have hcases : ∀ j l, t.tasks j = some l → j = id ∧ l = k ∨ j ≠ id ∧ s.tasks j = some l := by
    intro j l hl
    rw [htasks] at hl
    exact (Machine.entry_of_update hl).imp_left fun ⟨hj, hk⟩ => ⟨hj, (Option.some.inj hk).symm⟩
  refine ⟨?_, ?_, hsem⟩
  · intro j l hl
    rcases hcases j l hl with ⟨-, rfl⟩ | ⟨hj, hl⟩
    · exact hk
    · exact hrest j l hj hl
  · intro i l hl hholds
    rcases hcases i l hl with ⟨rfl, rfl⟩ | ⟨hi, hl⟩
    · refine ⟨hmutex hholds, fun j m hm hmholds => ?_⟩
      rcases hcases j m hm with ⟨rfl, -⟩ | ⟨hj, hm⟩
      · rfl
      · rw [(hothers j m hj hm hmholds).2] at hholds
        cases hholds
    · refine ⟨(hothers i l hi hl hholds).1, fun j m hm hmholds => ?_⟩
      rcases hcases j m hm with ⟨-, rfl⟩ | ⟨-, hm⟩
      · rw [(hothers i l hi hl hholds).2] at hmholds
        cases hmholds
      · exact (hinv.holder i l hl hholds).2 j m hm hmholds

/-! ### Steps -/

/-- A step of a task that leaves the transfers, and gives the semaphore to nobody. -/
lemma Inv.move {s t : State} (hinv : Inv s) {id : ℕ} {k : Task}
    (htasks : t.tasks = Function.update s.tasks id (some k))
    (htransfers : t.transfers = s.transfers) (hk : TaskInv s k)
    (hmutex : k.phase.holds = true → t.mutex = false)
    (hothers : ∀ j l, j ≠ id → s.tasks j = some l → l.phase.holds = true →
      t.mutex = false ∧ k.phase.holds = false)
    (hsem : t.sem = true → s.sem = true) : Inv t := by
  refine hinv.change htasks (hk.congr htransfers)
    (fun j l _ hl => (hinv.tasks j l hl).congr htransfers) hmutex hothers fun hgiven => ?_
  obtain ⟨x, n, hlast, hx⟩ := hinv.sem (hsem hgiven)
  refine ⟨x, n, by rw [htransfers]; exact hlast, ?_⟩
  rw [State.Completed, htransfers]
  exact hx

/-- A task that goes on to a phase without a transfer. -/
lemma TaskInv.quiet {s : State} {k : Task} (h : TaskInv s k) {p : Phase} (hp : p.transfer = none)
    (hreturned : p ≠ .returned true) : TaskInv s { k with phase := p } := by
  refine ⟨fun n hn => ?_, fun n hn => ?_, h.done, h.job, fun hp' => absurd hp' hreturned⟩
  · rw [hp] at hn
    cases hn
  · obtain rfl : p = .woken n true := hn
    cases hp

/-- A task that goes on with its transfer. -/
lemma TaskInv.keep {s : State} {k : Task} (h : TaskInv s k) {n : ℕ}
    (hn : k.phase.transfer = some n) {p : Phase} (hp : p.transfer = some n)
    (hwoken : p = .woken n true → ∃ t rest, k.left = t :: rest ∧ s.Completed t n) :
    TaskInv s { k with phase := p } := by
  refine ⟨fun m hm => ?_, fun m hm => ?_, h.done, h.job, fun hp' => ?_⟩
  · obtain rfl : n = m := Option.some.inj (hp.symm.trans hm)
    exact h.current n hn
  · obtain rfl : p = .woken m true := hm
    obtain rfl := Option.some.inj hp
    exact hwoken rfl
  · obtain rfl : p = .returned true := hp'
    cases hp

/-- A call that returns true has completed its transfer; the rest of its job is left. -/
lemma TaskInv.return {s : State} {k : Task} (h : TaskInv s k) {t : Transfer}
    {rest : List Transfer} (hleft : k.left = t :: rest) {n now : ℕ} {given : Bool}
    (hphase : k.phase = .woken n given) : TaskInv s (k.return t rest n now given) := by
  unfold Task.return
  cases given with
  | false => exact h.quiet rfl (by simp)
  | true =>
      obtain ⟨x, xs, hleft', hx⟩ := h.woken n hphase
      obtain ⟨rfl, rfl⟩ := List.cons.inj (hleft.symm.trans hleft')
      have hjob : (k.done ++ [(t, n)]).map Prod.fst ++ rest = k.job := by
        rw [← h.job, hleft, List.map_append, List.append_assoc]
        rfl
      have hdone : ∀ x m, (x, m) ∈ k.done ++ [(t, n)] → s.Completed x m := by
        intro x m hmem
        rcases List.mem_append.mp hmem with hmem | hmem
        · exact h.done x m hmem
        · obtain ⟨rfl, rfl⟩ := Prod.mk.inj (List.mem_singleton.mp hmem)
          exact hx
      rw [if_pos rfl]
      by_cases hrest : rest = []
      · rw [if_pos hrest]
        exact ⟨fun m hm => (by cases hm), fun m hm => (by cases hm), hdone, hjob, fun _ => hrest⟩
      · rw [if_neg hrest]
        exact ⟨fun m hm => (by cases hm), fun m hm => (by cases hm), hdone, hjob,
          fun hm => (by cases hm)⟩

/-- After a call a task does not hold the mutex. -/
lemma Task.holds_return (k : Task) (t : Transfer) (rest : List Transfer) (n now : ℕ)
    (given : Bool) : (k.return t rest n now given).phase.holds = false := by
  unfold Task.return
  split_ifs <;> rfl

/-- A step of a task keeps the invariant. -/
lemma Inv.task {s t : State} (hinv : Inv s) {i : ℕ} {k : Task} (hk : s.tasks i = some k)
    (hok : k.phase = .locked → s.sem = false) (h : taskStep s i k = some t) : Inv t := by
  have htask := hinv.tasks i k hk
  have hheld := hinv.holder i k hk
  -- while the task holds the mutex, no other one does
  have halone : k.phase.holds = true → ∀ j l, j ≠ i → s.tasks j = some l →
      ¬ l.phase.holds = true := fun hholds j l hj hl hl' => hj ((hheld hholds).2 j l hl hl')
  unfold taskStep at h
  split at h
  · -- entered
    split_ifs at h with hfree hexpired
    · obtain rfl := Option.some.inj h
      refine hinv.move rfl rfl (htask.quiet rfl (by simp)) (fun _ => rfl) ?_ id
      intro j l _ hl hholds
      rw [(hinv.holder j l hl hholds).1] at hfree
      cases hfree
    · obtain rfl := Option.some.inj h
      exact hinv.move rfl rfl (htask.quiet rfl (by simp)) (fun hholds => nomatch hholds)
        (fun j l _ hl hholds => ⟨(hinv.holder j l hl hholds).1, rfl⟩) id
  · -- locked
    next x rest hphase hleft =>
      have hholds : k.phase.holds = true := by rw [hphase]; rfl
      obtain rfl := Option.some.inj h
      have hgrow : ∀ (y : Transfer) (n : ℕ), s.Completed y n →
          (s.transfers ++ [(x, none)])[n]? = some (y, some .completed) := by
        intro y n hy
        obtain ⟨hn, -⟩ := List.getElem?_eq_some_iff.mp hy
        rw [List.getElem?_append_left hn]
        exact hy
      refine hinv.change rfl ⟨?_, ?_, ?_, htask.job, ?_⟩ ?_ (fun _ => (hheld hholds).1) ?_ ?_
      · intro n hn
        obtain rfl := Option.some.inj hn
        have hlen : (s.transfers ++ [(x, none)]).length = s.transfers.length + 1 :=
          List.length_append
        exact ⟨hlen.symm, x, rest, none, hleft, List.getElem?_concat_length⟩
      · intro n hn
        cases hn
      · intro y n hmem
        exact hgrow y n (htask.done y n hmem)
      · intro hp
        cases hp
      · intro j l hj hl
        refine (hinv.tasks j l hl).grow hgrow fun hl' => ?_
        exact absurd hl' (halone hholds j l hj hl)
      · intro j l hj hl hl'
        exact absurd hl' (halone hholds j l hj hl)
      · intro hgiven
        have hempty : s.sem = true := hgiven
        rw [hok hphase] at hempty
        cases hempty
  · -- begun
    next n x rest hphase hleft =>
      have hholds : k.phase.holds = true := by rw [hphase]; rfl
      have hn : k.phase.transfer = some n := by rw [hphase]; rfl
      obtain rfl := Option.some.inj h
      refine hinv.move rfl rfl (htask.keep hn rfl fun hp => (by cases hp))
        (fun _ => (hheld hholds).1) ?_ id
      intro j l hj hl hl'
      exact absurd hl' (halone hholds j l hj hl)
  · -- waiting
    next n since hphase =>
      have hholds : k.phase.holds = true := by rw [hphase]; rfl
      have hn : k.phase.transfer = some n := by rw [hphase]; rfl
      split_ifs at h with hgiven hexpired
      · obtain rfl := Option.some.inj h
        have hwoken : ∃ t rest, k.left = t :: rest ∧ s.Completed t n := by
          obtain ⟨hlast, t, rest, o, hleft, ht⟩ := htask.current n hn
          obtain ⟨x, m, hm, hx⟩ := hinv.sem hgiven
          obtain rfl : n = m := by omega
          rw [State.Completed, ht] at hx
          obtain ⟨rfl, rfl⟩ := Prod.mk.inj (Option.some.inj hx)
          exact ⟨t, rest, hleft, ht⟩
        refine hinv.move rfl rfl (htask.keep hn rfl fun _ => hwoken)
          (fun _ => (hheld hholds).1) ?_ (fun hsem => nomatch hsem)
        intro j l hj hl hl'
        exact absurd hl' (halone hholds j l hj hl)
      · obtain rfl := Option.some.inj h
        refine hinv.move rfl rfl (htask.keep hn rfl fun hp => (by cases hp))
          (fun _ => (hheld hholds).1) ?_ id
        intro j l hj hl hl'
        exact absurd hl' (halone hholds j l hj hl)
  · -- woken
    next n given x rest hphase hleft =>
      have hholds : k.phase.holds = true := by rw [hphase]; rfl
      obtain rfl := Option.some.inj h
      have hfree := Task.holds_return k x rest n s.now given
      refine hinv.move rfl rfl (htask.return hleft hphase) ?_ ?_ id
      · intro hkept
        rw [hfree] at hkept
        cases hkept
      · intro j l hj hl hl'
        exact absurd hl' (halone hholds j l hj hl)
  · cases h

/-- An interrupt of a running transfer keeps the invariant, if the hook is called only when the
transfer has completed and is the one that was started last. -/
lemma Inv.interrupt {s : State} (hinv : Inv s) {n : ℕ} {write : Bool} (hrunning : s.Running n write)
    {outcome : Option Outcome} {handler : I2c × Bool}
    (hhook : handler.2 = true → outcome = some .completed ∧ n + 1 = s.transfers.length) :
    Inv (interrupt s n outcome handler) := by
  obtain ⟨x, hx, -⟩ := hrunning
  have hlen : (Driver.interrupt s n outcome handler).transfers.length = s.transfers.length := by
    simp only [Driver.interrupt]
    split_ifs
    · exact List.length_modify _ _ _
    · rfl
  have hentry : ∀ m, (Driver.interrupt s n outcome handler).transfers[m]? =
      if n = m ∧ outcome.isSome = true then some (x, outcome) else s.transfers[m]? := by
    intro m
    simp only [Driver.interrupt]
    by_cases hsome : outcome.isSome = true
    · rw [if_pos hsome, List.getElem?_modify]
      by_cases hm : n = m
      · subst hm
        simp [hx, hsome]
      · simp [hm]
    · rw [if_neg hsome, if_neg fun h => hsome h.2]
  have hgrow : ∀ k, TaskInv s k → TaskInv (Driver.interrupt s n outcome handler) k := by
    intro k hk
    refine hk.grow (fun y m hy => ?_) fun _ => ⟨hlen, fun m y o hy => ?_⟩
    · rw [State.Completed, hentry, if_neg]
      · exact hy
      · rintro ⟨rfl, -⟩
        rw [State.Completed, hx] at hy
        cases hy
    · rw [hentry]
      split_ifs with hm
      · obtain ⟨rfl, -⟩ := hm
        rw [hx] at hy
        obtain ⟨rfl, -⟩ := Prod.mk.inj (Option.some.inj hy)
        exact ⟨outcome, rfl⟩
      · exact ⟨o, hy⟩
  refine ⟨fun i k hk => hgrow k (hinv.tasks i k hk), hinv.holder, fun hsem => ?_⟩
  rcases Bool.or_eq_true_iff.mp hsem with hbefore | hgiven
  · obtain ⟨y, m, hm, hy⟩ := hinv.sem hbefore
    refine ⟨y, m, by rw [hlen]; exact hm, ?_⟩
    rw [State.Completed, hentry, if_neg]
    · exact hy
    · rintro ⟨rfl, -⟩
      rw [State.Completed, hx] at hy
      cases hy
  · obtain ⟨rfl, hlast⟩ := hhook hgiven
    refine ⟨x, n, by rw [hlen]; exact hlast, ?_⟩
    rw [State.Completed, hentry, if_pos ⟨rfl, rfl⟩]

/-! ### Runs -/

/-- A step that meets the condition keeps the invariant. -/
theorem Inv.step {s t : State} {e : Event} (hinv : Inv s) (hok : Drained s e)
    (h : Driver.step s e = some t) : Inv t := by
  cases e with
  | tick =>
      obtain rfl := Option.some.inj h
      exact ⟨fun i k hk => (hinv.tasks i k hk).congr rfl, hinv.holder, hinv.sem⟩
  | enter i job timeout =>
      simp only [Driver.step] at h
      split_ifs at h
      obtain rfl := Option.some.inj h
      refine hinv.move rfl rfl ?_ (fun hholds => nomatch hholds)
        (fun j l _ hl hholds => ⟨(hinv.holder j l hl hholds).1, rfl⟩) id
      exact ⟨fun n hn => (by cases hn), fun n hn => (by cases hn),
        fun x n hmem => absurd hmem List.not_mem_nil, List.nil_append _, fun hp => (by cases hp)⟩
  | task i =>
      obtain ⟨k, hk, hstep⟩ := Option.bind_eq_some_iff.mp h
      exact hinv.task hk (hok k hk) hstep
  | eventIrq n sr1 =>
      simp only [Driver.step] at h
      by_cases hrunning : s.Running n true ∨ s.Running n false ∧ sr1.btf = false
      swap
      · rw [if_neg hrunning] at h
        cases h
      rw [if_pos hrunning] at h
      obtain rfl := Option.some.inj h
      have hhook : (i2cEventHendler s.i2c sr1).2 = true →
          (if sr1.finished then some Outcome.completed else none) = some .completed ∧
            n + 1 = s.transfers.length := by
        intro hcalled
        obtain ⟨hfinished, hstate⟩ := i2cEventHendler_hook hcalled
        exact ⟨if_pos hfinished, hok ⟨hfinished, hstate⟩⟩
      rcases hrunning with hwrite | ⟨hread, -⟩
      · exact hinv.interrupt hwrite hhook
      · exact hinv.interrupt hread hhook
  | errorIrq n sr1 =>
      simp only [Driver.step] at h
      split_ifs at h with hrunning
      obtain rfl := Option.some.inj h
      rcases hrunning with hwrite | hread
      · exact hinv.interrupt hwrite fun hcalled => nomatch hcalled
      · exact hinv.interrupt hread fun hcalled => nomatch hcalled
  | rxDmaIrq n =>
      simp only [Driver.step] at h
      split_ifs at h with hrunning
      obtain rfl := Option.some.inj h
      exact hinv.interrupt hrunning fun hcalled => ⟨rfl, hok (i2cRxDmaHendler_hook hcalled)⟩

/-- **A completion belongs to its transfer as long as none is left over.** In every run of any tasks
making any calls, in every interleaving with the interrupts, errors and timeouts, whose steps all
meet `Drained`: every call that has returned true started a transfer that has completed, and a job
that has returned true, such as a read of the EEPROM, has made all its calls. -/
theorem belongs_of_drained (es : List Event) (s : State)
    (hok : Machine.Meets Driver.step Drained init es)
    (hrun : Machine.run Driver.step init es = some s) : Belongs s := by
  have hinit : Inv init :=
    ⟨fun _ _ h => (by cases h), fun _ _ h => (by cases h), fun h => (by cases h)⟩
  have hinv : Inv s :=
    Machine.run_induction (fun _ _ _ hI hs ht => hI.step hs ht) hinit hok hrun
  intro i k hk
  have htask := hinv.tasks i k hk
  refine ⟨htask.done, fun hreturned => ?_⟩
  rw [← htask.job, htask.left hreturned, List.append_nil]

/-- The flags of an event interrupt. -/
def SR1.event (sb addr btf : Bool) : SR1 := ⟨sb, addr, btf, false, false, false⟩

/-- A read of the EEPROM whose transfers complete in time. -/
def readRun : List Event :=
  [.enter 0 (eepRead 0x100 0 52 0x200) 200, .task 0, .task 0, .task 0,
    .eventIrq 0 (SR1.event true false false), .eventIrq 0 (SR1.event false true false),
    .eventIrq 0 (SR1.event false false true), .task 0, .task 0,
    .task 0, .task 0, .task 0, .eventIrq 1 (SR1.event true false false),
    .eventIrq 1 (SR1.event false true false), .rxDmaIrq 1, .task 0, .task 0]

/-- The read returns true, and its transfers have completed. -/
theorem belongs_readRun :
    ∃ s, Machine.run Driver.step init readRun = some s ∧ Belongs s := by
  obtain ⟨s, hrun⟩ : ∃ s, Machine.run Driver.step init readRun = some s :=
    Option.isSome_iff_exists.mp (by decide +kernel)
  exact ⟨s, hrun, belongs_of_drained readRun s (by decide +kernel) hrun⟩

/-- A write times out and completes afterwards; then the EEPROM is read, each call taking the
completion of the transfer before. -/
def lateRun : List Event :=
  [Event.enter 0 [.write 0xA0 0x300 17 true] 200, Event.task 0, Event.task 0, Event.task 0] ++
    List.replicate 200 Event.tick ++
    [Event.task 0, Event.task 0, Event.eventIrq 0 (SR1.event false false true),
      Event.enter 1 (eepRead 0x100 0 52 0x200) 200, Event.task 1, Event.task 1, Event.task 1,
      Event.task 1, Event.eventIrq 1 (SR1.event false false true), Event.task 1, Event.task 1,
      Event.task 1, Event.task 1, Event.task 1, Event.task 1]

/-- **A completion is taken for another one.** After a write that has timed out, a read of the
EEPROM returns true while its reception is still running. -/
theorem not_belongs_lateRun :
    ¬ ∀ es s, Machine.run Driver.step init es = some s → Belongs s := by
  intro hall
  have hview : (Machine.run Driver.step init lateRun).map
      (fun s => ((s.tasks 1).map fun k => (k.phase, k.done.map Prod.snd), s.transfers[2]?)) =
        some (some (.returned true, [1, 2]),
          some (.read (Dev.eepAddress Dev.eepRead 0) 0x100 52, none)) := by
    decide +kernel
  obtain ⟨s, hrun, hs⟩ := Option.map_eq_some_iff.mp hview
  obtain ⟨htask, hrunning⟩ := Prod.mk.inj hs
  obtain ⟨k, hk, hview⟩ := Option.map_eq_some_iff.mp htask
  obtain ⟨-, hdone⟩ := Prod.mk.inj hview
  have hmem : 2 ∈ k.done.map Prod.snd := by
    rw [hdone]
    exact List.mem_cons_of_mem _ List.mem_cons_self
  obtain ⟨⟨x, n⟩, hx, rfl⟩ := List.mem_map.mp hmem
  have hcompleted : s.transfers[2]? = some (x, some .completed) :=
    (hall lateRun s hrun 1 k hk).1 x 2 hx
  rw [hrunning] at hcompleted
  cases hcompleted

end PanelFirmware.Driver
