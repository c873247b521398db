import PanelFirmware.Regulator.CommandTruth

/-!
# `regulator/src/regulatorConnTSK.c`: `reg_enableSet`

`reg_enableSet` writes the regulator's enable register by a command, unless the copy of the register
that the regulator loop refreshes says that it has the value already. The register is changed by
the regulator itself and by clients of the bridge at any time, so that the copy may be out of date.

The machine is the one of the commands, with the register, its copy and the calls.

* `Real`: when a call has returned true the register has had the value since the call.
* `real_of_current`: over all runs whose steps meet `Current`.
-/

namespace PanelFirmware.Regulator.Enable

open PanelFirmware.Lib

/-! ### The code -/

/-- How far a call has come: entered, in `reg_waitCommand`, returned. -/
inductive Phase
  | entered
  | commanded
  | returned (result : Bool)
  deriving DecidableEq

/-- A call of `reg_enableSet`. Whether its write has been carried out and whether the register has
had the value at some moment since the call are recorded.
Source: `regulatorConnTSK.c` `reg_enableSet`. -/
structure Call where
  state : Bool
  phase : Phase
  carried : Bool
  seen : Bool

/-- The value of the register for a state.
Source: `regulatorConnTSK.c` `reg_enableSet`, `enable`. -/
def value (state : Bool) : ℕ := if state then 1 else 0

/-- A command that writes a register transacts. -/
lemma transacts_write : (1 : ℕ) ≠ 0 ∨ (0 : ℕ) ≠ 0 := Or.inl Nat.one_ne_zero

/-- The command of a call; it is named by the number of its call.
Source: `regulatorConnTSK.c` `reg_enableSet`, `command`. -/
def enableRequest : Request := ⟨0x010B, 1, 0, 0, transacts_write⟩

/-- The commands, the register of the regulator, its copy and the calls.
Source: `regulatorConnTSK.c` `enabled`. -/
structure State where
  commands : Regulator.State
  register : ℕ
  enabled : ℕ
  calls : ℕ → Option Call

/-- What becomes of a try of the regulator task: it is answered and has been carried out, carried
out with the answer lost, or not carried out. -/
inductive Outcome
  | answered
  | applied
  | lost
  deriving DecidableEq

/-- What can happen next: a step of the commands; a call; the next step of a call; the read of the
register in the regulator loop; a change of the register by the regulator or by a client of the
bridge; the next step of the regulator task on its command. -/
inductive Event
  | command (e : Regulator.Event)
  | enableSet (id : ℕ) (state : Bool)
  | enable (id : ℕ)
  | refresh (answered : Bool)
  | change (v : ℕ)
  | process (o : Outcome)

/-- The call has returned. -/
def Phase.isReturned : Phase → Bool
  | .returned _ => true
  | .entered | .commanded => false

/-- A call in progress sees the value of the register. -/
def Call.see (v : ℕ) (c : Call) : Call :=
  { c with seen := c.seen || (!c.phase.isReturned && decide (v = value c.state)) }

/-- The state with another value of the register. -/
def State.setRegister (s : State) (v : ℕ) : State :=
  { s with register := v, calls := fun id => (s.calls id).map (Call.see v) }

/-- The state with a call changed. -/
def State.update (s : State) (id : ℕ) (c : Call) : State :=
  { s with calls := Function.update s.calls id (some c) }

/-- The next step of a call; `none` while it is blocked.
Source: `regulatorConnTSK.c` `reg_enableSet`. -/
def enableStep (s : State) (id : ℕ) (c : Call) : Option State :=
  match c.phase with
  | .entered =>
      if value c.state = s.enabled then some (s.update id { c with phase := .returned true })
      else (Regulator.step s.commands (.enter id enableRequest)).map fun commands =>
        State.update { s with commands } id { c with phase := .commanded }
  | .commanded => (s.commands.calls id).bind fun k =>
      match k.phase with
      | .returned result => some (s.update id { c with phase := .returned result })
      | _ => none
  | .returned _ => none

/-- What the regulator carries out of a try: the write of a call in progress. When the call has
returned, the source of its command is gone, and what is written counts as a change by others. -/
def carryOut (s : State) (o : Outcome) : State :=
  match s.commands.reg with
  | .written cmd _ =>
      match s.calls cmd.call with
      | some c =>
          if o ≠ .lost ∧ c.phase = .commanded then
            (s.setRegister (value c.state)).update cmd.call
              { c.see (value c.state) with carried := true }
          else s
      | none => s
  | _ => s

/-- A step of the system. The names of the calls of `reg_enableSet` are not those of other commands.
Source: `regulatorConnTSK.c` `reg_enableSet`, `regulatorConnTSK`. -/
def step (s : State) : Event → Option State
  | .command (.process _) => none
  | .command (.enter id request) =>
      if s.calls id = none then
        (Regulator.step s.commands (.enter id request)).map fun commands => { s with commands }
      else none
  | .command e => (Regulator.step s.commands e).map fun commands => { s with commands }
  | .enableSet id state =>
      if s.calls id = none ∧ s.commands.calls id = none then
        some (s.update id ⟨state, .entered, false, decide (s.register = value state)⟩)
      else none
  | .enable id => (s.calls id).bind (enableStep s id)
  | .refresh answered =>
      (Regulator.step s.commands (.exchange answered)).map fun commands =>
        { s with commands, enabled := if answered then s.register else s.enabled }
  | .change v => some (s.setRegister v)
  | .process o =>
      (Regulator.step s.commands (.process (o = .answered))).map fun commands =>
        { carryOut s o with commands }

/-- The start, with any value of the register. Source: `regulatorConnTSK.c`, the static
variables. -/
def init (register : ℕ) : State := ⟨Regulator.init, register, 0, fun _ => none⟩

/-! ### Reality -/

/-- When a call has returned true, the register has had the value since the call. -/
def Real (s : State) : Prop :=
  ∀ id c, s.calls id = some c → c.phase = .returned true → c.seen = true

/-- The condition on a step of the regulator task: a write of a call in progress is carried out, at
the last try if not before. -/
def CurrentReg (s : State) (o : Outcome) : RegPhase → Prop
  | .written cmd tries =>
      tries = 1 → o = .lost → ∀ c ∈ s.calls cmd.call, c.phase = .commanded → c.carried = true
  | _ => True

/-- The condition on an event: a call that finds its value in the copy finds it while the register
has it too; its write is carried out; and it deletes its semaphore after a wait that ran out only
when its write has been. No command, of whatever task, is executed after its call has deleted its
semaphore (`Timely`): the give would wake the call that has the block by then. -/
def Current (s : State) : Event → Prop
  | .enable id =>
      ∀ c ∈ s.calls id, c.phase = .entered → value c.state = s.enabled → s.register = s.enabled
  | .command (.issuer id alloc) => Timely s.commands (.issuer id alloc) ∧
      ∀ k ∈ s.commands.calls id, k.phase = .woken false →
        ∀ c ∈ s.calls id, c.phase = .commanded → c.carried = true
  | .process o => s.commands.reg.Timely s.commands ∧ CurrentReg s o s.commands.reg
  | _ => True

instance (s : State) (o : Outcome) : (r : RegPhase) → Decidable (CurrentReg s o r)
  | .written cmd tries => inferInstanceAs (Decidable (tries = 1 → o = .lost →
      ∀ c ∈ s.calls cmd.call, c.phase = .commanded → c.carried = true))
  | .idle | .received _ | .writing _ _ | .reading _ _ | .storing _ _ | .giving _ =>
      inferInstanceAs (Decidable True)

instance (s : State) : (e : Event) → Decidable (Current s e)
  | .enable id => inferInstanceAs (Decidable (∀ c ∈ s.calls id, _ → _ → _))
  | .command (.issuer id alloc) =>
      inferInstanceAs (Decidable (Timely s.commands (.issuer id alloc) ∧
        ∀ k ∈ s.commands.calls id, k.phase = .woken false →
          ∀ c ∈ s.calls id, c.phase = .commanded → c.carried = true))
  | .process o =>
      inferInstanceAs (Decidable (s.commands.reg.Timely s.commands ∧
        CurrentReg s o s.commands.reg))
  | .command .tick | .command (.enter _ _) | .command (.exchange _) | .command .publish
  | .command .receive | .command (.process _) | .enableSet _ _ | .refresh _ | .change _ =>
      inferInstanceAs (Decidable True)

/-! ### The invariant -/

/-- The command whose transactions the regulator task has gone through. -/
def finished : RegPhase → Option Command
  | .reading cmd _ | .storing cmd _ | .giving cmd => some cmd
  | .idle | .received _ | .writing _ _ | .written _ _ => none

/-- A command whose transactions are done is the one the regulator task works on. -/
lemma command_of_finished {r : RegPhase} {cmd : Command} (h : finished r = some cmd) :
    r.command = some cmd := by
  cases r with
  | reading _ _ | storing _ _ | giving _ => exact h
  | idle | received _ | writing _ _ | written _ _ => cases h

/-- What holds of a call: the register has had the value if its write has been carried out or the
register has it; its command is its own, and its wait ends when its write has been carried out. -/
structure CallInv (register : ℕ) (commands : Regulator.State) (id : ℕ) (c : Call) : Prop where
  carried : c.carried = true → c.seen = true
  seen : c.phase.isReturned = false → register = value c.state → c.seen = true
  command : c.phase = .commanded → ∃ k, commands.calls id = some k ∧ k.request = enableRequest ∧
    (commands.Claims k → c.carried = true)
  finished : c.phase = .commanded → ∀ cmd, finished commands.reg = some cmd → cmd.call = id →
    c.carried = true
  returned : c.phase = .returned true → c.seen = true

/-- The commands on their way are those of the calls. -/
structure Matched (commands : Regulator.State) : Prop where
  queue : ∀ cmd ∈ commands.queue, ∃ k, commands.calls cmd.call = some k ∧ k.request = cmd.request
  reg : ∀ cmd, commands.reg.command = some cmd → ∃ k, commands.calls cmd.call = some k ∧
    k.request = cmd.request

/-- The invariant. -/
structure Inv (s : State) : Prop where
  calls : ∀ id c, s.calls id = some c → CallInv s.register s.commands id c
  fresh : ∀ id c, s.calls id = some c → c.phase = .entered → s.commands.calls id = none
  matched : Matched s.commands

/-- A call goes on with its invariant when the commands change, if its own is claimed and finished
no more than before, except for a write that has been carried out. -/
lemma CallInv.move {register id : ℕ} {m n : Regulator.State} {c : Call}
    (h : CallInv register m id c)
    (hcalls : c.phase = .commanded → ∀ k, m.calls id = some k → ∃ k', n.calls id = some k' ∧
      k'.request = k.request ∧ (n.Claims k' → m.Claims k ∨ c.carried = true))
    (hfinished : c.phase = .commanded → ∀ cmd, Enable.finished n.reg = some cmd → cmd.call = id →
      Enable.finished m.reg = some cmd ∨ c.carried = true) :
    CallInv register n id c := by
  refine ⟨h.carried, h.seen, ?_, ?_, h.returned⟩
  · intro hphase
    obtain ⟨k, hk, hrequest, hclaims⟩ := h.command hphase
    obtain ⟨k', hk', hsame, hclaims'⟩ := hcalls hphase k hk
    refine ⟨k', hk', hsame.trans hrequest, fun hclaim => ?_⟩
    rcases hclaims' hclaim with hbefore | hcarried
    · exact hclaims hbefore
    · exact hcarried
  · intro hphase cmd hcmd hid
    rcases hfinished hphase cmd hcmd hid with hbefore | hcarried
    · exact h.finished hphase cmd hbefore hid
    · exact hcarried

/-- A call sees the value the register takes. -/
lemma CallInv.see {register id : ℕ} {m : Regulator.State} {c : Call}
    (h : CallInv register m id c) (v : ℕ) : CallInv v m id (c.see v) := by
  have hmono : c.seen = true → (c.see v).seen = true := by
    intro hseen
    rw [Call.see, hseen, Bool.true_or]
  refine ⟨fun hcarried => hmono (h.carried hcarried), ?_, h.command, h.finished,
    fun hphase => hmono (h.returned hphase)⟩
  intro hphase hvalue
  have hphase : c.phase.isReturned = false := hphase
  have hvalue : v = value c.state := hvalue
  rw [Call.see, hphase, decide_eq_true hvalue, Bool.not_false, Bool.true_and, Bool.or_true]

/-- The register takes another value. -/
lemma Inv.setRegister {s : State} (hinv : Inv s) (v : ℕ) : Inv (s.setRegister v) := by
  refine ⟨?_, ?_, hinv.matched⟩
  · intro id c hc
    obtain ⟨c', hc', rfl⟩ := Option.map_eq_some_iff.mp hc
    exact (hinv.calls id c' hc').see v
  · intro id c hc hphase
    obtain ⟨c', hc', rfl⟩ := Option.map_eq_some_iff.mp hc
    exact hinv.fresh id c' hc' hphase

/-- A call after a change of one is that one, or another as it was. -/
lemma State.calls_update {s : State} {id i : ℕ} {c k : Call}
    (h : (s.update id c).calls i = some k) : i = id ∧ k = c ∨ i ≠ id ∧ s.calls i = some k :=
  (Machine.entry_of_update h).imp_left fun ⟨hi, hk⟩ => ⟨hi, (Option.some.inj hk).symm⟩

/-- A call changes. -/
lemma Inv.update {s : State} (hinv : Inv s) {id : ℕ} {c : Call}
    (hc : CallInv s.register s.commands id c)
    (hfresh : c.phase = .entered → s.commands.calls id = none) : Inv (s.update id c) := by
  refine ⟨?_, ?_, hinv.matched⟩
  · intro i k hk
    rcases State.calls_update hk with ⟨rfl, rfl⟩ | ⟨-, hk⟩
    · exact hc
    · exact hinv.calls i k hk
  · intro i k hk hphase
    rcases State.calls_update hk with ⟨rfl, rfl⟩ | ⟨-, hk⟩
    · exact hfresh hphase
    · exact hinv.fresh i k hk hphase

/-- The commands change. -/
lemma Inv.move {s : State} (hinv : Inv s) {n : Regulator.State} (hmatched : Matched n)
    (hfresh : ∀ id c, s.calls id = some c → s.commands.calls id = none → n.calls id = none)
    (hcalls : ∀ id c, s.calls id = some c → c.phase = .commanded → ∀ k,
      s.commands.calls id = some k → ∃ k', n.calls id = some k' ∧ k'.request = k.request ∧
        (n.Claims k' → s.commands.Claims k ∨ c.carried = true))
    (hfinished : ∀ id c, s.calls id = some c → c.phase = .commanded → ∀ cmd,
      finished n.reg = some cmd → cmd.call = id →
        finished s.commands.reg = some cmd ∨ c.carried = true) :
    Inv { s with commands := n } :=
  ⟨fun id c hc => (hinv.calls id c hc).move (hcalls id c hc) (hfinished id c hc),
    fun id c hc hphase => hfresh id c hc (hinv.fresh id c hc hphase), hmatched⟩

/-! ### Steps -/

/-- The ticks, the other transactions of the regulator loop and its update of `connected` leave the
commands. -/
lemma quiet_step {m n : Regulator.State} {e : Regulator.Event}
    (he : e = .tick ∨ (∃ answered, e = .exchange answered) ∨ e = .publish)
    (h : Regulator.step m e = some n) :
    n.calls = m.calls ∧ n.queue = m.queue ∧ n.reg = m.reg ∧ n.semaphores = m.semaphores := by
  rcases he with rfl | ⟨answered, rfl⟩ | rfl
  · obtain rfl := Option.some.inj h
    exact ⟨rfl, rfl, rfl, rfl⟩
  · simp only [Regulator.step] at h
    split at h
    · next hreg =>
        obtain rfl := Option.some.inj h
        exact ⟨rfl, rfl, rfl, rfl⟩
    · cases h
  · simp only [Regulator.step] at h
    split at h
    · next hreg =>
        obtain rfl := Option.some.inj h
        exact ⟨rfl, rfl, rfl, rfl⟩
    · cases h

/-- Such a step keeps the invariant. -/
lemma Inv.quiet {s : State} (hinv : Inv s) {n : Regulator.State}
    (h : n.calls = s.commands.calls ∧ n.queue = s.commands.queue ∧ n.reg = s.commands.reg ∧
      n.semaphores = s.commands.semaphores) : Inv { s with commands := n } := by
  obtain ⟨hcalls, hqueue, hreg, hsemaphores⟩ := h
  refine hinv.move ⟨?_, ?_⟩ ?_ ?_ ?_
  · rw [hqueue, hcalls]
    exact hinv.matched.queue
  · rw [hreg, hcalls]
    exact hinv.matched.reg
  · intro id c _ hnone
    rw [hcalls]
    exact hnone
  · intro id c _ _ k hk
    rw [hcalls]
    exact ⟨k, hk, rfl, fun hclaims => Or.inl (hclaims.congr hsemaphores)⟩
  · intro id c _ _ cmd hcmd _
    rw [← hreg]
    exact Or.inl hcmd

/-- Commands that are on their way stay those of their calls when another call is entered. -/
lemma Matched.enter {m n : Regulator.State} (hm : Matched m) {id : ℕ} {request : Request}
    (h : Regulator.step m (.enter id request) = some n) :
    Matched n ∧ m.calls id = none ∧ n.reg = m.reg ∧
      n.calls = Function.update m.calls id (some (Regulator.Call.new request)) ∧
      n.semaphores = m.semaphores := by
  simp only [Regulator.step] at h
  split_ifs at h with hfresh
  obtain rfl := Option.some.inj h
  refine ⟨⟨fun cmd hcmd => ?_, fun cmd hcmd => ?_⟩, hfresh, rfl, rfl, rfl⟩
  · obtain ⟨k, hk, hrequest⟩ := hm.queue cmd hcmd
    exact ⟨k, Machine.entry_update_of_fresh hfresh hk, hrequest⟩
  · obtain ⟨k, hk, hrequest⟩ := hm.reg cmd hcmd
    exact ⟨k, Machine.entry_update_of_fresh hfresh hk, hrequest⟩

/-- A command is entered, by another task or by a call. -/
lemma Inv.enter {s : State} (hinv : Inv s) {n : Regulator.State} {id : ℕ} {request : Request}
    (h : Regulator.step s.commands (.enter id request) = some n)
    (hfresh : s.calls id = none) : Inv { s with commands := n } := by
  obtain ⟨hmatched, -, hreg, hcalls, hsemaphores⟩ := hinv.matched.enter h
  have hother : ∀ i c, s.calls i = some c → n.calls i = s.commands.calls i := by
    intro i c hc
    rw [hcalls, Function.update_of_ne (Machine.ne_of_fresh hfresh hc)]
  refine hinv.move hmatched ?_ ?_ ?_
  · intro i c hc hnone
    rw [hother i c hc]
    exact hnone
  · intro i c hc _ k hk
    exact ⟨k, (hother i c hc).trans hk, rfl, fun hclaims => Or.inl (hclaims.congr hsemaphores)⟩
  · intro i c _ _ cmd hcmd _
    rw [← hreg]
    exact Or.inl hcmd

/-- A call goes on to its command. -/
lemma Inv.commanded {s : State} (hinv : Inv s) {n : Regulator.State} {id : ℕ} {c : Call}
    (hc : s.calls id = some c) (hphase : c.phase = .entered)
    (h : Regulator.step s.commands (.enter id enableRequest) = some n) :
    Inv (State.update { s with commands := n } id { c with phase := .commanded }) := by
  obtain ⟨hmatched, hnone, hreg, hcalls, hsemaphores⟩ := hinv.matched.enter h
  have hcall := hinv.calls id c hc
  refine ⟨?_, ?_, hmatched⟩
  · intro i k hk
    rcases State.calls_update hk with ⟨rfl, rfl⟩ | ⟨hi, hk⟩
    · refine ⟨hcall.carried, fun _ => hcall.seen (by rw [hphase]; rfl), fun _ => ?_, ?_, ?_⟩
      · refine ⟨Regulator.Call.new enableRequest, ?_, rfl, fun hclaims => ?_⟩
        · change n.calls i = _
          rw [hcalls, Function.update_self]
        · rcases hclaims with hgiven | hclaims
          · cases hgiven.1
          · cases hclaims
      · intro _ cmd hcmd hid
        -- a command of this name is not on its way yet
        have hworking : s.commands.reg.command = some cmd := by
          rw [← hreg]
          exact command_of_finished hcmd
        obtain ⟨k, hk, -⟩ := hinv.matched.reg cmd hworking
        rw [hid, hnone] at hk
        cases hk
      · intro hreturned
        cases hreturned
    · refine (hinv.calls i k hk).move (fun _ l hl => ⟨l, ?_, rfl, fun hclaims =>
        Or.inl (hclaims.congr hsemaphores)⟩) fun _ cmd hcmd _ => ?_
      · change n.calls i = _
        rw [hcalls, Function.update_of_ne hi]
        exact hl
      · change finished n.reg = some cmd at hcmd
        rw [← hreg]
        exact Or.inl hcmd
  · intro i k hk hentered
    rcases State.calls_update hk with ⟨rfl, rfl⟩ | ⟨hi, hk⟩
    · cases hentered
    · change n.calls i = none
      rw [hcalls, Function.update_of_ne hi]
      exact hinv.fresh i k hk hentered

/-- A step of a call keeps the invariant. -/
lemma Inv.enable {s t : State} (hinv : Inv s) {id : ℕ} (hok : Current s (.enable id))
    (h : Enable.step s (.enable id) = some t) : Inv t := by
  obtain ⟨c, hc, hstep⟩ := Option.bind_eq_some_iff.mp h
  have hcall := hinv.calls id c hc
  unfold enableStep at hstep
  split at hstep
  · next hphase =>
      split_ifs at hstep with hskip
      · obtain rfl := Option.some.inj hstep
        have hseen : c.seen = true :=
          hcall.seen (by rw [hphase]; rfl) ((hok c hc hphase hskip).trans hskip.symm)
        exact hinv.update ⟨hcall.carried, fun _ _ => hseen, fun hp => (by cases hp),
          fun hp => (by cases hp), fun _ => hseen⟩ fun hp => (by cases hp)
      · obtain ⟨n, hn, rfl⟩ := Option.map_eq_some_iff.mp hstep
        exact hinv.commanded hc hphase hn
  · next hphase =>
      obtain ⟨k, hk, hreturn⟩ := Option.bind_eq_some_iff.mp hstep
      obtain ⟨k', hk', -, hclaims⟩ := hcall.command hphase
      obtain rfl := Option.some.inj (hk.symm.trans hk')
      split at hreturn
      · next result hresult =>
          obtain rfl := Option.some.inj hreturn
          refine hinv.update ⟨hcall.carried, fun hp => (by cases hp), fun hp => (by cases hp),
            fun hp => (by cases hp), fun hp => ?_⟩ fun hp => (by cases hp)
          obtain rfl := Phase.returned.inj hp
          exact hcall.carried (hclaims (Or.inr (by rw [hresult]; rfl)))
      · cases hreturn
  · cases hstep

/-- A step of a call of `reg_waitCommand` keeps the invariant. -/
lemma Inv.issuer {s : State} (hinv : Inv s) (hown : Owned s.commands) {n : Regulator.State}
    {id : ℕ} {alloc : Option ℕ} (hok : Current s (.command (.issuer id alloc)))
    (h : Regulator.step s.commands (.issuer id alloc) = some n) :
    Inv { s with commands := n } := by
  obtain ⟨k, k', hk, hnext, hn⟩ := issuerStep_eq h
  have hcalls : n.calls = Function.update s.commands.calls id (some k') := by rw [hn]
  have hheap : n.semaphores = k.heap alloc s.commands.semaphores := by rw [hn]
  have hqueue : n.queue = k.send id s.commands.queue := by rw [hn]
  have hreg : n.reg = s.commands.reg := by rw [hn]
  obtain ⟨hrequest, -⟩ := Call.next_history hnext
  have hself : n.calls id = some k' := by rw [hcalls, Function.update_self]
  have hother : ∀ i, i ≠ id → n.calls i = s.commands.calls i := by
    intro i hi
    rw [hcalls, Function.update_of_ne hi]
  have hold : ∀ cmd : Command, (∃ l, s.commands.calls cmd.call = some l ∧
      l.request = cmd.request) → ∃ l, n.calls cmd.call = some l ∧ l.request = cmd.request := by
    rintro cmd ⟨l, hl, hsame⟩
    by_cases hi : cmd.call = id
    · rw [hi] at hl ⊢
      obtain rfl := Option.some.inj (hk.symm.trans hl)
      exact ⟨k', hself, hrequest.trans hsame⟩
    · exact ⟨l, (hother _ hi).trans hl, hsame⟩
  refine hinv.move ⟨fun cmd hcmd => ?_, fun cmd hcmd => ?_⟩ ?_ ?_ fun _ _ _ _ cmd hcmd _ => ?_
  · rw [hqueue, Regulator.Call.send] at hcmd
    split_ifs at hcmd
    · rcases List.mem_append.mp hcmd with hcmd | hcmd
      · exact hold cmd (hinv.matched.queue cmd hcmd)
      · rw [List.mem_singleton.mp hcmd]
        exact hold _ ⟨k, hk, rfl⟩
    · exact hold cmd (hinv.matched.queue cmd hcmd)
  · rw [hreg] at hcmd
    exact hold cmd (hinv.matched.reg cmd hcmd)
  · intro i c _ hnone
    by_cases hi : i = id
    · rw [hi, hk] at hnone
      cases hnone
    · exact (hother i hi).trans hnone
  · intro i c hc hphase l hl
    by_cases hi : i = id
    · subst hi
      obtain rfl := Option.some.inj (hk.symm.trans hl)
      refine ⟨k', hself, hrequest, fun hclaims => ?_⟩
      rcases Call.claims_of_next hnext hheap hclaims with hbefore | hdeletes
      · exact Or.inl hbefore
      · exact Or.inr (hok.2 k hk hdeletes c hc hphase)
    · exact ⟨l, (hother i hi).trans hl, rfl, fun hclaims =>
        Or.inl (hown.claims_of_issuer hk hnext hheap hi hl hclaims)⟩
  · rw [hreg] at hcmd
    exact Or.inl hcmd

/-- The receipt of a command keeps the invariant. -/
lemma Inv.receive {s : State} (hinv : Inv s) {n : Regulator.State}
    (h : Regulator.step s.commands .receive = some n) : Inv { s with commands := n } := by
  simp only [Regulator.step] at h
  split at h
  · next cmd rest hreg hqueue =>
      obtain rfl := Option.some.inj h
      have hmem := hinv.matched.queue
      rw [hqueue] at hmem
      refine hinv.move ⟨fun c hc => hmem c (List.mem_cons_of_mem _ hc), fun c hc => ?_⟩
        (fun _ _ _ hnone => hnone) (fun _ _ _ _ k hk => ⟨k, hk, rfl, fun hclaims => Or.inl hclaims⟩)
        fun _ _ _ _ c hc _ => (by cases hc)
      obtain rfl := Option.some.inj hc
      exact hmem cmd List.mem_cons_self
  · cases h

/-- The regulator task goes through the transactions of a command by a last try or an answered
one. -/
lemma finished_of_process {m n : Regulator.State} {answered : Bool} {cmd cmd' : Command}
    (h : processStep m answered = some n) (hcmd : m.reg.command = some cmd)
    (hfinished : finished n.reg = some cmd') :
    finished m.reg = some cmd' ∨
      (∃ tries, m.reg = .written cmd tries ∧ (answered = true ∨ tries = 1)) ∨
      cmd.request.writeNum = 0 := by
  cases processed_of_processStep h with
  | @begins c hreg _ =>
      have hc : m.reg.command = some c := hreg ▸ rfl
      obtain rfl : c = cmd := Option.some.inj (hc.symm.trans hcmd)
      simp only [writePart] at hfinished
      split_ifs at hfinished with hwrite
      · cases hfinished
      · exact Or.inr (Or.inr (not_not.mp hwrite))
  | @writes c tries hreg hanswered =>
      have hc : m.reg.command = some c := hreg ▸ rfl
      obtain rfl : c = cmd := Option.some.inj (hc.symm.trans hcmd)
      exact Or.inr (Or.inl ⟨_, hreg, Or.inl hanswered⟩)
  | @failsWrite c hreg _ =>
      have hc : m.reg.command = some c := hreg ▸ rfl
      obtain rfl : c = cmd := Option.some.inj (hc.symm.trans hcmd)
      exact Or.inr (Or.inl ⟨_, hreg, Or.inr rfl⟩)
  | reads hreg _ | failsRead hreg _ | repeatsRead hreg _ | stores hreg =>
      rw [hreg]
      exact Or.inl hfinished
  | expires _ _ | sends _ | repeatsWrite _ _ | gives _ => cases hfinished

/-- What is carried out leaves the commands. -/
lemma carryOut_commands (s : State) (o : Outcome) : (carryOut s o).commands = s.commands := by
  unfold carryOut
  split
  · split
    · split_ifs <;> rfl
    · rfl
  · rfl

/-- Nothing is carried out of a try that is lost. -/
lemma carryOut_lost (s : State) : carryOut s .lost = s := by
  unfold carryOut
  split
  · split
    · rw [if_neg fun h => h.1 rfl]
    · rfl
  · rfl

/-- A write of a call in progress is recorded. -/
lemma carried_carryOut {s : State} {o : Outcome} {cmd : Command} {tries : ℕ} {c : Call}
    (hreg : s.commands.reg = .written cmd tries) (ho : o ≠ .lost)
    (hc : (carryOut s o).calls cmd.call = some c) (hphase : c.phase = .commanded) :
    c.carried = true := by
  unfold carryOut at hc
  rw [hreg] at hc
  cases hcall : s.calls cmd.call with
  | none =>
      simp only [hcall] at hc
      cases hc
  | some k =>
      simp only [hcall] at hc
      split_ifs at hc with hwrite
      · simp only [State.update, Function.update_self] at hc
        rw [← Option.some.inj hc]
      · obtain rfl := Option.some.inj (hcall.symm.trans hc)
        exact absurd ⟨ho, hphase⟩ hwrite

/-- What is carried out keeps the invariant: the register takes the value of the call. -/
lemma Inv.carryOut {s : State} (hinv : Inv s) (o : Outcome) : Inv (carryOut s o) := by
  unfold Enable.carryOut
  split
  · next cmd tries hreg =>
      split
      · next c hc =>
          split_ifs with hwrite
          · have hsees := (hinv.calls cmd.call c hc).see (value c.state)
            have hseen : (c.see (value c.state)).seen = true :=
              hsees.seen (by rw [Call.see, hwrite.2]; rfl) rfl
            refine (hinv.setRegister _).update ⟨fun _ => hseen, hsees.seen, fun hp => ?_,
              fun _ _ _ _ => rfl, fun _ => hseen⟩ fun hp => ?_
            · obtain ⟨k, hk, hrequest, -⟩ := hsees.command hp
              exact ⟨k, hk, hrequest, fun _ => rfl⟩
            · have hp : c.phase = .entered := hp
              rw [hwrite.2] at hp
              cases hp
          · exact hinv
      · exact hinv
  · exact hinv

/-- The calls after a step of the regulator task on a command: they have made the same request, and
claim nothing new unless the command's semaphore is given, which only its own call holds. -/
lemma calls_of_process {m n : Regulator.State} {answered : Bool} (hown : Owned m)
    (hlife : LifeInv m) (h : processStep m answered = some n) :
    ∃ cmd, m.reg.command = some cmd ∧ n.queue = m.queue ∧
      (∀ cmd', n.reg.command = some cmd' → cmd' = cmd) ∧
      (∀ i, m.calls i = none → n.calls i = none) ∧
      ∀ i k, m.calls i = some k → ∃ k', n.calls i = some k' ∧ k'.request = k.request ∧
        (n.Claims k' → m.Claims k ∨ i = cmd.call ∧ finished m.reg = some cmd) := by
  obtain ⟨cmd, hcmd, ⟨f, reg, rfl, hf, hreg⟩ | ⟨hgiving, rfl⟩⟩ := processStep_cases h
  · refine ⟨cmd, hcmd, rfl, fun cmd' hcmd' => ?_, fun i hnone => ?_, fun i k hk => ?_⟩
    · rcases hreg with rfl | ⟨hexec, -⟩
      · cases hcmd'
      · exact Option.some.inj (hcmd'.symm.trans hexec.1)
    · simp only [Regulator.State.update]
      by_cases hi : i = cmd.call
      · rw [hi] at hnone ⊢
        rw [Function.update_self, hnone, Option.map_none]
      · rw [Function.update_of_ne hi, hnone]
    · simp only [Regulator.State.update]
      by_cases hi : i = cmd.call
      · rw [hi] at hk ⊢
        obtain ⟨hphase, hrequest, -, -, hsem⟩ := hf k
        refine ⟨f k, by rw [Function.update_self, hk, Option.map_some], hrequest,
          fun hclaims => Or.inl ?_⟩
        unfold Regulator.State.Claims Regulator.State.Given at hclaims ⊢
        rwa [hphase, hsem] at hclaims
      · exact ⟨k, by rw [Function.update_of_ne hi, hk], rfl, Or.inl⟩
  · refine ⟨cmd, hcmd, rfl, fun _ h => (by cases h), fun _ hnone => hnone, fun i k hk => ?_⟩
    refine ⟨k, hk, rfl, fun hclaims => ?_⟩
    by_cases hi : i = cmd.call
    · exact Or.inr ⟨hi, by rw [hgiving]; rfl⟩
    · obtain ⟨c, hc, hsem, hholds⟩ :=
        hlife.holds_of_executes (by rw [hgiving]; exact ⟨rfl, rfl⟩)
      refine Or.inl (hclaims.imp_left fun hg => ⟨hg.1, ?_⟩)
      rw [← hg.2]
      refine (give_of_ne fun heq => hi ?_).symm
      exact hown.own i cmd.call k c hk hc hg.1 hholds (heq.trans hsem.symm)

/-- A step of the regulator task on its command keeps the invariant. -/
lemma Inv.process {s t : State} (hinv : Inv s) (hown : Owned s.commands)
    (hlife : LifeInv s.commands) {o : Outcome} (hok : Current s (.process o))
    (h : Enable.step s (.process o) = some t) : Inv t := by
  obtain ⟨n, hn, rfl⟩ := Option.map_eq_some_iff.mp h
  obtain ⟨cmd, hcmd, hqueue, hsame, hnone, hcalls⟩ := calls_of_process hown hlife hn
  have hcarry := hinv.carryOut o
  have hcommands := carryOut_commands s o
  have hold : ∀ cmd' : Command, (∃ k, s.commands.calls cmd'.call = some k ∧
      k.request = cmd'.request) → ∃ k, n.calls cmd'.call = some k ∧ k.request = cmd'.request := by
    rintro cmd' ⟨k, hk, hrequest⟩
    obtain ⟨k', hk', hsame', -⟩ := hcalls _ k hk
    exact ⟨k', hk', hsame'.trans hrequest⟩
  refine hcarry.move ⟨fun c hc => ?_, fun c hc => ?_⟩ ?_ ?_ ?_
  · rw [hqueue] at hc
    exact hold c (hinv.matched.queue c hc)
  · obtain rfl := hsame c hc
    exact hold c (hinv.matched.reg c hcmd)
  · intro i c _ hi
    rw [hcommands] at hi
    exact hnone i hi
  · intro i c hc hphase k hk
    rw [hcommands] at hk ⊢
    obtain ⟨k', hk', hrequest, hclaims⟩ := hcalls i k hk
    refine ⟨k', hk', hrequest, fun hclaim => (hclaims hclaim).imp_right fun ⟨hi, hgiving⟩ => ?_⟩
    refine (hcarry.calls i c hc).finished hphase cmd ?_ hi.symm
    rw [hcommands]
    exact hgiving
  · intro i c hc hphase cmd' hcmd' hid
    rw [hcommands]
    rcases finished_of_process hn hcmd hcmd' with hbefore | ⟨tries, hreg, hlast⟩ | hzero
    · exact Or.inl hbefore
    · rw [← hid, hsame cmd' (command_of_finished hcmd')] at hc
      refine Or.inr ?_
      by_cases ho : o = .lost
      · subst ho
        rw [carryOut_lost] at hc
        have hone : tries = 1 := by
          rcases hlast with hans | hone
          · exact absurd (of_decide_eq_true hans) (by decide)
          · exact hone
        have hcurrent := hok.2
        rw [hreg] at hcurrent
        exact hcurrent hone rfl c hc hphase
      · exact carried_carryOut hreg ho hc hphase
    · -- the command of a call writes
      obtain ⟨k, hk, hrequest, -⟩ := (hcarry.calls i c hc).command hphase
      obtain ⟨k', hk', hrequest'⟩ := hinv.matched.reg cmd hcmd
      rw [hcommands, ← hid, hsame cmd' (command_of_finished hcmd')] at hk
      obtain rfl := Option.some.inj (hk.symm.trans hk')
      rw [← hrequest', hrequest] at hzero
      exact absurd hzero Nat.one_ne_zero

/-! ### Runs -/

/-- What a step does with the commands is a step of theirs, in time. -/
lemma commands_step {s t : State} {e : Event} (hok : Current s e)
    (h : Enable.step s e = some t) : t.commands = s.commands ∨
      ∃ e', Timely s.commands e' ∧ Regulator.step s.commands e' = some t.commands := by
  cases e with
  | command e =>
      cases e with
      | process answered => cases h
      | enter id request =>
          simp only [Enable.step] at h
          split_ifs at h
          obtain ⟨n, hn, rfl⟩ := Option.map_eq_some_iff.mp h
          exact Or.inr ⟨.enter id request, trivial, hn⟩
      | issuer id alloc =>
          obtain ⟨n, hn, rfl⟩ := Option.map_eq_some_iff.mp h
          exact Or.inr ⟨.issuer id alloc, hok.1, hn⟩
      | tick =>
          obtain rfl := Option.some.inj h
          exact Or.inr ⟨.tick, trivial, rfl⟩
      | receive =>
          obtain ⟨n, hn, rfl⟩ := Option.map_eq_some_iff.mp h
          exact Or.inr ⟨.receive, trivial, hn⟩
      | exchange answered =>
          obtain ⟨n, hn, rfl⟩ := Option.map_eq_some_iff.mp h
          exact Or.inr ⟨.exchange answered, trivial, hn⟩
      | publish =>
          obtain ⟨n, hn, rfl⟩ := Option.map_eq_some_iff.mp h
          exact Or.inr ⟨.publish, trivial, hn⟩
  | enableSet id state =>
      simp only [Enable.step] at h
      split_ifs at h
      obtain rfl := Option.some.inj h
      exact Or.inl rfl
  | enable id =>
      obtain ⟨c, -, hstep⟩ := Option.bind_eq_some_iff.mp h
      unfold enableStep at hstep
      split at hstep
      · split_ifs at hstep
        · obtain rfl := Option.some.inj hstep
          exact Or.inl rfl
        · obtain ⟨n, hn, rfl⟩ := Option.map_eq_some_iff.mp hstep
          exact Or.inr ⟨.enter id enableRequest, trivial, hn⟩
      · obtain ⟨k, -, hreturn⟩ := Option.bind_eq_some_iff.mp hstep
        split at hreturn
        · obtain rfl := Option.some.inj hreturn
          exact Or.inl rfl
        · cases hreturn
      · cases hstep
  | refresh answered =>
      obtain ⟨n, hn, rfl⟩ := Option.map_eq_some_iff.mp h
      exact Or.inr ⟨.exchange answered, trivial, hn⟩
  | change v =>
      obtain rfl := Option.some.inj h
      exact Or.inl rfl
  | process o =>
      obtain ⟨n, hn, rfl⟩ := Option.map_eq_some_iff.mp h
      exact Or.inr ⟨.process (o = .answered), hok.1, hn⟩

/-- A step that meets the condition keeps the invariant. -/
theorem Inv.step {s t : State} {e : Event} (hinv : Inv s) (hown : Owned s.commands)
    (hlife : LifeInv s.commands) (hok : Current s e) (h : Enable.step s e = some t) : Inv t := by
  cases e with
  | command e =>
      cases e with
      | process answered => cases h
      | enter id request =>
          simp only [Enable.step] at h
          split_ifs at h with hfresh
          obtain ⟨n, hn, rfl⟩ := Option.map_eq_some_iff.mp h
          exact hinv.enter hn hfresh
      | issuer id alloc =>
          obtain ⟨n, hn, rfl⟩ := Option.map_eq_some_iff.mp h
          exact hinv.issuer hown hok hn
      | receive =>
          obtain ⟨n, hn, rfl⟩ := Option.map_eq_some_iff.mp h
          exact hinv.receive hn
      | tick =>
          obtain rfl := Option.some.inj h
          exact hinv.quiet ⟨rfl, rfl, rfl, rfl⟩
      | exchange answered =>
          obtain ⟨n, hn, rfl⟩ := Option.map_eq_some_iff.mp h
          exact hinv.quiet (quiet_step (Or.inr (Or.inl ⟨answered, rfl⟩)) hn)
      | publish =>
          obtain ⟨n, hn, rfl⟩ := Option.map_eq_some_iff.mp h
          exact hinv.quiet (quiet_step (Or.inr (Or.inr rfl)) hn)
  | enableSet id state =>
      simp only [Enable.step] at h
      split_ifs at h with hfresh
      obtain rfl := Option.some.inj h
      exact hinv.update ⟨fun hc => (by cases hc), fun _ hvalue => decide_eq_true hvalue,
        fun hp => (by cases hp), fun hp => (by cases hp), fun hp => (by cases hp)⟩
        fun _ => hfresh.2
  | enable id => exact hinv.enable hok h
  | refresh answered =>
      obtain ⟨n, hn, rfl⟩ := Option.map_eq_some_iff.mp h
      have hquiet := hinv.quiet (quiet_step (Or.inr (Or.inl ⟨answered, rfl⟩)) hn)
      exact ⟨hquiet.calls, hquiet.fresh, hquiet.matched⟩
  | change v =>
      obtain rfl := Option.some.inj h
      exact hinv.setRegister v
  | process o => exact hinv.process hown hlife hok h

/-- **An acknowledged enable is real as long as the copy is.** In every run of any calls of
`reg_enableSet` and any other commands, from any value of the register, in every interleaving with
the regulator loop, with the register changed by others at any time and with answers lost, whose
steps all meet `Current`: when a call has returned true, the register has had its value since the
call. -/
theorem real_of_current (register : ℕ) (es : List Event) (s : State)
    (hok : Machine.Meets Enable.step Current (init register) es)
    (hrun : Machine.run Enable.step (init register) es = some s) : Real s := by
  have hinit : Inv (init register) :=
    ⟨fun _ _ h => (by cases h), fun _ _ h => (by cases h),
      ⟨fun _ h => absurd h List.not_mem_nil, fun _ h => (by cases h)⟩⟩
  have hstep : ∀ s e t, Owned s.commands ∧ LifeInv s.commands ∧ Inv s → Current s e →
      Enable.step s e = some t → Owned t.commands ∧ LifeInv t.commands ∧ Inv t := by
    rintro s e t ⟨hown, hlife, hinv⟩ hs ht
    have hinv' := hinv.step hown hlife hs ht
    rcases commands_step hs ht with hsame | ⟨e', htimely, hcommands⟩
    · rw [hsame]
      exact ⟨hown, hlife, hinv'⟩
    · exact ⟨hown.step hcommands, hlife.step hown htimely hcommands, hinv'⟩
  obtain ⟨-, -, hinv⟩ :=
    Machine.run_induction hstep ⟨owned_init, lifeInv_init, hinit⟩ hok hrun
  intro id c hc hreturned
  exact (hinv.calls id c hc).returned hreturned

/-- The output is switched on by a command that is answered. -/
def commandRun : List Event :=
  [.enableSet 0 true, .enable 0] ++ List.replicate 6 (Event.command (.issuer 0 (some 0))) ++
    [Event.command .receive, Event.process .lost, Event.process .lost, Event.process .answered,
      Event.process .lost, Event.process .lost] ++
    List.replicate 3 (Event.command (.issuer 0 (some 0))) ++ [Event.enable 0]

/-- The call returns true, and the register has had its value. -/
theorem real_commandRun : ∃ s, Machine.run Enable.step (init 0) commandRun = some s ∧ Real s := by
  obtain ⟨s, hrun⟩ : ∃ s, Machine.run Enable.step (init 0) commandRun = some s :=
    Option.isSome_iff_exists.mp (by decide +kernel)
  exact ⟨s, hrun, real_of_current 0 commandRun s (by decide +kernel) hrun⟩

/-- The loop reads the register, a client switches the output on, and the panel switches it off. -/
def skippedRun : List Event := [.refresh true, .change 1, .enableSet 0 false, .enable 0]

/-- **The output stays on.** The call finds its value in the copy and returns true, and the register
has had another value all the time. -/
theorem not_real_skippedRun :
    ¬ ∀ register es s, Machine.run Enable.step (init register) es = some s → Real s := by
  intro hall
  have hview : (Machine.run Enable.step (init 0) skippedRun).map
      (fun s => (s.register, (s.calls 0).map fun c => (c.phase, c.seen))) =
        some (1, some (.returned true, false)) := by
    decide +kernel
  obtain ⟨s, hrun, hs⟩ := Option.map_eq_some_iff.mp hview
  obtain ⟨c, hc, hcall⟩ := Option.map_eq_some_iff.mp (Prod.mk.inj hs).2
  obtain ⟨hphase, hseen⟩ := Prod.mk.inj hcall
  rw [hall 0 skippedRun s hrun 0 c hc hphase] at hseen
  cases hseen

end PanelFirmware.Regulator.Enable
