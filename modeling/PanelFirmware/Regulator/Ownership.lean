import PanelFirmware.Regulator.Bridge

/-!
# `regulator/src/regulatorConnTSK.c`: whose target the regulator has

The TCP task sets a flag before it posts a request and clears it when the connection is closed. The
regulator task tests the flag once in its loop, where it writes the target of the panel, and looks
for a request at another point. The machine is the one of the mailbox in the regulator's loop.

* `Owned`: between the post of a request and a write of the target after a request has been
  transmitted the connection is closed.
* `owned_of_run`: over all runs.
-/

namespace PanelFirmware.Regulator.Ownership

open PanelFirmware.Lib PanelFirmware.Libmodbus

/-- What the two tasks do, in order: a request is posted, the connection is closed, a request is
transmitted to the regulator, the panel's target is. -/
inductive Action
  | posted
  | closed
  | transmitted
  | target
  deriving DecidableEq

/-- Where the regulator task is in its loop: at the test of the flag, in `writeRegs` with the number
of tries that are left, and after it. -/
inductive Loop
  | test
  | writing (tries : ℕ)
  | rest
  deriving DecidableEq

/-- The state of the system: the mailbox, the flag, whether the TCP task has set it for a request
that it has not copied yet, the regulator task's place, and the record of the actions.
Source: `regulatorConnTSK.c` `gremote`. -/
structure State where
  mailbox : Bridge.State
  gremote : Bool
  entered : Bool
  loop : Loop
  log : List Action

/-- What can happen next: a tick; the TCP task with a request for the regulator, with the request
copied, in its call, or with a connection that has failed or whose link is down; the regulator task
outside `writeRegs`, with a try of it and its outcome, and with an answer to a request. -/
inductive Event
  | tick
  | setremote
  | enter (req reqLength : ℕ) (packet : Buffer) (length : BitVec 16)
  | tcp
  | closedConnection
  | reg
  | target (answered : Bool)
  | receive (reply : Bridge.Reply)

/-- The TCP task is not in `reg_modbusRequest`. -/
def outside (tcp : Bridge.TcpPhase) : Bool :=
  match tcp with
  | .outside | .returned _ => true
  | .entered | .dataStored | .lenStored | .waiting _ | .woken _ => false

/-- The action of a step of the TCP task in its call: it posts a request when it stores the pointer
to it. -/
def tcpAction : Bridge.TcpPhase → List Action
  | .entered => [.posted]
  | .outside | .dataStored | .lenStored | .waiting _ | .woken _ | .returned _ => []

/-- The action of a step of the regulator task that serves requests. -/
def regAction : Bridge.RegPhase → List Action
  | .called _ _ => [.transmitted]
  | .polling | .tested | .dataLoaded _ | .sent _ _ | .received _ _ _ | .done _ | .stored
  | .cleared => []

/-- A step of the regulator task outside `writeRegs`. It goes round its loop when it finds no
request and when it has served one. Source: `regulatorConnTSK.c` `regulatorConnTSK`. -/
def regStep (s : State) : Option State :=
  match s.loop with
  | .test => some { s with loop := if s.gremote = false then .writing 3 else .rest }
  | .writing 0 => some { s with loop := .rest }
  | .writing (_ + 1) => none
  | .rest => (Bridge.regStep s.mailbox).map fun mailbox =>
      { s with
        mailbox
        loop := if mailbox.reg = .polling then .test else .rest
        log := s.log ++ regAction s.mailbox.reg }

/-- A step of the system. Source: `regulatorTcpRequest.c` `reg_tcpModbusRequest`,
`reg_tcpModbusClosedConnection`; `porttcp.cpp` `xMBTCPPortGetRequest`; `regulatorConnTSK.c`
`regulatorConnTSK`, `writeRegs`. -/
def step (s : State) : Event → Option State
  | .tick => some { s with mailbox := { s.mailbox with now := s.mailbox.now + 1 } }
  | .setremote =>
      if outside s.mailbox.tcp ∧ s.entered = false then
        some { s with gremote := true, entered := true }
      else none
  | .enter req reqLength packet length =>
      if outside s.mailbox.tcp ∧ s.entered = true then
        some { s with
          mailbox := Bridge.enter s.mailbox req reqLength packet length
          entered := false }
      else none
  | .tcp => (Bridge.tcpStep s.mailbox).map fun mailbox =>
      { s with mailbox, log := s.log ++ tcpAction s.mailbox.tcp }
  | .closedConnection =>
      if outside s.mailbox.tcp ∧ s.entered = false then
        some { s with gremote := false, log := s.log ++ [.closed] }
      else none
  | .reg => regStep s
  | .target answered =>
      match s.loop with
      | .writing (tries + 1) =>
          some { s with
            loop := if answered then .rest else .writing tries
            log := s.log ++ [.target] }
      | .test | .writing 0 | .rest => none
  | .receive reply =>
      (Bridge.receiveStep s.mailbox reply).map fun mailbox => { s with mailbox }

/-- The start. Source: `regulatorConnTSK.c`, the static variables. -/
def init : State := ⟨Bridge.init, false, false, .test, []⟩

/-! ### Ownership -/

/-- Between the post of a request and a write of the target, if a request has been transmitted
after the post and before the write, the connection has been closed. -/
def Owned (log : List Action) : Prop :=
  ∀ p q r t, log = p ++ .posted :: (q ++ .transmitted :: (r ++ .target :: t)) → .closed ∈ q ++ r

/-- The connection has been closed after every post. -/
def Closed (log : List Action) : Prop := ∀ p q, log = p ++ .posted :: q → .closed ∈ q

/-- The connection has been closed after every post that has a transmission after it. -/
def Released (log : List Action) : Prop :=
  ∀ p q r, log = p ++ .posted :: (q ++ .transmitted :: r) → .closed ∈ q ++ r

/-- An action at the end of the record is the one looked for, or that one is before it. -/
lemma concat_eq {log x y : List Action} {a b : Action} (h : log ++ [a] = x ++ b :: y) :
    y = [] ∧ a = b ∧ log = x ∨ ∃ z, y = z ++ [a] ∧ log = x ++ b :: z := by
  rcases List.eq_nil_or_concat y with rfl | ⟨z, c, rfl⟩
  · obtain ⟨hlog, hlast⟩ := List.append_inj' h rfl
    exact Or.inl ⟨rfl, (List.cons.inj hlast).1, hlog⟩
  · have hsplit : log ++ [a] = (x ++ b :: z) ++ [c] := by
      rw [h, List.concat_eq_append, List.append_assoc, List.cons_append]
    obtain ⟨hlog, hlast⟩ := List.append_inj' hsplit rfl
    obtain rfl := (List.cons.inj hlast).1
    exact Or.inr ⟨z, List.concat_eq_append, hlog⟩

/-- Where the connection has been closed after every post, it has been after those with a
transmission after them. -/
lemma Closed.released {log : List Action} (h : Closed log) : Released log := by
  intro p q r hlog
  have hmem := h p _ hlog
  rw [List.mem_append] at hmem ⊢
  rcases hmem with hq | hr
  · exact Or.inl hq
  · exact Or.inr (List.mem_of_ne_of_mem (by decide) hr)

/-- After a close the connection has been closed after every post. -/
lemma closed_concat (log : List Action) : Closed (log ++ [.closed]) := by
  intro p q hlog
  rcases concat_eq hlog with ⟨-, hne, -⟩ | ⟨z, rfl, -⟩
  · cases hne
  · exact List.mem_append_right _ List.mem_cons_self

/-- Actions other than a post leave it so. -/
lemma Closed.append {log : List Action} (h : Closed log) {a : Action} (ha : a ≠ .posted) :
    Closed (log ++ [a]) := by
  intro p q hlog
  rcases concat_eq hlog with ⟨-, hsame, -⟩ | ⟨z, rfl, hz⟩
  · exact absurd hsame ha
  · exact List.mem_append_left _ (h p z hz)

/-- Actions other than a transmission leave every transmission released. -/
lemma Released.append {log : List Action} (h : Released log) {a : Action}
    (ha : a ≠ .transmitted) : Released (log ++ [a]) := by
  intro p q r hlog
  have hsplit : log ++ [a] = (p ++ .posted :: q) ++ .transmitted :: r := by
    rw [hlog, List.append_assoc, List.cons_append]
  rcases concat_eq hsplit with ⟨-, hsame, -⟩ | ⟨z, rfl, hz⟩
  · exact absurd hsame ha
  · rw [List.append_assoc, List.cons_append] at hz
    rw [← List.append_assoc]
    exact List.mem_append_left _ (h p q z hz)

/-- One more action keeps ownership if every transmission is released before it, should it be a
write of the target. -/
lemma Owned.snoc {log : List Action} (h : Owned log) {a : Action}
    (ha : a = .target → Released log) : Owned (log ++ [a]) := by
  intro p q r t hlog
  have hsplit : log ++ [a] = (p ++ .posted :: (q ++ .transmitted :: r)) ++ .target :: t := by
    rw [hlog]
    simp only [List.append_assoc, List.cons_append]
  rcases concat_eq hsplit with ⟨-, hsame, hlast⟩ | ⟨z, rfl, hz⟩
  · exact ha hsame p q r hlast
  · refine h p q r z ?_
    rw [hz]
    simp only [List.append_assoc, List.cons_append]

/-- Actions other than a write of the target keep ownership. -/
lemma Owned.append {log : List Action} (h : Owned log) {a : Action} (ha : a ≠ .target) :
    Owned (log ++ [a]) :=
  h.snoc fun hsame => absurd hsame ha

/-- A write of the target keeps ownership where every transmission is released. -/
lemma Owned.target {log : List Action} (h : Owned log) (hreleased : Released log) :
    Owned (log ++ [.target]) :=
  h.snoc fun _ => hreleased

/-! ### Runs -/

/-- The invariant: the flag is set from before a request is copied until its call has returned;
while it is not set the connection has been closed after every post; in `writeRegs` it has been
after those with a transmission after them. -/
structure Inv (s : State) : Prop where
  owned : Owned s.log
  remote : s.entered = true ∨ outside s.mailbox.tcp = false → s.gremote = true
  closed : s.gremote = false → Closed s.log
  released : ∀ tries, s.loop = .writing tries → Released s.log

/-- A step of the regulator task outside `writeRegs` keeps the invariant: it comes to a write of the
target only when the flag is not set. -/
lemma Inv.reg {s t : State} (hinv : Inv s) (h : regStep s = some t) : Inv t := by
  unfold regStep at h
  cases hloop : s.loop with
  | test =>
      rw [hloop] at h
      obtain rfl := Option.some.inj h
      refine ⟨hinv.owned, hinv.remote, hinv.closed, fun tries hwriting => ?_⟩
      by_cases hremote : s.gremote = false
      · exact (hinv.closed hremote).released
      · rw [if_neg hremote] at hwriting
        cases hwriting
  | writing tries =>
      rw [hloop] at h
      cases tries with
      | zero =>
          obtain rfl := Option.some.inj h
          exact ⟨hinv.owned, hinv.remote, hinv.closed, fun tries hwriting => (by cases hwriting)⟩
      | succ tries => cases h
  | rest =>
      rw [hloop] at h
      obtain ⟨m, hm, rfl⟩ := Option.map_eq_some_iff.mp h
      have htcp := (Bridge.regStep_frame hm).1
      have haction : regAction s.mailbox.reg = [] ∨ regAction s.mailbox.reg = [.transmitted] := by
        cases s.mailbox.reg with
        | called _ _ => exact Or.inr rfl
        | polling | tested | dataLoaded _ | sent _ _ | received _ _ _ | done _ | stored
        | cleared => exact Or.inl rfl
      have hnot : ∀ tries,
          (if m.reg = .polling then Loop.test else Loop.rest) ≠ .writing tries := by
        intro tries
        split_ifs <;> exact fun hwriting => (by cases hwriting)
      refine ⟨?_, ?_, ?_, fun tries hwriting => absurd hwriting (hnot tries)⟩
      · rcases haction with hnone | hone
        · rw [hnone, List.append_nil]
          exact hinv.owned
        · rw [hone]
          exact hinv.owned.append (by decide)
      · rw [htcp]
        exact hinv.remote
      · intro hremote
        rcases haction with hnone | hone
        · rw [hnone, List.append_nil]
          exact hinv.closed hremote
        · rw [hone]
          exact (hinv.closed hremote).append (by decide)

/-- A step of the TCP task in its call keeps the invariant: the flag is set. -/
lemma Inv.tcp {s t : State} (hinv : Inv s) (h : Ownership.step s .tcp = some t) : Inv t := by
  obtain ⟨m, hm, rfl⟩ := Option.map_eq_some_iff.mp h
  have hcall : outside s.mailbox.tcp = false := by
    unfold Bridge.tcpStep at hm
    cases htcp : s.mailbox.tcp with
    | outside | returned _ =>
        rw [htcp] at hm
        cases hm
    | entered | dataStored | lenStored | waiting _ | woken _ => rfl
  have hremote := hinv.remote (Or.inr hcall)
  have haction : tcpAction s.mailbox.tcp = [] ∨ tcpAction s.mailbox.tcp = [.posted] := by
    cases s.mailbox.tcp with
    | entered => exact Or.inr rfl
    | outside | dataStored | lenStored | waiting _ | woken _ | returned _ => exact Or.inl rfl
  refine ⟨?_, fun _ => hremote, fun hfalse => ?_, fun tries hwriting => ?_⟩
  · rcases haction with hnone | hone
    · rw [hnone, List.append_nil]
      exact hinv.owned
    · rw [hone]
      exact hinv.owned.append (by decide)
  · exact absurd (hfalse.symm.trans hremote) Bool.false_ne_true
  · rcases haction with hnone | hone
    · rw [hnone, List.append_nil]
      exact hinv.released tries hwriting
    · rw [hone]
      exact (hinv.released tries hwriting).append (by decide)

/-- A try of `writeRegs` keeps the invariant. -/
lemma Inv.target {s t : State} (hinv : Inv s) {answered : Bool}
    (h : Ownership.step s (.target answered) = some t) : Inv t := by
  simp only [Ownership.step] at h
  split at h
  case h_1 tries hloop =>
    obtain rfl := Option.some.inj h
    have hreleased := hinv.released _ hloop
    exact ⟨hinv.owned.target hreleased, hinv.remote,
      fun hremote => (hinv.closed hremote).append (by decide),
      fun _ _ => hreleased.append (by decide)⟩
  all_goals cases h

/-- Every step keeps the invariant. -/
theorem Inv.step {s t : State} {e : Event} (hinv : Inv s) (h : Ownership.step s e = some t) :
    Inv t := by
  cases e with
  | tick =>
      obtain rfl := Option.some.inj h
      exact ⟨hinv.owned, hinv.remote, hinv.closed, hinv.released⟩
  | setremote =>
      simp only [Ownership.step] at h
      split_ifs at h
      obtain rfl := Option.some.inj h
      exact ⟨hinv.owned, fun _ => rfl, fun hremote => (by cases hremote), hinv.released⟩
  | enter req reqLength packet length =>
      simp only [Ownership.step] at h
      split_ifs at h with hentered
      obtain rfl := Option.some.inj h
      exact ⟨hinv.owned, fun _ => hinv.remote (Or.inl hentered.2), hinv.closed, hinv.released⟩
  | tcp => exact hinv.tcp h
  | closedConnection =>
      simp only [Ownership.step] at h
      split_ifs at h with hout
      obtain rfl := Option.some.inj h
      refine ⟨hinv.owned.append (by decide), ?_, fun _ => closed_concat s.log,
        fun _ _ => (closed_concat s.log).released⟩
      rintro (hentered | hcall)
      · exact absurd (hout.2.symm.trans hentered) Bool.false_ne_true
      · exact absurd (hcall.symm.trans hout.1) Bool.false_ne_true
  | reg => exact hinv.reg h
  | target answered => exact hinv.target h
  | receive reply =>
      obtain ⟨m, hm, rfl⟩ := Option.map_eq_some_iff.mp h
      refine ⟨hinv.owned, ?_, hinv.closed, hinv.released⟩
      rw [(Bridge.receiveStep_frame hm).1]
      exact hinv.remote

/-- **The remote client stays in control.** In every interleaving of the TCP task, with any
requests, timeouts of their waits, errors of the connection and losses of the link, and the
regulator task, with any outcomes of its tries and answers: when a request has been transmitted
after it was posted, the panel's target is not transmitted before
`reg_tcpModbusClosedConnection` has been called after that post. -/
theorem owned_of_run (es : List Event) (s : State)
    (hrun : Machine.run Ownership.step init es = some s) : Owned s.log := by
  have hnil : ∀ {p q : List Action}, [] ≠ p ++ Action.posted :: q := by
    intro p q h
    exact absurd h.symm (List.append_ne_nil_of_right_ne_nil _ (List.cons_ne_nil _ _))
  have hinit : Inv init :=
    ⟨fun _ _ _ _ h => absurd h hnil, fun h => (by rcases h with h | h <;> cases h),
      fun _ _ _ h => absurd h hnil, fun _ h => (by cases h)⟩
  have hinv : Inv s := Machine.run_invariant (fun _ _ _ hI ht => hI.step ht) hinit hrun
  exact hinv.owned

/-- The panel writes its target, a client's request is served, the loop goes round without a write,
the connection is closed, and the panel writes its target again. -/
def remoteRun : List Event :=
  [.reg, .target true, .reg, .setremote, .enter 0 0 Bridge.readPacket 6, .tcp, .tcp, .tcp, .reg,
    .reg, .reg, .reg, .reg, .receive Bridge.readReply, .reg, .reg, .reg, .reg, .tcp, .tcp,
    .reg, .reg, .closedConnection, .reg, .target true]

/-- The write after the request comes after the close. -/
theorem owned_remoteRun :
    ∃ s, Machine.run Ownership.step init remoteRun = some s ∧
      s.log = [.target, .posted, .transmitted, .closed, .target] ∧ Owned s.log := by
  have hview : (Machine.run Ownership.step init remoteRun).map State.log =
      some [.target, .posted, .transmitted, .closed, .target] := by
    decide +kernel
  obtain ⟨s, hrun, hlog⟩ := Option.map_eq_some_iff.mp hview
  exact ⟨s, hrun, hlog, owned_of_run remoteRun s hrun⟩

end PanelFirmware.Regulator.Ownership
