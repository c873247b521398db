import PanelFirmware.Regulator.CommandLifetime

/-!
# What `reg_waitCommand` returns

`reg_waitCommand` returns the pointer `cmd->result`, not the value behind it, so that after the
early exits it returns true whatever became of the command. The result is right as long as nothing
goes wrong behind the call's back (`Served`): every command received is executed within its expiry
and answered within its tries, and a call whose wait runs out is given its semaphore before it
deletes it. No give is late then (`Served.timely`), so that none wakes another call.

* `TruthInv`: the semaphore of a call is given for a command that has been served, and only then.
* `truthful_of_served`: over all runs.
-/

namespace PanelFirmware.Regulator

open PanelFirmware.Lib

/-- The command was dequeued before its expiry, and the write and the read it asks for
succeeded. -/
def Succeeded (request : Request) (h : History) : Prop :=
  h.inTime = true ∧ (request.writeNum ≠ 0 → h.writeOk = true) ∧
    (request.readNum ≠ 0 → h.readOk = true)

instance (request : Request) (h : History) : Decidable (Succeeded request h) :=
  inferInstanceAs (Decidable (_ ∧ _ ∧ _))

/-- A call that has returned true has succeeded. -/
def Truthful (s : State) : Prop :=
  ∀ id c, s.calls id = some c → c.phase = .returned true → Succeeded c.request c.history

/-- The condition on a step of the regulator task: a command that passes the expiry test is within
its 150 ticks (the test compares a counter that wraps), and the last try of a transaction is
answered. -/
def RegPhase.Served (s : State) (answered : Bool) : RegPhase → Prop
  | .received cmd => cmd.expireTime > s.tickCount →
      ∀ c ∈ s.calls cmd.call, s.now < c.stamp + expire
  | .written _ tries | .reading _ tries => tries = 1 → answered = true
  | _ => True

instance (s : State) (answered : Bool) : (r : RegPhase) → Decidable (r.Served s answered)
  | .received cmd => inferInstanceAs (Decidable (_ → ∀ c ∈ s.calls cmd.call, _))
  | .written _ tries | .reading _ tries => inferInstanceAs (Decidable (tries = 1 → _))
  | .idle | .writing _ _ | .storing _ _ | .giving _ => inferInstanceAs (Decidable True)

/-- The condition on an event: besides that on the regulator task, a call whose wait ran out finds
its semaphore given when it deletes it. -/
def Served (s : State) : Event → Prop
  | .issuer id _ =>
      ∀ c ∈ s.calls id, c.phase = .woken false → s.semaphores c.semaphore = some true
  | .process answered => s.reg.Served s answered
  | _ => True

instance (s : State) : (e : Event) → Decidable (Served s e)
  | .issuer id _ => inferInstanceAs (Decidable (∀ c ∈ s.calls id, _ → _))
  | .process answered => inferInstanceAs (Decidable (s.reg.Served s answered))
  | .tick | .enter _ _ | .exchange _ | .publish | .receive => inferInstanceAs (Decidable True)

/-! ### The invariant -/

/-- The phases after a take of the semaphore, those after its delete, and those after a return of
true. -/
def Phase.claims : Phase → Bool
  | .woken given => given
  | .deleted _ => true
  | .returned result => result
  | _ => false

/-- The state of a call says that its command has been served. -/
def State.Claims (s : State) (c : Call) : Prop := s.Given c ∨ c.phase.claims = true

/-- A call claims the same with the same semaphores. -/
lemma State.Claims.congr {s t : State} {c : Call} (h : t.Claims c)
    (hsemaphores : t.semaphores = s.semaphores) : s.Claims c := by
  unfold State.Claims State.Given at *
  rwa [hsemaphores] at h

/-- The request and the history of a call, if it exists. -/
def State.past (s : State) (id : ℕ) : Option (Request × History) :=
  (s.calls id).map fun c => (c.request, c.history)

/-- What the call of the command has been through when the regulator task is in a phase. -/
def RegPhase.Earned (request : Request) (h : History) : RegPhase → Prop
  | .idle | .received _ => True
  | .writing _ _ | .written _ _ => h.inTime = true
  | .reading _ _ => h.inTime = true ∧ (request.writeNum ≠ 0 → h.writeOk = true)
  | .storing _ _ | .giving _ => Succeeded request h

/-- The invariant of the command machine. -/
structure TruthInv (s : State) : Prop where
  calls : ∀ id c, s.calls id = some c → s.Claims c → Succeeded c.request c.history
  queue : ∀ cmd ∈ s.queue, ∃ h, s.past cmd.call = some (cmd.request, h)
  reg : ∀ cmd, s.reg.command = some cmd →
    ∃ h, s.past cmd.call = some (cmd.request, h) ∧ s.reg.Earned cmd.request h

/-- A history is the earlier one or more. -/
def History.Grows (h h' : History) : Prop :=
  (h.inTime = true → h'.inTime = true) ∧ (h.writeOk = true → h'.writeOk = true) ∧
    (h.readOk = true → h'.readOk = true)

/-- What has succeeded stays so. -/
lemma Succeeded.grows {request : Request} {h h' : History} (hs : Succeeded request h)
    (hg : h.Grows h') : Succeeded request h' :=
  ⟨hg.1 hs.1, fun hw => hg.2.1 (hs.2.1 hw), fun hr => hg.2.2 (hs.2.2 hr)⟩

/-- A command that is given in time is not executed after its call has left. -/
lemma Served.timely {s : State} {e : Event} (hinv : LifeInv s) (hok : Served s e) :
    Timely s e := by
  cases e with
  | issuer id alloc =>
      intro c hc hphase hexec
      have hgiven : s.Given c := ⟨by rw [hphase]; rfl, hok c hc hphase⟩
      exact hinv.given id c hc hgiven (State.pending_of_executes hexec)
  | process answered =>
      change s.reg.Timely s
      have hreg : s.reg.Served s answered := hok
      cases h : s.reg with
      | received cmd =>
          rw [h] at hreg
          exact fun htest c hc => Or.inl (hreg htest c hc)
      | idle | writing _ _ | written _ _ | reading _ _ | storing _ _ | giving _ => trivial
  | tick | enter _ _ | exchange _ | publish | receive => trivial

/-! ### Steps of a call -/

/-- A step of a call claims nothing new: what it claims afterwards it claimed before, or it deletes
its semaphore after a wait that ran out. -/
lemma Call.claims_of_next {c c' : Call} {s t : State} {alloc : Option ℕ}
    (h : c.next s alloc = some c') (ht : t.semaphores = c.heap alloc s.semaphores)
    (hc : t.Claims c') : s.Claims c ∨ c.phase = .woken false := by
  unfold State.Claims State.Given at hc ⊢
  rw [ht] at hc
  unfold Call.next at h
  unfold Call.heap at hc
  cases hphase : c.phase with
  | waiting since =>
      simp only [hphase] at h hc
      have htaken : Function.update s.semaphores c.semaphore
          ((s.semaphores c.semaphore).map fun _ => false) c.semaphore ≠ some true := by
        rw [Function.update_self]
        intro hmap
        obtain ⟨given, -, hfalse⟩ := Option.map_eq_some_iff.mp hmap
        cases hfalse
      split_ifs at h with hsem
      · exact Or.inl (Or.inl ⟨rfl, hsem⟩)
      · cases h
        rcases hc with hgiven | hclaims
        · exact absurd hgiven.2 htaken
        · cases hclaims
  | woken given =>
      cases given with
      | false => exact Or.inr rfl
      | true => exact Or.inl (Or.inr rfl)
  | deleted given => exact Or.inl (Or.inr rfl)
  | spacesRead =>
      simp only [hphase] at h hc
      cases alloc with
      | none =>
          cases h
          rcases hc with hgiven | hclaims
          · cases hgiven.1
          · cases hclaims
      | some block =>
          simp only at h
          split_ifs at h
          cases h
          rcases hc with hgiven | hclaims
          · simp only [Function.update_self] at hgiven
            cases hgiven.2
          · cases hclaims
  | returned result =>
      rw [hphase] at h
      cases h
  | entered | connectedRead =>
      rw [hphase] at h
      cases h
      simp only at hc
      rcases hc with hgiven | hclaims
      · split_ifs at hgiven <;> cases hgiven.1
      · split_ifs at hclaims <;> cases hclaims
  | created | stamped | sent =>
      rw [hphase] at h
      cases h
      simp only [hphase] at hc
      rcases hc with hgiven | hclaims
      · exact Or.inl (Or.inl ⟨rfl, hgiven.2⟩)
      · cases hclaims

/-- A step of a call gives no semaphore of another one. -/
lemma Owned.claims_of_issuer {s t : State} (hown : Owned s) {id i : ℕ} {c c' k : Call}
    {alloc : Option ℕ} (hc : s.calls id = some c) (hnext : c.next s alloc = some c')
    (ht : t.semaphores = c.heap alloc s.semaphores) (hi : i ≠ id) (hk : s.calls i = some k)
    (hclaims : t.Claims k) : s.Claims k := by
  refine hclaims.imp_left fun hg => ⟨hg.1, ?_⟩
  rw [← hown.heap_other hc hnext hi hk hg.1, ← ht]
  exact hg.2

/-- A step of a call leaves every past as it is. -/
lemma past_issuerStep {s t : State} {id : ℕ} {alloc : Option ℕ}
    (h : issuerStep s id alloc = some t) (i : ℕ) : t.past i = s.past i := by
  obtain ⟨c, c', hc, hnext, rfl⟩ := issuerStep_eq h
  obtain ⟨hrequest, hhistory⟩ := Call.next_history hnext
  by_cases hi : i = id
  · rw [hi]
    simp only [State.past, Function.update_self, hc, Option.map_some, hrequest, hhistory]
  · simp only [State.past, Function.update_of_ne hi]

/-- A step of a call keeps the invariant. -/
lemma TruthInv.issuer {s t : State} (hinv : TruthInv s) (hown : Owned s) {id : ℕ}
    {alloc : Option ℕ} (hok : Served s (.issuer id alloc)) (h : issuerStep s id alloc = some t) :
    TruthInv t := by
  have hpast := past_issuerStep h
  obtain ⟨c, c', hc, hnext, ht⟩ := issuerStep_eq h
  have hheap : t.semaphores = c.heap alloc s.semaphores := by rw [ht]
  have hcalls : t.calls = Function.update s.calls id (some c') := by rw [ht]
  have hqueue : t.queue = c.send id s.queue := by rw [ht]
  have hreg : t.reg = s.reg := by rw [ht]
  obtain ⟨hrequest, hhistory⟩ := Call.next_history hnext
  refine ⟨?_, ?_, ?_⟩
  · intro i k hk hclaims
    rw [hcalls] at hk
    rcases Machine.entry_of_update hk with ⟨-, hk⟩ | ⟨hi, hk⟩
    · obtain rfl := Option.some.inj hk
      rw [hrequest, hhistory]
      rcases Call.claims_of_next hnext hheap hclaims with hbefore | hdeletes
      · exact hinv.calls id c hc hbefore
      · have hgiven : s.Given c := ⟨by rw [hdeletes]; rfl, hok c hc hdeletes⟩
        exact hinv.calls id c hc (Or.inl hgiven)
    · exact hinv.calls i k hk (hown.claims_of_issuer hc hnext hheap hi hk hclaims)
  · intro cmd hcmd
    rw [hpast]
    rw [hqueue] at hcmd
    unfold Call.send at hcmd
    split_ifs at hcmd
    · rcases List.mem_append.mp hcmd with hcmd | hcmd
      · exact hinv.queue cmd hcmd
      · rw [List.mem_singleton.mp hcmd]
        exact ⟨c.history, by rw [State.past, Call.command, hc, Option.map_some]⟩
    · exact hinv.queue cmd hcmd
  · intro cmd hcmd
    rw [hpast, hreg]
    rw [hreg] at hcmd
    exact hinv.reg cmd hcmd

/-! ### Steps of the regulator task -/

/-- A change of one call that lets its history grow and claims nothing, together with a move of the
regulator task to a phase that the history bears, keeps the invariant. -/
lemma TruthInv.update {s : State} (hinv : TruthInv s) {id : ℕ} {f : Call → Call} {reg : RegPhase}
    (hf : ∀ c, s.calls id = some c → (f c).request = c.request ∧ c.history.Grows (f c).history ∧
      (s.Claims (f c) → s.Claims c))
    (hreg : ∀ cmd, reg.command = some cmd → cmd.call = id ∧
      ∃ c, s.calls id = some c ∧ c.request = cmd.request ∧
        reg.Earned cmd.request (f c).history) :
    TruthInv { s.update id f with reg := reg } := by
  have hpast : ∀ i request h, s.past i = some (request, h) →
      ∃ h', ({ s.update id f with reg := reg } : State).past i = some (request, h') := by
    intro i request h hi
    obtain ⟨c, hc, heq⟩ := Option.map_eq_some_iff.mp hi
    obtain ⟨rfl, rfl⟩ := Prod.mk.inj heq
    by_cases hid : i = id
    · subst hid
      refine ⟨(f c).history, ?_⟩
      simp only [State.past, State.update, Function.update_self, hc, Option.map_some, (hf c hc).1]
    · exact ⟨c.history, by
        simp only [State.past, State.update, Function.update_of_ne hid, hc, Option.map_some]⟩
  refine ⟨?_, ?_, ?_⟩
  · intro i k hk hclaims
    rcases Machine.entry_of_update hk with ⟨-, hk⟩ | ⟨-, hk⟩
    · obtain ⟨c, hc, rfl⟩ := Option.map_eq_some_iff.mp hk
      obtain ⟨hrequest, hgrows, hnew⟩ := hf c hc
      rw [hrequest]
      exact (hinv.calls id c hc (hnew hclaims)).grows hgrows
    · exact hinv.calls i k hk hclaims
  · intro cmd hcmd
    obtain ⟨h, hh⟩ := hinv.queue cmd hcmd
    exact hpast cmd.call cmd.request h hh
  · intro cmd hcmd
    obtain ⟨hcall, c, hc, hrequest, hearned⟩ := hreg cmd hcmd
    refine ⟨(f c).history, ?_, hearned⟩
    simp only [State.past, State.update, hcall, Function.update_self, hc, Option.map_some,
      (hf c hc).1, hrequest]

/-- The call of the command that the regulator task works on. -/
lemma TruthInv.working {s : State} (hinv : TruthInv s) {cmd : Command}
    (hcmd : s.reg.command = some cmd) :
    ∃ c, s.calls cmd.call = some c ∧ c.request = cmd.request ∧
      s.reg.Earned cmd.request c.history := by
  obtain ⟨h, hpast, hearned⟩ := hinv.reg cmd hcmd
  obtain ⟨c, hc, heq⟩ := Option.map_eq_some_iff.mp hpast
  obtain ⟨hrequest, rfl⟩ := Prod.mk.inj heq
  exact ⟨c, hc, hrequest, hearned⟩

/-- A move of the regulator task alone, to a phase that the history bears. -/
lemma TruthInv.move {s : State} (hinv : TruthInv s) {reg : RegPhase}
    (hreg : ∀ cmd, reg.command = some cmd → ∃ c, s.calls cmd.call = some c ∧
      c.request = cmd.request ∧ reg.Earned cmd.request c.history) :
    TruthInv { s with reg := reg } := by
  refine ⟨hinv.calls, hinv.queue, fun cmd hcmd => ?_⟩
  obtain ⟨c, hc, hrequest, hearned⟩ := hreg cmd hcmd
  refine ⟨c.history, ?_, hearned⟩
  simp only [State.past, hc, Option.map_some, hrequest]

/-- The read part is entered with the write part done. -/
lemma readPart_earned {cmd cmd' : Command} {result : Bool} {h : History}
    (hcmd : (readPart cmd result).command = some cmd') (htime : h.inTime = true)
    (hwrite : cmd.request.writeNum ≠ 0 → h.writeOk = true) :
    cmd = cmd' ∧ (readPart cmd result).Earned cmd.request h := by
  unfold readPart at hcmd ⊢
  split_ifs at hcmd ⊢ with hread
  · exact ⟨Option.some.inj hcmd, htime, hwrite⟩
  · exact ⟨Option.some.inj hcmd, htime, hwrite, fun hne => absurd hne hread⟩

/-- The write part is entered in time. -/
lemma writePart_earned {cmd cmd' : Command} {h : History}
    (hcmd : (writePart cmd).command = some cmd') (htime : h.inTime = true) :
    cmd = cmd' ∧ (writePart cmd).Earned cmd.request h := by
  unfold writePart at hcmd ⊢
  split_ifs at hcmd ⊢ with hwrite
  · exact ⟨Option.some.inj hcmd, htime⟩
  · exact readPart_earned hcmd htime fun hne => absurd hne hwrite

/-- The give keeps the invariant: the semaphore is that of the command's call, and the command has
been served. -/
lemma TruthInv.give {s : State} (hinv : TruthInv s) (hown : Owned s) (hlife : LifeInv s)
    {cmd : Command} (hreg : s.reg = .giving cmd) :
    TruthInv { s with semaphores := Regulator.give s.semaphores cmd.semaphore, reg := .idle } := by
  obtain ⟨c, hc, hrequest, hearned⟩ := hinv.working (by rw [hreg]; rfl)
  obtain ⟨d, hd, hsem, hholds⟩ := hlife.holds_of_executes (by rw [hreg]; exact ⟨rfl, rfl⟩)
  obtain rfl := Option.some.inj (hc.symm.trans hd)
  rw [hreg] at hearned
  refine ⟨fun i k hk hclaims => ?_, hinv.queue, fun _ h => nomatch h⟩
  by_cases hi : i = cmd.call
  · rw [hi] at hk
    obtain rfl := Option.some.inj (hc.symm.trans hk)
    rw [hrequest]
    exact hearned
  · -- another call holds another semaphore
    refine hinv.calls i k hk (hclaims.imp_left fun hg => ⟨hg.1, ?_⟩)
    rw [← hg.2]
    refine (give_of_ne fun heq => hi ?_).symm
    exact hown.own i cmd.call k c hk hc hg.1 hholds (heq.trans hsem.symm)

/-- A step of the regulator task on its command keeps the invariant: under the condition no
transaction fails, and each way the step goes is borne by the history. -/
lemma TruthInv.process {s t : State} (hinv : TruthInv s) (hown : Owned s) (hlife : LifeInv s)
    {answered : Bool} (hok : Served s (.process answered)) (h : processStep s answered = some t) :
    TruthInv t := by
  have hserved : s.reg.Served s answered := hok
  cases processed_of_processStep h with
  | @begins cmd hreg htest =>
      have hcmd : s.reg.command = some cmd := hreg ▸ rfl
      obtain ⟨c, hc, hrequest, -⟩ := hinv.working hcmd
      rw [hreg] at hserved
      have htime := decide_eq_true (hserved htest c hc)
      refine hinv.update (fun k hk => ?_) fun cmd' hcmd' => ?_
      · obtain rfl : c = k := Option.some.inj (hc.symm.trans hk)
        exact ⟨rfl, ⟨fun _ => htime, id, id⟩, fun h => h⟩
      · obtain ⟨rfl, hearned⟩ := writePart_earned hcmd'
          (h := { c.history with inTime := decide (s.now < c.stamp + expire) }) htime
        exact ⟨rfl, c, hc, hrequest, hearned⟩
  | expires _ _ => exact hinv.move fun cmd' hcmd' => nomatch hcmd'
  | @sends cmd tries hreg | @repeatsWrite cmd tries hreg _ | @repeatsRead cmd tries hreg _ =>
      have hcmd : s.reg.command = some cmd := hreg ▸ rfl
      obtain ⟨c, hc, hrequest, hearned⟩ := hinv.working hcmd
      rw [hreg] at hearned
      refine hinv.move fun cmd' hcmd' => ?_
      obtain rfl := Option.some.inj hcmd'
      exact ⟨c, hc, hrequest, hearned⟩
  | @writes cmd tries hreg _ =>
      have hcmd : s.reg.command = some cmd := hreg ▸ rfl
      obtain ⟨c, hc, hrequest, hearned⟩ := hinv.working hcmd
      rw [hreg] at hearned
      refine hinv.update (fun k _ => ⟨rfl, ⟨id, fun _ => rfl, id⟩, fun h => h⟩)
        fun cmd' hcmd' => ?_
      obtain ⟨rfl, hread⟩ := readPart_earned hcmd'
        (h := { c.history with writeOk := true }) hearned fun _ => rfl
      exact ⟨rfl, c, hc, hrequest, hread⟩
  | @reads cmd tries hreg _ =>
      have hcmd : s.reg.command = some cmd := hreg ▸ rfl
      obtain ⟨c, hc, hrequest, hearned⟩ := hinv.working hcmd
      rw [hreg] at hearned
      refine hinv.update (fun k _ => ⟨rfl, ⟨id, id, fun _ => rfl⟩, fun h => h⟩)
        fun cmd' hcmd' => ?_
      obtain rfl := Option.some.inj hcmd'
      exact ⟨rfl, c, hc, hrequest, hearned.1, hearned.2, fun _ => rfl⟩
  | failsWrite hreg hanswered | failsRead hreg hanswered =>
      rw [hreg] at hserved
      exact absurd (hserved rfl) hanswered
  | @stores cmd result hreg =>
      have hcmd : s.reg.command = some cmd := hreg ▸ rfl
      obtain ⟨c, hc, hrequest, hearned⟩ := hinv.working hcmd
      rw [hreg] at hearned
      refine hinv.update (fun k _ => ⟨rfl, ⟨id, id, id⟩, fun h => h⟩) fun cmd' hcmd' => ?_
      obtain rfl := Option.some.inj hcmd'
      exact ⟨rfl, c, hc, hrequest, hearned⟩
  | gives hreg => exact hinv.give hown hlife hreg

/-! ### Runs -/

/-- A new call claims nothing. -/
lemma TruthInv.enter {s t : State} (hinv : TruthInv s) {id : ℕ} {request : Request}
    (h : Regulator.step s (.enter id request) = some t) : TruthInv t := by
  simp only [Regulator.step] at h
  split_ifs at h with hfresh
  obtain rfl := Option.some.inj h
  have hpast : ∀ i past, s.past i = some past → State.past
      { s with calls := Function.update s.calls id (some (Call.new request)) } i = some past := by
    intro i past hi
    have hnone : s.past id = none := by rw [State.past, hfresh, Option.map_none]
    have hne : i ≠ id := Machine.ne_of_fresh hnone hi
    simp only [State.past, Function.update_of_ne hne]
    exact hi
  refine ⟨?_, ?_, ?_⟩
  · intro i k hk hclaims
    rcases Machine.entry_of_update hk with ⟨-, hk⟩ | ⟨-, hk⟩
    · obtain rfl := Option.some.inj hk
      rcases hclaims with hgiven | hphase
      · cases hgiven.1
      · cases hphase
    · exact hinv.calls i k hk hclaims
  · intro cmd hcmd
    obtain ⟨past, hq⟩ := hinv.queue cmd hcmd
    exact ⟨past, hpast _ _ hq⟩
  · intro cmd hcmd
    obtain ⟨past, hr, hearned⟩ := hinv.reg cmd hcmd
    exact ⟨past, hpast _ _ hr, hearned⟩

/-- A received command is one of the queue. -/
lemma TruthInv.receive {s t : State} (hinv : TruthInv s)
    (h : Regulator.step s .receive = some t) : TruthInv t := by
  simp only [Regulator.step] at h
  split at h
  · next cmd rest hreg hqueue =>
      obtain rfl := Option.some.inj h
      have hmem := hinv.queue
      rw [hqueue] at hmem
      refine ⟨hinv.calls, fun c hc => hmem c (List.mem_cons_of_mem _ hc), fun c hc => ?_⟩
      obtain rfl := Option.some.inj hc
      obtain ⟨past, hpast⟩ := hmem cmd List.mem_cons_self
      exact ⟨past, hpast, trivial⟩
  · cases h

/-- A step that meets the condition keeps the invariant. -/
theorem TruthInv.step {s t : State} {e : Event} (hinv : TruthInv s) (hown : Owned s)
    (hlife : LifeInv s) (hok : Served s e) (h : Regulator.step s e = some t) : TruthInv t := by
  cases e with
  | tick =>
      obtain rfl := Option.some.inj h
      exact ⟨hinv.calls, hinv.queue, hinv.reg⟩
  | enter id request => exact hinv.enter h
  | issuer id alloc => exact hinv.issuer hown hok h
  | exchange answered =>
      simp only [Regulator.step] at h
      split at h
      · obtain rfl := Option.some.inj h
        exact ⟨hinv.calls, hinv.queue, hinv.reg⟩
      · cases h
  | publish =>
      simp only [Regulator.step] at h
      split at h
      · obtain rfl := Option.some.inj h
        exact ⟨hinv.calls, hinv.queue, hinv.reg⟩
      · cases h
  | receive => exact hinv.receive h
  | process answered => exact hinv.process hown hlife hok h

/-- **Command results are true as long as commands are served.** In every run of any number of
calls, in every interleaving with the regulator task, whose steps all meet `Served`: a call that
has returned true had its command dequeued before the expiry, and the write and the read it asks
for succeeded. -/
theorem truthful_of_served (es : List Event) (s : State)
    (hok : Machine.Meets Regulator.step Served init es)
    (hrun : Machine.run Regulator.step init es = some s) : Truthful s := by
  have hstep : ∀ s e t, Owned s ∧ LifeInv s ∧ TruthInv s → Served s e →
      Regulator.step s e = some t → Owned t ∧ LifeInv t ∧ TruthInv t :=
    fun s e t ⟨hown, hlife, hinv⟩ hs ht =>
      ⟨hown.step ht, hlife.step hown (hs.timely hlife) ht, hinv.step hown hlife hs ht⟩
  have hinit : TruthInv init :=
    ⟨fun _ _ h => (nomatch h), fun _ h => absurd h List.not_mem_nil, fun _ h => (nomatch h)⟩
  obtain ⟨-, -, hinv⟩ := Machine.run_induction hstep ⟨owned_init, lifeInv_init, hinit⟩ hok hrun
  intro id c hc hreturned
  exact hinv.calls id c hc (Or.inr (by rw [hreturned]; rfl))

/-- The command is answered, and the call returns. -/
def answeredRun : List Event :=
  submitCrange ++ [.process true, .process true, .process true] ++ issuerSteps 3

/-- The run in which the command is answered is served, and its result is true. -/
theorem truthful_answeredRun :
    ∃ s, Machine.run Regulator.step init answeredRun = some s ∧ Truthful s := by
  obtain ⟨s, hrun⟩ : ∃ s, Machine.run Regulator.step init answeredRun = some s :=
    Option.isSome_iff_exists.mp (by decide +kernel)
  exact ⟨s, hrun, truthful_of_served answeredRun s (by decide +kernel) hrun⟩

/-- The regulator refuses the write three times, and the call returns. -/
def refusedRun : List Event :=
  submitCrange ++ [.process false, .process true, .process false, .process true, .process false,
    .process true, .process true] ++ issuerSteps 3

/-- **A command result is false.** The regulator refuses the write of `reg_crangeSet` three times;
the stored result is false, and the call returns true. -/
theorem not_truthful_refusedRun :
    ¬ ∀ es s, Machine.run Regulator.step init es = some s → Truthful s := by
  intro hall
  obtain ⟨s, hrun, c, hc, hreturned, hwrite, hnum⟩ :
      ∃ s, Machine.run Regulator.step init refusedRun = some s ∧ ∃ c, s.calls 0 = some c ∧
        c.phase = .returned true ∧ c.history.writeOk = false ∧ c.request.writeNum ≠ 0 :=
    ⟨_, rfl, _, rfl, rfl, rfl, by decide⟩
  have hsucceeded := (hall refusedRun s hrun 0 c hc hreturned).2.1 hnum
  rw [hwrite] at hsucceeded
  cases hsucceeded

end PanelFirmware.Regulator
