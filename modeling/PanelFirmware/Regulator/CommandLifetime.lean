import PanelFirmware.Regulator.Command

/-!
# When the regulator task uses a command

The command in the queue points into the stack frame of its issuer, and its semaphore is deleted
before the issuer returns. The regulator task tests the expiry once, when it takes the command
from the queue; the tries that follow may outlast the issuer's wait. A give that comes after the
delete goes to whichever semaphore the heap has put into the block, and wakes its call.

* `Owned`: in every run, the calls that hold semaphores hold different ones.
* `LifeInv`: a command has one copy at most, and a call whose semaphore is given has none left.
* `LifeInv.holds_of_executes`: what is executed has its semaphore still, which no other call has.
* `usesNoReturned_of_timely`: over all runs whose steps meet `Timely`.
-/

namespace PanelFirmware.Regulator

open PanelFirmware.Lib

/-- The call whose stack frame or semaphore an event of the regulator task accesses: it reads
`command.src` for each try of a write (a single register is read once, before the first try),
stores at `command.dst` on an answer, stores `*command.result`, gives `command.semaphore`.
Source: `regulatorConnTSK.c` `regulatorConnTSK`, `writeReg`, `writeRegs`, `readRegs`. -/
def touches (s : State) : Event → Option ℕ
  | .process answered =>
      match s.reg with
      | .writing c tries => if c.request.writeNum ≠ 1 ∨ tries = 3 then some c.call else none
      | .reading c _ => if answered then some c.call else none
      | .storing c _ | .giving c => some c.call
      | .idle | .received _ | .written _ _ => none
  | _ => none

/-- A call has returned. -/
def Phase.hasReturned : Phase → Bool
  | .returned _ => true
  | _ => false

/-- A call has deleted its semaphore, or never created one. -/
def Phase.hasLeft : Phase → Bool
  | .deleted _ | .returned _ => true
  | _ => false

/-- A call holds a semaphore. -/
def Phase.holds : Phase → Bool
  | .created | .stamped | .sent | .waiting _ | .woken _ => true
  | .entered | .connectedRead | .spacesRead | .deleted _ | .returned _ => false

/-- The semaphore of a call is given. -/
def State.Given (s : State) (c : Call) : Prop :=
  c.phase.holds = true ∧ s.semaphores c.semaphore = some true

/-- The condition on a step of the regulator task: a command passes the expiry test within its 150
ticks (the test compares a counter that wraps), or while its call has its semaphore. -/
def RegPhase.Timely (s : State) : RegPhase → Prop
  | .received cmd => cmd.expireTime > s.tickCount →
      ∀ c ∈ s.calls cmd.call, s.now < c.stamp + expire ∨ c.phase.hasLeft = false
  | _ => True

instance (s : State) : (r : RegPhase) → Decidable (r.Timely s)
  | .received cmd => inferInstanceAs (Decidable (_ → ∀ c ∈ s.calls cmd.call, _))
  | .idle | .writing _ _ | .written _ _ | .reading _ _ | .storing _ _ | .giving _ =>
      inferInstanceAs (Decidable True)

/-- The condition on an event: besides that on the regulator task, no call deletes its semaphore
after a wait that ran out while the regulator task executes its command. -/
def Timely (s : State) : Event → Prop
  | .issuer id _ => ∀ c ∈ s.calls id, c.phase = .woken false → s.reg.executes ≠ some id
  | .process _ => s.reg.Timely s
  | _ => True

instance (s : State) : (e : Event) → Decidable (Timely s e)
  | .issuer id _ => inferInstanceAs (Decidable (∀ c ∈ s.calls id, _ → _))
  | .process _ => inferInstanceAs (Decidable (s.reg.Timely s))
  | .tick | .enter _ _ | .exchange _ | .publish | .receive => inferInstanceAs (Decidable True)

/-! ### The semaphores of the calls -/

/-- The semaphores that calls hold exist, and no two calls hold the same one. -/
structure Owned (s : State) : Prop where
  live : ∀ id c, s.calls id = some c → c.phase.holds = true → s.semaphores c.semaphore ≠ none
  own : ∀ i j c d, s.calls i = some c → s.calls j = some d → c.phase.holds = true →
    d.phase.holds = true → c.semaphore = d.semaphore → i = j

/-- What a step of a call does about its semaphore: it creates one in a block that is free, it goes
on with the one it holds, or it holds none. -/
lemma Call.next_semaphore {c c' : Call} {s : State} {alloc : Option ℕ}
    (h : c.next s alloc = some c') (hholds : c'.phase.holds = true) :
    (c.phase.holds = true ∧ c'.semaphore = c.semaphore ∧
        (s.semaphores c.semaphore ≠ none → c.heap alloc s.semaphores c.semaphore ≠ none)) ∨
      s.semaphores c'.semaphore = none ∧
        c.heap alloc s.semaphores = Function.update s.semaphores c'.semaphore (some false) := by
  unfold Call.next at h
  unfold Call.heap
  cases hphase : c.phase with
  | spacesRead =>
      cases alloc with
      | none =>
          simp only [hphase] at h
          cases h
          cases hholds
      | some block =>
          simp only [hphase] at h
          split_ifs at h with hfree
          cases h
          exact Or.inr ⟨hfree, rfl⟩
  | waiting since =>
      simp only [hphase] at h
      refine Or.inl ⟨rfl, ?_, fun hlive => ?_⟩
      · split_ifs at h <;> cases h <;> rfl
      · dsimp only
        rw [Function.update_self]
        exact fun hnone => hlive (Option.map_eq_none_iff.mp hnone)
  | created | stamped | sent =>
      rw [hphase] at h
      cases h
      exact Or.inl ⟨rfl, rfl, id⟩
  | entered | connectedRead =>
      rw [hphase] at h
      cases h
      simp only at hholds
      split_ifs at hholds <;> cases hholds
  | woken given | deleted given =>
      rw [hphase] at h
      cases h
      cases hholds
  | returned result =>
      rw [hphase] at h
      cases h

/-- A step of a call leaves the semaphores of the others. -/
lemma Owned.heap_other {s : State} (hown : Owned s) {id i : ℕ} {c c' k : Call} {alloc : Option ℕ}
    (hc : s.calls id = some c) (hnext : c.next s alloc = some c') (hi : i ≠ id)
    (hk : s.calls i = some k) (hholds : k.phase.holds = true) :
    c.heap alloc s.semaphores k.semaphore = s.semaphores k.semaphore := by
  have hdiffers : c.phase.holds = true → k.semaphore ≠ c.semaphore :=
    fun hc' heq => hi (hown.own i id k c hk hc hholds hc' heq)
  unfold Call.next at hnext
  unfold Call.heap
  cases hphase : c.phase with
  | spacesRead =>
      cases alloc with
      | none => rfl
      | some block =>
          simp only [hphase] at hnext
          split_ifs at hnext with hfree
          have hne : k.semaphore ≠ block := by
            rintro rfl
            exact hown.live i k hk hholds hfree
          exact Function.update_of_ne hne _ _
  | waiting since | woken given =>
      exact Function.update_of_ne (hdiffers (by rw [hphase]; rfl)) _ _
  | entered | connectedRead | created | stamped | sent | deleted given | returned result => rfl

/-- A step of a call keeps the semaphores apart. -/
lemma Owned.issuer {s t : State} (hown : Owned s) {id : ℕ} {alloc : Option ℕ}
    (h : issuerStep s id alloc = some t) : Owned t := by
  obtain ⟨c, c', hc, hnext, rfl⟩ := issuerStep_eq h
  -- the call that makes the step shares its semaphore with no other
  have hshared : ∀ i k, i ≠ id → s.calls i = some k → k.phase.holds = true →
      c'.phase.holds = true → k.semaphore ≠ c'.semaphore := by
    intro i k hi hk hholds hholds' heq
    rcases Call.next_semaphore hnext hholds' with ⟨hbefore, hsame, -⟩ | ⟨hfree, -⟩
    · exact hi (hown.own i id k c hk hc hholds hbefore (heq.trans hsame))
    · exact hown.live i k hk hholds (heq ▸ hfree)
  refine ⟨fun i k hk hholds => ?_, fun i j k l hk hl hholds hholds' heq => ?_⟩
  · rcases Machine.entry_of_update hk with ⟨-, hk⟩ | ⟨hi, hk⟩
    · obtain rfl := Option.some.inj hk
      rcases Call.next_semaphore hnext hholds with ⟨hbefore, hsame, hlive⟩ | ⟨-, hheap⟩
      · dsimp only
        rw [hsame]
        exact hlive (hown.live id c hc hbefore)
      · dsimp only
        rw [hheap, Function.update_self]
        exact Option.some_ne_none _
    · dsimp only
      rw [hown.heap_other hc hnext hi hk hholds]
      exact hown.live i k hk hholds
  · rcases Machine.entry_of_update hk with ⟨hi, hk⟩ | ⟨hi, hk⟩ <;>
      rcases Machine.entry_of_update hl with ⟨hj, hl⟩ | ⟨hj, hl⟩
    · exact hi.trans hj.symm
    · obtain rfl := Option.some.inj hk
      exact absurd heq.symm (hshared j l hj hl hholds' hholds)
    · obtain rfl := Option.some.inj hl
      exact absurd heq (hshared i k hi hk hholds hholds')
    · exact hown.own i j k l hk hl hholds hholds' heq

/-- A step that leaves the phases of the calls and frees no semaphore keeps them apart. -/
lemma Owned.leave {s t : State} (hown : Owned s)
    (hcalls : ∀ id k, t.calls id = some k → k.phase.holds = true →
      ∃ c, s.calls id = some c ∧ c.phase = k.phase ∧ c.semaphore = k.semaphore)
    (hlive : ∀ b, s.semaphores b ≠ none → t.semaphores b ≠ none) : Owned t := by
  refine ⟨fun i k hk hholds => ?_, fun i j k l hk hl hholds hholds' heq => ?_⟩
  · obtain ⟨c, hc, hphase, hsem⟩ := hcalls i k hk hholds
    rw [← hsem]
    exact hlive _ (hown.live i c hc (hphase ▸ hholds))
  · obtain ⟨c, hc, hphase, hsem⟩ := hcalls i k hk hholds
    obtain ⟨d, hd, hphase', hsem'⟩ := hcalls j l hl hholds'
    exact hown.own i j c d hc hd (hphase ▸ hholds) (hphase' ▸ hholds')
      (hsem.trans (heq.trans hsem'.symm))

/-- **Every step keeps the semaphores apart.** -/
theorem Owned.step {s t : State} {e : Event} (hown : Owned s)
    (h : Regulator.step s e = some t) : Owned t := by
  cases e with
  | tick =>
      obtain rfl := Option.some.inj h
      exact hown.leave (fun _ k hk _ => ⟨k, hk, rfl, rfl⟩) fun _ hb => hb
  | enter id request =>
      simp only [Regulator.step] at h
      split_ifs at h with hfresh
      obtain rfl := Option.some.inj h
      refine hown.leave (fun i k hk hholds => ?_) fun _ hb => hb
      rcases Machine.entry_of_update hk with ⟨-, hk⟩ | ⟨-, hk⟩
      · obtain rfl := Option.some.inj hk
        cases hholds
      · exact ⟨k, hk, rfl, rfl⟩
  | issuer id alloc => exact hown.issuer h
  | exchange answered | publish =>
      simp only [Regulator.step] at h
      split at h
      · obtain rfl := Option.some.inj h
        exact hown.leave (fun _ k hk _ => ⟨k, hk, rfl, rfl⟩) fun _ hb => hb
      · cases h
  | receive =>
      simp only [Regulator.step] at h
      split at h
      · obtain rfl := Option.some.inj h
        exact hown.leave (fun _ k hk _ => ⟨k, hk, rfl, rfl⟩) fun _ hb => hb
      · cases h
  | process answered =>
      obtain ⟨cmd, -, ⟨f, reg, rfl, hf, -⟩ | ⟨-, rfl⟩⟩ := processStep_cases h
      · refine hown.leave (fun i k hk _ => ?_) fun _ hb => hb
        obtain ⟨c, hc, rfl | ⟨-, rfl⟩⟩ := State.entry_of_update hk
        · exact ⟨k, hc, rfl, rfl⟩
        · exact ⟨c, hc, (hf c).1.symm, (hf c).2.2.2.2.symm⟩
      · exact hown.leave (fun _ k hk _ => ⟨k, hk, rfl, rfl⟩) fun b hb hnone =>
          hb (give_eq_none_iff.mp hnone)

/-- At the start no call holds a semaphore. -/
lemma owned_init : Owned init := ⟨fun _ _ h => (nomatch h), fun _ _ _ _ h => (nomatch h)⟩

/-! ### The invariant -/

/-- The calls whose command is in the queue or with the regulator task. -/
def State.pending (s : State) : List ℕ := s.commands.map Command.call

/-- What the phase of a call says, when its command is `pending`, when it is executed and when its
semaphore is given: a command is sent once; a call goes on by its semaphore, and then its command
is done, or 160 ticks after its stamp; and no command of a call that has deleted its semaphore is
executed. -/
def Call.Fits (now : ℕ) (pending executed given : Prop) (c : Call) : Prop :=
  match c.phase with
  | .entered | .connectedRead | .spacesRead => ¬ pending
  | .created => ¬ pending ∧ ¬ given
  | .stamped => ¬ pending ∧ ¬ given ∧ c.stamp ≤ now
  | .sent => c.stamp ≤ now
  | .waiting since => c.stamp ≤ since
  | .woken given => if given then ¬ pending else c.stamp + (expire + 10) ≤ now
  | .deleted given => ¬ executed ∧ if given then ¬ pending else c.stamp + (expire + 10) ≤ now
  | .returned _ => ¬ executed ∧ (¬ pending ∨ c.stamp + (expire + 10) ≤ now)

/-- The invariant of the commands' lifetimes. -/
structure LifeInv (s : State) : Prop where
  nodup : s.pending.Nodup
  known : ∀ cmd ∈ s.commands, ∃ c, s.calls cmd.call = some c ∧ c.semaphore = cmd.semaphore
  fits : ∀ id c, s.calls id = some c →
    c.Fits s.now (id ∈ s.pending) (s.reg.executes = some id) (s.Given c)
  given : ∀ id c, s.calls id = some c → s.Given c → id ∉ s.pending

/-- A command that is on its way is pending. -/
lemma State.mem_pending {s : State} {cmd : Command} (h : cmd ∈ s.commands) :
    cmd.call ∈ s.pending :=
  List.mem_map_of_mem h

/-- The command that the regulator task works on is on its way. -/
lemma State.mem_commands {s : State} {cmd : Command} (h : s.reg.command = some cmd) :
    cmd ∈ s.commands :=
  List.mem_append_right _ (Option.mem_toList.mpr h)

/-- An executed command is pending. -/
lemma State.pending_of_executes {s : State} {id : ℕ} (h : s.reg.executes = some id) :
    id ∈ s.pending := by
  cases hreg : s.reg <;> rw [hreg] at h <;> cases h <;>
    exact State.mem_pending (State.mem_commands (by rw [hreg]; rfl))

/-- Time, and commands that are done, only make a call fit better. -/
lemma Call.Fits.mono {c : Call} {now now' : ℕ}
    {pending pending' executed executed' given given' : Prop}
    (h : c.Fits now pending executed given) (hnow : now ≤ now') (hp : pending' → pending)
    (he : executed' → executed) (hg : given' → given) :
    c.Fits now' pending' executed' given' := by
  unfold Call.Fits at *
  cases hphase : c.phase with
  | entered | connectedRead | spacesRead =>
      rw [hphase] at h
      exact mt hp h
  | created =>
      rw [hphase] at h
      exact ⟨mt hp h.1, mt hg h.2⟩
  | stamped =>
      rw [hphase] at h
      exact ⟨mt hp h.1, mt hg h.2.1, h.2.2.trans hnow⟩
  | sent =>
      rw [hphase] at h
      exact le_trans h hnow
  | waiting since =>
      rw [hphase] at h
      exact h
  | woken given =>
      rw [hphase] at h
      cases given with
      | true => exact mt hp h
      | false => exact le_trans h hnow
  | deleted given =>
      rw [hphase] at h
      cases given with
      | true => exact ⟨mt he h.1, mt hp h.2⟩
      | false => exact ⟨mt he h.1, le_trans h.2 hnow⟩
  | returned result =>
      rw [hphase] at h
      exact ⟨mt he h.1, h.2.imp (mt hp) fun hlate => hlate.trans hnow⟩

/-- What holds of a call that has not left does not depend on the execution of its command. -/
lemma Call.Fits.of_hasLeft {c : Call} {now : ℕ} {pending executed executed' given : Prop}
    (h : c.Fits now pending executed given) (hleft : c.phase.hasLeft = false) :
    c.Fits now pending executed' given := by
  unfold Call.Fits at *
  cases hphase : c.phase with
  | deleted _ | returned _ =>
      rw [hphase] at hleft
      cases hleft
  | _ =>
      rw [hphase] at h
      exact h

/-- The command of a call that has left is done, or 160 ticks old. -/
lemma Call.Fits.late {c : Call} {now : ℕ} {pending executed given : Prop}
    (h : c.Fits now pending executed given) (hleft : c.phase.hasLeft = true) :
    ¬ pending ∨ c.stamp + (expire + 10) ≤ now := by
  unfold Call.Fits at h
  cases hphase : c.phase with
  | deleted given =>
      rw [hphase] at h
      cases given with
      | true => exact Or.inl h.2
      | false => exact Or.inr h.2
  | returned _ =>
      rw [hphase] at h
      exact h.2
  | _ =>
      rw [hphase] at hleft
      cases hleft

/-- What a call's phase says is said of its phase and its stamp. -/
lemma Call.Fits.congr {c k : Call} {now : ℕ} {pending executed given : Prop}
    (h : c.Fits now pending executed given) (hphase : k.phase = c.phase)
    (hstamp : k.stamp = c.stamp) : k.Fits now pending executed given := by
  unfold Call.Fits at *
  rw [hphase, hstamp]
  exact h

/-- A step of a call that does not send keeps it fitting. -/
lemma Call.fits_next {c c' : Call} {s t : State} {alloc : Option ℕ} {pending executed : Prop}
    (h : c.next s alloc = some c') (ht : t.semaphores = c.heap alloc s.semaphores)
    (hfits : c.Fits s.now pending executed (s.Given c)) (hgiven : s.Given c → ¬ pending)
    (hexec : executed → pending) (hdelete : c.phase = .woken false → ¬ executed)
    (hsend : c.phase ≠ .stamped) :
    c'.Fits s.now pending executed (t.Given c') ∧ (t.Given c' → ¬ pending) := by
  unfold State.Given
  rw [ht]
  unfold State.Given at hfits hgiven
  unfold Call.next at h
  unfold Call.heap
  unfold Call.Fits at hfits
  cases hphase : c.phase with
  | entered =>
      simp only [hphase] at h hfits
      split_ifs at h
      · cases h
        exact ⟨hfits, fun hg => (by cases hg.1)⟩
      · cases h
        exact ⟨⟨mt hexec hfits, Or.inl hfits⟩, fun hg => (by cases hg.1)⟩
  | connectedRead =>
      simp only [hphase] at h hfits
      split_ifs at h
      · cases h
        exact ⟨⟨mt hexec hfits, Or.inl hfits⟩, fun hg => (by cases hg.1)⟩
      · cases h
        exact ⟨hfits, fun hg => (by cases hg.1)⟩
  | spacesRead =>
      simp only [hphase] at h hfits
      cases alloc with
      | none =>
          cases h
          exact ⟨⟨mt hexec hfits, Or.inl hfits⟩, fun hg => (by cases hg.1)⟩
      | some block =>
          simp only at h
          split_ifs at h
          cases h
          have hnew : Function.update s.semaphores block (some false) block ≠ some true := by
            rw [Function.update_self]
            decide
          exact ⟨⟨hfits, fun hg => hnew hg.2⟩, fun hg => absurd hg.2 hnew⟩
  | created =>
      rw [hphase] at h hfits
      cases h
      exact ⟨⟨hfits.1, fun hg => hfits.2 ⟨rfl, hg.2⟩, le_refl _⟩, fun _ => hfits.1⟩
  | stamped => exact absurd hphase hsend
  | sent =>
      rw [hphase] at h hfits hgiven
      cases h
      exact ⟨hfits, fun hg => hgiven ⟨rfl, hg.2⟩⟩
  | waiting since =>
      simp only [hphase] at h hfits hgiven
      have htaken : Function.update s.semaphores c.semaphore
          ((s.semaphores c.semaphore).map fun _ => false) c.semaphore ≠ some true := by
        rw [Function.update_self]
        intro hmap
        obtain ⟨given, -, hfalse⟩ := Option.map_eq_some_iff.mp hmap
        cases hfalse
      split_ifs at h with hsem hlate
      · cases h
        exact ⟨hgiven ⟨rfl, hsem⟩, fun hg => absurd hg.2 htaken⟩
      · cases h
        exact ⟨(show c.stamp + (expire + 10) ≤ s.now by omega), fun hg => absurd hg.2 htaken⟩
  | woken given =>
      rw [hphase] at h hfits
      cases h
      refine ⟨⟨?_, hfits⟩, fun hg => (by cases hg.1)⟩
      cases given with
      | true => exact mt hexec hfits
      | false => exact hdelete hphase
  | deleted given =>
      rw [hphase] at h hfits
      cases h
      refine ⟨⟨hfits.1, ?_⟩, fun hg => (by cases hg.1)⟩
      cases given with
      | true => exact Or.inl hfits.2
      | false => exact Or.inr hfits.2
  | returned result =>
      rw [hphase] at h
      cases h

/-- The step that sends: the command is pending from then on, if the queue had room, and the call
goes on to its wait. -/
lemma Call.fits_send {c c' : Call} {s t : State} {alloc : Option ℕ} {pending executed : Prop}
    (h : c.next s alloc = some c') (ht : t.semaphores = c.heap alloc s.semaphores)
    (hfits : c.Fits s.now pending executed (s.Given c)) (hstamped : c.phase = .stamped) :
    ¬ pending ∧ c'.semaphore = c.semaphore ∧ ¬ t.Given c' ∧
      ∀ pending' given', c'.Fits s.now pending' executed given' := by
  unfold State.Given at hfits ⊢
  rw [ht]
  unfold Call.next at h
  unfold Call.heap
  unfold Call.Fits at hfits
  rw [hstamped] at h hfits ⊢
  cases h
  exact ⟨hfits.1, rfl, fun hg => hfits.2.1 ⟨rfl, hg.2⟩, fun _ _ => hfits.2.2⟩

/-! ### Steps -/

/-- A step that changes one call, and the pending and executed commands of that call at most, keeps
the invariant if it leaves that call fitting and gives no other one's semaphore. -/
lemma LifeInv.change {s t : State} (hinv : LifeInv s) {id : ℕ} {c' : Call}
    (hnow : t.now = s.now) (hcalls : t.calls = Function.update s.calls id (some c'))
    (hnodup : t.pending.Nodup)
    (hothers : ∀ cmd, cmd.call ≠ id → cmd ∈ t.commands → cmd ∈ s.commands)
    (hknown : ∀ cmd ∈ t.commands, cmd.call = id → c'.semaphore = cmd.semaphore)
    (hexec : ∀ i, i ≠ id → t.reg.executes = some i → s.reg.executes = some i)
    (hgivens : ∀ i k, i ≠ id → s.calls i = some k → t.Given k → s.Given k)
    (hfits : c'.Fits s.now (id ∈ t.pending) (t.reg.executes = some id) (t.Given c'))
    (hgiven : t.Given c' → id ∉ t.pending) : LifeInv t := by
  have hpending : ∀ i, i ≠ id → i ∈ t.pending → i ∈ s.pending := by
    intro i hi hmem
    obtain ⟨cmd, hcmd, rfl⟩ := List.mem_map.mp hmem
    exact State.mem_pending (hothers cmd hi hcmd)
  refine ⟨hnodup, ?_, ?_, ?_⟩
  · intro cmd hcmd
    by_cases hid : cmd.call = id
    · exact ⟨c', by rw [hcalls, hid, Function.update_self], hknown cmd hcmd hid⟩
    · rw [hcalls, Function.update_of_ne hid]
      exact hinv.known cmd (hothers cmd hid hcmd)
  · intro i k hk
    rw [hcalls] at hk
    rcases Machine.entry_of_update hk with ⟨hid, hk⟩ | ⟨hid, hk⟩
    · obtain rfl := Option.some.inj hk
      rw [hnow, hid]
      exact hfits
    · exact (hinv.fits i k hk).mono hnow.ge (hpending i hid) (hexec i hid) (hgivens i k hid hk)
  · intro i k hk hsem
    rw [hcalls] at hk
    rcases Machine.entry_of_update hk with ⟨hid, hk⟩ | ⟨hid, hk⟩
    · obtain rfl := Option.some.inj hk
      rw [hid]
      exact hgiven hsem
    · exact mt (hpending i hid) (hinv.given i k hk (hgivens i k hid hk hsem))

/-- A step that changes no call keeps the invariant if commands only leave and nothing is given
but to a call whose command is done. -/
lemma LifeInv.leave {s t : State} (hinv : LifeInv s) (hnow : s.now ≤ t.now)
    (hcalls : t.calls = s.calls) (hnodup : t.pending.Nodup)
    (hcommands : ∀ cmd ∈ t.commands, cmd ∈ s.commands)
    (hexec : ∀ i, t.reg.executes = some i → s.reg.executes = some i)
    (hgiven : ∀ i k, s.calls i = some k → t.Given k → s.Given k) : LifeInv t := by
  have hpending : ∀ i, i ∈ t.pending → i ∈ s.pending := by
    intro i hmem
    obtain ⟨cmd, hcmd, rfl⟩ := List.mem_map.mp hmem
    exact State.mem_pending (hcommands cmd hcmd)
  refine ⟨hnodup, ?_, ?_, ?_⟩
  · intro cmd hcmd
    rw [hcalls]
    exact hinv.known cmd (hcommands cmd hcmd)
  · intro i k hk
    rw [hcalls] at hk
    exact (hinv.fits i k hk).mono hnow (hpending i) (hexec i) (hgiven i k hk)
  · intro i k hk hsem
    rw [hcalls] at hk
    exact mt (hpending i) (hinv.given i k hk (hgiven i k hk hsem))

/-- A new call is not known to the queue. -/
lemma LifeInv.enter {s t : State} (hinv : LifeInv s) {id : ℕ} {request : Request}
    (h : Regulator.step s (.enter id request) = some t) : LifeInv t := by
  simp only [Regulator.step] at h
  split_ifs at h with hfresh
  obtain rfl := Option.some.inj h
  have hnew : id ∉ s.pending := by
    intro hmem
    obtain ⟨cmd, hcmd, rfl⟩ := List.mem_map.mp hmem
    obtain ⟨c, hc, -⟩ := hinv.known cmd hcmd
    rw [hfresh] at hc
    cases hc
  exact hinv.change rfl rfl hinv.nodup (fun _ _ hcmd => hcmd)
    (fun cmd hcmd hid => absurd (hid ▸ State.mem_pending hcmd) hnew) (fun _ _ hi => hi)
    (fun _ _ _ _ hg => hg) hnew fun _ => hnew

/-- A call keeps its semaphore once it has one. -/
lemma Call.next_semaphore_eq {c c' : Call} {s : State} {alloc : Option ℕ}
    (h : c.next s alloc = some c') (hphase : c.phase ≠ .spacesRead) :
    c'.semaphore = c.semaphore := by
  unfold Call.next at h
  cases hc : c.phase with
  | spacesRead => exact absurd hc hphase
  | waiting since =>
      simp only [hc] at h
      split_ifs at h <;> cases h <;> rfl
  | returned result =>
      rw [hc] at h
      cases h
  | _ =>
      rw [hc] at h
      cases h
      rfl

/-- A step of a call keeps the invariant. -/
lemma LifeInv.issuer {s t : State} (hinv : LifeInv s) (hown : Owned s) {id : ℕ}
    {alloc : Option ℕ} (hok : Timely s (.issuer id alloc)) (h : issuerStep s id alloc = some t) :
    LifeInv t := by
  obtain ⟨c, c', hc, hnext, ht⟩ := issuerStep_eq h
  have hnow : t.now = s.now := by rw [ht]
  have hcalls : t.calls = Function.update s.calls id (some c') := by rw [ht]
  have hheap : t.semaphores = c.heap alloc s.semaphores := by rw [ht]
  have hreg : t.reg = s.reg := by rw [ht]
  have hcommands : t.commands = c.send id s.queue ++ s.reg.command.toList := by rw [ht]; rfl
  have hexec : ∀ i, i ≠ id → t.reg.executes = some i → s.reg.executes = some i := by
    intro i _ hi
    rwa [hreg] at hi
  have hfits := hinv.fits id c hc
  have hgivens : ∀ i k, i ≠ id → s.calls i = some k → t.Given k → s.Given k := by
    intro i k hi hk hg
    refine ⟨hg.1, ?_⟩
    rw [← hown.heap_other hc hnext hi hk hg.1, ← hheap]
    exact hg.2
  have hknown : ∀ cmd ∈ s.commands, cmd.call = id → c'.semaphore = cmd.semaphore := by
    intro cmd hcmd hid
    obtain ⟨k, hk, hsem⟩ := hinv.known cmd hcmd
    rw [hid, hc] at hk
    obtain rfl := Option.some.inj hk
    refine (Call.next_semaphore_eq hnext fun hphase => ?_).trans hsem
    unfold Call.Fits at hfits
    rw [hphase] at hfits
    exact hfits (hid ▸ State.mem_pending hcmd)
  by_cases hstamped : c.phase = .stamped
  · obtain ⟨hnew, hsem, hsilent, hsent⟩ := Call.fits_send hnext hheap hfits hstamped
    by_cases hroom : s.queue.length < queueLength
    · have hperm : t.commands.Perm (c.command id :: s.commands) := by
        rw [hcommands, Call.send, if_pos ⟨hstamped, hroom⟩, List.append_assoc]
        exact List.perm_middle
      refine hinv.change hnow hcalls ?_ (fun cmd hid hcmd => ?_) (fun cmd hcmd hid => ?_) hexec
        hgivens (hreg ▸ hsent _ _) fun hg => absurd hg hsilent
      · refine (hperm.map Command.call).nodup_iff.mpr ?_
        exact List.nodup_cons.mpr ⟨hnew, hinv.nodup⟩
      · rcases List.mem_cons.mp (hperm.mem_iff.mp hcmd) with rfl | hcmd
        · exact absurd rfl hid
        · exact hcmd
      · rcases List.mem_cons.mp (hperm.mem_iff.mp hcmd) with rfl | hcmd
        · exact hsem
        · exact hknown cmd hcmd hid
    · -- the queue is full, and the command is lost
      have hsame : t.commands = s.commands := by
        rw [hcommands, Call.send, if_neg fun hsend => hroom hsend.2]
        rfl
      have hpending : t.pending = s.pending := congrArg (List.map Command.call) hsame
      exact hinv.change hnow hcalls (hpending ▸ hinv.nodup) (fun cmd _ hcmd => hsame ▸ hcmd)
        (fun cmd hcmd => hknown cmd (hsame ▸ hcmd)) hexec hgivens (hreg ▸ hsent _ _)
        fun hg => absurd hg hsilent
  · have hsame : t.commands = s.commands := by
      rw [hcommands, Call.send, if_neg fun hsend => hstamped hsend.1]
      rfl
    have hpending : t.pending = s.pending := congrArg (List.map Command.call) hsame
    obtain ⟨hfits', hgiven⟩ := Call.fits_next hnext hheap hfits (hinv.given id c hc)
      State.pending_of_executes (hok c hc) hstamped
    refine hinv.change hnow hcalls (hpending ▸ hinv.nodup) (fun cmd _ hcmd => hsame ▸ hcmd)
      (fun cmd hcmd => hknown cmd (hsame ▸ hcmd)) hexec hgivens ?_ (hpending ▸ hgiven)
    rw [hpending, hreg]
    exact hfits'

/-- A received command stays pending. -/
lemma LifeInv.receive {s t : State} (hinv : LifeInv s)
    (h : Regulator.step s .receive = some t) : LifeInv t := by
  simp only [Regulator.step] at h
  split at h
  · next cmd rest hreg hqueue =>
      obtain rfl := Option.some.inj h
      have hperm : s.commands.Perm
          (State.commands { s with queue := rest, reg := .received cmd }) := by
        simp only [State.commands, hreg, hqueue, RegPhase.command, Option.toList_none,
          List.append_nil, Option.toList_some]
        exact (List.perm_append_singleton _ _).symm
      exact hinv.leave le_rfl rfl ((hperm.map Command.call).nodup_iff.mp hinv.nodup)
        (fun _ hcmd => hperm.mem_iff.mpr hcmd) (fun _ hi => by cases hi) fun _ _ _ hg => hg
  · cases h

/-- **What is executed has its semaphore still**: the call of a command that is executed waits, or
its wait has ended and it has not gone on. -/
lemma LifeInv.holds_of_executes {s : State} (hinv : LifeInv s) {cmd : Command}
    (hcmd : s.reg.Executing cmd) :
    ∃ c, s.calls cmd.call = some c ∧ c.semaphore = cmd.semaphore ∧ c.phase.holds = true := by
  obtain ⟨c, hc, hsem⟩ := hinv.known cmd (State.mem_commands hcmd.1)
  have hpending := State.mem_pending (State.mem_commands hcmd.1)
  refine ⟨c, hc, hsem, ?_⟩
  have hfits := hinv.fits _ c hc
  unfold Call.Fits at hfits
  cases hphase : c.phase with
  | entered | connectedRead | spacesRead =>
      rw [hphase] at hfits
      exact absurd hpending hfits
  | created | stamped | sent | waiting _ | woken _ => rfl
  | deleted _ | returned _ =>
      rw [hphase] at hfits
      exact absurd hcmd.2 hfits.1

/-- The regulator task is done with its command. -/
lemma State.commands_idle {s t : State} (hqueue : t.queue = s.queue) (hreg : t.reg = .idle) :
    t.commands.Sublist s.commands := by
  rw [State.commands, hqueue, hreg, RegPhase.command, Option.toList_none, List.append_nil]
  exact List.sublist_append_left _ _

/-- A step of the regulator task that goes on with a command keeps the invariant: what the expiry
test lets pass has its semaphore still. -/
lemma LifeInv.move {s : State} (hinv : LifeInv s) {cmd : Command} {f : Call → Call}
    {reg : RegPhase} (hok : s.reg.Timely s) (hcmd : s.reg.command = some cmd) (hf : Call.Kept f)
    (hreg : reg.Next s cmd) : LifeInv { s.update cmd.call f with reg := reg } := by
  obtain ⟨c, hc, hsem⟩ := hinv.known cmd (State.mem_commands hcmd)
  have hmem := State.mem_pending (State.mem_commands hcmd)
  obtain ⟨hphase, -, hstamp, -, hsem'⟩ := hf c
  have hcalls : (s.update cmd.call f).calls = Function.update s.calls cmd.call (some (f c)) := by
    rw [State.update, hc, Option.map_some]
  have hgivens : ∀ k, ({ s.update cmd.call f with reg := reg } : State).Given k ↔ s.Given k :=
    fun _ => Iff.rfl
  have hsub : (State.commands { s.update cmd.call f with reg := reg }).Sublist s.commands := by
    rcases hreg with rfl | ⟨hexec, -⟩
    · exact State.commands_idle rfl rfl
    · rw [State.commands, State.commands, hexec.1, hcmd]
      exact List.Sublist.refl _
  have hpending : cmd.call ∈ State.pending { s.update cmd.call f with reg := reg } →
      cmd.call ∈ s.pending := fun _ => hmem
  have hsame : s.Given (f c) ↔ s.Given c := by
    rw [State.Given, State.Given, hphase, hsem']
  refine hinv.change rfl hcalls (hinv.nodup.sublist (hsub.map Command.call))
    (fun _ _ hk => hsub.subset hk) (fun k hk hid => ?_) (fun i hid hi => ?_) (fun _ _ _ _ hg => hg)
    ?_ fun hg => absurd hmem (hinv.given _ c hc (hsame.mp hg))
  · obtain ⟨k', hk', hksem⟩ := hinv.known k (hsub.subset hk)
    rw [hid, hc] at hk'
    obtain rfl := Option.some.inj hk'
    exact hsem'.trans hksem
  · rcases hreg with rfl | ⟨hexec, -⟩
    · cases hi
    · exact absurd (Option.some.inj (hexec.2.symm.trans hi)).symm hid
  · have hfits := hinv.fits _ c hc
    refine Call.Fits.congr (Call.Fits.mono ?_ le_rfl (fun _ => hmem) id hsame.mp) hphase hstamp
    rcases hreg with rfl | ⟨-, hbefore | ⟨hreceived, htest⟩⟩
    · exact hfits.mono le_rfl id (fun hi => by cases hi) id
    · exact hfits.mono le_rfl id (fun _ => hbefore.2) id
    · -- the execution begins: the call has not left, as its command would be 160 ticks old
      unfold RegPhase.Timely at hok
      rw [hreceived] at hok
      refine hfits.of_hasLeft ((hok htest c hc).elim (fun hearly => ?_) id)
      by_contra hleft
      rcases hfits.late (Bool.not_eq_false _ ▸ hleft) with hgone | hlate
      · exact hgone hmem
      · omega

/-- The give keeps the invariant: the semaphore is that of the command's call, and the command has
no other copy. -/
lemma LifeInv.give {s : State} (hinv : LifeInv s) (hown : Owned s) {cmd : Command}
    (hreg : s.reg = .giving cmd) :
    LifeInv { s with semaphores := Regulator.give s.semaphores cmd.semaphore, reg := .idle } := by
  have hexec : s.reg.Executing cmd := by rw [hreg]; exact ⟨rfl, rfl⟩
  obtain ⟨c, hc, hsem, hholds⟩ := hinv.holds_of_executes hexec
  have hmem := State.mem_pending (State.mem_commands hexec.1)
  have hpending : State.pending { s with
      semaphores := Regulator.give s.semaphores cmd.semaphore, reg := .idle } =
        s.queue.map Command.call := by
    simp only [State.pending, State.commands, RegPhase.command, Option.toList_none,
      List.append_nil]
  have hnodup : (s.queue.map Command.call ++ [cmd.call]).Nodup := by
    have hnodup := hinv.nodup
    rwa [State.pending, State.commands, hexec.1, List.map_append] at hnodup
  have hgone : cmd.call ∉ s.queue.map Command.call :=
    fun hq => (List.disjoint_of_nodup_append hnodup) hq (List.mem_singleton.mpr rfl)
  rw [← hpending] at hgone
  refine hinv.change rfl (by rw [← hc, Function.update_eq_self])
    (hpending ▸ (List.nodup_append.mp hnodup).1) (fun k _ hk => ?_) (fun k hk hid => ?_)
    (fun _ _ hi => by cases hi) (fun i k hi hk hg => ?_) ?_ fun _ => hgone
  · exact List.mem_append_left _ ((List.append_nil s.queue) ▸ hk)
  · exact absurd (hid ▸ State.mem_pending hk) hgone
  · -- another call holds another semaphore
    refine ⟨hg.1, ?_⟩
    rw [← hg.2]
    refine (give_of_ne fun heq => hi ?_).symm
    exact hown.own i cmd.call k c hk hc hg.1 hholds (heq.trans hsem.symm)
  · have hfits := hinv.fits _ c hc
    unfold Call.Fits at hfits ⊢
    cases hphase : c.phase with
    | created | stamped =>
        rw [hphase] at hfits
        exact absurd hmem hfits.1
    | sent | waiting _ =>
        rw [hphase] at hfits
        exact hfits
    | woken given =>
        rw [hphase] at hfits
        cases given with
        | true => exact hgone
        | false => exact hfits
    | entered | connectedRead | spacesRead | deleted _ | returned _ =>
        rw [hphase] at hholds
        cases hholds

/-! ### Runs -/

/-- A step that meets the condition keeps the invariant. -/
theorem LifeInv.step {s t : State} {e : Event} (hinv : LifeInv s) (hown : Owned s)
    (hok : Timely s e) (h : Regulator.step s e = some t) : LifeInv t := by
  cases e with
  | tick =>
      obtain rfl := Option.some.inj h
      exact hinv.leave (Nat.le_succ _) rfl hinv.nodup (fun _ hi => hi) (fun _ hi => hi)
        fun _ _ _ hg => hg
  | enter id request => exact hinv.enter h
  | issuer id alloc => exact hinv.issuer hown hok h
  | exchange answered | publish =>
      simp only [Regulator.step] at h
      split at h
      · obtain rfl := Option.some.inj h
        exact hinv.leave le_rfl rfl hinv.nodup (fun _ hi => hi) (fun _ hi => hi)
          fun _ _ _ hg => hg
      · cases h
  | receive => exact hinv.receive h
  | process answered =>
      obtain ⟨cmd, hcmd, ⟨f, reg, rfl, hf, hreg⟩ | ⟨hreg, rfl⟩⟩ := processStep_cases h
      · exact hinv.move hok hcmd hf hreg
      · exact hinv.give hown hreg

/-- At the start no command is on its way. -/
lemma lifeInv_init : LifeInv init :=
  ⟨List.nodup_nil, fun _ h => absurd h List.not_mem_nil, fun _ _ h => (nomatch h),
    fun _ _ h => (nomatch h)⟩

/-- The invariants hold after every run whose steps meet the condition. -/
theorem LifeInv.of_run {es : List Event} {s : State}
    (hok : Machine.Meets Regulator.step Timely init es)
    (hrun : Machine.run Regulator.step init es = some s) : Owned s ∧ LifeInv s := by
  have hstep : ∀ s e t, Owned s ∧ LifeInv s → Timely s e → Regulator.step s e = some t →
      Owned t ∧ LifeInv t := fun _ _ _ h hs ht => ⟨h.1.step ht, h.2.step h.1 hs ht⟩
  have hinit : Owned init ∧ LifeInv init := ⟨owned_init, lifeInv_init⟩
  exact Machine.run_induction hstep hinit hok hrun

/-- A command that is used is executed. -/
lemma executes_of_touches {s : State} {e : Event} {id : ℕ} (h : touches s e = some id) :
    s.reg.executes = some id := by
  cases e with
  | process answered =>
      unfold touches at h
      cases hreg : s.reg with
      | idle | received _ | written _ _ =>
          rw [hreg] at h
          cases h
      | writing cmd tries =>
          simp only [hreg] at h
          split_ifs at h
          exact h
      | reading cmd tries =>
          simp only [hreg] at h
          split_ifs at h
          exact h
      | storing cmd _ | giving cmd =>
          rw [hreg] at h
          exact h
  | _ => cases h

/-- An event uses no call that has returned. -/
def UsesNoReturned (s : State) (e : Event) : Prop :=
  ∀ id c, touches s e = some id → s.calls id = some c → c.phase.hasReturned = false

/-- **A command is not used after its issuer has left, as long as it is executed in time.** In
every run of any number of calls, in every interleaving with the regulator task, whose steps all
meet `Timely`: no step of the regulator task accesses the stack frame or the semaphore of a call
that has returned. -/
theorem usesNoReturned_of_timely (es : List Event) (e : Event) (s : State)
    (hok : Machine.Meets Regulator.step Timely init es)
    (hrun : Machine.run Regulator.step init es = some s) : UsesNoReturned s e := by
  obtain ⟨-, hinv⟩ := LifeInv.of_run hok hrun
  intro id c huse hc
  have hfits := hinv.fits id c hc
  unfold Call.Fits at hfits
  cases hphase : c.phase with
  | returned result =>
      rw [hphase] at hfits
      exact absurd (executes_of_touches huse) hfits.1
  | _ => rfl

/-- The request of `reg_crangeSet`. Source: `regulatorConnTSK.c` `reg_crangeSet`. -/
def crangeSet : Request := ⟨0x0110, 1, 0, 0, Or.inl (by decide)⟩

/-- The next steps of the first call, whose semaphore the heap puts into its first block. -/
def issuerSteps (n : ℕ) : List Event := List.replicate n (.issuer 0 (some 0))

/-- A call of `reg_crangeSet` up to its wait, and the receipt of its command. -/
def submitCrange : List Event :=
  [Event.enter 0 crangeSet] ++ issuerSteps 6 ++ [Event.receive, Event.process true,
    Event.process true]

/-- The run in which the command is answered is timely up to the store of its result. -/
theorem usesNoReturned_submitCrange :
    ∃ s, Machine.run Regulator.step init (submitCrange ++ [.process true, .process true]) =
      some s ∧ UsesNoReturned s (.process true) := by
  obtain ⟨s, hrun⟩ : ∃ s, Machine.run Regulator.step init
      (submitCrange ++ [.process true, .process true]) = some s :=
    Option.isSome_iff_exists.mp (by decide +kernel)
  exact ⟨s, hrun, usesNoReturned_of_timely _ (.process true) s (by decide +kernel) hrun⟩

/-- The regulator stays silent: each try of the write waits for the 100 ticks of the response
timeout, the wait of the call runs out after 160, and the call returns. -/
def silentRun : List Event :=
  submitCrange ++ List.replicate 100 Event.tick ++ [Event.process false, Event.process true] ++
    List.replicate 60 Event.tick ++
    issuerSteps 3 ++
    List.replicate 40 Event.tick ++ [Event.process false, Event.process true] ++
    List.replicate 100 Event.tick ++ [Event.process false]

/-- **A command outlives its issuer.** The three tries of a write to a silent regulator take 300
ticks; the regulator task then stores the result in the stack frame of a call that has
returned. -/
theorem not_usesNoReturned_silentRun :
    ¬ ∀ es e s t, Machine.run Regulator.step init es = some s →
      Regulator.step s e = some t → UsesNoReturned s e := by
  intro hall
  have hview : ((Machine.run Regulator.step init silentRun).bind fun s =>
      (Regulator.step s (.process true)).bind fun _ => (s.calls 0).map fun c =>
        (touches s (.process true), c.phase.hasReturned)) = some (some 0, true) := by
    decide +kernel
  obtain ⟨s, hrun, hs⟩ := Option.bind_eq_some_iff.mp hview
  obtain ⟨t, hstep, ht⟩ := Option.bind_eq_some_iff.mp hs
  obtain ⟨c, hc, hpair⟩ := Option.map_eq_some_iff.mp ht
  obtain ⟨huse, hreturned⟩ := Prod.mk.inj hpair
  have hrunning := hall silentRun (.process true) s t hrun hstep 0 c huse hc
  rw [hreturned] at hrunning
  cases hrunning

end PanelFirmware.Regulator
