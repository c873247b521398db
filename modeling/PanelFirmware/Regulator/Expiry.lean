import PanelFirmware.Regulator.CommandLifetime

/-!
# The expiry of a command and the tick counter

`reg_waitCommand` stamps its command with a tick count 150 ahead, and the regulator task compares
it with the tick count when it has dequeued the command. Both are counters of 32 bits that wrap,
and `>` compares them as numbers.

* `StampInv`: what is known, in every run, of the stamp of a command that is on its way.
* `expiry_iff`: exactly when the comparison decides as the delay demands.
* `occurs`: every submission tick and every delay occurs in a run.
-/

namespace PanelFirmware.Regulator

open PanelFirmware.Lib

/-- The expiry tick and the tick after a delay lie in the same turn of the tick counter: both are
before the wrap that follows the submission, or both are behind it. -/
def SameTurn (tick delay : ℕ) : Prop := tick + expire < 2 ^ 32 ↔ tick + delay < 2 ^ 32

instance (tick delay : ℕ) : Decidable (SameTurn tick delay) :=
  inferInstanceAs (Decidable (_ ↔ _))

/-- The comparison of the regulator task. Source: `regulatorConnTSK.c` `regulatorConnTSK`,
`command.expireTime > currentTime`. -/
lemma expireTime_gt_iff {tick delay : ℕ} (htick : tick < 2 ^ 32) (hdelay : delay < 2 ^ 31) :
    ((tick + expire) % 2 ^ 32 > (tick + delay) % 2 ^ 32 ↔ delay < expire) ↔
      SameTurn tick delay := by
  unfold SameTurn expire
  omega

/-! ### The stamp of a command -/

/-- What the regulator task and the other calls leave of a call. -/
def Call.core (c : Call) : Phase × ℕ × ℕ := (c.phase, c.stamp, c.expireTime)

/-- The core of a call, if it exists. -/
def State.core (s : State) (id : ℕ) : Option (Phase × ℕ × ℕ) := (s.calls id).map Call.core

/-- The phases of a call that has sent its command. -/
def Phase.hasSent : Phase → Bool
  | .sent | .waiting _ | .woken _ | .deleted _ | .returned _ => true
  | _ => false

/-- An expiry of 150 ticks from the stamp on, which is not ahead. -/
def Stamped (now stamp expireTime : ℕ) : Prop :=
  expireTime = (stamp + expire) % 2 ^ 32 ∧ stamp ≤ now

/-- The invariant of the stamps: a call that has stamped its command, or sent it, has stamped it
once. -/
structure StampInv (s : State) : Prop where
  stamped : ∀ id stamp e, s.core id = some (.stamped, stamp, e) → Stamped s.now stamp e
  sent : ∀ cmd ∈ s.commands, ∃ phase stamp e, s.core cmd.call = some (phase, stamp, e) ∧
    phase.hasSent = true ∧ Stamped s.now stamp cmd.expireTime

/-- A later tick leaves a stamp as good. -/
lemma Stamped.mono {now now' stamp e : ℕ} (h : Stamped now stamp e) (hnow : now ≤ now') :
    Stamped now' stamp e :=
  ⟨h.1, h.2.trans hnow⟩

/-- A step that leaves the cores and adds no command keeps the invariant. -/
lemma StampInv.leave {s t : State} (hinv : StampInv s) (hnow : s.now ≤ t.now)
    (hcore : ∀ id, t.core id = s.core id) (hcommands : ∀ cmd ∈ t.commands, cmd ∈ s.commands) :
    StampInv t := by
  refine ⟨fun id stamp e h => ?_, fun cmd hcmd => ?_⟩
  · rw [hcore] at h
    exact (hinv.stamped id stamp e h).mono hnow
  · obtain ⟨phase, stamp, e, hc, hsent, hstamp⟩ := hinv.sent cmd (hcommands cmd hcmd)
    exact ⟨phase, stamp, e, (hcore _).trans hc, hsent, hstamp.mono hnow⟩

/-- A change of a call that leaves its core leaves every core. -/
lemma core_update {s : State} {id : ℕ} {f : Call → Call} (hf : ∀ c, (f c).core = c.core)
    (i : ℕ) : (s.update id f).core i = s.core i := by
  unfold State.core State.update
  dsimp only
  by_cases hi : i = id
  · rw [hi, Function.update_self, Option.map_map]
    exact congrArg (fun g => (s.calls id).map g) (funext hf)
  · rw [Function.update_of_ne hi]

/-- A step of the regulator task on its command leaves every core, and takes up no command. -/
lemma processStep_frame {s t : State} {answered : Bool} (h : processStep s answered = some t) :
    t.now = s.now ∧ t.queue = s.queue ∧ (∀ id, t.core id = s.core id) ∧
      ∀ cmd, t.reg.command = some cmd → s.reg.command = some cmd := by
  obtain ⟨c, hc, ⟨f, reg, rfl, hf, hreg⟩ | ⟨-, rfl⟩⟩ := processStep_cases h
  · refine ⟨rfl, rfl, core_update fun k => ?_, fun cmd hcmd => ?_⟩
    · obtain ⟨hphase, -, hstamp, hexpire, -⟩ := hf k
      rw [Call.core, Call.core, hphase, hstamp, hexpire]
    · rcases hreg with rfl | ⟨hexec, -⟩
      · cases hcmd
      · exact hc.trans (hexec.1.symm.trans hcmd)
  · exact ⟨rfl, rfl, fun _ => rfl, fun _ hcmd => (by cases hcmd)⟩

/-- A step of a call leaves the core of a call that has sent its command, and stamps and sends as
the source does. -/
lemma Call.next_core {c c' : Call} {s : State} {alloc : Option ℕ}
    (h : c.next s alloc = some c') :
    (c.phase.hasSent = true → c'.phase.hasSent = true ∧ c'.stamp = c.stamp) ∧
      (c.phase = .stamped → c'.phase.hasSent = true ∧ c'.stamp = c.stamp) ∧
      (c'.phase = .stamped → Stamped s.now c'.stamp c'.expireTime) := by
  unfold Call.next at h
  cases hphase : c.phase with
  | waiting since =>
      simp only [hphase] at h
      split_ifs at h
      · obtain rfl := Option.some.inj h
        exact ⟨fun _ => ⟨rfl, rfl⟩, fun hst => (by cases hst), fun hst => (by cases hst)⟩
      · obtain rfl := Option.some.inj h
        exact ⟨fun _ => ⟨rfl, rfl⟩, fun hst => (by cases hst), fun hst => (by cases hst)⟩
  | created =>
      rw [hphase] at h
      obtain rfl := Option.some.inj h
      refine ⟨fun hs => (by cases hs), fun hst => (by cases hst), fun _ => ⟨?_, le_rfl⟩⟩
      exact Nat.mod_add_mod s.now (2 ^ 32) expire
  | stamped | sent | woken given | deleted given =>
      rw [hphase] at h
      obtain rfl := Option.some.inj h
      exact ⟨fun _ => ⟨rfl, rfl⟩, fun _ => ⟨rfl, rfl⟩, fun hst => (by cases hst)⟩
  | spacesRead =>
      simp only [hphase] at h
      cases alloc with
      | none =>
          obtain rfl := Option.some.inj h
          exact ⟨fun hs => (by cases hs), fun hst => (by cases hst), fun hst => (by cases hst)⟩
      | some block =>
          simp only at h
          split_ifs at h
          obtain rfl := Option.some.inj h
          exact ⟨fun hs => (by cases hs), fun hst => (by cases hst), fun hst => (by cases hst)⟩
  | entered | connectedRead =>
      rw [hphase] at h
      obtain rfl := Option.some.inj h
      refine ⟨fun hs => (by cases hs), fun hst => (by cases hst), fun hst => ?_⟩
      simp only at hst
      split_ifs at hst
  | returned result =>
      rw [hphase] at h
      cases h

/-- The cores after a change of one call. -/
lemma core_of_calls {s t : State} {id : ℕ} {c : Call}
    (h : t.calls = Function.update s.calls id (some c)) :
    t.core id = some c.core ∧ ∀ i, i ≠ id → t.core i = s.core i := by
  unfold State.core
  rw [h]
  refine ⟨by rw [Function.update_self, Option.map_some], fun i hi => ?_⟩
  rw [Function.update_of_ne hi]

/-- A command in the queue after a step of a call was there before, or is the one it has
stamped. -/
lemma Call.mem_send {c : Call} {id : ℕ} {queue : List Command} {cmd : Command}
    (h : cmd ∈ c.send id queue) : cmd ∈ queue ∨ c.phase = .stamped ∧ cmd = c.command id := by
  unfold Call.send at h
  split_ifs at h with hsend
  · rcases List.mem_append.mp h with h | h
    · exact Or.inl h
    · exact Or.inr ⟨hsend.1, List.mem_singleton.mp h⟩
  · exact Or.inl h

/-- A step of a call keeps the invariant. -/
lemma StampInv.issuer {s t : State} (hinv : StampInv s) {id : ℕ} {alloc : Option ℕ}
    (h : issuerStep s id alloc = some t) : StampInv t := by
  obtain ⟨c, c', hc, hnext, ht⟩ := issuerStep_eq h
  obtain ⟨hsent, hsend, hstamp⟩ := Call.next_core hnext
  have hcalls : t.calls = Function.update s.calls id (some c') := by rw [ht]
  have hnow : t.now = s.now := by rw [ht]
  have hcore : s.core id = some c.core := by rw [State.core, hc, Option.map_some]
  obtain ⟨hself, hother⟩ := core_of_calls hcalls
  rw [Call.core] at hself hcore
  refine ⟨fun i stamp e hi => ?_, fun cmd hcmd => ?_⟩
  · rw [hnow]
    by_cases hid : i = id
    · rw [hid, hself, Option.some.injEq, Prod.mk.injEq, Prod.mk.injEq] at hi
      obtain ⟨hphase, rfl, rfl⟩ := hi
      exact hstamp hphase
    · rw [hother i hid] at hi
      exact hinv.stamped i stamp e hi
  · have hmem : cmd ∈ s.commands ∨ c.phase = .stamped ∧ cmd = c.command id := by
      unfold State.commands at hcmd ⊢
      rw [ht] at hcmd
      rcases List.mem_append.mp hcmd with hcmd | hcmd
      · exact (Call.mem_send hcmd).imp_left (List.mem_append_left _)
      · exact Or.inl (List.mem_append_right _ hcmd)
    rw [hnow]
    rcases hmem with hold | ⟨hphase, rfl⟩
    · obtain ⟨phase, stamp, e, hcmdcore, hphase, hst⟩ := hinv.sent cmd hold
      by_cases hid : cmd.call = id
      · rw [hid, hcore, Option.some.injEq, Prod.mk.injEq, Prod.mk.injEq] at hcmdcore
        obtain ⟨rfl, rfl, rfl⟩ := hcmdcore
        obtain ⟨hlater, hsame⟩ := hsent hphase
        rw [hid]
        exact ⟨_, _, _, hself, hlater, hsame ▸ hst⟩
      · exact ⟨phase, stamp, e, (hother _ hid).trans hcmdcore, hphase, hst⟩
    · obtain ⟨hlater, hsame⟩ := hsend hphase
      rw [hphase] at hcore
      exact ⟨_, _, _, hself, hlater, hsame ▸ hinv.stamped id _ _ hcore⟩

/-- Every step keeps the invariant. -/
lemma StampInv.step {s t : State} (hinv : StampInv s) {e : Event}
    (h : Regulator.step s e = some t) : StampInv t := by
  cases e with
  | tick =>
      obtain rfl := Option.some.inj h
      exact hinv.leave (Nat.le_succ _) (fun _ => rfl) fun _ hcmd => hcmd
  | enter id request =>
      simp only [Regulator.step] at h
      split_ifs at h with hfresh
      have hcalls : t.calls = Function.update s.calls id (some (Call.new request)) := by
        rw [← Option.some.inj h]
      have hnow : t.now = s.now := by rw [← Option.some.inj h]
      have hcommands : t.commands = s.commands := by rw [← Option.some.inj h]; rfl
      have hnone : s.core id = none := by rw [State.core, hfresh, Option.map_none]
      obtain ⟨hself, hother⟩ := core_of_calls hcalls
      refine ⟨fun i stamp e hi => ?_, fun cmd hcmd => ?_⟩
      · rw [hnow]
        by_cases hid : i = id
        · rw [hid, hself] at hi
          cases hi
        · rw [hother i hid] at hi
          exact hinv.stamped i stamp e hi
      · rw [hcommands] at hcmd
        obtain ⟨phase, stamp, e, hcore, hphase, hst⟩ := hinv.sent cmd hcmd
        have hid : cmd.call ≠ id := by
          intro hid
          rw [hid, hnone] at hcore
          cases hcore
        rw [hnow]
        exact ⟨phase, stamp, e, (hother _ hid).trans hcore, hphase, hst⟩
  | issuer id alloc => exact hinv.issuer h
  | exchange answered | publish =>
      simp only [Regulator.step] at h
      split at h
      · obtain rfl := Option.some.inj h
        exact hinv.leave le_rfl (fun _ => rfl) fun _ hcmd => hcmd
      · cases h
  | receive =>
      simp only [Regulator.step] at h
      split at h
      · next cmd rest hreg hqueue =>
          obtain rfl := Option.some.inj h
          refine hinv.leave le_rfl (fun _ => rfl) fun c hc => ?_
          simp only [State.commands, hreg, hqueue, RegPhase.command, Option.toList_some,
            Option.toList_none, List.append_nil, List.mem_append, List.mem_cons,
            List.not_mem_nil, or_false] at hc ⊢
          exact hc.symm
      · cases h
  | process answered =>
      obtain ⟨hnow, hqueue, hcore, hcommand⟩ := processStep_frame h
      refine hinv.leave hnow.ge hcore fun cmd hcmd => ?_
      unfold State.commands at hcmd ⊢
      rw [hqueue] at hcmd
      refine List.mem_append.mpr ((List.mem_append.mp hcmd).imp_right fun hreg => ?_)
      rw [Option.mem_toList] at hreg ⊢
      exact hcommand cmd hreg

/-- At the start nothing is stamped and nothing is on its way. -/
lemma init_stampInv : StampInv init :=
  ⟨fun _ _ _ h => (by cases h), fun _ h => (by cases h)⟩

/-- **The stamp of a command that is on its way**, in every run: 150 ticks behind the tick of its
submission, which its call records. -/
theorem stamped_of_run {es : List Event} {s : State} (hrun : Machine.run step init es = some s)
    {cmd : Command} (hcmd : cmd ∈ s.commands) :
    ∃ c, s.calls cmd.call = some c ∧ Stamped s.now c.stamp cmd.expireTime := by
  have hinv : StampInv s := Machine.run_invariant (I := StampInv)
    (fun _ _ _ h hstep => h.step hstep) init_stampInv hrun
  obtain ⟨phase, stamp, e, hcore, -, hst⟩ := hinv.sent cmd hcmd
  obtain ⟨c, hc, heq⟩ := Option.map_eq_some_iff.mp hcore
  rw [Call.core, Prod.mk.injEq, Prod.mk.injEq] at heq
  obtain ⟨-, rfl, -⟩ := heq
  exact ⟨c, hc, hst⟩

/-! ### The expiry test -/

/-- The regulator task executes a command exactly if the comparison of the two ticks says so. -/
lemma executes_iff {s t : State} {cmd : Command} {answered : Bool} (hreg : s.reg = .received cmd)
    (h : processStep s answered = some t) :
    t.reg.executes = some cmd.call ↔ cmd.expireTime > s.tickCount := by
  unfold processStep at h
  simp only [hreg] at h
  split_ifs at h with htest
  · obtain rfl := Option.some.inj h
    exact iff_of_true (writePart_executing cmd).2 htest
  · obtain rfl := Option.some.inj h
    exact iff_of_false (fun hexec => by cases hexec) htest

/-- The comparison that decides on a command, by the tick of its submission and its delay. -/
lemma executes_iff_ticks {es : List Event} {s t : State} (hrun : Machine.run step init es = some s)
    {cmd : Command} {c : Call} (hreg : s.reg = .received cmd) (hc : s.calls cmd.call = some c)
    {answered : Bool} (hstep : step s (.process answered) = some t) :
    t.reg.executes = some cmd.call ↔
      (c.stamp % 2 ^ 32 + expire) % 2 ^ 32 > (c.stamp % 2 ^ 32 + (s.now - c.stamp)) % 2 ^ 32 := by
  have hcmd : cmd ∈ s.commands := by
    unfold State.commands
    rw [hreg]
    exact List.mem_append_right _ (List.mem_singleton.mpr rfl)
  obtain ⟨c', hc', hexpire, hle⟩ := stamped_of_run hrun hcmd
  obtain rfl := Option.some.inj (hc'.symm.trans hc)
  rw [executes_iff hreg hstep, hexpire, State.tickCount, Nat.mod_add_mod, Nat.mod_add_mod,
    Nat.add_sub_cancel' hle]

/-- **The expiry across the wrap of the tick counter, and exactly when it is right.** In every run,
for a command that the regulator task takes up less than `2 ^ 31` ticks after its submission: it is
executed if and only if these are fewer than 150, if and only if the expiry tick and the current
tick lie in the same turn of the counter. -/
theorem expiry_iff {es : List Event} {s t : State} (hrun : Machine.run step init es = some s)
    {cmd : Command} {c : Call} (hreg : s.reg = .received cmd) (hc : s.calls cmd.call = some c)
    {answered : Bool} (hstep : step s (.process answered) = some t)
    (hdelay : s.now - c.stamp < 2 ^ 31) :
    (t.reg.executes = some cmd.call ↔ s.now - c.stamp < expire) ↔
      SameTurn (c.stamp % 2 ^ 32) (s.now - c.stamp) := by
  rw [executes_iff_ticks hrun hreg hc hstep]
  exact expireTime_gt_iff (Nat.mod_lt _ (by decide)) hdelay

/-! ### Submissions -/

/-- Ticks pass. -/
lemma run_ticks (s : State) (n : ℕ) :
    Machine.run step s (List.replicate n .tick) = some { s with now := s.now + n } := by
  induction n generalizing s with
  | zero => rfl
  | succ n ih =>
      rw [List.replicate_succ, Machine.run, step, Option.bind_some, ih, Nat.add_assoc,
        Nat.add_comm 1 n]

/-- A read of two registers. -/
def serialRequest : Request := ⟨0, 0, 4, 2, by decide⟩

/-- **Every submission tick and every delay occur in a run**: a task submits a command at the tick,
and the regulator task takes it up after the delay. -/
theorem occurs (tick delay : ℕ) (answered : Bool) :
    ∃ es s t cmd c, Machine.run step init es = some s ∧ s.reg = .received cmd ∧
      s.calls cmd.call = some c ∧ step s (.process answered) = some t ∧ c.stamp = tick ∧
      s.now - c.stamp = delay := by
  have hstart := run_ticks init tick
  obtain ⟨u, hsubmit, hidle, cmd, hqueue, c, hc, hstamp, hnow⟩ :
      ∃ u, Machine.run step { init with now := init.now + tick }
          ([Event.enter 0 serialRequest] ++ issuerSteps 5) = some u ∧
        u.reg = .idle ∧ ∃ cmd, u.queue = [cmd] ∧ ∃ c, u.calls cmd.call = some c ∧
          c.stamp = 0 + tick ∧ u.now = 0 + tick :=
    ⟨_, rfl, rfl, _, rfl, _, rfl, rfl, rfl⟩
  have hwait := run_ticks u delay
  have hreceive : Machine.run step { u with now := u.now + delay } [.receive]
      = some { u with now := u.now + delay, queue := [], reg := .received cmd } := by
    simp only [Machine.run, step, hidle, hqueue, Option.bind_some]
  have hrun := (Machine.run_append hstart _).trans
    ((Machine.run_append hsubmit _).trans ((Machine.run_append hwait _).trans hreceive))
  obtain ⟨t, ht⟩ : ∃ t, step { u with
      now := u.now + delay, queue := [], reg := .received cmd } (.process answered) = some t := by
    simp only [step, processStep]
    split_ifs
    · exact ⟨_, rfl⟩
    · exact ⟨_, rfl⟩
  refine ⟨_, _, t, cmd, c, hrun, rfl, hc, ht, by omega, ?_⟩
  change u.now + delay - c.stamp = delay
  omega

/-- A command submitted 200 ticks before the wrap and taken up 10 ticks later. -/
theorem expiry_beforeWrap :
    ∃ es s t cmd c, Machine.run step init es = some s ∧ s.reg = .received cmd ∧
      s.calls cmd.call = some c ∧ step s (.process true) = some t ∧
      ((t.reg.executes = some cmd.call ↔ s.now - c.stamp < expire) ↔
        SameTurn (c.stamp % 2 ^ 32) (s.now - c.stamp)) := by
  obtain ⟨es, s, t, cmd, c, hrun, hreg, hc, hstep, -, hdelay⟩ := occurs (2 ^ 32 - 200) 10 true
  have hshort : s.now - c.stamp < 2 ^ 31 := by omega
  exact ⟨es, s, t, cmd, c, hrun, hreg, hc, hstep, expiry_iff hrun hreg hc hstep hshort⟩

/-- **A live command is dropped.** A command submitted 100 ticks before the tick counter wraps, and
taken up in the same tick, is not executed. -/
theorem not_expiry :
    ¬ ∀ (es : List Event) (s t : State) (cmd : Command) (c : Call) (answered : Bool),
      Machine.run step init es = some s → s.reg = .received cmd → s.calls cmd.call = some c →
      step s (.process answered) = some t → s.now - c.stamp < 2 ^ 31 →
      (t.reg.executes = some cmd.call ↔ s.now - c.stamp < expire) := by
  intro h
  obtain ⟨es, s, t, cmd, c, hrun, hreg, hc, hstep, hstamp, hdelay⟩ := occurs (2 ^ 32 - 100) 0 true
  have hright := h es s t cmd c true hrun hreg hc hstep (by omega)
  rw [executes_iff_ticks hrun hreg hc hstep, hdelay, hstamp] at hright
  exact absurd (hright.mpr (by decide)) (by decide)

end PanelFirmware.Regulator
