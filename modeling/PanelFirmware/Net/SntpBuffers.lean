import PanelFirmware.Net.Sntp

/-!
# `net/src/sntp.c`: the packet buffers

A request's buffer is held by the timeout of its answer, which frees it. `sntp_recv` stops that
timeout, and frees the packet that it is given: the request's buffer is then held by nothing.

* `step_grows`: what a callback does to the buffers.
* `accounted_iff`: every buffer is freed once or held by its timeout, exactly when no packet arrives
  before the timeout of the last request; none is freed twice in any run.
-/

namespace PanelFirmware.Net.Sntp

open PanelFirmware.Lib

/-! ### Who holds a buffer -/

/-- How often a buffer was freed or is held by a timeout. -/
def State.total (s : State) (id : ℕ) : ℕ :=
  s.freed.count id + s.timers.count (.sendRequestTimeout id)

/-- Every buffer allocated or received was freed once or is held by its timeout, and no other is. -/
def Accounted (s : State) : Prop := ∀ id, s.total id = if id < s.pbufs then 1 else 0

/-- No buffer is freed or held twice. -/
def AtMostOnce (s : State) : Prop := ∀ id, s.total id ≤ if id < s.pbufs then 1 else 0

/-- A buffer is neither freed nor held. -/
def Lost (s : State) : Prop := ∃ id < s.pbufs, s.total id = 0

/-- A packet arrives after the timeout of the last request. -/
def AfterTimeout (s : State) : Event → Prop
  | .packet _ _ => ∀ arg ∈ s.recvArg, Timer.sendRequestTimeout arg ∉ s.timers
  | _ => True

instance (s : State) : (e : Event) → Decidable (AfterTimeout s e)
  | .packet _ _ =>
      inferInstanceAs (Decidable (∀ arg ∈ s.recvArg, Timer.sendRequestTimeout arg ∉ s.timers))
  | .dnsFound _ _ => isTrue trivial
  | .timer _ _ => isTrue trivial

/-- New buffers are freed or held once, the others as before. -/
structure Grows (s t : State) : Prop where
  pbufs : s.pbufs ≤ t.pbufs
  total : ∀ id, t.total id = s.total id + if s.pbufs ≤ id ∧ id < t.pbufs then 1 else 0

/-- Nothing is done to the buffers. -/
lemma grows_of_total_eq {s t : State} (hpbufs : t.pbufs = s.pbufs)
    (htotal : ∀ id, t.total id = s.total id) : Grows s t := by
  refine ⟨hpbufs.ge, fun id => ?_⟩
  rw [htotal, hpbufs, if_neg (by omega)]
  rfl

/-- One thing is done after another. -/
lemma Grows.trans {s t u : State} (hst : Grows s t) (htu : Grows t u) : Grows s u := by
  have hle := hst.pbufs
  have hle' := htu.pbufs
  refine ⟨hle.trans hle', fun id => ?_⟩
  rw [htu.total, hst.total]
  split_ifs <;> omega

/-- A timer that holds no buffer is started. -/
lemma grows_sysTimeout (s : State) {t : Timer} (ht : ∀ p, t ≠ .sendRequestTimeout p) :
    Grows s (s.sysTimeout t) := by
  refine grows_of_total_eq rfl fun id => ?_
  have hcount : (s.timers ++ [t]).count (.sendRequestTimeout id) =
      s.timers.count (.sendRequestTimeout id) := by
    have hnone : [t].count (.sendRequestTimeout id) = 0 :=
      List.count_eq_zero_of_not_mem fun hmem => ht id (List.mem_singleton.mp hmem).symm
    rw [List.count_append, hnone, Nat.add_zero]
  exact congrArg (s.freed.count id + ·) hcount

/-- A timer that holds no buffer is stopped. -/
lemma grows_sysUntimeout (s : State) {t : Timer} (ht : ∀ p, t ≠ .sendRequestTimeout p) :
    Grows s (s.sysUntimeout t) := by
  refine grows_of_total_eq rfl fun id => ?_
  have hcount : (s.timers.erase t).count (.sendRequestTimeout id) =
      s.timers.count (.sendRequestTimeout id) := List.count_erase_of_ne (ht id).symm
  exact congrArg (s.freed.count id + ·) hcount

/-! ### What the functions do to the buffers -/

/-- A request's buffer is held by its timeout. -/
lemma grows_sntpSendRequest (s : State) (alloc : Bool) : Grows s (sntpSendRequest s alloc) := by
  cases alloc with
  | false => exact grows_sysTimeout s fun p => by simp
  | true =>
      refine ⟨Nat.le_succ _, fun id => ?_⟩
      have htotal : (sntpSendRequest s true).total id = s.freed.count id +
          (s.timers ++ [Timer.sendRequestTimeout s.pbufs]).count (.sendRequestTimeout id) := rfl
      have hpbufs : (sntpSendRequest s true).pbufs = s.pbufs + 1 := rfl
      have hone : [Timer.sendRequestTimeout s.pbufs].count (.sendRequestTimeout id) =
          if s.pbufs = id then 1 else 0 := by
        rw [List.count_singleton]
        simp
      rw [htotal, hpbufs, List.count_append, hone, State.total]
      split_ifs <;> omega

/-- A request is made. -/
lemma grows_sntpRequest (s : State) (env : Env) : Grows s (sntpRequest s env) := by
  unfold sntpRequest
  cases env.dns with
  | inProgress => exact grows_of_total_eq rfl fun _ => rfl
  | ok => exact grows_sntpSendRequest s env.alloc
  | other => exact grows_sysTimeout s fun p => by simp

/-- The next server is tried. -/
lemma grows_sntpTryNextServer (s : State) (env : Env) : Grows s (sntpTryNextServer s env) := by
  have hserver : ∀ server, Grows s { s with sntpCurrentServer := server } := fun _ =>
    grows_of_total_eq rfl fun _ => rfl
  exact (hserver _).trans (grows_sntpRequest _ env)

/-- The timeout of a request frees the buffer it holds. -/
lemma grows_sntpSendRequestTimeout {s : State} {p : ℕ}
    (hp : Timer.sendRequestTimeout p ∈ s.timers) (env : Env) :
    Grows s (sntpSendRequestTimeout (s.sysUntimeout (.sendRequestTimeout p)) p env) := by
  have hfree : Grows s { s.sysUntimeout (.sendRequestTimeout p) with freed := s.freed ++ [p] } := by
    refine grows_of_total_eq rfl fun id => ?_
    have hpos : 0 < s.timers.count (.sendRequestTimeout p) := List.count_pos_iff.mpr hp
    simp only [State.total, State.sysUntimeout, List.count_append, List.count_singleton,
      List.count_erase, beq_iff_eq, Timer.sendRequestTimeout.injEq]
    by_cases hid : p = id
    · subst hid
      rw [if_pos rfl]
      omega
    · rw [if_neg hid]
      rfl
  exact hfree.trans (grows_sntpTryNextServer _ env)

/-- A packet is freed, after the timeout of the last request is stopped. -/
lemma grows_sntpRecv (s : State) (arg : ℕ) (p : Packet) (env : Env) :
    Grows (s.sysUntimeout (.sendRequestTimeout arg)) (sntpRecv s arg p env) := by
  have hnext := grows_sysUntimeout (s.sysUntimeout (.sendRequestTimeout arg))
    (t := .tryNextServer) fun p => by simp
  have hrequest := grows_sysUntimeout ((s.sysUntimeout (.sendRequestTimeout arg)).sysUntimeout
    .tryNextServer) (t := .request) fun p => by simp
  have hfree : ∀ u : State,
      Grows u { u with pbufs := u.pbufs + 1, freed := u.freed ++ [u.pbufs] } := fun u => by
    refine ⟨Nat.le_succ _, fun id => ?_⟩
    simp only [State.total, List.count_append, List.count_singleton, beq_iff_eq]
    split_ifs <;> omega
  have hfreed := (hnext.trans hrequest).trans (hfree _)
  unfold sntpRecv
  dsimp only
  cases verdict p with
  | errOk => exact hfreed.trans (grows_of_total_eq rfl fun _ => rfl)
  | errKod => exact hfreed.trans (grows_sntpTryNextServer _ env)
  | errArg => exact hfreed.trans (grows_sysTimeout _ fun p => by simp)

/-! ### Callbacks -/

/-- **What a callback does to the buffers.** A packet takes the timeout of the last request from
them; everything else only adds to them. -/
theorem step_grows {s t : State} {e : Event} (hstep : step s e = some t) :
    ((∀ p env, e ≠ .packet p env) ∧ Grows s t) ∨
      ∃ p env arg, e = .packet p env ∧ s.recvArg = some arg ∧
        Grows (s.sysUntimeout (.sendRequestTimeout arg)) t := by
  cases e with
  | dnsFound found alloc =>
      refine Or.inl ⟨fun p env => by simp, ?_⟩
      simp only [step] at hstep
      split_ifs at hstep
      rw [← Option.some.inj hstep]
      have hlookup : Grows s { s with lookups := s.lookups - 1 } :=
        grows_of_total_eq rfl fun _ => rfl
      unfold sntpDnsFound
      split_ifs
      · exact hlookup.trans (grows_sntpSendRequest _ alloc)
      · exact hlookup.trans (grows_sysTimeout _ fun p => by simp)
  | timer timer env =>
      refine Or.inl ⟨fun p env => by simp, ?_⟩
      simp only [step] at hstep
      split_ifs at hstep with hmem
      rw [← Option.some.inj hstep]
      cases timer with
      | sendRequestTimeout p => exact grows_sntpSendRequestTimeout hmem env
      | tryNextServer =>
          exact (grows_sysUntimeout s fun p => by simp).trans (grows_sntpTryNextServer _ env)
      | request => exact (grows_sysUntimeout s fun p => by simp).trans (grows_sntpRequest _ env)
  | packet p env =>
      refine Or.inr ?_
      simp only [step] at hstep
      split at hstep
      · next arg harg =>
          split_ifs at hstep
          rw [← Option.some.inj hstep]
          exact ⟨p, env, arg, rfl, harg, grows_sntpRecv s arg p env⟩
      · cases hstep

/-- What stopping the timeout of a request takes from its buffer. -/
lemma total_sysUntimeout (s : State) (arg id : ℕ) :
    (s.sysUntimeout (.sendRequestTimeout arg)).total id + (if arg = id then
      if Timer.sendRequestTimeout arg ∈ s.timers then 1 else 0 else 0) = s.total id := by
  simp only [State.total, State.sysUntimeout, List.count_erase, beq_iff_eq,
    Timer.sendRequestTimeout.injEq]
  by_cases hid : arg = id
  · subst hid
    rw [if_pos rfl, if_pos rfl]
    by_cases hmem : Timer.sendRequestTimeout arg ∈ s.timers
    · have hpos := List.count_pos_iff.mpr hmem
      rw [if_pos hmem]
      omega
    · have hzero := List.count_eq_zero_of_not_mem hmem
      rw [if_neg hmem, hzero]
  · rw [if_neg hid, if_neg hid]
    rfl

/-- The buffers that were there are not freed or held more often than before. -/
lemma step_total_le {s t : State} {e : Event} (hstep : step s e = some t) :
    s.pbufs ≤ t.pbufs ∧
      ∀ id, t.total id ≤ s.total id + if s.pbufs ≤ id ∧ id < t.pbufs then 1 else 0 := by
  rcases step_grows hstep with ⟨-, hgrows⟩ | ⟨p, env, arg, -, -, hgrows⟩
  · exact ⟨hgrows.pbufs, fun id => (hgrows.total id).le⟩
  · refine ⟨hgrows.pbufs, fun id => ?_⟩
    have htotal := hgrows.total id
    have hstop := total_sysUntimeout s arg id
    have hpbufs : (s.sysUntimeout (.sendRequestTimeout arg)).pbufs = s.pbufs := rfl
    rw [hpbufs] at htotal
    omega

/-- No callback frees or holds a buffer twice. -/
lemma atMostOnce_step {s t : State} {e : Event} (h : AtMostOnce s) (hstep : step s e = some t) :
    AtMostOnce t := by
  obtain ⟨hpbufs, htotal⟩ := step_total_le hstep
  intro id
  have hs := h id
  have ht := htotal id
  split_ifs at hs ht ⊢ <;> omega

/-- A buffer that is lost stays so. -/
lemma lost_step {s t : State} {e : Event} (h : Lost s) (hstep : step s e = some t) : Lost t := by
  obtain ⟨id, hid, hzero⟩ := h
  obtain ⟨hpbufs, htotal⟩ := step_total_le hstep
  refine ⟨id, hid.trans_le hpbufs, ?_⟩
  have ht := htotal id
  rw [if_neg (by omega)] at ht
  omega

/-- New buffers are accounted for. -/
lemma Accounted.grows {s t : State} (h : Accounted s) (hgrows : Grows s t) : Accounted t := by
  intro id
  have hpbufs := hgrows.pbufs
  rw [hgrows.total, h id]
  split_ifs <;> omega

/-- **A callback accounts for every buffer**, if it is no packet before the timeout of the last
request. -/
theorem accounted_step {s t : State} {e : Event} (h : Accounted s) (hok : AfterTimeout s e)
    (hstep : step s e = some t) : Accounted t := by
  rcases step_grows hstep with ⟨-, hgrows⟩ | ⟨p, env, arg, rfl, harg, hgrows⟩
  · exact h.grows hgrows
  · have hstopped : Accounted (s.sysUntimeout (.sendRequestTimeout arg)) := by
      intro id
      have hstop := total_sysUntimeout s arg id
      rw [if_neg (hok arg harg), ite_self, Nat.add_zero] at hstop
      exact hstop.trans (h id)
    exact hstopped.grows hgrows

/-- **A packet before the timeout of the last request loses its buffer.** -/
theorem lost_of_packet {s t : State} {e : Event} (h : Accounted s) (hok : ¬ AfterTimeout s e)
    (hstep : step s e = some t) : Lost t := by
  rcases step_grows hstep with ⟨hpacket, -⟩ | ⟨p, env, arg, rfl, harg, hgrows⟩
  · cases e with
    | packet p env => exact absurd rfl (hpacket p env)
    | dnsFound found alloc => exact absurd trivial hok
    | timer timer env => exact absurd trivial hok
  · have hmem : Timer.sendRequestTimeout arg ∈ s.timers := by
      by_contra hnot
      exact hok fun arg' harg' => Option.some.inj (harg.symm.trans harg') ▸ hnot
    have hpos := List.count_pos_iff.mpr hmem
    have hs := h arg
    have hstop := total_sysUntimeout s arg arg
    rw [if_pos rfl, if_pos hmem] at hstop
    have htotal := hgrows.total arg
    have hpbufs : (s.sysUntimeout (.sendRequestTimeout arg)).pbufs = s.pbufs := rfl
    have hle := hgrows.pbufs
    rw [hpbufs] at htotal hle
    have harg : arg < s.pbufs := by
      by_contra hnot
      rw [if_neg hnot] at hs
      omega
    rw [if_pos harg] at hs
    rw [if_neg (by omega)] at htotal
    exact ⟨arg, harg.trans_le hle, by omega⟩

/-! ### Main result -/

/-- Before the first request there is no buffer. -/
lemma accounted_sntpInit (env : Env) : Accounted (sntpInit env) := by
  have hnone : Accounted ⟨[], 0, none, false, 0, 0, [], 0⟩ := fun id => by
    rw [if_neg (Nat.not_lt_zero id)]
    rfl
  exact hnone.grows (grows_sntpRequest _ env)

/-- A lost buffer is not accounted for. -/
lemma not_accounted_of_lost {s : State} (h : Lost s) : ¬ Accounted s := by
  obtain ⟨id, hid, hzero⟩ := h
  intro hall
  have hone := hall id
  rw [if_pos hid] at hone
  omega

/-- **Every buffer is freed once, or held by its timeout** after a run, exactly when every packet of
the run arrives after the timeout of the last request. No buffer is freed twice in any run. -/
theorem accounted_iff (env : Env) {es : List Event} {s : State}
    (hrun : Machine.run step (sntpInit env) es = some s) :
    (Accounted s ↔ Machine.Meets step AfterTimeout (sntpInit env) es) ∧
      ∀ id, s.freed.count id ≤ 1 := by
  have hinit := accounted_sntpInit env
  refine ⟨Machine.meets_iff_of_lost (fun _ _ _ h hok => accounted_step h hok)
    (fun _ _ _ h hok => lost_of_packet h hok) (fun _ _ _ h => lost_step h)
    (fun _ => not_accounted_of_lost) hinit hrun, fun id => ?_⟩
  have hatMost : AtMostOnce s := Machine.run_invariant (fun _ _ _ h => atMostOnce_step h)
    (fun id => (hinit id).le) hrun
  have hid := hatMost id
  simp only [State.total] at hid
  split_ifs at hid <;> omega

/-- A request times out, and its buffer is freed. -/
theorem accounted_iff_timeout : ∃ s, Machine.run step (sntpInit ⟨.ok, true⟩)
    [Event.timer (Timer.sendRequestTimeout 0) ⟨.inProgress, true⟩] = some s ∧ Accounted s := by
  obtain ⟨s, hs⟩ := Option.isSome_iff_exists.mp (show (Machine.run step (sntpInit ⟨.ok, true⟩)
    [Event.timer (Timer.sendRequestTimeout 0) ⟨.inProgress, true⟩]).isSome = true by decide +kernel)
  exact ⟨s, hs, (accounted_iff ⟨.ok, true⟩ hs).1.mpr (by decide +kernel)⟩

/-- The answer to the first request comes in time: the request's buffer is not freed, and nothing
holds it. -/
theorem not_forall_accounted :
    ¬ ∀ env es s, Machine.run step (sntpInit env) es = some s → Accounted s := by
  intro h
  have hview : (Machine.run step (sntpInit ⟨.ok, true⟩) [Event.packet answer ⟨.ok, true⟩]).map
      (fun s => (s.total 0, s.pbufs)) = some (0, 2) := by decide +kernel
  obtain ⟨s, hs, htotal⟩ := Option.map_eq_some_iff.mp hview
  obtain ⟨hfreed, hpbufs⟩ := Prod.mk.inj htotal
  have hzero := h _ _ s hs 0
  rw [hfreed, hpbufs] at hzero
  exact absurd hzero (by decide)

end PanelFirmware.Net.Sntp
