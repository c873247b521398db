import PanelFirmware.Lib.Bytes
import PanelFirmware.Lib.Machine

/-!
# `net/src/sntp.c`: the time client

A request is a chain of callbacks: a DNS lookup, then a packet sent, for whose answer a timeout is
set; a retry timer after an error. An answer stops the timers. It does not stop a lookup: an answer
to an earlier request that arrives while the next server's name is looked up leaves the lookup
running, and its result sends through the control block that the answer has removed.

* `inv_step`: a callback keeps one chain, if it is no packet during a lookup.
* `bad_of_packet`: a packet during a lookup leads to two chains or to such a use.
* `good_of_meets`: one chain, and no use of a removed control block, after every run in which no
  packet arrives during a lookup.
-/

namespace PanelFirmware.Net.Sntp

open PanelFirmware.Lib

/-! ### The code -/

/-- The timers of the module. Source: `sntp.c`, `sys_timeout`. -/
inductive Timer
  | sendRequestTimeout (p : ℕ)
  | tryNextServer
  | request
  deriving DecidableEq

/-- The state of the module: its pending timers and lookups, the argument of `sntp_recv` once that
is installed, whether `udp_remove` was called on the control block, and the current server. The
packet buffers are numbered as they are allocated or received; those freed are recorded, and so are
the uses of the control block after its removal. Source: `sntp.c`. -/
structure State where
  timers : List Timer
  lookups : ℕ
  recvArg : Option ℕ
  removed : Bool
  sntpCurrentServer : ℕ
  pbufs : ℕ
  freed : List ℕ
  usesAfterRemove : ℕ
  deriving DecidableEq

/-- What `dns_gethostbyname` returns. -/
inductive Err
  | ok
  | inProgress
  | other
  deriving DecidableEq

/-- The outcomes of `dns_gethostbyname` and of `pbuf_alloc` in a step, where it calls them. -/
structure Env where
  dns : Err
  alloc : Bool
  deriving DecidableEq

/-- A packet delivered to `sntp_recv`. -/
structure Packet where
  port : ℕ
  payload : List Byte
  deriving DecidableEq

/-- Source: `sntp.c` `sntp_num_servers`. -/
def sntpNumServers : ℕ := 4

/-- A timer is started. -/
def State.sysTimeout (s : State) (t : Timer) : State := { s with timers := s.timers ++ [t] }

/-- A timer is stopped, if it is pending. -/
def State.sysUntimeout (s : State) (t : Timer) : State := { s with timers := s.timers.erase t }

/-- Source: `sntp.c` `sntp_send_request`. -/
def sntpSendRequest (s : State) (alloc : Bool) : State :=
  if alloc then
    { s.sysTimeout (.sendRequestTimeout s.pbufs) with
      usesAfterRemove := if s.removed then s.usesAfterRemove + 1 else s.usesAfterRemove
      recvArg := some s.pbufs
      pbufs := s.pbufs + 1 }
  else s.sysTimeout .request

/-- Source: `sntp.c` `sntp_request`. -/
def sntpRequest (s : State) (env : Env) : State :=
  match env.dns with
  | .inProgress => { s with lookups := s.lookups + 1 }
  | .ok => sntpSendRequest s env.alloc
  | .other => s.sysTimeout .tryNextServer

/-- Source: `sntp.c` `sntp_try_next_server`. -/
def sntpTryNextServer (s : State) (env : Env) : State :=
  if sntpNumServers > 1 then
    let next := s.sntpCurrentServer + 1
    sntpRequest { s with sntpCurrentServer := if next ≥ sntpNumServers then 0 else next } env
  else s.sysTimeout .request

/-- Source: `sntp.c` `sntp_send_request_timeout`. -/
def sntpSendRequestTimeout (s : State) (p : ℕ) (env : Env) : State :=
  sntpTryNextServer { s with freed := s.freed ++ [p] } env

/-- Source: `sntp.c` `sntp_dns_found`. -/
def sntpDnsFound (s : State) (found alloc : Bool) : State :=
  if found then sntpSendRequest s alloc else s.sysTimeout .tryNextServer

/-- What a packet is taken for. Source: `sntp.c` `sntp_recv`, `err`. -/
inductive Verdict
  | errOk
  | errKod
  | errArg
  deriving DecidableEq

/-- Source: `sntp.c` `sntp_recv`, `err`. -/
def verdict (p : Packet) : Verdict :=
  if p.port = 123 then
    if p.payload.length = 48 then
      let mode := (p.payload.getD 0 0).toNat % 8
      if mode = 4 ∨ mode = 5 then
        if p.payload.getD 1 0 = 0 then .errKod else .errOk
      else .errArg
    else .errArg
  else .errArg

/-- The received packet is the next buffer. Source: `sntp.c` `sntp_recv`. -/
def sntpRecv (s : State) (arg : ℕ) (p : Packet) (env : Env) : State :=
  let s := ((s.sysUntimeout (.sendRequestTimeout arg)).sysUntimeout .tryNextServer).sysUntimeout
    .request
  let s := { s with pbufs := s.pbufs + 1, freed := s.freed ++ [s.pbufs] }
  match verdict p with
  | .errOk => { s with removed := true }
  | .errKod => sntpTryNextServer s env
  | .errArg => s.sysTimeout .request

/-- A callback into the module. -/
inductive Event
  | dnsFound (found alloc : Bool)
  | timer (t : Timer) (env : Env)
  | packet (p : Packet) (env : Env)
  deriving DecidableEq

/-- A timer has expired. -/
def expire (s : State) (t : Timer) (env : Env) : State :=
  match t with
  | .sendRequestTimeout p => sntpSendRequestTimeout s p env
  | .tryNextServer => sntpTryNextServer s env
  | .request => sntpRequest s env

/-- A lookup calls back once; a timer expires if it is pending; a packet is delivered from when
`sntp_recv` is installed until the control block is removed. -/
def step (s : State) : Event → Option State
  | .dnsFound found alloc =>
      if 0 < s.lookups then some (sntpDnsFound { s with lookups := s.lookups - 1 } found alloc)
      else none
  | .timer t env => if t ∈ s.timers then some (expire (s.sysUntimeout t) t env) else none
  | .packet p env =>
      match s.recvArg with
      | some arg => if s.removed then none else some (sntpRecv s arg p env)
      | none => none

/-- Source: `sntp.c` `sntp_init`, when the control block is created. -/
def sntpInit (env : Env) : State := sntpRequest ⟨[], 0, none, false, 0, 0, [], 0⟩ env

/-! ### One chain -/

/-- The control block is not used after its removal, and at most one chain is pending: a timer (with
the answer it is set for) or a lookup. -/
def Good (s : State) : Prop := s.usesAfterRemove = 0 ∧ s.timers.length + s.lookups ≤ 1

instance (s : State) : Decidable (Good s) := inferInstanceAs (Decidable (_ ∧ _))

/-- No packet arrives during a lookup. -/
def NoLookup (s : State) : Event → Prop
  | .packet _ _ => s.lookups = 0
  | _ => True

instance (s : State) : (e : Event) → Decidable (NoLookup s e)
  | .packet _ _ => inferInstanceAs (Decidable (s.lookups = 0))
  | .dnsFound _ _ => isTrue trivial
  | .timer _ _ => isTrue trivial

/-- One chain is pending, none after the control block is removed, and the timeout of a request is
that of the buffer `sntp_recv` is called with. -/
structure Inv (s : State) : Prop where
  unused : s.usesAfterRemove = 0
  chains : s.timers.length + s.lookups ≤ 1
  quiet : s.removed = true → s.timers = [] ∧ s.lookups = 0
  timeout : ∀ p, Timer.sendRequestTimeout p ∈ s.timers → s.recvArg = some p

/-- Nothing is pending, and the control block is there. -/
structure Idle (s : State) : Prop where
  unused : s.usesAfterRemove = 0
  timers : s.timers = []
  lookups : s.lookups = 0
  kept : s.removed = false

/-- A timer is started from an idle state. -/
lemma Idle.sysTimeout {s : State} (h : Idle s) {t : Timer}
    (ht : ∀ p, t = .sendRequestTimeout p → s.recvArg = some p) : Inv (s.sysTimeout t) := by
  have htimers : (s.sysTimeout t).timers = [t] := by
    rw [State.sysTimeout, h.timers, List.nil_append]
  refine ⟨h.unused, ?_, fun hremoved => ?_, fun p hp => ?_⟩
  · rw [htimers]
    exact le_of_eq (congrArg (1 + ·) h.lookups)
  · exact absurd (hremoved.symm.trans h.kept) (by decide)
  · rw [htimers, List.mem_singleton] at hp
    exact ht p hp.symm

/-- A timer other than that of an answer is started from an idle state. -/
lemma Idle.sysTimeout_retry {s : State} (h : Idle s) {t : Timer}
    (ht : ∀ p, t ≠ .sendRequestTimeout p) : Inv (s.sysTimeout t) :=
  h.sysTimeout fun p hp => absurd hp (ht p)

/-- A request is sent, or retried later, from an idle state. -/
lemma Idle.sntpSendRequest {s : State} (h : Idle s) (alloc : Bool) :
    Inv (sntpSendRequest s alloc) := by
  have hretry : Inv (s.sysTimeout .request) := h.sysTimeout_retry fun p => by simp
  cases alloc with
  | false => exact hretry
  | true =>
      have hidle : Idle { s with recvArg := some s.pbufs, pbufs := s.pbufs + 1 } :=
        ⟨h.unused, h.timers, h.lookups, h.kept⟩
      have hsent : Inv (State.sysTimeout { s with recvArg := some s.pbufs, pbufs := s.pbufs + 1 }
          (.sendRequestTimeout s.pbufs)) :=
        hidle.sysTimeout fun p hp => by rw [Timer.sendRequestTimeout.inj hp]
      have hunused : (if s.removed then s.usesAfterRemove + 1 else s.usesAfterRemove) =
          s.usesAfterRemove := if_neg (by rw [h.kept]; exact Bool.false_ne_true)
      unfold Sntp.sntpSendRequest
      rw [if_pos rfl, hunused]
      exact hsent

/-- A request is made from an idle state. -/
lemma Idle.sntpRequest {s : State} (h : Idle s) (env : Env) : Inv (sntpRequest s env) := by
  unfold Sntp.sntpRequest
  cases env.dns with
  | ok => exact h.sntpSendRequest env.alloc
  | other => exact h.sysTimeout_retry fun p => by simp
  | inProgress =>
      refine ⟨h.unused, ?_, fun hremoved => ?_, fun p hp => ?_⟩
      · simp [h.timers, h.lookups]
      · exact absurd (hremoved.symm.trans h.kept) (by decide)
      · rw [show ({ s with lookups := s.lookups + 1 } : State).timers = [] from h.timers] at hp
        cases hp

/-- The next server is tried from an idle state. -/
lemma Idle.sntpTryNextServer {s : State} (h : Idle s) (env : Env) :
    Inv (sntpTryNextServer s env) := by
  have hidle : ∀ server, Idle { s with sntpCurrentServer := server } := fun _ =>
    ⟨h.unused, h.timers, h.lookups, h.kept⟩
  exact (hidle _).sntpRequest env

/-- With one chain, the control block is there when the chain goes on. -/
lemma Inv.kept {s : State} (h : Inv s) (hpending : s.timers ≠ [] ∨ s.lookups ≠ 0) :
    s.removed = false := by
  rw [← Bool.not_eq_true]
  intro hremoved
  obtain ⟨htimers, hlookups⟩ := h.quiet hremoved
  exact hpending.elim (fun ht => ht htimers) fun hl => hl hlookups

/-- The only timer. -/
lemma Inv.timers_eq {s : State} (h : Inv s) {t : Timer} (ht : t ∈ s.timers) :
    s.timers = [t] ∧ s.lookups = 0 := by
  have hchains := h.chains
  obtain ⟨u, hu⟩ : ∃ u, s.timers = [u] := by
    rw [← List.length_eq_one_iff]
    have hpos := List.length_pos_of_mem ht
    omega
  rw [hu, List.mem_singleton] at ht
  rw [hu] at hchains
  exact ⟨by rw [hu, ht], by simpa using hchains⟩

/-- When the only timer has expired nothing is pending. -/
lemma Inv.idle_of_timer {s : State} (h : Inv s) {t : Timer} (ht : t ∈ s.timers) :
    Idle (s.sysUntimeout t) := by
  obtain ⟨htimers, hlookups⟩ := h.timers_eq ht
  refine ⟨h.unused, ?_, hlookups, h.kept (Or.inl (List.ne_nil_of_mem ht))⟩
  rw [State.sysUntimeout, htimers]
  exact List.erase_cons_head t []

/-- An answer stops the timer that is pending, whichever it is. -/
lemma Inv.erase_timers {s : State} (h : Inv s) {arg : ℕ} (harg : s.recvArg = some arg) :
    ((s.timers.erase (.sendRequestTimeout arg)).erase .tryNextServer).erase .request = [] := by
  by_cases hnil : s.timers = []
  · rw [hnil]
    rfl
  · obtain ⟨t, ht⟩ := List.exists_mem_of_ne_nil _ hnil
    rw [(h.timers_eq ht).1]
    cases t with
    | sendRequestTimeout p =>
        have hp : p = arg := Option.some.inj ((h.timeout p ht).symm.trans harg)
        rw [hp, List.erase_cons_head]
        rfl
    | tryNextServer => simp
    | request => simp

/-- An answer keeps one chain, if no lookup is pending. -/
lemma Inv.sntpRecv {s : State} (h : Inv s) {arg : ℕ} (harg : s.recvArg = some arg)
    (hkept : s.removed = false) (hlookups : s.lookups = 0) (p : Packet) (env : Env) :
    Inv (sntpRecv s arg p env) := by
  have htimers := h.erase_timers harg
  unfold Sntp.sntpRecv
  dsimp only [State.sysUntimeout]
  rw [htimers]
  have hidle : Idle { s with timers := [], pbufs := s.pbufs + 1, freed := s.freed ++ [s.pbufs] } :=
    ⟨h.unused, rfl, hlookups, hkept⟩
  cases verdict p with
  | errOk =>
      refine ⟨h.unused, ?_, fun _ => ⟨rfl, hlookups⟩, fun p hp => absurd hp (List.not_mem_nil)⟩
      dsimp only
      rw [hlookups]
      decide
  | errKod => exact hidle.sntpTryNextServer env
  | errArg => exact hidle.sysTimeout_retry fun p => by simp

/-- **A callback keeps one chain**, if it is no packet during a lookup. -/
theorem inv_step {s t : State} {e : Event} (h : Inv s) (hok : NoLookup s e)
    (hstep : step s e = some t) : Inv t := by
  cases e with
  | dnsFound found alloc =>
      simp only [step] at hstep
      split_ifs at hstep with hlookups
      have hchains := h.chains
      have hidle : Idle { s with lookups := s.lookups - 1 } := by
        refine ⟨h.unused, List.length_eq_zero_iff.mp ?_, ?_, h.kept (Or.inr (by omega))⟩
        · dsimp only
          omega
        · dsimp only
          omega
      rw [← Option.some.inj hstep]
      unfold sntpDnsFound
      split_ifs
      · exact hidle.sntpSendRequest alloc
      · exact hidle.sysTimeout_retry fun p => by simp
  | timer timer env =>
      simp only [step] at hstep
      split_ifs at hstep with hmem
      have hidle := h.idle_of_timer hmem
      rw [← Option.some.inj hstep]
      cases timer with
      | request => exact hidle.sntpRequest env
      | tryNextServer => exact hidle.sntpTryNextServer env
      | sendRequestTimeout p =>
          have hidle' : Idle { s.sysUntimeout (.sendRequestTimeout p) with
              freed := s.freed ++ [p] } := ⟨hidle.unused, hidle.timers, hidle.lookups, hidle.kept⟩
          exact hidle'.sntpTryNextServer env
  | packet p env =>
      simp only [step] at hstep
      split at hstep
      · next arg harg =>
          split_ifs at hstep with hremoved
          rw [← Option.some.inj hstep]
          exact h.sntpRecv harg (Bool.not_eq_true _ ▸ hremoved) hok p env
      · cases hstep

/-- One chain is pending after `sntp_init`. -/
lemma inv_sntpInit (env : Env) : Inv (sntpInit env) :=
  Idle.sntpRequest ⟨rfl, rfl, rfl, rfl⟩ env

/-! ### A packet during a lookup -/

/-- A request sent or retried later is a timer. -/
lemma length_timers_sntpSendRequest (s : State) (alloc : Bool) :
    (sntpSendRequest s alloc).timers.length = s.timers.length + 1 ∧
      (sntpSendRequest s alloc).lookups = s.lookups := by
  cases alloc with
  | false => exact ⟨List.length_append, rfl⟩
  | true => exact ⟨List.length_append, rfl⟩

/-- A request starts a chain. -/
lemma pending_sntpRequest (s : State) (env : Env) :
    (sntpRequest s env).timers.length + (sntpRequest s env).lookups =
      s.timers.length + s.lookups + 1 := by
  unfold sntpRequest
  cases env.dns with
  | inProgress => rfl
  | ok =>
      obtain ⟨htimers, hlookups⟩ := length_timers_sntpSendRequest s env.alloc
      dsimp only
      omega
  | other =>
      have htimers : (s.sysTimeout .tryNextServer).timers.length = s.timers.length + 1 :=
        List.length_append
      have hlookups : (s.sysTimeout .tryNextServer).lookups = s.lookups := rfl
      dsimp only
      omega

/-- The next server's request starts a chain. -/
lemma pending_sntpTryNextServer (s : State) (env : Env) :
    (sntpTryNextServer s env).timers.length + (sntpTryNextServer s env).lookups =
      s.timers.length + s.lookups + 1 :=
  pending_sntpRequest _ env

/-- Two chains are not good. -/
lemma not_good_of_pending {s : State} (h : 2 ≤ s.timers.length + s.lookups) : ¬ Good s := by
  intro hgood
  have hchains := hgood.2
  omega

/-- A lookup that is left after the control block is removed uses it. -/
lemma use_of_lookup {s : State} (hremoved : s.removed = true) (hlookups : 0 < s.lookups) :
    ∃ t, step s (.dnsFound true true) = some t ∧ ¬ Good t := by
  refine ⟨sntpDnsFound { s with lookups := s.lookups - 1 } true true, ?_, fun hgood => ?_⟩
  · simp only [step]
    rw [if_pos hlookups]
  · have hused : (sntpDnsFound { s with lookups := s.lookups - 1 } true true).usesAfterRemove =
        s.usesAfterRemove + 1 := if_pos hremoved
    have hunused := hgood.1
    omega

/-- **A packet during a lookup** starts a second chain, or removes the control block that the result
of the lookup is sent through. -/
theorem bad_of_packet {s : State} {arg : ℕ} (harg : s.recvArg = some arg)
    (hkept : s.removed = false) (hlookups : 0 < s.lookups) (p : Packet) (env : Env) :
    ∃ es t, Machine.run step s (.packet p env :: es) = some t ∧ ¬ Good t := by
  have hstep : step s (.packet p env) = some (sntpRecv s arg p env) := by
    simp only [step, harg, hkept, Bool.false_eq_true, if_false]
  have hrun : ∀ es, Machine.run step s (.packet p env :: es) =
      Machine.run step (sntpRecv s arg p env) es := fun es => by
    rw [Machine.run, hstep, Option.bind_some]
  simp only [hrun]
  rcases hverdict : verdict p with _ | _ | _
  · have hremoved : (sntpRecv s arg p env).removed = true := by simp only [sntpRecv, hverdict]
    have hleft : (sntpRecv s arg p env).lookups = s.lookups := by
      simp only [sntpRecv, hverdict, State.sysUntimeout]
    obtain ⟨t, ht, hbad⟩ := use_of_lookup hremoved (hleft ▸ hlookups)
    refine ⟨[.dnsFound true true], t, ?_, hbad⟩
    rw [Machine.run, ht]
    rfl
  · refine ⟨[], _, rfl, not_good_of_pending ?_⟩
    simp only [sntpRecv, hverdict, pending_sntpTryNextServer, State.sysUntimeout]
    omega
  · refine ⟨[], _, rfl, not_good_of_pending ?_⟩
    simp only [sntpRecv, hverdict, State.sysUntimeout, State.sysTimeout, List.length_append,
      List.length_singleton]
    omega

/-! ### Main result -/

/-- **One chain, and no use of a removed control block**, after every run in which no packet arrives
during a lookup: a packet that does can be followed by callbacks after which this fails. -/
theorem good_of_meets (env : Env) {es : List Event} {s : State}
    (hok : Machine.Meets step NoLookup (sntpInit env) es)
    (hrun : Machine.run step (sntpInit env) es = some s) :
    Good s ∧ ∀ arg, s.recvArg = some arg → 0 < s.lookups → ∀ p env',
      ∃ es' t, Machine.run step s (.packet p env' :: es') = some t ∧ ¬ Good t := by
  have hinv : Inv s := Machine.run_induction (fun _ _ _ h hok' => inv_step h hok')
    (inv_sntpInit env) hok hrun
  refine ⟨⟨hinv.unused, hinv.chains⟩, fun arg harg hlookups p env' => ?_⟩
  exact bad_of_packet harg (hinv.kept (Or.inr hlookups.ne')) hlookups p env'

/-- A valid answer: mode 4 and stratum 1. -/
def answer : Packet := ⟨123, 0x24#8 :: 1#8 :: List.replicate 46 0#8⟩

/-- The name is known and a request is sent; the answer comes before its timeout. -/
theorem good_of_meets_answer :
    ∃ s, Machine.run step (sntpInit ⟨.ok, true⟩) [Event.packet answer ⟨.ok, true⟩] = some s ∧
      Good s := by
  obtain ⟨s, hs⟩ := Option.isSome_iff_exists.mp (show (Machine.run step (sntpInit ⟨.ok, true⟩)
    [Event.packet answer ⟨.ok, true⟩]).isSome = true by decide +kernel)
  exact ⟨s, hs, (good_of_meets ⟨.ok, true⟩ (by decide +kernel) hs).1⟩

/-- The answer comes after the timeout, while the next server's name is looked up; the lookup's
result is then sent through the removed control block. -/
theorem not_forall_good : ¬ ∀ env es s, Machine.run step (sntpInit env) es = some s → Good s := by
  intro h
  have hview : (Machine.run step (sntpInit ⟨.ok, true⟩)
      [Event.timer (Timer.sendRequestTimeout 0) ⟨.inProgress, true⟩,
        Event.packet answer ⟨.ok, true⟩, Event.dnsFound true true]).map
        (fun s => s.usesAfterRemove) = some 1 := by decide +kernel
  obtain ⟨s, hs, huses⟩ := Option.map_eq_some_iff.mp hview
  have hgood := (h _ _ s hs).1
  omega

end PanelFirmware.Net.Sntp
