import PanelFirmware.Net.HttpServer

/-!
# `net/src/httpServerTSK.c`: the connections and buffers of the HTTP server

A pass of the server's loop accepts a connection, sets its timeout, and if it was accepted serves
it: a buffer is received, the request answered, the buffer and the connection given back. The calls
of the network interface are recorded with the handles they are given; a handle that was not
obtained is a null pointer.

* `Disciplined`: a handle is given to a call only while it is held, and what is obtained is released
  once.
* `disciplined_iff`: when a run is.
-/

namespace PanelFirmware.Net.HttpConnection

open PanelFirmware.Net

/-! ### The code -/

/-- A call of the network interface, with the handles given to it and the one it yields.
Source: `httpServerTSK.c`; `lwip` `api.h`. -/
inductive ApiCall
  | accept (newconn : Option ℕ)
  | setRecvtimeout (conn : Option ℕ)
  | recv (conn inbuf : Option ℕ)
  | netbufData (inbuf : Option ℕ)
  | write (conn : Option ℕ)
  | netbufDelete (inbuf : Option ℕ)
  | close (conn : Option ℕ)
  | delete (conn : Option ℕ)
  deriving DecidableEq

/-- What a pass of the loop meets: whether `netconn_accept` and `netconn_recv` succeed, and the
request. -/
structure Turn where
  accepted : Bool
  received : Bool
  request : List Char

/-- The two writes of an answer, the header and the resource. Source: `httpServerTSK.c`
`http_server_serve`. -/
def answer (conn : Option ℕ) (request : List Char) : List ApiCall :=
  if (serve request).isSome then [.write conn, .write conn] else []

/-- Source: `httpServerTSK.c` `http_server_serve`. -/
def httpServerServe (conn inbuf : Option ℕ) (request : List Char) : List ApiCall :=
  [ApiCall.recv conn inbuf] ++
    (if inbuf.isSome then [ApiCall.netbufData inbuf] ++ answer conn request else []) ++
    [ApiCall.netbufDelete inbuf, .close conn]

/-- The `k`-th pass of the loop; its connection and its buffer are the `k`-th.
Source: `httpServerTSK.c` `httpServerTSK`. -/
def pass (k : ℕ) (t : Turn) : List ApiCall :=
  let newconn := if t.accepted then some k else none
  [ApiCall.accept newconn, .setRecvtimeout newconn] ++
    if t.accepted then
      httpServerServe newconn (if t.received then some k else none) t.request ++
        [ApiCall.delete newconn]
    else []

/-- The calls of a run of passes from the `k`-th on. -/
def calls (pass : ℕ → Turn → List ApiCall) (k : ℕ) : List Turn → List ApiCall
  | [] => []
  | t :: ts => pass k t ++ calls pass (k + 1) ts

/-! ### The discipline -/

/-- What the network interface gives out. -/
inductive Resource
  | netconn (id : ℕ)
  | netbuf (id : ℕ)
  deriving DecidableEq

namespace ApiCall

/-- The handles given to a call to be used, closed or deleted. -/
def used : ApiCall → List (Option Resource)
  | accept _ => []
  | setRecvtimeout conn | recv conn _ | write conn | close conn | delete conn =>
      [conn.map .netconn]
  | netbufData inbuf | netbufDelete inbuf => [inbuf.map .netbuf]

/-- What a call obtains. -/
def obtained : ApiCall → List Resource
  | accept newconn => (newconn.map .netconn).toList
  | recv _ inbuf => (inbuf.map .netbuf).toList
  | _ => []

/-- What a call releases. -/
def released : ApiCall → List Resource
  | netbufDelete inbuf => (inbuf.map .netbuf).toList
  | delete conn => (conn.map .netconn).toList
  | _ => []

end ApiCall

/-- What a list of calls obtains. -/
def obtainedBy (cs : List ApiCall) : List Resource := cs.flatMap ApiCall.obtained

/-- What a list of calls releases. -/
def releasedBy (cs : List ApiCall) : List Resource := cs.flatMap ApiCall.released

/-- After the calls `before`, every call of the list is given only handles that were obtained and
are not yet released. -/
def Proper (before : List ApiCall) : List ApiCall → Prop
  | [] => True
  | c :: cs => (∀ h ∈ c.used, ∃ r, h = some r ∧ r ∈ obtainedBy before ∧
      r ∉ releasedBy before) ∧ Proper (before ++ [c]) cs

/-- Every handle is given to a call only while it is held, nothing is obtained twice, and
everything obtained is released exactly once. -/
def Disciplined (cs : List ApiCall) : Prop :=
  Proper [] cs ∧ (obtainedBy cs).Nodup ∧
    ∀ r, (releasedBy cs).count r = (obtainedBy cs).count r

/-! ### Passes -/

@[simp] lemma obtainedBy_nil : obtainedBy [] = [] := rfl

@[simp] lemma releasedBy_nil : releasedBy [] = [] := rfl

@[simp] lemma obtainedBy_cons (c : ApiCall) (cs : List ApiCall) :
    obtainedBy (c :: cs) = c.obtained ++ obtainedBy cs := rfl

@[simp] lemma releasedBy_cons (c : ApiCall) (cs : List ApiCall) :
    releasedBy (c :: cs) = c.released ++ releasedBy cs := rfl

@[simp] lemma obtainedBy_append (as bs : List ApiCall) :
    obtainedBy (as ++ bs) = obtainedBy as ++ obtainedBy bs := List.flatMap_append

@[simp] lemma releasedBy_append (as bs : List ApiCall) :
    releasedBy (as ++ bs) = releasedBy as ++ releasedBy bs := List.flatMap_append

/-- Two lists of calls, one after the other. -/
lemma proper_append (before as bs : List ApiCall) :
    Proper before (as ++ bs) ↔ Proper before as ∧ Proper (before ++ as) bs := by
  induction as generalizing before with
  | nil => simp [Proper]
  | cons a as ih =>
      rw [List.cons_append, Proper, Proper, ih, and_assoc, List.append_assoc]
      rfl

/-- The connections and buffers from the `k`-th on have not been obtained or released. -/
def Fresh (k : ℕ) (before : List ApiCall) : Prop :=
  ∀ id, k ≤ id → ∀ r, r = Resource.netconn id ∨ r = Resource.netbuf id →
    r ∉ obtainedBy before ∧ r ∉ releasedBy before

/-- The calls of a pass concern its own connection and buffer, which it obtains once and releases
as often as it obtains them. -/
structure Balanced (pass : ℕ → Turn → List ApiCall) : Prop where
  own : ∀ k t, ∀ r, r ∈ obtainedBy (pass k t) ∨ r ∈ releasedBy (pass k t) →
    r = .netconn k ∨ r = .netbuf k
  nodup : ∀ k t, (obtainedBy (pass k t)).Nodup
  count : ∀ k t r, (releasedBy (pass k t)).count r = (obtainedBy (pass k t)).count r

/-- A resource of one pass is none of another. -/
lemma not_own_of_ne {r : Resource} {k id : ℕ} (hr : r = .netconn id ∨ r = .netbuf id)
    (hne : id ≠ k) : ¬ (r = .netconn k ∨ r = .netbuf k) := by
  rcases hr with rfl | rfl
  · simp only [Resource.netconn.injEq, reduceCtorEq, or_false]
    exact hne
  · simp only [Resource.netbuf.injEq, reduceCtorEq, false_or]
    exact hne

section Calls

variable {pass : ℕ → Turn → List ApiCall} (hpass : Balanced pass)
include hpass

/-- A pass leaves the later ones fresh. -/
lemma fresh_append {k : ℕ} {before : List ApiCall} (h : Fresh k before) (t : Turn) :
    Fresh (k + 1) (before ++ pass k t) := by
  intro id hid r hr
  obtain ⟨hobtained, hreleased⟩ := h id (by omega) r hr
  have hother := not_own_of_ne hr (show id ≠ k by omega)
  rw [obtainedBy_append, releasedBy_append, List.mem_append, List.mem_append]
  exact ⟨not_or.mpr ⟨hobtained, fun hmem => hother (hpass.own k t r (Or.inl hmem))⟩,
    not_or.mpr ⟨hreleased, fun hmem => hother (hpass.own k t r (Or.inr hmem))⟩⟩

/-- If a pass is proper exactly under a condition, a run is exactly if every pass meets it. -/
lemma proper_calls_iff {P : Turn → Prop}
    (hiff : ∀ k t before, Fresh k before → (Proper before (pass k t) ↔ P t)) {k : ℕ}
    {before : List ApiCall} (h : Fresh k before) (ts : List Turn) :
    Proper before (calls pass k ts) ↔ ∀ t ∈ ts, P t := by
  induction ts generalizing k before with
  | nil => exact ⟨fun _ t ht => absurd ht List.not_mem_nil, fun _ => trivial⟩
  | cons t ts ih =>
      rw [calls, proper_append, hiff k t before h, ih (fresh_append hpass h t),
        List.forall_mem_cons]

/-- A run obtains resources of its own passes, each once. -/
lemma obtainedBy_calls (k : ℕ) (ts : List Turn) :
    (∀ r ∈ obtainedBy (calls pass k ts), ∃ id, k ≤ id ∧ (r = .netconn id ∨ r = .netbuf id)) ∧
      (obtainedBy (calls pass k ts)).Nodup := by
  induction ts generalizing k with
  | nil => exact ⟨fun r hr => absurd hr List.not_mem_nil, List.nodup_nil⟩
  | cons t ts ih =>
      obtain ⟨hlater, hrest⟩ := ih (k + 1)
      rw [calls, obtainedBy_append]
      constructor
      · intro r hr
        rcases List.mem_append.mp hr with hr | hr
        · exact ⟨k, le_refl _, hpass.own k t r (Or.inl hr)⟩
        · obtain ⟨id, hid, hr⟩ := hlater r hr
          exact ⟨id, by omega, hr⟩
      · refine List.Nodup.append (hpass.nodup k t) hrest fun r hr hr' => ?_
        obtain ⟨id, hid, hown⟩ := hlater r hr'
        exact not_own_of_ne hown (show id ≠ k by omega) (hpass.own k t r (Or.inl hr))

/-- A run releases each resource as often as it obtains it. -/
lemma count_releasedBy_calls (k : ℕ) (ts : List Turn) (r : Resource) :
    (releasedBy (calls pass k ts)).count r = (obtainedBy (calls pass k ts)).count r := by
  induction ts generalizing k with
  | nil => rfl
  | cons t ts ih =>
      rw [calls, obtainedBy_append, releasedBy_append, List.count_append, List.count_append,
        hpass.count, ih]

/-- A run is disciplined exactly if every pass meets the condition under which it is proper. -/
lemma disciplined_calls_iff {P : Turn → Prop}
    (hiff : ∀ k t before, Fresh k before → (Proper before (pass k t) ↔ P t)) (ts : List Turn) :
    Disciplined (calls pass 0 ts) ↔ ∀ t ∈ ts, P t := by
  have hfresh : Fresh 0 [] := fun _ _ _ _ => ⟨List.not_mem_nil, List.not_mem_nil⟩
  rw [← proper_calls_iff hpass hiff hfresh ts]
  exact ⟨fun h => h.1, fun h =>
    ⟨h, (obtainedBy_calls hpass 0 ts).2, count_releasedBy_calls hpass 0 ts⟩⟩

end Calls

/-! ### The server's passes -/

/-- An answer obtains and releases nothing. -/
lemma resources_answer (conn : Option ℕ) (request : List Char) :
    obtainedBy (answer conn request) = [] ∧ releasedBy (answer conn request) = [] := by
  unfold answer
  split_ifs <;> exact ⟨rfl, rfl⟩

/-- What a pass obtains and releases. -/
lemma resources_pass (k : ℕ) (t : Turn) :
    obtainedBy (pass k t) = (if t.accepted then
      .netconn k :: if t.received then [.netbuf k] else [] else []) ∧
    releasedBy (pass k t) = if t.accepted then
      (if t.received then [.netbuf k] else []) ++ [.netconn k] else [] := by
  obtain ⟨accepted, received, request⟩ := t
  obtain ⟨hobtained, hreleased⟩ := resources_answer (some k) request
  cases accepted
  · exact ⟨rfl, rfl⟩
  cases received
  · exact ⟨rfl, rfl⟩
  · simp [pass, httpServerServe, hobtained, hreleased, ApiCall.obtained, ApiCall.released]

/-- A pass is balanced, whatever it meets. -/
lemma balanced_pass : Balanced pass := by
  refine ⟨fun k t r hr => ?_, fun k t => ?_, fun k t r => ?_⟩
  · rw [(resources_pass k t).1, (resources_pass k t).2] at hr
    split_ifs at hr
    · simp only [List.mem_cons, List.not_mem_nil, or_false, List.mem_append] at hr
      tauto
    · simp only [List.mem_cons, List.not_mem_nil, or_false, List.nil_append] at hr
      tauto
    · simp at hr
  · rw [(resources_pass k t).1]
    split_ifs <;> simp
  · rw [(resources_pass k t).1, (resources_pass k t).2]
    split_ifs
    · simp [List.count_cons, Nat.add_comm]
    · rfl
    · rfl

/-- The calls of a pass that accepts and receives are proper. -/
lemma proper_served {k : ℕ} {before : List ApiCall} (h : Fresh k before) (request : List Char) :
    Proper before (pass k ⟨true, true, request⟩) := by
  obtain ⟨-, hconn⟩ := h k (le_refl _) (.netconn k) (Or.inl rfl)
  obtain ⟨-, hbuf⟩ := h k (le_refl _) (.netbuf k) (Or.inr rfl)
  have hwrites : answer (some k) request = [.write (some k), .write (some k)] ∨
      answer (some k) request = [] := by
    unfold answer
    split_ifs
    · exact Or.inl rfl
    · exact Or.inr rfl
  simp only [pass, httpServerServe, if_true, Option.isSome_some]
  rcases hwrites with hwrites | hwrites
  · rw [hwrites]
    simp [Proper, ApiCall.used, ApiCall.obtained, ApiCall.released, hconn, hbuf]
  · rw [hwrites]
    simp [Proper, ApiCall.used, ApiCall.obtained, ApiCall.released, hconn, hbuf]

/-- A pass is proper exactly if it accepts and receives: the timeout is set and the buffer deleted
in any case. -/
lemma proper_pass_iff (k : ℕ) (t : Turn) (before : List ApiCall) (h : Fresh k before) :
    Proper before (pass k t) ↔ t.accepted = true ∧ t.received = true := by
  obtain ⟨accepted, received, request⟩ := t
  cases accepted
  · simp [pass, Proper, ApiCall.used]
  cases received
  · simp [pass, httpServerServe, Proper, ApiCall.used]
  · exact ⟨fun _ => ⟨rfl, rfl⟩, fun _ => proper_served h request⟩

/-! ### Without the deletion of null pointers -/

/-- The pass without the deletion of a null pointer, which has no effect.
Source: `lwip` `netbuf.c` `netbuf_delete`. -/
def effective (k : ℕ) (t : Turn) : List ApiCall :=
  (pass k t).filter fun c => c ≠ .netbufDelete none

/-- The deletion of null pointers obtains and releases nothing. -/
lemma resources_filter (cs : List ApiCall) :
    obtainedBy (cs.filter fun c => c ≠ .netbufDelete none) = obtainedBy cs ∧
      releasedBy (cs.filter fun c => c ≠ .netbufDelete none) = releasedBy cs := by
  induction cs with
  | nil => exact ⟨rfl, rfl⟩
  | cons c cs ih =>
      by_cases hc : c = .netbufDelete none
      · rw [List.filter_cons_of_neg (by simp [hc]), obtainedBy_cons, releasedBy_cons, hc]
        exact ih
      · rw [List.filter_cons_of_pos (by simp [hc]), obtainedBy_cons, obtainedBy_cons,
          releasedBy_cons, releasedBy_cons, ih.1, ih.2]
        exact ⟨rfl, rfl⟩

/-- So a pass without it is as balanced. -/
lemma balanced_effective : Balanced effective := by
  have hsame : ∀ k t, obtainedBy (effective k t) = obtainedBy (pass k t) ∧
      releasedBy (effective k t) = releasedBy (pass k t) := fun k t => resources_filter (pass k t)
  refine ⟨fun k t r hr => ?_, fun k t => ?_, fun k t r => ?_⟩
  · rw [(hsame k t).1, (hsame k t).2] at hr
    exact balanced_pass.own k t r hr
  · rw [(hsame k t).1]
    exact balanced_pass.nodup k t
  · rw [(hsame k t).1, (hsame k t).2]
    exact balanced_pass.count k t r

/-- Without it a pass is proper exactly if it accepts. -/
lemma proper_effective_iff (k : ℕ) (t : Turn) (before : List ApiCall) (h : Fresh k before) :
    Proper before (effective k t) ↔ t.accepted = true := by
  obtain ⟨accepted, received, request⟩ := t
  cases accepted
  · simp [effective, pass, Proper, ApiCall.used]
  cases received
  · obtain ⟨-, hconn⟩ := h k (le_refl _) (.netconn k) (Or.inl rfl)
    simp [effective, pass, httpServerServe, Proper, ApiCall.used, ApiCall.obtained,
      ApiCall.released, hconn]
  · have hnull : ∀ c ∈ pass k ⟨true, true, request⟩, c ≠ .netbufDelete none := by
      simp only [pass, httpServerServe, answer, if_true, Option.isSome_some]
      split_ifs <;> simp
    have hsame : effective k ⟨true, true, request⟩ = pass k ⟨true, true, request⟩ :=
      List.filter_eq_self.mpr fun c hc => decide_eq_true (hnull c hc)
    rw [hsame]
    exact ⟨fun _ => rfl, fun _ => proper_served h request⟩

/-- **The discipline, and exactly when it is kept.** For every sequence of outcomes of
`netconn_accept` and `netconn_recv` and every request: the run is disciplined if and only if every
connection was accepted and every buffer received. If the deletion of a null pointer, which has no
effect, is not counted, it is if and only if every connection was accepted. In any case everything
obtained is released exactly once. -/
theorem disciplined_iff (ts : List Turn) :
    (Disciplined (calls pass 0 ts) ↔ ∀ t ∈ ts, t.accepted = true ∧ t.received = true) ∧
      (Disciplined (calls effective 0 ts) ↔ ∀ t ∈ ts, t.accepted = true) ∧
      ∀ r ∈ obtainedBy (calls pass 0 ts), (releasedBy (calls pass 0 ts)).count r = 1 := by
  refine ⟨disciplined_calls_iff balanced_pass proper_pass_iff ts,
    disciplined_calls_iff balanced_effective proper_effective_iff ts, fun r hr => ?_⟩
  rw [count_releasedBy_calls balanced_pass]
  exact List.count_eq_one_of_mem (obtainedBy_calls balanced_pass 0 ts).2 hr

/-- **A connection that was not accepted is used.** The server sets the timeout of a null
pointer. -/
theorem accept_failure_undisciplined : ¬ ∀ ts : List Turn, Disciplined (calls pass 0 ts) := by
  intro hall
  have hproper := (hall [⟨false, false, []⟩]).1
  have hpass := (proper_calls_iff balanced_pass proper_pass_iff
    (fun _ _ _ _ => ⟨List.not_mem_nil, List.not_mem_nil⟩) [⟨false, false, []⟩]).mp hproper
  exact absurd (hpass _ (List.mem_singleton.mpr rfl)).1 (by decide)

end PanelFirmware.Net.HttpConnection
