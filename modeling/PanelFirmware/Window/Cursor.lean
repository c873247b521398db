import PanelFirmware.Window.Navigation

/-!
# `window/src/menuSystem.cpp`, `settingTSK.cpp`: the walk of the cursor

A level is drawn along the `next` links from its first item on; the keys move along the `next` and
the `previous` links. A press is a turn of the loop with one of the two keys and all that follows it
up to the next turn: the callbacks, which return anything, and the keys that end their messages.

* `Pressed`, `Walk`: a press, and any number of them.
* `destination`: where the jobs of a turn lead to; `Walking` is what every step of a press keeps.
* `cursor_law_iff`: exactly when a walk moves the cursor by one position with every press, when two
  opposite presses undo each other, and what is reached with one key.
-/

namespace PanelFirmware.Window.Navigation

open PanelFirmware.Lib

/-! ### Presses -/

/-- The items that are drawn; no list has more of them than the bound.
Source: `menuSystem.cpp` `run`, the loop over `w`. -/
def drawn (s : State) : List Item := listFrom 16 s.top

/-- The number of the item that is drawn with the cursor.
Source: `menuSystem.cpp` `run`, `w == m`. -/
def cursor (s : State) : ℕ := (drawn s).idxOf s.m

/-- The keys that move along a list. -/
inductive Press
  | previous
  | next
  deriving DecidableEq

/-- Source: `menuSystem.cpp` `run`, "Previous", "Next". -/
def Press.key : Press → Key
  | .previous => .kFunc
  | .next => .kNext

/-- The neighbour a press moves to, or the item itself. -/
def Press.to : Press → Item → Item
  | .previous, m => m.get.previous.getD m
  | .next, m => m.get.next.getD m

/-- One position back or on in a list of so many items, but not beyond its ends. -/
def Press.move : Press → ℕ → ℕ → ℕ
  | .previous, _, position => position - 1
  | .next, length, position => min (position + 1) (length - 1)

/-- The event begins a turn of the loop. -/
def Event.isTurn : Event → Bool
  | .turn _ _ => true
  | _ => false

/-- A turn with a single key and all that follows it up to the next turn; the encoder may have been
turned as well. -/
def Pressed (p : Press) (s t : State) : Prop :=
  ∃ encoder es, (∀ e ∈ es, e.isTurn = false) ∧
    Machine.run step s (.turn (fun k => decide (k = p.key)) encoder :: es) = some t ∧
      t.activity = .idle ∧ t.jobs = []

/-- Presses one after another, each with the state it ends in. -/
def Walk : State → List (Press × State) → Prop
  | _, [] => True
  | s, (p, t) :: rest => Pressed p s t ∧ Walk t rest

/-- Every press moves the cursor by one position. -/
def Lawful : State → List (Press × State) → Prop
  | _, [] => True
  | s, (p, t) :: rest => cursor t = p.move (drawn s).length (cursor s) ∧ Lawful t rest

/-- "Previous" is never pressed while the cursor is on "Save". -/
def AvoidsSave : State → List (Press × State) → Prop
  | _, [] => True
  | s, (p, t) :: rest => ¬ (p = .previous ∧ s.m = .m19) ∧ AvoidsSave t rest

/-- The state after a walk. -/
def arrival : State → List (Press × State) → State
  | s, [] => s
  | _, (_, t) :: rest => arrival t rest

/-! ### The table -/

/-- All items. -/
def items : List Item :=
  [.m1, .m11, .m12, .m120, .m121, .m122, .m13, .m130, .m131, .m132, .m133, .m1330, .m1331, .m1332,
    .m1333, .m1334, .m14, .m140, .m141, .m142, .m1430, .m1431, .m1432, .m1433, .m1434, .m1435,
    .m15, .m150, .m151, .m152, .m153, .m1530, .m1531, .m1532, .m1533, .m1534, .m16, .m160, .m161,
    .m162, .m163, .m164, .m165, .m166, .m167, .m168, .m17, .m18, .m170, .m171, .m172, .m173, .m19,
    .m2, .m20, .m21, .m22, .m23, .m230, .m231, .m232, .m233, .m234, .m235, .m24, .m240, .m241,
    .m242, .m243, .m244, .m245, .m3, .m30, .m31, .m32, .m33, .m34, .m35, .m350, .m351, .m352,
    .m353, .m354, .m4, .m5, .m50, .m51, .m52, .m53, .m54]

/-- The number of an item in its list. -/
def position (m : Item) : ℕ := (listFrom 16 (first m)).idxOf m

/-- What the table says of an item and its list: the list is drawn to its end and has the item;
"Next" moves on by one item, and "Previous" back by one, but from "Save" by two; they undo each
other; what is drawn together has one first item, and is reached with one of the keys. -/
def Neighbourly (m : Item) : Prop :=
  (listFrom 17 (first m) = listFrom 16 (first m) ∧ m ∈ listFrom 16 (first m)) ∧
    position (Press.next.to m) =
      Press.next.move (listFrom 16 (first m)).length (position m) ∧
    (position (Press.previous.to m) =
      Press.previous.move (listFrom 16 (first m)).length (position m) ↔ m ≠ .m19) ∧
    (position m + 1 < (listFrom 16 (first m)).length →
      (Press.previous.to (Press.next.to m) = m ↔ m ≠ .m18)) ∧
    (0 < position m → (Press.next.to (Press.previous.to m) = m ↔ m ≠ .m19)) ∧
    ∀ i ∈ listFrom 16 (first m), first i = first m ∧
      (position m ≤ position i → ∃ n < 9, (Press.next.to)^[n] m = i) ∧
      (position i ≤ position m → ¬ (m = .m19 ∧ i = .m18) →
        ∃ n < 9, (Press.previous.to)^[n] m = i)

instance (m : Item) : Decidable (Neighbourly m) := inferInstanceAs (Decidable (_ ∧ _))

/-- The table, item by item. -/
lemma neighbourly (m : Item) : Neighbourly m := by
  have hall : ∀ m ∈ items, Neighbourly m := by decide +kernel
  refine hall m ?_
  cases m <;> decide

/-- Presses stay in their list. -/
lemma first_to (p : Press) (m : Item) : first (p.to m) = first m := by
  cases p with
  | previous => exact first_previous m
  | next => exact first_next m

/-- "Next" does not go back. -/
lemma le_position_iterate (n : ℕ) (m : Item) : position m ≤ position ((Press.next.to)^[n] m) := by
  induction n generalizing m with
  | zero => exact le_rfl
  | succ n ih =>
      obtain ⟨⟨-, hmem⟩, hnext, -⟩ := neighbourly m
      have hlt : position m < (listFrom 16 (first m)).length := List.idxOf_lt_length_of_mem hmem
      have hstep : position m ≤ position (Press.next.to m) := by
        rw [hnext, Press.move]
        omega
      exact hstep.trans (ih (Press.next.to m))

/-- "Previous" does not go on. -/
lemma position_iterate_le (n : ℕ) (m : Item) :
    position ((Press.previous.to)^[n] m) ≤ position m := by
  induction n generalizing m with
  | zero => exact le_rfl
  | succ n ih =>
      have hstep : position (Press.previous.to m) ≤ position m := by
        by_cases hm : m = .m19
        · rw [hm]
          decide
        · obtain ⟨-, -, hprevious, -⟩ := neighbourly m
          rw [hprevious.mpr hm]
          exact Nat.sub_le _ 1
      exact (ih (Press.previous.to m)).trans hstep

/-- "Acquisition" is not reached from "Save" with "Previous". -/
lemma iterate_save_ne (n : ℕ) : (Press.previous.to)^[n] .m19 ≠ .m18 := by
  cases n with
  | zero => decide
  | succ n =>
      intro h
      have hle := position_iterate_le n .m17
      rw [Function.iterate_succ_apply] at h
      rw [show Item.m17 = Press.previous.to .m19 from rfl, h] at hle
      exact absurd hle (by decide)

/-! ### A press -/

/-- Where a job leads to. -/
def moved : Job → Item → Item
  | .previous, m | .toPrevious, m => Press.previous.to m
  | .next, m | .toNext, m => Press.next.to m
  | _, m => m

/-- Where the jobs of a turn lead to. -/
def destination (jobs : List Job) (m : Item) : Item := jobs.foldl (fun m job => moved job m) m

/-- The job stays in its list. -/
def walks : Job → Bool
  | .previous | .next | .toPrevious | .toNext | .callUnselect | .callSelect | .encoder _ _
  | .callPeriodic | .draw => true
  | _ => false

/-- A press that began at `s` and will end at the item `d`. -/
structure Walking (s : State) (d : Item) (t : State) : Prop where
  top : t.top = s.top
  history : t.history = s.history
  still : entering t.activity = false
  live : t.activity ≠ .ended
  jobs : ∀ job ∈ t.jobs, walks job = true
  leads : destination t.jobs t.m = d

variable {s t : State} {d : Item}

/-- A callback is called whose result nothing depends on. -/
lemma Walking.call (h : Walking s d t) (c : Option Callback) :
    Walking s d { t with toMenu := t.toMenu.call .report c } := by
  cases c with
  | none => exact h
  | some c => exact ⟨h.top, h.history, rfl, by simp [Menu.call], h.jobs, h.leads⟩

lemma Walking.selection (h : Walking s d t) (c : Option Callback) :
    Walking s d { t with toMenu := t.toMenu.selection c } := by
  unfold Menu.selection
  split_ifs
  · exact h.call c
  · exact h

/-- The log of the levels does not matter. -/
lemma Walking.setLog (h : Walking s d t) (log : List (Crossing Item)) :
    Walking s d { t with log } :=
  ⟨h.top, h.history, h.still, h.live, h.jobs, h.leads⟩

/-- **A job of a press** does its part of the way. -/
theorem Walking.job (h : Walking s d t) {job : Job} {jobs : List Job}
    (hjobs : t.jobs = job :: jobs) : Walking s d (State.job { t with jobs } job) := by
  obtain ⟨htop, hhistory, hstill, hlive, hwalks, hleads⟩ := h
  rw [hjobs] at hwalks hleads
  obtain ⟨hjob, hrest⟩ := List.forall_mem_cons.mp hwalks
  have hmove : ∀ {m : Item}, destination jobs m = d → Walking s d { t with m, jobs } := fun hd =>
    ⟨htop, hhistory, hstill, hlive, hrest, hd⟩
  have hbranch : ∀ {move : Job}, walks move = true → destination jobs (moved move t.m) = d →
      Walking s d { t with jobs := .callUnselect :: move :: .callSelect :: jobs } := by
    intro move hmove hd
    refine ⟨htop, hhistory, hstill, hlive, ?_, hd⟩
    exact List.forall_mem_cons.mpr ⟨rfl, List.forall_mem_cons.mpr ⟨hmove,
      List.forall_mem_cons.mpr ⟨rfl, hrest⟩⟩⟩
  -- without a neighbour the key does nothing
  have hend : ∀ {neighbour : Option Item}, ¬ neighbour.isSome = true →
      destination jobs (neighbour.getD t.m) = d → Walking s d { t with jobs } := by
    intro neighbour hnone hd
    rw [Option.not_isSome_iff_eq_none.mp hnone, Option.getD_none] at hd
    exact hmove hd
  cases job with
  | previous =>
      simp only [State.job, Menu.job]
      split_ifs with hsome
      · exact hbranch rfl hleads
      · exact hend hsome hleads
  | next =>
      simp only [State.job, Menu.job]
      split_ifs with hsome
      · exact hbranch rfl hleads
      · exact hend hsome hleads
  | toPrevious => exact hmove hleads
  | toNext => exact hmove hleads
  | callUnselect =>
      simp only [State.job]
      split_ifs
      · exact ((hmove hleads).selection t.m.get.pUnselect).setLog _
      · exact (hmove hleads).selection t.m.get.pUnselect
  | callSelect => exact (hmove hleads).selection t.m.get.pSelect
  | encoder change step =>
      simp only [State.job, Menu.job]
      split_ifs
      · exact (hmove hleads).call t.m.get.pChange
      · exact hmove hleads
  | callPeriodic => exact (hmove hleads).call t.m.get.pPeriod
  | draw => exact hmove hleads
  | parent | child | callEnter | callExit | pushHistory | editor | popHistory => cases hjob

/-- The result of a callback of a press is only reported. -/
lemma Walking.report (h : Walking s d t) {r : Running} (hr : t.activity.running = some r) :
    r.purpose = .report := by
  have hstill := h.still
  rw [entering, hr] at hstill
  cases hpurpose : r.purpose with
  | report => rfl
  | enter =>
      rw [Option.any_some, hpurpose] at hstill
      cases hstill

/-- **A step of a press.** -/
theorem Walking.step (h : Walking s d t) {e : Event} (he : e.isTurn = false) {u : State}
    (hstep : step t e = some u) : Walking s d u := by
  cases e with
  | turn keys encoder => cases he
  | job =>
      simp only [Navigation.step] at hstep
      split at hstep
      · split at hstep
        · cases hstep
        · cases hstep
        · next job jobs _ hjobs =>
            rw [← Option.some.inj hstep]
            exact h.job hjobs
      · cases hstep
  | result result =>
      obtain ⟨r, hr, hu⟩ := Option.map_eq_some_iff.mp hstep
      rw [← hu]
      unfold State.finish
      rw [h.report hr]
      cases result with
      | true => exact ⟨h.top, h.history, rfl, by simp, h.jobs, h.leads⟩
      | false => exact ⟨h.top, h.history, rfl, by simp, h.jobs, h.leads⟩
  | key =>
      obtain ⟨menu, hmenu, hu⟩ := Option.map_eq_some_iff.mp hstep
      rw [← hu]
      unfold keyStep at hmenu
      split at hmenu
      · rw [← Option.some.inj hmenu]
        exact ⟨h.top, h.history, rfl, by simp, h.jobs, h.leads⟩
      · split at hmenu
        · next jobs hjobs =>
            have hwalks := h.jobs .editor (by rw [hjobs]; exact List.mem_cons_self)
            cases hwalks
        · cases hmenu
      · cases hmenu

/-- A turn with one of the two keys begins a press. -/
lemma walking_turn {p : Press} {encoder : Bool} {u : State}
    (hstep : step s (.turn (fun k => decide (k = p.key)) encoder) = some u) :
    Walking s (p.to s.m) u := by
  simp only [Navigation.step] at hstep
  split_ifs at hstep with hidle
  rw [← Option.some.inj hstep]
  have hstill : entering s.activity = false := by rw [hidle.1]; rfl
  have hlive : s.activity ≠ .ended := by rw [hidle.1]; simp
  cases p with
  | previous => exact ⟨rfl, rfl, hstill, hlive, by simp [turnJobs, Press.key, walks], rfl⟩
  | next => exact ⟨rfl, rfl, hstill, hlive, by simp [turnJobs, Press.key, walks], rfl⟩

/-- The steps of a press. -/
lemma Walking.run (h : Walking s d t) {es : List Event} (hes : ∀ e ∈ es, e.isTurn = false)
    {u : State} (hrun : Machine.run Navigation.step t es = some u) : Walking s d u :=
  Machine.run_induction (fun _ _ _ hw he hstep => hw.step he hstep) h
    (Machine.meets_of_forall hes t) hrun

/-- **A press moves to the neighbour** in the same list. -/
theorem Pressed.moves {p : Press} (h : Pressed p s t) :
    t.m = p.to s.m ∧ t.top = s.top ∧ t.history = s.history := by
  obtain ⟨encoder, es, hes, hrun, -, hjobs⟩ := h
  obtain ⟨u, hturn, hrest⟩ := Machine.run_cons hrun
  have hwalking := (walking_turn hturn).run hes hrest
  have hleads := hwalking.leads
  rw [hjobs] at hleads
  exact ⟨hleads, hwalking.top, hwalking.history⟩

/-! ### A press comes to its end -/

/-- What a job takes: it calls at most one callback, and a key's branch is three more jobs. -/
def cost : Job → ℕ
  | .previous | .next => 12
  | _ => 3

/-- What a callback and its message take. -/
def pending : Activity → ℕ
  | .idle => 0
  | .message => 1
  | _ => 2

/-- How much is left to do of a press. -/
def effort (t : State) : ℕ := (t.jobs.map cost).sum + pending t.activity

/-- A callback is less than the job that calls it. -/
lemma effort_call (t : State) (c : Option Callback) (hidle : t.activity = .idle) :
    effort { t with toMenu := t.toMenu.call .report c } ≤ effort t + 2 := by
  cases c with
  | none => exact Nat.le_add_right _ 2
  | some c => simp [effort, pending, Menu.call, hidle]

lemma effort_selection (t : State) (c : Option Callback) (hidle : t.activity = .idle) :
    effort { t with toMenu := t.toMenu.selection c } ≤ effort t + 2 := by
  unfold Menu.selection
  split_ifs
  · exact effort_call t c hidle
  · exact Nat.le_add_right _ 2

/-- A job is done. -/
lemma effort_job (hidle : t.activity = .idle) {job : Job} {jobs : List Job}
    (hjobs : t.jobs = job :: jobs) (hwalks : walks job = true) :
    effort (State.job { t with jobs } job) < effort t := by
  have hcons : effort t = effort { t with jobs } + cost job := by
    simp only [effort, hjobs, List.map_cons, List.sum_cons]
    omega
  have hbranch : ∀ {move : Job}, cost move = 3 →
      effort { t with jobs := .callUnselect :: move :: .callSelect :: jobs } =
        effort { t with jobs } + 9 := by
    intro move hmove
    simp only [effort, List.map_cons, List.sum_cons, hmove,
      show cost .callUnselect = 3 from rfl, show cost .callSelect = 3 from rfl]
    omega
  have hpos : effort { t with jobs } < effort { t with jobs } + cost job := by
    refine Nat.lt_add_of_pos_right ?_
    cases job <;> exact Nat.succ_pos _
  have hcalls : ∀ {u : State}, 3 ≤ cost job → effort u ≤ effort { t with jobs } + 2 →
      effort u < effort { t with jobs } + cost job := fun hcost hu => by omega
  rw [hcons]
  cases job with
  | previous =>
      simp only [State.job, Menu.job]
      split_ifs
      · rw [hbranch rfl]
        exact Nat.add_lt_add_left (by decide) _
      · exact hpos
  | next =>
      simp only [State.job, Menu.job]
      split_ifs
      · rw [hbranch rfl]
        exact Nat.add_lt_add_left (by decide) _
      · exact hpos
  | toPrevious | toNext | draw => exact hpos
  | callUnselect =>
      have hlog : effort (State.job { t with jobs } .callUnselect) =
          effort { t with toMenu := Menu.selection { t.toMenu with jobs } t.m.get.pUnselect } := by
        simp only [State.job]
        split_ifs <;> rfl
      rw [hlog]
      exact hcalls (by decide) (effort_selection { t with jobs } t.m.get.pUnselect hidle)
  | callSelect => exact hcalls (by decide) (effort_selection { t with jobs } t.m.get.pSelect hidle)
  | encoder change step =>
      simp only [State.job, Menu.job]
      split_ifs
      · exact hcalls le_rfl (effort_call { t with jobs } t.m.get.pChange hidle)
      · exact hpos
  | callPeriodic => exact hcalls (by decide) (effort_call { t with jobs } t.m.get.pPeriod hidle)
  | parent | child | callEnter | callExit | pushHistory | editor | popHistory => cases hwalks

/-- A callback of a press returns. -/
lemma Walking.returns (h : Walking s d t) {r : Running} (hr : t.activity.running = some r) :
    Navigation.step t (.result true) = some { t with activity := .idle } := by
  simp only [Navigation.step, hr, Option.map_some, State.finish, h.report hr]

/-- What is not at its end goes on. -/
lemma Walking.progress (h : Walking s d t) (hmore : ¬ (t.activity = .idle ∧ t.jobs = [])) :
    ∃ e u, e.isTurn = false ∧ Navigation.step t e = some u ∧ effort u < effort t := by
  cases hactivity : t.activity with
  | idle =>
      cases hjobs : t.jobs with
      | nil => exact absurd ⟨hactivity, hjobs⟩ hmore
      | cons job jobs =>
          have hwalks := h.jobs job (by rw [hjobs]; exact List.mem_cons_self)
          refine ⟨.job, State.job { t with jobs } job, rfl, ?_, effort_job hactivity hjobs hwalks⟩
          simp only [Navigation.step, hactivity, hjobs]
          cases job <;> first | rfl | cases hwalks
  | callback r =>
      refine ⟨.result true, _, rfl, h.returns (r := r) (by rw [hactivity]; rfl), ?_⟩
      simp [effort, pending, hactivity]
  | waiting r state answered =>
      refine ⟨.result true, _, rfl, h.returns (r := r) (by rw [hactivity]; rfl), ?_⟩
      simp [effort, pending, hactivity]
  | message =>
      refine ⟨.key, { t with activity := .idle }, rfl, ?_, ?_⟩
      · simp only [Navigation.step, keyStep, hactivity, Option.map_some]
      · simp [effort, pending, hactivity]
  | ended => exact absurd hactivity h.live

/-- A press that has begun comes to its end. -/
lemma Walking.settles (h : Walking s d t) : ∃ es u, (∀ e ∈ es, e.isTurn = false) ∧
    Machine.run Navigation.step t es = some u ∧ u.activity = .idle ∧ u.jobs = [] := by
  induction heffort : effort t using Nat.strong_induction_on generalizing t with
  | _ n ih =>
      by_cases hdone : t.activity = .idle ∧ t.jobs = []
      · exact ⟨[], t, fun _ hmem => absurd hmem List.not_mem_nil, rfl, hdone.1, hdone.2⟩
      · obtain ⟨e, u, he, hstep, hless⟩ := h.progress hdone
        obtain ⟨es, v, hes, hrun, hend⟩ := ih (effort u) (heffort ▸ hless) (h.step he hstep) rfl
        refine ⟨e :: es, v, List.forall_mem_cons.mpr ⟨he, hes⟩, ?_, hend⟩
        rw [Machine.run, hstep, Option.bind_some, hrun]

/-- **Both keys can be pressed** between two turns. -/
theorem exists_pressed (p : Press) (hidle : s.activity = .idle) (hjobs : s.jobs = []) :
    ∃ t, Pressed p s t := by
  have hturn : Navigation.step s (.turn (fun k => decide (k = p.key)) false) =
      some { s with jobs := turnJobs (fun k => decide (k = p.key)) false } := by
    simp only [Navigation.step, if_pos (And.intro hidle hjobs)]
  obtain ⟨es, t, hes, hrun, hend⟩ := (walking_turn hturn).settles
  refine ⟨t, false, es, hes, ?_, hend⟩
  rw [Machine.run, hturn, Option.bind_some, hrun]

/-! ### Walks -/

/-- The drawing starts at the first item of the current item's list. -/
def Placed (s : State) : Prop := s.top = first s.m

/-- In every reachable state it does. -/
lemma placed_of_run {es : List Event} (hrun : Machine.run Navigation.step init es = some s) :
    Placed s :=
  (Machine.run_invariant (fun _ _ _ h => inv_step h) inv_init hrun : Inv s).top

/-- The cursor is drawn at the number of the item in its list. -/
lemma Placed.cursor (h : Placed s) : cursor s = position s.m := by
  rw [Navigation.cursor, drawn, show s.top = first s.m from h, position]

lemma Placed.drawn (h : Placed s) : drawn s = listFrom 16 (first s.m) := by
  rw [Navigation.drawn, show s.top = first s.m from h]

/-- A press stays in the list. -/
lemma Placed.pressed (h : Placed s) {p : Press} (hpress : Pressed p s t) : Placed t := by
  obtain ⟨hm, htop, -⟩ := hpress.moves
  rw [Placed, hm, htop, first_to]
  exact h

/-- **A press moves the cursor by one position**, but "Previous" on "Save" by two. -/
theorem Pressed.cursor_iff (h : Placed s) {p : Press} (hpress : Pressed p s t) :
    cursor t = p.move (drawn s).length (cursor s) ↔ ¬ (p = .previous ∧ s.m = .m19) := by
  obtain ⟨-, hnext, hprevious, -⟩ := neighbourly s.m
  rw [(h.pressed hpress).cursor, h.cursor, h.drawn, hpress.moves.1]
  cases p with
  | previous =>
      rw [hprevious]
      simp
  | next =>
      rw [hnext]
      simp

/-- Of a walk, press by press. -/
lemma Walk.lawful_iff {visits : List (Press × State)} (h : Placed s) (hwalk : Walk s visits) :
    Lawful s visits ↔ AvoidsSave s visits := by
  induction visits generalizing s with
  | nil => exact Iff.rfl
  | cons v rest ih =>
      exact and_congr (hwalk.1.cursor_iff h) (ih (h.pressed hwalk.1) hwalk.2)

/-- A walk with one key goes on and on to the neighbour. -/
lemma Walk.iterate {p : Press} {visits : List (Press × State)} (hwalk : Walk s visits)
    (hkey : ∀ v ∈ visits, v.1 = p) : (arrival s visits).m = (p.to)^[visits.length] s.m := by
  induction visits generalizing s with
  | nil => rfl
  | cons v rest ih =>
      obtain ⟨hv, hrest⟩ := List.forall_mem_cons.mp hkey
      obtain ⟨q, t⟩ := v
      obtain rfl : q = p := hv
      rw [arrival, ih hwalk.2 hrest, List.length_cons, Function.iterate_succ_apply,
        hwalk.1.moves.1]

/-- One key can be pressed any number of times. -/
lemma exists_walk (p : Press) (n : ℕ) (hidle : s.activity = .idle) (hjobs : s.jobs = []) :
    ∃ visits, Walk s visits ∧ (∀ v ∈ visits, v.1 = p) ∧ visits.length = n := by
  induction n generalizing s with
  | zero => exact ⟨[], trivial, fun _ hmem => absurd hmem List.not_mem_nil, rfl⟩
  | succ n ih =>
      obtain ⟨t, hpress⟩ := exists_pressed p hidle hjobs
      obtain ⟨-, -, -, -, hidle', hjobs'⟩ := id hpress
      obtain ⟨visits, hwalk, hkey, hlength⟩ := ih hidle' hjobs'
      exact ⟨(p, t) :: visits, ⟨hpress, hwalk⟩, List.forall_mem_cons.mpr ⟨rfl, hkey⟩,
        congrArg Nat.succ hlength⟩

/-- What is reached with one key. -/
lemma reached_iff (p : Press) (hidle : s.activity = .idle) (hjobs : s.jobs = []) (i : Item) :
    (∃ visits, Walk s visits ∧ (∀ v ∈ visits, v.1 = p) ∧ (arrival s visits).m = i) ↔
      ∃ n, (p.to)^[n] s.m = i := by
  constructor
  · rintro ⟨visits, hwalk, hkey, rfl⟩
    exact ⟨visits.length, (hwalk.iterate hkey).symm⟩
  · rintro ⟨n, rfl⟩
    obtain ⟨visits, hwalk, hkey, hlength⟩ := exists_walk p n hidle hjobs
    exact ⟨visits, hwalk, hkey, by rw [hwalk.iterate hkey, hlength]⟩

/-! ### Main result -/

/-- **The walk of the cursor** from any reachable state between two turns: every press of "Next" and
"Previous" moves it by one position and no further than the ends, exactly when "Previous" is never
pressed on "Save", which it leaves by two positions. Two opposite presses undo each other away from
the ends, except between "Acquisition" and "Save". With "Next" alone exactly the items from the
cursor on are reached, with "Previous" alone those up to the cursor, but from "Save" not
"Acquisition". -/
theorem cursor_law_iff {es : List Event} (hrun : Machine.run Navigation.step init es = some s)
    (hidle : s.activity = .idle) (hjobs : s.jobs = []) :
    (∀ visits, Walk s visits → (Lawful s visits ↔ AvoidsSave s visits)) ∧
      (∀ p, ∃ t, Pressed p s t) ∧
      (∀ t u, Walk s [(.next, t), (.previous, u)] → cursor s + 1 < (drawn s).length →
        (u.m = s.m ↔ s.m ≠ .m18)) ∧
      (∀ t u, Walk s [(.previous, t), (.next, u)] → 0 < cursor s → (u.m = s.m ↔ s.m ≠ .m19)) ∧
      s.m ∈ drawn s ∧ ∀ i ∈ drawn s,
        ((∃ visits, Walk s visits ∧ (∀ v ∈ visits, v.1 = .next) ∧ (arrival s visits).m = i) ↔
          cursor s ≤ (drawn s).idxOf i) ∧
        ((∃ visits, Walk s visits ∧ (∀ v ∈ visits, v.1 = .previous) ∧ (arrival s visits).m = i) ↔
          (drawn s).idxOf i ≤ cursor s ∧ ¬ (s.m = .m19 ∧ i = .m18)) := by
  have hplaced := placed_of_run hrun
  obtain ⟨⟨-, hmem⟩, -, -, hundo, hundo', hlist⟩ := neighbourly s.m
  refine ⟨fun visits hwalk => hwalk.lawful_iff hplaced, fun p => exists_pressed p hidle hjobs,
    ?_, ?_, ?_, ?_⟩
  · rintro t u ⟨hnext, hprevious, -⟩ hend
    rw [hplaced.cursor, hplaced.drawn] at hend
    rw [hprevious.moves.1, hnext.moves.1]
    exact hundo hend
  · rintro t u ⟨hprevious, hnext, -⟩ hstart
    rw [hplaced.cursor] at hstart
    rw [hnext.moves.1, hprevious.moves.1]
    exact hundo' hstart
  · rw [hplaced.drawn]
    exact hmem
  · intro i hi
    rw [hplaced.drawn] at hi
    obtain ⟨hfirst, hahead, hbehind⟩ := hlist i hi
    have hposition : (drawn s).idxOf i = position i := by
      rw [hplaced.drawn, position, hfirst]
    rw [reached_iff _ hidle hjobs, reached_iff _ hidle hjobs, hposition, hplaced.cursor]
    refine ⟨⟨?_, fun hle => ?_⟩, ⟨?_, ?_⟩⟩
    · rintro ⟨n, rfl⟩
      exact le_position_iterate n s.m
    · obtain ⟨n, -, hn⟩ := hahead hle
      exact ⟨n, hn⟩
    · rintro ⟨n, rfl⟩
      refine ⟨position_iterate_le n s.m, ?_⟩
      rintro ⟨hsave, hskip⟩
      rw [hsave] at hskip
      exact iterate_save_ne n hskip
    · rintro ⟨hle, hskip⟩
      obtain ⟨n, -, hn⟩ := hbehind hle hskip
      exact ⟨n, hn⟩

/-- A turn with one key and so many jobs. -/
def turnOf (key : Key) (jobs : ℕ) : List Event :=
  .turn (fun k => decide (k = key)) false :: List.replicate jobs .job

/-- From the top into "Regulator" and down to "Save"; the callbacks that are called succeed. -/
def saveRun : List Event :=
  turnOf .kOnOff 4 ++ [.result true, .job] ++ (List.replicate 7 (turnOf .kNext 7)).flatten ++
    turnOf .kNext 6 ++ [.result true, .job]

/-- "Save" is reached in the ninth place. -/
lemma saveRun_cursor : (Machine.run Navigation.step init saveRun).map
    (fun s => (s.m, s.activity, s.jobs, cursor s)) = some (.m19, .idle, [], 8) := by
  decide +kernel

/-- "Previous" skips "Acquisition" there. -/
theorem not_lawful_save : ∃ s t, Machine.run Navigation.step init saveRun = some s ∧
    Walk s [(.previous, t)] ∧ cursor s = 8 ∧ cursor t = 6 ∧ ¬ Lawful s [(.previous, t)] := by
  obtain ⟨s, hs, hview⟩ := Option.map_eq_some_iff.mp saveRun_cursor
  simp only [Prod.mk.injEq] at hview
  obtain ⟨hm, hidle, hjobs, hcursor⟩ := hview
  have hplaced := placed_of_run hs
  obtain ⟨t, hpress⟩ := exists_pressed .previous hidle hjobs
  have ht : cursor t = 6 := by
    rw [(hplaced.pressed hpress).cursor, hpress.moves.1, hm]
    decide
  refine ⟨s, t, hs, ⟨hpress, trivial⟩, hcursor, ht, ?_⟩
  rintro ⟨hlaw, -⟩
  rw [ht, hcursor] at hlaw
  cases hlaw

/-- The walks from "Save". -/
theorem cursor_law_iff_saveRun : ∃ s, Machine.run Navigation.step init saveRun = some s ∧
    s.m = .m19 ∧ ∀ visits, Walk s visits → (Lawful s visits ↔ AvoidsSave s visits) := by
  obtain ⟨s, hs, hview⟩ := Option.map_eq_some_iff.mp saveRun_cursor
  simp only [Prod.mk.injEq] at hview
  obtain ⟨hm, hidle, hjobs, -⟩ := hview
  exact ⟨s, hs, hm, (cursor_law_iff hs hidle hjobs).1⟩

end PanelFirmware.Window.Navigation
