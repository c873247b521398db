import PanelFirmware.Window.MenuSystem

/-!
# Whether a calibration leaves the output on

The output is switched on by the callback that is called before a calibration submenu is entered,
and switched off by the one that is called when it is left. The submenu is not entered when the
last call of the first one fails, and the result of the second one is only shown.

* `Off`: the output is not left on by the menu where it shows something else than a calibration
  submenu; `on_of_left`: what is recorded as left on is on.
* `off_of_controlled`: over all runs whose steps meet `Controlled`.
-/

namespace PanelFirmware.Window

open PanelFirmware.Lib

/-! ### The output outside the calibration -/

/-- The items before whose submenu the output is switched on. -/
def Item.prepares (i : Item) : Bool := i.get.pSelect.any Callback.isPrepare

/-- The menu is inside a calibration submenu. -/
def Menu.inside (s : Menu) : Bool := s.history.head?.any Item.prepares

/-- The menu shows something: a level, an editor or a message, or it has returned. -/
def Menu.shows (s : Menu) : Bool :=
  match s.activity with
  | .idle =>
      match s.jobs with
      | [] | .draw :: _ | .editor :: _ => true
      | _ => false
  | .message | .ended => true
  | .callback _ | .waiting _ _ _ => false

/-- Where the menu shows something outside the calibration submenus, it has not left the output
on. -/
def Off (s : State) : Prop := s.shows = true → s.inside = false → s.left = false

/-! ### The condition -/

/-- The callback in progress. -/
def Activity.running : Activity → Option Running
  | .callback r => some r
  | .waiting r _ _ => some r
  | .idle | .message | .ended => none

/-- A callback that switches the output on has not failed yet. -/
def Menu.preparing (s : Menu) : Bool :=
  s.activity.running.any fun r => r.purpose = .enter ∧ s.m.prepares ∧ r.result

/-- The callback that switches the output off has its call before it or waits in it. -/
def Menu.exiting (s : Menu) : Bool :=
  s.activity.running.any fun r => r.rest = Callback.calibrExit.body

/-- The menu is in a calibration submenu, on its way in, or on its way out. -/
def Menu.calibrating (s : Menu) : Bool := s.inside || s.preparing || s.exiting

/-- The next call of the callback in progress, and what is done with its result. -/
def Menu.nextCall (s : Menu) : Option (RegCall × Use) :=
  match s.activity with
  | .callback r => r.rest.head?
  | _ => none

/-- The state of the output that is waited for. -/
def Menu.waitsFor (s : Menu) : Option Bool :=
  match s.activity with
  | .waiting _ state _ => some state
  | _ => none

/-- The condition on a call. One that switches the output off is sent, and one whose result decides
that a calibration submenu is not entered succeeds, or else the menu has not left the output on. -/
def ControlledCall (s : State) (accepted : Bool) (c : RegCall) (use : Use) : Prop :=
  (c = .enableSet false →
    s.enabled = Regulator.Enable.value false ∨ s.connected = false ∨ accepted = false →
      s.left = false) ∧
  (s.preparing = true → use ≠ .ignored → (s.connected && (c.immediate || accepted)) = false →
    s.left = false)

/-- The condition on an event: on calls; the write that switches the output off is carried out
before the wait for it ends; and a write whose call has returned switches the output on only on the
way into a calibration submenu, inside or on the way out. -/
def Controlled (s : State) : Event → Prop
  | .call accepted => ∀ p ∈ s.nextCall, ControlledCall s accepted p.1 p.2
  | .wake => s.waitsFor = some false → s.left = false
  | .late v => v ≠ 0 → s.calibrating = true
  | .turn _ _ | .menu | .key | .serve _ | .refresh | .change _ | .link _ => True

instance (s : State) (accepted : Bool) (c : RegCall) (use : Use) :
    Decidable (ControlledCall s accepted c use) :=
  inferInstanceAs (Decidable (_ ∧ _))

instance (s : State) : (e : Event) → Decidable (Controlled s e)
  | .call accepted =>
      inferInstanceAs (Decidable (∀ p ∈ s.nextCall, ControlledCall s accepted p.1 p.2))
  | .wake => inferInstanceAs (Decidable (s.waitsFor = some false → s.left = false))
  | .late v => inferInstanceAs (Decidable (v ≠ 0 → s.calibrating = true))
  | .turn _ _ | .menu | .key | .serve _ | .refresh | .change _ | .link _ =>
      inferInstanceAs (Decidable True)

/-! ### The items -/

/-- The items of the calibration submenus. -/
def Item.calibrates : Item → Bool
  | .m120 | .m121 | .m122 | .m1330 | .m1331 | .m1332 | .m1333 | .m1334 | .m1430 | .m1431 | .m1432
  | .m1433 | .m1434 | .m1435 | .m1530 | .m1531 | .m1532 | .m1533 | .m1534 => true
  | _ => false

/-- The calls do not switch the output. -/
def Harmless (rest : List (RegCall × Use)) : Prop := ∀ p ∈ rest, ∀ state, p.1 ≠ .enableSet state

instance (rest : List (RegCall × Use)) : Decidable (Harmless rest) :=
  inferInstanceAs (Decidable (∀ p ∈ rest, ∀ state, p.1 ≠ .enableSet state))

/-- The calls switch the output on at most, by a call whose result is ignored. -/
def Preparation (rest : List (RegCall × Use)) : Prop :=
  ∀ p ∈ rest, p.1 ≠ .enableSet false ∧ p.2 ≠ .collected ∧ (p.1 = .enableSet true → p.2 = .ignored)

instance (rest : List (RegCall × Use)) : Decidable (Preparation rest) :=
  inferInstanceAs (Decidable (∀ p ∈ rest,
    p.1 ≠ .enableSet false ∧ p.2 ≠ .collected ∧ (p.1 = .enableSet true → p.2 = .ignored)))

/-- The submenus of the items that prepare are the calibration submenus. -/
lemma calibrates_child (i : Item) :
    i.prepares = true → ∀ c ∈ i.get.child, c.calibrates = true := by
  cases i <;> decide

/-- The neighbours of an item of a calibration submenu are items of one. -/
lemma calibrates_next (i : Item) :
    i.calibrates = true → (i.get.next.getD i).calibrates = true := by
  cases i <;> decide

lemma calibrates_previous (i : Item) :
    i.calibrates = true → (i.get.previous.getD i).calibrates = true := by
  cases i <;> decide

/-- The items of a calibration submenu have neither a submenu nor an editor. -/
lemma leaf_of_calibrates (i : Item) :
    i.calibrates = true → i.get.child = none ∧ i.get.editor = none := by
  cases i <;> decide

/-- An item that prepares has no editor and no parameter. -/
lemma plain_of_prepares (i : Item) :
    i.prepares = true → i.get.editor = none ∧ i.get.prm = false := by
  cases i <;> decide

/-- What is called before a submenu: of an item that prepares, a preparation. -/
lemma pSelect_body (i : Item) : ∀ c ∈ i.get.pSelect,
    if i.prepares then Preparation c.body else Harmless c.body := by
  cases i <;> decide

/-- What is called after a submenu: of an item that prepares, `calibrExit`. -/
lemma pUnselect_body (i : Item) : ∀ c ∈ i.get.pUnselect,
    if i.prepares then c = .calibrExit else Harmless c.body := by
  cases i <;> decide

/-- An item that prepares has a callback after its submenu. -/
lemma pUnselect_of_prepares (i : Item) : i.prepares = true → i.get.pUnselect.isSome := by
  cases i <;> decide

/-- The other callbacks do not switch the output. -/
lemma pChange_body (i : Item) : ∀ c ∈ i.get.pChange, Harmless c.body := by
  cases i <;> decide

lemma pPeriod_body (i : Item) : ∀ c ∈ i.get.pPeriod, Harmless c.body := by
  cases i <;> decide

/-! ### The invariant -/

/-- What a callback in progress may still do: nothing to the output, switch it off, or, before a
calibration submenu, switch it on. -/
inductive Role (m : Item) (r : Running) : Prop
  | harmless (hrest : Harmless r.rest)
  | exit (hrest : r.rest = Callback.calibrExit.body)
  | prepare (hpurpose : r.purpose = .enter) (hm : m.prepares = true) (hresult : r.result = true)
      (hrest : Preparation r.rest)

/-- The jobs that move to another item. -/
def Job.moves : Job → Bool
  | .previous | .next | .parent | .child | .toPrevious | .toNext => true
  | _ => false

/-- The jobs of an editor. -/
def Job.edits : Job → Bool
  | .callEnter | .callExit | .pushHistory | .editor | .popHistory => true
  | _ => false

/-- The order of two jobs of a turn: those of an editor come last of those that move, and behind
them the menu stays at its item. -/
def Job.Before (a b : Job) : Prop :=
  (a.edits = true ∨ a = .child → b.moves = false) ∧ (a.moves = true → b.edits = false)

/-- What holds of a callback in progress: it keeps to its role, and if it is called before a submenu
there is one, and no editor is open. -/
structure CallbackInv (s : Menu) (r : Running) : Prop where
  role : Role s.m r
  enter : r.purpose = .enter → s.m.get.child.isSome ∧ ∀ job ∈ s.jobs, job.edits = false

/-- The invariant of the menu, which has left the output on or not. -/
structure Inv (left : Bool) (s : Menu) : Prop where
  left : left = true → s.calibrating = true
  leaf : s.inside = true → s.m.calibrates = true
  path : ∀ i ∈ s.history.tail, i.prepares = false
  callback : ∀ r, s.activity.running = some r → CallbackInv s r
  waits : ∀ r state answered, s.activity = .waiting r state answered →
    ∃ use rest, r.rest = (.enableSet state, use) :: rest
  order : s.jobs.Pairwise Job.Before
  editor : ∀ job ∈ s.jobs, job.edits = true → s.m.get.editor.isSome

/-- Inside a calibration submenu is calibrating. -/
lemma calibrating_of_inside {s : Menu} (h : s.inside = true) : s.calibrating = true := by
  rw [Menu.calibrating, h, Bool.true_or, Bool.true_or]

/-- Between two callbacks the menu is calibrating only inside. -/
lemma calibrating_of_running {s : Menu} (h : s.activity.running = none) :
    s.calibrating = s.inside := by
  rw [Menu.calibrating, Menu.preparing, Menu.exiting, h, Option.any_none, Option.any_none,
    Bool.or_false, Bool.or_false]

/-- An item with an editor does not prepare. -/
lemma prepares_of_editor {i : Item} (h : i.get.editor.isSome) : i.prepares = false := by
  by_contra hprepares
  obtain ⟨hnone, -⟩ := plain_of_prepares i (Bool.eq_true_of_not_eq_false hprepares)
  rw [hnone] at h
  cases h

/-- The callbacks of an item that does not prepare do not switch the output. -/
lemma harmless_of_plain {i : Item} (h : i.prepares = false) {c : Option Callback}
    (hc : c = i.get.pSelect ∨ c = i.get.pUnselect) : ∀ c' ∈ c, Harmless c'.body := by
  intro c' hc'
  rcases hc with rfl | rfl
  · have hbody := pSelect_body i c' hc'
    rwa [if_neg (Bool.eq_false_iff.mp h)] at hbody
  · have hbody := pUnselect_body i c' hc'
    rwa [if_neg (Bool.eq_false_iff.mp h)] at hbody

/-- Where the menu shows something it is not in a callback. -/
lemma running_of_shows {s : Menu} (h : s.shows = true) : s.activity.running = none := by
  unfold Menu.shows at h
  cases hactivity : s.activity with
  | idle | message | ended => rfl
  | callback r | waiting r state answered =>
      rw [hactivity] at h
      cases h

section Menu

variable {left : Bool} {s : Menu}

/-- Between two callbacks the output is left on only inside. -/
lemma Inv.inside_of_left (hinv : Inv left s) (hrun : s.activity.running = none)
    (hleft : left = true) : s.inside = true := by
  rw [← calibrating_of_running hrun]
  exact hinv.left hleft

/-- Between two callbacks the output is not left on outside. -/
lemma Inv.not_left (hinv : Inv left s) (hrun : s.activity.running = none)
    (houtside : s.inside = false) : ¬ left = true := by
  intro hleft
  rw [hinv.inside_of_left hrun hleft] at houtside
  cases houtside

/-- At an item with an editor, or with a submenu, the menu is outside. -/
lemma Inv.outside_of_editor (hinv : Inv left s) (heditor : s.m.get.editor.isSome) :
    s.inside = false := by
  by_contra hinside
  obtain ⟨-, hnone⟩ := leaf_of_calibrates s.m (hinv.leaf (Bool.eq_true_of_not_eq_false hinside))
  rw [hnone] at heditor
  cases heditor

lemma Inv.outside_of_child (hinv : Inv left s) (hchild : s.m.get.child.isSome) :
    s.inside = false := by
  by_contra hinside
  obtain ⟨hnone, -⟩ := leaf_of_calibrates s.m (hinv.leaf (Bool.eq_true_of_not_eq_false hinside))
  rw [hnone] at hchild
  cases hchild

/-- The menu goes on without a callback. -/
lemma Inv.setActivity (hinv : Inv left s) (hleft : left = true → s.inside = true) {a : Activity}
    (ha : a.running = none) : Inv left { s with activity := a } := by
  refine ⟨fun h => calibrating_of_inside (hleft h), hinv.leaf, hinv.path, fun r hr => ?_,
    fun r state answered hr => ?_, hinv.order, hinv.editor⟩
  · rw [ha] at hr
    cases hr
  · have hr : a = .waiting r state answered := hr
    rw [hr] at ha
    cases ha

/-- Whether the output is left on changes. -/
lemma Inv.setLeft (hinv : Inv left s) {left' : Bool} (hleft : left' = true → s.calibrating = true) :
    Inv left' s :=
  ⟨hleft, hinv.leaf, hinv.path, hinv.callback, hinv.waits, hinv.order, hinv.editor⟩

/-- The menu waits in its callback. -/
lemma Inv.setWaiting (hinv : Inv left s) {r : Running} (hr : s.activity.running = some r)
    {state answered : Bool} (hwaits : ∃ use rest, r.rest = (.enableSet state, use) :: rest) :
    Inv left { s with activity := .waiting r state answered } := by
  have hsame : (Activity.waiting r state answered).running = s.activity.running := hr.symm
  refine ⟨fun h => ?_, hinv.leaf, hinv.path, fun r' hr' => ?_, fun r' state' answered' h => ?_,
    hinv.order, hinv.editor⟩
  · have hcalibrating := hinv.left h
    simp only [Menu.calibrating, Menu.preparing, Menu.exiting, Menu.inside, hsame] at hcalibrating ⊢
    exact hcalibrating
  · obtain ⟨hrole, henter⟩ := hinv.callback r' (hsame ▸ hr')
    exact ⟨hrole, henter⟩
  · cases h
    exact hwaits

/-- Outside, no item of the path prepares. -/
lemma Inv.path_of_outside (hinv : Inv left s) (houtside : s.inside = false) :
    ∀ i ∈ s.history, i.prepares = false := by
  intro i hi
  have hpath := hinv.path
  cases hhistory : s.history with
  | nil =>
      rw [hhistory] at hi
      cases hi
  | cons h history =>
      rw [hhistory] at hi hpath
      rcases List.mem_cons.mp hi with rfl | htail
      · rwa [Menu.inside, hhistory] at houtside
      · exact hpath i htail

/-- The jobs change between two callbacks. -/
lemma Inv.setJobs (hinv : Inv left s) (hrun : s.activity.running = none) {jobs : List Job}
    (horder : jobs.Pairwise Job.Before)
    (heditor : ∀ job ∈ jobs, job.edits = true → s.m.get.editor.isSome) :
    Inv left { s with jobs } := by
  refine ⟨hinv.left, hinv.leaf, hinv.path, fun r hr => ?_, hinv.waits, horder, heditor⟩
  have hr : s.activity.running = some r := hr
  rw [hrun] at hr
  cases hr

/-- A callback is called that does not switch the output. -/
lemma Inv.call (hinv : Inv left s) (hrun : s.activity.running = none) {c : Option Callback}
    (hc : ∀ c' ∈ c, Harmless c'.body) : Inv left (s.call .report c) := by
  cases c with
  | none => exact hinv
  | some c =>
      refine ⟨fun h => calibrating_of_inside (hinv.inside_of_left hrun h), hinv.leaf, hinv.path,
        fun r hr => ?_, fun _ _ _ h => (by cases h), hinv.order, hinv.editor⟩
      rw [← Option.some.inj hr]
      exact ⟨.harmless (hc c rfl), fun hpurpose => (by cases hpurpose)⟩

/-- The callbacks of the selection do not switch the output. -/
lemma Inv.selection (hinv : Inv left s) (hrun : s.activity.running = none) {c : Option Callback}
    (hc : c = s.m.get.pSelect ∨ c = s.m.get.pUnselect) : Inv left (s.selection c) := by
  unfold Menu.selection
  split_ifs with hprm
  · refine hinv.call hrun (harmless_of_plain ?_ hc)
    by_contra hprepares
    obtain ⟨-, hnone⟩ := plain_of_prepares s.m (Bool.eq_true_of_not_eq_false hprepares)
    rw [hnone] at hprm
    cases hprm.1
  · exact hinv

/-- Without an editor there is nothing to hold of its item. -/
lemma editor_of_edits {jobs : List Job} (hedits : ∀ job ∈ jobs, job.edits = false) (m : Item) :
    ∀ job ∈ jobs, job.edits = true → m.get.editor.isSome := by
  intro job hjob hedit
  rw [hedits job hjob] at hedit
  cases hedit

/-- The menu goes into the submenu of its item. -/
lemma Inv.descend (hpath : ∀ i ∈ s.history, i.prepares = false)
    (hidle : s.activity = .idle) (hleft : left = true → s.m.prepares = true)
    (hchild : s.m.get.child.isSome) (horder : s.jobs.Pairwise Job.Before)
    (hedits : ∀ job ∈ s.jobs, job.edits = false) : Inv left s.descend := by
  obtain ⟨c, hc⟩ := Option.isSome_iff_exists.mp hchild
  simp only [Menu.descend, hc]
  refine ⟨fun h => calibrating_of_inside (hleft h), fun h => calibrates_child s.m h c hc, hpath,
    ?_, ?_, ?_, ?_⟩
  · intro r hr
    simp only [hidle] at hr
    cases hr
  · intro r state answered hr
    simp only [hidle] at hr
    cases hr
  · refine List.pairwise_cons.mpr ⟨fun b _ => ⟨fun h => ?_, fun h => (by cases h)⟩, horder⟩
    rcases h with h | h
    · cases h
    · cases h
  · exact editor_of_edits (List.forall_mem_cons.mpr ⟨rfl, hedits⟩) c

/-- The menu moves to another item between two callbacks. -/
lemma Inv.move (hinv : Inv left s) (hrun : s.activity.running = none) {m : Item}
    {history : List Item} (hleft : left = true → history.head?.any Item.prepares = true)
    (hleaf : history.head?.any Item.prepares = true → m.calibrates = true)
    (hpath : ∀ i ∈ history.tail, i.prepares = false)
    (heditor : ∀ job ∈ s.jobs, job.edits = true → m.get.editor.isSome) :
    Inv left { s with m, history } := by
  refine ⟨fun h => calibrating_of_inside (hleft h), hleaf, hpath, fun r hr => ?_, hinv.waits,
    hinv.order, heditor⟩
  have hr : s.activity.running = some r := hr
  rw [hrun] at hr
  cases hr

/-- The menu leaves the submenu of an item: if the output is left on, the item prepares, and the
callback after its submenu switches the output off. -/
lemma Inv.parent (hinv : Inv left s) (hrun : s.activity.running = none) {h : Item}
    {history : List Item} (hhistory : s.history = h :: history)
    (hedits : ∀ job ∈ s.jobs, job.edits = false) :
    Inv left (Menu.call { s with m := h, history } .report h.get.pUnselect) := by
  have hpath : ∀ i ∈ history, i.prepares = false := by
    have htail := hinv.path
    rwa [hhistory] at htail
  have hinside : s.inside = h.prepares := by rw [Menu.inside, hhistory]; rfl
  have houtside : history.head?.any Item.prepares = false := by
    cases history with
    | nil => rfl
    | cons i history => exact hpath i List.mem_cons_self
  have hmoved : Inv false { s with m := h, history } :=
    (hinv.setLeft fun h => (by cases h)).move hrun (fun h => (by cases h))
      (fun h => absurd h (Bool.eq_false_iff.mp houtside))
      (fun i hi => hpath i (List.mem_of_mem_tail hi)) (editor_of_edits hedits _)
  cases hprepares : h.prepares with
  | false =>
      cases left with
      | false => exact hmoved.call hrun (harmless_of_plain hprepares (Or.inr rfl))
      | true => exact absurd rfl (hinv.not_left hrun (hinside.trans hprepares))
  | true =>
      obtain ⟨c, hc⟩ := Option.isSome_iff_exists.mp (pUnselect_of_prepares h hprepares)
      have hexit := pUnselect_body h c hc
      rw [if_pos hprepares] at hexit
      subst hexit
      rw [hc]
      refine ⟨fun _ => Bool.or_eq_true_iff.mpr (Or.inr rfl), hmoved.leaf, hmoved.path,
        fun r hr => ?_, fun _ _ _ h => (by cases h), hmoved.order, hmoved.editor⟩
      rw [← Option.some.inj hr]
      exact ⟨.exit rfl, fun hpurpose => (by cases hpurpose)⟩

/-- The jobs of an editor come before those of a turn that do not move. -/
lemma pairwise_editor (e : Editor) {jobs : List Job} (horder : jobs.Pairwise Job.Before)
    (hmoves : ∀ job ∈ jobs, job.moves = false) : (e.jobs ++ jobs).Pairwise Job.Before := by
  have hedits : ∀ a ∈ e.jobs, a.moves = false := by
    cases e <;> decide
  refine List.pairwise_append.mpr ⟨?_, horder, fun a ha b hb => ⟨fun _ => hmoves b hb, ?_⟩⟩
  · exact List.pairwise_of_forall_mem_list fun a ha b hb =>
      ⟨fun _ => hedits b hb, fun h => absurd h (Bool.eq_false_iff.mp (hedits a ha))⟩
  · intro h
    rw [hedits a ha] at h
    cases h

/-- The jobs of a move to a neighbour come before those of a turn but an editor's. -/
lemma pairwise_move {job : Job} (hjob : job = .toPrevious ∨ job = .toNext) {jobs : List Job}
    (horder : jobs.Pairwise Job.Before) (hedits : ∀ b ∈ jobs, b.edits = false) :
    (.callUnselect :: job :: .callSelect :: jobs).Pairwise Job.Before := by
  have hplain : ∀ a : Job, a.edits = false → a ≠ .child → ∀ b, b.edits = false → a.Before b := by
    intro a ha hchild b hb
    refine ⟨fun h => ?_, fun _ => hb⟩
    rcases h with hedit | hsame
    · rw [ha] at hedit
      cases hedit
    · exact absurd hsame hchild
  have hselect : ∀ b ∈ Job.callSelect :: jobs, b.edits = false :=
    List.forall_mem_cons.mpr ⟨rfl, hedits⟩
  have hmove : job.edits = false ∧ job ≠ .child := by
    rcases hjob with rfl | rfl
    · decide
    · decide
  refine List.pairwise_cons.mpr ⟨fun b hb => ?_, List.pairwise_cons.mpr ⟨fun b hb => ?_,
    List.pairwise_cons.mpr ⟨fun b hb => ?_, horder⟩⟩⟩
  · have hall : ∀ b ∈ job :: .callSelect :: jobs, b.edits = false :=
      List.forall_mem_cons.mpr ⟨hmove.1, hselect⟩
    exact hplain _ rfl (by decide) b (hall b hb)
  · exact hplain _ hmove.1 hmove.2 b (hselect b hb)
  · exact hplain _ rfl (by decide) b (hedits b hb)

/-- The jobs of a move to a neighbour are those of no editor. -/
lemma edits_move {job : Job} (hjob : job = .toPrevious ∨ job = .toNext) {jobs : List Job}
    (hedits : ∀ b ∈ jobs, b.edits = false) :
    ∀ b ∈ Job.callUnselect :: job :: .callSelect :: jobs, b.edits = false := by
  have hmove : job.edits = false := by
    rcases hjob with rfl | rfl
    · rfl
    · rfl
  exact List.forall_mem_cons.mpr ⟨rfl, List.forall_mem_cons.mpr ⟨hmove,
    List.forall_mem_cons.mpr ⟨rfl, hedits⟩⟩⟩

/-- The submenu or the editor of the item is opened. -/
lemma Inv.child (hinv : Inv left s) (hidle : s.activity = .idle)
    (hmoves : ∀ job ∈ s.jobs, job.moves = false) (hedits : ∀ job ∈ s.jobs, job.edits = false) :
    Inv left (s.job .child) := by
  have hrun : s.activity.running = none := by rw [hidle]; rfl
  simp only [Menu.job]
  split
  · next e he =>
      refine hinv.setJobs hrun (pairwise_editor e hinv.order hmoves) fun _ _ _ => ?_
      rw [he]
      rfl
  · split_ifs with hchild
    · have houtside := hinv.outside_of_child hchild
      split
      · next c hc =>
          have hbody := pSelect_body s.m c hc
          refine ⟨fun h => absurd h (hinv.not_left hrun houtside), hinv.leaf, hinv.path,
            fun r hr => ⟨?_, fun _ => ⟨hchild, hedits⟩⟩, fun _ _ _ h => (by cases h), hinv.order,
            hinv.editor⟩
          rw [← Option.some.inj hr]
          split_ifs at hbody with hprepares
          · exact .prepare rfl hprepares rfl hbody
          · exact .harmless hbody
      · exact Inv.descend (hinv.path_of_outside houtside) hidle
          (fun h => absurd h (hinv.not_left hrun houtside)) hchild hinv.order hedits
    · exact hinv

/-- An editor is opened. -/
lemma Inv.push (hinv : Inv left s) (hrun : s.activity.running = none)
    (heditor : s.m.get.editor.isSome) : Inv left { s with history := s.m :: s.history } := by
  have houtside := hinv.outside_of_editor heditor
  have hplain := prepares_of_editor heditor
  exact hinv.move hrun (fun h => absurd h (hinv.not_left hrun houtside))
    (fun h => absurd h (Bool.eq_false_iff.mp hplain)) (hinv.path_of_outside houtside) hinv.editor

/-- An editor is left. -/
lemma Inv.pop (hinv : Inv left s) (hrun : s.activity.running = none)
    (heditor : s.m.get.editor.isSome) : Inv left { s with history := s.history.tail } := by
  have houtside := hinv.outside_of_editor heditor
  refine hinv.move hrun (fun h => absurd h (hinv.not_left hrun houtside)) (fun h => ?_)
    (fun i hi => hinv.path i (List.mem_of_mem_tail hi)) hinv.editor
  obtain ⟨i, hi, hprepares⟩ := (Option.any_eq_true _ _).mp h
  rw [hinv.path i (List.mem_of_head? hi)] at hprepares
  cases hprepares

/-- A job keeps the invariant. -/
theorem Inv.job (hinv : Inv left s) (hidle : s.activity = .idle) {job : Job}
    (hbefore : ∀ b ∈ s.jobs, Job.Before job b)
    (hedit : job.edits = true → s.m.get.editor.isSome) : Inv left (s.job job) := by
  have hrun : s.activity.running = none := by rw [hidle]; rfl
  have hedits : job.moves = true → ∀ b ∈ s.jobs, b.edits = false :=
    fun hmoves b hb => (hbefore b hb).2 hmoves
  cases job with
  | previous =>
      simp only [Menu.job]
      split_ifs
      · exact hinv.setJobs hrun (pairwise_move (Or.inl rfl) hinv.order (hedits rfl))
          (editor_of_edits (edits_move (Or.inl rfl) (hedits rfl)) _)
      · exact hinv
  | next =>
      simp only [Menu.job]
      split_ifs
      · exact hinv.setJobs hrun (pairwise_move (Or.inr rfl) hinv.order (hedits rfl))
          (editor_of_edits (edits_move (Or.inr rfl) (hedits rfl)) _)
      · exact hinv
  | parent =>
      simp only [Menu.job]
      split
      · next h history hhistory => exact hinv.parent hrun hhistory (hedits rfl)
      · exact ⟨fun h => calibrating_of_inside (hinv.inside_of_left hrun h), hinv.leaf, hinv.path,
          fun _ h => (by cases h), fun _ _ _ h => (by cases h), List.Pairwise.nil,
          fun _ h => absurd h List.not_mem_nil⟩
  | child => exact hinv.child hidle (fun b hb => (hbefore b hb).1 (Or.inr rfl)) (hedits rfl)
  | toPrevious =>
      exact hinv.move hrun (hinv.inside_of_left hrun)
        (fun h => calibrates_previous s.m (hinv.leaf h)) hinv.path
        (editor_of_edits (hedits rfl) _)
  | toNext =>
      exact hinv.move hrun (hinv.inside_of_left hrun)
        (fun h => calibrates_next s.m (hinv.leaf h)) hinv.path
        (editor_of_edits (hedits rfl) _)
  | callUnselect => exact hinv.selection hrun (Or.inr rfl)
  | callSelect => exact hinv.selection hrun (Or.inl rfl)
  | callEnter =>
      exact hinv.call hrun (harmless_of_plain (prepares_of_editor (hedit rfl)) (Or.inl rfl))
  | callExit =>
      exact hinv.call hrun (harmless_of_plain (prepares_of_editor (hedit rfl)) (Or.inr rfl))
  | pushHistory => exact hinv.push hrun (hedit rfl)
  | popHistory => exact hinv.pop hrun (hedit rfl)
  | encoder change step =>
      simp only [Menu.job]
      split_ifs
      · exact hinv.call hrun (pChange_body s.m)
      · exact hinv
  | callPeriodic => exact hinv.call hrun (pPeriod_body s.m)
  | editor => exact hinv
  | draw => exact hinv

/-- What calibrating is with a callback in progress. -/
lemma calibrating_iff {r : Running} (hr : s.activity.running = some r) :
    s.calibrating = true ↔ s.inside = true ∨
      (r.purpose = .enter ∧ s.m.prepares = true ∧ r.result = true) ∨
        r.rest = Callback.calibrExit.body := by
  simp only [Menu.calibrating, Menu.preparing, Menu.exiting, hr, Option.any_some,
    Bool.or_eq_true, decide_eq_true_eq, or_assoc]

/-- The return of a callback keeps the invariant. -/
lemma Inv.finish (hinv : Inv left s) {r : Running} (hr : s.activity = .callback r)
    (hrest : r.rest = []) : Inv left (s.finish r) := by
  have hrun : s.activity.running = some r := by rw [hr]; rfl
  have hleft : left = true →
      s.inside = true ∨ (r.purpose = .enter ∧ s.m.prepares = true ∧ r.result = true) := by
    intro h
    rcases (calibrating_iff hrun).mp (hinv.left h) with hinside | hpreparing | hexit
    · exact Or.inl hinside
    · exact Or.inr hpreparing
    · rw [hrest] at hexit
      cases hexit
  unfold Menu.finish
  split_ifs with hresult
  · split
    · next hpurpose =>
        refine hinv.setActivity (fun h => ?_) rfl
        rcases hleft h with hinside | ⟨henter, -⟩
        · exact hinside
        · rw [hpurpose] at henter
          cases henter
    · next hpurpose =>
        obtain ⟨hchild, hedits⟩ := (hinv.callback r hrun).enter hpurpose
        have houtside := hinv.outside_of_child hchild
        refine Inv.descend (hinv.path_of_outside houtside) rfl (fun h => ?_) hchild hinv.order
          hedits
        rcases hleft h with hinside | ⟨-, hprepares, -⟩
        · rw [houtside] at hinside
          cases hinside
        · exact hprepares
  · refine hinv.setActivity (fun h => ?_) rfl
    rcases hleft h with hinside | ⟨-, -, htrue⟩
    · exact hinside
    · exact absurd htrue hresult

/-- A step of the menu keeps the invariant. -/
lemma Inv.menuStep {t : Menu} (hinv : Inv left s) (h : menuStep s = some t) : Inv left t := by
  unfold Window.menuStep at h
  split at h
  · next hidle =>
      have hrun : s.activity.running = none := by rw [hidle]; rfl
      split at h
      · cases h
      · cases h
      · next job jobs _ hjobs =>
          obtain rfl := Option.some.inj h
          have horder := hinv.order
          have heditor := hinv.editor
          rw [hjobs] at horder heditor
          obtain ⟨hbefore, htail⟩ := List.pairwise_cons.mp horder
          exact (hinv.setJobs hrun htail fun b hb => heditor b (List.mem_cons_of_mem _ hb)).job
            hidle hbefore (heditor job List.mem_cons_self)
  · next r hr =>
      split at h
      · next hrest =>
          obtain rfl := Option.some.inj h
          exact hinv.finish hr hrest
      · cases h
  · cases h
  · cases h
  · cases h

/-- A key in a message or an editor keeps the invariant. -/
lemma Inv.keyStep {t : Menu} (hinv : Inv left s) (h : keyStep s = some t) : Inv left t := by
  unfold Window.keyStep at h
  split at h
  · next hmessage =>
      obtain rfl := Option.some.inj h
      exact hinv.setActivity (hinv.inside_of_left (by rw [hmessage]; rfl)) rfl
  · next hidle =>
      split at h
      · next jobs hjobs =>
          obtain rfl := Option.some.inj h
          have horder := hinv.order
          have heditor := hinv.editor
          rw [hjobs] at horder heditor
          exact hinv.setJobs (by rw [hidle]; rfl) (List.pairwise_cons.mp horder).2
            fun b hb => heditor b (List.mem_cons_of_mem _ hb)
      · cases h
  · cases h

/-! ### The calls -/

/-- What is left of a callback after a call was left before it. -/
lemma rest_returned {r : Running} {result : Bool} {p : RegCall × Use}
    (hp : p ∈ (r.returned result).rest) : p ∈ r.rest := by
  unfold Running.returned at hp
  split at hp
  · exact hp
  · next hrest =>
      rw [hrest]
      exact List.mem_cons_of_mem _ hp
  · next hrest =>
      rw [hrest]
      exact List.mem_cons_of_mem _ hp
  · next hrest =>
      split_ifs at hp
      · rw [hrest]
        exact List.mem_cons_of_mem _ hp
      · cases hp

/-- A callback is called for the same purpose after a call. -/
lemma purpose_returned (r : Running) (result : Bool) :
    (r.returned result).purpose = r.purpose := by
  unfold Running.returned
  split
  · rfl
  · rfl
  · rfl
  · split_ifs <;> rfl

/-- A callback goes on succeeding when its call does or is ignored. -/
lemma result_returned {r : Running} {c : RegCall} {use : Use} {rest : List (RegCall × Use)}
    (hrest : r.rest = (c, use) :: rest) {result : Bool} (hresult : use ≠ .ignored → result = true) :
    (r.returned result).result = r.result := by
  unfold Running.returned
  rw [hrest]
  cases use with
  | ignored => rfl
  | collected =>
      obtain rfl := hresult (by decide)
      exact Bool.and_true _
  | required =>
      obtain rfl := hresult (by decide)
      rfl

/-- What is left of a callback after a call that is required. -/
lemma returned_required {r : Running} {c : RegCall} {rest : List (RegCall × Use)}
    (hrest : r.rest = (c, .required) :: rest) (result : Bool) :
    (r.returned result).rest = if result = true then rest else [] := by
  unfold Running.returned
  rw [hrest]
  cases result
  · rfl
  · rfl

/-- A callback keeps to its role. -/
lemma Role.returned {m : Item} {r : Running} (hrole : Role m r) (result : Bool) :
    Role m (r.returned result) := by
  cases hrole with
  | harmless hrest => exact .harmless fun p hp => hrest p (rest_returned hp)
  | exit hrest =>
      refine .harmless fun p hp => ?_
      rw [returned_required hrest, ite_self] at hp
      cases hp
  | prepare hpurpose hm hresult hrest =>
      have hpreparation : Preparation (r.returned result).rest :=
        fun p hp => hrest p (rest_returned hp)
      have hsame := (purpose_returned r result).trans hpurpose
      rcases hcalls : r.rest with _ | ⟨⟨c, use⟩, rest⟩
      · have hback : r.returned result = r := by rw [Running.returned, hcalls]
        rw [hback]
        exact .prepare hpurpose hm hresult hrest
      · by_cases hsucceeds : use ≠ .ignored → result = true
        · refine .prepare hsame hm ?_ hpreparation
          rw [result_returned hcalls hsucceeds]
          exact hresult
        · -- the call decides, and fails: there is nothing left to do
          obtain ⟨huse, hfails⟩ := Classical.not_imp.mp hsucceeds
          obtain ⟨-, hcollected, -⟩ := hrest (c, use) (hcalls ▸ List.mem_cons_self)
          cases use with
          | ignored => exact absurd rfl huse
          | collected => exact absurd rfl hcollected
          | required =>
              refine .harmless fun p hp => ?_
              rw [returned_required hcalls, if_neg hfails] at hp
              cases hp

/-- A callback that waits for the output to be switched on prepares. -/
lemma Role.preparing {m : Item} {r : Running} (hrole : Role m r)
    (hwaits : ∃ use rest, r.rest = (.enableSet true, use) :: rest) :
    r.purpose = .enter ∧ m.prepares = true ∧ r.result = true := by
  obtain ⟨use, rest, hrest⟩ := hwaits
  cases hrole with
  | harmless hharmless =>
      exact absurd rfl (hharmless (.enableSet true, use) (hrest ▸ List.mem_cons_self) true)
  | exit hexit =>
      rw [hrest] at hexit
      cases hexit
  | prepare hpurpose hm hresult _ => exact ⟨hpurpose, hm, hresult⟩

/-- A call returns. -/
lemma Inv.returned (hinv : Inv left s) {r : Running} (hr : s.activity.running = some r)
    {c : RegCall} {use : Use} {rest : List (RegCall × Use)} (hrest : r.rest = (c, use) :: rest)
    {result : Bool} (hexit : c = .enableSet false → left = false)
    (hfail : s.preparing = true → use ≠ .ignored → result = false → left = false) :
    Inv left { s with activity := .callback (r.returned result) } := by
  refine ⟨fun h => ?_, hinv.leaf, hinv.path, fun r' hr' => ?_, fun _ _ _ h => (by cases h),
    hinv.order, hinv.editor⟩
  · refine (calibrating_iff (r := r.returned result) rfl).mpr ?_
    rcases (calibrating_iff hr).mp (hinv.left h) with hinside | hpreparing | hexiting
    · exact Or.inl hinside
    · obtain ⟨hpurpose, hprepares, hresult⟩ := hpreparing
      refine Or.inr (Or.inl ⟨(purpose_returned r result).trans hpurpose, hprepares, ?_⟩)
      rw [result_returned hrest ?_]
      · exact hresult
      · intro huse
        by_contra hfails
        have hon : s.preparing = true := by
          rw [Menu.preparing, hr, Option.any_some]
          exact decide_eq_true ⟨hpurpose, hprepares, hresult⟩
        rw [hfail hon huse (Bool.eq_false_iff.mpr hfails)] at h
        cases h
    · rw [hrest] at hexiting
      obtain ⟨hcall, -⟩ := List.cons.inj hexiting
      rw [hexit (Prod.mk.inj hcall).1] at h
      cases h
  · obtain ⟨hrole, henter⟩ := hinv.callback r hr
    rw [← Option.some.inj hr']
    exact ⟨hrole.returned result, fun hpurpose => henter (purpose_returned r result ▸ hpurpose)⟩

end Menu

/-- A call keeps the invariant. -/
lemma Inv.callStep {s t : State} {accepted : Bool} (hinv : Inv s.left s.toMenu)
    (hok : Controlled s (.call accepted)) (h : callStep s accepted = some t) :
    Inv t.left t.toMenu := by
  unfold Window.callStep at h
  split at h
  · next r hr =>
      have hrun : s.activity.running = some r := by rw [hr]; rfl
      have hcontrolled : ∀ c use rest, r.rest = (c, use) :: rest →
          ControlledCall s accepted c use := by
        intro c use rest hrest
        refine hok (c, use) ?_
        simp only [Menu.nextCall, hr, hrest]
        rfl
      split at h
      · cases h
      · next state use rest hrest =>
          obtain ⟨hexit, hfail⟩ := hcontrolled _ _ _ hrest
          split_ifs at h with hcached hsent
          · obtain rfl := Option.some.inj h
            refine hinv.returned hrun hrest (fun hc => hexit hc (Or.inl ?_))
              fun _ _ hfalse => (by cases hfalse)
            rw [← RegCall.enableSet.inj hc]
            exact hcached.symm
          · obtain rfl := Option.some.inj h
            exact hinv.setWaiting hrun ⟨use, rest, hrest⟩
          · obtain rfl := Option.some.inj h
            have hrefused : s.connected = false ∨ accepted = false := by
              rw [← Bool.and_eq_false_iff, ← Bool.not_eq_true, Bool.and_eq_true_iff]
              exact hsent
            refine hinv.returned hrun hrest (fun hc => hexit hc (Or.inr hrefused))
              fun hon huse _ => hfail hon huse ?_
            exact Bool.and_eq_false_iff.mpr hrefused
      · next c use rest hother hrest =>
          obtain rfl := Option.some.inj h
          obtain ⟨hexit, hfail⟩ := hcontrolled _ _ _ hrest
          refine hinv.returned hrun hrest (fun hc => ?_) hfail
          subst hc
          exact (hother _ rfl).elim
  · cases h

/-! ### Runs -/

/-- A call changes nothing of the regulator before it is carried out. -/
lemma toLink_callStep {s t : State} {accepted : Bool} (h : callStep s accepted = some t) :
    t.toLink = s.toLink := by
  unfold callStep at h
  split at h
  · split at h
    · cases h
    · split_ifs at h
      · rw [← Option.some.inj h]
      · rw [← Option.some.inj h]
      · rw [← Option.some.inj h]
    · rw [← Option.some.inj h]
  · cases h

/-- The record is kept by every step: what the menu has left on is on. -/
lemma on_step {s t : State} {e : Event} (hon : s.left = true → s.register ≠ 0)
    (h : step s e = some t) : t.left = true → t.register ≠ 0 := by
  cases e with
  | turn keys step =>
      simp only [Window.step] at h
      split_ifs at h
      rw [← Option.some.inj h]
      exact hon
  | menu | key =>
      obtain ⟨menu, -, rfl⟩ := Option.map_eq_some_iff.mp h
      exact hon
  | call accepted =>
      have hlink := toLink_callStep h
      rw [show t.left = s.left from congrArg Link.left hlink,
        show t.register = s.register from congrArg Link.register hlink]
      exact hon
  | wake =>
      simp only [Window.step] at h
      split at h
      · rw [← Option.some.inj h]
        exact hon
      · cases h
  | serve answered =>
      simp only [Window.step] at h
      split at h
      · rw [← Option.some.inj h]
        intro hstate
        have hstate : _ = true := hstate
        subst hstate
        exact Nat.one_ne_zero
      · cases h
  | late v =>
      simp only [Window.step] at h
      split_ifs at h
      rw [← Option.some.inj h]
      exact of_decide_eq_true
  | refresh | link connected =>
      rw [← Option.some.inj h]
      exact hon
  | change v =>
      rw [← Option.some.inj h]
      exact fun hleft => of_decide_eq_true (Bool.and_eq_true_iff.mp hleft).2

/-- **What the menu has left on is on**, in every run. -/
theorem on_of_left (register enabled : ℕ) (connected : Bool) (es : List Event) (s : State)
    (hrun : Machine.run step (init register enabled connected) es = some s) :
    s.left = true → s.register ≠ 0 :=
  Machine.run_invariant (I := fun s => s.left = true → s.register ≠ 0)
    (fun _ _ _ hI ht => on_step hI ht) (fun h => (by cases h)) hrun

/-- The jobs of a turn are among those with all keys pressed, in their order. -/
lemma turnJobs_sublist (keys : Key → Bool) (step : Bool) :
    (turnJobs keys step).Sublist ([Job.previous] ++ [Job.next] ++ [Job.parent] ++ [Job.child] ++
      [Job.encoder (keys .kUp || keys .kDown || keys .kZero) step, Job.callPeriodic,
        Job.draw]) := by
  have hkey : ∀ (key : Key) (job : Job), (if keys key then [job] else []).Sublist [job] := by
    intro key job
    split_ifs
    · exact List.Sublist.refl [job]
    · exact List.nil_sublist [job]
  unfold turnJobs
  refine List.Sublist.append ?_ (List.Sublist.refl _)
  exact (((hkey _ _).append (hkey _ _)).append (hkey _ _)).append (hkey _ _)

/-- The jobs of a turn. -/
lemma pairwise_turnJobs (keys : Key → Bool) (step : Bool) :
    (turnJobs keys step).Pairwise Job.Before := by
  refine List.Pairwise.sublist (turnJobs_sublist keys step) ?_
  simp [Job.Before, Job.edits, Job.moves]

lemma edits_turnJobs (keys : Key → Bool) (step : Bool) :
    ∀ job ∈ turnJobs keys step, job.edits = false := by
  intro job hjob
  have hmem := (turnJobs_sublist keys step).subset hjob
  simp only [List.cons_append, List.nil_append, List.mem_cons, List.not_mem_nil, or_false] at hmem
  rcases hmem with rfl | rfl | rfl | rfl | rfl | rfl | rfl <;> rfl

/-- A step that meets the condition keeps the invariant. -/
theorem Inv.step {s t : State} {e : Event} (hinv : Inv s.left s.toMenu) (hok : Controlled s e)
    (h : step s e = some t) : Inv t.left t.toMenu := by
  cases e with
  | turn keys step =>
      simp only [Window.step] at h
      split_ifs at h with hidle
      obtain rfl := Option.some.inj h
      exact hinv.setJobs (by rw [hidle.1]; rfl) (pairwise_turnJobs keys step)
        (editor_of_edits (edits_turnJobs keys step) _)
  | menu =>
      obtain ⟨menu, hmenu, rfl⟩ := Option.map_eq_some_iff.mp h
      exact hinv.menuStep hmenu
  | call accepted => exact hinv.callStep hok h
  | key =>
      obtain ⟨menu, hmenu, rfl⟩ := Option.map_eq_some_iff.mp h
      exact hinv.keyStep hmenu
  | wake =>
      simp only [Window.step] at h
      split at h
      · next r state answered hwaiting =>
          obtain rfl := Option.some.inj h
          have hrun : s.activity.running = some r := by rw [hwaiting]; rfl
          obtain ⟨use, rest, hrest⟩ := hinv.waits r state answered hwaiting
          refine hinv.returned hrun hrest (fun hc => hok ?_) fun _ _ hfalse => (by cases hfalse)
          simp only [Menu.waitsFor, hwaiting, RegCall.enableSet.inj hc]
      · cases h
  | serve answered =>
      simp only [Window.step] at h
      split at h
      · next r state hwaiting =>
          obtain rfl := Option.some.inj h
          have hrun : s.activity.running = some r := by rw [hwaiting]; rfl
          have hwaits := hinv.waits r state false hwaiting
          refine (hinv.setWaiting hrun hwaits).setLeft fun hstate => ?_
          refine (calibrating_iff (r := r) rfl).mpr (Or.inr (Or.inl ?_))
          exact (hinv.callback r hrun).role.preparing (hstate ▸ hwaits)
      · cases h
  | late v =>
      simp only [Window.step] at h
      split_ifs at h
      obtain rfl := Option.some.inj h
      exact hinv.setLeft fun hleft => hok (of_decide_eq_true hleft)
  | refresh =>
      obtain rfl := Option.some.inj h
      exact hinv
  | change v =>
      obtain rfl := Option.some.inj h
      exact hinv.setLeft fun hleft => hinv.left (Bool.and_eq_true_iff.mp hleft).1
  | link connected =>
      obtain rfl := Option.some.inj h
      exact hinv

/-- **A calibration leaves the output off as long as its calls succeed.** In every run of the
settings menu over its items, with any keys, any output at the start, any commands refused, lost,
carried out late and carried out unheard, the output switched by others, and the connection lost
and found at any time, whose steps all meet `Controlled`: where the menu shows something outside
the calibration submenus, it has not left the output on. -/
theorem off_of_controlled (register enabled : ℕ) (connected : Bool) (es : List Event) (s : State)
    (hok : Machine.Meets step Controlled (init register enabled connected) es)
    (hrun : Machine.run step (init register enabled connected) es = some s) : Off s := by
  have hinit : Inv false (init register enabled connected).toMenu :=
    ⟨fun h => (by cases h), fun h => (by cases h), fun _ h => absurd h List.not_mem_nil,
      fun _ h => (by cases h), fun _ _ _ h => (by cases h), List.Pairwise.nil,
      fun _ h => absurd h List.not_mem_nil⟩
  have hinv : Inv s.left s.toMenu :=
    Machine.run_induction (I := fun s => Inv s.left s.toMenu)
      (fun _ _ _ hI hs ht => hI.step hs ht) hinit hok hrun
  intro hshows houtside
  exact Bool.eq_false_iff.mpr (hinv.not_left (running_of_shows hshows) houtside)

/-- A turn with a key pressed. -/
def press (key : Key) : Event := .turn (fun k => decide (k = key)) false

/-- From the start to the calibration of the wire, whose submenu is entered. -/
def wireRun : List Event :=
  [press .kOnOff] ++ List.replicate 4 Event.menu ++ [Event.call true, Event.menu, Event.menu] ++
    [press .kNext] ++ List.replicate 7 Event.menu ++
    [press .kOnOff, Event.menu, Event.call true, Event.call true, Event.serve true, Event.wake,
      Event.call true, Event.call true] ++
    List.replicate 4 Event.menu ++ [Event.call true, Event.menu, Event.menu, Event.refresh]

/-- The submenu is left again, and the output switched off. -/
def exitRun : List Event :=
  wireRun ++ [press .kMode, .menu, .call true, .serve true, .wake] ++ List.replicate 3 Event.menu

/-- The output is not left on. -/
theorem off_exitRun : ∃ s, Machine.run step (init 0 0 true) exitRun = some s ∧ Off s := by
  obtain ⟨s, hrun⟩ : ∃ s, Machine.run step (init 0 0 true) exitRun = some s :=
    Option.isSome_iff_exists.mp (by decide +kernel)
  exact ⟨s, hrun, off_of_controlled 0 0 true exitRun s (by decide +kernel) hrun⟩

/-- The connection is lost before the submenu is left; the message is read. -/
def disconnectedRun : List Event :=
  wireRun ++ [.link false, press .kMode, .menu, .call true, .menu, .key, .menu, .menu]

/-- **The output stays on.** The call that switches it off fails, and the menu shows the level
above. -/
theorem not_off_disconnectedRun :
    ¬ ∀ register enabled connected es s,
      Machine.run step (init register enabled connected) es = some s → Off s := by
  intro hall
  have hview : (Machine.run step (init 0 0 true) disconnectedRun).map
      (fun s => (s.shows, s.inside, s.left)) = some (true, false, true) := by
    decide +kernel
  obtain ⟨s, hrun, hs⟩ := Option.map_eq_some_iff.mp hview
  obtain ⟨hshows, hrest⟩ := Prod.mk.inj hs
  obtain ⟨houtside, hleft⟩ := Prod.mk.inj hrest
  rw [hall 0 0 true disconnectedRun s hrun hshows houtside] at hleft
  cases hleft

end PanelFirmware.Window
