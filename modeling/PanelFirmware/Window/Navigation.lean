import PanelFirmware.Lib.Brackets
import PanelFirmware.Lib.Machine
import PanelFirmware.Window.Calibration

/-!
# `window/src/menuSystem.cpp`: moving through the settings menu

The machine is `run` with the item its drawing starts at, with callbacks that return anything, and
with a log of the levels: an item's level is entered when the item is put on the path and left when
it is taken off, and its exit is the call of its `pUnselect`.

* `Sound`: the path is the levels entered and not yet left, it is linked by submenus, the current
  item is in the list that is drawn, and the log is bracketed.
* `navigation_sound`: in every reachable state.
* `exists_navigation`: the menu that waits for the regulator moves in this way.
-/

namespace PanelFirmware.Window.Navigation

open PanelFirmware.Lib

/-! ### The code -/

/-- The loop that goes back to the first item of a list, with the number of its turns bounded.
Source: `menuSystem.cpp` `run`. -/
def rewind : ℕ → Item → Item
  | 0, m => m
  | n + 1, m =>
      match m.get.previous with
      | some p => rewind n p
      | none => m

/-- The first item of a list; no list has more items than the bound.
Source: `menuSystem.cpp` `run`, `top`. -/
def first (m : Item) : Item := rewind 16 m

/-- The item has a callback for when its level is left. -/
def HasExit (i : Item) : Prop := i.get.pUnselect.isSome = true

instance (i : Item) : Decidable (HasExit i) := inferInstanceAs (Decidable (_ = true))

/-- The call of `pUnselect`, if there is one. -/
def exitOf (i : Item) : List (Crossing Item) := if HasExit i then [.exit i] else []

/-- The menu, the item its drawing starts at, and the log of the levels, the last first.
Source: `menuSystem.cpp` `run`, `m`, `history`, `historyIndex`, `top`. -/
structure State extends Menu where
  top : Item
  log : List (Crossing Item)
  deriving DecidableEq

/-- Source: `menuSystem.cpp` `run`, the branch of `m->child`. -/
def State.descend (s : State) : State :=
  match s.m.get.child with
  | some c => { s with toMenu := s.toMenu.descend, top := c, log := .enter s.m :: s.log }
  | none => s

/-- A job that has been taken from its list. Source: `menuSystem.cpp` `run`. -/
def State.job (s : State) (job : Job) : State :=
  let t := { s with toMenu := s.toMenu.job job }
  match job with
  | .parent =>
      match s.history with
      | h :: _ => { t with top := first h, log := exitOf h ++ .leave h :: s.log }
      | [] => t
  | .child => if s.m.get.editor = none ∧ s.m.get.pSelect = none then s.descend else t
  | .pushHistory => { t with log := .enter s.m :: s.log }
  | .popHistory =>
      match s.history with
      | h :: _ => { t with log := .leave h :: s.log }
      | [] => t
  | .callExit => { t with log := exitOf s.m ++ s.log }
  | .callUnselect =>
      if s.m.get.prm ∧ s.m.get.editor = none then { t with log := exitOf s.m ++ s.log } else t
  | _ => t

/-- The callback in progress returns. Source: `menuSystem.cpp` `callEnter`, `callExit`, `run`. -/
def State.finish (s : State) (r : Running) (result : Bool) : State :=
  match r.purpose, result with
  | .report, true => { s with activity := .idle }
  | .report, false => { s with activity := .message }
  | .enter, true => State.descend { s with activity := .idle }
  | .enter, false => { s with activity := .message, log := .refuse s.m :: s.log }

/-- What can happen next: a turn of the loop, with what its tests of the keys find (a message in
between scans them again) and whether the encoder has been turned; the next job; the return of the
callback in progress; a key that ends a message or an editor. -/
inductive Event
  | turn (keys : Key → Bool) (step : Bool)
  | job
  | result (result : Bool)
  | key

/-- A step of the menu. Source: `menuSystem.cpp` `run`. -/
def step (s : State) : Event → Option State
  | .turn keys step =>
      if s.activity = .idle ∧ s.jobs = [] then some { s with jobs := turnJobs keys step } else none
  | .job =>
      match s.activity with
      | .idle =>
          match s.jobs with
          | [] => none
          | .editor :: _ => none
          | job :: jobs => some (State.job { s with jobs } job)
      | _ => none
  | .result result => s.activity.running.map fun r => s.finish r result
  | .key => (keyStep s.toMenu).map fun menu => { s with toMenu := menu }

/-- The start of the menu. Source: `menuSystem.cpp` `run`; `settingTSK.cpp` `settingTSK`. -/
def init : State := ⟨⟨.m1, [], [], .idle⟩, .m1, []⟩

/-- A callback of an item is in progress after its call. -/
lemma activity_call (s : Menu) {i : Item} (h : HasExit i) :
    ∃ c ∈ i.get.pUnselect, (s.call .report i.get.pUnselect).activity =
      .callback ⟨.report, c.body, true⟩ := by
  obtain ⟨c, hc⟩ := Option.isSome_iff_exists.mp h
  refine ⟨c, hc, ?_⟩
  rw [hc]
  rfl

/-- The call that is recorded is of the item it is recorded for. -/
lemma eq_of_mem_exitOf {i j : Item} (h : .exit i ∈ exitOf j) : i = j ∧ HasExit j := by
  unfold exitOf at h
  split_ifs at h with hexit
  · exact ⟨Crossing.exit.inj (List.mem_singleton.mp h), hexit⟩
  · cases h

/-- **What a job records as the call of an item's `pUnselect` is one.** -/
theorem called_of_exit {s : State} {job : Job} {entries : List (Crossing Item)}
    (hlog : (s.job job).log = entries ++ s.log) {i : Item} (hi : .exit i ∈ entries) :
    ∃ c ∈ i.get.pUnselect, (s.job job).activity = .callback ⟨.report, c.body, true⟩ := by
  have hentries : ∀ {l}, (s.job job).log = l ++ s.log → .exit i ∈ l := fun h =>
    List.append_cancel_right (hlog.symm.trans h) ▸ hi
  have hnot : ∀ {l}, (s.job job).log = l ++ s.log → .exit i ∉ l → False := fun h hl =>
    hl (hentries h)
  have hnone : (s.job job).log = s.log → False := fun h => hnot (l := []) h List.not_mem_nil
  cases job with
  | parent =>
      cases hhistory : s.history with
      | nil => exact (hnone (by simp only [State.job, hhistory])).elim
      | cons h hs =>
          have hmem := hentries (l := exitOf h ++ [.leave h]) (by simp [State.job, hhistory])
          rcases List.mem_append.mp hmem with hmem | hleave
          · obtain ⟨rfl, hexit⟩ := eq_of_mem_exitOf hmem
            simp only [State.job, Menu.job, hhistory]
            exact activity_call _ hexit
          · cases List.mem_singleton.mp hleave
  | callExit =>
      obtain ⟨rfl, hexit⟩ := eq_of_mem_exitOf (hentries rfl)
      exact activity_call s.toMenu hexit
  | callUnselect =>
      by_cases hprm : s.m.get.prm ∧ s.m.get.editor = none
      · have hmem := hentries (l := exitOf s.m) (by simp only [State.job, if_pos hprm])
        obtain ⟨rfl, hexit⟩ := eq_of_mem_exitOf hmem
        simp only [State.job, Menu.job, Menu.selection, if_pos hprm]
        exact activity_call s.toMenu hexit
      · exact (hnone (by simp only [State.job, if_neg hprm])).elim
  | child =>
      by_cases hplain : s.m.get.editor = none ∧ s.m.get.pSelect = none
      · cases hchild : s.m.get.child with
        | none =>
            exact (hnone (by simp only [State.job, if_pos hplain, State.descend, hchild])).elim
        | some c =>
            refine (hnot (l := [.enter s.m]) ?_ (by simp)).elim
            simp only [State.job, if_pos hplain, State.descend, hchild, List.singleton_append]
      · exact (hnone (by simp only [State.job, if_neg hplain])).elim
  | pushHistory => exact (hnot (l := [.enter s.m]) rfl (by simp)).elim
  | popHistory =>
      cases hhistory : s.history with
      | nil => exact (hnone (by simp only [State.job, hhistory])).elim
      | cons h hs =>
          exact (hnot (l := [.leave h]) (by simp [State.job, hhistory]) (by simp)).elim
  | _ => exact (hnone rfl).elim

/-! ### The items -/

/-- The next item of a list. -/
def Next (a b : Item) : Prop := a.get.next = some b

/-- The item is in the list that starts at `top`. -/
def InList (top m : Item) : Prop := Relation.ReflTransGen Next top m

/-- A list from one of its items on, with the number of items bounded. -/
def listFrom : ℕ → Item → List Item
  | 0, _ => []
  | n + 1, m => m :: (m.get.next.map (listFrom n)).getD []

/-- What is listed is in the list. -/
lemma inList_of_mem {n : ℕ} {top m : Item} (h : m ∈ listFrom n top) : InList top m := by
  induction n generalizing top with
  | zero => cases h
  | succ n ih =>
      rcases List.mem_cons.mp h with rfl | htail
      · exact Relation.ReflTransGen.refl
      · cases hnext : top.get.next with
        | none =>
            rw [hnext] at htail
            cases htail
        | some t =>
            rw [hnext] at htail
            exact (ih htail).head hnext

/-- The loop that goes back has come to its end. -/
lemma previous_first (m : Item) : (first m).get.previous = none := by
  cases m <;> rfl

/-- From the first item of its list every item is reached. -/
lemma inList_first (m : Item) : InList (first m) m := by
  have hmem : m ∈ listFrom 16 (first m) := by cases m <;> decide
  exact inList_of_mem hmem

/-- Neighbours are in one list. -/
lemma first_next (m : Item) : first (m.get.next.getD m) = first m := by
  cases m <;> rfl

lemma first_previous (m : Item) : first (m.get.previous.getD m) = first m := by
  cases m <;> rfl

/-- A submenu starts at the first item of its list. -/
lemma first_child (m : Item) : ∀ c ∈ m.get.child, first c = c := by
  cases m <;> decide

/-- The level of the lists, by their first items. -/
def level (m : Item) : ℕ :=
  match first m with
  | .m1 => 0
  | .m11 | .m20 | .m30 | .m50 => 1
  | .m1330 | .m1430 | .m1530 => 3
  | _ => 2

/-- A submenu is one level below its item. -/
lemma level_child (m : Item) : ∀ c ∈ m.get.child, level c = level m + 1 := by
  cases m <;> decide

lemma level_le (m : Item) : level m ≤ 3 := by
  cases m <;> decide

/-- An item with a callback for the end of its level and with a parameter has an editor. -/
lemma editor_of_hasExit (m : Item) : HasExit m → m.get.prm = true → m.get.editor ≠ none := by
  cases m <;> decide

/-- The editors that call `callExit` themselves have items without a callback. -/
lemma exits_of_hasExit (m : Item) : HasExit m → ∀ e ∈ m.get.editor, e = .clockEditor := by
  cases m <;> decide

/-! ### The path -/

/-- The items of a path, the last first: each one's submenu contains the next. -/
def Linked : List Item → Prop
  | [] => True
  | [i] => InList .m1 i
  | i :: h :: hs => (∃ c ∈ h.get.child, InList c i) ∧ Linked (h :: hs)

/-- The path to the list of an item. -/
def Path : Item → List Item → Prop
  | m, [] => first m = .m1
  | m, h :: hs => h.get.child = some (first m) ∧ Path h hs

/-- The items of the path and the item it leads to are linked. -/
lemma Path.linked {m : Item} {hs : List Item} (h : Path m hs) : Linked (m :: hs) := by
  induction hs generalizing m with
  | nil =>
      have hlist := inList_first m
      rwa [show first m = .m1 from h] at hlist
  | cons i hs ih => exact ⟨⟨first m, h.1, inList_first m⟩, ih h.2⟩

/-- A part of a path is linked. -/
lemma Linked.tail {i : Item} {hs : List Item} (h : Linked (i :: hs)) : Linked hs := by
  cases hs with
  | nil => trivial
  | cons j hs => exact h.2

/-- Paths lead to lists. -/
lemma Path.of_first {m n : Item} {hs : List Item} (hpath : Path m hs) (h : first n = first m) :
    Path n hs := by
  cases hs with
  | nil => exact h.trans hpath
  | cons i hs => exact ⟨by rw [h]; exact hpath.1, hpath.2⟩

/-- The level of an item is that of its list. -/
lemma level_first (m : Item) : level (first m) = level m := by
  cases m <;> rfl

/-- A path is as long as its level is deep. -/
lemma Path.length {m : Item} {hs : List Item} (h : Path m hs) : hs.length = level m := by
  induction hs generalizing m with
  | nil =>
      rw [← level_first, show first m = .m1 from h]
      rfl
  | cons i hs ih =>
      rw [List.length_cons, ih h.2, ← level_first m]
      exact (level_child i (first m) h.1).symm

/-! ### The invariant -/

/-- The end of an editor: its calls of `callExit`, the path, and the rest of the turn. -/
def closing (n : ℕ) (rest : List Job) : List Job :=
  List.replicate n Job.callExit ++ Job.popHistory :: rest

/-- The rest of a turn has no editor in it, and an item with a callback for the end of its level has
it called once. -/
structure Closing (m : Item) (n : ℕ) (rest : List Job) : Prop where
  rest : ∀ job ∈ rest, job.edits = false
  once : HasExit m → n = 1

/-- Where the menu is: at a list, before or in an editor or leaving it, where the callback for the
end of the level has been called or has not. -/
inductive Phase (m : Item) (history : List Item) (jobs : List Job) (log : List (Crossing Item)) :
    Prop
  | browse (hjobs : ∀ job ∈ jobs, job.edits = false) (hpath : Path m history)
      (hlog : Bracketed HasExit log history)
  | called {n : ℕ} {rest : List Job}
      (hjobs : jobs = .callEnter :: .pushHistory :: .editor :: closing n rest)
      (hclosing : Closing m n rest) (hpath : Path m history) (hlog : Bracketed HasExit log history)
  | opened {n : ℕ} {rest : List Job} (hjobs : jobs = .pushHistory :: .editor :: closing n rest)
      (hclosing : Closing m n rest) (hpath : Path m history) (hlog : Bracketed HasExit log history)
  | editing {n : ℕ} {rest : List Job} {hs : List Item} (hjobs : jobs = .editor :: closing n rest)
      (hclosing : Closing m n rest) (hhistory : history = m :: hs) (hpath : Path m hs)
      (hlog : Bracketed HasExit log (m :: hs))
  | closing {n : ℕ} {rest : List Job} {hs : List Item} (hjobs : jobs = closing n rest)
      (hclosing : Closing m n rest) (hhistory : history = m :: hs) (hpath : Path m hs)
      (hlog : Bracketed HasExit log (m :: hs))
  | closed {rest : List Job} {hs : List Item} {log' : List (Crossing Item)}
      (hjobs : jobs = .popHistory :: rest) (hrest : ∀ job ∈ rest, job.edits = false)
      (hexit : HasExit m) (hhistory : history = m :: hs) (hpath : Path m hs)
      (hcalled : log = .exit m :: log') (hlog : Bracketed HasExit log' (m :: hs))

/-- A callback is in progress on whose result it depends whether a submenu is entered. -/
def entering (a : Activity) : Bool := a.running.any fun r => decide (r.purpose = .enter)

/-- The invariant of the menu. -/
structure Inv (s : State) : Prop where
  top : s.top = first s.m
  phase : Phase s.m s.history s.jobs s.log
  enter : entering s.activity = true →
    s.m.get.editor = none ∧ ∀ job ∈ s.jobs, job.edits = false

/-- A callback of another kind is in progress, or none. -/
lemma Inv.setActivity {s : State} (h : Inv s) {a : Activity} (ha : entering a = false) :
    Inv { s with activity := a } := by
  refine ⟨h.top, h.phase, fun henter => ?_⟩
  rw [show entering a = true from henter] at ha
  cases ha

/-- Without an editor in its jobs the menu is at a list. -/
lemma Inv.browse {s : State} (h : Inv s) (hjobs : ∀ job ∈ s.jobs, job.edits = false) :
    Path s.m s.history ∧ Bracketed HasExit s.log s.history := by
  have hpop : ∀ n rest, Job.popHistory ∈ closing n rest := fun n rest =>
    List.mem_append_right _ List.mem_cons_self
  have hedits : Job.popHistory ∉ s.jobs := fun hmem => absurd (hjobs _ hmem) (by decide)
  cases h.phase with
  | browse _ hpath hlog => exact ⟨hpath, hlog⟩
  | called hjobs => exact absurd (by rw [hjobs]; simp [hpop]) hedits
  | opened hjobs => exact absurd (by rw [hjobs]; simp [hpop]) hedits
  | editing hjobs => exact absurd (by rw [hjobs]; simp [hpop]) hedits
  | closing hjobs => exact absurd (by rw [hjobs]; exact hpop _ _) hedits
  | closed hjobs => exact absurd (by rw [hjobs]; exact List.mem_cons_self) hedits

/-- A submenu is entered. -/
lemma Inv.descend {s : State} (h : Inv s) (hjobs : ∀ job ∈ s.jobs, job.edits = false)
    (hactivity : s.activity = .idle) : Inv s.descend := by
  obtain ⟨hpath, hlog⟩ := h.browse hjobs
  unfold State.descend
  cases hchild : s.m.get.child with
  | none => exact h
  | some c =>
      have hfirst : first c = c := first_child s.m c hchild
      have hmenu : s.toMenu.descend = ⟨c, s.m :: s.history, .callSelect :: s.jobs, .idle⟩ := by
        simp only [Menu.descend, hchild, hactivity]
      simp only [hmenu]
      refine ⟨hfirst.symm, .browse ?_ ⟨?_, hpath⟩ (.enter s.m hlog),
        fun henter => (by cases henter)⟩
      · exact List.forall_mem_cons.mpr ⟨rfl, hjobs⟩
      · exact hchild.trans (congrArg some hfirst.symm)

/-- A callback returns. -/
theorem Inv.finish {s : State} (h : Inv s) {r : Running} (hr : s.activity.running = some r)
    (result : Bool) : Inv (s.finish r result) := by
  have henter : r.purpose = .enter → ∀ job ∈ s.jobs, job.edits = false := fun hpurpose =>
    (h.enter (by rw [entering, hr]; exact decide_eq_true hpurpose)).2
  unfold State.finish
  split
  · exact h.setActivity rfl
  · exact h.setActivity rfl
  · next hpurpose => exact (h.setActivity (a := .idle) rfl).descend (henter hpurpose) rfl
  · next hpurpose =>
      obtain ⟨hpath, hlog⟩ := h.browse (henter hpurpose)
      exact ⟨h.top, .browse (henter hpurpose) hpath (.refuse s.m hlog),
        fun hentering => (by cases hentering)⟩

/-! ### Jobs at a list -/

/-- An item without a callback for the end of its level has none called. -/
lemma exitOf_eq_nil {i : Item} (h : ¬ HasExit i) : exitOf i = [] := if_neg h

lemma exitOf_eq {i : Item} (h : HasExit i) : exitOf i = [.exit i] := if_pos h

/-- The menu is at a list, between two jobs. -/
structure Browsing (s : State) : Prop where
  top : s.top = first s.m
  path : Path s.m s.history
  log : Bracketed HasExit s.log s.history
  jobs : ∀ job ∈ s.jobs, job.edits = false
  idle : s.activity = .idle

lemma Browsing.inv {s : State} (h : Browsing s) : Inv s :=
  ⟨h.top, .browse h.jobs h.path h.log, fun henter => by rw [h.idle] at henter; cases henter⟩

/-- A callback is called whose result nothing depends on. -/
lemma Inv.call {s : State} (h : Inv s) (c : Option Callback) :
    Inv { s with toMenu := s.toMenu.call .report c } := by
  cases c with
  | none => exact h
  | some c => exact h.setActivity rfl

lemma Inv.selection {s : State} (h : Inv s) (c : Option Callback) :
    Inv { s with toMenu := s.toMenu.selection c } := by
  unfold Menu.selection
  split_ifs
  · exact h.call c
  · exact h

/-- The menu moves within the list. -/
lemma Browsing.move {s : State} (h : Browsing s) {m : Item} (hm : first m = first s.m) :
    Inv { s with m } :=
  Browsing.inv ⟨h.top.trans hm.symm, h.path.of_first hm, h.log, h.jobs, h.idle⟩

/-- The list is left for the one above it. -/
lemma Browsing.parent {s : State} (h : Browsing s) : Inv (s.job .parent) := by
  have hpath := h.path
  have hlog := h.log
  cases hhistory : s.history with
  | nil =>
      rw [hhistory] at hpath hlog
      simp only [State.job, Menu.job, hhistory]
      exact ⟨h.top, .browse (fun _ hb => absurd hb List.not_mem_nil) hpath hlog,
        fun henter => (by cases henter)⟩
  | cons i hs =>
      rw [hhistory] at hpath hlog
      simp only [State.job, Menu.job, hhistory]
      have hleft : Inv { s with
          m := i, history := hs, top := first i, log := exitOf i ++ .leave i :: s.log } := by
        refine ⟨rfl, .browse h.jobs hpath.2 ?_, fun henter => ?_⟩
        · by_cases hexit : HasExit i
          · rw [exitOf_eq hexit]
            exact .leaveExit hexit hlog
          · rw [exitOf_eq_nil hexit]
            exact .leave hexit hlog
        · rw [h.idle] at henter
          cases henter
      exact hleft.call i.get.pUnselect

/-- The editor or the submenu of the item is opened. -/
lemma Browsing.child {s : State} (h : Browsing s) : Inv (s.job .child) := by
  simp only [State.job]
  cases heditor : s.m.get.editor with
  | some e =>
      rw [if_neg (by simp)]
      have hclosing : ∃ n, e.jobs ++ s.jobs =
          .callEnter :: .pushHistory :: .editor :: closing n s.jobs ∧ Closing s.m n s.jobs := by
        have honce : HasExit s.m → e = .clockEditor := fun hexit =>
          exits_of_hasExit s.m hexit e heditor
        cases e with
        | clockEditor => exact ⟨1, rfl, h.jobs, fun _ => rfl⟩
        | ipAddressEditor => exact ⟨2, rfl, h.jobs, fun hexit => by cases honce hexit⟩
        | ipMacEditor => exact ⟨2, rfl, h.jobs, fun hexit => by cases honce hexit⟩
      obtain ⟨n, hjobs, hclosing⟩ := hclosing
      simp only [Menu.job, heditor]
      refine ⟨h.top, .called hjobs hclosing h.path h.log, fun henter => ?_⟩
      rw [h.idle] at henter
      cases henter
  | none =>
      cases hselect : s.m.get.pSelect with
      | none =>
          rw [if_pos ⟨rfl, rfl⟩]
          exact h.inv.descend h.jobs h.idle
      | some c =>
          rw [if_neg (by simp)]
          simp only [Menu.job, heditor, hselect]
          split_ifs
          · exact ⟨h.top, .browse h.jobs h.path h.log, fun _ => ⟨heditor, h.jobs⟩⟩
          · exact h.inv

/-- A job at a list. -/
lemma Browsing.job {s : State} (h : Browsing s) {job : Job} (hjob : job.edits = false) :
    Inv (s.job job) := by
  have hjobs : ∀ {job : Job}, job = .toPrevious ∨ job = .toNext →
      Inv { s with jobs := .callUnselect :: job :: .callSelect :: s.jobs } := fun hmove =>
    Browsing.inv ⟨h.top, h.path, h.log, edits_move hmove h.jobs, h.idle⟩
  cases job with
  | previous =>
      simp only [State.job, Menu.job]
      split_ifs
      · exact hjobs (Or.inl rfl)
      · exact h.inv
  | next =>
      simp only [State.job, Menu.job]
      split_ifs
      · exact hjobs (Or.inr rfl)
      · exact h.inv
  | parent => exact h.parent
  | child => exact h.child
  | toPrevious => exact h.move (first_previous s.m)
  | toNext => exact h.move (first_next s.m)
  | callUnselect =>
      simp only [State.job]
      split_ifs with hprm
      · have hexit : ¬ HasExit s.m := fun hexit => editor_of_hasExit s.m hexit hprm.1 hprm.2
        rw [exitOf_eq_nil hexit]
        exact h.inv.selection s.m.get.pUnselect
      · exact h.inv.selection s.m.get.pUnselect
  | callSelect => exact h.inv.selection s.m.get.pSelect
  | encoder change step =>
      simp only [State.job, Menu.job]
      split_ifs
      · exact h.inv.call s.m.get.pChange
      · exact h.inv
  | callPeriodic => exact h.inv.call s.m.get.pPeriod
  | draw => exact h.inv
  | callEnter | callExit | pushHistory | editor | popHistory => cases hjob

/-! ### Jobs of an editor -/

/-- With no callback in progress only the place of the menu is to be known. -/
lemma inv_of_phase {s : State} (htop : s.top = first s.m)
    (hphase : Phase s.m s.history s.jobs s.log) (hidle : s.activity = .idle) : Inv s :=
  ⟨htop, hphase, fun henter => by rw [hidle] at henter; cases henter⟩

/-- `callExit` at the end of an editor. -/
lemma inv_callExit {s : State} {n : ℕ} {rest : List Job} {hs : List Item} (htop : s.top = first s.m)
    (hidle : s.activity = .idle) (hjobs : s.jobs = closing n rest)
    (hclosing : Closing s.m (n + 1) rest) (hhistory : s.history = s.m :: hs) (hpath : Path s.m hs)
    (hlog : Bracketed HasExit s.log (s.m :: hs)) : Inv (s.job .callExit) := by
  have hcalled : Inv { s with log := exitOf s.m ++ s.log } := by
    refine inv_of_phase htop ?_ hidle
    by_cases hexit : HasExit s.m
    · have hn : n = 0 := Nat.succ.inj (hclosing.once hexit)
      rw [exitOf_eq hexit]
      exact .closed (by rw [hjobs, hn]; rfl) hclosing.rest hexit hhistory hpath rfl hlog
    · rw [exitOf_eq_nil hexit]
      exact .closing hjobs ⟨hclosing.rest, fun h => absurd h hexit⟩ hhistory hpath hlog
  exact hcalled.call s.m.get.pUnselect

/-- The level of an editor is left. -/
lemma inv_popHistory {s : State} {hs : List Item} (htop : s.top = first s.m)
    (hidle : s.activity = .idle) (hjobs : ∀ job ∈ s.jobs, job.edits = false)
    (hhistory : s.history = s.m :: hs) (hpath : Path s.m hs)
    (hlog : Bracketed HasExit (.leave s.m :: s.log) hs) : Inv (s.job .popHistory) := by
  simp only [State.job, Menu.job, hhistory]
  exact inv_of_phase htop (.browse hjobs hpath hlog) hidle

/-- **A job keeps the invariant.** -/
theorem inv_job {s : State} {job : Job} (htop : s.top = first s.m)
    (hphase : Phase s.m s.history (job :: s.jobs) s.log) (hidle : s.activity = .idle)
    (heditor : job ≠ .editor) : Inv (s.job job) := by
  cases hphase with
  | browse hjobs hpath hlog =>
      obtain ⟨hjob, hrest⟩ := List.forall_mem_cons.mp hjobs
      exact Browsing.job ⟨htop, hpath, hlog, hrest, hidle⟩ hjob
  | called hjobs hclosing hpath hlog =>
      obtain ⟨rfl, hrest⟩ := List.cons.inj hjobs
      exact (inv_of_phase htop (.opened hrest hclosing hpath hlog) hidle).call s.m.get.pSelect
  | opened hjobs hclosing hpath hlog =>
      obtain ⟨rfl, hrest⟩ := List.cons.inj hjobs
      exact inv_of_phase htop (.editing hrest hclosing rfl hpath (.enter s.m hlog)) hidle
  | editing hjobs => exact absurd (List.cons.inj hjobs).1 heditor
  | @closing n rest hs hjobs hclosing hhistory hpath hlog =>
      cases n with
      | zero =>
          obtain ⟨rfl, hrest⟩ := List.cons.inj hjobs
          have hexit : ¬ HasExit s.m := fun hexit => absurd (hclosing.once hexit) (by decide)
          exact inv_popHistory htop hidle (hrest ▸ hclosing.rest) hhistory hpath (.leave hexit hlog)
      | succ n =>
          obtain ⟨rfl, hrest⟩ := List.cons.inj hjobs
          exact inv_callExit htop hidle hrest hclosing hhistory hpath hlog
  | closed hjobs hrest hexit hhistory hpath hcalled hlog =>
      obtain ⟨rfl, htail⟩ := List.cons.inj hjobs
      refine inv_popHistory htop hidle (htail ▸ hrest) hhistory hpath ?_
      rw [hcalled]
      exact .exitLeave hexit hlog

/-- A key ends an editor or a message. -/
lemma Inv.key {s : State} (h : Inv s) {menu : Menu} (hkey : keyStep s.toMenu = some menu) :
    Inv { s with toMenu := menu } := by
  unfold keyStep at hkey
  split at hkey
  · rw [← Option.some.inj hkey]
    exact h.setActivity rfl
  · next hidle =>
      split at hkey
      · next jobs hjobs =>
          rw [← Option.some.inj hkey]
          have hphase := h.phase
          rw [hjobs] at hphase
          cases hphase with
          | browse hedits => exact absurd (hedits _ List.mem_cons_self) (by decide)
          | called hjobs => cases (List.cons.inj hjobs).1
          | opened hjobs => cases (List.cons.inj hjobs).1
          | closed hjobs => cases (List.cons.inj hjobs).1
          | @closing n _ _ hjobs =>
              cases n with
              | zero => cases (List.cons.inj hjobs).1
              | succ n => cases (List.cons.inj hjobs).1
          | editing hjobs hclosing hhistory hpath hlog =>
              rw [hhistory] at *
              exact inv_of_phase h.top
                (.closing (List.cons.inj hjobs).2 hclosing hhistory hpath hlog) hidle
      · cases hkey
  · cases hkey

/-- **A step keeps the invariant.** -/
theorem inv_step {s t : State} {e : Event} (h : Inv s) (hstep : step s e = some t) : Inv t := by
  cases e with
  | turn keys encoder =>
      simp only [step] at hstep
      split_ifs at hstep with hidle
      rw [← Option.some.inj hstep]
      have hnone : ∀ job ∈ s.jobs, job.edits = false := by
        rw [hidle.2]
        exact fun _ hmem => absurd hmem List.not_mem_nil
      obtain ⟨hpath, hlog⟩ := h.browse hnone
      exact inv_of_phase h.top (.browse (edits_turnJobs keys encoder) hpath hlog) hidle.1
  | job =>
      simp only [step] at hstep
      split at hstep
      · next hidle =>
          split at hstep
          · cases hstep
          · cases hstep
          · next job jobs hne hjobs =>
              rw [← Option.some.inj hstep]
              have hphase := h.phase
              rw [hjobs] at hphase
              exact inv_job h.top hphase hidle hne
      · cases hstep
  | result result =>
      obtain ⟨r, hr, ht⟩ := Option.map_eq_some_iff.mp hstep
      rw [← ht]
      exact h.finish hr result
  | key =>
      obtain ⟨menu, hmenu, ht⟩ := Option.map_eq_some_iff.mp hstep
      rw [← ht]
      exact h.key hmenu

/-! ### Main result -/

/-- The stack discipline of the menu. The callback for the end of an editor's level is called just
before the level is left. -/
structure Sound (s : State) : Prop where
  count : s.history.length + s.log.countP Crossing.isLeave = s.log.countP Crossing.isEnter
  linked : Linked s.history
  bound : s.history.length ≤ 6
  listed : InList s.top s.m
  bracketed : Bracketed HasExit s.log s.history ∨
    ∃ log, s.log = .exit s.m :: log ∧ s.history.head? = some s.m ∧
      s.jobs.head? = some .popHistory ∧ Bracketed HasExit log s.history
  once : ∀ i, HasExit i → s.log.count (.exit i) + s.history.count i =
    s.log.count (.enter i) + if s.jobs.head? = some .popHistory ∧ s.m = i then 1 else 0

/-- Where no callback has been called ahead, each has been called once for a level that was left. -/
lemma count_of_bracketed {s : State} (hlog : Bracketed HasExit s.log s.history)
    (hhead : HasExit s.m → s.jobs.head? ≠ some .popHistory) {i : Item} (hi : HasExit i) :
    s.log.count (.exit i) + s.history.count i =
      s.log.count (.enter i) + if s.jobs.head? = some .popHistory ∧ s.m = i then 1 else 0 := by
  have hnot : ¬ (s.jobs.head? = some .popHistory ∧ s.m = i) := fun h =>
    hhead (h.2 ▸ hi) h.1
  rw [if_neg hnot, hlog.count_exit hi, hlog.count_leave, Nat.add_zero]

/-- The invariant contains the discipline. -/
theorem Inv.sound {s : State} (h : Inv s) : Sound s := by
  have hle := level_le s.m
  have hlisted : InList s.top s.m := by
    rw [h.top]
    exact inList_first s.m
  have houtside : Path s.m s.history → Bracketed HasExit s.log s.history →
      s.jobs.head? ≠ some .popHistory → Sound s := fun hpath hlog hhead => by
    have hlength := hpath.length
    exact ⟨hlog.length, hpath.linked.tail, by omega, hlisted, Or.inl hlog,
      fun _ => count_of_bracketed hlog fun _ => hhead⟩
  have hinside : ∀ {hs}, s.history = s.m :: hs → Path s.m hs →
      Linked s.history ∧ s.history.length ≤ 6 := fun hhistory hpath => by
    have hlength := hpath.length
    rw [hhistory, List.length_cons]
    exact ⟨hpath.linked, by omega⟩
  cases h.phase with
  | browse hjobs hpath hlog =>
      refine houtside hpath hlog fun hhead => ?_
      exact absurd (hjobs _ (List.mem_of_head? hhead)) (by decide)
  | called hjobs _ hpath hlog => exact houtside hpath hlog (by rw [hjobs]; simp)
  | opened hjobs _ hpath hlog => exact houtside hpath hlog (by rw [hjobs]; simp)
  | editing hjobs _ hhistory hpath hlog =>
      obtain ⟨hlinked, hbound⟩ := hinside hhistory hpath
      rw [← hhistory] at hlog
      exact ⟨hlog.length, hlinked, hbound, hlisted, Or.inl hlog,
        fun _ => count_of_bracketed hlog fun _ => by rw [hjobs]; simp⟩
  | closing hjobs hclosing hhistory hpath hlog =>
      obtain ⟨hlinked, hbound⟩ := hinside hhistory hpath
      rw [← hhistory] at hlog
      refine ⟨hlog.length, hlinked, hbound, hlisted, Or.inl hlog,
        fun _ => count_of_bracketed hlog fun hexit => ?_⟩
      rw [hjobs, hclosing.once hexit]
      simp [closing]
  | closed hjobs _ _ hhistory hpath hcalled hlog =>
      obtain ⟨hlinked, hbound⟩ := hinside hhistory hpath
      rw [← hhistory] at hlog
      have hhead : s.jobs.head? = some .popHistory := by rw [hjobs]; rfl
      refine ⟨?_, hlinked, hbound, hlisted, Or.inr ⟨_, hcalled, ?_, hhead, hlog⟩, fun i hi => ?_⟩
      · rw [hcalled]
        exact hlog.length
      · rw [hhistory]
        rfl
      · have hexits := hlog.count_exit hi
        have hleaves := hlog.count_leave i
        simp only [hcalled, hhead, true_and, List.count_cons, beq_iff_eq, Crossing.exit.injEq,
          reduceCtorEq, if_false]
        omega

/-- The menu starts in its list. -/
lemma inv_init : Inv init :=
  inv_of_phase rfl (.browse (fun _ hmem => absurd hmem List.not_mem_nil) rfl .nil) rfl

/-- **The stack discipline of the menu** in every state of a run: the path is the levels entered and
not yet left, at most six and linked by submenus; the current item is in the list that is drawn;
levels are left in the order opposite to that in which they were entered, and an item's `pUnselect`
is called once for each time it was entered, when its level is left. An item without an editor whose
`pSelect` fails is not entered. -/
theorem navigation_sound {es : List Event} {s : State} (hrun : Machine.run step init es = some s) :
    Sound s ∧ ∀ r, s.activity.running = some r → r.purpose = .enter →
      s.m.get.editor = none ∧ step s (.result false) =
        some { s with activity := .message, log := .refuse s.m :: s.log } := by
  have hinv : Inv s := Machine.run_invariant (fun _ _ _ h => inv_step h) inv_init hrun
  refine ⟨hinv.sound, fun r hr hpurpose => ⟨(hinv.enter ?_).1, ?_⟩⟩
  · rw [entering, hr]
    exact decide_eq_true hpurpose
  · simp only [step, hr, Option.map_some, State.finish, hpurpose]

/-- The clock of the panel is opened from the top, and its editor left; the callbacks fail. -/
def clockRun : List Event :=
  let press (key : Key) : Event := .turn (fun k => decide (k = key)) false
  [press .kNext, .job, .job, .job, .job, .job, .job, .job, press .kOnOff, .job, .job, .job, .job,
    .job, press .kOnOff, .job, .job, .result false, .key, .job, .key, .job, .result false, .key]

/-- The editor's level is about to be left, and its callback has been called. -/
theorem navigation_sound_clockRun : ∃ s, Machine.run step init clockRun = some s ∧
    s.log = [.exit .m20, .enter .m20, .enter .m2] ∧ Sound s := by
  have hview : (Machine.run step init clockRun).map (fun s => s.log) =
      some [.exit .m20, .enter .m20, .enter .m2] := by decide +kernel
  obtain ⟨s, hs, hlog⟩ := Option.map_eq_some_iff.mp hview
  exact ⟨s, hs, hlog, (navigation_sound hs).1⟩

/-! ### The menu that waits for the regulator -/

/-- What can be seen of a callback from outside: only what its result is for. -/
def hide (a : Activity) : Activity :=
  match a.running with
  | some r => .callback ⟨r.purpose, [], true⟩
  | none => a

/-- The menu seen so. -/
def seen (s : Menu) : Menu := { s with activity := hide s.activity }

/-- Whether a callback is in progress, and for what, is seen. -/
lemma running_hide (a : Activity) :
    (hide a).running = a.running.map fun r => ⟨r.purpose, [], true⟩ := by
  cases a <;> rfl

/-- A callback in progress is seen as its purpose. -/
lemma hide_of_running {a : Activity} {r : Running} (h : a.running = some r) :
    hide a = .callback ⟨r.purpose, [], true⟩ := by
  rw [hide, h]

/-- Outside a callback the whole menu is seen. -/
lemma eq_of_seen {s t : Menu} (h : seen t = seen s) (hs : s.activity.running = none) : t = s := by
  obtain ⟨hm, hhistory, hjobs, hactivity⟩ := Menu.mk.inj h
  have ht : t.activity.running = none := by
    have hrunning := congrArg Activity.running hactivity
    rw [running_hide, running_hide, hs] at hrunning
    exact Option.map_eq_none_iff.mp hrunning
  rw [hide, hide, hs, ht] at hactivity
  cases t
  cases s
  exact Menu.mk.injEq .. ▸ ⟨hm, hhistory, hjobs, hactivity⟩

/-- In a callback one is seen for the same purpose. -/
lemma running_of_seen {s t : Menu} (h : seen t = seen s) {r : Running}
    (hr : s.activity.running = some r) :
    ∃ r', t.activity.running = some r' ∧ r'.purpose = r.purpose := by
  obtain ⟨-, -, -, hactivity⟩ := Menu.mk.inj h
  have hrunning := congrArg Activity.running hactivity
  rw [running_hide, running_hide, hr] at hrunning
  obtain ⟨r', hr', heq⟩ := Option.map_eq_some_iff.mp hrunning
  exact ⟨r', hr', (Running.mk.inj heq).1⟩

/-- The machine moves its menu as the menu moves. -/
lemma toMenu_descend (t : State) : t.descend.toMenu = t.toMenu.descend := by
  unfold State.descend
  cases hchild : t.m.get.child with
  | none => simp only [Menu.descend, hchild]
  | some c => rfl

lemma toMenu_job (t : State) (job : Job) : (t.job job).toMenu = t.toMenu.job job := by
  cases job with
  | parent | popHistory =>
      simp only [State.job]
      cases t.history <;> rfl
  | child =>
      simp only [State.job]
      split_ifs with hplain
      · rw [toMenu_descend]
        simp only [Menu.job, hplain.1, hplain.2]
        split_ifs with hchild
        · rfl
        · rw [Option.not_isSome_iff_eq_none] at hchild
          simp only [Menu.descend, hchild]
      · rfl
  | callUnselect =>
      simp only [State.job]
      split_ifs <;> rfl
  | _ => rfl

lemma toMenu_finish (t : State) (r : Running) (result : Bool) :
    (t.finish r result).toMenu = t.toMenu.finish { r with result } := by
  unfold State.finish Menu.finish
  cases hpurpose : r.purpose with
  | report => cases result <;> rfl
  | enter =>
      cases result with
      | false => rfl
      | true => exact toMenu_descend _

/-- What is seen of the return of a callback. -/
lemma seen_finish {s t : Menu} {r r' : Running} (h : seen t = seen s)
    (hpurpose : r'.purpose = r.purpose) :
    seen (t.finish { r' with result := r.result }) = seen (s.finish r) := by
  obtain ⟨hm, hhistory, hjobs, -⟩ := Menu.mk.inj h
  have hset : ∀ a, ({ t with activity := a } : Menu) = { s with activity := a } := fun a => by
    rw [hm, hhistory, hjobs]
  unfold Menu.finish
  rw [hpurpose, hset, hset]

/-- The machine takes no step, or one, to what is seen of the menu. -/
def Follows (t : State) (s : Menu) : Prop :=
  seen t.toMenu = seen s ∨ ∃ e t', step t e = some t' ∧ seen t'.toMenu = seen s

/-- The menu takes its next step. -/
lemma follows_menuStep {s s' : Menu} {t : State} (h : seen t.toMenu = seen s)
    (hstep : menuStep s = some s') : Follows t s' := by
  unfold menuStep at hstep
  split at hstep
  · next hidle =>
      have ht : t.toMenu = s := eq_of_seen h (by rw [hidle]; rfl)
      split at hstep
      · cases hstep
      · cases hstep
      · next job jobs hne hjobs =>
          rw [← Option.some.inj hstep, ← ht]
          refine Or.inr ⟨.job, State.job { t with jobs } job, ?_, ?_⟩
          · rw [← ht] at hidle hjobs
            simp only [step, hidle, hjobs]
          · rw [toMenu_job]
  · next r hr =>
      split at hstep
      · rw [← Option.some.inj hstep]
        obtain ⟨r', hr', hpurpose⟩ := running_of_seen h (r := r) (by rw [hr]; rfl)
        refine Or.inr ⟨.result r.result, t.finish r' r.result, ?_, ?_⟩
        · simp only [step, hr', Option.map_some]
        · rw [toMenu_finish]
          exact seen_finish h hpurpose
      · cases hstep
  · cases hstep
  · cases hstep
  · cases hstep

/-- The menu in its callback calls the regulator. -/
lemma seen_callStep {s s' : Window.State} {accepted : Bool} (h : callStep s accepted = some s') :
    seen s'.toMenu = seen s.toMenu := by
  have hseen : ∀ {r : Running} {a : Activity} {r' : Running}, s.activity = .callback r →
      a.running = some r' → r'.purpose = r.purpose →
      seen { s.toMenu with activity := a } = seen s.toMenu := fun {r a r'} hs ha hpurpose => by
    have hr : s.activity.running = some r := by rw [hs]; rfl
    simp only [seen, hide_of_running ha, hide_of_running hr, hpurpose]
  unfold callStep at h
  split at h
  · next r hr =>
      split at h
      · cases h
      · split_ifs at h
        · rw [← Option.some.inj h]
          exact hseen hr rfl (purpose_returned r true)
        · rw [← Option.some.inj h]
          exact hseen hr rfl rfl
        · rw [← Option.some.inj h]
          exact hseen hr rfl (purpose_returned r false)
      · rw [← Option.some.inj h]
        exact hseen hr rfl (purpose_returned r _)
  · cases h

/-- **Every step of the menu that waits for the regulator** is none or one of the machine. -/
theorem follows_step {s s' : Window.State} {e : Window.Event} {t : State}
    (h : seen t.toMenu = seen s.toMenu) (hstep : Window.step s e = some s') :
    Follows t s'.toMenu := by
  cases e with
  | turn keys encoder =>
      simp only [Window.step] at hstep
      split_ifs at hstep with hidle
      have ht : t.toMenu = s.toMenu := eq_of_seen h (by rw [hidle.1]; rfl)
      rw [← Option.some.inj hstep]
      refine Or.inr ⟨.turn keys encoder, { t with jobs := turnJobs keys encoder }, ?_, ?_⟩
      · rw [← ht] at hidle
        simp only [step]
        rw [if_pos hidle]
      · rw [← ht]
  | menu =>
      obtain ⟨menu, hmenu, rfl⟩ := Option.map_eq_some_iff.mp hstep
      exact follows_menuStep h hmenu
  | call accepted => exact Or.inl (h.trans (seen_callStep hstep).symm)
  | key =>
      obtain ⟨menu, hmenu, rfl⟩ := Option.map_eq_some_iff.mp hstep
      have hnone : s.activity.running = none := by
        unfold keyStep at hmenu
        split at hmenu
        · next hactivity => rw [hactivity]; rfl
        · next hactivity => rw [hactivity]; rfl
        · cases hmenu
      have ht : t.toMenu = s.toMenu := eq_of_seen h hnone
      refine Or.inr ⟨.key, { t with toMenu := menu }, ?_, rfl⟩
      simp only [step, ht, hmenu, Option.map_some]
  | wake =>
      simp only [Window.step] at hstep
      split at hstep
      · next r state answered hr =>
          rw [← Option.some.inj hstep]
          refine Or.inl (h.trans ?_)
          simp only [seen, hide, hr, Activity.running, purpose_returned]
      · cases hstep
  | serve answered =>
      simp only [Window.step] at hstep
      split at hstep
      · next r state hr =>
          rw [← Option.some.inj hstep]
          refine Or.inl (h.trans ?_)
          simp only [seen, hide, hr, Activity.running]
      · cases hstep
  | late v =>
      simp only [Window.step] at hstep
      split_ifs at hstep
      rw [← Option.some.inj hstep]
      exact Or.inl h
  | refresh | change v | link connected =>
      rw [← Option.some.inj hstep]
      exact Or.inl h

/-- **The menu that waits for the regulator moves in this way**: in every state of a run it is where
the machine is after some run. -/
theorem exists_navigation (register enabled : ℕ) (connected : Bool) {es : List Window.Event}
    {s : Window.State}
    (hrun : Machine.run Window.step (Window.init register enabled connected) es = some s) :
    ∃ es' t, Machine.run step init es' = some t ∧ seen t.toMenu = seen s.toMenu ∧ Sound t := by
  have hfollows : ∃ es' t, Machine.run step init es' = some t ∧ seen t.toMenu = seen s.toMenu := by
    refine Machine.run_invariant (I := fun s : Window.State =>
      ∃ es' t, Machine.run step init es' = some t ∧ seen t.toMenu = seen s.toMenu)
      (fun s e s' h hstep => ?_) ⟨[], init, rfl, rfl⟩ hrun
    obtain ⟨es', t, ht, hseen⟩ := h
    rcases follows_step hseen hstep with hsame | ⟨e', t', ht', hsame⟩
    · exact ⟨es', t, ht, hsame⟩
    · refine ⟨es' ++ [e'], t', ?_, hsame⟩
      rw [Machine.run_append ht, Machine.run, ht']
      rfl
  obtain ⟨es', t, ht, hseen⟩ := hfollows
  have hinv : Inv t := Machine.run_invariant (fun _ _ _ h => inv_step h) inv_init ht
  exact ⟨es', t, ht, hseen, hinv.sound⟩

end PanelFirmware.Window.Navigation
