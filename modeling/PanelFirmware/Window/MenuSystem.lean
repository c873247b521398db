import PanelFirmware.Regulator.Enable
import PanelFirmware.Window.SettingTSK

/-!
# `window/src/menuSystem.cpp`: the settings menu

`run` reads the keys, moves through the items, calls their callbacks and draws the level it is at.
A turn of its loop is a list of jobs; a callback makes its calls one after another, and waits in
`reg_waitCommand` for the one that switches the output.

The machine interleaves the menu with the regulator: its output, the copy of it that the regulator
loop refreshes, the connection, and the writes that are carried out after their call has returned.
-/

namespace PanelFirmware.Window

/-! ### The menu -/

/-- Source: `key.h` `kKey_type`. -/
inductive Key
  | kMode
  | kFunc
  | kOnOff
  | kNext
  | kZero
  | kUp
  | kDown
  deriving DecidableEq

/-- What is left to do of a turn of the loop: the branches of the four keys that move through the
items, the two assignments of a neighbour, the calls of the callbacks of the item, the editor and
what stands around it, the callbacks of a change and of the period, and the drawing.
Source: `menuSystem.cpp` `run`. -/
inductive Job
  | previous
  | next
  | parent
  | child
  | toPrevious
  | toNext
  | callUnselect
  | callSelect
  | callEnter
  | callExit
  | pushHistory
  | editor
  | popHistory
  | encoder (change step : Bool)
  | callPeriodic
  | draw
  deriving DecidableEq

/-- What the result of a callback is for: a message when it is false, and for `callEnter` before a
submenu whether it is entered. Source: `menuSystem.cpp` `callEnter`, `run`. -/
inductive Purpose
  | report
  | enter
  deriving DecidableEq

/-- A callback in progress: the calls that are left, and its result so far. -/
structure Running where
  purpose : Purpose
  rest : List (RegCall × Use)
  result : Bool
  deriving DecidableEq

/-- What the menu is doing: going on with its jobs, in a callback before its next call, in
`reg_waitCommand` of `reg_enableSet`, which has been answered or not, in `printMessageWindow`, and
after the return of `run`. -/
inductive Activity
  | idle
  | callback (r : Running)
  | waiting (r : Running) (state answered : Bool)
  | message
  | ended
  deriving DecidableEq

/-- The menu; of the path the last item comes first.
Source: `menuSystem.cpp` `run`, `m`, `history`, `historyIndex`. -/
structure Menu where
  m : Item
  history : List Item
  jobs : List Job
  activity : Activity
  deriving DecidableEq

/-- A callback is called. -/
def Menu.call (s : Menu) (purpose : Purpose) : Option Callback → Menu
  | some c => { s with activity := .callback ⟨purpose, c.body, true⟩ }
  | none => s

/-- The callbacks of the selection are called only for items with a parameter and no editor.
Source: `menuSystem.cpp` `callUnselect`, `callSelect`. -/
def Menu.selection (s : Menu) (c : Option Callback) : Menu :=
  if s.m.get.prm ∧ s.m.get.editor = none then s.call .report c else s

/-- Source: `menuSystem.cpp` `run`, the branch of `m->child`. -/
def Menu.descend (s : Menu) : Menu :=
  match s.m.get.child with
  | some c => { s with m := c, history := s.m :: s.history, jobs := .callSelect :: s.jobs }
  | none => s

/-- The jobs of an item with an editor. The editors of addresses call `callExit` themselves.
Source: `menuSystem.cpp` `run`, the branch of `m->editor`; `clockEditor`, `ipAddressEditor`,
`ipMacEditor`. -/
def Editor.jobs : Editor → List Job
  | .clockEditor => [.callEnter, .pushHistory, .editor, .callExit, .popHistory]
  | .ipAddressEditor => [.callEnter, .pushHistory, .editor, .callExit, .callExit, .popHistory]
  | .ipMacEditor => [.callEnter, .pushHistory, .editor, .callExit, .callExit, .popHistory]

/-- The menu after a job that has been taken from its list; `editor` and `draw` wait for nothing
here. Source: `menuSystem.cpp` `run`. -/
def Menu.job (s : Menu) : Job → Menu
  | .previous =>
      if s.m.get.previous.isSome then
        { s with jobs := .callUnselect :: .toPrevious :: .callSelect :: s.jobs }
      else s
  | .next =>
      if s.m.get.next.isSome then
        { s with jobs := .callUnselect :: .toNext :: .callSelect :: s.jobs }
      else s
  | .parent =>
      match s.history with
      | h :: history => { s with m := h, history }.call .report h.get.pUnselect
      | [] => { s with jobs := [], activity := .ended }
  | .child =>
      match s.m.get.editor with
      | some e => { s with jobs := e.jobs ++ s.jobs }
      | none =>
          if s.m.get.child.isSome then
            match s.m.get.pSelect with
            | some c => s.call .enter (some c)
            | none => s.descend
          else s
  | .toPrevious => { s with m := s.m.get.previous.getD s.m }
  | .toNext => { s with m := s.m.get.next.getD s.m }
  | .callUnselect => s.selection s.m.get.pUnselect
  | .callSelect => s.selection s.m.get.pSelect
  | .callEnter => s.call .report s.m.get.pSelect
  | .callExit => s.call .report s.m.get.pUnselect
  | .pushHistory => { s with history := s.m :: s.history }
  | .popHistory => { s with history := s.history.tail }
  | .encoder change step =>
      if change ∨ (s.m.get.change ∧ step ∧ s.m.get.prm) then s.call .report s.m.get.pChange else s
  | .callPeriodic => s.call .report s.m.get.pPeriod
  | .editor => s
  | .draw => s

/-- The jobs of a turn of the loop. The keys are what the tests of its branches find, and not one
scan of the keyboard: several may be pressed at once, and a message in between scans them again.
Source: `menuSystem.cpp` `run`; `key.c` `keyState`. -/
def turnJobs (keys : Key → Bool) (step : Bool) : List Job :=
  (if keys .kFunc then [Job.previous] else []) ++ (if keys .kNext then [Job.next] else []) ++
    (if keys .kMode then [Job.parent] else []) ++ (if keys .kOnOff then [Job.child] else []) ++
    [Job.encoder (keys .kUp || keys .kDown || keys .kZero) step, Job.callPeriodic, Job.draw]

/-- The menu after the return of a callback. Source: `menuSystem.cpp` `callEnter`, `callExit`. -/
def Menu.finish (s : Menu) (r : Running) : Menu :=
  if r.result then
    match r.purpose with
    | .report => { s with activity := .idle }
    | .enter => { s with activity := .idle }.descend
  else { s with activity := .message }

/-- A callback after the return of its call. -/
def Running.returned (r : Running) (result : Bool) : Running :=
  match r.rest with
  | [] => r
  | (_, .ignored) :: rest => { r with rest }
  | (_, .collected) :: rest => { r with rest, result := r.result && result }
  | (_, .required) :: rest => if result then { r with rest } else { r with rest := [], result }

/-- The next step of the menu that waits for nothing. Source: `menuSystem.cpp` `run`. -/
def menuStep (s : Menu) : Option Menu :=
  match s.activity with
  | .idle =>
      match s.jobs with
      | [] => none
      | .editor :: _ => none
      | job :: jobs => some (Menu.job { s with jobs } job)
  | .callback r =>
      match r.rest with
      | [] => some (s.finish r)
      | _ :: _ => none
  | .waiting _ _ _ => none
  | .message => none
  | .ended => none

/-- A key ends a message and an editor.
Source: `menuSystem.cpp` `printMessageWindow`, `clockEditor`, `ipAddressEditor`, `ipMacEditor`. -/
def keyStep (s : Menu) : Option Menu :=
  match s.activity with
  | .message => some { s with activity := .idle }
  | .idle =>
      match s.jobs with
      | .editor :: jobs => some { s with jobs }
      | _ => none
  | _ => none

/-! ### The regulator -/

/-- The output register of the regulator and the panel's copy of it, the connection, and the number
of calls of `reg_enableSet(true)` that have returned without an answer, whose writes may still be
carried out. Whether the output is on since the menu switched it on is recorded.
Source: `regulatorConnTSK.c` `enabled`, `connected`, `commandQueue`. -/
structure Link where
  register : ℕ
  enabled : ℕ
  connected : Bool
  abandoned : ℕ
  left : Bool

/-- The menu and the regulator. -/
structure State extends Menu, Link

/-- What can happen next: the next turn of the loop, with the keys and whether the encoder has been
turned; the next step of the menu; the next call of a callback, and whether its command is accepted;
a key in a message or an editor; the end of the wait in `reg_waitCommand`. The regulator carries out
the write that is waited for, and is heard or not; one whose call has returned, with what its source
holds by then; its output is read; it is switched by others; the connection is lost or found. -/
inductive Event
  | turn (keys : Key → Bool) (step : Bool)
  | menu
  | call (accepted : Bool)
  | key
  | wake
  | serve (answered : Bool)
  | late (v : ℕ)
  | refresh
  | change (v : ℕ)
  | link (connected : Bool)

/-- The functions that store a target, or copy what has been measured, and return `connected`.
Source: `regulatorConnTSK.c` `reg_voltageSet`, `reg_currentSet`, `reg_dacVoltageSet`,
`reg_dacCurrentSet`, `reg_modeSet`, `reg_getState`. -/
def RegCall.immediate : RegCall → Bool
  | .voltageSet | .currentSet | .dacVoltageSet | .dacCurrentSet | .modeSet | .getState => true
  | _ => false

/-- The next call of a callback. A command is refused when the regulator is not connected, when the
queue is full and when there is no semaphore; when it has not been refused, `reg_waitCommand`
returns true. Source: `regulatorConnTSK.c` `reg_enableSet`, `reg_waitCommand`. -/
def callStep (s : State) (accepted : Bool) : Option State :=
  match s.activity with
  | .callback r =>
      match r.rest with
      | [] => none
      | (.enableSet state, _) :: _ =>
          if Regulator.Enable.value state = s.enabled then
            some { s with activity := .callback (r.returned true) }
          else if s.connected ∧ accepted then
            some { s with activity := .waiting r state false }
          else some { s with activity := .callback (r.returned false) }
      | (c, _) :: _ =>
          let result := s.connected && (c.immediate || accepted)
          some { s with activity := .callback (r.returned result) }
  | _ => none

/-- A step of the system. Source: `menuSystem.cpp` `run`; `regulatorConnTSK.c` `reg_waitCommand`,
`regulatorConnTSK`. -/
def step (s : State) : Event → Option State
  | .turn keys step =>
      if s.activity = .idle ∧ s.jobs = [] then some { s with jobs := turnJobs keys step } else none
  | .menu => (menuStep s.toMenu).map fun menu => { s with toMenu := menu }
  | .call accepted => callStep s accepted
  | .key => (keyStep s.toMenu).map fun menu => { s with toMenu := menu }
  | .wake =>
      match s.activity with
      | .waiting r state answered =>
          let abandoned := if state && !answered then s.abandoned + 1 else s.abandoned
          some { s with activity := .callback (r.returned true), abandoned }
      | _ => none
  | .serve answered =>
      match s.activity with
      | .waiting r state false =>
          some { s with
            activity := .waiting r state answered
            register := Regulator.Enable.value state
            left := state }
      | _ => none
  | .late v =>
      if s.abandoned = 0 then none
      else some { s with register := v, abandoned := s.abandoned - 1, left := decide (v ≠ 0) }
  | .refresh => some { s with enabled := s.register }
  | .change v => some { s with register := v, left := s.left && decide (v ≠ 0) }
  | .link connected => some { s with connected }

/-- The start of the menu, with any output, copy and connection.
Source: `settingTSK.cpp` `settingTSK`. -/
def init (register enabled : ℕ) (connected : Bool) : State where
  m := .m1
  history := []
  jobs := []
  activity := .idle
  register := register
  enabled := enabled
  connected := connected
  abandoned := 0
  left := false

end PanelFirmware.Window
