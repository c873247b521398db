import Mathlib

/-!
# Brackets with an exit

Levels are entered and left. Some of them have an exit, an action that belongs to leaving them. A
log of what happened, the last first, is bracketed if levels are left in the order opposite to that
in which they were entered, and the exit of a level is made once when it is left, right before or
right after, and at no other time.

* `Bracketed`: such logs, with the levels that are entered and not yet left, the last first.
* `Bracketed.count_leave`, `Bracketed.count_exit`: how often a level is left, and its exit made.
* `Bracketed.length`: the number of levels that are entered and not yet left.
-/

namespace PanelFirmware.Lib

variable {α : Type}

/-- What happens to a level: it is entered, left, its exit is made, or it is refused. -/
inductive Crossing (α : Type)
  | enter (a : α)
  | leave (a : α)
  | exit (a : α)
  | refuse (a : α)
  deriving DecidableEq

/-- A bracketed log and the levels that are open after it. -/
inductive Bracketed (hasExit : α → Prop) : List (Crossing α) → List α → Prop
  | nil : Bracketed hasExit [] []
  | enter (a : α) {log : List (Crossing α)} {path : List α} (h : Bracketed hasExit log path) :
      Bracketed hasExit (.enter a :: log) (a :: path)
  | refuse (a : α) {log : List (Crossing α)} {path : List α} (h : Bracketed hasExit log path) :
      Bracketed hasExit (.refuse a :: log) path
  | leave {a : α} {log : List (Crossing α)} {path : List α} (ha : ¬ hasExit a)
      (h : Bracketed hasExit log (a :: path)) : Bracketed hasExit (.leave a :: log) path
  | leaveExit {a : α} {log : List (Crossing α)} {path : List α} (ha : hasExit a)
      (h : Bracketed hasExit log (a :: path)) : Bracketed hasExit (.exit a :: .leave a :: log) path
  | exitLeave {a : α} {log : List (Crossing α)} {path : List α} (ha : hasExit a)
      (h : Bracketed hasExit log (a :: path)) : Bracketed hasExit (.leave a :: .exit a :: log) path

variable {hasExit : α → Prop} {log : List (Crossing α)} {path : List α} [DecidableEq α]

/-- **A level is left as often as it was entered**, up to the levels that are open. -/
theorem Bracketed.count_leave (h : Bracketed hasExit log path) (a : α) :
    log.count (.leave a) + path.count a = log.count (.enter a) := by
  induction h with
  | nil => rfl
  | enter b _ ih | refuse b _ ih =>
      simp only [List.count_cons, beq_iff_eq, Crossing.enter.injEq, reduceCtorEq, if_false]
      omega
  | leave _ _ ih | leaveExit _ _ ih | exitLeave _ _ ih =>
      simp only [List.count_cons, beq_iff_eq, Crossing.leave.injEq, reduceCtorEq, if_false] at ih ⊢
      omega

/-- **The exit of a level is made as often as the level is left.** -/
theorem Bracketed.count_exit (h : Bracketed hasExit log path) {a : α} (ha : hasExit a) :
    log.count (.exit a) = log.count (.leave a) := by
  induction h with
  | nil => rfl
  | enter b _ ih | refuse b _ ih =>
      simp only [List.count_cons, beq_iff_eq, reduceCtorEq, if_false]
      exact ih
  | @leave b _ _ hb _ ih =>
      have hne : b ≠ a := fun heq => hb (heq ▸ ha)
      simp only [List.count_cons, beq_iff_eq, Crossing.leave.injEq, reduceCtorEq, if_false,
        if_neg hne, Nat.add_zero]
      exact ih
  | leaveExit _ _ ih | exitLeave _ _ ih =>
      simp only [List.count_cons, beq_iff_eq, Crossing.leave.injEq, Crossing.exit.injEq,
        reduceCtorEq, if_false]
      omega

/-- A level is entered. -/
def Crossing.isEnter : Crossing α → Bool
  | .enter _ => true
  | _ => false

/-- A level is left. -/
def Crossing.isLeave : Crossing α → Bool
  | .leave _ => true
  | _ => false

omit [DecidableEq α] in
/-- **The number of open levels** is that of the levels entered and not yet left. -/
theorem Bracketed.length (h : Bracketed hasExit log path) :
    path.length + log.countP Crossing.isLeave = log.countP Crossing.isEnter := by
  induction h with
  | nil => rfl
  | enter b _ ih | refuse b _ ih | leave _ _ ih | leaveExit _ _ ih | exitLeave _ _ ih =>
      simp [List.countP_cons, Crossing.isLeave, Crossing.isEnter] at ih ⊢
      omega

end PanelFirmware.Lib
