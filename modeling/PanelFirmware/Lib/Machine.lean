import Mathlib

/-!
# Machines driven by events

A machine is a partial step function: `step s e` is the state after the event `e` in the state
`s`, `none` where the event cannot happen. An interleaving of tasks is a list of events.

* `run`: the state after a list of events.
* `Meets`: every event of a list meets a condition in the state it happens in.
* `meets_congr`: conditions may be exchanged for equivalent ones.
* `run_induction`: an invariant that every step meeting the condition keeps holds after every run
  whose steps meet it; `run_invariant`: one that every step keeps, after every run.
* `meets_iff_of_lost`: a run meets a condition exactly when it ends in a good state, if meeting it
  keeps states good and failing it spoils them for ever.
* `meets_congr_of_inv`: conditions that agree under such an invariant are met by the same runs.
* `entry_of_update`, `entry_update_of_fresh`: a table of the tasks, by name, after one entry has
  been replaced or added.
-/

namespace PanelFirmware.Lib.Machine

variable {σ ε : Type} (step : σ → ε → Option σ)

/-- The state after a list of events. -/
def run (s : σ) : List ε → Option σ
  | [] => some s
  | e :: es => (step s e).bind fun t => run t es

/-- Every event meets the condition in the state it happens in. -/
def Meets (ok : σ → ε → Prop) (s : σ) : List ε → Prop
  | [] => True
  | e :: es => ok s e ∧ ∀ t, step s e = some t → Meets ok t es

/-- Whether a given run meets a decidable condition can be computed. -/
instance decidableMeets (ok : σ → ε → Prop) [∀ s e, Decidable (ok s e)] (s : σ) :
    (es : List ε) → Decidable (Meets step ok s es)
  | [] => isTrue trivial
  | e :: es =>
      have : Decidable (∀ t, step s e = some t → Meets step ok t es) :=
        match step s e with
        | none => isTrue fun _ ht => nomatch ht
        | some t =>
            have := decidableMeets ok t es
            decidable_of_iff (Meets step ok t es)
              ⟨fun hm _ hu => Option.some.inj hu ▸ hm, fun hall => hall t rfl⟩
      inferInstanceAs (Decidable (ok s e ∧ ∀ t, step s e = some t → Meets step ok t es))

variable {step} {ok : σ → ε → Prop} {I : σ → Prop}

/-- A run of several events is its first step and the rest. -/
lemma run_cons {s t : σ} {e : ε} {es : List ε} (h : run step s (e :: es) = some t) :
    ∃ u, step s e = some u ∧ run step u es = some t :=
  Option.bind_eq_some_iff.mp h

/-- A run goes on from where another ends. -/
lemma run_append {s t : σ} {es : List ε} (h : run step s es = some t) (es' : List ε) :
    run step s (es ++ es') = run step t es' := by
  induction es generalizing s with
  | nil =>
      obtain rfl := Option.some.inj h
      rfl
  | cons e es ih =>
      obtain ⟨u, hu, hrest⟩ := run_cons h
      rw [List.cons_append, run, hu, Option.bind_some, ih hrest]

/-- Conditions that agree in every state are met by the same runs. -/
lemma meets_congr {ok' : σ → ε → Prop} (h : ∀ s e, ok s e ↔ ok' s e) (s : σ) (es : List ε) :
    Meets step ok s es ↔ Meets step ok' s es := by
  induction es generalizing s with
  | nil => exact Iff.rfl
  | cons e es ih => exact and_congr (h s e) (forall_congr' fun t => imp_congr_right fun _ => ih t)

/-- A condition on the events alone is met by a run of events that meet it. -/
lemma meets_of_forall {ok : ε → Prop} {es : List ε} (h : ∀ e ∈ es, ok e) (s : σ) :
    Meets step (fun _ e => ok e) s es := by
  induction es generalizing s with
  | nil => trivial
  | cons e es ih =>
      obtain ⟨hhead, htail⟩ := List.forall_mem_cons.mp h
      exact ⟨hhead, fun t _ => ih htail t⟩

/-- **The run rule.** -/
theorem run_induction (hstep : ∀ s e t, I s → ok s e → step s e = some t → I t) {s t : σ}
    {es : List ε} (hs : I s) (hok : Meets step ok s es) (hrun : run step s es = some t) : I t := by
  induction es generalizing s with
  | nil =>
      obtain rfl := Option.some.inj hrun
      exact hs
  | cons e es ih =>
      obtain ⟨u, hu, hrest⟩ := run_cons hrun
      exact ih (hstep s e u hs hok.1 hu) (hok.2 u hu) hrest

/-- **The run rule without a condition**: what every step keeps, every run keeps. -/
theorem run_invariant (hstep : ∀ s e t, I s → step s e = some t → I t) {s t : σ} {es : List ε}
    (hs : I s) (hrun : run step s es = some t) : I t := by
  have hall : Meets step (fun _ _ => True) s es := meets_of_forall (fun _ _ => trivial) s
  exact run_induction (fun s e t h _ => hstep s e t h) hs hall hrun

/-- A condition is met throughout exactly when the run ends in a good state: where meeting it keeps
the state good, failing it once makes the state bad, and a bad state stays bad. -/
theorem meets_iff_of_lost {Lost : σ → Prop}
    (hkeep : ∀ s e t, I s → ok s e → step s e = some t → I t)
    (hlose : ∀ s e t, I s → ¬ ok s e → step s e = some t → Lost t)
    (hlost : ∀ s e t, Lost s → step s e = some t → Lost t) (hbad : ∀ s, Lost s → ¬ I s) {s t : σ}
    {es : List ε} (hs : I s) (hrun : run step s es = some t) : I t ↔ Meets step ok s es := by
  refine ⟨fun ht => ?_, fun hok => run_induction hkeep hs hok hrun⟩
  induction es generalizing s with
  | nil => trivial
  | cons e es ih =>
      obtain ⟨u, hu, hrest⟩ := run_cons hrun
      by_cases hok : ok s e
      · refine ⟨hok, fun v hv => ?_⟩
        obtain rfl := Option.some.inj (hu.symm.trans hv)
        exact ih (hkeep s e u hs hok hu) hrest
      · have hend : Lost t := run_invariant hlost (hlose s e u hs hok hu) hrest
        exact absurd ht (hbad t hend)

/-- Conditions that agree wherever an invariant holds are met by the same runs, among those whose
steps keep it. -/
theorem meets_congr_of_inv {P Q : σ → ε → Prop}
    (hstep : ∀ s e t, I s → ok s e → step s e = some t → I t)
    (h : ∀ s e, I s → ok s e → (P s e ↔ Q s e)) {s : σ} {es : List ε} (hs : I s)
    (hok : Meets step ok s es) : Meets step P s es ↔ Meets step Q s es := by
  induction es generalizing s with
  | nil => exact Iff.rfl
  | cons e es ih =>
      refine and_congr (h s e hs hok.1) (forall_congr' fun t => imp_congr_right fun ht => ?_)
      exact ih (hstep s e t hs hok.1 ht) (hok.2 t ht)

/-- A run that meets a condition meets it in each of its states. -/
lemma meets_of_append {s t : σ} {es es' : List ε} (h : Meets step ok s (es ++ es'))
    (hrun : run step s es = some t) : Meets step ok t es' := by
  induction es generalizing s with
  | nil =>
      obtain rfl := Option.some.inj hrun
      exact h
  | cons e es ih =>
      obtain ⟨u, hu, hrest⟩ := run_cons hrun
      exact ih (h.2 u hu) hrest

/-! ### Tables -/

section Tables

variable {ι α : Type} {table : ι → Option α} {i j : ι} {a : Option α} {b : α}

/-- An entry of a table after one has been replaced is that one, or another as it was. -/
lemma entry_of_update [DecidableEq ι] (h : Function.update table i a j = some b) :
    j = i ∧ a = some b ∨ j ≠ i ∧ table j = some b := by
  by_cases hj : j = i
  · rw [hj, Function.update_self] at h
    exact Or.inl ⟨hj, h⟩
  · rw [Function.update_of_ne hj] at h
    exact Or.inr ⟨hj, h⟩

/-- A name that is not taken is not that of an entry. -/
lemma ne_of_fresh (hfresh : table i = none) (h : table j = some b) : j ≠ i := by
  rintro rfl
  rw [hfresh] at h
  cases h

/-- An entry under a name that is not taken leaves the others. -/
lemma entry_update_of_fresh [DecidableEq ι] (hfresh : table i = none) (h : table j = some b) :
    Function.update table i a j = some b := by
  rw [Function.update_of_ne (ne_of_fresh hfresh h), h]

end Tables

end PanelFirmware.Lib.Machine
