import Mathlib

/-!
# Programs on a store that survives power losses

A `Prog σ α` runs on a store of type `σ` and is observed at its atomic steps: it returns the
stores it passes through, one after each step, and how it ends (`none`: it got stuck). Power may
be lost at any of those stores, and the program is then started afresh on what the store holds.

* `wp p C Q s`: run from `s`, `p` passes through stores in `C` only and ends, in `Q`. It is
  compositional (`wp_bind`, `wp_atomic`, `wp_forEach`).
* `Runs p s l a t`: the same run with the stores it passes through, which are in the parts of a
  program one after the other (`Runs.bind`).
* `CrashReach p s₀ s`: the store `s` can be met in some run of `p` restarted any number of times,
  first started on `s₀`.
* `crashReach_induction`: an invariant that `p` keeps at every atomic step holds in every store
  met, over any number and placement of power losses.
-/

namespace PanelFirmware.Lib

variable {σ α β : Type}

/-- A program: the stores after its atomic steps, and its end. -/
def Prog (σ α : Type) : Type := σ → List σ × Option (α × σ)

namespace Prog

/-- The program that ends at once. -/
def ret (a : α) : Prog σ α := fun s => ([], some (a, s))

/-- One program after another. -/
def bind (p : Prog σ α) (k : α → Prog σ β) : Prog σ β := fun s =>
  match (p s).2 with
  | none => ((p s).1, none)
  | some (a, t) => ((p s).1 ++ (k a t).1, (k a t).2)

instance : Monad (Prog σ) where
  pure := ret
  bind := bind

/-- Read the store. -/
def get : Prog σ σ := fun s => ([], some (s, s))

/-- An atomic step of the store. -/
def atomic (f : σ → σ) : Prog σ Unit := fun s => ([f s], some ((), f s))

/-- The program that is stuck where there is no value. -/
def ofOption (o : Option α) : Prog σ α := fun s => ([], o.map fun a => (a, s))

/-- A loop over a list, in its order. -/
def forEach {ι : Type} (body : ι → Prog σ Unit) : List ι → Prog σ Unit
  | [] => pure ()
  | i :: is => do
      body i
      forEach body is

/-- From `s` the program passes through stores in `C` only, and it ends, in `Q`. -/
def wp (p : Prog σ α) (C : σ → Prop) (Q : α → σ → Prop) (s : σ) : Prop :=
  (∀ t ∈ (p s).1, C t) ∧ ∃ a t, (p s).2 = some (a, t) ∧ Q a t

variable {C : σ → Prop} {s : σ}

@[simp] lemma wp_pure (a : α) (Q : α → σ → Prop) : wp (pure a : Prog σ α) C Q s ↔ Q a s := by
  constructor
  · rintro ⟨-, a', t, hend, hQ⟩
    cases hend
    exact hQ
  · intro hQ
    exact ⟨fun t ht => absurd ht List.not_mem_nil, a, s, rfl, hQ⟩

@[simp] lemma wp_get (Q : σ → σ → Prop) : wp (get : Prog σ σ) C Q s ↔ Q s s :=
  wp_pure s Q

@[simp] lemma wp_atomic (f : σ → σ) (Q : Unit → σ → Prop) :
    wp (atomic f) C Q s ↔ C (f s) ∧ Q () (f s) := by
  constructor
  · rintro ⟨htrace, a, t, hend, hQ⟩
    cases hend
    exact ⟨htrace _ List.mem_cons_self, hQ⟩
  · rintro ⟨hC, hQ⟩
    refine ⟨fun t ht => ?_, (), f s, rfl, hQ⟩
    rw [List.mem_singleton.mp ht]
    exact hC

@[simp] lemma wp_ofOption_some (a : α) (Q : α → σ → Prop) :
    wp (ofOption (some a) : Prog σ α) C Q s ↔ Q a s :=
  wp_pure a Q

/-- A sequence is run by running its first part and, from where that ends, its second. -/
@[simp] lemma wp_bind (p : Prog σ α) (k : α → Prog σ β) (Q : β → σ → Prop) :
    wp (p >>= k) C Q s ↔ wp p C (fun a => wp (k a) C Q) s := by
  change wp (bind p k) C Q s ↔ _
  unfold wp bind
  cases hp : (p s).2 with
  | none => simp
  | some r =>
      obtain ⟨a, t⟩ := r
      constructor
      · rintro ⟨htrace, hend⟩
        exact ⟨fun u hu => htrace u (List.mem_append_left _ hu), a, t, rfl,
          fun u hu => htrace u (List.mem_append_right _ hu), hend⟩
      · rintro ⟨htrace, a', t', heq, htrace', hend⟩
        cases heq
        refine ⟨fun u hu => ?_, hend⟩
        rcases List.mem_append.mp hu with hu | hu
        · exact htrace u hu
        · exact htrace' u hu

/-- What a program establishes it establishes in weaker words. -/
lemma wp_mono {p : Prog σ α} {C' : σ → Prop} {Q Q' : α → σ → Prop} (h : wp p C Q s)
    (hC : ∀ t, C t → C' t) (hQ : ∀ a t, Q a t → Q' a t) : wp p C' Q' s := by
  obtain ⟨htrace, a, t, hend, hpost⟩ := h
  exact ⟨fun u hu => hC u (htrace u hu), a, t, hend, hQ a t hpost⟩

/-- The loop rule: an invariant indexed by the number of rounds done, which every round
advances. -/
lemma wp_forEach {ι : Type} {body : ι → Prog σ Unit} (I : ℕ → σ → Prop) {l : List ι}
    (hbody : ∀ n i, l[n]? = some i → ∀ t, I n t → wp (body i) C (fun _ => I (n + 1)) t)
    (h0 : I 0 s) : wp (forEach body l) C (fun _ => I l.length) s := by
  induction l generalizing s I with
  | nil => exact (wp_pure () _).mpr h0
  | cons i is ih =>
      unfold forEach
      rw [wp_bind]
      refine wp_mono (hbody 0 i rfl s h0) (fun _ h => h) fun _ t ht => ?_
      exact ih (fun n => I (n + 1)) (fun n j hj => hbody (n + 1) j hj) ht

/-! ### Runs with the stores passed through -/

/-- From `s` the program passes through the stores `l`, in this order, and ends with `a` in `t`. -/
def Runs (p : Prog σ α) (s : σ) (l : List σ) (a : α) (t : σ) : Prop := p s = (l, some (a, t))

lemma runs_pure (a : α) (s : σ) : Runs (pure a : Prog σ α) s [] a s := rfl

lemma runs_get (s : σ) : Runs (get : Prog σ σ) s [] s s := rfl

lemma runs_atomic (f : σ → σ) (s : σ) : Runs (atomic f) s [f s] () (f s) := rfl

/-- A sequence passes through the stores of its first part and then through those of its
second. -/
lemma Runs.bind {p : Prog σ α} {k : α → Prog σ β} {t u : σ} {l l' : List σ} {a : α} {b : β}
    (hp : Runs p s l a t) (hk : Runs (k a) t l' b u) : Runs (p >>= k) s (l ++ l') b u := by
  change Prog.bind p k s = _
  unfold Runs at hp hk
  simp only [Prog.bind, hp, hk]

/-- The parts of the run of a sequence. -/
lemma Runs.of_bind {p : Prog σ α} {k : α → Prog σ β} {u : σ} {l : List σ} {b : β}
    (h : Runs (p >>= k) s l b u) :
    ∃ l₁ a t l₂, Runs p s l₁ a t ∧ Runs (k a) t l₂ b u ∧ l = l₁ ++ l₂ := by
  change Prog.bind p k s = _ at h
  unfold Prog.bind at h
  cases hp : (p s).2 with
  | none => simp [hp] at h
  | some r =>
      obtain ⟨a, t⟩ := r
      simp only [hp, Prod.mk.injEq] at h
      exact ⟨(p s).1, a, t, (k a t).1, Prod.ext rfl hp, Prod.ext rfl h.2, h.1.symm⟩

/-- What a run that only returns has returned. -/
lemma Runs.of_pure {a b : α} {l : List σ} {t : σ} (h : Runs (pure a : Prog σ α) s l b t) : a = b :=
  (Prod.mk.inj (Option.some.inj (Prod.mk.inj h).2)).1

/-- The value of an option that a run has taken. -/
lemma Runs.of_ofOption {o : Option α} {a : α} {l : List σ} {t : σ}
    (h : Runs (ofOption o : Prog σ α) s l a t) : o = some a := by
  obtain ⟨b, hb, heq⟩ := Option.map_eq_some_iff.mp (Prod.mk.inj h).2
  rw [hb, (Prod.mk.inj heq).1]

/-- What a program establishes, said of its run. -/
lemma exists_runs_of_wp {p : Prog σ α} {Q : α → σ → Prop} (h : wp p C Q s) :
    ∃ l a t, Runs p s l a t ∧ (∀ u ∈ l, C u) ∧ Q a t := by
  obtain ⟨htrace, a, t, hend, hQ⟩ := h
  exact ⟨(p s).1, a, t, Prod.ext rfl hend, htrace, hQ⟩

/-- The same of a program that ends in one store, with nothing to return. -/
lemma exists_runs_of_wp_eq {p : Prog σ Unit} {t : σ} (h : wp p C (fun _ u => u = t) s) :
    ∃ l, Runs p s l () t ∧ ∀ u ∈ l, C u := by
  obtain ⟨l, ⟨⟩, u, hrun, hl, rfl⟩ := exists_runs_of_wp h
  exact ⟨l, hrun, hl⟩

/-- The last store of a run is the one of its second part, if this has any. -/
lemma getLastD_append (l l' : List σ) (s : σ) :
    (l ++ l').getLastD s = l'.getLastD (l.getLastD s) := by
  induction l generalizing s with
  | nil => rfl
  | cons t l ih => rw [List.cons_append, List.getLastD_cons, List.getLastD_cons, ih]

/-- The program ends in the last store it passes through: only its atomic steps change the
store. -/
def EndsLast (p : Prog σ α) : Prop := ∀ s l a t, Runs p s l a t → t = l.getLastD s

lemma endsLast_pure (a : α) : EndsLast (pure a : Prog σ α) := by
  rintro s l b t h
  cases h
  rfl

lemma endsLast_get : EndsLast (get : Prog σ σ) := by
  rintro s l b t h
  cases h
  rfl

lemma endsLast_atomic (f : σ → σ) : EndsLast (atomic f) := by
  rintro s l b t h
  cases h
  rfl

lemma EndsLast.bind {p : Prog σ α} {k : α → Prog σ β} (hp : EndsLast p)
    (hk : ∀ a, EndsLast (k a)) : EndsLast (p >>= k) := by
  intro s l b u h
  obtain ⟨l₁, a, t, l₂, h₁, h₂, rfl⟩ := h.of_bind
  rw [getLastD_append, ← hp s l₁ a t h₁]
  exact hk a t l₂ b u h₂

lemma endsLast_forEach {ι : Type} {body : ι → Prog σ Unit} (h : ∀ i, EndsLast (body i))
    (l : List ι) : EndsLast (forEach body l) := by
  induction l with
  | nil => exact endsLast_pure ()
  | cons i is ih => exact (h i).bind fun _ => ih

/-! ### Restarts -/

/-- The stores met when `p` is started on `s₀` and restarted after power losses: the start, and
every store after an atomic step of a run of `p` from a store met. -/
inductive CrashReach (p : Prog σ α) (s₀ : σ) : σ → Prop
  | start : CrashReach p s₀ s₀
  | crash {s t : σ} (h : CrashReach p s₀ s) (ht : t ∈ (p s).1) : CrashReach p s₀ t

/-- **The crash invariant rule.** What holds at the start and at every atomic step of a run from
a store where it holds, holds in every store met. -/
theorem crashReach_induction {p : Prog σ α} {s₀ : σ} {I : σ → Prop} {Q : α → σ → Prop}
    (h0 : I s₀) (hstep : ∀ s, I s → wp p I Q s) {s : σ} (h : CrashReach p s₀ s) : I s := by
  induction h with
  | start => exact h0
  | crash _ ht ih => exact (hstep _ ih).1 _ ht

end Prog

end PanelFirmware.Lib
