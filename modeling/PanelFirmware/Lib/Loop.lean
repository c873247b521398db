import Mathlib

/-!
# Loops

A loop is a body that is left with a result or goes on from a new state: `body s` is `Sum.inl r`
or `Sum.inr t`.

* `runs`: the result within a number of rounds, `Ends`: within some number of them.
* `ends_of_measure`: a loop whose rounds lower a measure is left.
* `runs_of_progress`: where some rounds change nothing, a loop that is left takes no more rounds.
* `Reaches.keeps`, `Ends.keeps`: an invariant at the head of the loop, and what it says of the
  result.
* `not_ends`: a loop that is stuck in a set of states is never left.
* `ends_search_iff`: a loop that counts its rounds is left at the first number it looks for.
* `foldl_part`: what a loop over a list does to a part of the state that one of its rounds changes.
-/

namespace PanelFirmware.Lib.Loop

variable {σ ρ : Type} (body : σ → ρ ⊕ σ)

/-- The result, if the loop is left within so many rounds. -/
def runs : ℕ → σ → Option ρ
  | 0, _ => none
  | n + 1, s =>
      match body s with
      | .inl r => some r
      | .inr t => runs n t

/-- The loop, entered in the state, is left with the result. -/
def Ends (s : σ) (r : ρ) : Prop := ∃ n, runs body n s = some r

/-- The loop, entered in the first state, comes to its head in the second. -/
inductive Reaches (s : σ) : σ → Prop
  | entry : Reaches s s
  | round {t u : σ} : Reaches s t → body t = .inr u → Reaches s u

variable {body}

/-- A round that is left gives the result. -/
lemma runs_inl {s : σ} {r : ρ} (h : body s = .inl r) (n : ℕ) : runs body (n + 1) s = some r := by
  simp only [runs, h]

/-- A round that goes on leaves the rest to the others. -/
lemma runs_inr {s t : σ} (h : body s = .inr t) (n : ℕ) :
    runs body (n + 1) s = runs body n t := by
  simp only [runs, h]

/-- More rounds than the loop takes do not change its result. -/
lemma runs_mono {n m : ℕ} {s : σ} {r : ρ} (h : runs body n s = some r) (hle : n ≤ m) :
    runs body m s = some r := by
  induction n generalizing m s with
  | zero => cases h
  | succ n ih =>
      obtain ⟨m, rfl⟩ := Nat.exists_eq_add_one_of_ne_zero (show m ≠ 0 by omega)
      cases hs : body s with
      | inl r' =>
          rw [runs_inl hs] at h ⊢
          exact h
      | inr t =>
          rw [runs_inr hs] at h ⊢
          exact ih h (Nat.le_of_succ_le_succ hle)

/-- A loop that is left at once. -/
lemma ends_inl {s : σ} {r : ρ} (h : body s = .inl r) : Ends body s r := ⟨1, runs_inl h 0⟩

/-- A loop that goes on is left where it is left from the next state on. -/
lemma ends_inr {s t : σ} {r : ρ} (h : body s = .inr t) : Ends body s r ↔ Ends body t r := by
  constructor
  · rintro ⟨n, hn⟩
    cases n with
    | zero => cases hn
    | succ n => exact ⟨n, by rw [← runs_inr h, hn]⟩
  · rintro ⟨n, hn⟩
    exact ⟨n + 1, by rw [runs_inr h, hn]⟩

/-- What a round reaches is reached from before it. -/
lemma Reaches.head {s t u : σ} (h : body s = .inr t) (hreach : Reaches body t u) :
    Reaches body s u := by
  induction hreach with
  | entry => exact Reaches.round Reaches.entry h
  | round _ hround ih => exact ih.round hround

section Invariant

variable {I : σ → Prop}

/-- **The measure rule.** Under an invariant that every round keeps, a loop whose rounds lower a
measure is left, within one round more than the measure. -/
theorem ends_of_measure {measure : σ → ℕ} (hkeep : ∀ s t, I s → body s = .inr t → I t)
    (hless : ∀ s t, I s → body s = .inr t → measure t < measure s) {s : σ} (hs : I s) :
    ∃ r, runs body (measure s + 1) s = some r := by
  generalize hn : measure s = n
  induction n using Nat.strong_induction_on generalizing s with
  | _ n ih =>
      cases hbody : body s with
      | inl r => exact ⟨r, runs_inl hbody n⟩
      | inr t =>
          have hlt : measure t < n := hn ▸ hless s t hs hbody
          obtain ⟨r, hr⟩ := ih _ hlt (hkeep s t hs hbody) rfl
          exact ⟨r, by rw [runs_inr hbody, runs_mono hr hlt]⟩

/-- **The bound rule.** A loop whose rounds lower a measure, or change nothing, is left within one
round more than the measure if it is left at all. -/
theorem runs_of_progress {measure : σ → ℕ} (hkeep : ∀ s t, I s → body s = .inr t → I t)
    (hless : ∀ s t, I s → body s = .inr t → measure t < measure s ∨ t = s) {n : ℕ} {s : σ} {r : ρ}
    (hs : I s) (h : runs body n s = some r) : runs body (measure s + 1) s = some r := by
  induction n generalizing s with
  | zero => cases h
  | succ n ih =>
      cases hbody : body s with
      | inl r' =>
          rw [runs_inl hbody] at h ⊢
          exact h
      | inr t =>
          rw [runs_inr hbody] at h
          have hend := ih (hkeep s t hs hbody) h
          rcases hless s t hs hbody with hlt | rfl
          · rw [runs_inr hbody]
            exact runs_mono hend hlt
          · exact hend

/-- **The invariant rule**, at the head of the loop. -/
theorem Reaches.keeps (hkeep : ∀ s t, I s → body s = .inr t → I t) {s t : σ}
    (h : Reaches body s t) (hs : I s) : I t := by
  induction h with
  | entry => exact hs
  | round _ hround ih => exact hkeep _ _ ih hround

/-- **The invariant rule**, for the result. -/
theorem Ends.keeps {Q : ρ → Prop} (hkeep : ∀ s t, I s → body s = .inr t → I t)
    (hleave : ∀ s r, I s → body s = .inl r → Q r) {s : σ} {r : ρ} (h : Ends body s r)
    (hs : I s) : Q r := by
  obtain ⟨n, hn⟩ := h
  induction n generalizing s with
  | zero => cases hn
  | succ n ih =>
      cases hbody : body s with
      | inl r' =>
          rw [runs_inl hbody, Option.some.injEq] at hn
          exact hn ▸ hleave s r' hs hbody
      | inr t =>
          rw [runs_inr hbody] at hn
          exact ih (hkeep s t hs hbody) hn

/-- **The rule for loops that hang.** A loop that goes on from every state of a set, into the set,
is not left from there. -/
theorem not_ends (hstuck : ∀ s, I s → ∃ t, body s = .inr t ∧ I t) {s : σ} (hs : I s) (r : ρ) :
    ¬ Ends body s r := by
  rintro ⟨n, hn⟩
  induction n generalizing s with
  | zero => cases hn
  | succ n ih =>
      obtain ⟨t, hbody, ht⟩ := hstuck s hs
      rw [runs_inr hbody] at hn
      exact ih ht hn

end Invariant

/-! ### Loops that search -/

/-- **The search rule.** A loop that goes from each number to the next, and is left at a number
that it looks for, is left at the first of them. -/
theorem ends_search_iff {search : ℕ → ℕ ⊕ ℕ} {p : ℕ → Prop} (hleave : ∀ k, p k → search k = .inl k)
    (hnext : ∀ k, ¬ p k → search k = .inr (k + 1)) {s k : ℕ} :
    Ends search s k ↔ s ≤ k ∧ p k ∧ ∀ j, s ≤ j → j < k → ¬ p j := by
  constructor
  · rintro ⟨n, hn⟩
    induction n generalizing s with
    | zero => cases hn
    | succ n ih =>
        by_cases hs : p s
        · rw [runs_inl (hleave s hs), Option.some.injEq] at hn
          subst hn
          exact ⟨le_rfl, hs, fun j hle hlt => absurd hle (Nat.not_le.mpr hlt)⟩
        · rw [runs_inr (hnext s hs)] at hn
          obtain ⟨hle, hk, hbefore⟩ := ih hn
          refine ⟨Nat.le_of_succ_le hle, hk, fun j hsj hjk => ?_⟩
          rcases Nat.eq_or_lt_of_le hsj with rfl | hlt
          · exact hs
          · exact hbefore j hlt hjk
  · rintro ⟨hle, hk, hbefore⟩
    obtain ⟨d, rfl⟩ := Nat.exists_eq_add_of_le hle
    clear hle
    induction d generalizing s with
    | zero => exact ends_inl (hleave s hk)
    | succ d ih =>
        have hs : ¬ p s := hbefore s le_rfl (by omega)
        rw [ends_inr (hnext s hs), show s + (d + 1) = s + 1 + d by omega]
        refine ih ?_ fun j hsj hjk => hbefore j (by omega) (by omega)
        rwa [show s + 1 + d = s + (d + 1) by omega]

/-! ### Loops over a list -/

section Part

variable {ι τ : Type} {f : σ → ι → σ} {part : σ → τ} {g : τ → τ} {i : ι}

/-- Rounds that leave a part of the state leave it together. -/
lemma foldl_part_of_not_mem (hother : ∀ s j, j ≠ i → part (f s j) = part s) {l : List ι}
    (hi : i ∉ l) (s : σ) : part (l.foldl f s) = part s := by
  induction l generalizing s with
  | nil => rfl
  | cons j l ih =>
      obtain ⟨hj, hl⟩ := List.ne_and_not_mem_of_not_mem_cons hi
      rw [List.foldl_cons, ih hl, hother s j hj.symm]

/-- **The part rule.** A loop over a list without repetitions changes a part of the state as the
one round does that is concerned with it. -/
theorem foldl_part (hother : ∀ s j, j ≠ i → part (f s j) = part s)
    (hself : ∀ s, part (f s i) = g (part s)) {l : List ι} (hnodup : l.Nodup) (hi : i ∈ l) (s : σ) :
    part (l.foldl f s) = g (part s) := by
  induction l generalizing s with
  | nil => cases hi
  | cons j l ih =>
      obtain ⟨hj, hl⟩ := List.nodup_cons.mp hnodup
      rw [List.foldl_cons]
      by_cases hij : j = i
      · subst hij
        rw [foldl_part_of_not_mem hother hj, hself]
      · have hmem : i ∈ l := (List.mem_cons.mp hi).resolve_left (Ne.symm hij)
        rw [ih hl hmem, hother s j hij]

end Part

end PanelFirmware.Lib.Loop
