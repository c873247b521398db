import Mathlib

/-!
# Arrays whose bounds are checked

An array is accessed at integers, which may lie outside it; `none` stands for such an access, and
a loop that makes one has no result.

* `load`, `store`: the accesses, with `load_of_lt`, `store_of_lt` inside and `store_eq_none_iff`
  outside the array.
* `rounds`: a counted loop of such accesses, with the rules for what it leaves: `rounds_spec`,
  where no round fails, and `rounds_keeps`, where one may.
* `loadAll_eq`, `storeAll_spec`: the loops over a range that lies within the array.
-/

namespace PanelFirmware.Lib.BoundedArray

variable {α β : Type}

/-- The entry at a place. -/
def load (tab : List α) (i : ℤ) : Option α := if 0 ≤ i then tab[i.toNat]? else none

/-- The array with the entry at a place replaced. -/
def store (tab : List α) (i : ℤ) (v : α) : Option (List α) :=
  if 0 ≤ i ∧ i < tab.length then some (tab.set i.toNat v) else none

lemma load_of_lt {tab : List α} {i : ℤ} (h0 : 0 ≤ i) (h : i.toNat < tab.length) :
    load tab i = some tab[i.toNat] := by
  rw [load, if_pos h0, List.getElem?_eq_getElem h]

lemma store_of_lt {tab : List α} {i : ℤ} (h0 : 0 ≤ i) (h : i < tab.length) (v : α) :
    store tab i v = some (tab.set i.toNat v) :=
  if_pos ⟨h0, h⟩

lemma store_eq_none_iff {tab : List α} {i : ℤ} {v : α} :
    store tab i v = none ↔ i < 0 ∨ tab.length ≤ i := by
  rw [store]
  split_ifs with h
  · exact iff_of_false (fun h => (by cases h)) (by omega)
  · exact iff_of_true rfl (by omega)

/-- A store changes no length. -/
lemma length_of_store {tab tab' : List α} {i : ℤ} {v : α} (h : store tab i v = some tab') :
    tab'.length = tab.length := by
  rw [store] at h
  split_ifs at h
  rw [← Option.some.inj h, List.length_set]

/-! ### Counted loops -/

/-- `n` rounds, the rounds counted from 0; `none` as soon as one fails. -/
def rounds (n : ℕ) (round : β → ℕ → Option β) (b : β) : Option β := (List.range n).foldlM round b

variable {n : ℕ} {round : β → ℕ → Option β} {b : β}

@[simp] lemma rounds_zero (round : β → ℕ → Option β) (b : β) : rounds 0 round b = some b := rfl

/-- The last round. -/
lemma rounds_succ (n : ℕ) (round : β → ℕ → Option β) (b : β) :
    rounds (n + 1) round b = (rounds n round b).bind fun b => round b n := by
  rw [rounds, List.range_succ, List.foldlM_append, ← rounds, Option.bind_eq_bind]
  congr 1
  funext b
  rw [List.foldlM_cons, Option.bind_eq_bind]
  exact Option.bind_fun_some (round b n)

/-- Loops with the same rounds. -/
lemma rounds_congr {round' : β → ℕ → Option β} (h : ∀ i, i < n → ∀ b, round b i = round' b i)
    (b : β) : rounds n round b = rounds n round' b := by
  induction n with
  | zero => rfl
  | succ n ih =>
      rw [rounds_succ, rounds_succ, ih fun i hi => h i (Nat.lt_succ_of_lt hi)]
      exact Option.bind_congr fun b _ => h n (Nat.lt_succ_self n) b

/-- **The rule for loops none of whose rounds fails.** -/
theorem rounds_spec {P : ℕ → β → Prop} (h0 : P 0 b)
    (hround : ∀ i, i < n → ∀ b, P i b → ∃ b', round b i = some b' ∧ P (i + 1) b') :
    ∃ b', rounds n round b = some b' ∧ P n b' := by
  induction n with
  | zero => exact ⟨b, rfl, h0⟩
  | succ n ih =>
      obtain ⟨c, hc, hP⟩ := ih fun i hi => hround i (Nat.lt_succ_of_lt hi)
      obtain ⟨b', hb', hP'⟩ := hround n (Nat.lt_succ_self n) c hP
      exact ⟨b', by rw [rounds_succ, hc, Option.bind_some, hb'], hP'⟩

/-- **The rule for loops that may fail**: an invariant of the rounds that do not. -/
theorem rounds_keeps {P : ℕ → β → Prop} {b' : β} (h : rounds n round b = some b') (h0 : P 0 b)
    (hround : ∀ i, i < n → ∀ b b', P i b → round b i = some b' → P (i + 1) b') : P n b' := by
  induction n generalizing b' with
  | zero => exact Option.some.inj h ▸ h0
  | succ n ih =>
      rw [rounds_succ] at h
      obtain ⟨c, hc, hlast⟩ := Option.bind_eq_some_iff.mp h
      exact hround n (Nat.lt_succ_self n) c b'
        (ih hc fun i hi => hround i (Nat.lt_succ_of_lt hi)) hlast

/-- A loop whose first round fails. -/
lemma rounds_eq_none (hn : 0 < n) (h : round b 0 = none) : rounds n round b = none := by
  induction n with
  | zero => exact absurd hn (Nat.lt_irrefl 0)
  | succ n ih =>
      rw [rounds_succ]
      rcases Nat.eq_zero_or_pos n with rfl | hpos
      · rw [rounds_zero, Option.bind_some, h]
      · rw [ih hpos]
        rfl

/-! ### Ranges -/

/-- The entries of a range, one after the other. -/
def loadAll (tab : List α) (i : ℤ) (n : ℕ) : Option (List α) :=
  rounds n (fun vs k => (load tab (i + k)).map fun v => vs ++ [v]) []

/-- The entries of a range replaced, one after the other. -/
def storeAll (tab : List α) (i : ℤ) (n : ℕ) (value : ℕ → α) : Option (List α) :=
  rounds n (fun tab k => store tab (i + k) (value k)) tab

/-- **A range within an array is read.** -/
theorem loadAll_eq {tab : List α} {i : ℤ} {n : ℕ} (h0 : 0 ≤ i) (h : i + n ≤ tab.length) :
    loadAll tab i n = some ((tab.drop i.toNat).take n) := by
  obtain ⟨vs, hvs, rfl⟩ : ∃ vs, loadAll tab i n = some vs ∧ vs = (tab.drop i.toNat).take n := by
    refine rounds_spec (P := fun k vs => vs = (tab.drop i.toNat).take k) List.take_zero.symm ?_
    rintro k hk _ rfl
    have hlt : (i + k).toNat < tab.length := by omega
    refine ⟨_, by rw [load_of_lt (by omega) hlt, Option.map_some], ?_⟩
    rw [List.take_add_one, List.getElem?_drop, show i.toNat + k = (i + k).toNat by omega,
      List.getElem?_eq_getElem hlt]
    rfl
  exact hvs

/-- What is read has the size of the range. -/
lemma length_of_loadAll {tab vs : List α} {i : ℤ} {n : ℕ} (h : loadAll tab i n = some vs) :
    vs.length = n := by
  refine rounds_keeps (P := fun k (vs : List α) => vs.length = k) h rfl ?_
  intro k _ vs vs' hlength hround
  obtain ⟨v, -, rfl⟩ := Option.map_eq_some_iff.mp hround
  rw [List.length_append, hlength, List.length_singleton]

/-- The last entry of a range. -/
lemma storeAll_succ (tab : List α) (i : ℤ) (n : ℕ) (value : ℕ → α) :
    storeAll tab i (n + 1) value =
      (storeAll tab i n value).bind fun tab => store tab (i + n) (value n) :=
  rounds_succ n _ tab

/-- Values from elsewhere that are the same. -/
lemma storeAll_congr (tab : List α) (i : ℤ) {n : ℕ} {value value' : ℕ → α}
    (h : ∀ k, k < n → value k = value' k) :
    storeAll tab i n value = storeAll tab i n value' :=
  rounds_congr (fun k hk tab => by rw [h k hk]) tab

/-- Stores change no length. -/
lemma length_of_storeAll {tab tab' : List α} {i : ℤ} {n : ℕ} {value : ℕ → α}
    (h : storeAll tab i n value = some tab') : tab'.length = tab.length :=
  rounds_keeps (P := fun _ (t : List α) => t.length = tab.length) h rfl
    fun _ _ _ _ hlength hround => (length_of_store hround).trans hlength

/-- **A range within an array is replaced**, and nothing else. -/
theorem storeAll_spec (tab : List α) {i : ℤ} {n : ℕ} (value : ℕ → α) (h0 : 0 ≤ i)
    (h : i + n ≤ tab.length) :
    ∃ tab', storeAll tab i n value = some tab' ∧ tab'.length = tab.length ∧
      ∀ k, tab'[k]? =
        if i.toNat ≤ k ∧ k < i.toNat + n then some (value (k - i.toNat)) else tab[k]? := by
  refine rounds_spec (P := fun m (t : List α) => t.length = tab.length ∧ ∀ k, t[k]? =
    if i.toNat ≤ k ∧ k < i.toNat + m then some (value (k - i.toNat)) else tab[k]?)
    ⟨rfl, fun k => (if_neg (by omega)).symm⟩ ?_
  rintro m hm t ⟨hlength, hget⟩
  refine ⟨t.set (i + m).toNat (value m), store_of_lt (by omega) (by omega) _,
    List.length_set.trans hlength, fun k => ?_⟩
  by_cases hlast : (i + m).toNat = k
  · rw [← hlast, List.getElem?_set_self (by omega), if_pos (by omega)]
    congr 2
    omega
  · rw [List.getElem?_set_ne hlast, hget]
    exact if_congr (by omega) rfl rfl

/-- A range that begins before an array is not replaced. -/
lemma storeAll_eq_none {tab : List α} {i : ℤ} {n : ℕ} (value : ℕ → α) (hi : i < 0) (hn : 0 < n) :
    storeAll tab i n value = none :=
  rounds_eq_none hn (store_eq_none_iff.mpr (Or.inl (by omega)))

end PanelFirmware.Lib.BoundedArray
