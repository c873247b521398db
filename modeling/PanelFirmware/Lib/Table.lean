import Mathlib

/-!
# Tables of values at addresses

A table is a partial map from addresses to values. Reading and writing a range of addresses
succeeds when every address of the range is there.

* `write_write`: the last of two writes of the same range counts; `write_self`: writing the same
  values again changes nothing.
* `read_ofList`, `write_ofList`: a list of values from a first address on.
-/

namespace PanelFirmware.Lib

/-- The values at addresses. -/
abbrev Table (α : Type) := ℕ → Option α

namespace Table

variable {α β : Type} {t t' : Table α} {a n : ℕ} {vs : List α}

/-- Every address of a range is there. -/
def Covers (t : Table α) (a n : ℕ) : Prop := ∀ i, i < n → (t (a + i)).isSome

instance (t : Table α) (a n : ℕ) : Decidable (Covers t a n) :=
  inferInstanceAs (Decidable (∀ i, i < n → (t (a + i)).isSome))

/-- The values of a range. -/
def read (t : Table α) (a n : ℕ) : Option (List α) :=
  if Covers t a n then some ((List.range n).filterMap fun i => t (a + i)) else none

/-- The table with the values of a range replaced. -/
def write (t : Table α) (a : ℕ) (vs : List α) : Option (Table α) :=
  if Covers t a vs.length then
    some fun x => if a ≤ x ∧ x < a + vs.length then vs[x - a]? else t x
  else none

/-- The values of a range that is covered. -/
lemma filterMap_range {f : ℕ → Option α} (h : ∀ i, i < n → (f i).isSome) :
    ((List.range n).filterMap f).length = n ∧
      ∀ i, i < n → ((List.range n).filterMap f)[i]? = f i := by
  induction n with
  | zero => exact ⟨rfl, fun i hi => absurd hi (Nat.not_lt_zero i)⟩
  | succ n ih =>
      obtain ⟨hlength, hget⟩ := ih fun i hi => h i (Nat.lt_succ_of_lt hi)
      obtain ⟨v, hv⟩ := Option.isSome_iff_exists.mp (h n (Nat.lt_succ_self n))
      rw [List.range_succ, List.filterMap_append, List.filterMap_cons_some hv, List.filterMap_nil]
      refine ⟨by rw [List.length_append, hlength, List.length_singleton], fun i hi => ?_⟩
      rcases Nat.lt_succ_iff_lt_or_eq.mp hi with hlt | rfl
      · rw [List.getElem?_append_left (by omega), hget i hlt]
      · rw [List.getElem?_append_right (by omega), hlength, Nat.sub_self, hv]
        rfl

/-- What is read are the values at the addresses. -/
lemma read_eq_some_iff :
    read t a n = some vs ↔ vs.length = n ∧ ∀ i, i < n → t (a + i) = vs[i]? := by
  constructor
  · intro h
    rw [read] at h
    split_ifs at h with hcovers
    obtain ⟨hlength, hget⟩ := filterMap_range hcovers
    rw [← Option.some.inj h]
    exact ⟨hlength, fun i hi => (hget i hi).symm⟩
  · rintro ⟨hlength, hget⟩
    have hcovers : Covers t a n := by
      intro i hi
      rw [hget i hi, List.getElem?_eq_getElem (by omega)]
      rfl
    obtain ⟨hlength', hget'⟩ := filterMap_range hcovers
    rw [read, if_pos hcovers]
    refine congrArg some (List.ext_getElem? fun i => ?_)
    by_cases hi : i < n
    · rw [hget' i hi, hget i hi]
    · rw [List.getElem?_eq_none (by omega), List.getElem?_eq_none (by omega)]

/-- A range that is not covered is not read. -/
lemma read_eq_none_iff : read t a n = none ↔ ¬ Covers t a n := by
  rw [read]
  split_ifs with h
  · exact iff_of_false (fun h => (by cases h)) (not_not_intro h)
  · exact iff_of_true rfl h

/-- A range that is not covered is not written. -/
lemma write_eq_none_iff : write t a vs = none ↔ ¬ Covers t a vs.length := by
  rw [write]
  split_ifs with h
  · exact iff_of_false (fun h => (by cases h)) (not_not_intro h)
  · exact iff_of_true rfl h

/-- What a write leaves at an address. -/
lemma write_apply (h : write t a vs = some t') (x : ℕ) :
    t' x = if a ≤ x ∧ x < a + vs.length then vs[x - a]? else t x := by
  rw [write] at h
  split_ifs at h with hcovers
  rw [← Option.some.inj h]

/-- A write leaves the same addresses there. -/
lemma write_covers (h : write t a vs = some t') (b m : ℕ) : Covers t' b m ↔ Covers t b m := by
  have hcovers : Covers t a vs.length := by
    rw [write] at h
    split_ifs at h with hcovers
    exact hcovers
  have hsome : ∀ x, (t' x).isSome = (t x).isSome := by
    intro x
    rw [write_apply h]
    split_ifs with hx
    · have hthere := hcovers (x - a) (by omega)
      rw [show a + (x - a) = x by omega] at hthere
      rw [hthere, List.getElem?_eq_getElem (by omega)]
      rfl
    · rfl
  exact forall_congr' fun i => imp_congr_right fun _ => by rw [hsome]

/-- **The last of two writes of a range counts.** -/
theorem write_write {vs' : List α} (h : write t a vs = some t') (hlength : vs'.length = vs.length) :
    write t' a vs' = write t a vs' := by
  have hcovers := write_covers h a vs'.length
  rw [write, write]
  by_cases hc : Covers t a vs'.length
  · rw [if_pos hc, if_pos (hcovers.mpr hc)]
    refine congrArg some (funext fun x => ?_)
    rw [write_apply h, hlength]
    split_ifs <;> rfl
  · rw [if_neg hc, if_neg fun h => hc (hcovers.mp h)]

/-- **Writing the same values again changes nothing.** -/
theorem write_self (h : write t a vs = some t') : write t' a vs = some t' := by
  rw [write_write h rfl, h]

/-! ### Lists -/

/-- A list of values from an address on. -/
def ofList (start : ℤ) (l : List α) : Table α :=
  fun x => if start ≤ x then l[(x - start).toNat]? else none

/-- A range of a list is covered when it lies within it. -/
lemma covers_ofList (start : ℤ) (l : List α) (a : ℕ) {n : ℕ} (hn : 0 < n) :
    Covers (ofList start l) a n ↔ ¬((a : ℤ) - start < 0 ∨ (a : ℤ) - start + n > l.length) := by
  constructor
  · intro h
    have hfirst := h 0 hn
    have hlast := h (n - 1) (by omega)
    rw [ofList] at hfirst hlast
    split_ifs at hfirst hlast with hstart hstart'
    · rw [Option.isSome_iff_exists] at hlast
      obtain ⟨v, hv⟩ := hlast
      obtain ⟨hlt, -⟩ := List.getElem?_eq_some_iff.mp hv
      omega
    · cases hlast
    · cases hfirst
    · cases hfirst
  · intro h i hi
    rw [ofList, if_pos (by omega), List.getElem?_eq_getElem (by omega)]
    rfl

/-- The values of a range of a list. -/
lemma read_ofList (start : ℤ) (l : List α) (a : ℕ) {n : ℕ} (hn : 0 < n) :
    read (ofList start l) a n =
      if (a : ℤ) - start < 0 ∨ (a : ℤ) - start + n > l.length then none
      else some ((l.drop ((a : ℤ) - start).toNat).take n) := by
  split_ifs with hrange
  · rw [read_eq_none_iff, covers_ofList start l a hn]
    exact not_not_intro hrange
  · rw [read_eq_some_iff, List.length_take, List.length_drop]
    refine ⟨by omega, fun i hi => ?_⟩
    rw [ofList, if_pos (by omega), List.getElem?_take_of_lt hi, List.getElem?_drop]
    congr 1
    omega

/-- A range of a list that is not there is not replaced. -/
lemma write_ofList_eq_none {start : ℤ} {l : List α} (hvs : 0 < vs.length)
    (hrange : (a : ℤ) - start < 0 ∨ (a : ℤ) - start + vs.length > l.length) :
    write (ofList start l) a vs = none := by
  rw [write_eq_none_iff, covers_ofList start l a hvs]
  exact not_not_intro hrange

/-- A range of a list replaced. -/
lemma write_ofList {start : ℤ} {l l' : List α} (hvs : 0 < vs.length)
    (hrange : ¬((a : ℤ) - start < 0 ∨ (a : ℤ) - start + vs.length > l.length))
    (hget : ∀ i, l'[i]? =
      if ((a : ℤ) - start).toNat ≤ i ∧ i < ((a : ℤ) - start).toNat + vs.length
      then vs[i - ((a : ℤ) - start).toNat]? else l[i]?) :
    write (ofList start l) a vs = some (ofList start l') := by
  rw [write, if_pos ((covers_ofList start l a hvs).mpr hrange)]
  refine congrArg some (funext fun x => ?_)
  rw [ofList, ofList]
  by_cases hx : start ≤ x
  · rw [if_pos hx, if_pos hx, hget]
    by_cases hin : a ≤ x ∧ x < a + vs.length
    · rw [if_pos hin, if_pos (by omega),
        show (x - start).toNat - ((a : ℤ) - start).toNat = x - a by omega]
    · rw [if_neg hin, if_neg (by omega)]
  · rw [if_neg hx, if_neg hx, if_neg (by omega)]

/-- A value of a list replaced. -/
lemma write_set {start : ℤ} {l : List α} (v : α)
    (hrange : ¬((a : ℤ) - start < 0 ∨ (a : ℤ) - start ≥ l.length)) :
    write (ofList start l) a [v] = some (ofList start (l.set ((a : ℤ) - start).toNat v)) := by
  have hlength : ([v] : List α).length = 1 := rfl
  refine write_ofList Nat.one_pos (by rw [hlength]; omega) fun i => ?_
  rw [hlength]
  by_cases hi : ((a : ℤ) - start).toNat = i
  · rw [if_pos (by omega), ← hi, List.getElem?_set_self (by omega), Nat.sub_self]
    rfl
  · rw [if_neg (by omega), List.getElem?_set_ne hi]

/-- A value of a list that is not there is not replaced. -/
lemma write_set_eq_none {start : ℤ} {l : List α} (v : α)
    (hrange : (a : ℤ) - start < 0 ∨ (a : ℤ) - start ≥ l.length) :
    write (ofList start l) a [v] = none := by
  refine write_ofList_eq_none Nat.one_pos ?_
  rw [List.length_singleton]
  omega

/-- The values through a function. -/
def map (f : α → β) (t : Table α) : Table β := fun x => (t x).map f

/-- A list of values through a function. -/
lemma map_ofList (f : α → β) (start : ℤ) (l : List α) :
    map f (ofList start l) = ofList start (l.map f) := by
  funext x
  rw [map, ofList, ofList]
  split_ifs
  · rw [List.getElem?_map]
  · rfl

end Table

end PanelFirmware.Lib
