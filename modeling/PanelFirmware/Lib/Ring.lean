import Mathlib

/-!
# Circular buffers

The cells of a circular buffer of `N` places are a function of the position. The queue they hold
is read off from a start position, wrapping around after the last place (`contents`); it is filled
a stretch at a time, each within the linear run of places (`store`).

* `contents_add`: a queue is its front and the rest.
* `storeInPage_eq_store`: a store that wraps inside a page is linear as long as it does not.
* `contents_store`: a stretch stored behind the queue is appended to it, while the places last.
-/

namespace PanelFirmware.Lib.Ring

variable {α : Type}

/-- The `count` elements from a start position on. -/
def contents (N : ℕ) (cells : ℕ → α) (start count : ℕ) : List α :=
  (List.range count).map fun i => cells ((start + i) % N)

/-- The elements of a list stored one after the other from a position on. -/
def store (cells : ℕ → α) (a : ℕ) : List α → ℕ → α
  | [] => cells
  | b :: bs => store (Function.update cells a b) (a + 1) bs

/-- The elements of a list stored from a position on, wrapping around inside its page of `P`
places. -/
def storeInPage (P : ℕ) (cells : ℕ → α) (a : ℕ) : List α → ℕ → α
  | [] => cells
  | b :: bs => storeInPage P (Function.update cells a b) (a / P * P + (a + 1) % P) bs

/-- The positions between two of a circular buffer, from the first up to the second. -/
def between (N a b : ℕ) : ℕ := if a ≤ b then b - a else N - a + b

variable {N : ℕ} {cells : ℕ → α}

/-! ### Reading -/

@[simp] lemma length_contents (N : ℕ) (cells : ℕ → α) (start count : ℕ) :
    (contents N cells start count).length = count := by
  rw [contents, List.length_map, List.length_range]

/-- **A queue is its front and the rest.** -/
theorem contents_add (N : ℕ) (cells : ℕ → α) (start m n : ℕ) :
    contents N cells start (m + n)
      = contents N cells start m ++ contents N cells (start + m) n := by
  unfold contents
  rw [List.range_add, List.map_append, List.map_map]
  simp only [Function.comp_def, Nat.add_assoc]

/-- The first element and the rest. -/
lemma contents_succ (N : ℕ) (cells : ℕ → α) (start count : ℕ) :
    contents N cells start (count + 1)
      = cells (start % N) :: contents N cells (start + 1) count := by
  rw [Nat.add_comm count 1, contents_add]
  rfl

/-- The start position counts modulo the places. -/
lemma contents_mod (N : ℕ) (cells : ℕ → α) (start count : ℕ) :
    contents N cells (start % N) count = contents N cells start count := by
  unfold contents
  simp only [Nat.mod_add_mod]

/-- Within the linear run of places a queue is read in order. -/
lemma contents_of_le {start count : ℕ} (h : start + count ≤ N) :
    contents N cells start count = (List.range count).map fun i => cells (start + i) := by
  refine List.map_congr_left fun i hi => ?_
  have hlt := List.mem_range.mp hi
  rw [Nat.mod_eq_of_lt (by omega)]

/-! ### Storing -/

/-- Storing leaves the positions before and behind alone. -/
lemma store_of_outside {a x : ℕ} {l : List α} (h : x < a ∨ a + l.length ≤ x) :
    store cells a l x = cells x := by
  induction l generalizing cells a with
  | nil => rfl
  | cons b bs ih =>
      rw [List.length_cons] at h
      rw [store, ih (by omega), Function.update_of_ne (by omega)]

/-- A position before those of a list is changed before or after the list is stored. -/
lemma store_update {a x : ℕ} (h : x < a) (v : α) (l : List α) :
    store (Function.update cells x v) a l = Function.update (store cells a l) x v := by
  induction l generalizing cells a with
  | nil => rfl
  | cons b bs ih =>
      rw [store, store, Function.update_comm h.ne, ih (Nat.lt_succ_of_lt h)]

/-- A list is stored a part at a time. -/
lemma store_append (cells : ℕ → α) (a : ℕ) (l l' : List α) :
    store cells a (l ++ l') = store (store cells a l) (a + l.length) l' := by
  induction l generalizing cells a with
  | nil => rfl
  | cons b bs ih =>
      rw [List.cons_append, store, ih, store, List.length_cons, Nat.add_assoc,
        Nat.add_comm 1 bs.length]

/-- **A store that stays inside a page is linear.** -/
theorem storeInPage_eq_store {P a : ℕ} {l : List α} (h : a % P + l.length ≤ P) :
    storeInPage P cells a l = store cells a l := by
  induction l generalizing cells a with
  | nil => rfl
  | cons b bs ih =>
      rw [List.length_cons] at h
      rw [storeInPage, store]
      cases bs with
      | nil => rfl
      | cons c cs =>
          rw [List.length_cons] at h
          have hnext : (a + 1) % P = a % P + 1 := by
            rw [Nat.add_mod, Nat.mod_eq_of_lt (show 1 < P by omega),
              Nat.mod_eq_of_lt (show a % P + 1 < P by omega)]
          have hlinear : a / P * P + (a + 1) % P = a + 1 := by
            rw [hnext, ← Nat.add_assoc, Nat.div_add_mod']
          rw [hlinear]
          refine ih ?_
          rw [hnext, List.length_cons]
          omega

/-- What was stored is read back. -/
lemma store_read {a : ℕ} (l : List α) :
    (List.range l.length).map (fun i => store cells a l (a + i)) = l := by
  induction l generalizing cells a with
  | nil => rfl
  | cons b bs ih =>
      have hfirst : store cells a (b :: bs) a = b := by
        rw [store, store_of_outside (by omega), Function.update_self]
      have hrest : (List.range bs.length).map
          (fun i => store (Function.update cells a b) (a + 1) bs (a + 1 + i)) = bs := ih
      rw [List.length_cons, List.range_succ_eq_map, List.map_cons, List.map_map, Nat.add_zero,
        hfirst]
      refine congrArg (List.cons b) (Eq.trans (List.map_congr_left fun i _ => ?_) hrest)
      change store cells a (b :: bs) (a + (i + 1)) = _
      rw [Nat.add_comm i 1, ← Nat.add_assoc, store]

/-- **Appending.** A stretch within the linear run of places, stored at the position behind a
queue, is appended to the queue, if there are places for both. -/
theorem contents_store {start count a : ℕ} {l : List α} (hbehind : (start + count) % N = a)
    (hlinear : a + l.length ≤ N) (hroom : count + l.length ≤ N) :
    contents N (store cells a l) start (count + l.length)
      = contents N cells start count ++ l := by
  rw [contents_add]
  congr 1
  · -- no place of the queue is written
    refine List.map_congr_left fun i hi => store_of_outside ?_
    have hlt := List.mem_range.mp hi
    by_contra hin
    push Not at hin
    obtain ⟨j, hj⟩ := Nat.exists_eq_add_of_le hin.1
    have hbound : j < l.length := by omega
    have hmod : (start + i) % N = (start + (count + j)) % N := by
      rw [hj, ← hbehind, ← Nat.add_assoc, Nat.add_mod (start + count) j, hbehind,
        Nat.mod_eq_of_lt (show j < N by omega), Nat.mod_eq_of_lt (show a + j < N by omega)]
    have hsame : i ≡ count + j [MOD N] := Nat.ModEq.add_left_cancel' start hmod
    have heq := hsame.eq_of_lt_of_lt (by omega) (by omega)
    omega
  · rw [← contents_mod, hbehind, contents_of_le hlinear]
    exact store_read l

end PanelFirmware.Lib.Ring
