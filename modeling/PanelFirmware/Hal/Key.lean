import PanelFirmware.Lib.Loop

/-!
# `hal/src/key.c`: the keyboard

Seven keys are sampled together. Their debounced states and their events are bits of shared words,
their counters are elements of shared arrays.

* `KeyType.keyProc`, `KeyType.ksSet`: the two calls, on the shared state.
* `OneKey`: what the code does to one of the keys; `view_keyProc`: the shared state is seven of
  them.
* `toward`: how far the filter has moved towards a level, by which both levels are one case.
* `keys`: the filter, the debounced level and the events of every key, in every run.
-/

namespace PanelFirmware.Hal.Key

open PanelFirmware.Lib

/-! ### The code -/

/-- Source: `key.h` `KEY_NUM`. -/
def keyNum : ℕ := 7

/-- Source: `key.h` `KEY_SAMPLES`. -/
def keySamples : ℕ := 2

/-- Source: `key.h` `key_type`. The counters and the two delays are of eight bits. -/
structure KeyType where
  dInState : BitVec 32
  dInPrevState : BitVec 32
  keyState : BitVec 32
  reiterationSelect : BitVec 32
  toFirstReiteration : ℕ
  toReiteration : ℕ
  dInFilterCnt : Fin keyNum → ℕ
  toFirstReiterationCnt : Fin keyNum → ℕ
  toReiterationCnt : Fin keyNum → ℕ

/-- The state at the start. Source: `key.c` `key`, in memory that the start-up code clears. -/
def init : KeyType := ⟨0, 0, 0, 0, 0, 0, fun _ => 0, fun _ => 0, fun _ => 0⟩

/-- The bit of a key. Source: `key.c`, `1U << num`. -/
def mask (num : Fin keyNum) : BitVec 32 := 1 <<< num.val

/-- Source: `key.c` `dInUpdate`. -/
def KeyType.dInUpdate (k : KeyType) (num : Fin keyNum) (val : Bool) : KeyType :=
  if val then
    if k.dInFilterCnt num < keySamples then
      { k with
        dInFilterCnt := Function.update k.dInFilterCnt num ((k.dInFilterCnt num + 1) % 256) }
    else { k with dInState := k.dInState ||| mask num }
  else
    if k.dInFilterCnt num > 0 then
      { k with dInFilterCnt := Function.update k.dInFilterCnt num (k.dInFilterCnt num - 1) }
    else { k with dInState := k.dInState &&& ~~~mask num }

/-- The front of one key. Source: `key.c` `keyProc`, "Detect signal front". -/
def KeyType.detectFront (k : KeyType) (iterator : Fin keyNum) : KeyType :=
  if k.dInPrevState &&& mask iterator = 0 ∧ k.dInState &&& mask iterator ≠ 0 then
    { k with keyState := k.keyState ||| mask iterator }
  else { k with keyState := k.keyState &&& ~~~mask iterator }

/-- The repeat of one key. Source: `key.c` `keyProc`, "Reiteration". -/
def KeyType.reiterate (k : KeyType) (iterator : Fin keyNum) : KeyType :=
  if k.reiterationSelect &&& mask iterator ≠ 0 then
    if k.dInState &&& mask iterator ≠ 0 then
      if k.toFirstReiterationCnt iterator < k.toFirstReiteration then
        { k with
          toFirstReiterationCnt := Function.update k.toFirstReiterationCnt iterator
            ((k.toFirstReiterationCnt iterator + 1) % 256) }
      else if k.toReiterationCnt iterator < k.toReiteration then
        { k with
          toReiterationCnt := Function.update k.toReiterationCnt iterator
            ((k.toReiterationCnt iterator + 1) % 256) }
      else
        { k with
          keyState := k.keyState ||| mask iterator
          toReiterationCnt := Function.update k.toReiterationCnt iterator 0 }
    else
      { k with
        toFirstReiterationCnt := Function.update k.toFirstReiterationCnt iterator 0
        toReiterationCnt := Function.update k.toReiterationCnt iterator 0 }
  else k

/-- Source: `key.c` `keyProc`. The argument says which keys are pressed, that is, which of the
seven pins are low. -/
def KeyType.keyProc (k : KeyType) (pressed : Fin keyNum → Bool) : BitVec 32 × KeyType :=
  let k := (List.finRange keyNum).foldl (fun k num => k.dInUpdate num (pressed num)) k
  let k := (List.finRange keyNum).foldl (fun k num => (k.detectFront num).reiterate num) k
  let k := { k with dInPrevState := k.dInState }
  (k.keyState, k)

/-- Source: `key.c` `ksSet`. The delays are stored in eight bits. -/
def KeyType.ksSet (k : KeyType) (toFirstReiteration toReiteration reiterationKeyMask : BitVec 16) :
    KeyType :=
  { k with
    toFirstReiteration := toFirstReiteration.toNat % 256
    toReiteration := toReiteration.toNat % 256
    reiterationSelect := reiterationKeyMask.setWidth 32 }

/-- The calls that change the state: a scan of the keys, and the settings of a screen. -/
inductive Call where
  | keyProc (pressed : Fin keyNum → Bool)
  | ksSet (toFirstReiteration toReiteration reiterationKeyMask : BitVec 16)

/-- The state after a call. -/
def KeyType.step (k : KeyType) : Call → KeyType
  | .keyProc pressed => (k.keyProc pressed).2
  | .ksSet first reiteration selected => k.ksSet first reiteration selected

/-- The state after a run of calls. -/
def KeyType.run (k : KeyType) (calls : List Call) : KeyType := calls.foldl KeyType.step k

/-- What a scan was and did for one key: the sample, the debounced state before and after, whether
the key was selected for repeat, and whether its bit was set in the result. -/
structure Scan where
  sample : Bool
  before : Bool
  after : Bool
  selected : Bool
  event : Bool

/-- A debounced transition. -/
def Scan.transition (s : Scan) : Bool := s.before != s.after

/-- A debounced 0-to-1 transition. -/
def Scan.rising (s : Scan) : Bool := !s.before && s.after

/-- The scans of one key in a run. -/
def KeyType.scans (i : Fin keyNum) : KeyType → List Call → List Scan
  | _, [] => []
  | k, .keyProc pressed :: calls =>
      let (keyState, k') := k.keyProc pressed
      { sample := pressed i
        before := k.dInState.getLsbD i
        after := k'.dInState.getLsbD i
        selected := k.reiterationSelect.getLsbD i
        event := keyState.getLsbD i } :: KeyType.scans i k' calls
  | k, .ksSet first reiteration selected :: calls =>
      KeyType.scans i (k.ksSet first reiteration selected) calls

/-! ### One-bit masks -/

/-- A mask tests the bit of its key. -/
lemma and_mask_eq_zero (x : BitVec 32) (i : Fin keyNum) :
    x &&& mask i = 0 ↔ x.getLsbD i = false := by
  have hi : i.val < 32 := i.isLt.trans (by decide)
  have htwo : mask i = BitVec.twoPow 32 i := (BitVec.twoPow_eq 32 i).symm
  have hne : BitVec.twoPow 32 i.val ≠ 0 := by
    intro h
    have hbit := congrArg (fun y : BitVec 32 => y.getLsbD i) h
    simp [hi] at hbit
  rw [htwo, BitVec.and_twoPow]
  cases hx : x.getLsbD i
  · simp
  · simpa using hne

/-- The bits of a mask. -/
lemma getLsbD_mask (i j : Fin keyNum) : (mask i).getLsbD j = decide (i = j) := by
  have hi : i.val < 32 := i.isLt.trans (by decide)
  have htwo : mask i = BitVec.twoPow 32 i := (BitVec.twoPow_eq 32 i).symm
  rw [htwo, BitVec.getLsbD_twoPow]
  simp only [hi, decide_true, Bool.true_and, Fin.ext_iff]

/-- Setting the bit of a key. -/
lemma getLsbD_or_mask (x : BitVec 32) (i j : Fin keyNum) :
    (x ||| mask i).getLsbD j = if j = i then true else x.getLsbD j := by
  rw [BitVec.getLsbD_or, getLsbD_mask]
  by_cases h : j = i
  · simp [h]
  · simp [h, Ne.symm h]

/-- Clearing the bit of a key. -/
lemma getLsbD_and_not_mask (x : BitVec 32) (i j : Fin keyNum) :
    (x &&& ~~~mask i).getLsbD j = if j = i then false else x.getLsbD j := by
  have hj : j.val < 32 := j.isLt.trans (by decide)
  rw [BitVec.getLsbD_and, BitVec.getLsbD_not, getLsbD_mask]
  by_cases h : j = i
  · simp [h]
  · simp [h, Ne.symm h, hj]

/-! ### One key -/

/-- The part of the shared state that concerns one key. -/
structure OneKey where
  level : Bool
  prev : Bool
  event : Bool
  selected : Bool
  toFirstReiteration : ℕ
  toReiteration : ℕ
  filter : ℕ
  first : ℕ
  reiteration : ℕ

/-- The part of the shared state that concerns the key. -/
def KeyType.view (i : Fin keyNum) (k : KeyType) : OneKey where
  level := k.dInState.getLsbD i
  prev := k.dInPrevState.getLsbD i
  event := k.keyState.getLsbD i
  selected := k.reiterationSelect.getLsbD i
  toFirstReiteration := k.toFirstReiteration
  toReiteration := k.toReiteration
  filter := k.dInFilterCnt i
  first := k.toFirstReiterationCnt i
  reiteration := k.toReiterationCnt i

/-- The filter of one key. -/
def OneKey.debounce (o : OneKey) (sample : Bool) : OneKey :=
  if sample then
    if o.filter < keySamples then { o with filter := (o.filter + 1) % 256 }
    else { o with level := true }
  else
    if o.filter > 0 then { o with filter := o.filter - 1 }
    else { o with level := false }

/-- The front and the repeat of one key. -/
def OneKey.detect (o : OneKey) : OneKey :=
  let front := !o.prev && o.level
  if o.selected then
    if o.level then
      if o.first < o.toFirstReiteration then
        { o with event := front, first := (o.first + 1) % 256 }
      else if o.reiteration < o.toReiteration then
        { o with event := front, reiteration := (o.reiteration + 1) % 256 }
      else { o with event := true, reiteration := 0 }
    else { o with event := front, first := 0, reiteration := 0 }
  else { o with event := front }

/-- A scan of one key. -/
def OneKey.scan (o : OneKey) (sample : Bool) : OneKey :=
  let o := (o.debounce sample).detect
  { o with prev := o.level }

variable (k : KeyType) {i j : Fin keyNum}

/-- The filter of a key leaves the other keys. -/
lemma view_dInUpdate_of_ne (h : j ≠ i) (val : Bool) : (k.dInUpdate j val).view i = k.view i := by
  unfold KeyType.dInUpdate KeyType.view
  split_ifs <;>
    simp only [getLsbD_or_mask, getLsbD_and_not_mask, Function.update_of_ne h.symm, if_neg h.symm]

/-- The filter of a key. -/
lemma view_dInUpdate (i : Fin keyNum) (val : Bool) :
    (k.dInUpdate i val).view i = (k.view i).debounce val := by
  unfold KeyType.dInUpdate OneKey.debounce KeyType.view
  dsimp only
  split_ifs <;>
    simp only [getLsbD_or_mask, getLsbD_and_not_mask, Function.update_self, if_true]

/-- The front and the repeat of a key leave the other keys. -/
lemma view_detect_of_ne (h : j ≠ i) :
    ((k.detectFront j).reiterate j).view i = k.view i := by
  have hfront : (k.detectFront j).view i = k.view i := by
    unfold KeyType.detectFront KeyType.view
    split_ifs <;> simp only [getLsbD_or_mask, getLsbD_and_not_mask, if_neg h.symm]
  rw [← hfront]
  generalize k.detectFront j = k'
  unfold KeyType.reiterate KeyType.view
  split_ifs <;> simp only [getLsbD_or_mask, Function.update_of_ne h.symm, if_neg h.symm]

/-- The front and the repeat of a key. -/
lemma view_detect (i : Fin keyNum) :
    ((k.detectFront i).reiterate i).view i = (k.view i).detect := by
  have hfront : (k.detectFront i).view i
      = { k.view i with event := !(k.view i).prev && (k.view i).level } := by
    unfold KeyType.detectFront KeyType.view
    simp only [ne_eq, and_mask_eq_zero, Bool.not_eq_false]
    split_ifs with h
    · simp only [getLsbD_or_mask, if_true, h.1, h.2, Bool.not_false, Bool.and_self]
    · have hnone : (!k.dInPrevState.getLsbD i && k.dInState.getLsbD i) = false := by
        rw [Bool.eq_false_iff, ne_eq, Bool.and_eq_true, Bool.not_eq_true']
        exact h
      simp only [getLsbD_and_not_mask, if_true, hnone]
  have hreiterate (k' : KeyType) : (k'.reiterate i).view i =
      if (k'.view i).selected then
        if (k'.view i).level then
          if (k'.view i).first < (k'.view i).toFirstReiteration then
            { k'.view i with first := ((k'.view i).first + 1) % 256 }
          else if (k'.view i).reiteration < (k'.view i).toReiteration then
            { k'.view i with reiteration := ((k'.view i).reiteration + 1) % 256 }
          else { k'.view i with event := true, reiteration := 0 }
        else { k'.view i with first := 0, reiteration := 0 }
      else k'.view i := by
    unfold KeyType.reiterate KeyType.view
    simp only [ne_eq, and_mask_eq_zero, Bool.not_eq_false]
    split_ifs <;> simp only [getLsbD_or_mask, Function.update_self, if_true]
  rw [hreiterate, hfront]
  rfl

/-- **The shared state is seven keys**: a scan does to each of them what the code does to one. -/
theorem view_keyProc (pressed : Fin keyNum → Bool) (i : Fin keyNum) :
    (k.keyProc pressed).2.view i = (k.view i).scan (pressed i) := by
  have hfilter := Loop.foldl_part (f := fun k num => k.dInUpdate num (pressed num))
    (g := fun o => o.debounce (pressed i)) (fun k j hj => view_dInUpdate_of_ne k hj (pressed j))
    (fun k => view_dInUpdate k i (pressed i)) (List.nodup_finRange keyNum) (List.mem_finRange i) k
  have hdetect := fun k => Loop.foldl_part (f := fun k num => (k.detectFront num).reiterate num)
    (g := OneKey.detect) (fun k j hj => view_detect_of_ne k hj) (fun k => view_detect k i)
    (List.nodup_finRange keyNum) (List.mem_finRange i) k
  unfold OneKey.scan
  rw [← hfilter, ← hdetect]
  rfl

/-! ### Runs of one key -/

/-- The key after a call. -/
def OneKey.step (i : Fin keyNum) (o : OneKey) : Call → OneKey
  | .keyProc pressed => o.scan (pressed i)
  | .ksSet first reiteration selected =>
      { o with
        toFirstReiteration := first.toNat % 256
        toReiteration := reiteration.toNat % 256
        selected := (selected.setWidth 32).getLsbD i }

/-- The key after a run of calls. -/
def OneKey.run (i : Fin keyNum) (o : OneKey) (calls : List Call) : OneKey :=
  calls.foldl (OneKey.step i) o

/-- What a scan is and does. -/
def OneKey.record (o : OneKey) (sample : Bool) : Scan where
  sample := sample
  before := o.level
  after := (o.scan sample).level
  selected := o.selected
  event := (o.scan sample).event

/-- The scans in a run. -/
def OneKey.scans (i : Fin keyNum) : OneKey → List Call → List Scan
  | _, [] => []
  | o, .keyProc pressed :: calls =>
      o.record (pressed i) :: OneKey.scans i (o.scan (pressed i)) calls
  | o, .ksSet first reiteration selected :: calls =>
      OneKey.scans i (o.step i (.ksSet first reiteration selected)) calls

/-- A call does to each key what it does to one. -/
lemma view_step (c : Call) : (k.step c).view i = (k.view i).step i c := by
  cases c with
  | keyProc pressed => exact view_keyProc k pressed i
  | ksSet first reiteration selected => rfl

/-- A run does to each key what it does to one. -/
lemma view_run (calls : List Call) : (k.run calls).view i = (k.view i).run i calls := by
  induction calls generalizing k with
  | nil => rfl
  | cons c calls ih =>
      unfold KeyType.run OneKey.run at ih ⊢
      rw [List.foldl_cons, List.foldl_cons, ih, view_step]

/-- The scans of a key in a run are those of the key by itself. -/
lemma scans_eq (calls : List Call) : k.scans i calls = (k.view i).scans i calls := by
  induction calls generalizing k with
  | nil => rfl
  | cons c calls ih =>
      cases c with
      | keyProc pressed =>
          have hview := view_keyProc k pressed i
          unfold KeyType.scans OneKey.scans
          dsimp only
          rw [ih, hview, OneKey.record, ← hview]
          rfl
      | ksSet first reiteration selected => exact ih _

/-- A scan in a run happens in a state of the run. -/
lemma exists_of_scans {o : OneKey} {calls : List Call} {pre post : List Scan} {s : Scan}
    (h : o.scans i calls = pre ++ s :: post) :
    ∃ calls₁ pressed calls₂, calls = calls₁ ++ Call.keyProc pressed :: calls₂ ∧
      o.scans i calls₁ = pre ∧ s = (o.run i calls₁).record (pressed i) ∧
      ((o.run i calls₁).scan (pressed i)).scans i calls₂ = post := by
  induction calls generalizing o pre with
  | nil => exact absurd h (by simp [OneKey.scans])
  | cons c calls ih =>
      cases c with
      | ksSet first reiteration selected =>
          obtain ⟨calls₁, pressed, calls₂, hcalls, hpre, hs, hpost⟩ := ih h
          exact ⟨.ksSet first reiteration selected :: calls₁, pressed, calls₂,
            congrArg _ hcalls, hpre, hs, hpost⟩
      | keyProc pressed =>
          cases pre with
          | nil =>
              obtain ⟨hs, hpost⟩ := List.cons.inj h
              exact ⟨[], pressed, calls, rfl, rfl, hs.symm, hpost⟩
          | cons s₀ pre =>
              obtain ⟨hs₀, hrest⟩ := List.cons.inj h
              obtain ⟨calls₁, pressed₁, calls₂, hcalls, hpre, hs, hpost⟩ := ih hrest
              exact ⟨.keyProc pressed :: calls₁, pressed₁, calls₂, congrArg _ hcalls,
                congrArg₂ List.cons hs₀ hpre, hs, hpost⟩

/-! ### The filter and the debounced level -/

/-- Between two calls: the filter is within its range, and the state before is the state. -/
structure OneKey.Inv (o : OneKey) : Prop where
  filter : o.filter ≤ keySamples
  prev : o.prev = o.level

/-- How far the filter has moved towards a level. -/
def OneKey.toward (o : OneKey) (v : Bool) : ℕ := if v then o.filter else keySamples - o.filter

/-- What the front and the repeat leave. -/
lemma detect_frame (o : OneKey) : o.detect.level = o.level ∧ o.detect.filter = o.filter := by
  unfold OneKey.detect
  split_ifs <;> exact ⟨rfl, rfl⟩

/-- A scan moves the filter towards its sample; when the filter is there, it sets the level. -/
lemma scan_toward {o : OneKey} (h : o.filter ≤ keySamples) (v : Bool) :
    (o.toward v < keySamples ∧ (o.scan v).toward v = o.toward v + 1 ∧
        (o.scan v).level = o.level) ∨
      (o.toward v = keySamples ∧ (o.scan v).toward v = keySamples ∧ (o.scan v).level = v) := by
  obtain ⟨hlevel, hfilter⟩ := detect_frame (o.debounce v)
  unfold OneKey.toward OneKey.scan
  dsimp only
  rw [hlevel, hfilter]
  unfold OneKey.debounce
  unfold keySamples at h ⊢
  cases v
  · simp only [Bool.false_eq_true, if_false]
    split_ifs with hpos
    · exact Or.inl ⟨by omega, by dsimp only; omega, rfl⟩
    · exact Or.inr ⟨by omega, by dsimp only; omega, rfl⟩
  · simp only [if_true]
    split_ifs with hlt
    · exact Or.inl ⟨hlt, by dsimp only; omega, rfl⟩
    · exact Or.inr ⟨by omega, by dsimp only; omega, rfl⟩

/-- The two directions of the filter. -/
lemma toward_not {o : OneKey} (h : o.filter ≤ keySamples) (v : Bool) :
    o.toward (!v) + o.toward v = keySamples := by
  unfold OneKey.toward
  cases v
  · exact Nat.add_sub_cancel' h
  · exact Nat.sub_add_cancel h

/-- A scan keeps the filter within its range. -/
lemma scan_filter {o : OneKey} (h : o.filter ≤ keySamples) (v : Bool) :
    (o.scan v).filter ≤ keySamples := by
  have hfilter := (detect_frame (o.debounce v)).2
  unfold OneKey.scan
  dsimp only
  rw [hfilter]
  unfold OneKey.debounce
  split_ifs
  · dsimp only
    omega
  · exact h
  · exact (Nat.sub_le _ 1).trans h
  · exact h

/-- A call keeps the invariant. -/
lemma OneKey.Inv.step {o : OneKey} (h : o.Inv) (c : Call) : (o.step i c).Inv := by
  cases c with
  | keyProc pressed => exact ⟨scan_filter h.filter _, rfl⟩
  | ksSet first reiteration selected => exact ⟨h.filter, h.prev⟩

/-- A run keeps the invariant. -/
lemma OneKey.Inv.run {o : OneKey} (h : o.Inv) (calls : List Call) : (o.run i calls).Inv := by
  induction calls generalizing o with
  | nil => exact h
  | cons c calls ih => exact ih (h.step c)

/-- At the start. -/
lemma init_inv (i : Fin keyNum) : (init.view i).Inv := ⟨Nat.zero_le _, rfl⟩

/-- Equal samples bring the filter to their level, and then the debounced state. -/
lemma level_of_equal {o : OneKey} (h : o.Inv) {v : Bool} {calls : List Call}
    (hsample : ∀ s ∈ o.scans i calls, s.sample = v)
    (hlong : keySamples < o.toward v + (o.scans i calls).length ∨ o.level = v) :
    (o.run i calls).level = v := by
  induction calls generalizing o with
  | nil =>
      refine hlong.resolve_left fun hlt => ?_
      have hsum := toward_not h.filter v
      rw [OneKey.scans, List.length_nil] at hlt
      omega
  | cons c calls ih =>
      cases c with
      | ksSet first reiteration selected => exact ih (h.step _) hsample hlong
      | keyProc pressed =>
          obtain ⟨hv, hrest⟩ := List.forall_mem_cons.mp hsample
          obtain rfl : pressed i = v := hv
          refine ih (h.step (.keyProc pressed)) hrest ?_
          rw [OneKey.scans, List.length_cons] at hlong
          change keySamples < (o.scan (pressed i)).toward _ +
            ((o.scan (pressed i)).scans i calls).length ∨ (o.scan (pressed i)).level = _
          rcases scan_toward h.filter (pressed i) with ⟨-, hnext, hlevel⟩ | ⟨-, -, hlevel⟩
          · rw [hnext, hlevel]
            exact hlong.imp_left fun hlt => by omega
          · exact Or.inr hlevel

/-- The filter moves towards a level by no more than the samples at that level. -/
lemma toward_le_count {o : OneKey} (h : o.Inv) (u : Bool) (calls : List Call) :
    (o.run i calls).toward u ≤
      o.toward u + (o.scans i calls).countP (fun s => s.sample == u) := by
  induction calls generalizing o with
  | nil => exact Nat.le_add_right _ _
  | cons c calls ih =>
      cases c with
      | ksSet first reiteration selected => exact ih (h.step _)
      | keyProc pressed =>
          have hrest := ih (h.step (i := i) (.keyProc pressed))
          have hsum := toward_not h.filter (pressed i)
          have hsum' := toward_not (scan_filter h.filter (pressed i)) (pressed i)
          rw [OneKey.scans, List.countP_cons]
          change (o.run i (.keyProc pressed :: calls)).toward u ≤
            (o.scan (pressed i)).toward u +
              ((o.scan (pressed i)).scans i calls).countP (fun s => s.sample == u) at hrest
          refine hrest.trans ?_
          by_cases hu : pressed i = u
          · subst hu
            simp only [OneKey.record, BEq.rfl, if_true]
            rcases scan_toward h.filter (pressed i) with ⟨-, hnext, -⟩ | ⟨hat, hnext, -⟩ <;> omega
          · obtain rfl : u = !pressed i := (Bool.eq_not_of_ne (Ne.symm hu))
            rcases scan_toward h.filter (pressed i) with ⟨-, hnext, -⟩ | ⟨hat, hnext, -⟩ <;> omega

/-- A debounced transition goes to the level of its sample, with the filter there. -/
lemma toward_of_transition {o : OneKey} (h : o.Inv) {v : Bool}
    (htrans : (o.record v).transition = true) :
    o.toward v = keySamples ∧ (o.scan v).toward v = keySamples ∧ (o.scan v).level = v := by
  refine (scan_toward h.filter v).resolve_left fun hstay => ?_
  unfold Scan.transition OneKey.record at htrans
  dsimp only at htrans
  rw [hstay.2.2, bne_self_eq_false] at htrans
  cases htrans

/-- Between two opposite transitions enough samples are at the new level. -/
lemma count_between {o : OneKey} (h : o.Inv) {calls : List Call} {pre mid post : List Scan}
    {a c : Scan} (hscans : o.scans i calls = pre ++ a :: (mid ++ c :: post))
    (ha : a.transition = true) (hc : c.transition = true) (hopposite : c.after ≠ a.after) :
    keySamples + 1 ≤ (mid ++ [c]).countP fun s => s.sample == c.after := by
  obtain ⟨calls₁, pressed, calls₂, -, -, rfl, hmid⟩ := exists_of_scans hscans
  have h₁ := h.run (i := i) calls₁
  obtain ⟨-, hat, hlevel⟩ := toward_of_transition h₁ ha
  obtain ⟨calls₃, pressed', calls₄, -, rfl, rfl, -⟩ := exists_of_scans hmid
  have h₂ := h₁.step (i := i) (.keyProc pressed)
  change (((o.run i calls₁).scan (pressed i))).Inv at h₂
  obtain ⟨hat', -, hlevel'⟩ := toward_of_transition (h₂.run (i := i) calls₃) hc
  -- the filter starts at the other end and has to get to this one
  change (OneKey.scan _ (pressed' i)).level ≠ (OneKey.scan _ (pressed i)).level at hopposite
  rw [hlevel, hlevel'] at hopposite
  have hother : pressed i = !pressed' i := Bool.eq_not_of_ne hopposite.symm
  have hsum := toward_not h₂.filter (pressed i)
  have hcount := toward_le_count h₂ (pressed' i) (i := i) calls₃
  have hflip : (!pressed i) = pressed' i := by rw [hother, Bool.not_not]
  rw [hflip] at hsum
  rw [List.countP_append, List.countP_singleton]
  change _ ≤ List.countP (fun s : Scan => s.sample == (OneKey.scan _ (pressed' i)).level) _ +
    if (pressed' i == (OneKey.scan _ (pressed' i)).level) = true then 1 else 0
  rw [hlevel', BEq.rfl, if_pos rfl]
  omega

/-! ### Events -/

/-- What a scan leaves, and what it remembers of the level. -/
lemma scan_frame (o : OneKey) (v : Bool) :
    (o.scan v).selected = o.selected ∧ (o.scan v).toFirstReiteration = o.toFirstReiteration ∧
      (o.scan v).toReiteration = o.toReiteration ∧ (o.scan v).prev = (o.scan v).level := by
  unfold OneKey.scan OneKey.detect OneKey.debounce
  dsimp only
  split_ifs <;> exact ⟨rfl, rfl, rfl, rfl⟩

/-- What the filter leaves. -/
lemma debounce_frame (o : OneKey) (v : Bool) :
    ∃ level filter, o.debounce v = { o with level := level, filter := filter } := by
  unfold OneKey.debounce
  split_ifs <;> exact ⟨_, _, rfl⟩

/-- A scan of a key that is not selected. -/
lemma event_of_unselected {o : OneKey} (h : o.Inv) (hsel : o.selected = false) (v : Bool) :
    (o.record v).event = (o.record v).rising := by
  unfold OneKey.record Scan.rising
  dsimp only
  rw [← h.prev]
  obtain ⟨level, filter, hdebounce⟩ := debounce_frame o v
  unfold OneKey.scan OneKey.detect
  rw [hdebounce]
  simp only [hsel, Bool.false_eq_true, if_false]

/-- A scan that finds the key up. -/
lemma event_of_up {o : OneKey} {v : Bool} (h : (o.scan v).level = false) :
    (o.scan v).event = false := by
  have hlevel : (o.debounce v).level = false := (detect_frame _).1.symm.trans h
  unfold OneKey.scan OneKey.detect
  dsimp only
  simp only [hlevel, Bool.and_false, Bool.false_eq_true, if_false]
  split_ifs <;> rfl

/-- A scan that finds a selected key down: the key waits for its first repeat, or for the next
one, or repeats. -/
lemma scan_down {o : OneKey} (hsel : o.selected = true) {v : Bool}
    (h : (o.scan v).level = true) :
    (o.first < o.toFirstReiteration ∧ (o.scan v).first = (o.first + 1) % 256 ∧
        (o.scan v).reiteration = o.reiteration ∧ (o.scan v).event = !o.prev) ∨
      (o.toFirstReiteration ≤ o.first ∧ (o.scan v).first = o.first ∧
        o.reiteration < o.toReiteration ∧ (o.scan v).reiteration = (o.reiteration + 1) % 256 ∧
        (o.scan v).event = !o.prev) ∨
      (o.toFirstReiteration ≤ o.first ∧ (o.scan v).first = o.first ∧
        o.toReiteration ≤ o.reiteration ∧ (o.scan v).reiteration = 0 ∧
        (o.scan v).event = true) := by
  have hlevel : (o.debounce v).level = true := (detect_frame _).1.symm.trans h
  obtain ⟨level, filter, hdebounce⟩ := debounce_frame o v
  rw [hdebounce] at hlevel
  obtain rfl : level = true := hlevel
  unfold OneKey.scan OneKey.detect
  rw [hdebounce]
  simp only [hsel, if_true, Bool.and_true]
  split_ifs with hfirst hreiteration
  · exact Or.inl ⟨hfirst, rfl, rfl, rfl⟩
  · exact Or.inr (Or.inl ⟨Nat.le_of_not_lt hfirst, rfl, hreiteration, rfl, rfl⟩)
  · exact Or.inr (Or.inr
      ⟨Nat.le_of_not_lt hfirst, rfl, Nat.le_of_not_lt hreiteration, rfl, rfl⟩)

/-- A key that is selected for repeat, with its two delays. -/
structure OneKey.Repeats (o : OneKey) (first reiteration : ℕ) : Prop where
  selected : o.selected = true
  toFirst : o.toFirstReiteration = first
  toReiteration : o.toReiteration = reiteration

/-- A call that leaves the repeat settings of the key: no `ksSet`, or one with the same delays that
selects the key. -/
def Call.Keeps (i : Fin keyNum) (toFirst toReiteration : BitVec 16) : Call → Prop
  | .keyProc _ => True
  | .ksSet first reiteration selected =>
      first = toFirst ∧ reiteration = toReiteration ∧ selected.getLsbD i = true

instance (i : Fin keyNum) (toFirst toReiteration : BitVec 16) :
    (c : Call) → Decidable (c.Keeps i toFirst toReiteration)
  | .keyProc _ => isTrue trivial
  | .ksSet first reiteration selected =>
      inferInstanceAs (Decidable (first = toFirst ∧ reiteration = toReiteration ∧
        selected.getLsbD i = true))

/-- The settings of a `ksSet` that selects the key. -/
lemma repeats_ksSet {first reiteration selected : BitVec 16} (hsel : selected.getLsbD i = true)
    (hfirst : first.toNat ≤ 255) (hreiteration : reiteration.toNat ≤ 255) (o : OneKey) :
    (o.step i (.ksSet first reiteration selected)).Repeats first.toNat reiteration.toNat := by
  refine ⟨?_, Nat.mod_eq_of_lt (by omega), Nat.mod_eq_of_lt (by omega)⟩
  have hi : i.val < 32 := i.isLt.trans (by decide)
  change (selected.setWidth 32).getLsbD i = true
  rw [BitVec.getLsbD_setWidth, hsel, decide_eq_true hi, Bool.and_true]

/-- A call that leaves the settings leaves them. -/
lemma OneKey.Repeats.step {o : OneKey} {first reiteration : BitVec 16}
    (h : o.Repeats first.toNat reiteration.toNat) (hfirst : first.toNat ≤ 255)
    (hreiteration : reiteration.toNat ≤ 255) {c : Call} (hc : c.Keeps i first reiteration) :
    (o.step i c).Repeats first.toNat reiteration.toNat := by
  cases c with
  | keyProc pressed =>
      obtain ⟨hsel, hf, hr, -⟩ := scan_frame o (pressed i)
      exact ⟨hsel.trans h.selected, hf.trans h.toFirst, hr.trans h.toReiteration⟩
  | ksSet f r selected =>
      obtain ⟨rfl, rfl, hsel⟩ := hc
      exact repeats_ksSet hsel hfirst hreiteration o

/-- A run of such calls leaves them. -/
lemma OneKey.Repeats.run {o : OneKey} {first reiteration : BitVec 16}
    (h : o.Repeats first.toNat reiteration.toNat) (hfirst : first.toNat ≤ 255)
    (hreiteration : reiteration.toNat ≤ 255) {calls : List Call}
    (hcalls : ∀ c ∈ calls, c.Keeps i first reiteration) :
    (o.run i calls).Repeats first.toNat reiteration.toNat := by
  induction calls generalizing o with
  | nil => exact h
  | cons c calls ih =>
      obtain ⟨hc, hrest⟩ := List.forall_mem_cons.mp hcalls
      exact ih (h.step hfirst hreiteration hc) hrest

/-- The events of a key that is down already: its counters have got some way. -/
lemma count_down {o : OneKey} {first reiteration : BitVec 16}
    (h : o.Repeats first.toNat reiteration.toNat) (hfirst : first.toNat ≤ 255)
    (hreiteration : reiteration.toNat ≤ 255) (hprev : o.prev = true)
    (hle : o.first ≤ first.toNat) (hle' : o.reiteration ≤ reiteration.toNat) {calls : List Call}
    (hcalls : ∀ c ∈ calls, c.Keeps i first reiteration)
    (hdown : ∀ s ∈ o.scans i calls, s.after = true) :
    (o.scans i calls).countP Scan.event =
      ((o.scans i calls).length - (first.toNat - o.first) + o.reiteration) /
        (reiteration.toNat + 1) := by
  induction calls generalizing o with
  | nil =>
      refine (Nat.div_eq_of_lt ?_).symm
      rw [OneKey.scans, List.length_nil]
      omega
  | cons c calls ih =>
      obtain ⟨hc, hrest⟩ := List.forall_mem_cons.mp hcalls
      have hstep := h.step hfirst hreiteration hc
      cases c with
      | ksSet f r selected => exact ih hstep hprev hle hle' hrest hdown
      | keyProc pressed =>
          obtain ⟨hdown₁, hdown₂⟩ := List.forall_mem_cons.mp hdown
          change (o.scan (pressed i)).level = true at hdown₁
          change (o.scan (pressed i)).Repeats _ _ at hstep
          have hprev' := (scan_frame o (pressed i)).2.2.2.trans hdown₁
          have hcases := scan_down h.selected hdown₁
          rw [h.toFirst, h.toReiteration, hprev, Bool.not_true] at hcases
          rw [OneKey.scans, List.countP_cons, List.length_cons]
          change _ + (if (o.scan (pressed i)).event = true then 1 else 0) = _
          rcases hcases with ⟨hlt, hf, hr, he⟩ | ⟨hge, hf, hlt, hr, he⟩ | ⟨hge, hf, hge', hr, he⟩
          · rw [ih hstep hprev' (by omega) (by omega) hrest hdown₂, he, hf, hr]
            simp only [Bool.false_eq_true, if_false, Nat.add_zero]
            congr 1
            omega
          · rw [ih hstep hprev' (by omega) (by omega) hrest hdown₂, he, hf, hr]
            simp only [Bool.false_eq_true, if_false, Nat.add_zero]
            congr 1
            omega
          · rw [ih hstep hprev' (by omega) (by omega) hrest hdown₂, he, hf, hr, if_pos rfl,
              ← Nat.add_div_right _ (Nat.succ_pos _)]
            congr 1
            omega

/-- The events of a key that goes down with its counters at zero. -/
lemma count_hold {o : OneKey} (hinv : o.Inv) {first reiteration : BitVec 16}
    (h : o.Repeats first.toNat reiteration.toNat) (hfirst : first.toNat ≤ 255)
    (hreiteration : reiteration.toNat ≤ 255) (hpos : 1 ≤ first.toNat + reiteration.toNat)
    (hup : o.level = false) (hf : o.first = 0) (hr : o.reiteration = 0) {calls : List Call}
    (hcalls : ∀ c ∈ calls, c.Keeps i first reiteration)
    (hdown : ∀ s ∈ o.scans i calls, s.after = true) (hlong : 1 ≤ (o.scans i calls).length) :
    (o.scans i calls).countP Scan.event =
      1 + ((o.scans i calls).length - first.toNat) / (reiteration.toNat + 1) := by
  induction calls generalizing o with
  | nil => cases hlong
  | cons c calls ih =>
      obtain ⟨hc, hrest⟩ := List.forall_mem_cons.mp hcalls
      have hstep := h.step hfirst hreiteration hc
      cases c with
      | ksSet f r selected => exact ih (hinv.step _) hstep hup hf hr hrest hdown hlong
      | keyProc pressed =>
          obtain ⟨hdown₁, hdown₂⟩ := List.forall_mem_cons.mp hdown
          change (o.scan (pressed i)).level = true at hdown₁
          change (o.scan (pressed i)).Repeats _ _ at hstep
          have hprev' := (scan_frame o (pressed i)).2.2.2.trans hdown₁
          have hcases := scan_down h.selected hdown₁
          rw [h.toFirst, h.toReiteration, hinv.prev, hup, hf, hr, Bool.not_false] at hcases
          rw [OneKey.scans, List.countP_cons, List.length_cons]
          change _ + (if (o.scan (pressed i)).event = true then 1 else 0) = _
          -- the front is the one event of this scan, and one of the counters has advanced
          rcases hcases with ⟨hlt, hf', hr', he⟩ | ⟨hge, hf', hlt, hr', he⟩ | ⟨hge, -, hge', -, -⟩
          · rw [count_down hstep hfirst hreiteration hprev' (by omega) (by omega) hrest hdown₂, he,
              hf', hr', if_pos rfl, Nat.add_comm 1]
            congr 2
            omega
          · rw [count_down hstep hfirst hreiteration hprev' (by omega) (by omega) hrest hdown₂, he,
              hf', hr', if_pos rfl, Nat.add_comm 1]
            congr 2
            omega
          · omega

/-! ### All keys -/

/-- A run goes on from where another ends. -/
lemma run_append (calls calls' : List Call) : k.run (calls ++ calls') = (k.run calls).run calls' :=
  List.foldl_append

/-- **The keyboard.** In every run, for each key, whatever the samples of the others: the filter
counter stays within its range; samples that are equal for one longer than that set the debounced
state; between two opposite transitions as many samples are at the new level; as long as the key is
not selected for repeat its events are its 0-to-1 transitions, and a scan that finds it up is no
event; and a hold of a selected key, from counters at zero and with unchanged settings, is one event
and then one after the first delay and after each repeat delay. -/
theorem keys (calls : List Call) (i : Fin keyNum) :
    (init.run calls).dInFilterCnt i ≤ keySamples ∧
    (∀ (calls' : List Call) (v : Bool), (∀ s ∈ (init.run calls).scans i calls', s.sample = v) →
      keySamples + 1 ≤ ((init.run calls).scans i calls').length →
      (init.run (calls ++ calls')).dInState.getLsbD i = v) ∧
    (∀ pre mid post a c, init.scans i calls = pre ++ a :: (mid ++ c :: post) →
      a.transition = true → c.transition = true → c.after ≠ a.after →
      keySamples + 1 ≤ (mid ++ [c]).countP fun s => s.sample == c.after) ∧
    (∀ part, part <:+: init.scans i calls → (∀ s ∈ part, s.selected = false) →
      part.countP Scan.event = part.countP Scan.rising) ∧
    (∀ s ∈ init.scans i calls, s.after = false → s.event = false) ∧
    ∀ (first reiteration selected : BitVec 16) (idle hold : List Call),
      first.toNat ≤ 255 → reiteration.toNat ≤ 255 → 1 ≤ first.toNat + reiteration.toNat →
      selected.getLsbD i = true → (∀ c ∈ idle ++ hold, c.Keeps i first reiteration) →
      let k := init.run (calls ++ Call.ksSet first reiteration selected :: idle)
      k.dInState.getLsbD i = false → k.toFirstReiterationCnt i = 0 → k.toReiterationCnt i = 0 →
      (∀ s ∈ k.scans i hold, s.after = true) → 1 ≤ (k.scans i hold).length →
      (k.scans i hold).countP Scan.event =
        if first.toNat ≤ (k.scans i hold).length then
          1 + ((k.scans i hold).length - first.toNat) / (reiteration.toNat + 1)
        else 1 := by
  have hview := view_run init calls (i := i)
  have hinv := (init_inv i).run (i := i) calls
  rw [← hview] at hinv
  refine ⟨hinv.filter, fun calls' v hsample hlong => ?_,
    fun pre mid post a c hscans ha hc hne => ?_, fun part hpart hsel => ?_,
    fun s hs hafter => ?_, ?_⟩
  · rw [scans_eq] at hsample hlong
    have hrun := view_run (init.run calls) calls' (i := i)
    rw [run_append]
    change ((((init.run calls).run calls')).view i).level = v
    rw [hrun]
    exact level_of_equal hinv hsample (Or.inl (hlong.trans (Nat.le_add_left _ _)))
  · rw [scans_eq] at hscans
    exact count_between (init_inv i) hscans ha hc hne
  · refine List.countP_congr fun s hs => ?_
    obtain ⟨pre, post, hscans⟩ := List.append_of_mem (hpart.mem hs)
    rw [scans_eq] at hscans
    obtain ⟨calls₁, pressed, calls₂, -, -, rfl, -⟩ := exists_of_scans hscans
    rw [event_of_unselected ((init_inv i).run calls₁) (hsel _ hs)]
  · obtain ⟨pre, post, hscans⟩ := List.append_of_mem hs
    rw [scans_eq] at hscans
    obtain ⟨calls₁, pressed, calls₂, -, -, rfl, -⟩ := exists_of_scans hscans
    exact event_of_up hafter
  · intro first reiteration selected idle hold hfirst hreiteration hpos hsel hkeeps k hup hf hr
      hdown hlong
    obtain ⟨hidle, hhold⟩ := List.forall_mem_append.mp hkeeps
    have hk : k.view i = (((init.run calls).view i).step i
        (.ksSet first reiteration selected)).run i idle := by
      unfold k
      rw [run_append, view_run]
      rfl
    have hrepeats := (repeats_ksSet hsel hfirst hreiteration ((init.run calls).view i)).run
      hfirst hreiteration hidle
    have hinv' := (hinv.step (i := i) (.ksSet first reiteration selected)).run (i := i) idle
    rw [← hk] at hrepeats hinv'
    rw [scans_eq] at hdown hlong ⊢
    rw [count_hold hinv' hrepeats hfirst hreiteration hpos hup hf hr hhold hdown hlong]
    split_ifs with hN
    · rfl
    · rw [Nat.sub_eq_zero_of_le (Nat.le_of_not_le hN), Nat.zero_div]

/-- Source: `key.h` `kUp`, by its number. -/
def kUp : Fin keyNum := ⟨5, by decide⟩

/-- A scan with the one key pressed. -/
def scanUp : Call := .keyProc fun i => i == kUp

/-- Five scans of a held key, after two that only fill its filter, with the delays 2 and 1. -/
theorem keys_held :
    ((init.run ([] ++ Call.ksSet 2 1 32 :: List.replicate 2 scanUp)).scans kUp
      (List.replicate 5 scanUp)).countP Scan.event = 2 := by
  have hlength : ((init.run ([] ++ Call.ksSet 2 1 32 :: List.replicate 2 scanUp)).scans kUp
      (List.replicate 5 scanUp)).length = 5 := by decide +kernel
  have hheld := (keys [] kUp).2.2.2.2.2 2 1 32 (List.replicate 2 scanUp)
    (List.replicate 5 scanUp) (by decide) (by decide) (by decide) (by decide) (by decide)
    (by decide +kernel) (by decide +kernel) (by decide +kernel) (by decide +kernel)
    (by decide +kernel)
  rw [hlength] at hheld
  exact hheld

end PanelFirmware.Hal.Key
