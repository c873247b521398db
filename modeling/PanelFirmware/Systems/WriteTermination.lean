import PanelFirmware.Lib.Loop
import PanelFirmware.Systems.Write

/-!
# When a call of `_write` returns

The loop of `_write` runs inside a critical section: the read pointer stands still, and no place
of the buffer becomes free. Where the read pointer is at the start of the buffer the loop does not
see a full buffer, and goes on over the bytes that are still to be sent; anywhere else it waits for
a place that never comes.

* `copyLoop_eq_runs`: the loop, as a loop with a body; `copyLoop_bound`: the rounds it takes.
* `copyEnds_iff_fits`: exactly when it is left.
* `returns_iff`: the same for a call in any reachable state.
-/

namespace PanelFirmware.Systems.Write

open PanelFirmware.Lib PanelFirmware.Lib.Ring

/-! ### The loop -/

/-- The variables of the loop: the buffer, the write pointer, and the bytes that are left. -/
abbrev CopyState : Type := (ℕ → Byte) × ℕ × List Byte

/-- A round of the loop. Source: `write.c` `_write`, `do { ... } while(numBytes)`. -/
def copyRound (bffRd : ℕ) (s : CopyState) : ((ℕ → Byte) × ℕ) ⊕ CopyState :=
  let n := numBytesToWrite bffRd s.2.1 s.2.2.length
  let buffer := store s.1 s.2.1 (s.2.2.take n)
  let bffWr := if s.2.1 + n = bffEnd then 0 else s.2.1 + n
  if s.2.2.drop n = [] then .inl (buffer, bffWr) else .inr (buffer, bffWr, s.2.2.drop n)

/-- The loop, as a loop with a body. -/
lemma copyLoop_eq_runs (bffRd rounds : ℕ) (buffer : ℕ → Byte) (bffWr : ℕ) (data : List Byte) :
    copyLoop bffRd rounds buffer bffWr data
      = Loop.runs (copyRound bffRd) rounds (buffer, bffWr, data) := by
  induction rounds generalizing buffer bffWr data with
  | zero => rfl
  | succ rounds ih =>
      by_cases hdone : data.drop (numBytesToWrite bffRd bffWr data.length) = []
      · simp only [copyLoop, Loop.runs, copyRound, if_pos hdone]
      · simp only [copyLoop, Loop.runs, copyRound, if_neg hdone]
        exact ih _ _ _

/-- The loop is left. -/
def CopyEnds (bffRd : ℕ) (buffer : ℕ → Byte) (bffWr : ℕ) (data : List Byte) : Prop :=
  ∃ r, Loop.Ends (copyRound bffRd) (buffer, bffWr, data) r

/-- The rounds of a loop that is left. -/
lemma copyEnds_iff {bffRd : ℕ} {buffer : ℕ → Byte} {bffWr : ℕ} {data : List Byte} :
    CopyEnds bffRd buffer bffWr data ↔
      ∃ rounds r, copyLoop bffRd rounds buffer bffWr data = some r := by
  simp only [copyLoop_eq_runs]
  exact exists_comm

/-- No round moves the write pointer past the end of the buffer. -/
lemma numBytesToWrite_le (bffRd bffWr numBytes : ℕ) :
    numBytesToWrite bffRd bffWr numBytes ≤ bffEnd - bffWr :=
  (Nat.min_le_left _ _).trans (Nat.min_le_right _ _)

/-- A round goes on if bytes are left after those it copies. -/
lemma copyRound_eq_inr {bffRd n : ℕ} {s : CopyState}
    (hn : numBytesToWrite bffRd s.2.1 s.2.2.length = n) (hrest : n < s.2.2.length) :
    copyRound bffRd s = .inr (store s.1 s.2.1 (s.2.2.take n),
      if s.2.1 + n = bffEnd then 0 else s.2.1 + n, s.2.2.drop n) := by
  have hsome : s.2.2.drop n ≠ [] := by
    rw [← List.length_pos_iff, List.length_drop]
    omega
  unfold copyRound
  rw [hn]
  exact if_neg hsome

/-- A round that goes on has copied some bytes and left others. -/
lemma exists_of_copyRound_inr {bffRd : ℕ} {s t : CopyState} (h : copyRound bffRd s = .inr t) :
    ∃ n, numBytesToWrite bffRd s.2.1 s.2.2.length = n ∧ n < s.2.2.length ∧
      t = (store s.1 s.2.1 (s.2.2.take n), if s.2.1 + n = bffEnd then 0 else s.2.1 + n,
        s.2.2.drop n) := by
  have hrest : numBytesToWrite bffRd s.2.1 s.2.2.length < s.2.2.length := by
    by_contra hall
    unfold copyRound at h
    dsimp only at h
    rw [if_pos (List.drop_eq_nil_of_le (not_lt.mp hall))] at h
    cases h
  rw [copyRound_eq_inr rfl hrest] at h
  exact ⟨_, rfl, hrest, (Sum.inr.inj h).symm⟩

/-- A round keeps the write pointer within the buffer. -/
lemma copyRound_wr_lt {bffRd : ℕ} {s t : CopyState} (hwr : s.2.1 < bffEnd)
    (h : copyRound bffRd s = .inr t) : t.2.1 < bffEnd := by
  obtain ⟨n, hn, -, rfl⟩ := exists_of_copyRound_inr h
  have hle := numBytesToWrite_le bffRd s.2.1 s.2.2.length
  dsimp only
  split_ifs <;> omega

/-- **The bound on the rounds.** If the loop ends at all it ends within one round more than there
are bytes: a round that copies nothing leaves everything as it was. -/
theorem copyLoop_bound {bffRd rounds : ℕ} {buffer : ℕ → Byte} {bffWr : ℕ} {data : List Byte}
    {r : (ℕ → Byte) × ℕ} (hwr : bffWr < bffEnd)
    (h : copyLoop bffRd rounds buffer bffWr data = some r) :
    copyLoop bffRd (data.length + 1) buffer bffWr data = some r := by
  have hless : ∀ s t : CopyState, s.2.1 < bffEnd → copyRound bffRd s = .inr t →
      t.2.2.length < s.2.2.length ∨ t = s := by
    intro s t hs hround
    obtain ⟨n, -, hrest, rfl⟩ := exists_of_copyRound_inr hround
    rcases Nat.eq_zero_or_pos n with rfl | hpos
    · rw [List.take_zero, List.drop_zero, Nat.add_zero, if_neg hs.ne, store]
      exact Or.inr rfl
    · dsimp only
      rw [List.length_drop]
      exact Or.inl (by omega)
  rw [copyLoop_eq_runs] at h ⊢
  exact Loop.runs_of_progress (fun s t hs hround => copyRound_wr_lt hs hround) hless
    (s := (buffer, bffWr, data)) hwr h

/-- With the read pointer at the start a round copies as many bytes as there are places up to the
end of the buffer. -/
lemma numBytesToWrite_zero {bffWr : ℕ} (hwr : bffWr < bffEnd) (numBytes : ℕ) :
    numBytesToWrite 0 bffWr numBytes = min (bffEnd - bffWr) numBytes := by
  unfold numBytesToWrite
  unfold bffEnd bffSize at *
  dsimp only
  split_ifs <;> omega

/-- **With the read pointer at the start the loop is left**, whatever is pending: no round copies
nothing. -/
lemma copyEnds_zero (buffer : ℕ → Byte) {bffWr : ℕ} (hwr : bffWr < bffEnd) (data : List Byte) :
    CopyEnds 0 buffer bffWr data := by
  have hless : ∀ s t : CopyState, s.2.1 < bffEnd → copyRound 0 s = .inr t →
      t.2.2.length < s.2.2.length := by
    intro s t hs h
    obtain ⟨n, hn, hrest, rfl⟩ := exists_of_copyRound_inr h
    rw [numBytesToWrite_zero hs] at hn
    dsimp only
    rw [List.length_drop]
    omega
  obtain ⟨r, hr⟩ := Loop.ends_of_measure (fun s t hs h => copyRound_wr_lt hs h) hless
    (s := (buffer, bffWr, data)) hwr
  exact ⟨r, _, hr⟩

/-- Behind the read pointer, a call with more bytes than places never returns. -/
lemma not_copyEnds_of_lt {bffRd bffWr : ℕ} (hlt : bffWr < bffRd) (hrd : bffRd ≤ bffEnd)
    {data : List Byte} (hlong : bffRd - bffWr - 1 < data.length) (buffer : ℕ → Byte) :
    ¬ CopyEnds bffRd buffer bffWr data := by
  rintro ⟨r, hends⟩
  refine Loop.not_ends (I := fun s => s.2.1 < bffRd ∧ bffRd - s.2.1 - 1 < s.2.2.length) ?_
    ⟨hlt, hlong⟩ r hends
  rintro ⟨buffer, bffWr, data⟩ ⟨hlt, hlong⟩
  dsimp only at hlt hlong
  -- the round takes all the places there are, and the next one finds none
  have hn : numBytesToWrite bffRd bffWr data.length = bffRd - bffWr - 1 := by
    unfold numBytesToWrite
    rw [if_pos hlt, Nat.min_eq_left (by omega), Nat.min_eq_left (by omega)]
  have hwrap : ¬ bffWr + (bffRd - bffWr - 1) = bffEnd := by omega
  refine ⟨_, copyRound_eq_inr hn hlong, ?_⟩
  dsimp only
  rw [if_neg hwrap, List.length_drop]
  omega

/-- **Anywhere else a call with more bytes than places never returns.** -/
lemma not_copyEnds {bffRd bffWr : ℕ} (hrd : bffRd < bffEnd) (hwr : bffWr < bffEnd)
    (hpos : bffRd ≠ 0) {data : List Byte}
    (hlong : bffEnd ≤ between bffEnd bffRd bffWr + data.length) (buffer : ℕ → Byte) :
    ¬ CopyEnds bffRd buffer bffWr data := by
  unfold between at hlong
  by_cases hlt : bffWr < bffRd
  · rw [if_neg (by omega)] at hlong
    exact not_copyEnds_of_lt hlt hrd.le (by omega) buffer
  · -- the first round fills the buffer up to its end, and the others start before the read pointer
    rw [if_pos (by omega)] at hlong
    have hn : numBytesToWrite bffRd bffWr data.length = bffEnd - bffWr := by
      unfold numBytesToWrite
      rw [if_neg hlt]
      unfold bffEnd bffSize at *
      dsimp only
      omega
    have hrest : bffEnd - bffWr < data.length := by omega
    have hround : copyRound bffRd (buffer, bffWr, data) = _ := copyRound_eq_inr hn hrest
    rw [if_pos (Nat.add_sub_cancel' hwr.le)] at hround
    rintro ⟨r, hends⟩
    refine not_copyEnds_of_lt (Nat.pos_of_ne_zero hpos) hrd.le ?_ _
      ⟨r, (Loop.ends_inr hround).mp hends⟩
    change _ < (data.drop _).length
    rw [List.length_drop]
    omega

/-- **When the loop is left**: the read pointer is at the start, or the bytes fit. -/
theorem copyEnds_iff_fits {bffRd bffWr : ℕ} (hrd : bffRd < bffEnd) (hwr : bffWr < bffEnd)
    (buffer : ℕ → Byte) (data : List Byte) :
    CopyEnds bffRd buffer bffWr data ↔
      bffRd = 0 ∨ between bffEnd bffRd bffWr + data.length < bffEnd := by
  constructor
  · intro hends
    by_contra hnone
    push Not at hnone
    exact not_copyEnds hrd hwr hnone.1 hnone.2 buffer hends
  · rintro (rfl | hfits)
    · exact copyEnds_zero buffer hwr data
    · obtain ⟨buffer', hloop, -⟩ := copyLoop_spec hrd buffer hwr (Nat.lt_succ_self data.length)
        hfits
      exact copyEnds_iff.mpr ⟨_, _, hloop⟩

/-! ### The reachable states -/

/-- Both pointers lie within the buffer, before its last place. -/
structure PointersIn (s : State) : Prop where
  rd_lt : s.bffRd < bffEnd
  wr_lt : s.bffWr < bffEnd

/-- Starting a segment keeps the pointers within the buffer. -/
lemma PointersIn.txHandler {s : State} (h : PointersIn s) : PointersIn (Write.txHandler s) := by
  have hrd := h.rd_lt
  have hwr := h.wr_lt
  cases hrun : s.txRun with
  | true =>
      rw [txHandler_of_run hrun]
      exact h
  | false =>
      rcases lt_trichotomy s.bffRd s.bffWr with hlt | heq | hgt
      · rw [txHandler_of_lt hrun hwr hlt]
        exact ⟨hwr, hwr⟩
      · rw [txHandler_of_eq heq]
        exact h
      · rw [txHandler_of_gt hrun hgt]
        exact ⟨show 0 < bffEnd by decide, hwr⟩

/-- A loop that is left leaves the write pointer within the buffer. -/
lemma copyLoop_wr_lt {bffRd rounds : ℕ} {buffer : ℕ → Byte} {bffWr : ℕ} {data : List Byte}
    {r : (ℕ → Byte) × ℕ} (hwr : bffWr < bffEnd)
    (h : copyLoop bffRd rounds buffer bffWr data = some r) : r.2 < bffEnd := by
  have hends : Loop.Ends (copyRound bffRd) (buffer, bffWr, data) r :=
    ⟨rounds, (copyLoop_eq_runs _ _ _ _ _).symm.trans h⟩
  refine hends.keeps (I := fun s => s.2.1 < bffEnd) (Q := fun r => r.2 < bffEnd)
    (fun s t hs hround => copyRound_wr_lt hs hround) (fun s r hs hround => ?_) hwr
  have hle := numBytesToWrite_le bffRd s.2.1 s.2.2.length
  unfold copyRound at hround
  dsimp only at hround
  split_ifs at hround with hdone hend <;> obtain rfl := Sum.inl.inj hround
  · exact (show 0 < bffEnd by decide)
  · change s.2.1 + _ < bffEnd
    omega

/-- Every step keeps the pointers within the buffer, whether its bytes fit or not. -/
lemma PointersIn.step {s t : State} (h : PointersIn s) {e : Event}
    (hstep : Write.step s e = some t) : PointersIn t := by
  cases e with
  | write data =>
      obtain ⟨r, hloop, hrest⟩ := Option.bind_eq_some_iff.mp hstep
      obtain rfl := Option.some.inj hrest
      exact PointersIn.txHandler ⟨h.rd_lt, copyLoop_wr_lt h.wr_lt hloop⟩
  | dmaByte =>
      simp only [Write.step] at hstep
      split_ifs at hstep
      obtain rfl := Option.some.inj hstep
      exact ⟨h.rd_lt, h.wr_lt⟩
  | txComplete =>
      simp only [Write.step] at hstep
      split_ifs at hstep
      obtain rfl := Option.some.inj hstep
      exact PointersIn.txHandler ⟨h.rd_lt, h.wr_lt⟩

/-- The pointers of a reachable state. -/
lemma pointersIn_of_run {es : List Event} {s : State} (hrun : Machine.run step init es = some s) :
    PointersIn s := by
  have hinit : PointersIn init := ⟨by decide, by decide⟩
  exact Machine.run_invariant (I := PointersIn) (fun _ _ _ h hstep => h.step hstep) hinit hrun

/-- **When a call returns.** In every state that any run of calls, transmitted bytes and interrupts
reaches, and for every number of bytes: the loop of `_write` is left if and only if the read
pointer is at the start of the buffer, or the bytes together with those that no segment has been
started for leave a place of the buffer free. -/
theorem returns_iff {es : List Event} {s : State} (hrun : Machine.run step init es = some s)
    (data : List Byte) :
    (∃ rounds r, copyLoop s.bffRd rounds s.buffer s.bffWr data = some r) ↔
      s.bffRd = 0 ∨ s.pending + data.length < bffEnd := by
  have hin := pointersIn_of_run hrun
  rw [← copyEnds_iff]
  exact copyEnds_iff_fits hin.rd_lt hin.wr_lt s.buffer data

/-- A first call of 5000 bytes. -/
theorem returns_first :
    (∃ rounds r, copyLoop init.bffRd rounds init.buffer init.bffWr (List.replicate 5000 0)
        = some r) ↔
      init.bffRd = 0 ∨ init.pending + (List.replicate 5000 (0 : Byte)).length < bffEnd := by
  have hrun : Machine.run step init [] = some init := rfl
  exact returns_iff hrun (List.replicate 5000 0)

/-- **A call hangs** with the interrupts masked: a call of 4095 bytes after one of a single byte. -/
theorem not_returns :
    ¬ ∀ (es : List Event) (s : State) (data : List Byte), Machine.run step init es = some s →
      data.length ≤ 2 ^ 31 - 1 →
      ∃ rounds r, copyLoop s.bffRd rounds s.buffer s.bffWr data = some r := by
  intro h
  have hrun : ∃ s, Machine.run step init [.write [0]] = some s ∧ s.bffRd = 1 ∧ s.bffWr = 1 :=
    ⟨_, rfl, rfl, rfl⟩
  obtain ⟨s, hs, hrd, hwr⟩ := hrun
  have hreturns := h _ s (List.replicate 4095 0) hs (by rw [List.length_replicate]; decide)
  rw [hrd, hwr] at hreturns
  refine not_copyEnds (by decide) (by decide) (by decide) ?_ s.buffer (copyEnds_iff.mpr hreturns)
  rw [List.length_replicate]
  decide

end PanelFirmware.Systems.Write
