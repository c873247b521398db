import PanelFirmware.Systems.WriteTermination

/-!
# Where the pointers of the log point

`bffEnd` is the last byte of the buffer, and both pointers are put back to the start when they reach
it, so that this byte is never used. Between the copying of a round and the test the write pointer
may stand there; nothing else runs then.

* `segments`: the segments that are passed to `uart_write`; `txHandler_segments`: they are the ones
  that `txHandler` starts.
* `stored`: the places that a round of a call writes; `copyRound_buffer`: it writes no others.
* `pointers_bounded`: the pointers, the places written, and the segments.
-/

namespace PanelFirmware.Systems.Write

open PanelFirmware.Lib

/-! ### The segments -/

/-- The start and the length of every segment that is passed to `uart_write`: the two branches, of
which the second sees the read pointer that the first has moved.
Source: `write.c` `txHandler`; `_write`, "Send from UART". -/
def segments (s : State) : List (ℕ × ℕ) :=
  if s.txRun then []
  else
    let first := if s.bffRd < s.bffWr then [(s.bffRd, s.bffWr - s.bffRd)] else []
    let bffRd := if s.bffRd < s.bffWr then s.bffWr else s.bffRd
    first ++ if bffRd > s.bffWr then [(bffRd, bffEnd - bffRd)] else []

/-- **These are the segments that are started.** -/
theorem txHandler_segments (s : State) : txHandler s =
    { (segments s).foldl (fun t seg => uartWrite t seg.1 seg.2) s with
      bffRd := (txHandler s).bffRd } := by
  cases hrun : s.txRun with
  | true =>
      rw [txHandler_of_run hrun, segments, if_pos hrun]
      rfl
  | false =>
      unfold txHandler segments
      rw [hrun, if_neg Bool.false_ne_true, if_neg Bool.false_ne_true]
      by_cases hlt : s.bffRd < s.bffWr
      · -- the second branch finds the pointers equal
        simp only [if_pos hlt, gt_iff_lt, lt_irrefl, if_false, List.append_nil, uartWrite]
        rfl
      · simp only [if_neg hlt, List.nil_append]
        split_ifs <;> rfl

/-- The segments that an event passes to `uart_write`: a call that returns, or the interrupt.
Source: `write.c` `_write`, `txHandler`. -/
def started (s : State) : Event → List (ℕ × ℕ)
  | .write data =>
      (copyLoop s.bffRd (data.length + 1) s.buffer s.bffWr data).elim [] fun r =>
        segments { s with buffer := r.1, bffWr := r.2 }
  | .dmaByte => []
  | .txComplete => segments { s with txRun := false }

/-- Segments are not empty and lie inside the buffer. -/
lemma PointersIn.segments {s : State} (h : PointersIn s) :
    ∀ seg ∈ segments s, 0 < seg.2 ∧ seg.1 + seg.2 ≤ bffEnd := by
  have hrd := h.rd_lt
  have hwr := h.wr_lt
  unfold Write.segments
  dsimp only
  intro seg hseg
  split_ifs at hseg with hrun hlt hgt hgt
  · cases hseg
  · exact absurd hgt (lt_irrefl _)
  · obtain rfl := List.mem_singleton.mp hseg
    dsimp only
    omega
  · obtain rfl := List.mem_singleton.mp hseg
    dsimp only
    omega
  · cases hseg

/-! ### The rounds of a call -/

/-- The places that a round writes. Source: `write.c` `_write`, `*bffWr++ = *pData++`. -/
def stored (bffRd : ℕ) (c : CopyState) : List ℕ :=
  List.range' c.2.1 (numBytesToWrite bffRd c.2.1 c.2.2.length)

/-- A round, the last one or another, leaves all other places of the buffer as they are. -/
lemma copyRound_buffer {bffRd : ℕ} {c : CopyState} {i : ℕ} (hi : i ∉ stored bffRd c) :
    (copyRound bffRd c).elim (fun r => r.1 i) (fun d => d.1 i) = c.1 i := by
  have hstore : Ring.store c.1 c.2.1
      (c.2.2.take (numBytesToWrite bffRd c.2.1 c.2.2.length)) i = c.1 i := by
    rw [stored, List.mem_range'_1] at hi
    refine Ring.store_of_outside ?_
    rw [List.length_take]
    omega
  unfold copyRound
  dsimp only
  split_ifs <;> exact hstore

/-- The places of a round lie before the last byte. -/
lemma stored_lt {bffRd : ℕ} {c : CopyState} (hwr : c.2.1 < bffEnd) :
    ∀ i ∈ stored bffRd c, i < bffEnd := by
  intro i hi
  have hle := numBytesToWrite_le bffRd c.2.1 c.2.2.length
  rw [stored, List.mem_range'_1] at hi
  omega

/-! ### Main result -/

/-- **The pointers of the log** in every state that calls, transmitted bytes and interrupts reach:
both are indices up to `BUFFER_LEN - 2`; so is the write pointer at every round of a call, returning
or not, and every place that a round writes; and every segment that the next event passes to
`uart_write` is not empty and lies inside the buffer. -/
theorem pointers_bounded {es : List Event} {s : State}
    (hrun : Machine.run step init es = some s) :
    s.bffWr ≤ bffSize - 2 ∧ s.bffRd ≤ bffSize - 2 ∧
      (∀ data c, Loop.Reaches (copyRound s.bffRd) (s.buffer, s.bffWr, data) c →
        c.2.1 ≤ bffSize - 2 ∧ ∀ i ∈ stored s.bffRd c, i ≤ bffSize - 2) ∧
      ∀ e, ∀ seg ∈ started s e, 0 < seg.2 ∧ seg.1 + seg.2 ≤ bffSize := by
  have hin := pointersIn_of_run hrun
  have hle : ∀ {i}, i < bffEnd → i ≤ bffSize - 2 := fun hi => Nat.le_pred_of_lt hi
  refine ⟨hle hin.wr_lt, hle hin.rd_lt, ?_, ?_⟩
  · intro data c hreach
    have hwr : c.2.1 < bffEnd := hreach.keeps (I := fun c => c.2.1 < bffEnd)
      (fun _ _ hc hround => copyRound_wr_lt hc hround) hin.wr_lt
    exact ⟨hle hwr, fun i hi => hle (stored_lt hwr i hi)⟩
  · have hsegments : ∀ t : State, PointersIn t →
        ∀ seg ∈ segments t, 0 < seg.2 ∧ seg.1 + seg.2 ≤ bffSize := by
      intro t ht seg hseg
      obtain ⟨hpos, hend⟩ := ht.segments seg hseg
      exact ⟨hpos, hend.trans (Nat.pred_le bffSize)⟩
    intro e
    cases e with
    | write data =>
        unfold started
        dsimp only
        cases hloop : copyLoop s.bffRd (data.length + 1) s.buffer s.bffWr data with
        | none => exact fun _ hseg => absurd hseg List.not_mem_nil
        | some r => exact hsegments _ ⟨hin.rd_lt, copyLoop_wr_lt hin.wr_lt hloop⟩
    | dmaByte => exact fun _ hseg => absurd hseg List.not_mem_nil
    | txComplete => exact hsegments _ ⟨hin.rd_lt, hin.wr_lt⟩

/-- After a call of two bytes, which are being sent. -/
theorem pointers_bounded_twoBytes : ∃ s, Machine.run step init [.write [1, 2]] = some s ∧
    s.bffWr = 2 ∧ s.bffRd = 2 ∧ s.bffWr ≤ bffSize - 2 ∧
      ∀ seg ∈ started s .txComplete, 0 < seg.2 ∧ seg.1 + seg.2 ≤ bffSize := by
  have hrun : ∃ s, Machine.run step init [.write [1, 2]] = some s ∧ s.bffWr = 2 ∧ s.bffRd = 2 :=
    ⟨_, rfl, rfl, rfl⟩
  obtain ⟨s, hs, hwr, hrd⟩ := hrun
  obtain ⟨hle, -, -, hsegments⟩ := pointers_bounded hs
  exact ⟨s, hs, hwr, hrd, hle, hsegments .txComplete⟩

end PanelFirmware.Systems.Write
