import PanelFirmware.Lib.Loop

/-!
# `hal/src/htimer.c`: the delay by TIM9

The counter runs over sixteen bits, a tick in each microsecond. `htimer_delay` adds the delay to it
and samples it until the difference to the sum, of 32 bits without sign, is not positive: until it
is zero.

* `Schedule`: when the counter is sampled.
* `htimerDelay_iff`: the delay ends with the first sample that is the delay after the start, modulo
  the period of the counter.
* `delayKept_iff`: so it ends with the first sample after the delay only where that comes at once.
* `htimerDelay_late`: else it takes a period of the counter more.
-/

namespace PanelFirmware.Hal

open PanelFirmware.Lib

/-! ### The code -/

/-- Source: `board.h` `APB2_TIM_FREQ`, in Hz. -/
def apb2TimFreq : ℕ := 84000000

/-- The registers of a timer that `htimer_init` writes, `CR1` by the two of its bits. -/
structure Tim where
  psc : ℕ
  arr : ℕ
  arpe : Bool
  cen : Bool

/-- The timer after its reset and the writes. Source: `htimer.c` `htimer_init`. -/
def htimerInit : Tim where
  psc := apb2TimFreq / 1000000 - 1
  arr := 65535
  arpe := true
  cen := true

/-- The counter register, so many ticks after it was `start`: it goes from `ARR` to zero, if it is
enabled. The register is of 32 bits. -/
def Tim.cnt (tim : Tim) (start ticks : ℕ) : BitVec 32 :=
  BitVec.ofNat 32 (if tim.cen then (start + ticks) % (tim.arr + 1) else start)

/-- The condition of the loop on its next sample of the counter. The loop is left with the number
of the sample. Source: `htimer.c` `htimer_delay`. -/
def htimerDelayRound (cnt : ℕ → BitVec 32) (val : BitVec 16) (k : ℕ) : ℕ ⊕ ℕ :=
  if val.setWidth 32 - cnt k > 0#32 then .inr (k + 1) else .inl k

/-- The delay returns after sample number `k` of the counter; number zero is the one before the
loop. Source: `htimer.c` `htimer_delay`. -/
def HtimerDelay (cnt : ℕ → BitVec 32) (us : BitVec 16) (k : ℕ) : Prop :=
  let val : BitVec 16 := (cnt 0 + us.setWidth 32).setWidth 16
  Loop.Ends (htimerDelayRound cnt val) 1 k

/-! ### Schedules -/

/-- The times of the samples, in ticks. Two samples may fall into one tick. -/
structure Schedule where
  time : ℕ → ℕ
  mono : Monotone time

namespace Schedule

variable (s : Schedule) (start us : BitVec 16)

/-- The ticks from the sample before the loop to sample `k`. -/
def elapsed (k : ℕ) : ℕ := s.time k - s.time 0

/-- What the samples read, when the first of them is `start`. -/
def cnt (k : ℕ) : BitVec 32 := htimerInit.cnt start.toNat (s.elapsed k)

/-- Sample `k` is the first of the loop at least `us` ticks after the start. -/
def First (k : ℕ) : Prop :=
  1 ≤ k ∧ us.toNat ≤ s.elapsed k ∧ ∀ j, 1 ≤ j → j < k → s.elapsed j < us.toNat

/-- The gaps between samples are shorter than what is left of a period after the delay. -/
def Gaps : Prop := ∀ k, s.time (k + 1) - s.time k < 65536 - us.toNat

/-- The delay returns with the first sample at least `us` ticks after the start, and not with
another. -/
def DelayKept : Prop := ∀ k, HtimerDelay (s.cnt start) us k ↔ s.First us k

variable {s start us}

/-- No time has passed before the loop. -/
@[simp] lemma elapsed_zero : s.elapsed 0 = 0 := Nat.sub_self _

/-- The time that has passed grows. -/
lemma elapsed_mono : Monotone s.elapsed := fun _ _ h => Nat.sub_le_sub_right (s.mono h) _

/-- From one sample to the next it grows by the gap. -/
lemma elapsed_succ (k : ℕ) : s.elapsed (k + 1) = s.elapsed k + (s.time (k + 1) - s.time k) := by
  have hstep : s.time k ≤ s.time (k + 1) := s.mono k.le_succ
  have hstart : s.time 0 ≤ s.time k := s.mono k.zero_le
  unfold elapsed
  omega

/-- Where a sample comes late enough, one of them is the first. -/
lemma exists_first {k : ℕ} (hk : 1 ≤ k) (h : us.toNat ≤ s.elapsed k) : ∃ j ≤ k, s.First us j := by
  induction k using Nat.strong_induction_on with
  | _ k ih =>
      by_cases hbefore : ∀ j, 1 ≤ j → j < k → s.elapsed j < us.toNat
      · exact ⟨k, le_rfl, hk, h, hbefore⟩
      · push Not at hbefore
        obtain ⟨j, hj, hjk, hus⟩ := hbefore
        obtain ⟨i, hij, hfirst⟩ := ih j hjk hj hus
        exact ⟨i, hij.trans hjk.le, hfirst⟩

/-! ### What the loop waits for -/

/-- What a sample reads. -/
lemma toNat_cnt (k : ℕ) : (s.cnt start k).toNat = (start.toNat + s.elapsed k) % 65536 := by
  have hcnt : s.cnt start k = BitVec.ofNat 32 ((start.toNat + s.elapsed k) % 65536) := rfl
  rw [hcnt, BitVec.toNat_ofNat]
  omega

/-- The sum that the loop waits for. -/
lemma toNat_val :
    ((s.cnt start 0 + us.setWidth 32).setWidth 16).toNat = (start.toNat + us.toNat) % 65536 := by
  have hstart : start.toNat < 65536 := start.isLt
  have hus : us.toNat < 65536 := us.isLt
  rw [BitVec.toNat_setWidth, BitVec.toNat_add, BitVec.toNat_setWidth, toNat_cnt, elapsed_zero]
  omega

/-- A difference without sign is positive unless it is zero. -/
lemma word_sub_pos_iff (a b : BitVec 32) : a - b > 0#32 ↔ a ≠ b := by
  rw [gt_iff_lt, BitVec.lt_def, BitVec.toNat_sub, ne_eq, ← BitVec.toNat_inj]
  have ha : a.toNat < 2 ^ 32 := a.isLt
  have hb : b.toNat < 2 ^ 32 := b.isLt
  simp only [BitVec.toNat_ofNat]
  omega

/-- The loop goes on unless the delay has passed, modulo the period of the counter. -/
lemma val_sub_cnt_pos_iff (k : ℕ) :
    let val : BitVec 16 := (s.cnt start 0 + us.setWidth 32).setWidth 16
    val.setWidth 32 - s.cnt start k > 0#32 ↔ s.elapsed k % 65536 ≠ us.toNat := by
  intro val
  have hval : val.toNat = (start.toNat + us.toNat) % 65536 := toNat_val
  have hus : us.toNat < 65536 := us.isLt
  rw [word_sub_pos_iff, ne_eq, ne_eq, not_iff_not, ← BitVec.toNat_inj, BitVec.toNat_setWidth, hval,
    toNat_cnt]
  omega

/-- **The loop**: the delay returns after the first of its samples that is the delay after the
start, modulo the period of the counter. -/
theorem htimerDelay_iff (k : ℕ) :
    HtimerDelay (s.cnt start) us k ↔ 1 ≤ k ∧ s.elapsed k % 65536 = us.toNat ∧
      ∀ j, 1 ≤ j → j < k → s.elapsed j % 65536 ≠ us.toNat := by
  refine Loop.ends_search_iff (p := fun k => s.elapsed k % 65536 = us.toNat) ?_ ?_
  · intro j hj
    exact if_neg fun hpos => (val_sub_cnt_pos_iff j).mp hpos hj
  · intro j hj
    exact if_pos ((val_sub_cnt_pos_iff j).mpr hj)

/-- The delay does not return early. -/
lemma us_le_elapsed {k : ℕ} (h : HtimerDelay (s.cnt start) us k) : us.toNat ≤ s.elapsed k := by
  have hmod := ((htimerDelay_iff k).mp h).2.1
  rw [← hmod]
  exact Nat.mod_le _ _

/-- Before the delay has passed the loop goes on. -/
lemma elapsed_mod_ne {k : ℕ} (h : s.elapsed k < us.toNat) : s.elapsed k % 65536 ≠ us.toNat := by
  have hus : us.toNat < 65536 := us.isLt
  omega

/-! ### Main result -/

/-- The first sample after the delay comes within the period, where the gaps are short enough. -/
lemma First.elapsed_lt {k : ℕ} (h : s.First us k) (hgaps : s.Gaps us) : s.elapsed k < 65536 := by
  obtain ⟨hk, -, hbefore⟩ := h
  obtain ⟨j, rfl⟩ := Nat.exists_eq_add_of_le' hk
  have hgap := hgaps j
  have hprev : s.elapsed j ≤ us.toNat := by
    rcases Nat.eq_zero_or_pos j with rfl | hj
    · rw [elapsed_zero]
      exact Nat.zero_le _
    · exact (hbefore j hj j.lt_succ_self).le
  rw [elapsed_succ]
  omega

/-- The delay is kept where the first sample after it comes at once, modulo the period. -/
lemma delayKept_iff_first :
    s.DelayKept start us ↔ ∀ k, s.First us k → s.elapsed k % 65536 = us.toNat := by
  constructor
  · intro h k hfirst
    exact ((htimerDelay_iff k).mp ((h k).mpr hfirst)).2.1
  · intro h k
    constructor
    · intro hreturns
      obtain ⟨hk, hmod, hbefore⟩ := (htimerDelay_iff k).mp hreturns
      refine ⟨hk, us_le_elapsed hreturns, fun j hj hjk => ?_⟩
      by_contra hlate
      obtain ⟨i, hij, hfirst⟩ := exists_first hj (Nat.not_lt.mp hlate)
      exact hbefore i hfirst.1 (by omega) (h i hfirst)
    · intro hfirst
      exact (htimerDelay_iff k).mpr ⟨hfirst.1, h k hfirst, fun j hj hjk =>
        elapsed_mod_ne (hfirst.2.2 j hj hjk)⟩

/-- **A missed target.** Where the first sample after the delay does not come at once, the delay
does not return before another period of the counter. -/
theorem htimerDelay_late {k j : ℕ} (hfirst : s.First us k) (hmiss : s.elapsed k % 65536 ≠ us.toNat)
    (h : HtimerDelay (s.cnt start) us j) : us.toNat + 65536 ≤ s.elapsed j := by
  obtain ⟨hj, hmod, -⟩ := (htimerDelay_iff j).mp h
  have hus : us.toNat < 65536 := us.isLt
  by_contra hearly
  have hexact : s.elapsed j = us.toNat := by omega
  rcases Nat.lt_or_ge j k with hjk | hkj
  · exact absurd (hfirst.2.2 j hj hjk) (by omega)
  · have hbetween : s.elapsed k ≤ s.elapsed j := elapsed_mono hkj
    have hreached := hfirst.2.1
    omega

/-- **The delay is kept** on a schedule exactly where the first sample after the delay is one at
`us` ticks, modulo the period of the counter: with gaps as short as `Gaps` has them, where a sample
comes `us` ticks after the start if any comes then or later. -/
theorem delayKept_iff (s : Schedule) (start us : BitVec 16) :
    (s.DelayKept start us ↔ ∀ k, s.First us k → s.elapsed k % 65536 = us.toNat) ∧
      (s.Gaps us → (s.DelayKept start us ↔
        ((∃ k ≥ 1, us.toNat ≤ s.elapsed k) → ∃ k ≥ 1, s.elapsed k = us.toNat))) := by
  refine ⟨delayKept_iff_first, fun hgaps => ?_⟩
  rw [delayKept_iff_first]
  constructor
  · rintro h ⟨k, hk, hlate⟩
    obtain ⟨i, -, hfirst⟩ := exists_first hk hlate
    have hmod := h i hfirst
    rw [Nat.mod_eq_of_lt (hfirst.elapsed_lt hgaps)] at hmod
    exact ⟨i, hfirst.1, hmod⟩
  · intro h k hfirst
    obtain ⟨m, hm, hexact⟩ := h ⟨k, hfirst.1, hfirst.2.1⟩
    have hkm : k ≤ m := by
      by_contra hlt
      exact absurd (hfirst.2.2 m hm (Nat.not_le.mp hlt)) (by omega)
    have hbetween : s.elapsed k ≤ s.elapsed m := elapsed_mono hkm
    have hreached := hfirst.2.1
    have hus : us.toNat < 65536 := us.isLt
    omega

/-- A sample in every tick. -/
def everyTick : Schedule := ⟨id, monotone_id⟩

/-- A delay of a hundred ticks with a sample in every tick, across the end of the period. -/
theorem delayKept_everyTick :
    (everyTick.DelayKept 0xFFF0#16 100#16 ↔
      ∀ k, everyTick.First 100#16 k → everyTick.elapsed k % 65536 = (100#16).toNat) ∧
      (everyTick.DelayKept 0xFFF0#16 100#16 ↔
        ((∃ k ≥ 1, (100#16).toNat ≤ everyTick.elapsed k) →
          ∃ k ≥ 1, everyTick.elapsed k = (100#16).toNat)) := by
  refine ⟨(delayKept_iff everyTick _ _).1, (delayKept_iff everyTick _ _).2 fun k => ?_⟩
  simp [everyTick]

/-- A sample in every tick but for an interrupt, which takes the ticks ten and eleven. -/
def interrupted : Schedule where
  time k := if k < 10 then k else k + 2
  mono := by
    intro j k hjk
    dsimp only
    split_ifs <;> omega

/-- **A target that is skipped**: a delay of ten ticks does not end with the sample after the
interrupt. -/
theorem not_delayKept :
    ¬ ∀ (s : Schedule) (start us : BitVec 16), s.Gaps us → s.DelayKept start us := by
  intro h
  have helapsed : ∀ k, interrupted.elapsed k = if k < 10 then k else k + 2 := fun _ => rfl
  have hgaps : interrupted.Gaps 10#16 := by
    intro k
    have hgap : interrupted.time (k + 1) - interrupted.time k ≤ 3 := by
      simp only [interrupted]
      split_ifs <;> omega
    exact hgap.trans_lt (by decide)
  have hfirst : interrupted.First 10#16 10 := by
    refine ⟨by decide, by decide, fun j _ hj => ?_⟩
    rw [helapsed, if_pos hj]
    exact hj
  have hmod := delayKept_iff_first.mp (h interrupted 0#16 10#16 hgaps) 10 hfirst
  exact absurd hmod (by decide)

end Schedule

end PanelFirmware.Hal
