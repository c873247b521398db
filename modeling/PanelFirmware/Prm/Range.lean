import PanelFirmware.Hal.Enco
import PanelFirmware.Prm.Parameters

/-!
# The range invariant of the parameter store

The mutators of a parameter are `setdef`, `step`, `bigstep` and `deserialize`. All but the steps
keep `min <= val <= max` whatever they are given. A step keeps it exactly when `StepSafe` holds
before it: `T result = stepsize * abs(step)` truncates the product to `T`, so that a product with
the sign bit of `T` set turns into a negative distance and the parameter moves the other way.

* `inRange_stepsize_iff`: one step.
* `stays_iff_safeRun`: runs of any length over the shipped table.
-/

namespace PanelFirmware.Prm

open PanelFirmware.Lib PanelFirmware.Hal

/-! ### Runs of the mutators -/

/-- A call of one of the mutators. -/
inductive Mutator
  | setdef
  | step (n : ℤ)
  | bigstep (n : ℤ)
  | deserialize (src : List Byte)

/-- The step counts the screens pass: one detent of a key, or what `enco_update` returns. -/
def StepCount (n : ℤ) : Prop := n = 1 ∨ n = -1 ∨ ∃ e, n = (encoUpdate e).1

/-- The arguments a mutator is called with. -/
def Mutator.Called : Mutator → Prop
  | setdef | deserialize _ => True
  | step n | bigstep n => StepCount n

/-- The parameter after a mutator; `none` where the C++ leaves it undefined. -/
def Mutator.exec (p : Val) : Mutator → Option Val
  | setdef => some p.setdef
  | step n => p.step n
  | bigstep n => p.bigstep n
  | deserialize src => some (p.deserialize src).2

/-- The parameter is in range now and after every mutator of the run. -/
def Stays (p : Val) : List Mutator → Prop
  | [] => p.InRange
  | m :: ms => p.InRange ∧ ∃ q, m.exec p = some q ∧ Stays q ms

/-- The condition of a step of `n` times `s` from the value `v`: the product is computed without
overflow and, in a signed type, either its truncation has the sign bit clear or the negative
number that the truncation denotes still leads to the opposite bound at most. -/
def StepSafe (h : ValHandler) (v n s : ℤ) : Prop :=
  h.T.arith.signed = true →
    h.T.arith.Repr (s * |n|) ∧
      (h.T.signed = true →
        s * |n| % 2 ^ h.T.bits < 2 ^ (h.T.bits - 1) ∨
          2 ^ h.T.bits - s * |n| % 2 ^ h.T.bits ≤ if n < 0 then h.max - v else v - h.min)

instance (h : ValHandler) (v n s : ℤ) : Decidable (StepSafe h v n s) :=
  inferInstanceAs (Decidable (_ → _ ∧ (_ → _ ∨ _)))

/-- The condition of a mutator; only the steps have one. -/
def Mutator.Safe (p : Val) : Mutator → Prop
  | setdef | deserialize _ => True
  | step n => StepSafe p.handler p.val n p.handler.step
  | bigstep n => StepSafe p.handler p.val n p.handler.bigstep

/-- Every mutator of the run meets its condition in the state it is called in. -/
def SafeRun (p : Val) : List Mutator → Prop
  | [] => True
  | m :: ms => m.Safe p ∧ ∀ q, m.exec p = some q → SafeRun q ms

/-! ### The truncated distance -/

/-- A step count is small. -/
lemma abs_le_of_stepCount {n : ℤ} (h : StepCount n) : |n| ≤ 57344 := by
  rcases h with rfl | rfl | ⟨e, rfl⟩
  · decide
  · decide
  · exact abs_encoUpdate_le e

/-- The distance of a step, once the count is small: undefined where the product overflows a
signed type, and else its truncation. -/
lemma stepResult_eq {h : ValHandler} {n : ℤ} (hn : |n| ≤ 57344) (s : ℤ) :
    Val.stepResult h n s = (h.T.arith.eval (s * |n|)).map h.T.conv := by
  have hcount : CType.int32.eval |n| = some |n| :=
    CType.eval_of_repr (by decide) ((fits_signed_iff 31 _).mpr ⟨by have := abs_nonneg n; omega,
      by omega⟩)
  simp only [Val.stepResult, hcount, Option.bind_eq_bind, Option.bind_some]
  cases h.T.arith.eval (s * |n|) <;> rfl

/-- The distance is undefined only where the product overflows a signed type. -/
lemma not_stepSafe_of_stepResult {h : ValHandler} (hd : h.Declared) {n : ℤ} (hn : |n| ≤ 57344)
    {s : ℤ} (hr : Val.stepResult h n s = none) (v : ℤ) : ¬ StepSafe h v n s := by
  rw [stepResult_eq hn, Option.map_eq_none_iff] at hr
  intro hsafe
  cases hsg : h.T.arith.signed
  · rw [CType.eval_unsigned (CType.arith_ne_float hd.integer.2) hsg] at hr
    cases hr
  · rw [CType.eval_signed hsg, if_pos (hsafe hsg).1] at hr
    cases hr

/-- The distance of a step in an unsigned type is not negative. -/
lemma stepResult_nonneg {h : ValHandler} (hd : h.Declared) {n : ℤ} (hn : |n| ≤ 57344) {s r : ℤ}
    (hr : Val.stepResult h n s = some r) (hsg : h.T.signed = false) : 0 ≤ r := by
  rw [stepResult_eq hn, Option.map_eq_some_iff] at hr
  obtain ⟨product, -, rfl⟩ := hr
  rw [CType.conv_eq_wrap hd.integer.1, hsg]
  exact ((fits_unsigned_iff _ _).mp (fits_wrap false _ product)).1

/-- The condition of a step, read off the distance: it is not negative, or it leads to the
opposite bound at most. -/
lemma stepSafe_iff {h : ValHandler} (hd : h.Declared) {n : ℤ} (hn : |n| ≤ 57344) {s r : ℤ}
    (hr : Val.stepResult h n s = some r) (v : ℤ) :
    StepSafe h v n s ↔ 0 ≤ r ∨ -r ≤ if n < 0 then h.max - v else v - h.min := by
  have hnonneg := stepResult_nonneg hd hn hr
  rw [stepResult_eq hn, Option.map_eq_some_iff] at hr
  obtain ⟨product, hproduct, rfl⟩ := hr
  have hfit : h.T.arith.signed = true → h.T.arith.Repr (s * |n|) ∧ product = s * |n| := by
    intro hsg
    rw [CType.eval_signed hsg] at hproduct
    split_ifs at hproduct with hrepr
    exact ⟨hrepr, (Option.some.inj hproduct).symm⟩
  cases hsg : h.T.signed
  · have hzero := hnonneg hsg
    refine ⟨fun _ => Or.inl hzero, fun _ har => ⟨(hfit har).1, fun htrue => ?_⟩⟩
    rw [hsg] at htrue
    cases htrue
  · obtain ⟨hrepr, rfl⟩ := hfit (CType.signed_arith hsg)
    obtain ⟨k, hk⟩ : ∃ k, h.T.bits = k + 1 := ⟨h.T.bits - 1, by have := h.T.bits_pos; omega⟩
    have hpow : (2 : ℤ) ^ (k + 1) = 2 * 2 ^ k := by ring
    have hmod := Int.emod_nonneg (s * |n|) (show (2 : ℤ) ^ (k + 1) ≠ 0 by positivity)
    have hlt := Int.emod_lt_of_pos (s * |n|) (show (0 : ℤ) < 2 ^ (k + 1) by positivity)
    have hsafe : StepSafe h v n s ↔ (s * |n| % 2 ^ (k + 1) < 2 ^ k ∨
        2 ^ (k + 1) - s * |n| % 2 ^ (k + 1) ≤ if n < 0 then h.max - v else v - h.min) := by
      unfold StepSafe
      rw [hk, Nat.add_sub_cancel]
      exact ⟨fun hs => (hs (CType.signed_arith hsg)).2 hsg, fun hs _ => ⟨hrepr, fun _ => hs⟩⟩
    rw [hsafe, CType.conv_eq_wrap hd.integer.1, hsg, hk, wrap_signed]
    generalize (if n < 0 then h.max - v else v - h.min) = opposite
    split_ifs with htop
    · omega
    · omega

/-- A negative distance is less than half a period, which a declared range stays below. -/
lemma stepResult_near {h : ValHandler} (hd : h.Declared) {n : ℤ} (hn : |n| ≤ 57344) {s r : ℤ}
    (hr : Val.stepResult h n s = some r) :
    0 ≤ r ∨ (h.T.signed = true ∧ r < 0 ∧ h.max - h.min - r < 2 ^ h.T.bits) := by
  by_cases hpos : 0 ≤ r
  · exact Or.inl hpos
  right
  cases hsg : h.T.signed
  · exact absurd (stepResult_nonneg hd hn hr hsg) hpos
  · have hspan := hd.span hsg
    rw [stepResult_eq hn, Option.map_eq_some_iff] at hr
    obtain ⟨product, -, rfl⟩ := hr
    have hrepr : Fits h.T.signed h.T.bits (h.T.conv product) := CType.repr_conv _ _
    obtain ⟨k, hk⟩ : ∃ k, h.T.bits = k + 1 := ⟨h.T.bits - 1, by have := h.T.bits_pos; omega⟩
    have hpow : (2 : ℤ) ^ (k + 1) = 2 * 2 ^ k := by ring
    rw [hsg, hk, fits_signed_iff] at hrepr
    rw [hk, Nat.add_sub_cancel] at hspan
    rw [hk]
    exact ⟨rfl, by omega, by omega⟩

/-! ### One step -/

section Step

variable {p : Val} (hd : p.handler.Declared)
include hd

/-- The range of a declared parameter is the integer interval. -/
lemma inRange_iff_declared : p.InRange ↔ p.handler.min ≤ p.val ∧ p.val ≤ p.handler.max :=
  Val.inRange_iff hd.integer.2

/-- A distance inside the range is a value of the type, so the room towards a bound is computed
exactly. -/
lemma eval_room {x y : ℤ} (hx : p.handler.min ≤ x) (hxy : x ≤ y) (hy : y ≤ p.handler.max) :
    p.handler.T.arith.eval (y - x) = some (y - x) := by
  refine CType.eval_of_repr (CType.arith_ne_float hd.integer.2) (CType.repr_arith ?_)
  have hmin := p.handler.min_repr
  have hmax := p.handler.max_repr
  have hspan := hd.span
  obtain ⟨k, hk⟩ : ∃ k, p.handler.T.bits = k + 1 :=
    ⟨p.handler.T.bits - 1, by have := p.handler.T.bits_pos; omega⟩
  unfold CType.Repr at hmin hmax ⊢
  cases hsg : p.handler.T.signed
  · rw [hsg, fits_unsigned_iff] at hmin hmax
    rw [fits_unsigned_iff]
    omega
  · have hhalf := hspan hsg
    rw [hk, Nat.add_sub_cancel] at hhalf
    rw [hsg, hk, fits_signed_iff] at hmin hmax
    rw [hk, fits_signed_iff]
    omega

/-- An assigned number ends in the range exactly when it lies there before the conversion,
provided that it is less than one period of the type away from the far bound. -/
lemma inRange_assign_iff {x : ℤ}
    (hnear : (p.handler.min ≤ x ∧ x ≤ p.handler.max) ∨ (p.handler.T.signed = true ∧
      x < p.handler.min + 2 ^ p.handler.T.bits ∧ p.handler.max - 2 ^ p.handler.T.bits < x)) :
    (∃ q, p.assign x = some q ∧ q.InRange) ↔ p.handler.min ≤ x ∧ x ≤ p.handler.max := by
  have hin : ∀ h, (p.set (p.handler.T.conv x) h).InRange ↔
      p.handler.min ≤ p.handler.T.conv x ∧ p.handler.T.conv x ≤ p.handler.max :=
    fun h => inRange_iff_declared (p := p.set (p.handler.T.conv x) h) hd
  constructor
  · rintro ⟨q, hq, hrange⟩
    rcases hnear with hx | ⟨hsg, hhi, hlo⟩
    · exact hx
    obtain ⟨k, hk⟩ : ∃ k, p.handler.T.bits = k + 1 :=
      ⟨p.handler.T.bits - 1, by have := p.handler.T.bits_pos; omega⟩
    have hpow : (2 : ℤ) ^ (k + 1) = 2 * 2 ^ k := by ring
    have hmin : Fits p.handler.T.signed p.handler.T.bits p.handler.min := p.handler.min_repr
    have hmax : Fits p.handler.T.signed p.handler.T.bits p.handler.max := p.handler.max_repr
    rw [hsg, hk, fits_signed_iff] at hmin hmax
    rw [Val.assign, CType.eval_signed (CType.signed_arith hsg)] at hq
    split_ifs at hq with hfit
    swap
    · cases hq
    obtain rfl := Option.some.inj hq
    rw [hin, CType.conv_eq_wrap hd.integer.1, hsg, hk] at hrange
    rw [hk] at hhi hlo
    -- outside the range the conversion returns the number itself or moves it a whole period
    by_cases habove : p.handler.max < x
    · rcases wrap_eq_or_sub (w := k) (x := x) (by omega) (by omega) with hw | hw
      · rw [hw] at hrange
        exact hrange
      · rw [hw] at hrange
        omega
    · rcases wrap_eq_or_add (w := k) (x := x) (by omega) (by omega) with hw | hw
      · rw [hw] at hrange
        exact hrange
      · rw [hw] at hrange
        omega
  · intro hx
    have hrepr : p.handler.T.Repr x :=
      CType.Repr.of_between p.handler.min_repr p.handler.max_repr hx.1 hx.2
    have hconv : p.handler.T.conv x = x := CType.conv_eq_self hd.integer.1 hrepr
    refine ⟨p.set (p.handler.T.conv x) (CType.repr_conv _ _), ?_, ?_⟩
    · rw [Val.assign, CType.eval_of_repr (CType.arith_ne_float hd.integer.2)
        (CType.repr_arith hrepr)]
      rfl
    · rw [hin, hconv]
      exact hx

/-- A step down: to the lower bound where the distance exceeds the room, and else by the
distance. -/
lemma stepsize_of_neg (hp : p.InRange) {n s r : ℤ} (hr : Val.stepResult p.handler n s = some r)
    (hneg : n < 0) :
    p.stepsize n s =
      if r > p.val - p.handler.min then some (p.set p.handler.min p.handler.min_repr)
      else p.assign (p.val - r) := by
  obtain ⟨hlo, hhi⟩ := (inRange_iff_declared hd).mp hp
  have hroom := eval_room hd (le_refl _) hlo hhi
  simp only [Val.stepsize, hr, Option.bind_eq_bind, Option.bind_some, if_pos hneg, hroom,
    Val.assign]
  split_ifs
  · rfl
  · cases p.handler.T.arith.eval (p.val - r) <;> rfl

/-- A step up: to the upper bound where the distance exceeds the room, and else by the
distance. -/
lemma stepsize_of_nonneg (hp : p.InRange) {n s r : ℤ}
    (hr : Val.stepResult p.handler n s = some r) (hnonneg : ¬ n < 0) :
    p.stepsize n s =
      if r > p.handler.max - p.val then some (p.set p.handler.max p.handler.max_repr)
      else p.assign (p.val + r) := by
  obtain ⟨hlo, hhi⟩ := (inRange_iff_declared hd).mp hp
  have hroom := eval_room hd hlo hhi (le_refl _)
  simp only [Val.stepsize, hr, Option.bind_eq_bind, Option.bind_some, if_neg hnonneg, hroom,
    Val.assign]
  split_ifs
  · rfl
  · cases p.handler.T.arith.eval (p.val + r) <;> rfl

/-- **One step.** From a value in range, a step is defined and ends in range exactly when its
condition holds. -/
theorem inRange_stepsize_iff (hp : p.InRange) {n : ℤ} (hn : |n| ≤ 57344) (s : ℤ) :
    (∃ q, p.stepsize n s = some q ∧ q.InRange) ↔ StepSafe p.handler p.val n s := by
  obtain ⟨hlo, hhi⟩ := (inRange_iff_declared hd).mp hp
  have hle : p.handler.min ≤ p.handler.max := hlo.trans hhi
  cases hr : Val.stepResult p.handler n s with
  | none =>
      have hnone : p.stepsize n s = none := by
        simp only [Val.stepsize, hr, Option.bind_eq_bind, Option.bind_none]
      simp [hnone, not_stepSafe_of_stepResult hd hn hr]
  | some r =>
      have hmin : (p.set p.handler.min p.handler.min_repr).InRange :=
        (inRange_iff_declared (p := p.set _ p.handler.min_repr) hd).mpr ⟨le_refl _, hle⟩
      have hmax : (p.set p.handler.max p.handler.max_repr).InRange :=
        (inRange_iff_declared (p := p.set _ p.handler.max_repr) hd).mpr ⟨hle, le_refl _⟩
      have hfar := stepResult_near hd hn hr
      rw [stepSafe_iff hd hn hr]
      by_cases hneg : n < 0
      · rw [stepsize_of_neg hd hp hr hneg, if_pos hneg]
        by_cases hroom : r > p.val - p.handler.min
        · rw [if_pos hroom]
          exact ⟨fun _ => Or.inl (by omega), fun _ => ⟨_, rfl, hmin⟩⟩
        · rw [if_neg hroom, inRange_assign_iff hd (hfar.imp (fun h => by omega)
            fun h => ⟨h.1, by omega, by omega⟩)]
          omega
      · rw [stepsize_of_nonneg hd hp hr hneg, if_neg hneg]
        by_cases hroom : r > p.handler.max - p.val
        · rw [if_pos hroom]
          exact ⟨fun _ => Or.inl (by omega), fun _ => ⟨_, rfl, hmax⟩⟩
        · rw [if_neg hroom, inRange_assign_iff hd (hfar.imp (fun h => by omega)
            fun h => ⟨h.1, by omega, by omega⟩)]
          omega

end Step

/-! ### Runs -/

/-- A step never changes the handler. -/
lemma handler_stepsize {p q : Val} {n s : ℤ} (h : p.stepsize n s = some q) :
    q.handler = p.handler := by
  simp only [Val.stepsize, Option.bind_eq_bind, Option.bind_eq_some_iff] at h
  obtain ⟨r, -, h⟩ := h
  split_ifs at h
  all_goals
    obtain ⟨room, -, h⟩ := Option.bind_eq_some_iff.mp h
    split_ifs at h
    · rw [← Option.some.inj h, Val.set_handler]
    · obtain ⟨v, -, h⟩ := Option.bind_eq_some_iff.mp h
      rw [← Option.some.inj h, Val.set_handler]

/-- No mutator changes the handler. -/
lemma handler_exec {p q : Val} {m : Mutator} (h : m.exec p = some q) :
    q.handler = p.handler := by
  cases m with
  | setdef => rw [← Option.some.inj h, Val.setdef, Val.set_handler]
  | step n => exact handler_stepsize h
  | bigstep n => exact handler_stepsize h
  | deserialize src => rw [← Option.some.inj h, Val.deserialize_handler]

/-- **One mutator.** From a value in range, a mutator is defined and ends in range exactly when
its condition holds. -/
theorem inRange_exec_iff {p : Val} (hd : p.handler.Declared) (hp : p.InRange) {m : Mutator}
    (hm : m.Called) : (∃ q, m.exec p = some q ∧ q.InRange) ↔ m.Safe p := by
  cases m with
  | setdef =>
      have hdef : p.setdef.InRange :=
        (inRange_iff_declared (p := p.setdef) hd).mpr ⟨hd.min_le_dflt, hd.dflt_le_max⟩
      exact ⟨fun _ => trivial, fun _ => ⟨_, rfl, hdef⟩⟩
  | step n => exact inRange_stepsize_iff hd hp (abs_le_of_stepCount hm) _
  | bigstep n => exact inRange_stepsize_iff hd hp (abs_le_of_stepCount hm) _
  | deserialize src =>
      exact ⟨fun _ => trivial, fun _ => ⟨_, rfl, Val.inRange_deserialize hp src⟩⟩

/-- A run that stays in range starts there. -/
lemma Stays.inRange {p : Val} {ms : List Mutator} (h : Stays p ms) : p.InRange := by
  cases ms with
  | nil => exact h
  | cons m ms => exact h.1

/-- A run from a value in range stays in range exactly when each of its mutators meets its
condition. -/
lemma stays_iff_of_inRange {p : Val} (hd : p.handler.Declared) (hp : p.InRange)
    {ms : List Mutator} (hms : ∀ m ∈ ms, m.Called) : Stays p ms ↔ SafeRun p ms := by
  induction ms generalizing p with
  | nil => exact ⟨fun _ => trivial, fun _ => hp⟩
  | cons m ms ih =>
      have hstep := inRange_exec_iff hd hp (hms m List.mem_cons_self)
      have hrest : ∀ m' ∈ ms, m'.Called := fun m' h => hms m' (List.mem_cons_of_mem _ h)
      constructor
      · rintro ⟨-, q, hq, hstays⟩
        refine ⟨hstep.mp ⟨q, hq, hstays.inRange⟩, fun q' hq' => ?_⟩
        obtain rfl : q = q' := Option.some.inj (hq.symm.trans hq')
        exact (ih (by rw [handler_exec hq]; exact hd) hstays.inRange hrest).mp hstays
      · rintro ⟨hsafe, hrun⟩
        obtain ⟨q, hq, hrange⟩ := hstep.mpr hsafe
        exact ⟨hp, q, hq,
          (ih (by rw [handler_exec hq]; exact hd) hrange hrest).mpr (hrun q hq)⟩

/-- **The range invariant, and exactly when it holds.** For every row of the shipped table and
every run of its mutators, of any length and in any order, with the step counts the screens pass
and any bytes: the parameter starts at its default and is in range after every operation if and
only if every `step` and `bigstep` of the run meets `StepSafe` in the state it is called in. -/
theorem stays_iff_safeRun (row : Row) (hrow : row ∈ parametres) (ms : List Mutator)
    (hms : ∀ m ∈ ms, m.Called) :
    Stays (Val.new row.handler) ms ↔ SafeRun (Val.new row.handler) ms := by
  have hd := declared_of_mem_parametres row hrow
  exact stays_iff_of_inRange (p := Val.new row.handler) hd
    ((inRange_iff_declared (p := Val.new row.handler) hd).mpr ⟨hd.min_le_dflt, hd.dflt_le_max⟩) hms

/-- Keys and an image byte keep the time zone in range. -/
theorem timezone_stays :
    Stays (Val.new timezone.handler) [.deserialize [11], .step 1] := by
  refine (stays_iff_safeRun timezone ?_ _ ?_).mpr ⟨trivial, ?_⟩
  · exact List.mem_of_getElem? (i := 5) rfl
  · intro m hm
    rcases List.mem_pair.mp hm with rfl | rfl
    · trivial
    · exact Or.inl rfl
  · intro q hq
    obtain rfl := Option.some.inj hq
    refine ⟨?_, fun _ _ => trivial⟩
    unfold Mutator.Safe
    decide

/-- **The range invariant fails.** Seventy-six counts between two scans make `enco_update` return
133; as a signed byte that is -123, and the time zone becomes -125. -/
theorem not_stays_timezone :
    ¬ ∀ row ∈ parametres, ∀ ms : List Mutator, (∀ m ∈ ms, m.Called) →
      Stays (Val.new row.handler) ms := by
  intro hall
  have hcount : StepCount 133 := Or.inr (Or.inr ⟨⟨0xFFFF / 4 + 76, 0, 0⟩, by decide⟩)
  obtain ⟨-, q, hq, hrange⟩ := hall timezone (List.mem_of_getElem? (i := 5) rfl) [.step 133]
    fun m hm => by rw [List.mem_singleton.mp hm]; exact hcount
  have hval : ((Mutator.step 133).exec (Val.new timezone.handler)).map Val.val = some (-125) := by
    decide
  have hhandler : q.handler = timezone.handler := handler_exec hq
  rw [hq, Option.map_some, Option.some.injEq] at hval
  have hd : q.handler.Declared := by rw [hhandler]; decide
  have hin := (inRange_iff_declared hd).mp hrange
  rw [hval, hhandler] at hin
  exact absurd hin.1 (by decide)

end PanelFirmware.Prm
