import PanelFirmware.Prm.Range

/-!
# `prmsystem/include/prmSystem.h` `stepsize`: when a step clamps exactly

A step of `n` times `s` should move the value by `n * s` and stop at the bounds. The code compares
the room up to the bound with the product `s * abs(n)` truncated to the parameter's type, so what
matters is whether the product and its truncation, both cut at the room, are one distance.

* `min_wrap_eq_min_iff`: when a truncated distance, cut at the room, is the distance cut there.
* `stepsize_clamps_iff`: one step; `step_clamps_iff`: every row of the shipped table and every
  count the encoder returns.
-/

namespace PanelFirmware.Prm

open PanelFirmware.Lib PanelFirmware.Hal

/-- The value moved to `x` in exact integers and stopped at the bounds. -/
def clamp (h : ValHandler) (x : ℤ) : ℤ := max h.min (min h.max x)

/-- The distance from the value to the bound in the direction of the step. -/
def ValHandler.room (h : ValHandler) (v n : ℤ) : ℤ := if n < 0 then v - h.min else h.max - v

/-- The condition of a step of `n` times `s` from the value `v`: the product does not exceed the
room, or it is computed without overflow and what the parameter's type keeps of it still reaches
the bound. -/
def StepExact (h : ValHandler) (v n s : ℤ) : Prop :=
  s * |n| ≤ h.room v n ∨ ((h.T.arith.signed = true → h.T.arith.Repr (s * |n|)) ∧
    h.room v n ≤ s * |n| % 2 ^ h.T.bits ∧
    (h.T.signed = true → s * |n| % 2 ^ h.T.bits < 2 ^ (h.T.bits - 1)))

instance (h : ValHandler) (v n s : ℤ) : Decidable (StepExact h v n s) :=
  inferInstanceAs (Decidable (_ ∨ (_ → _) ∧ _ ∧ (_ → _)))

/-! ### The truncated distance, cut at the room -/

/-- A distance truncated to a register and cut at the room is the distance cut there exactly when
it does not exceed the room or what the register keeps of it reaches the room. -/
lemma min_wrap_eq_min_iff {sg : Bool} {w : ℕ} {x r : ℤ} (hx : 0 ≤ x) (hr : 0 ≤ r)
    (hfit : Fits sg (w + 1) r) :
    min (wrap sg (w + 1) x) r = min x r ↔
      x ≤ r ∨ (r ≤ x % 2 ^ (w + 1) ∧ (sg = true → x % 2 ^ (w + 1) < 2 ^ w)) := by
  have hpow : (2 : ℤ) ^ (w + 1) = 2 * 2 ^ w := by ring
  have hpos : (0 : ℤ) < 2 ^ (w + 1) := by positivity
  have hmod := Int.emod_nonneg x hpos.ne'
  have hlt := Int.emod_lt_of_pos x hpos
  have hle : x % 2 ^ (w + 1) ≤ x := by
    have hdiv := Int.emod_add_mul_ediv x (2 ^ (w + 1))
    have hquot := mul_nonneg hpos.le (Int.ediv_nonneg hx hpos.le)
    omega
  have hself : x < 2 ^ (w + 1) → x % 2 ^ (w + 1) = x := Int.emod_eq_of_lt hx
  cases sg
  · have hroom := ((fits_unsigned_iff _ _).mp hfit).2
    have hwrap : wrap false (w + 1) x = x % 2 ^ (w + 1) := rfl
    rw [hwrap]
    simp only [Bool.false_eq_true, false_implies, and_true]
    omega
  · have hroom := ((fits_signed_iff _ _).mp hfit).2
    rw [wrap_signed]
    simp only [true_implies]
    split_ifs <;> omega

/-- An unsigned type is not promoted to another unsigned type. -/
lemma CType.bits_arith {T : CType} (h : T.arith.signed = false) : T.arith.bits = T.bits := by
  cases T
  case uint32 | uint64 | float => rfl
  all_goals exact absurd h (by decide)

/-- The distance of a step, where it is defined, is the product truncated to the type. -/
lemma stepResult_eq_wrap {h : ValHandler} (hd : h.Declared) {n : ℤ} (hn : |n| ≤ 57344) (s : ℤ) :
    Val.stepResult h n s = if h.T.arith.signed = true → h.T.arith.Repr (s * |n|) then
      some (wrap h.T.signed h.T.bits (s * |n|)) else none := by
  rw [stepResult_eq hn]
  cases hsg : h.T.arith.signed
  · rw [CType.eval_unsigned (CType.arith_ne_float hd.integer.2) hsg, Option.map_some,
      CType.conv_eq_wrap hd.integer.1, CType.bits_arith hsg, if_pos (by simp)]
    exact congrArg some (wrap_congr (wrap_emod _ _ _))
  · rw [CType.eval_signed hsg]
    by_cases hrepr : h.T.arith.Repr (s * |n|)
    · rw [if_pos hrepr, if_pos (fun _ => hrepr), Option.map_some,
        CType.conv_eq_wrap hd.integer.1]
    · rw [if_neg hrepr, if_neg (fun hall => hrepr (hall rfl)), Option.map_none]

/-! ### One step -/

section Step

variable {p : Val} (hd : p.handler.Declared)
include hd

/-- Assigning a number near the range gives a number of the range exactly if it is that number. -/
lemma map_val_assign_eq_iff {x y : ℤ}
    (hnear : (p.handler.min ≤ x ∧ x ≤ p.handler.max) ∨ (p.handler.T.signed = true ∧
      x < p.handler.min + 2 ^ p.handler.T.bits ∧ p.handler.max - 2 ^ p.handler.T.bits < x))
    (hy : p.handler.min ≤ y ∧ y ≤ p.handler.max) :
    (p.assign x).map Val.val = some y ↔ x = y := by
  have hself : p.handler.min ≤ x ∧ x ≤ p.handler.max → (p.assign x).map Val.val = some x := by
    intro hx
    have hrepr : p.handler.T.Repr x :=
      CType.Repr.of_between p.handler.min_repr p.handler.max_repr hx.1 hx.2
    rw [Val.assign, CType.eval_of_repr (CType.arith_ne_float hd.integer.2)
      (CType.repr_arith hrepr)]
    exact congrArg some (CType.conv_eq_self hd.integer.1 hrepr)
  constructor
  · intro h
    obtain ⟨q, hq, hval⟩ := Option.map_eq_some_iff.mp h
    have hhandler : q.handler = p.handler := by
      obtain ⟨v, -, hset⟩ := Option.map_eq_some_iff.mp hq
      rw [← hset, Val.set_handler]
    have hrange : q.InRange := by
      rw [inRange_iff_declared (by rw [hhandler]; exact hd), hhandler, hval]
      exact hy
    rw [hself ((inRange_assign_iff hd hnear).mp ⟨q, hq, hrange⟩)] at h
    exact Option.some.inj h
  · rintro rfl
    exact hself hy

/-- The room is not negative and a value of the type. -/
lemma room_nonneg_fits (hp : p.InRange) (n : ℤ) : 0 ≤ p.handler.room p.val n ∧
    Fits p.handler.T.signed p.handler.T.bits (p.handler.room p.val n) := by
  obtain ⟨hlo, hhi⟩ := (inRange_iff_declared hd).mp hp
  have hmin : Fits _ _ _ := p.handler.min_repr
  have hmax : Fits _ _ _ := p.handler.max_repr
  have hspan := hd.span
  obtain ⟨k, hk⟩ : ∃ k, p.handler.T.bits = k + 1 :=
    ⟨p.handler.T.bits - 1, by have := p.handler.T.bits_pos; omega⟩
  have hbetween : 0 ≤ p.handler.room p.val n ∧
      p.handler.room p.val n ≤ p.handler.max - p.handler.min := by
    unfold ValHandler.room
    split_ifs <;> omega
  refine ⟨hbetween.1, ?_⟩
  cases hsg : p.handler.T.signed
  · rw [hsg, fits_unsigned_iff] at hmin hmax
    rw [fits_unsigned_iff]
    omega
  · have hhalf := hspan hsg
    rw [hk, Nat.add_sub_cancel] at hhalf
    rw [hk, fits_signed_iff]
    omega

/-- The condition of a step is that its product is defined, if needed, and that truncation does
not change the distance cut at the room. -/
lemma stepExact_iff (hp : p.InRange) {n s : ℤ} (hs : 0 ≤ s) :
    StepExact p.handler p.val n s ↔
      (p.handler.T.arith.signed = true → p.handler.T.arith.Repr (s * |n|)) ∧
        min (wrap p.handler.T.signed p.handler.T.bits (s * |n|)) (p.handler.room p.val n) =
          min (s * |n|) (p.handler.room p.val n) := by
  obtain ⟨hroom, hfit⟩ := room_nonneg_fits hd hp n
  have hprod : 0 ≤ s * |n| := mul_nonneg hs (abs_nonneg n)
  obtain ⟨k, hk⟩ : ∃ k, p.handler.T.bits = k + 1 :=
    ⟨p.handler.T.bits - 1, by have := p.handler.T.bits_pos; omega⟩
  have hsmall : s * |n| ≤ p.handler.room p.val n → p.handler.T.arith.Repr (s * |n|) := by
    intro hle
    refine CType.repr_arith (CType.Repr.of_between ?_ hfit hprod hle)
    cases p.handler.T <;> decide
  unfold StepExact
  rw [hk] at hfit ⊢
  rw [min_wrap_eq_min_iff hprod hroom hfit, Nat.add_sub_cancel]
  constructor
  · rintro (hle | ⟨hrepr, hkept⟩)
    · exact ⟨fun _ => hsmall hle, Or.inl hle⟩
    · exact ⟨hrepr, Or.inr hkept⟩
  · rintro ⟨hrepr, hle | hkept⟩
    · exact Or.inl hle
    · exact Or.inr ⟨hrepr, hkept⟩

/-- **One step.** From a value in range, a step ends where exact arithmetic and the bounds put it
exactly when its condition holds. -/
theorem stepsize_clamps_iff (hp : p.InRange) {n s : ℤ} (hn : |n| ≤ 57344) (hs : 0 ≤ s) :
    (p.stepsize n s).map Val.val = some (clamp p.handler (p.val + n * s)) ↔
      StepExact p.handler p.val n s := by
  obtain ⟨hlo, hhi⟩ := (inRange_iff_declared hd).mp hp
  have hprod : 0 ≤ s * |n| := mul_nonneg hs (abs_nonneg n)
  have hclamp : p.handler.min ≤ clamp p.handler (p.val + n * s) ∧
      clamp p.handler (p.val + n * s) ≤ p.handler.max := by
    unfold clamp
    omega
  rw [stepExact_iff hd hp hs]
  have hr := stepResult_eq_wrap hd hn s
  by_cases hrepr : p.handler.T.arith.signed = true → p.handler.T.arith.Repr (s * |n|)
  · rw [if_pos hrepr] at hr
    have hfar := stepResult_near hd hn hr
    rw [and_iff_right hrepr]
    generalize wrap p.handler.T.signed p.handler.T.bits (s * |n|) = r at hr hfar ⊢
    by_cases hneg : n < 0
    · have hmove : n * s = -(s * |n|) := by
        rw [abs_of_neg hneg]
        ring
      rw [stepsize_of_neg hd hp hr hneg, ValHandler.room, if_pos hneg]
      by_cases hroom : r > p.val - p.handler.min
      · rw [if_pos hroom, Option.map_some, Val.set_val, Option.some.injEq, hmove]
        unfold clamp
        omega
      · rw [if_neg hroom, map_val_assign_eq_iff hd (hfar.imp (fun h => by omega)
          fun h => ⟨h.1, by omega, by omega⟩) hclamp, hmove]
        unfold clamp
        omega
    · have hmove : n * s = s * |n| := by
        rw [abs_of_nonneg (by omega)]
        ring
      rw [stepsize_of_nonneg hd hp hr hneg, ValHandler.room, if_neg hneg]
      by_cases hroom : r > p.handler.max - p.val
      · rw [if_pos hroom, Option.map_some, Val.set_val, Option.some.injEq, hmove]
        unfold clamp
        omega
      · rw [if_neg hroom, map_val_assign_eq_iff hd (hfar.imp (fun h => by omega)
          fun h => ⟨h.1, by omega, by omega⟩) hclamp, hmove]
        unfold clamp
        omega
  · rw [if_neg hrepr] at hr
    have hnone : p.stepsize n s = none := by
      simp only [Val.stepsize, hr, Option.bind_eq_bind, Option.bind_none]
    simp [hnone, hrepr]

end Step

/-! ### The shipped table -/

/-- The parameter ends a step, and a big step, where exact arithmetic and the bounds put it. -/
def Clamps (p : Val) (n : ℤ) : Prop :=
  (p.step n).map Val.val = some (clamp p.handler (p.val + n * p.handler.step)) ∧
    (p.bigstep n).map Val.val = some (clamp p.handler (p.val + n * p.handler.bigstep))

/-- **Stepping, and exactly when it clamps.** For every row of the shipped table, every value in
its range and every count `enco_update` returns, `step` ends at the clamped exact value if and only
if `StepExact` holds of the step, and `bigstep` if and only if it holds of the big step. -/
theorem step_clamps_iff (row : Row) (hrow : row ∈ parametres) (p : Val)
    (hp : p.handler = row.handler) (hin : p.handler.min ≤ p.val ∧ p.val ≤ p.handler.max)
    (e : Enco) :
    ((p.step (encoUpdate e).1).map Val.val =
        some (clamp p.handler (p.val + (encoUpdate e).1 * p.handler.step)) ↔
      StepExact p.handler p.val (encoUpdate e).1 p.handler.step) ∧
    ((p.bigstep (encoUpdate e).1).map Val.val =
        some (clamp p.handler (p.val + (encoUpdate e).1 * p.handler.bigstep)) ↔
      StepExact p.handler p.val (encoUpdate e).1 p.handler.bigstep) := by
  have hd : p.handler.Declared := by
    rw [hp]
    exact declared_of_mem_parametres row hrow
  have hrange : p.InRange := (inRange_iff_declared hd).mpr hin
  have hn := abs_encoUpdate_le e
  exact ⟨stepsize_clamps_iff hd hrange hn hd.step_nonneg,
    stepsize_clamps_iff hd hrange hn hd.bigstep_nonneg⟩

/-- Two detents to the right on the brightness. -/
theorem brightness_clamps :
    (((Val.new brightness.handler).step (encoUpdate ⟨0xFFFF / 4 + 8, 0, 0⟩).1).map Val.val =
        some (clamp brightness.handler (60 + (encoUpdate ⟨0xFFFF / 4 + 8, 0, 0⟩).1 * 1)) ↔
      StepExact brightness.handler 60 (encoUpdate ⟨0xFFFF / 4 + 8, 0, 0⟩).1 1) ∧
    (((Val.new brightness.handler).bigstep (encoUpdate ⟨0xFFFF / 4 + 8, 0, 0⟩).1).map Val.val =
        some (clamp brightness.handler (60 + (encoUpdate ⟨0xFFFF / 4 + 8, 0, 0⟩).1 * 10)) ↔
      StepExact brightness.handler 60 (encoUpdate ⟨0xFFFF / 4 + 8, 0, 0⟩).1 10) :=
  step_clamps_iff brightness (List.mem_of_getElem? (i := 6) rfl) (Val.new brightness.handler) rfl
    (by decide) ⟨0xFFFF / 4 + 8, 0, 0⟩

/-- **Stepping does not always clamp.** Thirty-seven detents between two scans make `enco_update`
return 259; as an unsigned byte that is 3, and the brightness goes from 60 to 63 instead of 100. -/
theorem not_clamps_brightness :
    ¬ ∀ row ∈ parametres, ∀ p : Val, p.handler = row.handler →
      (p.handler.min ≤ p.val ∧ p.val ≤ p.handler.max) →
      ∀ e : Enco, Clamps p (encoUpdate e).1 := by
  intro hall
  have hstep := (hall brightness (List.mem_of_getElem? (i := 6) rfl) (Val.new brightness.handler)
    rfl (by decide) ⟨0xFFFF / 4 + 148, 0, 0⟩).1
  have hval : ((Val.new brightness.handler).step (encoUpdate ⟨0xFFFF / 4 + 148, 0, 0⟩).1).map
      Val.val = some 63 := by decide
  have hclamp : clamp brightness.handler (60 + (encoUpdate ⟨0xFFFF / 4 + 148, 0, 0⟩).1 * 1) =
      100 := by decide
  rw [hval] at hstep
  exact absurd (hstep.trans (congrArg some hclamp)) (by decide)

end PanelFirmware.Prm
