import PanelFirmware.Prm.Store

/-!
# `prmsystem/src/prmSystem.cpp` `deserialize`: its specification on every buffer

`deserialize` judges a buffer by its magic and by the remainder of the checksum over all of it,
then lets each parameter of the class judge its own bytes. The specification names the parts of
the buffer by their places:

* `Stored`: the first two bytes are the magic, the last two the checksum of what precedes them.
* `offset`: where a parameter's bytes are, behind the magic and the parameters of the class that
  precede it in the table, accepted or not.
* `ValHandler.Within`: the number read is in the parameter's range and is a number.
* `deserialize_spec`: on every buffer of the announced length.
-/

namespace PanelFirmware.Prm

open PanelFirmware.Lib PanelFirmware.Utils

/-! ### The range of a parameter -/

/-- The number an object of the type stands for, up to the order of such numbers. -/
def CType.key : CType → ℤ → ℤ
  | float, b => floatKey b
  | _, v => v

/-- `a > b` is false where one of them is not a number, and else compares the numbers. -/
lemma CType.gt_iff_key (T : CType) (a b : ℤ) :
    T.gt a b = true ↔ T.isNan a = false ∧ T.isNan b = false ∧ T.key b < T.key a := by
  cases T
  case float =>
    simp only [CType.gt, CType.isNan, CType.key, Bool.and_eq_true, Bool.not_eq_true',
      decide_eq_true_eq, and_assoc]
  all_goals simp [CType.gt, CType.isNan, CType.key]

/-- The value is a number and on the right side of both bounds; a bound of a `float` parameter
that is not a number bounds nothing. -/
def ValHandler.Within (h : ValHandler) (v : ℤ) : Prop :=
  h.T.isNan v = false ∧ (h.T.isNan h.min = false → h.T.key h.min ≤ h.T.key v) ∧
    (h.T.isNan h.max = false → h.T.key v ≤ h.T.key h.max)

instance (h : ValHandler) (v : ℤ) : Decidable (h.Within v) :=
  inferInstanceAs (Decidable (_ ∧ (_ → _) ∧ (_ → _)))

/-- The tests of `deserialize` accept exactly the range. -/
lemma accepts_iff_within (h : ValHandler) (v : ℤ) : Val.accepts h v = true ↔ h.Within v := by
  unfold Val.accepts ValHandler.Within CType.lt
  rw [Bool.and_eq_true, Bool.not_eq_true', Bool.not_eq_true', Bool.or_eq_false_iff]
  refine and_congr_right fun hv => ?_
  rw [← Bool.not_eq_true, ← Bool.not_eq_true, CType.gt_iff_key, CType.gt_iff_key, and_comm]
  have hnum : ∀ {P Q : Prop}, ¬ (P ∧ h.T.isNan v = false ∧ ¬ Q) ↔ (P → Q) := by
    intro P Q
    simp [hv]
  have hnum' : ∀ {P Q : Prop}, ¬ (h.T.isNan v = false ∧ P ∧ ¬ Q) ↔ (P → Q) := by
    intro P Q
    simp [hv]
  rw [← not_le, ← not_le, hnum, hnum']

/-! ### The places of the buffer -/

/-- The magic in front, and at the end the checksum of what precedes it. -/
def Stored (src : List Byte) : Prop :=
  src.take 2 = toBytesLE 2 magic ∧
    (crc16Calc crcModBus (src.take (src.length - 2))).map (fun crc => toBytesLE 2 crc.toNat) =
      some (src.drop (src.length - 2))

instance (src : List Byte) : Decidable (Stored src) := inferInstanceAs (Decidable (_ ∧ _))

/-- Where the bytes of the `i`-th parameter are, if it is of the class. -/
def offset (save : Save) (vals : List Val) (i : ℕ) : ℕ := 2 + valsSize save (vals.take i)

/-- The value of the parameter's type in the bytes from `off` on. -/
def Val.decoded (p : Val) (src : List Byte) (off : ℕ) : ℤ :=
  p.handler.T.ofBytes ((src.drop off).take p.getsize)

/-- The value the parameter has after `deserialize` accepted the buffer and read it at `off`. -/
def Val.reads (p : Val) (src : List Byte) (off : ℕ) : ℤ :=
  if p.handler.Within (p.decoded src off) then p.decoded src off else p.val

/-- A parameter reads no byte beyond its own. -/
lemma ofBytes_take (T : CType) (src : List Byte) : T.ofBytes (src.take T.size) = T.ofBytes src := by
  unfold CType.ofBytes decode
  rw [List.take_take, min_self]

/-- One parameter judges and reads its own bytes. -/
lemma Val.val_deserialize (p : Val) (src : List Byte) (off : ℕ) :
    (p.deserialize (src.drop off)).2.val = p.reads src off := by
  have hread : p.handler.T.ofBytes (src.drop off) = p.decoded src off :=
    (ofBytes_take p.handler.T (src.drop off)).symm
  have hiff := accepts_iff_within p.handler (p.decoded src off)
  rw [← hread] at hiff
  unfold Val.reads
  rw [Val.deserialize_eq, ← hread]
  by_cases hin : p.handler.Within (p.handler.T.ofBytes (src.drop off))
  · rw [if_pos (hiff.mpr hin), if_pos hin, Val.set_val]
  · rw [if_neg (fun hacc => hin (hiff.mp hacc)), if_neg hin]

/-- The parameters before a parameter of the class, and it, are among those counted. -/
lemma valsSize_take_add_le {save : Save} {vals : List Val} {i : ℕ} {p : Val}
    (hp : vals[i]? = some p) (hsave : p.getsave = save) :
    valsSize save (vals.take i) + p.getsize ≤ valsSize save vals := by
  induction vals generalizing i with
  | nil => simp at hp
  | cons q qs ih =>
      cases i with
      | zero =>
          obtain rfl : q = p := by simpa using hp
          rw [List.take_zero, valsSize, valsSize, if_pos hsave.symm]
          omega
      | succ i =>
          have hrest := ih (by simpa using hp)
          rw [List.take_succ_cons, valsSize, valsSize]
          split_ifs <;> omega

/-- The reading loop leaves the `i`-th parameter as it is or lets it judge the bytes behind those
of the class before it, whatever became of these. -/
lemma getElem?_deserializeVals {save : Save} {vals : List Val} {i : ℕ} {p : Val}
    (hp : vals[i]? = some p) (src : List Byte) :
    (deserializeVals save vals src)[i]? = some (if save = p.getsave then
      (p.deserialize (src.drop (valsSize save (vals.take i)))).2 else p) := by
  induction vals generalizing i src with
  | nil => simp at hp
  | cons q qs ih =>
      cases i with
      | zero =>
          obtain rfl : q = p := by simpa using hp
          rw [deserializeVals, List.take_zero, valsSize, List.drop_zero]
          split_ifs <;> rfl
      | succ i =>
          have hp' : qs[i]? = some p := by simpa using hp
          rw [deserializeVals, List.take_succ_cons, valsSize]
          by_cases hs : save = q.getsave
          · rw [if_pos hs, if_pos hs, List.getElem?_cons_succ, ih hp', List.drop_drop]
          · rw [if_neg hs, if_neg hs, List.getElem?_cons_succ, ih hp']

/-- The reading loop neither adds nor drops a parameter. -/
lemma length_deserializeVals (save : Save) (vals : List Val) (src : List Byte) :
    (deserializeVals save vals src).length = vals.length := by
  induction vals generalizing src with
  | nil => rfl
  | cons p ps ih =>
      rw [deserializeVals]
      split_ifs
      · rw [List.length_cons, List.length_cons, ih]
      · rw [List.length_cons, List.length_cons, ih]

/-! ### The verdict -/

/-- The magic is compared as a number or as its bytes. -/
lemma ofBytesLE_eq_magic_iff {bs : List Byte} (hlen : bs.length = 2) :
    ofBytesLE bs = magic ↔ bs = toBytesLE 2 magic := by
  constructor
  · intro h
    rw [← h, ← hlen, toBytesLE_ofBytesLE]
  · rintro rfl
    decide

/-- `deserialize` of a buffer that has room for magic and checksum tests `Stored`. -/
lemma deserialize_eq_of_length {src : List Byte} (h4 : 4 ≤ src.length) (vals : List Val)
    (save : Save) :
    deserialize vals save src src.length = some (if Stored src then
      (true, deserializeVals save vals (src.drop 2)) else (false, vals)) := by
  have htwo : (src.take 2).length = 2 := by
    rw [List.length_take]
    omega
  have hmagic := ofBytesLE_eq_magic_iff htwo
  have hbody : src.take (src.length - 2) ≠ [] := by
    rw [← List.length_pos_iff, List.length_take]
    omega
  have hstored : (src.drop (src.length - 2)).length = 2 := by
    rw [List.length_drop]
    omega
  have hcrc := crc16Calc_eq_zero_iff hbody hstored
  have hne : src ≠ [] := by
    rw [← List.length_pos_iff]
    omega
  rw [List.take_append_drop, crc16Calc_crcModBus hne, Option.some.injEq] at hcrc
  have hiff : Stored src ↔ ofBytesLE (src.take 2) = magic ∧
      byteSteps polyModBus 0xFFFF#16 src = 0#16 := by
    unfold Stored
    rw [hmagic, hcrc, Option.map_eq_some_iff]
    simp only [eq_comm]
  unfold deserialize
  rw [List.take_length, crc16Calc_crcModBus hne]
  simp only [Option.bind_eq_bind, Option.bind_some]
  by_cases hm : ofBytesLE (src.take 2) = magic
  · rw [if_neg (not_not.mpr hm)]
    by_cases hz : byteSteps polyModBus 0xFFFF#16 src = 0
    · rw [if_neg (not_not.mpr hz), if_pos (hiff.mpr ⟨hm, hz⟩)]
    · rw [if_pos hz, if_neg (fun hs => hz (hiff.mp hs).2)]
  · rw [if_pos hm, if_neg (fun hs => hm (hiff.mp hs).1)]

/-- **`deserialize` is its specification.** For every table and store, every class and every
buffer of the announced length: the answer is true exactly if the buffer starts with the magic and
ends in the checksum of what precedes it. If it is false no parameter changes. If it is true, every
parameter of the class takes the value at its offset if that is in its range and keeps its own
otherwise, its bytes lie before the checksum, and every other parameter is as it was. -/
theorem deserialize_spec (vals : List Val) (save : Save) (src : List Byte)
    (hlen : src.length = getSerialSize vals save) :
    ∃ accepted vals', deserialize vals save src (getSerialSize vals save) = some (accepted, vals') ∧
      (accepted = true ↔ Stored src) ∧ (accepted = false → vals' = vals) ∧
      (accepted = true → vals'.length = vals.length ∧ ∀ i p, vals[i]? = some p →
        ∃ q, vals'[i]? = some q ∧ q.handler = p.handler ∧ (p.getsave ≠ save → q.val = p.val) ∧
          (p.getsave = save → q.val = p.reads src (offset save vals i) ∧
            offset save vals i + p.getsize ≤ src.length - 2)) := by
  have h4 : 4 ≤ src.length := by
    rw [hlen, getSerialSize]
    omega
  have heq := deserialize_eq_of_length h4 vals save
  rw [hlen] at heq
  by_cases hs : Stored src
  · rw [if_pos hs] at heq
    refine ⟨true, _, heq, by simp [hs], by simp, fun _ => ⟨length_deserializeVals _ _ _, ?_⟩⟩
    intro i p hp
    have hget : (deserializeVals save vals (src.drop 2))[i]? = _ :=
      getElem?_deserializeVals hp (src.drop 2)
    refine ⟨_, hget, ?_, fun hother => ?_, fun hsave => ⟨?_, ?_⟩⟩
    · split_ifs
      · exact Val.deserialize_handler _ _
      · rfl
    · rw [if_neg (Ne.symm hother)]
    · rw [if_pos hsave.symm, List.drop_drop, Val.val_deserialize]
      rfl
    · have hroom := valsSize_take_add_le hp hsave
      rw [hlen, getSerialSize, offset]
      omega
  · rw [if_neg hs] at heq
    exact ⟨false, vals, heq, by simp [hs], fun _ => rfl, by simp⟩

/-- An image of the sample table whose first parameter is out of range and whose second one is
not. -/
theorem sampleTable_deserialize :
    ∃ accepted vals', deserialize (sampleTable.map Val.new) .savesys
        [0x05, 0x28, 2, 0, 0, 0x40, 0x40, 0x01, 0xD8] 9 = some (accepted, vals') ∧
      (accepted = true ↔ Stored [0x05, 0x28, 2, 0, 0, 0x40, 0x40, 0x01, 0xD8]) ∧
      (accepted = false → vals' = sampleTable.map Val.new) ∧
      (accepted = true → vals'.length = (sampleTable.map Val.new).length ∧
        ∀ i p, (sampleTable.map Val.new)[i]? = some p →
          ∃ q, vals'[i]? = some q ∧ q.handler = p.handler ∧ (p.getsave ≠ .savesys → q.val = p.val) ∧
            (p.getsave = .savesys →
              q.val = p.reads [0x05, 0x28, 2, 0, 0, 0x40, 0x40, 0x01, 0xD8]
                (offset .savesys (sampleTable.map Val.new) i) ∧
              offset .savesys (sampleTable.map Val.new) i + p.getsize ≤ 9 - 2)) :=
  deserialize_spec (sampleTable.map Val.new) .savesys _ (by decide)

end PanelFirmware.Prm
