import PanelFirmware.Modbus.Transfer

/-!
# Parameters declared read-only

The fourth column of the parameter table declares an access. The generator does not put it into
the handlers, and `eMBRegHoldingCB` has nothing to check: a write request moves a parameter
declared `chmodR` like any other.

* `code_write_ne_none`: when a write request returns at all.
* `readOnly_iff`: exactly when a write request leaves every parameter declared `chmodR`.
-/

namespace PanelFirmware.Modbus

open PanelFirmware.Lib PanelFirmware.Prm

/-- The value a parameter comes to after its callback: the version number, for the one callback
there is. -/
def called (version : Version) (h : ValHandler) (v : ℤ) : ℤ :=
  match h.callback with
  | none => v
  | some .getFwVer =>
      match version.number h.arg with
      | some n => h.T.conv n
      | none => v

/-- The parameter is given the value that it has. -/
def Slot.Keeps (version : Version) (src : ℕ → Byte) (s : Slot) : Prop :=
  called version s.prm.handler (s.value src) = s.prm.val

/-- The walk of a write request does not come, with registers left, to a parameter that the
staging buffer does not take. -/
def InBuffer (vals : List Val) (src : ℕ → Byte) (usAddress usNRegs : ℕ) : Prop :=
  ∀ q, used (movedBy vals src usAddress usNRegs) < usNRegs →
    vals[entry vals usAddress + (movedBy vals src usAddress usNRegs).length]? = some q →
      Stageable q.getsize

/-! ### What is left as it was -/

/-- The value of a parameter after its callback. -/
lemma val_call (version : Version) (p : Val) (read : Bool) :
    (p.call version read).val = called version p.handler p.val := by
  unfold Val.call called
  cases p.handler.callback with
  | none => rfl
  | some c =>
      cases c
      unfold Val.getFwVer
      cases version.number p.handler.arg <;> rfl

/-- A write leaves the value of a parameter exactly when it gives it the value that it has. -/
lemma written_val_iff (version : Version) (src : ℕ → Byte) (s : Slot) :
    (s.written version src).val = s.prm.val ↔ s.Keeps version src := by
  rw [Slot.written, val_call]
  exact Iff.rfl

section Call

variable (version : Version) {vals : List Val} {src : ℕ → Byte} {usAddress usNRegs : ℕ}

/-- A write request returns a code exactly when it stays within the staging buffer. -/
lemma code_write_ne_none :
    (eMBRegHoldingCB version vals src usAddress usNRegs .write).code ≠ none ↔
      InBuffer vals src usAddress usNRegs := by
  have hle : used (movedBy vals src usAddress usNRegs) ≤ usNRegs := used_moved_le _ _ _
  rw [code_write]
  unfold InBuffer
  by_cases hdone : used (movedBy vals src usAddress usNRegs) = usNRegs
  · rw [hdone, Nat.sub_self, stopCode_zero]
    exact iff_of_true (Option.some_ne_none _) fun q hlt => absurd hlt (lt_irrefl _)
  · have hlt : used (movedBy vals src usAddress usNRegs) < usNRegs := lt_of_le_of_ne hle hdone
    have hleft := Nat.sub_ne_zero_of_lt hlt
    rw [forall_congr' fun _ => forall_prop_of_true hlt]
    cases hnext : vals[entry vals usAddress + (movedBy vals src usAddress usNRegs).length]? with
    | none =>
        rw [List.drop_eq_nil_of_le (List.getElem?_eq_none_iff.mp hnext), stopCode_nil hleft]
        exact iff_of_true (Option.some_ne_none _) fun q hq =>
          absurd hq.symm (Option.some_ne_none q)
    | some p =>
        obtain ⟨hbound, hget⟩ := List.getElem?_eq_some_iff.mp hnext
        rw [List.drop_eq_getElem_cons hbound, hget, stopCode_cons hleft]
        by_cases hstage : Stageable p.getsize
        · rw [if_pos hstage]
          refine iff_of_true (Option.some_ne_none _) fun q hq => ?_
          rw [← Option.some.inj hq]
          exact hstage
        · rw [if_neg hstage]
          exact iff_of_false (fun h => h rfl) fun h => hstage (h p rfl)

/-- A parameter that is not moved is as it was. -/
lemma getElem?_write_of_not {i : ℕ}
    (h : ∀ j, i = entry vals usAddress + j → (movedBy vals src usAddress usNRegs)[j]? = none) :
    (eMBRegHoldingCB version vals src usAddress usNRegs .write).vals[i]? = vals[i]? := by
  by_cases hi : i < entry vals usAddress
  · have hlen : i < (vals.take (entry vals usAddress)).length := by
      rw [List.length_take, Nat.min_eq_left entry_le]
      exact hi
    rw [vals_write, List.getElem?_append_left hlen, List.getElem?_take_of_lt hi]
  · obtain ⟨j, rfl⟩ := Nat.exists_eq_add_of_le (Nat.le_of_not_lt hi)
    have hj := List.getElem?_eq_none_iff.mp (h j rfl)
    have hlen : ((movedBy vals src usAddress usNRegs).map (·.written version src)).length ≤ j := by
      rw [List.length_map]
      exact hj
    rw [← List.getElem?_drop, drop_write, List.getElem?_append_right hlen, List.length_map,
      List.getElem?_drop, Nat.add_assoc, Nat.add_sub_cancel' hj]

end Call

/-! ### The shipped table -/

/-- **Read-only parameters, and exactly when they are left.** For every store (over the shipped
table, for a row to declare the parameter at its place), every start address, count and payload: a
write request returns and leaves the value of every parameter declared `chmodR`, if and only if
its walk stays within the staging buffer and gives each such parameter that it moves the value that
it has. -/
theorem readOnly_iff (version : Version) (vals : List Val) (src : ℕ → Byte)
    (usAddress usNRegs : ℕ) :
    let w := eMBRegHoldingCB version vals src usAddress usNRegs .write
    (w.code ≠ none ∧ ∀ (i : ℕ) (row : Row), parametres[i]? = some row → row.chmod = .chmodR →
        (w.vals[i]?).map Val.val = (vals[i]?).map Val.val) ↔
      InBuffer vals src usAddress usNRegs ∧
        ∀ (j : ℕ) (s : Slot) (row : Row), (movedBy vals src usAddress usNRegs)[j]? = some s →
          parametres[entry vals usAddress + j]? = some row → row.chmod = .chmodR →
          s.Keeps version src := by
  intro w
  rw [show w.code ≠ none ↔ _ from code_write_ne_none version]
  refine and_congr_right fun _ => ⟨fun h j s row hs hrow hmod => ?_, fun h i row hrow hmod => ?_⟩
  · have hkept := h _ row hrow hmod
    rw [getElem?_write version hs, (getElem?_movedBy hs).1, Option.map_some, Option.map_some,
      Option.some.injEq] at hkept
    exact (written_val_iff version src s).mp hkept
  · by_cases hmoved : ∃ j s, i = entry vals usAddress + j ∧
        (movedBy vals src usAddress usNRegs)[j]? = some s
    · obtain ⟨j, s, rfl, hs⟩ := hmoved
      rw [getElem?_write version hs, (getElem?_movedBy hs).1, Option.map_some, Option.map_some,
        Option.some.injEq]
      exact (written_val_iff version src s).mpr (h j s row hs hrow hmod)
    · rw [getElem?_write_of_not version fun j hj => ?_]
      exact Option.eq_none_iff_forall_ne_some.mpr fun s hs => hmoved ⟨j, s, hj, hs⟩

/-- A request of 20 registers that begins at `reboot` and ends at `Umeas`, each value in range. -/
def umeasRequest : ℕ → Byte := fun i =>
  [0, 0, 0, 0, 0, 1, 0, 1, 0, 1, 0, 1, 0, 0, 0, 0, 0, 0, 0, 0, 0, 0, 0, 0, 0x46, 0x80, 0x58, 0x68,
    0, 0, 0, 0, 0, 0, 0, 0, 0, 1, 0, 0].getD i 0

/-- **A read-only parameter is written.** The request returns `MB_ENOERR`, and the measured voltage
`Umeas`, which was 0, is 1. -/
theorem umeas_written :
    ¬ ∀ (version : Version) (vals : List Val), SameTable valuearray vals →
      ∀ (src : ℕ → Byte) (usAddress usNRegs : ℕ), 1 ≤ usNRegs → usNRegs ≤ regcntMax .write →
        let w := eMBRegHoldingCB version vals src usAddress usNRegs .write
        w.code ≠ none → ∀ (i : ℕ) (row : Row), parametres[i]? = some row → row.chmod = .chmodR →
          (w.vals[i]?).map Val.val = (vals[i]?).map Val.val := by
  intro h
  have hkept := h ⟨1, 0, 0, 0⟩ valuearray rfl umeasRequest 0x0112 20 (by decide) (by decide)
    (by decide +kernel) 45 _ rfl rfl
  exact absurd hkept (by decide +kernel)

end PanelFirmware.Modbus
