import PanelFirmware.Modbus.Staging

/-!
# The addresses a request of several registers reaches

`eMBRegHoldingCB` finds the first parameter by its address and every further one by its place in
the table. The shipped table declares six registers in a row (0 to 5) and three single ones; a
request that leaves them moves parameters declared elsewhere.

* `calls_of_contiguous`: over any table, a walk that stays where the declared addresses follow
  each other moves the parameters addressed.
* `addressed_iff`: over the shipped table, the requests that are served as addressed.
-/

namespace PanelFirmware.Modbus

open PanelFirmware.Lib PanelFirmware.Prm

/-- A parameter is declared at the register, or its second half is. -/
def Occupied (table : List ValHandler) (register : ℕ) : Prop :=
  ∃ h ∈ table, h.addr ≤ register ∧ register < h.addr + registers h.T.size

instance (table : List ValHandler) (register : ℕ) : Decidable (Occupied table register) :=
  inferInstanceAs (Decidable (∃ h ∈ table, _ ∧ _))

/-- The request is served as addressed: each parameter moved is declared at the start address plus
the registers consumed before it; and when a register of the request is not declared, the answer
is `MB_ENOREG` and no parameter outside the request is moved. -/
structure Addressed (table : List ValHandler) (start usNRegs : ℕ) (w : Walk) : Prop where
  at_address : ∀ a ∈ w.calls, a.handler.addr = start + a.consumed
  of_gap : (∃ r, start ≤ r ∧ r < start + usNRegs ∧ ¬ Occupied table r) →
    w.code = some .enoreg ∧
      ∀ a ∈ w.calls, start ≤ a.handler.addr ∧ a.handler.addr < start + usNRegs

/-- The registers from an entry of the table on whose declared addresses follow each other,
beginning at `address`. -/
def contiguous : List ValHandler → ℕ → ℕ
  | [], _ => 0
  | h :: hs, address =>
      if h.addr = address ∧ Stageable h.T.size then
        registers h.T.size + contiguous hs (address + registers h.T.size)
      else 0

section Walk

variable (version : Version) (src : ℕ → Byte) (mode : RegisterMode)

/-- A walk over registers that follow each other moves each parameter at its address. -/
theorem calls_of_contiguous (start : ℕ) (ps : List Val) {consumed n : ℕ}
    (hn : n ≤ contiguous (ps.map Val.handler) (start + consumed)) :
    ∀ a ∈ (walk (bodyOf version src mode) ps consumed n).calls,
      a.handler.addr = start + a.consumed := by
  induction ps generalizing consumed n with
  | nil =>
      obtain rfl : n = 0 := by simpa [contiguous] using hn
      intro a ha
      exact absurd ha List.not_mem_nil
  | cons p ps ih =>
      cases n with
      | zero =>
          rw [walk_zero]
          intro a ha
          exact absurd ha List.not_mem_nil
      | succ n =>
          rw [List.map_cons, contiguous] at hn
          split_ifs at hn with hhead
          · obtain ⟨haddr, hstage⟩ := hhead
            rcases walk_cons version src mode hstage ps consumed n with
              ⟨-, hw⟩ | ⟨-, -, p', hw⟩ | ⟨hle, -, p', sent, ran, rest, hrest, hw⟩
            · rw [hw]
              intro a ha
              exact absurd ha List.not_mem_nil
            · rw [hw]
              intro a ha
              rw [List.mem_singleton.mp ha]
              exact haddr
            · rw [hw, hrest]
              intro a ha
              rcases List.mem_cons.mp ha with rfl | ha
              · exact haddr
              · exact ih (by rw [← Nat.add_assoc]; omega) a ha
          · exact absurd hn (by omega)

/-- A walk that has a parameter before it that the staging buffer does not take never runs off
the end of the table. -/
lemma code_ne_enoreg (ps : List Val) {r : ℕ}
    (hr : registersBefore (ps.map Val.handler) = some r) (consumed n : ℕ) :
    (walk (bodyOf version src mode) ps consumed n).code ≠ some .enoreg := by
  induction ps generalizing r consumed n with
  | nil => cases hr
  | cons p ps ih =>
      cases n with
      | zero =>
          rw [walk_zero]
          simp
      | succ n =>
          by_cases hstage : Stageable p.handler.T.size
          · rw [List.map_cons, registersBefore, if_pos hstage, Option.map_eq_some_iff] at hr
            obtain ⟨r', hr', -⟩ := hr
            rcases walk_cons version src mode hstage ps consumed n with
              ⟨-, hw⟩ | ⟨-, -, p', hw⟩ | ⟨-, -, p', sent, ran, rest, hrest, hw⟩
            · rw [hw]
              simp
            · rw [hw]
              simp
            · rw [hw, hrest]
              exact ih hr' _ _
          · rw [walk_overrun version src mode hstage]
            simp

end Walk

/-! ### The shipped table -/

/-- The entry found for a declared address of the shipped table: a parameter of eight bytes comes
after it, the registers that follow each other from it on are declared, and the one after them is
not. -/
lemma shipped_entry : ∀ h ∈ valuearray.map Val.handler,
    (registersBefore ((valuearray.map Val.handler).drop
        ((valuearray.map Val.handler).findIdx fun e => h.addr = e.addr))).isSome ∧
      (∀ k < contiguous ((valuearray.map Val.handler).drop
          ((valuearray.map Val.handler).findIdx fun e => h.addr = e.addr)) h.addr,
        Occupied (valuearray.map Val.handler) (h.addr + k)) ∧
      ¬ Occupied (valuearray.map Val.handler) (h.addr +
        contiguous ((valuearray.map Val.handler).drop
          ((valuearray.map Val.handler).findIdx fun e => h.addr = e.addr)) h.addr) := by
  decide +kernel

/-- **Requests of several registers, and exactly which are served as addressed.** For every store
over the shipped table, every start address, register count and payload and both modes: the
request is served as addressed if and only if no parameter is declared at its start, or every
register of it is declared. -/
theorem addressed_iff (version : Version) (vals : List Val) (hsame : SameTable valuearray vals)
    (src : ℕ → Byte) (usAddress usNRegs : ℕ) (mode : RegisterMode) :
    Addressed (valuearray.map Val.handler) (startAddress usAddress) usNRegs
        (eMBRegHoldingCB version vals src usAddress usNRegs mode) ↔
      (∀ h ∈ valuearray.map Val.handler, h.addr ≠ startAddress usAddress) ∨
        ∀ r, startAddress usAddress ≤ r → r < startAddress usAddress + usNRegs →
          Occupied (valuearray.map Val.handler) r := by
  have hcall : Addressed (valuearray.map Val.handler) (startAddress usAddress) usNRegs
      (eMBRegHoldingCB version vals src usAddress usNRegs mode) ↔
        Addressed (valuearray.map Val.handler) (startAddress usAddress) usNRegs
          (walk (bodyOf version src mode)
            (vals.drop (getbyaddress vals (startAddress usAddress))) 0 usNRegs) :=
    ⟨fun h => ⟨h.1, h.2⟩, fun h => ⟨h.1, h.2⟩⟩
  rw [hcall, getbyaddress_congr hsame, getbyaddress_eq_findIdx]
  generalize startAddress usAddress = start
  by_cases hdecl : ∀ h ∈ valuearray.map Val.handler, h.addr ≠ start
  · -- no entry is found, and the walk is over at once
    have hend : (valuearray.map Val.handler).findIdx (fun e => decide (start = e.addr))
        = vals.length := by
      have hlen : vals.length = (valuearray.map Val.handler).length := by
        rw [← show vals.map Val.handler = valuearray.map Val.handler from hsame, List.length_map]
      rw [hlen, List.findIdx_eq_length]
      intro h hmem
      exact decide_eq_false (Ne.symm (hdecl h hmem))
    rw [hend, List.drop_length]
    refine iff_of_true ⟨?_, ?_⟩ (Or.inl hdecl)
    · intro a ha
      cases usNRegs <;> exact absurd ha List.not_mem_nil
    · rintro ⟨r, h0, h1, -⟩
      cases usNRegs with
      | zero => omega
      | succ n => exact ⟨rfl, fun a ha => absurd ha List.not_mem_nil⟩
  · push Not at hdecl
    obtain ⟨h, hmem, rfl⟩ := hdecl
    obtain ⟨hroom, hrun, hgap⟩ := shipped_entry h hmem
    generalize (valuearray.map Val.handler).findIdx (fun e => decide (h.addr = e.addr)) = i
      at hroom hrun hgap ⊢
    have htable : (vals.drop i).map Val.handler = (valuearray.map Val.handler).drop i := by
      rw [List.map_drop, show vals.map Val.handler = valuearray.map Val.handler from hsame]
    rw [← htable] at hroom hrun hgap
    obtain ⟨r, hr⟩ := Option.isSome_iff_exists.mp hroom
    by_cases hn : usNRegs ≤ contiguous ((vals.drop i).map Val.handler) h.addr
    · have hall : ∀ x, h.addr ≤ x → x < h.addr + usNRegs →
          Occupied (valuearray.map Val.handler) x := by
        intro x h0 h1
        have hx := hrun (x - h.addr) (by omega)
        rw [Nat.add_sub_cancel' h0] at hx
        exact hx
      refine iff_of_true ⟨calls_of_contiguous version src mode _ _ hn, ?_⟩ (Or.inr hall)
      rintro ⟨x, h0, h1, hx⟩
      exact absurd (hall x h0 h1) hx
    · refine iff_of_false ?_ ?_
      · intro hserved
        have hcode := hserved.of_gap ⟨_, Nat.le_add_right _ _, by omega, hgap⟩
        exact code_ne_enoreg version src mode _ hr 0 usNRegs hcode.1
      · rintro (hnone | hall)
        · exact hnone h hmem rfl
        · exact hgap (hall _ (Nat.le_add_right _ _) (by omega))

/-- The six registers in a row are served as addressed. -/
theorem addressed_settings :
    Addressed (valuearray.map Val.handler) (startAddress 1) 6
      (eMBRegHoldingCB ⟨1, 0, 0, 0⟩ valuearray (fun _ => 0) 1 6 .read) := by
  refine (addressed_iff ⟨1, 0, 0, 0⟩ valuearray rfl (fun _ => 0) 1 6 .read).mpr (Or.inr ?_)
  have hall : ∀ r < 6, Occupied (valuearray.map Val.handler) r := by decide +kernel
  intro r _ hr
  exact hall r hr

/-- **A request is served beside its addresses.** A read of two registers at `brightness` moves
`bpWelcomeOnOff` as the second one, which is declared at the same address and not at the next. -/
theorem not_addressed_brightness :
    ¬ ∀ (version : Version) (vals : List Val), SameTable valuearray vals →
      ∀ (src : ℕ → Byte) (usAddress usNRegs : ℕ) (mode : RegisterMode),
        1 ≤ usNRegs → usNRegs ≤ regcntMax mode →
        Addressed (valuearray.map Val.handler) (startAddress usAddress) usNRegs
          (eMBRegHoldingCB version vals src usAddress usNRegs mode) := by
  intro hall
  have hserved := hall ⟨1, 0, 0, 0⟩ valuearray rfl (fun _ => 0) 0x0102 2 .read (by decide)
    (by decide)
  have hgap : ¬ Occupied (valuearray.map Val.handler) 0x0102 := by decide +kernel
  have hcode : (eMBRegHoldingCB ⟨1, 0, 0, 0⟩ valuearray (fun _ => 0) 0x0102 2 .read).code
      = some .enoerr := by decide +kernel
  have hanswer := (hserved.of_gap ⟨0x0102, by decide, by decide, hgap⟩).1
  rw [hcode] at hanswer
  cases hanswer

end PanelFirmware.Modbus
