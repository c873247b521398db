import PanelFirmware.Modbus.PortTcp

/-!
# The staging buffer of `eMBRegHoldingCB`

A parameter of size 1, 2 or 4 fits the staging buffer, and an iteration fills what it hands on. A
parameter of another size (the shipped table has one, `mac0`, of eight bytes) does neither. The
walk enters the table at a declared address and goes on by position, so that it comes to that
parameter whenever the request has registers left there.

* `stagingSafe_walk_iff`: over any table, when a walk stays within the buffer.
* `stagingSafe_iff`: over the shipped table, for each mode.
-/

namespace PanelFirmware.Modbus

open PanelFirmware.Lib PanelFirmware.Prm

/-- The sizes the `switch` of `eMBRegHoldingCB` handles. -/
def Stageable (prmsize : ℕ) : Prop := prmsize = 1 ∨ prmsize = 2 ∨ prmsize = 4

instance (prmsize : ℕ) : Decidable (Stageable prmsize) :=
  inferInstanceAs (Decidable (_ ∨ _ ∨ _))

/-- No call of the walk is made on a parameter larger than the staging buffer or, in write mode,
than what the iteration has filled of it. -/
def StagingSafe (mode : RegisterMode) (w : Walk) : Prop :=
  ∀ a ∈ w.calls, a.handler.T.size ≤ 4 ∧ a.handler.T.size ≤ filled mode a.handler.T.size

/-- The registers between an entry of the table and the first parameter after it that the staging
buffer does not take; `none` where there is no such parameter. -/
def registersBefore : List ValHandler → Option ℕ
  | [] => none
  | h :: hs =>
      if Stageable h.T.size then (registersBefore hs).map (· + registers h.T.size) else some 0

/-- The parameter takes what the request has for it: in read mode it always does, in write mode
when the value in the payload is in range. -/
def takes (mode : RegisterMode) (pucRegBuffer : ℕ → Byte) (h : ValHandler) (consumed : ℕ) : Bool :=
  match mode with
  | .read => true
  | .write => Val.accepts h (h.T.ofBytes
      (fromFrame (fun i => pucRegBuffer (2 * consumed + i)) h.T.size))

/-- A parameter before the first one that the staging buffer does not take refuses its value. -/
def refusedBefore (mode : RegisterMode) (pucRegBuffer : ℕ → Byte) : List ValHandler → ℕ → Bool
  | [], _ => false
  | h :: hs, consumed =>
      if Stageable h.T.size then
        !takes mode pucRegBuffer h consumed ||
          refusedBefore mode pucRegBuffer hs (consumed + registers h.T.size)
      else false

/-- The position of an address is read off the table. -/
lemma getbyaddress_eq_findIdx (vals : List Val) (address : ℕ) :
    getbyaddress vals address = (vals.map Val.handler).findIdx fun e => address = e.addr := by
  rw [List.findIdx_map]
  rfl

/-- Two stores over one table have it at one position. -/
lemma getbyaddress_congr {vals others : List Val} (h : SameTable vals others) (address : ℕ) :
    getbyaddress others address = getbyaddress vals address := by
  rw [getbyaddress_eq_findIdx, getbyaddress_eq_findIdx, h]

/-! ### One parameter -/

/-- A size is one the buffer takes, or eight. -/
lemma stageable_or (T : CType) : Stageable T.size ∨ T.size = 8 := by
  cases T <;> decide

/-- The buffer takes a size, and is filled for it, exactly when the `switch` handles the size. -/
lemma size_le_filled_iff (mode : RegisterMode) (T : CType) :
    (T.size ≤ 4 ∧ T.size ≤ filled mode T.size) ↔ Stageable T.size := by
  cases mode <;> cases T <;> decide

/-- A parameter takes a register or two. -/
lemma registers_pos {prmsize : ℕ} (h : Stageable prmsize) :
    registers prmsize = if prmsize = 4 then 2 else 1 := by
  rcases h with rfl | rfl | rfl <;> rfl

/-- As many bytes are filled as the registers hold. -/
lemma length_fromFrame (pucRegBuffer : ℕ → Byte) (prmsize : ℕ) :
    (fromFrame pucRegBuffer prmsize).length = 2 * registers prmsize := by
  unfold fromFrame registers
  split <;> rfl

/-- The callbacks an iteration has run where it overruns the staging buffer. -/
def ranAtOverrun : RegisterMode → Val → List Val.CallbackRun
  | .read, p => p.callbackRun true
  | .write, _ => []

/-- A loop body overruns the buffer on a size the `switch` does not handle. -/
lemma bodyOf_overrun (version : Version) (src : ℕ → Byte) (mode : RegisterMode) {p : Val}
    (h : ¬ Stageable p.handler.T.size) (consumed : ℕ) :
    bodyOf version src mode p consumed = .overrun (ranAtOverrun mode p) := by
  have hsize : p.getsize = 8 := (stageable_or p.handler.T).resolve_left h
  cases mode with
  | read =>
      have hstage : stage (p.call version true).serialize = none := by
        unfold stage
        rw [Val.length_serialize, Val.getsize, Val.call_handler]
        exact if_neg (by rw [show p.handler.T.size = 8 from hsize]; decide)
      simp only [bodyOf, readBody, hstage]
      rfl
  | write =>
      simp only [bodyOf, writeBody, length_fromFrame, hsize]
      rfl

/-- A loop body moves what the `switch` handles and the parameter takes. -/
lemma bodyOf_move (version : Version) {src : ℕ → Byte} {mode : RegisterMode} {p : Val}
    (h : Stageable p.handler.T.size) {consumed : ℕ}
    (htakes : takes mode src p.handler consumed = true) :
    ∃ p' sent ran, bodyOf version src mode p consumed = .move p' sent ran := by
  have hfit := (size_le_filled_iff mode p.handler.T).mpr h
  cases mode with
  | read =>
      have hstage : ∃ buffer, stage (p.call version true).serialize = some buffer := by
        unfold stage
        rw [Val.length_serialize, Val.getsize, Val.call_handler, if_pos hfit.1]
        exact ⟨_, rfl⟩
      obtain ⟨buffer, hbuffer⟩ := hstage
      exact ⟨p.call version true, toFrame buffer p.getsize, p.callbackRun true, by
        simp only [bodyOf, readBody, hbuffer]⟩
  | write =>
      have hfilled : p.getsize ≤ 2 * registers p.getsize := hfit.2
      have haccept := (Val.deserialize_eq p
        (fromFrame (fun i => src (2 * consumed + i)) p.getsize)).trans (if_pos htakes)
      simp only [bodyOf, writeBody, length_fromFrame, if_pos hfilled, haccept]
      exact ⟨_, _, _, rfl⟩

/-- A loop body rejects what the `switch` handles and the parameter does not take. -/
lemma bodyOf_reject (version : Version) {src : ℕ → Byte} {mode : RegisterMode} {p : Val}
    (h : Stageable p.handler.T.size) {consumed : ℕ}
    (htakes : takes mode src p.handler consumed = false) :
    ∃ p', bodyOf version src mode p consumed = .reject p' := by
  have hfit := (size_le_filled_iff mode p.handler.T).mpr h
  cases mode with
  | read => cases htakes
  | write =>
      have hfilled : p.getsize ≤ 2 * registers p.getsize := hfit.2
      have hreject := (Val.deserialize_eq p
        (fromFrame (fun i => src (2 * consumed + i)) p.getsize)).trans
          (if_neg (Bool.not_eq_true _ ▸ htakes))
      simp only [bodyOf, writeBody, length_fromFrame, if_pos hfilled, hreject]
      exact ⟨_, rfl⟩

/-! ### The walk -/

section Walk

variable (version : Version) (src : ℕ → Byte) (mode : RegisterMode)

/-- A request with no register left ends the walk. -/
lemma walk_zero (ps : List Val) (consumed : ℕ) :
    walk (bodyOf version src mode) ps consumed 0 = ⟨ps, [], [], [], some .enoerr⟩ := by
  cases ps <;> rfl

/-- The walk on a parameter that the staging buffer does not take. -/
lemma walk_overrun {p : Val} (h : ¬ Stageable p.handler.T.size) (ps : List Val)
    (consumed n : ℕ) : walk (bodyOf version src mode) (p :: ps) consumed (n + 1)
      = ⟨p :: ps, [], [⟨p.handler, consumed⟩], ranAtOverrun mode p, none⟩ := by
  have hsize : p.getsize = 8 := (stageable_or p.handler.T).resolve_left h
  rw [walk, if_neg (by omega), bodyOf_overrun version src mode h]

/-- The walk on a parameter that the staging buffer takes: too few registers are left, the value
is refused, or the walk goes on behind the registers of the parameter. -/
lemma walk_cons {p : Val} (h : Stageable p.handler.T.size) (ps : List Val) (consumed n : ℕ) :
    (n + 1 < registers p.handler.T.size ∧
        walk (bodyOf version src mode) (p :: ps) consumed (n + 1)
          = ⟨p :: ps, [], [], [], some .einval⟩) ∨
      (registers p.handler.T.size ≤ n + 1 ∧ takes mode src p.handler consumed = false ∧
        ∃ p', walk (bodyOf version src mode) (p :: ps) consumed (n + 1)
          = ⟨p' :: ps, [], [⟨p.handler, consumed⟩], [], some .einval⟩) ∨
      (registers p.handler.T.size ≤ n + 1 ∧ takes mode src p.handler consumed = true ∧
        ∃ p' sent ran rest, rest = walk (bodyOf version src mode) ps
            (consumed + registers p.handler.T.size) (n + 1 - registers p.handler.T.size) ∧
          walk (bodyOf version src mode) (p :: ps) consumed (n + 1)
            = ⟨p' :: rest.vals, sent ++ rest.sent, ⟨p.handler, consumed⟩ :: rest.calls,
                ran ++ rest.callbacks, rest.code⟩) := by
  have hsize : p.getsize = p.handler.T.size := rfl
  have hregs := registers_pos h
  rw [walk, hsize]
  by_cases hhalf : p.handler.T.size = 4 ∧ n + 1 < 2
  · left
    rw [if_pos hhalf]
    rw [if_pos hhalf.1] at hregs
    exact ⟨by omega, rfl⟩
  · right
    have hle : registers p.handler.T.size ≤ n + 1 := by
      rw [hregs]
      split_ifs <;> omega
    rw [if_neg hhalf]
    cases htakes : takes mode src p.handler consumed
    · obtain ⟨p', hp'⟩ := bodyOf_reject version h htakes
      exact Or.inl ⟨hle, rfl, p', by rw [hp']⟩
    · obtain ⟨p', sent, ran, hp'⟩ := bodyOf_move version h htakes
      exact Or.inr ⟨hle, rfl, p', sent, ran, _, rfl, by rw [hp']⟩

/-- **When a walk stays within the staging buffer**, over any table: its registers end before the
first parameter that the buffer does not take, or a value is refused before it. -/
theorem stagingSafe_walk_iff (ps : List Val) (consumed n : ℕ) :
    StagingSafe mode (walk (bodyOf version src mode) ps consumed n) ↔
      ∀ r, registersBefore (ps.map Val.handler) = some r →
        n ≤ r ∨ refusedBefore mode src (ps.map Val.handler) consumed = true := by
  induction ps generalizing consumed n with
  | nil =>
      cases n <;> simp [walk, StagingSafe, registersBefore]
  | cons p ps ih =>
      cases n with
      | zero => simp [walk_zero, StagingSafe]
      | succ n =>
          by_cases h : Stageable p.handler.T.size
          · have hfit := (size_le_filled_iff mode p.handler.T).mpr h
            simp only [List.map_cons, registersBefore, refusedBefore, if_pos h,
              Option.map_eq_some_iff, Bool.or_eq_true, Bool.not_eq_true']
            rcases walk_cons version src mode h ps consumed n with
              ⟨hlt, hw⟩ | ⟨hle, htakes, p', hw⟩ | ⟨hle, htakes, p', sent, ran, rest, hrest, hw⟩
            · rw [hw]
              refine ⟨fun _ r hr => ?_, fun _ a ha => absurd ha List.not_mem_nil⟩
              obtain ⟨r', -, rfl⟩ := hr
              exact Or.inl (by omega)
            · rw [hw]
              refine ⟨fun _ r _ => Or.inr (Or.inl htakes), fun _ a ha => ?_⟩
              rw [List.mem_singleton.mp ha]
              exact hfit
            · have hsafe : StagingSafe mode ⟨p' :: rest.vals, sent ++ rest.sent,
                  ⟨p.handler, consumed⟩ :: rest.calls, ran ++ rest.callbacks, rest.code⟩ ↔
                    StagingSafe mode rest := by
                unfold StagingSafe
                rw [List.forall_mem_cons]
                exact and_iff_right hfit
              rw [hw, hsafe, hrest, ih]
              constructor
              · rintro hall r ⟨r', hr', rfl⟩
                rcases hall r' hr' with hlt | href
                · exact Or.inl (by omega)
                · exact Or.inr (Or.inr href)
              · intro hall r' hr'
                rcases hall _ ⟨r', hr', rfl⟩ with hlt | href | href
                · exact Or.inl (by omega)
                · rw [htakes] at href
                  cases href
                · exact Or.inr href
          · rw [walk_overrun version src mode h]
            have hunfit := (size_le_filled_iff mode p.handler.T).not.mpr h
            simp only [List.map_cons, registersBefore, refusedBefore, if_neg h]
            constructor
            · intro hsafe
              exact absurd (hsafe ⟨p.handler, consumed⟩ List.mem_cons_self) hunfit
            · intro hall
              rcases hall 0 rfl with hlt | href
              · exact absurd hlt (by omega)
              · cases href

end Walk

/-- **The staging buffer, and exactly when it suffices.** For every store over the shipped table,
every start address, register count, payload and mode: no call is made on a parameter larger than
the staging buffer or than what the iteration has filled of it, if and only if the registers of
the request end before the parameter of eight bytes that follows the entry at the start address
(in particular, if no parameter is declared there), or, in write mode, a parameter before that one
refuses its value. -/
theorem stagingSafe_iff (version : Version) (vals : List Val) (hsame : SameTable valuearray vals)
    (src : ℕ → Byte) (usAddress usNRegs : ℕ) (mode : RegisterMode) :
    StagingSafe mode (eMBRegHoldingCB version vals src usAddress usNRegs mode) ↔
      ∀ r, registersBefore ((valuearray.map Val.handler).drop
          (getbyaddress vals (startAddress usAddress))) = some r →
        usNRegs ≤ r ∨ refusedBefore mode src ((valuearray.map Val.handler).drop
          (getbyaddress vals (startAddress usAddress))) 0 = true := by
  have htable : (vals.drop (getbyaddress vals (startAddress usAddress))).map Val.handler
      = (valuearray.map Val.handler).drop (getbyaddress vals (startAddress usAddress)) := by
    rw [List.map_drop, show vals.map Val.handler = valuearray.map Val.handler from hsame]
  rw [← htable]
  exact stagingSafe_walk_iff version src mode _ 0 usNRegs

/-- The most registers the stack accepts in one request.
Source: `freemodbus` `mbfuncholding.c`, `MB_PDU_FUNC_READ_REGCNT_MAX`,
`MB_PDU_FUNC_WRITE_MUL_REGCNT_MAX`. -/
def regcntMax : RegisterMode → ℕ
  | .read => 0x007D
  | .write => 0x0078

/-- A write of one register at the reboot parameter stays within the buffer. -/
theorem stagingSafe_reboot :
    StagingSafe .write (eMBRegHoldingCB ⟨1, 0, 0, 0⟩ valuearray (fun i => if i = 1 then 1 else 0)
      0x0112 1 .write) :=
  (stagingSafe_iff ⟨1, 0, 0, 0⟩ valuearray rfl _ 0x0112 1 .write).mpr (by decide +kernel)

/-- **The staging buffer is overrun.** A read of 45 registers from the reboot parameter comes to
`mac0`, eight bytes in a buffer of four. -/
theorem not_stagingSafe_reboot :
    ¬ ∀ (version : Version) (vals : List Val), SameTable valuearray vals →
      ∀ (src : ℕ → Byte) (usAddress usNRegs : ℕ) (mode : RegisterMode),
        1 ≤ usNRegs → usNRegs ≤ regcntMax mode →
        StagingSafe mode (eMBRegHoldingCB version vals src usAddress usNRegs mode) := by
  intro hall
  have hsafe := hall ⟨1, 0, 0, 0⟩ valuearray rfl (fun _ => 0) 0x0112 45 .read (by decide)
    (by decide)
  have hroom : registersBefore ((valuearray.drop
      (getbyaddress valuearray (startAddress 0x0112))).map Val.handler) = some 44 := by
    decide +kernel
  have hrefused : refusedBefore .read (fun _ => 0) ((valuearray.drop
      (getbyaddress valuearray (startAddress 0x0112))).map Val.handler) 0 = false := by
    decide +kernel
  rcases (stagingSafe_walk_iff _ _ .read _ 0 45).mp hsafe 44 hroom with hle | href
  · omega
  · rw [hrefused] at href
    cases href

end PanelFirmware.Modbus
