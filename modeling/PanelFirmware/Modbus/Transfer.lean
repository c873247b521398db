import PanelFirmware.Modbus.Staging

/-!
# What a write request leaves in the store

The loop of `MB_REG_WRITE` commits each parameter, and runs its callback, before it looks at the
next one. What a request leaves behind is therefore the front of its parameters, up to the one
where it stops, written; `moved` is that front.

* `walk_write`: the store, the callbacks run and the code after the loop, over any table.
* `write_commits`: the same for a call, over a table of sizes 1, 2 and 4: nothing is undone when a
  request is rejected.
-/

namespace PanelFirmware.Modbus

open PanelFirmware.Lib PanelFirmware.Prm

/-! ### The parameters that are moved -/

/-- A parameter, and the registers the request has consumed before it. -/
structure Slot where
  prm : Val
  consumed : ℕ

section Moved

variable (version : Version) (src : ℕ → Byte)

/-- The bytes of the request for a parameter, as they are handed to `deserialize`. -/
def Slot.bytes (s : Slot) : List Byte :=
  fromFrame (fun i => src (2 * s.consumed + i)) s.prm.getsize

/-- The value the request has for a parameter. -/
def Slot.value (s : Slot) : ℤ := s.prm.handler.T.ofBytes (s.bytes src)

/-- The parameter with this value, after its callback. -/
def Slot.written (s : Slot) : Val :=
  (s.prm.set (s.value src) (CType.repr_ofBytes _ _)).call version false

/-- The run of the callback of a parameter that takes its value: on that value, for a write, if the
parameter has a callback. -/
def Slot.callbackRun (s : Slot) : List Val.CallbackRun :=
  match s.prm.handler.callback with
  | none => []
  | some callback => [⟨callback, s.prm.set (s.value src) (CType.repr_ofBytes _ _), false⟩]

/-- A write with so many registers left moves the parameter: the staging buffer takes it, its
registers are all there, and its value is in range. -/
def Slot.Moves (s : Slot) (left : ℕ) : Prop :=
  Stageable s.prm.getsize ∧ registers s.prm.getsize ≤ left ∧
    Val.accepts s.prm.handler (s.value src) = true

instance (s : Slot) (left : ℕ) : Decidable (s.Moves src left) :=
  inferInstanceAs (Decidable (_ ∧ _ ∧ _))

/-- The parameters a write moves, from an entry of the table on: one after the other until the
registers or the table end, or one is not moved. -/
def moved : List Val → ℕ → ℕ → List Slot
  | _, _, 0 => []
  | [], _, _ + 1 => []
  | p :: ps, consumed, n + 1 =>
      if (Slot.mk p consumed).Moves src (n + 1) then
        ⟨p, consumed⟩ :: moved ps (consumed + registers p.getsize) (n + 1 - registers p.getsize)
      else []

/-- The registers of some parameters. -/
def used : List Slot → ℕ
  | [] => 0
  | s :: ss => registers s.prm.getsize + used ss

/-- The code a write returns with the parameters and the registers that are left where it stops;
`none` is an overrun of the staging buffer. -/
def stopCode (rest : List Val) (left : ℕ) : Option MBErrorCode :=
  if left = 0 then some .enoerr
  else
    match rest with
    | [] => some .enoreg
    | p :: _ => if Stageable p.getsize then some .einval else none

/-- Without registers left a write succeeds. -/
lemma stopCode_zero (rest : List Val) : stopCode rest 0 = some .enoerr := if_pos rfl

/-- Behind the table there is no register. -/
lemma stopCode_nil {left : ℕ} (h : left ≠ 0) : stopCode [] left = some .enoreg := if_neg h

/-- A parameter that is not moved is refused or overruns the staging buffer. -/
lemma stopCode_cons {left : ℕ} (h : left ≠ 0) (p : Val) (rest : List Val) :
    stopCode (p :: rest) left = if Stageable p.getsize then some .einval else none :=
  if_neg h

/-- A write succeeds only without registers left. -/
lemma stopCode_eq_enoerr {rest : List Val} {left : ℕ} :
    stopCode rest left = some .enoerr ↔ left = 0 := by
  refine ⟨fun h => ?_, fun h => by rw [h, stopCode_zero]⟩
  by_contra hleft
  cases rest with
  | nil =>
      rw [stopCode_nil hleft] at h
      cases h
  | cons p ps =>
      rw [stopCode_cons hleft] at h
      split_ifs at h
      cases h

@[simp] lemma moved_zero (ps : List Val) (consumed : ℕ) : moved src ps consumed 0 = [] := by
  cases ps <;> rfl

@[simp] lemma moved_nil (consumed n : ℕ) : moved src [] consumed n = [] := by
  cases n <;> rfl

/-- A write keeps the handler. -/
lemma written_handler (s : Slot) : (s.written version src).handler = s.prm.handler :=
  Val.call_handler _ _ _

variable {src}

/-- A parameter that is moved has more than half of its registers. -/
lemma Slot.Moves.not_half {p : Val} {consumed n : ℕ} (h : (Slot.mk p consumed).Moves src n) :
    ¬ (p.getsize = 4 ∧ n < 2) := by
  obtain ⟨hstage, hle, -⟩ := h
  rintro ⟨hfour, hone⟩
  rw [registers_pos hstage, if_pos hfour] at hle
  omega

/-- A parameter that is moved is followed by those moved after it. -/
lemma moved_cons {p : Val} {consumed n : ℕ} (h : (Slot.mk p consumed).Moves src (n + 1))
    (ps : List Val) :
    moved src (p :: ps) consumed (n + 1) = ⟨p, consumed⟩ ::
      moved src ps (consumed + registers p.getsize) (n + 1 - registers p.getsize) :=
  if_pos h

/-- A parameter that is not moved ends the request. -/
lemma moved_cons_of_not {p : Val} {consumed n : ℕ}
    (h : ¬ (Slot.mk p consumed).Moves src (n + 1)) (ps : List Val) :
    moved src (p :: ps) consumed (n + 1) = [] :=
  if_neg h

/-- A parameter that the staging buffer takes and that is not moved lacks registers, or its value
is out of range. -/
lemma refused_of_not_moves {s : Slot} {left : ℕ} (hstage : Stageable s.prm.getsize)
    (h : ¬ s.Moves src left) :
    left < registers s.prm.getsize ∨ Val.accepts s.prm.handler (s.value src) = false := by
  by_contra hmoves
  push Not at hmoves
  exact h ⟨hstage, hmoves.1, Bool.eq_true_of_not_eq_false hmoves.2⟩

/-- What is moved has its registers, and is in range. -/
lemma moves_of_mem_moved {ps : List Val} {consumed n : ℕ} {s : Slot}
    (h : s ∈ moved src ps consumed n) : ∃ left, s.Moves src left := by
  induction ps generalizing consumed n with
  | nil => simp at h
  | cons p ps ih =>
      cases n with
      | zero => simp at h
      | succ n =>
          by_cases hmoves : (Slot.mk p consumed).Moves src (n + 1)
          · rw [moved_cons hmoves] at h
            rcases List.mem_cons.mp h with rfl | h
            · exact ⟨n + 1, hmoves⟩
            · exact ih h
          · rw [moved_cons_of_not hmoves] at h
            simp at h

/-- No more registers are used than the request has. -/
lemma used_moved_le (ps : List Val) (consumed n : ℕ) : used (moved src ps consumed n) ≤ n := by
  induction ps generalizing consumed n with
  | nil => simp [used]
  | cons p ps ih =>
      cases n with
      | zero => simp [used]
      | succ n =>
          by_cases h : (Slot.mk p consumed).Moves src (n + 1)
          · have hrest := ih (consumed + registers p.getsize) (n + 1 - registers p.getsize)
            have hle := h.2.1
            rw [moved_cons h, used]
            dsimp only at hle ⊢
            omega
          · rw [moved_cons_of_not h]
            exact Nat.zero_le _

/-- The parameters moved are the first ones from the entry on, each at the registers used before
it. -/
lemma getElem?_moved {ps : List Val} {consumed n j : ℕ} {s : Slot}
    (h : (moved src ps consumed n)[j]? = some s) :
    ps[j]? = some s.prm ∧ s.consumed = consumed + used ((moved src ps consumed n).take j) := by
  induction ps generalizing consumed n j with
  | nil => simp at h
  | cons p ps ih =>
      cases n with
      | zero => simp at h
      | succ n =>
          by_cases hmoves : (Slot.mk p consumed).Moves src (n + 1)
          · rw [moved_cons hmoves] at h ⊢
            cases j with
            | zero =>
                obtain rfl := Option.some.inj h
                exact ⟨rfl, rfl⟩
            | succ j =>
                obtain ⟨hprm, hconsumed⟩ := ih h
                refine ⟨hprm, ?_⟩
                rw [hconsumed, List.take_succ_cons, used, Nat.add_assoc]
          · rw [moved_cons_of_not hmoves] at h
            simp at h

/-- The parameters moved are the front of the table behind the entry. -/
lemma map_prm_moved (ps : List Val) (consumed n : ℕ) :
    (moved src ps consumed n).map Slot.prm = ps.take (moved src ps consumed n).length := by
  induction ps generalizing consumed n with
  | nil => rw [moved_nil, List.take_nil, List.map_nil]
  | cons p ps ih =>
      cases n with
      | zero => rw [moved_zero, List.map_nil, List.length_nil, List.take_zero]
      | succ n =>
          by_cases hmoves : (Slot.mk p consumed).Moves src (n + 1)
          · rw [moved_cons hmoves, List.map_cons, ih, List.length_cons, List.take_succ_cons]
          · rw [moved_cons_of_not hmoves, List.map_nil, List.length_nil, List.take_zero]

/-- The parameter a write stops at, with registers left, is not moved. -/
lemma not_moves_next {ps : List Val} {consumed n : ℕ} {p : Val}
    (hp : ps[(moved src ps consumed n).length]? = some p)
    (hleft : used (moved src ps consumed n) < n) :
    ¬ (Slot.mk p (consumed + used (moved src ps consumed n))).Moves src
      (n - used (moved src ps consumed n)) := by
  induction ps generalizing consumed n with
  | nil => simp at hp
  | cons q ps ih =>
      cases n with
      | zero => exact absurd hleft (Nat.not_lt_zero _)
      | succ n =>
          by_cases hmoves : (Slot.mk q consumed).Moves src (n + 1)
          · rw [moved_cons hmoves] at hp hleft ⊢
            simp only [used] at hleft ⊢
            rw [← Nat.add_assoc, Nat.sub_add_eq]
            exact ih hp (by omega)
          · rw [moved_cons_of_not hmoves] at hp ⊢
            obtain rfl := Option.some.inj hp
            exact hmoves

end Moved

/-! ### The walk -/

/-- The loop body writes or refuses the value of a parameter that the staging buffer takes. -/
lemma writeBody_eq (version : Version) (src : ℕ → Byte) {p : Val} (h : Stageable p.getsize)
    (consumed : ℕ) :
    writeBody version src p consumed =
      if Val.accepts p.handler ((Slot.mk p consumed).value src) then
        .move ((Slot.mk p consumed).written version src) []
          ((Slot.mk p consumed).callbackRun src)
      else .reject p := by
  have hfilled : p.getsize ≤ 2 * registers p.getsize :=
    ((size_le_filled_iff .write p.handler.T).mpr h).2
  have hdes := Val.deserialize_eq p (fromFrame (fun i => src (2 * consumed + i)) p.getsize)
  by_cases hacc : Val.accepts p.handler ((Slot.mk p consumed).value src) = true
  · simp only [writeBody, length_fromFrame, if_pos hfilled, hdes.trans (if_pos hacc), if_pos hacc]
    rfl
  · simp only [writeBody, length_fromFrame, if_pos hfilled, hdes.trans (if_neg hacc), if_neg hacc]

/-- **The walk of a write**, over any table: the parameters moved are written, all others are as
they were, the callbacks run are those of the parameters moved, and the code is the one of the
place where it stops. -/
theorem walk_write (version : Version) (src : ℕ → Byte) (ps : List Val) (consumed n : ℕ) :
    (walk (bodyOf version src .write) ps consumed n).vals
        = (moved src ps consumed n).map (·.written version src)
          ++ ps.drop (moved src ps consumed n).length ∧
      (walk (bodyOf version src .write) ps consumed n).callbacks
        = (moved src ps consumed n).flatMap (·.callbackRun src) ∧
      (walk (bodyOf version src .write) ps consumed n).code
        = stopCode (ps.drop (moved src ps consumed n).length)
            (n - used (moved src ps consumed n)) := by
  induction ps generalizing consumed n with
  | nil => cases n <;> exact ⟨rfl, rfl, rfl⟩
  | cons p ps ih =>
      cases n with
      | zero =>
          rw [walk_zero, moved_zero]
          exact ⟨rfl, rfl, rfl⟩
      | succ n =>
          by_cases hmoves : (Slot.mk p consumed).Moves src (n + 1)
          · have ⟨hstage, _, hacc⟩ := hmoves
            obtain ⟨hvals, hran, hcode⟩ := ih (consumed + registers p.getsize)
              (n + 1 - registers p.getsize)
            rw [walk, if_neg hmoves.not_half, bodyOf, writeBody_eq version src hstage, if_pos hacc,
              moved_cons hmoves]
            refine ⟨congrArg (List.cons _) hvals, ?_, hcode.trans ?_⟩
            · rw [List.flatMap_cons]
              exact congrArg (_ ++ ·) hran
            · rw [List.length_cons, List.drop_succ_cons, used, Nat.sub_add_eq]
          · rw [moved_cons_of_not hmoves]
            by_cases hstage : Stageable p.getsize
            · have hcode : stopCode (p :: ps) (n + 1) = some .einval := by
                rw [stopCode_cons n.succ_ne_zero, if_pos hstage]
              by_cases hhalf : p.getsize = 4 ∧ n + 1 < 2
              · rw [walk, if_pos hhalf]
                exact ⟨rfl, rfl, hcode.symm⟩
              · have hle : registers p.getsize ≤ n + 1 := by
                  rw [registers_pos hstage]
                  split_ifs <;> omega
                have hacc : ¬ Val.accepts p.handler ((Slot.mk p consumed).value src) = true :=
                  fun hacc => hmoves ⟨hstage, hle, hacc⟩
                rw [walk, if_neg hhalf, bodyOf, writeBody_eq version src hstage, if_neg hacc]
                exact ⟨rfl, rfl, hcode.symm⟩
            · rw [walk_overrun version src .write hstage]
              exact ⟨rfl, rfl, ((stopCode_cons n.succ_ne_zero p ps).trans (if_neg hstage)).symm⟩

/-- The entry of the table a request begins at. -/
def entry (vals : List Val) (usAddress : ℕ) : ℕ := getbyaddress vals (startAddress usAddress)

/-- The parameters a write request moves. -/
def movedBy (vals : List Val) (src : ℕ → Byte) (usAddress usNRegs : ℕ) : List Slot :=
  moved src (vals.drop (entry vals usAddress)) 0 usNRegs

section Call

variable (version : Version) (vals : List Val) (src : ℕ → Byte) (usAddress usNRegs : ℕ)

/-- The store after a write request. -/
lemma vals_write :
    (eMBRegHoldingCB version vals src usAddress usNRegs .write).vals
      = vals.take (entry vals usAddress)
        ++ ((movedBy vals src usAddress usNRegs).map (·.written version src)
          ++ vals.drop (entry vals usAddress + (movedBy vals src usAddress usNRegs).length)) := by
  obtain ⟨hvals, -, -⟩ := walk_write version src (vals.drop (entry vals usAddress)) 0 usNRegs
  rw [List.drop_drop] at hvals
  exact congrArg (vals.take (entry vals usAddress) ++ ·) hvals

/-- The code of a write request. -/
lemma code_write :
    (eMBRegHoldingCB version vals src usAddress usNRegs .write).code
      = stopCode (vals.drop (entry vals usAddress + (movedBy vals src usAddress usNRegs).length))
          (usNRegs - used (movedBy vals src usAddress usNRegs)) := by
  obtain ⟨-, -, hcode⟩ := walk_write version src (vals.drop (entry vals usAddress)) 0 usNRegs
  rw [List.drop_drop] at hcode
  exact hcode

/-- The callbacks run by a write request. -/
lemma callbacks_write :
    (eMBRegHoldingCB version vals src usAddress usNRegs .write).callbacks
      = (movedBy vals src usAddress usNRegs).flatMap (·.callbackRun src) := by
  obtain ⟨-, hran, -⟩ := walk_write version src (vals.drop (entry vals usAddress)) 0 usNRegs
  exact hran

/-- A write keeps the table. -/
lemma sameTable_write :
    SameTable vals (eMBRegHoldingCB version vals src usAddress usNRegs .write).vals := by
  have hfront : (movedBy vals src usAddress usNRegs).map Slot.prm
      = (vals.drop (entry vals usAddress)).take (movedBy vals src usAddress usNRegs).length :=
    map_prm_moved _ _ _
  have hhandlers : ((movedBy vals src usAddress usNRegs).map (·.written version src)).map
      Val.handler = ((movedBy vals src usAddress usNRegs).map Slot.prm).map Val.handler := by
    rw [List.map_map, List.map_map]
    exact List.map_congr_left fun s _ => written_handler version src s
  unfold SameTable
  rw [vals_write, List.map_append, List.map_append, hhandlers, hfront, ← List.map_append,
    ← List.map_append, ← List.drop_drop, List.take_append_drop, List.take_append_drop]

variable {vals src usAddress usNRegs}

/-- A parameter moved is the one at its place behind the entry. -/
lemma getElem?_movedBy {j : ℕ} {s : Slot} (h : (movedBy vals src usAddress usNRegs)[j]? = some s) :
    vals[entry vals usAddress + j]? = some s.prm ∧
      s.consumed = used ((movedBy vals src usAddress usNRegs).take j) := by
  obtain ⟨hprm, hconsumed⟩ := getElem?_moved h
  rw [List.getElem?_drop] at hprm
  exact ⟨hprm, hconsumed.trans (Nat.zero_add _)⟩

/-- The entry lies in the table or right behind it. -/
lemma entry_le : entry vals usAddress ≤ vals.length := List.findIdx_le_length

/-- The store behind the entry after a write request. -/
lemma drop_write :
    (eMBRegHoldingCB version vals src usAddress usNRegs .write).vals.drop (entry vals usAddress)
      = (movedBy vals src usAddress usNRegs).map (·.written version src)
        ++ vals.drop (entry vals usAddress + (movedBy vals src usAddress usNRegs).length) := by
  have hlen : (vals.take (entry vals usAddress)).length = entry vals usAddress := by
    rw [List.length_take, Nat.min_eq_left entry_le]
  rw [vals_write, List.drop_left' hlen]

/-- A parameter moved is written at its place. -/
lemma getElem?_write {j : ℕ} {s : Slot} (h : (movedBy vals src usAddress usNRegs)[j]? = some s) :
    (eMBRegHoldingCB version vals src usAddress usNRegs .write).vals[entry vals usAddress + j]?
      = some (s.written version src) := by
  have hlt : j < ((movedBy vals src usAddress usNRegs).map (·.written version src)).length := by
    rw [List.length_map]
    exact (List.getElem?_eq_some_iff.mp h).1
  rw [← List.getElem?_drop, drop_write, List.getElem?_append_left hlt, List.getElem?_map, h,
    Option.map_some]

end Call

/-- **What a write request commits.** Over any table of sizes 1, 2 and 4, whatever a write request
returns: the parameters moved, the first ones from the entry on, hold the values of the request,
after their callbacks; every other parameter is as it was. The callbacks run are those of the
parameters moved, one after the other, each on the value of the request. It returns `MB_ENOERR` if
these parameters use up its registers, and else `MB_ENOREG` where the table ends, or `MB_EINVAL` at
a parameter whose registers are not all there or whose value is out of range. -/
theorem write_commits (version : Version) (vals : List Val)
    (hsizes : ∀ p ∈ vals, Stageable p.getsize) (src : ℕ → Byte) (usAddress usNRegs : ℕ) :
    let w := eMBRegHoldingCB version vals src usAddress usNRegs .write
    let ms := movedBy vals src usAddress usNRegs
    w.vals = vals.take (entry vals usAddress) ++ ms.map (·.written version src)
        ++ vals.drop (entry vals usAddress + ms.length) ∧
      w.callbacks = ms.flatMap (·.callbackRun src) ∧
      (∀ j s, ms[j]? = some s → vals[entry vals usAddress + j]? = some s.prm ∧
        s.consumed = used (ms.take j)) ∧
      ((used ms = usNRegs ∧ w.code = some .enoerr) ∨
        (used ms < usNRegs ∧ vals.length ≤ entry vals usAddress + ms.length ∧
          w.code = some .enoreg) ∨
        ∃ p, used ms < usNRegs ∧ vals[entry vals usAddress + ms.length]? = some p ∧
          (usNRegs - used ms < registers p.getsize ∨
            Val.accepts p.handler ((Slot.mk p (used ms)).value src) = false) ∧
          w.code = some .einval) := by
  intro w ms
  have hcode : w.code = stopCode (vals.drop (entry vals usAddress + ms.length))
      (usNRegs - used ms) :=
    code_write version vals src usAddress usNRegs
  have hle : used ms ≤ usNRegs := used_moved_le _ _ _
  refine ⟨?_, callbacks_write version vals src usAddress usNRegs,
    fun j s hs => getElem?_movedBy hs, ?_⟩
  · rw [List.append_assoc]
    exact vals_write version vals src usAddress usNRegs
  · by_cases hdone : used ms = usNRegs
    · left
      rw [hdone, Nat.sub_self, stopCode_zero] at hcode
      exact ⟨hdone, hcode⟩
    · right
      have hleft : ¬ usNRegs - used ms = 0 := by omega
      have hlt : used ms < usNRegs := by omega
      cases hnext : vals[entry vals usAddress + ms.length]? with
      | none =>
          left
          have hend : vals.length ≤ entry vals usAddress + ms.length :=
            List.getElem?_eq_none_iff.mp hnext
          rw [List.drop_eq_nil_of_le hend, stopCode_nil hleft] at hcode
          exact ⟨hlt, hend, hcode⟩
      | some p =>
          right
          have hstage : Stageable p.getsize := hsizes p (List.mem_of_getElem? hnext)
          have hnot : ¬ (Slot.mk p (0 + used ms)).Moves src (usNRegs - used ms) :=
            not_moves_next (by rw [List.getElem?_drop]; exact hnext) hlt
          obtain ⟨hbound, hget⟩ := List.getElem?_eq_some_iff.mp hnext
          rw [List.drop_eq_getElem_cons hbound, hget, stopCode_cons hleft, if_pos hstage] at hcode
          rw [Nat.zero_add] at hnot
          exact ⟨p, hlt, rfl, refused_of_not_moves hstage hnot, hcode⟩

/-- The parameters `version_patch`, `reboot` and `crange_set` as a table of their own. -/
def rebootTable : List Val :=
  ((settings.drop 2).take 1 ++ (settings.drop 33).take 2).map fun row => Val.new row.handler

/-- A request for all three: 7, 1, and 5, which is out of range. -/
def rebootRequest : ℕ → Byte :=
  fun i => if i = 1 then 7 else if i = 3 then 1 else if i = 5 then 5 else 0

/-- The request for all three: the callback of `version_patch` is run, on the value 7, and
`crange_set` is refused. -/
theorem reboot_commits :
    let w := eMBRegHoldingCB ⟨1, 2, 3, 0⟩ rebootTable rebootRequest 0x0003 3 .write
    let ms := movedBy rebootTable rebootRequest 0x0003 3
    (w.callbacks.map fun run => (run.prm.val, run.read)) = [(7, false)] ∧
      (w.vals = rebootTable.take (entry rebootTable 0x0003)
          ++ ms.map (·.written ⟨1, 2, 3, 0⟩ rebootRequest)
          ++ rebootTable.drop (entry rebootTable 0x0003 + ms.length) ∧
        w.callbacks = ms.flatMap (·.callbackRun rebootRequest) ∧
        (∀ j s, ms[j]? = some s → rebootTable[entry rebootTable 0x0003 + j]? = some s.prm ∧
          s.consumed = used (ms.take j)) ∧
        ((used ms = 3 ∧ w.code = some .enoerr) ∨
          (used ms < 3 ∧ rebootTable.length ≤ entry rebootTable 0x0003 + ms.length ∧
            w.code = some .enoreg) ∨
          ∃ p, used ms < 3 ∧ rebootTable[entry rebootTable 0x0003 + ms.length]? = some p ∧
            (3 - used ms < registers p.getsize ∨
              Val.accepts p.handler ((Slot.mk p (used ms)).value rebootRequest) = false) ∧
            w.code = some .einval)) :=
  ⟨by decide +kernel,
    write_commits ⟨1, 2, 3, 0⟩ rebootTable (by decide) rebootRequest 0x0003 3⟩

/-- **A rejected request is not undone.** From `reboot` on, the request for `reboot` and
`crange_set` returns `MB_EINVAL` and leaves `reboot` set. -/
theorem rejected_not_undone :
    ¬ ∀ (version : Version) (vals : List Val), (∀ p ∈ vals, Stageable p.getsize) →
      ∀ (src : ℕ → Byte) (usAddress usNRegs : ℕ),
        (eMBRegHoldingCB version vals src usAddress usNRegs .write).code ≠ some .enoerr →
        (eMBRegHoldingCB version vals src usAddress usNRegs .write).vals.map Val.val
          = vals.map Val.val := by
  intro h
  have hkept := h ⟨1, 0, 0, 0⟩ rebootTable (by decide) (fun i => rebootRequest (i + 2)) 0x0112 2
    (by decide)
  exact absurd hkept (by decide)

end PanelFirmware.Modbus
