import PanelFirmware.Libmodbus.Message
import PanelFirmware.Modbus.FileRecord
import PanelFirmware.Modbus.RegisterWalk
import PanelFirmware.Modbus.RoundTrip

/-!
# `lib/freemodbus/modbus/functions`: the handlers of the requests

A handler reads its request from the frame and puts the answer there. What it leaves in the frame
depends on the callback, which puts two bytes into it for every register that is read.

* `Handled.Keeps`: what the handlers of registers leave as it is.
* `writeFileRecord_runs`: what the handler of file records leaves.
* `readWrite_eq`: writing and reading in one request is writing, then reading.
-/

namespace PanelFirmware.Modbus

open PanelFirmware.Lib PanelFirmware.Hal PanelFirmware.Prm PanelFirmware.Systems
open PanelFirmware.Libmodbus

/-! ### The handlers -/

/-- Source: `mbproto.h` `MB_FUNC_READ_HOLDING_REGISTER`. -/
abbrev mbFuncReadHoldingRegister : Byte := 3
/-- Source: `mbproto.h` `MB_FUNC_WRITE_REGISTER`. -/
abbrev mbFuncWriteRegister : Byte := 6
/-- Source: `mbproto.h` `MB_FUNC_WRITE_MULTIPLE_REGISTERS`. -/
abbrev mbFuncWriteMultipleRegisters : Byte := 16
/-- Source: `mbproto.h` `MB_FUNC_OTHER_REPORT_SLAVEID`. -/
abbrev mbFuncOtherReportSlaveid : Byte := 17
/-- Source: `mbproto.h` `MB_FUNC_WRITE_FILE_RECORD`. -/
abbrev mbFuncWriteFileRecord : Byte := 21
/-- Source: `mbproto.h` `MB_FUNC_READWRITE_MULTIPLE_REGISTERS`. -/
abbrev mbFuncReadwriteMultipleRegisters : Byte := 23
/-- Source: `mbproto.h` `MB_FUNC_ERROR`. -/
abbrev mbFuncError : Byte := 128

/-- Source: `mbproto.h` `eMBException`. -/
def MBException.code : MBException → Byte
  | .exNone => 0x00
  | .exIllegalFunction => 0x01
  | .exIllegalDataAddress => 0x02
  | .exIllegalDataValue => 0x03
  | .exSlaveDeviceFailure => 0x04
  | .exAcknowledge => 0x05
  | .exSlaveBusy => 0x06
  | .exMemoryParityError => 0x08
  | .exGatewayPathFailed => 0x0A
  | .exGatewayTgtFailed => 0x0B

/-- What a handler leaves: its exception, the frame, `*usLen`, and the store. -/
structure Handled where
  eStatus : MBException
  pucFrame : Buffer
  usLen : ℕ
  vals : List Val

/-- A handler that reports an exception and changes nothing. -/
def Handled.refuse (eStatus : MBException) (pucFrame : Buffer) (usLen : ℕ) (vals : List Val) :
    Handled :=
  ⟨eStatus, pucFrame, usLen, vals⟩

/-- A call of `eMBRegHoldingCB` on the bytes of the frame from an offset on: the code, the frame and
the store. -/
def holdingAt (version : Version) (vals : List Val) (pucFrame : Buffer) (offset usAddress : ℕ)
    (usNRegs : ℕ) (eMode : RegisterMode) : Option (MBErrorCode × Buffer × List Val) :=
  let w := eMBRegHoldingCB version vals (fun i => pucFrame (offset + i)) usAddress usNRegs eMode
  w.code.map fun code => (code, Ring.store pucFrame offset w.sent, w.vals)

/-- `usRegAddress++` of the address at an offset of the frame. -/
def regAddress (pucFrame : Buffer) (offset : ℕ) : ℕ := (ushortAt pucFrame offset + 1) % 0x10000

/-- Source: `mbfuncholding.c` `eMBFuncWriteHoldingRegister`. -/
def eMBFuncWriteHoldingRegister (version : Version) (vals : List Val) (pucFrame : Buffer)
    (usLen : ℕ) : Option Handled :=
  if usLen = 4 + 1 then
    (holdingAt version vals pucFrame 3 (regAddress pucFrame 1) 1 .write).map
      fun (code, pucFrame, vals) => ⟨prveMBError2Exception code, pucFrame, usLen, vals⟩
  else some (.refuse .exIllegalDataValue pucFrame usLen vals)

/-- Source: `mbfuncholding.c` `eMBFuncWriteMultipleHoldingRegister`. -/
def eMBFuncWriteMultipleHoldingRegister (version : Version) (vals : List Val) (pucFrame : Buffer)
    (usLen : ℕ) : Option Handled :=
  if 5 + 1 ≤ usLen then
    let usRegCount := ushortAt pucFrame 3
    let ucRegByteCount := (pucFrame 5).toNat
    if 1 ≤ usRegCount ∧ usRegCount ≤ 0x0078 ∧ ucRegByteCount = 2 * usRegCount % 0x100 then
      (holdingAt version vals pucFrame 6 (regAddress pucFrame 1) usRegCount .write).map
        fun (code, pucFrame, vals) =>
          ⟨prveMBError2Exception code, pucFrame, if code = .enoerr then 5 else usLen, vals⟩
    else some (.refuse .exIllegalDataValue pucFrame usLen vals)
  else some (.refuse .exIllegalDataValue pucFrame usLen vals)

/-- The count is assigned twice: its high byte is lost.
Source: `mbfuncholding.c` `eMBFuncReadHoldingRegister`. -/
def eMBFuncReadHoldingRegister (version : Version) (vals : List Val) (pucFrame : Buffer)
    (usLen : ℕ) : Option Handled :=
  if usLen = 4 + 1 then
    let usRegCount := (pucFrame 4).toNat
    if 1 ≤ usRegCount ∧ usRegCount ≤ 0x007D then
      let answer := Function.update (Function.update pucFrame 0 mbFuncReadHoldingRegister) 1
        (BitVec.ofNat 8 (usRegCount * 2))
      (holdingAt version vals answer 2 (regAddress pucFrame 1) usRegCount .read).map
        fun (code, pucFrame, vals) =>
          ⟨prveMBError2Exception code, pucFrame,
            if code = .enoerr then 2 + usRegCount * 2 else 2, vals⟩
    else some (.refuse .exIllegalDataValue pucFrame usLen vals)
  else some (.refuse .exIllegalDataValue pucFrame usLen vals)

/-- A request that is too short is not refused.
Source: `mbfuncholding.c` `eMBFuncReadWriteMultipleHoldingRegister`. -/
def eMBFuncReadWriteMultipleHoldingRegister (version : Version) (vals : List Val)
    (pucFrame : Buffer) (usLen : ℕ) : Option Handled :=
  if 9 + 1 ≤ usLen then
    let usRegReadAddress := regAddress pucFrame 1
    let usRegReadCount := ushortAt pucFrame 3
    let usRegWriteAddress := regAddress pucFrame 5
    let usRegWriteCount := ushortAt pucFrame 7
    let ucRegWriteByteCount := (pucFrame 9).toNat
    if (1 ≤ usRegReadCount ∧ usRegReadCount ≤ 0x7D) ∧
        (1 ≤ usRegWriteCount ∧ usRegWriteCount ≤ 0x79) ∧
        2 * usRegWriteCount = ucRegWriteByteCount then
      match holdingAt version vals pucFrame 10 usRegWriteAddress usRegWriteCount .write with
      | none => none
      | some (.enoerr, pucFrame, vals) =>
          let answer := Function.update
            (Function.update pucFrame 0 mbFuncReadwriteMultipleRegisters) 1
            (BitVec.ofNat 8 (usRegReadCount * 2))
          (holdingAt version vals answer 2 usRegReadAddress usRegReadCount .read).map
            fun (code, pucFrame, vals) =>
              ⟨prveMBError2Exception code, pucFrame,
                if code = .enoerr then 2 + 2 * usRegReadCount else 2, vals⟩
      | some (code, pucFrame, vals) => some ⟨prveMBError2Exception code, pucFrame, usLen, vals⟩
    else some (.refuse .exIllegalDataValue pucFrame usLen vals)
  else some (.refuse .exNone pucFrame usLen vals)

/-- No slave id has been set. Source: `mbfuncother.c` `eMBFuncReportSlaveID`. -/
def eMBFuncReportSlaveID (vals : List Val) (pucFrame : Buffer) : Handled :=
  ⟨.exNone, pucFrame, 1, vals⟩

/-! ### What the callback leaves in the frame -/

/-- The registers of a table. -/
def registersOf (vals : List Val) : ℕ := (vals.map fun p => registers p.getsize).sum

section Body

variable {version : Version} {p p' : Val} {consumed : ℕ} {sent : List Byte}
  {ran : List Val.CallbackRun}

/-- A read moves its parameter, which keeps its handler, with two bytes a register, or it overruns
the staging buffer. -/
lemma readBody_cases (version : Version) (p : Val) (consumed : ℕ) :
    (∃ ran, readBody version p consumed = .overrun ran) ∨
      ∃ sent ran, readBody version p consumed = .move (p.call version true) sent ran ∧
        sent.length = 2 * registers p.getsize := by
  cases hstage : stage (p.call version true).serialize with
  | none => exact Or.inl ⟨_, by simp only [readBody, hstage]; rfl⟩
  | some buffer =>
      exact Or.inr ⟨_, _, by simp only [readBody, hstage]; rfl, length_toFrame buffer p.getsize⟩

/-- A parameter that is read is answered with two bytes a register, and keeps its handler. -/
lemma readBody_move (h : readBody version p consumed = .move p' sent ran) :
    sent.length = 2 * registers p.getsize ∧ p'.handler = p.handler := by
  rcases readBody_cases version p consumed with ⟨ran', hbody⟩ | ⟨sent', ran', hbody, hlength⟩
  · rw [hbody] at h
    cases h
  · rw [hbody] at h
    obtain ⟨rfl, rfl, -⟩ := Move.move.inj h
    exact ⟨hlength, Val.call_handler version p true⟩

/-- No value is rejected that is read. -/
lemma readBody_reject : readBody version p consumed ≠ .reject p' := by
  rcases readBody_cases version p consumed with ⟨ran, hbody⟩ | ⟨sent', ran, hbody, -⟩ <;>
  · rw [hbody]
    exact fun h => by cases h

/-- A parameter that is written has no bytes for the frame. -/
lemma sent_of_writeBody {src : Buffer}
    (h : writeBody version src p consumed = .move p' sent ran) : sent = [] := by
  unfold writeBody at h
  dsimp only at h
  split at h
  · split at h
    · cases h
    · exact (Move.move.inj h).2.1.symm
  · cases h

end Body

/-- A walk stops at a parameter, which is kept or rejected, or it moves the parameter and goes
on. -/
lemma walk_cases (body : Val → ℕ → Move) (p : Val) (ps : List Val) (consumed n : ℕ) :
    (∃ p' calls ran code, (p' = p ∨ body p consumed = .reject p') ∧
      (code = none ∨ code = some .einval) ∧
      walk body (p :: ps) consumed (n + 1) = ⟨p' :: ps, [], calls, ran, code⟩) ∨
    (∃ p' sent calls ran, body p consumed = .move p' sent ran ∧ registers p.getsize ≤ n + 1 ∧
      let rest := walk body ps (consumed + registers p.getsize) (n + 1 - registers p.getsize)
      walk body (p :: ps) consumed (n + 1) =
        ⟨p' :: rest.vals, sent ++ rest.sent, calls, ran ++ rest.callbacks, rest.code⟩) := by
  by_cases hodd : p.getsize = 4 ∧ n + 1 < 2
  · exact Or.inl ⟨p, _, _, _, Or.inl rfl, Or.inr rfl, by simp only [walk, if_pos hodd]; rfl⟩
  · cases hbody : body p consumed with
    | overrun ran =>
        exact Or.inl ⟨p, _, ran, _, Or.inl rfl, Or.inl rfl,
          by simp only [walk, if_neg hodd, hbody]; rfl⟩
    | reject p' =>
        exact Or.inl ⟨p', _, _, _, Or.inr rfl, Or.inr rfl,
          by simp only [walk, if_neg hodd, hbody]; rfl⟩
    | move p' sent ran =>
        exact Or.inr ⟨p', sent, _, ran, rfl, registers_le_of_not_half (Nat.succ_ne_zero n) hodd,
          by simp only [walk, if_neg hodd, hbody]; rfl⟩

/-- A walk ends with no error or one of two. -/
lemma code_walk (body : Val → ℕ → Move) (ps : List Val) (consumed n : ℕ) {code : MBErrorCode}
    (h : (walk body ps consumed n).code = some code) :
    code = .enoerr ∨ code = .enoreg ∨ code = .einval := by
  induction ps generalizing consumed n with
  | nil =>
      cases n with
      | zero => exact Or.inl (Option.some.inj h).symm
      | succ n => exact Or.inr (Or.inl (Option.some.inj h).symm)
  | cons p ps ih =>
      cases n with
      | zero => exact Or.inl (Option.some.inj h).symm
      | succ n =>
          rcases walk_cases body p ps consumed n with
            ⟨p', calls, ran, code', -, rfl | rfl, hwalk⟩ | ⟨p', sent, calls, ran, -, -, hwalk⟩
          · rw [hwalk] at h
            cases h
          · rw [hwalk] at h
            exact Or.inr (Or.inr (Option.some.inj h).symm)
          · rw [hwalk] at h
            exact ih _ _ h

/-- A read puts two bytes a register into the frame, and no more than the request and the table
have. -/
lemma length_walk_read (version : Version) (ps : List Val) (consumed n : ℕ) :
    let w := walk (readBody version) ps consumed n
    w.sent.length ≤ 2 * n ∧ w.sent.length ≤ 2 * registersOf ps ∧
      (w.code = some .enoerr → w.sent.length = 2 * n) := by
  induction ps generalizing consumed n with
  | nil =>
      cases n with
      | zero => exact ⟨Nat.le_refl _, Nat.zero_le _, fun _ => rfl⟩
      | succ n => exact ⟨Nat.zero_le _, Nat.zero_le _, fun h => (by cases h)⟩
  | cons p ps ih =>
      cases n with
      | zero => exact ⟨Nat.le_refl _, Nat.zero_le _, fun _ => rfl⟩
      | succ n =>
          rcases walk_cases (readBody version) p ps consumed n with
            ⟨p', calls, ran, code, -, rfl | rfl, hwalk⟩ |
              ⟨p', sent, calls, ran, hbody, hle, hwalk⟩
          · rw [hwalk]
            exact ⟨Nat.zero_le _, Nat.zero_le _, fun h => (by cases h)⟩
          · rw [hwalk]
            exact ⟨Nat.zero_le _, Nat.zero_le _, fun h => (by cases h)⟩
          · have hsum : registersOf (p :: ps) = registers p.getsize + registersOf ps := by
              rw [registersOf, List.map_cons, List.sum_cons]
              rfl
            obtain ⟨hn, htable, hcode⟩ := ih (consumed + registers p.getsize)
              (n + 1 - registers p.getsize)
            simp only [hwalk, List.length_append, (readBody_move hbody).1, hsum]
            refine ⟨by omega, by omega, fun h => ?_⟩
            have hrest := hcode h
            omega

/-- A write puts nothing into the frame. -/
lemma sent_walk_write (version : Version) (src : Buffer) (ps : List Val) (consumed n : ℕ) :
    (walk (writeBody version src) ps consumed n).sent = [] := by
  induction ps generalizing consumed n with
  | nil => cases n <;> rfl
  | cons p ps ih =>
      cases n with
      | zero => rfl
      | succ n =>
          rcases walk_cases (writeBody version src) p ps consumed n with
            ⟨p', calls, ran, code, -, -, hwalk⟩ | ⟨p', sent, calls, ran, hbody, -, hwalk⟩
          · rw [hwalk]
          · rw [hwalk, sent_of_writeBody hbody]
            exact ih _ _

/-- A walk that reads keeps the handlers. -/
lemma handlers_walk_read (version : Version) (ps : List Val) (consumed n : ℕ) :
    (walk (readBody version) ps consumed n).vals.map Val.handler = ps.map Val.handler := by
  induction ps generalizing consumed n with
  | nil => cases n <;> rfl
  | cons p ps ih =>
      cases n with
      | zero => rfl
      | succ n =>
          rcases walk_cases (readBody version) p ps consumed n with
            ⟨p', calls, ran, code, hp, -, hwalk⟩ | ⟨p', sent, calls, ran, hbody, -, hwalk⟩
          · rw [hwalk, hp.resolve_right readBody_reject]
          · rw [hwalk, List.map_cons, List.map_cons, ih, (readBody_move hbody).2]

/-- The bytes the callback puts into the frame are those of its walk. -/
lemma sent_holding (version : Version) (vals : List Val) (pucRegBuffer : ℕ → Byte)
    (usAddress usNRegs : ℕ) (eMode : RegisterMode) :
    (eMBRegHoldingCB version vals pucRegBuffer usAddress usNRegs eMode).sent =
      (walk (bodyOf version pucRegBuffer eMode)
        (vals.drop (getbyaddress vals (startAddress usAddress))) 0 usNRegs).sent :=
  rfl

/-- A read keeps the table. -/
lemma sameTable_read (version : Version) (vals : List Val) (src : ℕ → Byte)
    (usAddress usNRegs : ℕ) :
    SameTable vals (eMBRegHoldingCB version vals src usAddress usNRegs .read).vals := by
  change (vals.take _ ++ (walk (readBody version) _ 0 usNRegs).vals).map Val.handler = _
  rw [List.map_append, handlers_walk_read, ← List.map_append, List.take_append_drop]

/-- The registers are those of the table. -/
lemma registersOf_congr {vals others : List Val} (h : SameTable vals others) :
    registersOf others = registersOf vals := by
  have hmap : ∀ l : List Val, l.map (fun p => registers p.getsize) =
      (l.map Val.handler).map fun handler => registers handler.T.size := fun l => by
    rw [List.map_map]
    rfl
  rw [registersOf, registersOf, hmap, hmap, show others.map Val.handler = _ from h]

section Holding

variable {version : Version} {vals vals' : List Val} {pucFrame pucFrame' : Buffer}
  {offset usAddress usNRegs : ℕ} {code : MBErrorCode} {eMode : RegisterMode}

/-- The parts of what a call returns. -/
lemma holdingAt_eq (h : holdingAt version vals pucFrame offset usAddress usNRegs eMode =
      some (code, pucFrame', vals')) :
    let w := eMBRegHoldingCB version vals (fun i => pucFrame (offset + i)) usAddress usNRegs eMode
    w.code = some code ∧ pucFrame' = Ring.store pucFrame offset w.sent ∧ vals' = w.vals := by
  obtain ⟨code', hcode, heq⟩ := Option.map_eq_some_iff.mp h
  obtain ⟨rfl, hrest⟩ := Prod.mk.inj heq
  obtain ⟨hframe, hvals⟩ := Prod.mk.inj hrest
  exact ⟨hcode, hframe.symm, hvals.symm⟩

/-- The exception of a call is the fourth at most. -/
lemma status_holdingAt (h : holdingAt version vals pucFrame offset usAddress usNRegs eMode =
    some (code, pucFrame', vals')) : (prveMBError2Exception code).code.toNat ≤ 4 := by
  obtain ⟨hcode, -, -⟩ := holdingAt_eq h
  rcases code_walk _ _ _ _ hcode with rfl | rfl | rfl <;> decide

/-- A write leaves the frame as it is, and the table. -/
lemma holdingAt_write
    (h : holdingAt version vals pucFrame offset usAddress usNRegs .write =
      some (code, pucFrame', vals')) : pucFrame' = pucFrame ∧ SameTable vals vals' := by
  obtain ⟨-, rfl, rfl⟩ := holdingAt_eq h
  refine ⟨?_, sameTable_write version vals _ usAddress usNRegs⟩
  rw [sent_holding, bodyOf, sent_walk_write]
  rfl

/-- A read leaves the frame before its bytes and behind them as it is, and the table. -/
lemma holdingAt_read
    (h : holdingAt version vals pucFrame offset usAddress usNRegs .read =
      some (code, pucFrame', vals')) :
    (∀ i, i < offset ∨ offset + 2 * min usNRegs (registersOf vals) ≤ i →
        pucFrame' i = pucFrame i) ∧
      (code = .enoerr → usNRegs ≤ registersOf vals) ∧ SameTable vals vals' := by
  obtain ⟨hcode, rfl, rfl⟩ := holdingAt_eq h
  obtain ⟨hn, htable, hall⟩ := length_walk_read version
    (vals.drop (getbyaddress vals (startAddress usAddress))) 0 usNRegs
  have hdrop : registersOf (vals.drop (getbyaddress vals (startAddress usAddress))) ≤
      registersOf vals := by
    rw [registersOf, registersOf, List.map_drop]
    exact List.Sublist.sum_le_sum (List.drop_sublist _ _) fun _ _ => Nat.zero_le _
  refine ⟨fun i hi => ?_, fun henoerr => ?_, sameTable_read version vals _ usAddress usNRegs⟩
  · apply Ring.store_of_outside
    rcases hi with hi | hi
    · exact Or.inl hi
    · refine Or.inr ?_
      rw [sent_holding, bodyOf]
      omega
  · rw [henoerr] at hcode
    have hlength := hall hcode
    omega

end Holding

/-! ### What a handler leaves -/

/-- The bytes of the frame that the answer of registers may take. -/
def answerRoom (vals : List Val) : ℕ := 2 + 2 * min 125 (registersOf vals)

/-- A handler of registers keeps the function code and what is behind its answer, and the table. -/
structure Handled.Keeps (h : Handled) (vals : List Val) (pucFrame : Buffer) (usLen : ℕ) : Prop where
  frame : ∀ i, i = 0 ∨ answerRoom vals ≤ i → h.pucFrame i = pucFrame i
  status : h.eStatus.code.toNat ≤ 4
  usLen : h.eStatus = .exNone → h.usLen ≤ max 9 (answerRoom vals) ∧ (1 ≤ usLen → 1 ≤ h.usLen)
  sameTable : SameTable vals h.vals

/-- The exception is none exactly where there is no error. -/
lemma exNone_iff (code : MBErrorCode) : prveMBError2Exception code = .exNone ↔ code = .enoerr := by
  cases code <;> decide

section Handlers

variable {version : Version} {vals : List Val} {pucFrame : Buffer} {usLen : ℕ} {h : Handled}

/-- A request that is refused changes nothing. -/
lemma keeps_refuse {eStatus : MBException} (hstatus : eStatus.code.toNat ≤ 4)
    (hlen : eStatus = .exNone → usLen ≤ 9) :
    (Handled.refuse eStatus pucFrame usLen vals).Keeps vals pucFrame usLen :=
  ⟨fun _ _ => rfl, hstatus, fun hnone => ⟨(hlen hnone).trans (le_max_left _ _), id⟩, rfl⟩

lemma keeps_writeRegister
    (hrun : eMBFuncWriteHoldingRegister version vals pucFrame usLen = some h) :
    h.Keeps vals pucFrame usLen := by
  unfold eMBFuncWriteHoldingRegister at hrun
  split_ifs at hrun with hlen
  · obtain ⟨⟨code, pucFrame', vals'⟩, hcall, rfl⟩ := Option.map_eq_some_iff.mp hrun
    obtain ⟨rfl, htable⟩ := holdingAt_write hcall
    exact ⟨fun _ _ => rfl, status_holdingAt hcall,
      fun _ => ⟨(by omega : usLen ≤ 9).trans (le_max_left _ _), id⟩, htable⟩
  · cases hrun
    exact keeps_refuse (by decide) nofun

lemma keeps_writeMultiple
    (hrun : eMBFuncWriteMultipleHoldingRegister version vals pucFrame usLen = some h) :
    h.Keeps vals pucFrame usLen := by
  unfold eMBFuncWriteMultipleHoldingRegister at hrun
  dsimp only at hrun
  split_ifs at hrun with hlen hcounts
  · obtain ⟨⟨code, pucFrame', vals'⟩, hcall, rfl⟩ := Option.map_eq_some_iff.mp hrun
    obtain ⟨rfl, htable⟩ := holdingAt_write hcall
    refine ⟨fun _ _ => rfl, status_holdingAt hcall, fun hnone => ?_, htable⟩
    dsimp only
    rw [if_pos ((exNone_iff code).mp hnone)]
    exact ⟨(by decide : 5 ≤ 9).trans (le_max_left _ _), fun _ => by decide⟩
  · cases hrun
    exact keeps_refuse (by decide) nofun
  · cases hrun
    exact keeps_refuse (by decide) nofun

/-- The registers that are read behind two bytes of an answer. -/
lemma keeps_read {others : List Val} {usAddress usNRegs : ℕ} {fc count : Byte}
    {code : MBErrorCode} {pucFrame' : Buffer} {vals' : List Val} (hcount : usNRegs ≤ 125)
    (hsame : SameTable vals others) (hfc : fc = pucFrame 0)
    (hcall : holdingAt version others (Function.update (Function.update pucFrame 0 fc) 1 count) 2
      usAddress usNRegs .read = some (code, pucFrame', vals')) :
    (Handled.mk (prveMBError2Exception code) pucFrame'
      (if code = .enoerr then 2 + usNRegs * 2 else 2) vals').Keeps vals pucFrame usLen := by
  obtain ⟨hframe, hregs, htable⟩ := holdingAt_read hcall
  have hof := registersOf_congr hsame
  have hroom : answerRoom vals = 2 + 2 * min 125 (registersOf vals) := rfl
  refine ⟨fun i hi => ?_, status_holdingAt hcall, fun hnone => ?_, ?_⟩
  · have hi' : i < 2 ∨ 2 + 2 * min usNRegs (registersOf others) ≤ i := by omega
    have h1 : i ≠ 1 := by omega
    change pucFrame' i = pucFrame i
    rw [hframe i hi', Function.update_of_ne h1]
    by_cases h0 : i = 0
    · rw [h0, Function.update_self, hfc]
    · rw [Function.update_of_ne h0]
  · have henoerr := (exNone_iff code).mp hnone
    have hle := hregs henoerr
    dsimp only
    rw [if_pos henoerr]
    refine ⟨le_trans ?_ (le_max_right _ _), fun _ => by omega⟩
    omega
  · exact Eq.trans (show vals'.map Val.handler = others.map Val.handler from htable) hsame

lemma keeps_readRegisters (hfc : pucFrame 0 = mbFuncReadHoldingRegister)
    (hrun : eMBFuncReadHoldingRegister version vals pucFrame usLen = some h) :
    h.Keeps vals pucFrame usLen := by
  unfold eMBFuncReadHoldingRegister at hrun
  dsimp only at hrun
  split_ifs at hrun with hlen hcount
  · obtain ⟨⟨code, pucFrame', vals'⟩, hcall, rfl⟩ := Option.map_eq_some_iff.mp hrun
    exact keeps_read hcount.2 rfl hfc.symm hcall
  · cases hrun
    exact keeps_refuse (by decide) nofun
  · cases hrun
    exact keeps_refuse (by decide) nofun

lemma keeps_readWrite (hfc : pucFrame 0 = mbFuncReadwriteMultipleRegisters)
    (hrun : eMBFuncReadWriteMultipleHoldingRegister version vals pucFrame usLen = some h) :
    h.Keeps vals pucFrame usLen := by
  unfold eMBFuncReadWriteMultipleHoldingRegister at hrun
  dsimp only at hrun
  split_ifs at hrun with hlen hcounts
  · split at hrun
    · cases hrun
    · rename_i pucFrame₁ vals₁ hwrite
      obtain ⟨rfl, hsame⟩ := holdingAt_write hwrite
      obtain ⟨⟨code, pucFrame', vals'⟩, hcall, rfl⟩ := Option.map_eq_some_iff.mp hrun
      rw [Nat.mul_comm 2]
      exact keeps_read hcounts.1.2 hsame hfc.symm hcall
    · rename_i code pucFrame₁ vals₁ hcode hwrite
      obtain ⟨rfl, hsame⟩ := holdingAt_write hwrite
      cases hrun
      exact ⟨fun _ _ => rfl, status_holdingAt hwrite,
        fun hnone => absurd ((exNone_iff code).mp hnone) (by simpa using hcode), hsame⟩
  · cases hrun
    exact keeps_refuse (by decide) nofun
  · cases hrun
    exact keeps_refuse (by decide) fun _ => by omega

end Handlers

/-! ### File records -/

/-- The bytes of a sub-request. Source: `mbfuncfile.c` `eMBFuncWriteFileRecord`. -/
def RecordCall.size (r : RecordCall) : ℕ := 7 + r.usRecordLen * 2

/-- The bytes of the sub-requests of a frame. -/
def recordsSize (rs : List RecordCall) : ℕ := (rs.map RecordCall.size).sum

lemma recordsSize_cons (r : RecordCall) (rs : List RecordCall) :
    recordsSize (r :: rs) = r.size + recordsSize rs := by
  rw [recordsSize, List.map_cons, List.sum_cons]
  rfl

/-- A call of the callback that returns is refused or of a record that fits its buffer. -/
lemma perform_runs {pucFrame : Buffer} {r : RecordCall} {f f' : Flash} {l : List Flash}
    {code : MBErrorCode} (h : Prog.Runs (r.perform pucFrame) f l code f') :
    code = .einval ∨ code = .enoerr ∧ r.usRecordLen ≤ 64 := by
  have hend : (r.perform pucFrame f).2 = some (code, f') := congrArg Prod.snd h
  by_cases hrefused : r.usFile ≠ 1 ∨ storageSize ≤ r.usRecord * 128
  · rw [perform_of_refused pucFrame hrefused] at hend
    exact Or.inl (Prod.mk.inj (Option.some.inj hend)).1.symm
  · push Not at hrefused
    obtain ⟨hfile, hrecord⟩ := hrefused
    by_cases hlen : r.usRecordLen ≤ 64
    · obtain ⟨-, code', t, hcode, henoerr, -⟩ := wp_perform pucFrame hfile hrecord hlen f
      rw [hcode] at hend
      exact Or.inr ⟨(Prod.mk.inj (Option.some.inj hend)).1.symm.trans henoerr, hlen⟩
    · rw [perform_stuck pucFrame hfile hrecord (Nat.not_le.mp hlen) f] at hend
      cases hend

/-- An error of a call is reported at the end; without one, every record fits and the length is
that of the sub-requests. -/
lemma performCalls_runs {pucFrame : Buffer} {rs : List RecordCall} {eStatus eStatus' : MBException}
    {usLen usLen' : ℕ} {f f' : Flash} {l : List Flash} (hlt : usLen < 0x10000)
    (h : Prog.Runs (performCalls pucFrame rs eStatus usLen) f l (eStatus', usLen') f') :
    (eStatus' = eStatus ∨ eStatus' = .exSlaveDeviceFailure) ∧
      (eStatus' = .exNone → (∀ r ∈ rs, r.usRecordLen ≤ 64) ∧
        usLen' = (usLen + recordsSize rs) % 0x10000) := by
  induction rs generalizing eStatus usLen f l with
  | nil =>
      obtain ⟨rfl, rfl⟩ := Prod.mk.inj (Prog.Runs.of_pure h)
      exact ⟨Or.inl rfl, fun _ => ⟨nofun, (Nat.mod_eq_of_lt hlt).symm⟩⟩
  | cons r rs ih =>
      obtain ⟨l₁, code, f₁, l₂, hperform, hrest, -⟩ := Prog.Runs.of_bind h
      obtain ⟨hstatus, hnone⟩ := ih (Nat.mod_lt _ (by decide)) hrest
      rcases perform_runs hperform with rfl | ⟨rfl, hlen⟩
      · have hfailed : eStatus' = .exSlaveDeviceFailure := hstatus.elim id id
        exact ⟨Or.inr hfailed, fun h => by rw [hfailed] at h; cases h⟩
      · refine ⟨hstatus, fun h => ?_⟩
        obtain ⟨hshort, hsum⟩ := hnone h
        refine ⟨List.forall_mem_cons.mpr ⟨hlen, hshort⟩, ?_⟩
        rw [hsum, recordsSize_cons, RecordCall.size]
        omega

/-- Sub-requests of short records end soon behind the byte count. -/
lemma recordsSize_lt (pucFrame : Buffer) (stop cur : ℕ) (hcur : cur < stop + 135)
    (hshort : ∀ r ∈ recordCallsFrom pucFrame stop cur, r.usRecordLen ≤ 64) :
    cur + recordsSize (recordCallsFrom pucFrame stop cur) < stop + 135 := by
  induction cur using recordCallsFrom.induct pucFrame stop with
  | case1 cur hlt r ih =>
      rw [recordCallsFrom, if_pos hlt] at hshort ⊢
      obtain ⟨hlen, hrest⟩ := List.forall_mem_cons.mp hshort
      change r.usRecordLen ≤ 64 at hlen
      have htail := ih (by omega) hrest
      rw [recordsSize_cons]
      change cur + (7 + r.usRecordLen * 2 + recordsSize (recordCallsFrom pucFrame stop
        (cur + (1 + 2 + 2 + 2 + r.usRecordLen * 2)))) < stop + 135
      omega
  | case2 cur hge =>
      rw [recordCallsFrom, if_neg hge]
      exact hcur

/-- Sub-requests go on until the byte count is used up. -/
lemma le_recordsSize (pucFrame : Buffer) (stop cur : ℕ) :
    stop ≤ cur + recordsSize (recordCallsFrom pucFrame stop cur) := by
  induction cur using recordCallsFrom.induct pucFrame stop with
  | case1 cur hlt r ih =>
      rw [recordCallsFrom, if_pos hlt, recordsSize_cons]
      change stop ≤ cur + (7 + r.usRecordLen * 2 + recordsSize (recordCallsFrom pucFrame stop
        (cur + (1 + 2 + 2 + 2 + r.usRecordLen * 2))))
      omega
  | case2 cur hge => omega

/-- A request for file records keeps the frame but the byte count; accepted, it is answered with
the length of its sub-requests. -/
lemma writeFileRecord_runs {pucFrame pucFrame' : Buffer} {usLen usLen' : ℕ} {eStatus : MBException}
    {f f' : Flash} {l : List Flash}
    (h : Prog.Runs (eMBFuncWriteFileRecord pucFrame usLen) f l (eStatus, pucFrame', usLen') f') :
    eStatus.code.toNat ≤ 4 ∧ (∀ i, i ≠ 1 → pucFrame' i = pucFrame i) ∧
      (eStatus = .exNone → usLen' = recordsSize (recordCalls pucFrame) + 2 ∧
        pucFrame' 1 = BitVec.ofNat 8 (recordsSize (recordCalls pucFrame)) ∧
        (pucFrame 1).toNat ≤ recordsSize (recordCalls pucFrame) ∧
        recordsSize (recordCalls pucFrame) < (pucFrame 1).toNat + 135) := by
  unfold eMBFuncWriteFileRecord at h
  by_cases hcount : ByteCountOk pucFrame
  · rw [if_pos hcount] at h
    obtain ⟨l₁, ⟨eStatus₁, usLen₁⟩, f₁, l₂, hcalls, hret, -⟩ := Prog.Runs.of_bind h
    obtain ⟨rfl, hrest⟩ := Prod.mk.inj (Prog.Runs.of_pure hret)
    obtain ⟨rfl, rfl⟩ := Prod.mk.inj hrest
    obtain ⟨hstatus, hnone⟩ := performCalls_runs (by decide) hcalls
    refine ⟨?_, fun i hi => Function.update_of_ne hi _ _, fun hst => ?_⟩
    · rcases hstatus with rfl | rfl <;> decide
    · obtain ⟨hshort, hsum⟩ := hnone hst
      have hcalls' : recordCalls pucFrame =
          recordCallsFrom pucFrame (2 + (pucFrame 1).toNat) 2 := if_pos hcount
      have hbound := recordsSize_lt pucFrame (2 + (pucFrame 1).toNat) 2 (by omega)
        (hcalls' ▸ hshort)
      have hcover := le_recordsSize pucFrame (2 + (pucFrame 1).toNat) 2
      rw [← hcalls'] at hbound hcover
      have hle := hcount.2
      rw [Nat.zero_add, Nat.mod_eq_of_lt (by omega)] at hsum
      rw [hsum, Function.update_self]
      exact ⟨by omega, rfl, by omega, by omega⟩
  · rw [if_neg hcount] at h
    obtain ⟨rfl, hrest⟩ := Prod.mk.inj (Prog.Runs.of_pure h)
    obtain ⟨rfl, rfl⟩ := Prod.mk.inj hrest
    exact ⟨by decide, fun _ _ => rfl, nofun⟩

/-! ### Writing and reading in one request -/

/-- A write is a call of the callback, and leaves the frame. -/
lemma holdingAt_write_eq (version : Version) (vals : List Val) (pucFrame : Buffer)
    (offset usAddress usNRegs : ℕ) :
    holdingAt version vals pucFrame offset usAddress usNRegs .write =
      let w := eMBRegHoldingCB version vals (fun i => pucFrame (offset + i)) usAddress usNRegs
        .write
      w.code.map fun code => (code, pucFrame, w.vals) := by
  unfold holdingAt
  dsimp only
  rw [sent_holding, bodyOf, sent_walk_write]
  rfl

/-- The bytes that are read do not depend on the frame: another function code stays. -/
lemma holdingAt_read_update (version : Version) (vals : List Val) (pucFrame : Buffer)
    (usAddress usNRegs : ℕ) (a b count : Byte) :
    holdingAt version vals (Function.update (Function.update pucFrame 0 a) 1 count) 2 usAddress
        usNRegs .read =
      (holdingAt version vals (Function.update (Function.update pucFrame 0 b) 1 count) 2 usAddress
        usNRegs .read).map fun (code, pucFrame, vals) =>
          (code, Function.update pucFrame 0 a, vals) := by
  have hstore : ∀ sent : List Byte,
      Ring.store (Function.update (Function.update pucFrame 0 a) 1 count) 2 sent =
        Function.update (Ring.store (Function.update (Function.update pucFrame 0 b) 1 count) 2 sent)
          0 a := fun sent => by
    rw [← Ring.store_update (by decide), Function.update_comm (by decide : (1 : ℕ) ≠ 0),
      Function.update_idem]
  unfold holdingAt
  dsimp only
  rw [Option.map_map, hstore]
  rfl

/-- A read of so many registers that are allowed is a call of the callback. -/
lemma readHolding_five (version : Version) (vals : List Val) {pucFrame : Buffer}
    (hread : 1 ≤ ushortAt pucFrame 3 ∧ ushortAt pucFrame 3 ≤ 0x7D) :
    eMBFuncReadHoldingRegister version vals pucFrame 5 =
      (holdingAt version vals (Function.update (Function.update pucFrame 0
        mbFuncReadHoldingRegister) 1 (BitVec.ofNat 8 (ushortAt pucFrame 3 * 2))) 2
        (regAddress pucFrame 1) (ushortAt pucFrame 3) .read).map fun (code, pucFrame', vals) =>
          ⟨prveMBError2Exception code, pucFrame',
            if code = .enoerr then 2 + ushortAt pucFrame 3 * 2 else 2, vals⟩ := by
  have hcount : (pucFrame 4).toNat = ushortAt pucFrame 3 := by
    have hsum : ushortAt pucFrame 3 = (pucFrame 3).toNat * 256 + (pucFrame 4).toNat := rfl
    omega
  unfold eMBFuncReadHoldingRegister
  rw [if_pos (by decide), hcount]
  exact if_pos hread

/-- **Writing and reading in one request** is the write request and then the read request, where
the write request is one that is accepted on its own: the answer is that of the read with another
function code, and a write that fails is reported and not followed by the read. -/
theorem readWrite_eq (version : Version) (vals : List Val) {pucFrame : Buffer} {usLen : ℕ}
    (hlen : 10 ≤ usLen) (hread : 1 ≤ ushortAt pucFrame 3 ∧ ushortAt pucFrame 3 ≤ 0x7D)
    (hwrite : 1 ≤ ushortAt pucFrame 7 ∧ ushortAt pucFrame 7 ≤ 0x78)
    (hbytes : 2 * ushortAt pucFrame 7 = (pucFrame 9).toNat) :
    eMBFuncReadWriteMultipleHoldingRegister version vals pucFrame usLen =
      (eMBFuncWriteMultipleHoldingRegister version vals (fun i => pucFrame (i + 4))
        (usLen - 4)).bind fun w =>
          if w.eStatus = .exNone then
            (eMBFuncReadHoldingRegister version w.vals pucFrame 5).map fun r =>
              { r with
                pucFrame := Function.update r.pucFrame 0 mbFuncReadwriteMultipleRegisters }
          else some ⟨w.eStatus, pucFrame, usLen, w.vals⟩ := by
  have hcounts : 1 ≤ ushortAt pucFrame 7 ∧ ushortAt pucFrame 7 ≤ 0x0078 ∧
      (pucFrame 9).toNat = 2 * ushortAt pucFrame 7 % 0x100 := ⟨hwrite.1, hwrite.2, by omega⟩
  have hdata : (fun i => pucFrame (6 + i + 4)) = fun i => pucFrame (10 + i) :=
    funext fun i => congrArg pucFrame (by omega)
  have hboth : (1 ≤ ushortAt pucFrame 3 ∧ ushortAt pucFrame 3 ≤ 0x7D) ∧
      (1 ≤ ushortAt pucFrame 7 ∧ ushortAt pucFrame 7 ≤ 0x79) ∧
        2 * ushortAt pucFrame 7 = (pucFrame 9).toNat := ⟨hread, ⟨hwrite.1, by omega⟩, hbytes⟩
  have hwritten : eMBFuncWriteMultipleHoldingRegister version vals (fun i => pucFrame (i + 4))
      (usLen - 4) =
      let w := eMBRegHoldingCB version vals (fun i => pucFrame (10 + i)) (regAddress pucFrame 5)
        (ushortAt pucFrame 7) .write
      w.code.map fun code => ⟨prveMBError2Exception code, fun i => pucFrame (i + 4),
        if code = .enoerr then 5 else usLen - 4, w.vals⟩ := by
    unfold eMBFuncWriteMultipleHoldingRegister
    rw [if_pos (by omega)]
    refine (if_pos hcounts).trans ?_
    rw [holdingAt_write_eq]
    dsimp only
    rw [hdata, Option.map_map]
    rfl
  rw [hwritten]
  unfold eMBFuncReadWriteMultipleHoldingRegister
  rw [if_pos hlen]
  refine (if_pos hboth).trans ?_
  rw [holdingAt_write_eq]
  dsimp only
  cases hcode : (eMBRegHoldingCB version vals (fun i => pucFrame (10 + i)) (regAddress pucFrame 5)
    (ushortAt pucFrame 7) .write).code with
  | none => rfl
  | some code =>
      simp only [Option.map_some, Option.bind_some, exNone_iff]
      by_cases henoerr : code = .enoerr
      · subst henoerr
        rw [if_pos rfl, readHolding_five _ _ hread, Nat.mul_comm 2]
        dsimp only
        rw [holdingAt_read_update _ _ _ _ _ mbFuncReadwriteMultipleRegisters
            mbFuncReadHoldingRegister, Option.map_map, Option.map_map]
        rfl
      · rw [if_neg henoerr]
        cases code with
        | enoerr => exact absurd rfl henoerr
        | _ => rfl

/-- A request to write a register and to read one. -/
def readWriteRequest : Buffer := fun i =>
  if i = 0 then mbFuncReadwriteMultipleRegisters
  else if i = 4 then 1 else if i = 8 then 1 else if i = 9 then 2 else 0

/-- It is such a request. -/
theorem readWrite_eq_one :
    eMBFuncReadWriteMultipleHoldingRegister ⟨1, 0, 0, 0⟩ valuearray readWriteRequest 12 =
      (eMBFuncWriteMultipleHoldingRegister ⟨1, 0, 0, 0⟩ valuearray
        (fun i => readWriteRequest (i + 4)) (12 - 4)).bind fun w =>
          if w.eStatus = .exNone then
            (eMBFuncReadHoldingRegister ⟨1, 0, 0, 0⟩ w.vals readWriteRequest 5).map fun r =>
              { r with
                pucFrame := Function.update r.pucFrame 0 mbFuncReadwriteMultipleRegisters }
          else some ⟨w.eStatus, readWriteRequest, 12, w.vals⟩ :=
  readWrite_eq ⟨1, 0, 0, 0⟩ valuearray (by decide) (by decide) (by decide) (by decide)

end PanelFirmware.Modbus
