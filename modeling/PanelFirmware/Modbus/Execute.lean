import PanelFirmware.Modbus.Handlers
import PanelFirmware.Modbus.TcpPort

/-!
# `lib/freemodbus`: the answer to a request

`eMBPoll` executes a request in the receive buffer: the handler of its function code reads the
request from the buffer and puts its answer there, and `eMBTCPSend` sends it with the header of the
request, in which it corrects the length.

* `execute_answers`: every answer has the header of its request and its own length, and the function
  code of the request, with its top bit set and a code behind it where an exception is reported.
* `execute_bounds`: over a table of 123 registers at most, nothing behind the receive buffer is
  changed, and no answer but the one to file records is longer than it.
* `fileRecord_echo_iff`: when file records that are written are answered by the request itself.
-/

namespace PanelFirmware.Modbus

open PanelFirmware.Lib PanelFirmware.Hal PanelFirmware.Prm PanelFirmware.Libmodbus

/-! ### Executing a request -/

/-- The handlers that `mbconfig.h` enables.
Source: `mb.c` `xFuncHandlers`; `eMBPoll`, the search for the handler. -/
def handle (version : Version) (vals : List Val) (ucMBFrame : Buffer) (usLength : ℕ) :
    Prog Flash Handled :=
  let ucFunctionCode := ucMBFrame 0
  if ucFunctionCode = mbFuncOtherReportSlaveid then pure (eMBFuncReportSlaveID vals ucMBFrame)
  else if ucFunctionCode = mbFuncReadHoldingRegister then
    Prog.ofOption (eMBFuncReadHoldingRegister version vals ucMBFrame usLength)
  else if ucFunctionCode = mbFuncWriteMultipleRegisters then
    Prog.ofOption (eMBFuncWriteMultipleHoldingRegister version vals ucMBFrame usLength)
  else if ucFunctionCode = mbFuncWriteRegister then
    Prog.ofOption (eMBFuncWriteHoldingRegister version vals ucMBFrame usLength)
  else if ucFunctionCode = mbFuncWriteFileRecord then do
    let (eStatus, pucFrame, usLen) ← eMBFuncWriteFileRecord ucMBFrame usLength
    pure ⟨eStatus, pucFrame, usLen, vals⟩
  else if ucFunctionCode = mbFuncReadwriteMultipleRegisters then
    Prog.ofOption (eMBFuncReadWriteMultipleHoldingRegister version vals ucMBFrame usLength)
  else pure (.refuse .exIllegalFunction ucMBFrame usLength vals)

/-- The frame and its length with the exception of its handler.
Source: `mb.c` `eMBPoll`, `EV_EXECUTE`. -/
def Handled.answer (h : Handled) (ucFunctionCode : Byte) : Buffer × ℕ :=
  if h.eStatus ≠ .exNone then
    (Function.update (Function.update h.pucFrame 0 (ucFunctionCode ||| mbFuncError)) 1
      h.eStatus.code, 2)
  else (h.pucFrame, h.usLen)

/-- The frame in the receive buffer, behind the header. Source: `mbtcp.c` `MB_TCP_FUNC`. -/
def frameOf (workbuffer : Buffer) : Buffer := fun i => workbuffer (7 + i)

/-- The receive buffer with another frame in it. -/
def withFrame (workbuffer pucFrame : Buffer) : Buffer :=
  fun i => if i < 7 then workbuffer i else pucFrame (i - 7)

/-- The receive buffer and the number of bytes that are sent of it.
Source: `mbtcp.c` `eMBTCPSend`. -/
def eMBTCPSend (workbuffer : Buffer) (usLength : ℕ) : Buffer × ℕ :=
  (Function.update (Function.update workbuffer 4 (BitVec.ofNat 8 ((usLength + 1) / 0x100))) 5
    (BitVec.ofNat 8 (usLength + 1)), (usLength + 7) % 0x10000)

/-- A request that has been executed: the store, the receive buffer, `usLength`, and what has been
sent. -/
structure Executed where
  vals : List Val
  workbuffer : Buffer
  usLength : ℕ
  sent : List Byte

/-- The request in the receive buffer is executed, and its answer is sent.
Source: `mb.c` `eMBPoll`, `EV_EXECUTE`. -/
def execute (version : Version) (vals : List Val) (workbuffer : Buffer) (usLength : ℕ) :
    Prog Flash Executed := do
  let h ← handle version vals (frameOf workbuffer) usLength
  let (pucFrame, usLength) := h.answer (workbuffer 7)
  let (workbuffer, usTCPLength) := eMBTCPSend (withFrame workbuffer pucFrame) usLength
  pure ⟨h.vals, workbuffer, usLength, workbuffer.bytes usTCPLength⟩

/-! ### A request that is executed -/

/-- What every handler leaves. -/
structure Handled.Proper (h : Handled) (vals : List Val) (pucFrame : Buffer) (usLen : ℕ) :
    Prop where
  frame : ∀ i, i = 0 ∨ answerRoom vals ≤ i → h.pucFrame i = pucFrame i
  status : h.eStatus.code.toNat ≤ 4
  pos : 1 ≤ usLen ∨ pucFrame 0 = mbFuncWriteFileRecord → h.eStatus = .exNone → 1 ≤ h.usLen
  small : h.eStatus = .exNone → h.usLen < 0x200
  usLen : pucFrame 0 ≠ mbFuncWriteFileRecord → h.eStatus = .exNone →
    h.usLen ≤ max 9 (answerRoom vals)
  sameTable : SameTable vals h.vals

/-- A handler of registers leaves what every handler does. -/
lemma Handled.Keeps.proper {h : Handled} {vals : List Val} {pucFrame : Buffer} {usLen : ℕ}
    (hfile : pucFrame 0 ≠ mbFuncWriteFileRecord) (hkeeps : h.Keeps vals pucFrame usLen) :
    h.Proper vals pucFrame usLen := by
  refine ⟨hkeeps.frame, hkeeps.status,
    fun hpos hnone => (hkeeps.usLen hnone).2 (hpos.resolve_right hfile), fun hnone => ?_,
    fun _ hnone => (hkeeps.usLen hnone).1, hkeeps.sameTable⟩
  have hle := (hkeeps.usLen hnone).1
  unfold answerRoom at hle
  omega

/-- Every handler leaves what is expected of it. -/
lemma handle_runs {version : Version} {vals : List Val} {pucFrame : Buffer} {usLen : ℕ}
    {h : Handled} {f f' : Flash} {l : List Flash}
    (hrun : Prog.Runs (handle version vals pucFrame usLen) f l h f') :
    h.Proper vals pucFrame usLen := by
  unfold handle at hrun
  dsimp only at hrun
  split_ifs at hrun with h17 h3 h16 h6 h21 h23
  · cases Prog.Runs.of_pure hrun
    exact ⟨fun _ _ => rfl, (by decide : MBException.exNone.code.toNat ≤ 4),
      fun _ _ => le_refl 1, fun _ => (by decide : 1 < 0x200),
      fun _ _ => (by decide : 1 ≤ 9).trans (le_max_left _ _), rfl⟩
  · exact (keeps_readRegisters h3 (Prog.Runs.of_ofOption hrun)).proper (by rw [h3]; decide)
  · exact (keeps_writeMultiple (Prog.Runs.of_ofOption hrun)).proper (by rw [h16]; decide)
  · exact (keeps_writeRegister (Prog.Runs.of_ofOption hrun)).proper (by rw [h6]; decide)
  · obtain ⟨l₁, ⟨eStatus, pucFrame', usLen'⟩, f₁, l₂, hfile, hret, -⟩ := Prog.Runs.of_bind hrun
    cases Prog.Runs.of_pure hret
    obtain ⟨hstatus, hframe, hnone⟩ := writeFileRecord_runs hfile
    refine ⟨fun i hi => hframe i ?_, hstatus, fun _ h => ?_, fun h => ?_,
      fun h => absurd h21 h, rfl⟩
    · unfold answerRoom at hi
      omega
    · have hlen := (hnone h).1
      dsimp only
      omega
    · obtain ⟨hlen, -, -, hlt⟩ := hnone h
      have hbyte := (pucFrame 1).isLt
      dsimp only
      omega
  · exact (keeps_readWrite h23 (Prog.Runs.of_ofOption hrun)).proper h21
  · cases Prog.Runs.of_pure hrun
    have hstatus : MBException.exIllegalFunction.code.toNat ≤ 4 := by decide
    exact (keeps_refuse hstatus nofun).proper h21

/-- The header of a request comes back with the length of the answer, and its function code, or
that code with its top bit set and the code of an exception. -/
structure Answers (request answer : List Byte) : Prop where
  header : ∀ i ∈ [0, 1, 2, 3, 6], i < request.length → answer[i]? = request[i]?
  length : 256 * (answer.getD 4 0).toNat + (answer.getD 5 0).toNat + 6 = answer.length
  function : ∀ fc, request[7]? = some fc → answer[7]? = some fc ∨
    answer.length = 9 ∧ answer[7]? = some (fc ||| mbFuncError) ∧
      ∃ code : Byte, answer[8]? = some code ∧ 1 ≤ code.toNat ∧ code.toNat ≤ 4

section Send

variable (workbuffer pucFrame : Buffer) (usLength : ℕ)

/-- The receive buffer that is sent: the header with another length, and the frame. -/
lemma eMBTCPSend_apply {i : ℕ} (h4 : i ≠ 4) (h5 : i ≠ 5) :
    (eMBTCPSend (withFrame workbuffer pucFrame) usLength).1 i =
      if i < 7 then workbuffer i else pucFrame (i - 7) := by
  unfold eMBTCPSend
  dsimp only
  rw [Function.update_of_ne h5, Function.update_of_ne h4, withFrame]

/-- The bytes that are sent. -/
def sentBytes : List Byte :=
  let send := eMBTCPSend (withFrame workbuffer pucFrame) usLength
  send.1.bytes send.2

variable {usLength} (hlt : usLength < 0x200)

include hlt

/-- The bytes that are sent are those of the header and of the frame. -/
lemma getElem?_sentBytes {i : ℕ} (hi : i < usLength + 7) (h4 : i ≠ 4) (h5 : i ≠ 5) :
    (sentBytes workbuffer pucFrame usLength)[i]? =
      some (if i < 7 then workbuffer i else pucFrame (i - 7)) := by
  have hlen : i < (eMBTCPSend (withFrame workbuffer pucFrame) usLength).2 := by
    change i < (usLength + 7) % 0x10000
    omega
  rw [sentBytes, getElem?_bytes _ hlen, eMBTCPSend_apply _ _ _ h4 h5]

/-- The header and the frame are sent. -/
lemma length_sentBytes : (sentBytes workbuffer pucFrame usLength).length = usLength + 7 := by
  rw [sentBytes, length_bytes]
  change (usLength + 7) % 0x10000 = usLength + 7
  omega

/-- The length that is sent is the one of what follows it. -/
lemma word_sentBytes :
    256 * ((sentBytes workbuffer pucFrame usLength).getD 4 0).toNat +
      ((sentBytes workbuffer pucFrame usLength).getD 5 0).toNat = usLength + 1 := by
  have hlen : (eMBTCPSend (withFrame workbuffer pucFrame) usLength).2 = usLength + 7 := by
    change (usLength + 7) % 0x10000 = usLength + 7
    omega
  have h4 : (eMBTCPSend (withFrame workbuffer pucFrame) usLength).1 4 =
      BitVec.ofNat 8 ((usLength + 1) / 0x100) := by
    unfold eMBTCPSend
    dsimp only
    rw [Function.update_of_ne (by decide), Function.update_self]
  have h5 : (eMBTCPSend (withFrame workbuffer pucFrame) usLength).1 5 =
      BitVec.ofNat 8 (usLength + 1) := by
    unfold eMBTCPSend
    dsimp only
    rw [Function.update_self]
  have hword := ushort_bytes (v := usLength + 1) (by omega)
  rw [sentBytes, hlen, List.getD_eq_getElem?_getD, List.getD_eq_getElem?_getD,
    getElem?_bytes _ (by omega), getElem?_bytes _ (by omega), Option.getD_some, Option.getD_some,
    h4, h5, Nat.mul_comm]
  exact hword

/-- Where the header has that length already, it is sent as it is. -/
lemma getElem?_sentBytes_of_word {i : ℕ} (hword : ushortAt workbuffer 4 = usLength + 1)
    (hi : i < usLength + 7) :
    (sentBytes workbuffer pucFrame usLength)[i]? =
      some (if i < 7 then workbuffer i else pucFrame (i - 7)) := by
  have hsent := word_sentBytes workbuffer pucFrame hlt
  have hlength := length_sentBytes workbuffer pucFrame hlt
  have hsplit : ushortAt workbuffer 4 = (workbuffer 4).toNat * 256 + (workbuffer 5).toNat := rfl
  have hget : ∀ j < 7, (sentBytes workbuffer pucFrame usLength)[j]? =
      some ((sentBytes workbuffer pucFrame usLength).getD j 0) := fun j hj => by
    rw [List.getElem?_eq_getElem (by omega), List.getD_eq_getElem _ _ (by omega)]
  by_cases h4 : i = 4
  · rw [h4, hget 4 (by decide), if_pos (by decide)]
    exact congrArg some (BitVec.eq_of_toNat_eq (by omega))
  · by_cases h5 : i = 5
    · rw [h5, hget 5 (by decide), if_pos (by decide)]
      exact congrArg some (BitVec.eq_of_toNat_eq (by omega))
    · exact getElem?_sentBytes _ _ hlt hi h4 h5

end Send

section Executes

variable {version : Version} {vals : List Val} {workbuffer : Buffer} {usLength : ℕ}
  {e : Executed} {f f' : Flash} {l : List Flash}

/-- A request that is executed: its handler, and what is sent of its answer. -/
lemma execute_runs (hrun : Prog.Runs (execute version vals workbuffer usLength) f l e f') :
    ∃ h : Handled,
      (∃ l₁ f₁, Prog.Runs (handle version vals (frameOf workbuffer) usLength) f l₁ h f₁) ∧
      e.vals = h.vals ∧
      e.usLength = (h.answer (workbuffer 7)).2 ∧
      e.workbuffer = (eMBTCPSend (withFrame workbuffer (h.answer (workbuffer 7)).1) e.usLength).1 ∧
      e.sent = sentBytes workbuffer (h.answer (workbuffer 7)).1 e.usLength := by
  obtain ⟨l₁, h, f₁, l₂, hhandle, hret, -⟩ := Prog.Runs.of_bind hrun
  obtain rfl := Prog.Runs.of_pure hret
  exact ⟨h, ⟨l₁, f₁, hhandle⟩, rfl, rfl, rfl, rfl⟩

/-- The frame and the length of an answer: the handler's, or those of an exception. -/
lemma Handled.Proper.answer_cases {h : Handled} {pucFrame : Buffer} {usLen : ℕ}
    (hproper : h.Proper vals pucFrame usLen) (fc : Byte) :
    h.eStatus = .exNone ∧ h.answer fc = (h.pucFrame, h.usLen) ∨
      h.answer fc = (Function.update (Function.update h.pucFrame 0 (fc ||| mbFuncError)) 1
        h.eStatus.code, 2) ∧ 1 ≤ h.eStatus.code.toNat ∧ h.eStatus.code.toNat ≤ 4 := by
  by_cases hnone : h.eStatus = .exNone
  · exact Or.inl ⟨hnone, if_neg (not_not.mpr hnone)⟩
  · refine Or.inr ⟨if_pos hnone, ?_, hproper.status⟩
    cases hstatus : h.eStatus with
    | exNone => exact absurd hstatus hnone
    | _ => decide

/-- **A request is answered**: by its header with the length of the answer, and by its function
code, or that code with its top bit set and an exception. -/
lemma execute_answers {segment : List Byte} (hsegment : ∀ i b, segment[i]? = some b →
      workbuffer i = b) (hlen : 8 ≤ segment.length → 1 ≤ usLength)
    (hrun : Prog.Runs (execute version vals workbuffer usLength) f l e f') :
    Answers segment e.sent := by
  obtain ⟨h, ⟨l₁, f₁, hhandle⟩, -, husLength, -, hsent⟩ := execute_runs hrun
  have hproper := handle_runs hhandle
  have hlt : e.usLength < 0x200 := by
    rcases hproper.answer_cases (workbuffer 7) with ⟨hnone, heq⟩ | ⟨heq, -, -⟩
    · rw [husLength, heq]
      exact hproper.small hnone
    · rw [husLength, heq]
      exact (by decide : 2 < 0x200)
  have hlength := length_sentBytes workbuffer (h.answer (workbuffer 7)).1 hlt
  refine ⟨fun i hi hin => ?_, ?_, fun fc hfc => ?_⟩
  · have hheader : i < 7 ∧ i ≠ 4 ∧ i ≠ 5 := by
      fin_cases hi <;> decide
    rw [hsent, getElem?_sentBytes _ _ hlt (by omega) hheader.2.1 hheader.2.2, if_pos hheader.1,
      hsegment i _ (List.getElem?_eq_getElem hin), List.getElem?_eq_getElem hin]
  · rw [hsent, word_sentBytes _ _ hlt, hlength]
  · have hseven : workbuffer 7 = fc := hsegment 7 fc hfc
    have hin : 8 ≤ segment.length := (List.getElem?_eq_some_iff.mp hfc).1
    rcases hproper.answer_cases (workbuffer 7) with ⟨hnone, heq⟩ | ⟨heq, hpos, hle⟩
    · left
      have hone : 1 ≤ e.usLength := by
        rw [husLength, heq]
        exact hproper.pos (Or.inl (hlen hin)) hnone
      rw [hsent, getElem?_sentBytes _ _ hlt (by omega) (by decide) (by decide),
        if_neg (by decide), heq]
      change some (h.pucFrame 0) = some fc
      rw [hproper.frame 0 (Or.inl rfl), ← hseven]
      rfl
    · right
      have htwo : e.usLength = 2 := by rw [husLength, heq]
      have hnine : (sentBytes workbuffer (h.answer (workbuffer 7)).1 e.usLength).length = 9 := by
        rw [hlength, htwo]
      refine ⟨by rw [hsent, hnine], ?_, h.eStatus.code, ?_, hpos, hle⟩
      · rw [hsent, getElem?_sentBytes _ _ hlt (by omega) (by decide) (by decide),
          if_neg (by decide), heq, hseven]
        rfl
      · rw [hsent, getElem?_sentBytes _ _ hlt (by omega) (by decide) (by decide),
          if_neg (by decide), heq]
        rfl

/-- **Over a table of 123 registers** nothing behind the receive buffer is changed, and no answer
but the one to file records is longer than it. -/
lemma execute_bounds (hregisters : registersOf vals ≤ 123)
    (hrun : Prog.Runs (execute version vals workbuffer usLength) f l e f') :
    (∀ i, workbufferSize ≤ i → e.workbuffer i = workbuffer i) ∧ SameTable vals e.vals ∧
      (e.sent.length ≤ workbufferSize ∨ e.sent[7]? = some mbFuncWriteFileRecord) := by
  obtain ⟨h, ⟨l₁, f₁, hhandle⟩, hvals, husLength, hworkbuffer, hsent⟩ := execute_runs hrun
  have hproper := handle_runs hhandle
  have hroom : answerRoom vals ≤ 248 := by
    unfold answerRoom
    omega
  refine ⟨fun i hi => ?_, hvals ▸ hproper.sameTable, ?_⟩
  · have hi' : 256 ≤ i := hi
    rw [hworkbuffer, eMBTCPSend_apply _ _ _ (by omega) (by omega), if_neg (by omega)]
    have hbehind : h.pucFrame (i - 7) = workbuffer i := by
      rw [hproper.frame (i - 7) (Or.inr (by omega)), frameOf, show 7 + (i - 7) = i by omega]
    rcases hproper.answer_cases (workbuffer 7) with ⟨-, heq⟩ | ⟨heq, -, -⟩
    · rw [heq]
      exact hbehind
    · rw [heq]
      dsimp only
      rw [Function.update_of_ne (by omega), Function.update_of_ne (by omega)]
      exact hbehind
  · rw [hsent]
    rcases hproper.answer_cases (workbuffer 7) with ⟨hnone, heq⟩ | ⟨heq, -, -⟩
    · have hlt : e.usLength < 0x200 := by
        rw [husLength, heq]
        exact hproper.small hnone
      by_cases hfile : workbuffer 7 = mbFuncWriteFileRecord
      · right
        have hone : 1 ≤ e.usLength := by
          rw [husLength, heq]
          exact hproper.pos (Or.inr hfile) hnone
        rw [getElem?_sentBytes _ _ hlt (by omega) (by decide) (by decide), if_neg (by decide), heq]
        change some (h.pucFrame 0) = _
        rw [hproper.frame 0 (Or.inl rfl), ← hfile]
        rfl
      · left
        rw [length_sentBytes _ _ hlt, husLength, heq]
        have hle := hproper.usLen hfile hnone
        change h.usLen + 7 ≤ 256
        omega
    · left
      have htwo : e.usLength = 2 := by rw [husLength, heq]
      rw [length_sentBytes _ _ (by rw [htwo]; decide), htwo]
      decide

end Executes

/-! ### File records are echoed -/

/-- The handler of file records. -/
lemma handle_file (version : Version) (vals : List Val) {pucFrame : Buffer} (usLen : ℕ)
    (h : pucFrame 0 = mbFuncWriteFileRecord) :
    handle version vals pucFrame usLen = (do
      let (eStatus, pucFrame, usLen) ← eMBFuncWriteFileRecord pucFrame usLen
      pure ⟨eStatus, pucFrame, usLen, vals⟩) := by
  unfold handle
  dsimp only
  rw [h, if_neg (by decide), if_neg (by decide), if_neg (by decide), if_neg (by decide),
    if_pos rfl]

/-- Where the answer has the function code of file records, these have been written. -/
lemma execute_file {version : Version} {vals : List Val} {workbuffer : Buffer}
    {usLength : ℕ} {e : Executed} {f f' : Flash} {l : List Flash}
    (hrun : Prog.Runs (execute version vals workbuffer usLength) f l e f')
    (haccepted : e.sent[7]? = some mbFuncWriteFileRecord) :
    ∃ pucFrame : Buffer, (∀ i, i ≠ 1 → pucFrame i = frameOf workbuffer i) ∧
      pucFrame 1 = BitVec.ofNat 8 (recordsSize (recordCalls (frameOf workbuffer))) ∧
      (workbuffer 8).toNat ≤ recordsSize (recordCalls (frameOf workbuffer)) ∧
      recordsSize (recordCalls (frameOf workbuffer)) < (workbuffer 8).toNat + 135 ∧
      e.sent = sentBytes workbuffer pucFrame
        (recordsSize (recordCalls (frameOf workbuffer)) + 2) := by
  obtain ⟨h, ⟨l₁, f₁, hhandle⟩, -, husLength, -, hsent⟩ := execute_runs hrun
  have hproper := handle_runs hhandle
  rcases hproper.answer_cases (workbuffer 7) with ⟨hnone, heq⟩ | ⟨heq, -, -⟩
  · rw [heq] at husLength hsent
    have hlt : e.usLength < 0x200 := husLength ▸ hproper.small hnone
    have hseven : 7 < e.sent.length := (List.getElem?_eq_some_iff.mp haccepted).1
    rw [hsent, length_sentBytes _ _ hlt] at hseven
    have hcode : frameOf workbuffer 0 = mbFuncWriteFileRecord := by
      rw [hsent, getElem?_sentBytes _ _ hlt (by omega) (by decide) (by decide),
        if_neg (by decide)] at haccepted
      rw [← hproper.frame 0 (Or.inl rfl)]
      exact Option.some.inj haccepted
    rw [handle_file _ _ _ hcode] at hhandle
    obtain ⟨l₂, ⟨eStatus, pucFrame, usLen⟩, f₂, l₃, hfile, hret, -⟩ := Prog.Runs.of_bind hhandle
    obtain rfl := Prog.Runs.of_pure hret
    obtain ⟨-, hframe, hwritten⟩ := writeFileRecord_runs hfile
    obtain ⟨hlen, hcount, hcover, hbound⟩ := hwritten hnone
    refine ⟨pucFrame, hframe, hcount, hcover, hbound, ?_⟩
    rw [hsent, husLength]
    exact congrArg (sentBytes workbuffer pucFrame) hlen
  · rw [heq] at husLength hsent
    have htwo : e.usLength = 2 := husLength
    rw [hsent, getElem?_sentBytes _ _ (by omega) (by omega) (by decide) (by decide),
      if_neg (by decide)] at haccepted
    have hcode : workbuffer 7 ||| mbFuncError = mbFuncWriteFileRecord := Option.some.inj haccepted
    have hbit := congrArg (fun b : Byte => b.getLsbD 7) hcode
    simp at hbit

/-- **File records that are written** are answered by the request itself exactly if its sub-requests
make up the byte count and its header counts them; sub-requests that do not are answered with
another byte count and length. -/
theorem fileRecord_echo_iff {version : Version} {vals : List Val} {workbuffer : Buffer}
    {usLength : ℕ} {e : Executed} {f f' : Flash} {l : List Flash}
    (hrun : Prog.Runs (execute version vals workbuffer usLength) f l e f')
    (haccepted : e.sent[7]? = some mbFuncWriteFileRecord) :
    (e.sent = workbuffer.bytes (9 + (workbuffer 8).toNat) ↔
      recordsSize (recordCalls (frameOf workbuffer)) = (workbuffer 8).toNat ∧
        ushortAt workbuffer 4 = 3 + (workbuffer 8).toNat) ∧
    (recordsSize (recordCalls (frameOf workbuffer)) ≠ (workbuffer 8).toNat →
      e.sent[8]? ≠ some (workbuffer 8) ∧ e.sent.length ≠ 9 + (workbuffer 8).toNat) := by
  obtain ⟨pucFrame, hframe, hcount, hcover, hbound, hsent⟩ := execute_file hrun haccepted
  have hbyte := (workbuffer 8).isLt
  have hlt : recordsSize (recordCalls (frameOf workbuffer)) + 2 < 0x200 := by omega
  have hlength := length_sentBytes workbuffer pucFrame hlt
  rw [hsent]
  refine ⟨⟨fun heq => ?_, ?_⟩, fun hne => ⟨fun heq => ?_, by omega⟩⟩
  · have hword := word_sentBytes workbuffer pucFrame hlt
    rw [heq, length_bytes] at hlength
    rw [heq, List.getD_eq_getElem?_getD, List.getD_eq_getElem?_getD, getElem?_bytes _ (by omega),
      getElem?_bytes _ (by omega), Option.getD_some, Option.getD_some] at hword
    have hsplit : ushortAt workbuffer 4 = (workbuffer 4).toNat * 256 + (workbuffer 5).toNat := rfl
    omega
  · rintro ⟨htile, hword⟩
    rw [htile] at hlength hlt hcount ⊢
    refine List.ext_getElem? fun i => ?_
    by_cases hi : i < 9 + (workbuffer 8).toNat
    · rw [getElem?_sentBytes_of_word _ _ hlt (by omega) (by omega), getElem?_bytes _ hi]
      split_ifs with hseven
      · rfl
      · by_cases height : i = 8
        · rw [height]
          have hsame : BitVec.ofNat 8 (workbuffer 8).toNat = workbuffer 8 := by
            rw [BitVec.ofNat_toNat, BitVec.setWidth_eq]
          exact congrArg some (hcount.trans hsame)
        · rw [hframe _ (by omega), frameOf, show 7 + (i - 7) = i by omega]
    · rw [List.getElem?_eq_none (by omega), List.getElem?_eq_none (by rw [length_bytes]; omega)]
  · rw [getElem?_sentBytes _ _ hlt (by omega) (by decide) (by decide), if_neg (by decide)] at heq
    -- the sizes are less than 256 apart, so their low bytes differ too
    have hlow := congrArg BitVec.toNat (hcount.symm.trans (Option.some.inj heq))
    rw [BitVec.toNat_ofNat] at hlow
    omega

/-- A request to write two words of the sixth record. -/
def recordRequest : Buffer := fun i =>
  ([0, 1, 0, 0, 0, 14, 2, 0x15, 11, 6, 0, 1, 0, 5, 0, 2, 0xDE, 0xAD, 0xBE, 0xEF] :
    List Byte).getD i 0

/-- Its only sub-request. -/
lemma recordCalls_recordRequest :
    recordCalls (frameOf recordRequest) = [⟨1, 5, 2, 9⟩] := by
  rw [recordCalls, if_pos ⟨by decide, by decide⟩, recordCallsFrom, if_pos (by decide)]
  dsimp only
  rw [recordCallsFrom, if_neg (by decide)]
  rfl

/-- It is answered by itself. -/
theorem fileRecord_echo_words :
    ∃ (e : Executed) (f' : Flash) (l : List Flash),
      Prog.Runs (execute ⟨1, 0, 0, 0⟩ valuearray recordRequest 13) (fun _ => 0xFF) l e f' ∧
        ((e.sent = recordRequest.bytes (9 + (recordRequest 8).toNat) ↔
          recordsSize (recordCalls (frameOf recordRequest)) = (recordRequest 8).toNat ∧
            ushortAt recordRequest 4 = 3 + (recordRequest 8).toNat) ∧
        (recordsSize (recordCalls (frameOf recordRequest)) ≠ (recordRequest 8).toNat →
          e.sent[8]? ≠ some (recordRequest 8) ∧
            e.sent.length ≠ 9 + (recordRequest 8).toNat)) := by
  have hrun : ∃ (e : Executed) (f' : Flash) (l : List Flash),
      Prog.Runs (execute ⟨1, 0, 0, 0⟩ valuearray recordRequest 13) (fun _ => 0xFF) l e f' ∧
        e.sent[7]? = some mbFuncWriteFileRecord := by
    unfold execute
    rw [handle_file _ _ _ rfl, eMBFuncWriteFileRecord, if_pos ⟨by decide, by decide⟩,
      recordCalls_recordRequest]
    exact ⟨_, _, _, rfl, rfl⟩
  obtain ⟨e, f', l, hrun, haccepted⟩ := hrun
  exact ⟨e, f', l, hrun, fileRecord_echo_iff hrun haccepted⟩

end PanelFirmware.Modbus
