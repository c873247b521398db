import PanelFirmware.Modbus.Upload

/-!
# Write File Record requests and the bounds of a record

`eMBFuncWriteFileRecord` takes the file, the record and the length of each sub-request from the
frame as they stand; the callback checks the first two. The length meets no check on either side,
and the local buffer of the callback has room for 64 words.

* `recordBounds_iff`: which calls of the callback stay within their buffer and their record.
* `mem_recordCalls`: every three 16-bit values are passed by some request.
* `wp_eMBFuncWriteFileRecord`: a request of short records programs the storage region only.
-/

namespace PanelFirmware.Modbus

open PanelFirmware.Lib PanelFirmware.Hal PanelFirmware.Systems

/-! ### The caller -/

/-- Source: `mbproto.h` `eMBException`. -/
inductive MBException
  | exNone
  | exIllegalFunction
  | exIllegalDataAddress
  | exIllegalDataValue
  | exSlaveDeviceFailure
  | exAcknowledge
  | exSlaveBusy
  | exMemoryParityError
  | exGatewayPathFailed
  | exGatewayTgtFailed
  deriving DecidableEq, Repr

/-- Source: `mbutils.c` `prveMBError2Exception`. -/
def prveMBError2Exception : MBErrorCode → MBException
  | .enoerr => .exNone
  | .enoreg => .exIllegalDataAddress
  | .etimedout => .exSlaveBusy
  | _ => .exSlaveDeviceFailure

/-- The 16-bit value at an offset of a frame, high byte first. -/
def ushortAt (pucFrame : ℕ → Byte) (i : ℕ) : ℕ :=
  (pucFrame i).toNat * 256 + (pucFrame (i + 1)).toNat

/-- What one round of the loop hands to the callback; `data` is the offset of the data pointer in
the frame. -/
structure RecordCall where
  usFile : ℕ
  usRecord : ℕ
  usRecordLen : ℕ
  data : ℕ

/-- The sub-request at an offset of the frame.
Source: `mbfuncfile.c` `eMBFuncWriteFileRecord`, `readFrameCur[MB_REQ_...]`. -/
def recordCallAt (pucFrame : ℕ → Byte) (cur : ℕ) : RecordCall where
  usFile := ushortAt pucFrame (cur + 1)
  usRecord := ushortAt pucFrame (cur + 3)
  usRecordLen := ushortAt pucFrame (cur + 5)
  data := cur + 7

/-- The rounds of the loop; `stop` is the offset after the sub-requests.
Source: `mbfuncfile.c` `eMBFuncWriteFileRecord`, `while(readFrameCur < ...)`. -/
def recordCallsFrom (pucFrame : ℕ → Byte) (stop cur : ℕ) : List RecordCall :=
  if cur < stop then
    let r := recordCallAt pucFrame cur
    r :: recordCallsFrom pucFrame stop (cur + (1 + 2 + 2 + 2 + r.usRecordLen * 2))
  else []
termination_by stop - cur

/-- Whether the byte count of a request is accepted.
Source: `mbfuncfile.c` `eMBFuncWriteFileRecord`, the first `if`. -/
def ByteCountOk (pucFrame : ℕ → Byte) : Prop :=
  7 ≤ (pucFrame 1).toNat ∧ (pucFrame 1).toNat ≤ 0xF5

instance (pucFrame : ℕ → Byte) : Decidable (ByteCountOk pucFrame) :=
  inferInstanceAs (Decidable (7 ≤ (pucFrame 1).toNat ∧ (pucFrame 1).toNat ≤ 0xF5))

/-- The calls of the callback a request leads to. -/
def recordCalls (pucFrame : ℕ → Byte) : List RecordCall :=
  if ByteCountOk pucFrame then recordCallsFrom pucFrame (2 + (pucFrame 1).toNat) 2 else []

/-- One call of the callback.
Source: `mbfuncfile.c` `eMBFuncWriteFileRecord`, `eMBFileRecordCB(...)`. -/
def RecordCall.perform (pucFrame : ℕ → Byte) (r : RecordCall) : Prog Flash MBErrorCode :=
  eMBFileRecordCB (fun i => pucFrame (r.data + i)) r.usFile r.usRecord r.usRecordLen .write

/-- The calls one after the other, with the exception and the length reported so far; an error
does not end the loop. Source: `mbfuncfile.c` `eMBFuncWriteFileRecord`. -/
def performCalls (pucFrame : ℕ → Byte) :
    List RecordCall → MBException → ℕ → Prog Flash (MBException × ℕ)
  | [], eStatus, usLen => pure (eStatus, usLen)
  | r :: rs, eStatus, usLen => do
      let eFileStatus ← r.perform pucFrame
      performCalls pucFrame rs
        (if eFileStatus ≠ .enoerr then prveMBError2Exception eFileStatus else eStatus)
        ((usLen + (1 + 2 + 2 + 2 + r.usRecordLen * 2)) % 0x10000)

/-- The exception, the frame and its length after the call.
Source: `mbfuncfile.c` `eMBFuncWriteFileRecord`. -/
def eMBFuncWriteFileRecord (pucFrame : ℕ → Byte) (usLen : ℕ) :
    Prog Flash (MBException × (ℕ → Byte) × ℕ) :=
  if ByteCountOk pucFrame then do
    let (eStatus, usLen) ← performCalls pucFrame (recordCalls pucFrame) .exNone 0
    pure (eStatus, Function.update pucFrame 1 (BitVec.ofNat 8 usLen), (usLen + 2) % 0x10000)
  else pure (.exIllegalDataValue, pucFrame, usLen)

/-! ### What requests pass -/

/-- The first sub-request of an accepted request is passed to the callback. -/
lemma recordCallAt_mem_recordCalls {pucFrame : ℕ → Byte} (h : ByteCountOk pucFrame) :
    recordCallAt pucFrame 2 ∈ recordCalls pucFrame := by
  have hcount := h.1
  rw [recordCalls, if_pos h, recordCallsFrom, if_pos (by omega)]
  exact List.mem_cons_self

/-- A request with one sub-request of seven bytes. -/
def oneRecord (usFile usRecord usLen : ℕ) : ℕ → Byte
  | 0 => 0x15
  | 1 => 7
  | 2 => 6
  | 3 => BitVec.ofNat 8 (usFile / 256)
  | 4 => BitVec.ofNat 8 usFile
  | 5 => BitVec.ofNat 8 (usRecord / 256)
  | 6 => BitVec.ofNat 8 usRecord
  | 7 => BitVec.ofNat 8 (usLen / 256)
  | 8 => BitVec.ofNat 8 usLen
  | _ => 0

/-- A 16-bit value is read back from its two bytes. -/
lemma ushort_bytes {v : ℕ} (hv : v < 0x10000) :
    (BitVec.ofNat 8 (v / 256)).toNat * 256 + (BitVec.ofNat 8 v).toNat = v := by
  rw [BitVec.toNat_ofNat, BitVec.toNat_ofNat]
  omega

/-- Its byte count is accepted. -/
lemma byteCountOk_oneRecord (usFile usRecord usLen : ℕ) :
    ByteCountOk (oneRecord usFile usRecord usLen) :=
  ⟨le_refl 7, show 7 ≤ 0xF5 by decide⟩

/-- **Every three 16-bit values are passed** to the callback by some request. -/
theorem mem_recordCalls {usFile usRecord usLen : ℕ} (hfile : usFile < 0x10000)
    (hrecord : usRecord < 0x10000) (hlen : usLen < 0x10000) :
    (⟨usFile, usRecord, usLen, 9⟩ : RecordCall)
      ∈ recordCalls (oneRecord usFile usRecord usLen) := by
  have hcall : recordCallAt (oneRecord usFile usRecord usLen) 2 = ⟨usFile, usRecord, usLen, 9⟩ := by
    simp only [recordCallAt, ushortAt, oneRecord, ushort_bytes hfile, ushort_bytes hrecord,
      ushort_bytes hlen]
  rw [← hcall]
  exact recordCallAt_mem_recordCalls (byteCountOk_oneRecord usFile usRecord usLen)

/-! ### The bounds of one call -/

/-- The flash `t` differs from `f` in the bytes of a record only. -/
def ChangesRecordOnly (usRecord : ℕ) (f t : Flash) : Prop :=
  ∀ x, x < storageStartAddress + 128 * usRecord ∨
    storageStartAddress + 128 * (usRecord + 1) ≤ x → t x = f x

/-- A call of the callback is within its bounds: it returns an error and does nothing else, or it
fills at most the 128 bytes of its local buffer and programs bytes of its record only, which lies
in the storage region. -/
def RecordBounds (pucFrame : ℕ → Byte) (r : RecordCall) : Prop :=
  (∃ code, code ≠ .enoerr ∧ r.perform pucFrame = pure code) ∨
    (2 * r.usRecordLen ≤ 128 ∧
      (∃ m, fillRecord (fun i => pucFrame (r.data + i)) r.usRecordLen = some m ∧
        ∀ i < 2 * r.usRecordLen, m i = pucFrame (r.data + i)) ∧
      storageStartAddress + 128 * (r.usRecord + 1) ≤ storageStartAddress + storageSize ∧
      ∀ f, Prog.wp (r.perform pucFrame) (ChangesRecordOnly r.usRecord f)
        (fun code t => code = .enoerr ∧ ChangesRecordOnly r.usRecord f t) f)

/-- A call the callback rejects, or of a record that fits the local buffer. -/
def RecordCall.Short (r : RecordCall) : Prop :=
  r.usFile = 1 → r.usRecord * 128 < storageSize → r.usRecordLen ≤ 64

/-- A file or a record that is not there is refused at once. -/
lemma perform_of_refused (pucFrame : ℕ → Byte) {r : RecordCall}
    (h : r.usFile ≠ 1 ∨ storageSize ≤ r.usRecord * 128) :
    r.perform pucFrame = pure .einval := by
  unfold RecordCall.perform eMBFileRecordCB
  by_cases hfile : r.usFile = 1
  · rw [if_neg (not_not.mpr hfile), if_pos (h.resolve_left (not_not.mpr hfile))]
  · rw [if_pos hfile]

/-- The copying loop is stuck once it leaves the local buffer. -/
lemma fillRecord_eq_none (data : ℕ → Byte) {n : ℕ} (hn : 64 < n) : fillRecord data n = none := by
  induction n with
  | zero => exact absurd hn (by omega)
  | succ n ih =>
      unfold fillRecord
      by_cases hlast : 64 < n
      · rw [ih hlast]
        rfl
      · obtain ⟨m, hm, -⟩ := fillRecord_spec data (n := n) (by omega)
        rw [hm, Option.bind_eq_bind, Option.bind_some, if_neg (by omega)]

/-- A call that is not refused and not short runs over the local buffer. -/
lemma perform_stuck (pucFrame : ℕ → Byte) {r : RecordCall} (hfile : r.usFile = 1)
    (hrecord : r.usRecord * 128 < storageSize) (hlen : 64 < r.usRecordLen) (f : Flash) :
    (r.perform pucFrame f).2 = none := by
  unfold RecordCall.perform eMBFileRecordCB
  rw [if_neg (not_not.mpr hfile), if_neg (Nat.not_le.mpr hrecord), fillRecord_eq_none _ hlen]
  rfl

/-- Programming a short record changes bytes of the record only. -/
lemma changesRecordOnly_programmed {usRecord n : ℕ} (hn : n ≤ 128) (bytes : ℕ → Byte)
    (f : Flash) :
    ChangesRecordOnly usRecord f (programmed (storageStartAddress + usRecord * 128) bytes n f) := by
  intro x hx
  exact programmed_of_outside (by omega) bytes f

/-- A short call that is not refused. -/
lemma wp_perform (pucFrame : ℕ → Byte) {r : RecordCall} (hfile : r.usFile = 1)
    (hrecord : r.usRecord * 128 < storageSize) (hlen : r.usRecordLen ≤ 64) (f : Flash) :
    Prog.wp (r.perform pucFrame) (ChangesRecordOnly r.usRecord f)
      (fun code t => code = .enoerr ∧ ChangesRecordOnly r.usRecord f t) f := by
  obtain ⟨m, hm, -⟩ := fillRecord_spec (fun i => pucFrame (r.data + i)) hlen
  unfold RecordCall.perform eMBFileRecordCB
  rw [if_neg (not_not.mpr hfile), if_neg (Nat.not_le.mpr hrecord), hm]
  simp only [Prog.wp_bind, Prog.wp_ofOption_some]
  refine wp_flashWrite m ?_ (fun i _ => rfl) (fun n _ hn => ?_) ?_
  · unfold storageSize at hrecord
    unfold storageStartAddress
    omega
  · exact changesRecordOnly_programmed (by omega) m f
  · exact (Prog.wp_pure _ _).mpr ⟨rfl, changesRecordOnly_programmed (by omega) m f⟩

/-- A call within its bounds is refused or short. -/
lemma RecordBounds.short {pucFrame : ℕ → Byte} {r : RecordCall} (h : RecordBounds pucFrame r) :
    r.Short := by
  intro hfile hrecord
  rcases h with ⟨code, -, hcode⟩ | ⟨hlen, -⟩
  · by_contra hlong
    have hstuck := perform_stuck pucFrame hfile hrecord (Nat.not_le.mp hlong) fun _ => 0
    rw [hcode] at hstuck
    exact Option.some_ne_none _ hstuck
  · omega

/-- A call that is refused or short is within its bounds. -/
lemma RecordCall.Short.bounds {r : RecordCall} (h : r.Short) (pucFrame : ℕ → Byte) :
    RecordBounds pucFrame r := by
  by_cases hrefused : r.usFile ≠ 1 ∨ storageSize ≤ r.usRecord * 128
  · left
    exact ⟨.einval, by decide, perform_of_refused pucFrame hrefused⟩
  · right
    push Not at hrefused
    obtain ⟨hfile, hrecord⟩ := hrefused
    have hlen := h hfile hrecord
    refine ⟨by omega, fillRecord_spec _ hlen, ?_, wp_perform pucFrame hfile hrecord hlen⟩
    unfold storageSize at hrecord ⊢
    omega

/-- **The bounds of a record.** A call of the callback returns an error and touches nothing, or
stays within its local buffer and within its record of the storage region, exactly if the file or
the record is refused or the length is at most 64 words. -/
theorem recordBounds_iff (pucFrame : ℕ → Byte) (r : RecordCall) :
    RecordBounds pucFrame r ↔ r.Short :=
  ⟨fun h => h.short, fun h => h.bounds pucFrame⟩

/-- A record of 65 words is passed to the callback, which runs over its local buffer. -/
theorem long_record_out_of_bounds :
    ¬ ∀ pucFrame, ∀ r ∈ recordCalls pucFrame, RecordBounds pucFrame r := by
  intro h
  have hcall : (⟨1, 0, 65, 9⟩ : RecordCall) ∈ recordCalls (oneRecord 1 0 65) :=
    mem_recordCalls (by decide) (by decide) (by decide)
  have hlen := (h _ _ hcall).short rfl (by decide)
  exact absurd hlen (by decide)

/-! ### A whole request -/

/-- The flash `t` differs from `f` in bytes of the storage region only. -/
def ChangesStorageOnly (f t : Flash) : Prop :=
  ∀ x, x < storageStartAddress ∨ storageStartAddress + storageSize ≤ x → t x = f x

/-- The bytes of a record are bytes of the storage region. -/
lemma ChangesRecordOnly.storage {usRecord : ℕ} (hrecord : usRecord * 128 < storageSize)
    {f t u : Flash} (hf : ChangesStorageOnly f t) (ht : ChangesRecordOnly usRecord t u) :
    ChangesStorageOnly f u := by
  intro x hx
  unfold storageSize at hrecord hx
  rw [ht x (by omega)]
  exact hf x (by unfold storageSize; omega)

/-- A short call changes the storage region only. -/
lemma RecordCall.Short.wp_perform {pucFrame : ℕ → Byte} {r : RecordCall} (h : r.Short)
    {f t : Flash} (hf : ChangesStorageOnly f t) :
    Prog.wp (r.perform pucFrame) (ChangesStorageOnly f) (fun _ => ChangesStorageOnly f) t := by
  by_cases hrefused : r.usFile ≠ 1 ∨ storageSize ≤ r.usRecord * 128
  · rw [perform_of_refused pucFrame hrefused, Prog.wp_pure]
    exact hf
  · push Not at hrefused
    obtain ⟨hfile, hrecord⟩ := hrefused
    refine Prog.wp_mono (Modbus.wp_perform pucFrame hfile hrecord (h hfile hrecord) t) ?_ ?_
    · intro u hu
      exact hu.storage hrecord hf
    · intro _ u hu
      exact hu.2.storage hrecord hf

/-- The rounds of the loop change the storage region only. -/
lemma wp_performCalls {pucFrame : ℕ → Byte} {rs : List RecordCall} (hrs : ∀ r ∈ rs, r.Short)
    (eStatus : MBException) (usLen : ℕ) {f t : Flash} (hf : ChangesStorageOnly f t) :
    Prog.wp (performCalls pucFrame rs eStatus usLen) (ChangesStorageOnly f)
      (fun _ => ChangesStorageOnly f) t := by
  induction rs generalizing eStatus usLen t with
  | nil => exact (Prog.wp_pure _ _).mpr hf
  | cons r rs ih =>
      rw [performCalls, Prog.wp_bind]
      refine Prog.wp_mono ((hrs r List.mem_cons_self).wp_perform hf) (fun _ h => h) fun _ u hu => ?_
      exact ih (fun r' hr' => hrs r' (List.mem_cons_of_mem _ hr')) _ _ hu

/-- **A whole request.** A request whose sub-requests are refused or short ends, and it changes no
byte outside the storage region on its way. -/
theorem wp_eMBFuncWriteFileRecord {pucFrame : ℕ → Byte} (h : ∀ r ∈ recordCalls pucFrame, r.Short)
    (usLen : ℕ) (f : Flash) :
    Prog.wp (eMBFuncWriteFileRecord pucFrame usLen) (ChangesStorageOnly f)
      (fun _ => ChangesStorageOnly f) f := by
  unfold eMBFuncWriteFileRecord
  split_ifs
  · rw [Prog.wp_bind]
    refine Prog.wp_mono (wp_performCalls h _ _ fun _ _ => rfl) (fun _ h => h) fun _ t ht => ?_
    exact (Prog.wp_pure _ _).mpr ht
  · exact (Prog.wp_pure _ _).mpr fun _ _ => rfl

end PanelFirmware.Modbus
