import PanelFirmware.Modbus.PortTcp

/-!
# The upload of a firmware image in file records

An upload is a sequence of write requests for records of 128 bytes, which may be partial, repeated
and in any order. Programming only clears bits, so that the order does not matter as long as every
write of a record carries the same bytes.

* `wp_eMBFileRecordCB`: one write programs its bytes behind the record's offset.
* `upload_order_independent`: what the storage holds after any sequence of writes.
-/

namespace PanelFirmware.Modbus

open PanelFirmware.Lib PanelFirmware.Hal PanelFirmware.Systems

/-- A write request for a record: its number, its length in words, its bytes. -/
structure RecordWrite where
  usRecord : ℕ
  usLen : ℕ
  data : ℕ → Byte

/-- The requests of an upload, one after the other, with the codes returned. -/
def upload : List RecordWrite → Prog Flash (List MBErrorCode)
  | [] => pure []
  | w :: ws => do
      let code ← eMBFileRecordCB w.data 1 w.usRecord w.usLen .write
      let codes ← upload ws
      pure (code :: codes)

/-- A record inside the storage region, no longer than the local buffer. -/
def RecordWrite.Valid (w : RecordWrite) : Prop := w.usRecord * 128 < storageSize ∧ w.usLen ≤ 64

/-- The write carries the bytes of its record in `image`. -/
def RecordWrite.Carries (image : ℕ → ℕ → Byte) (w : RecordWrite) : Prop :=
  ∀ i < 2 * w.usLen, w.data i = image w.usRecord i

/-- A byte of the storage region was in one of the writes. -/
def Written (ws : List RecordWrite) (record i : ℕ) : Prop :=
  ∃ w ∈ ws, w.usRecord = record ∧ i < 2 * w.usLen

instance (ws : List RecordWrite) (record i : ℕ) : Decidable (Written ws record i) :=
  inferInstanceAs (Decidable (∃ w ∈ ws, w.usRecord = record ∧ i < 2 * w.usLen))

/-- The flash in which the storage region holds the bytes written and is erased elsewhere. -/
def uploaded (image : ℕ → ℕ → Byte) (ws : List RecordWrite) (f : Flash) : Flash := fun x =>
  if storageStartAddress ≤ x ∧ x < storageStartAddress + storageSize then
    if Written ws ((x - storageStartAddress) / 128) ((x - storageStartAddress) % 128) then
      image ((x - storageStartAddress) / 128) ((x - storageStartAddress) % 128)
    else 0xFF
  else f x

/-! ### One request -/

/-- The copying loop fills the words of the request. -/
lemma fillRecord_spec (data : ℕ → Byte) {n : ℕ} (hn : n ≤ 64) :
    ∃ m, fillRecord data n = some m ∧ ∀ i < 2 * n, m i = data i := by
  induction n with
  | zero => exact ⟨_, rfl, fun i hi => absurd hi (by omega)⟩
  | succ n ih =>
      obtain ⟨m, hm, hdata⟩ := ih (by omega)
      refine ⟨Function.update (Function.update m (n * 2) (data (n * 2))) (n * 2 + 1)
        (data (n * 2 + 1)), ?_, ?_⟩
      · simp only [fillRecord, hm, Option.bind_eq_bind, Option.bind_some]
        rw [if_pos (by omega)]
      · intro i hi
        by_cases h1 : i = n * 2 + 1
        · rw [h1, Function.update_self]
        · rw [Function.update_of_ne h1]
          by_cases h0 : i = n * 2
          · rw [h0, Function.update_self]
          · rw [Function.update_of_ne h0]
            exact hdata i (by omega)

/-- **One write** of a valid request returns `MB_ENOERR` and programs the bytes of the request
behind the offset of the record. -/
theorem wp_eMBFileRecordCB {w : RecordWrite} (hw : w.Valid) (f : Flash) :
    Prog.wp (eMBFileRecordCB w.data 1 w.usRecord w.usLen .write) (fun _ => True)
      (fun code t => code = .enoerr ∧
        t = programmed (storageStartAddress + w.usRecord * 128) w.data (2 * w.usLen) f) f := by
  obtain ⟨hrecord, hlen⟩ := hw
  obtain ⟨m, hm, hdata⟩ := fillRecord_spec w.data hlen
  have hbytes : programmed (storageStartAddress + w.usRecord * 128) m (w.usLen * 2) f
      = programmed (storageStartAddress + w.usRecord * 128) w.data (2 * w.usLen) f := by
    funext x
    unfold programmed
    rw [Nat.mul_comm w.usLen 2]
    split_ifs with hin
    · rw [hdata _ (by omega)]
    · rfl
  unfold storageSize at hrecord
  unfold eMBFileRecordCB
  rw [if_neg (by decide), if_neg (by unfold storageSize; omega), hm]
  simp only [Prog.wp_bind, Prog.wp_ofOption_some]
  refine wp_flashWrite _ ?_ (fun i _ => rfl) (fun _ _ _ => trivial) ?_
  · unfold storageStartAddress
    omega
  · exact (Prog.wp_pure _ _).mpr ⟨rfl, hbytes⟩

/-- Programming a write over the bytes of the writes before it. -/
lemma programmed_uploaded {image : ℕ → ℕ → Byte} {w : RecordWrite} (hw : w.Valid)
    (hdata : w.Carries image) (ws : List RecordWrite) (f : Flash) :
    programmed (storageStartAddress + w.usRecord * 128) w.data (2 * w.usLen) (uploaded image ws f)
      = uploaded image (ws ++ [w]) f := by
  obtain ⟨hrecord, hlen⟩ := hw
  unfold storageSize at hrecord
  funext x
  have hsplit : Written (ws ++ [w]) ((x - storageStartAddress) / 128)
      ((x - storageStartAddress) % 128) ↔
        Written ws ((x - storageStartAddress) / 128) ((x - storageStartAddress) % 128) ∨
          (w.usRecord = (x - storageStartAddress) / 128 ∧
            (x - storageStartAddress) % 128 < 2 * w.usLen) := by
    simp [Written, or_and_right, exists_or]
  by_cases hin : storageStartAddress + w.usRecord * 128 ≤ x ∧
      x < storageStartAddress + w.usRecord * 128 + 2 * w.usLen
  · -- the write meets its own bytes or erased ones
    have hdiv : w.usRecord = (x - storageStartAddress) / 128 := by omega
    have hmod : (x - storageStartAddress) % 128 = x - (storageStartAddress + w.usRecord * 128) := by
      omega
    have hbyte := hdata (x - (storageStartAddress + w.usRecord * 128)) (by omega)
    have hstorage : storageStartAddress ≤ x ∧ x < storageStartAddress + storageSize := by
      unfold storageSize
      omega
    rw [programmed, if_pos hin, hbyte, uploaded, uploaded, if_pos hstorage, if_pos hstorage,
      if_pos (hsplit.mpr (Or.inr ⟨hdiv, by omega⟩)), ← hdiv, hmod]
    split_ifs
    · exact BitVec.and_self
    · exact BitVec.allOnes_and
  · have hnot : ¬ (w.usRecord = (x - storageStartAddress) / 128 ∧
        (x - storageStartAddress) % 128 < 2 * w.usLen) ∨ x < storageStartAddress := by
      omega
    rw [programmed, if_neg hin]
    unfold uploaded
    split_ifs with hstorage h1 h2 h2
    · rfl
    · exact absurd (hsplit.mpr (Or.inl h1)) h2
    · rcases hsplit.mp h2 with h | h
      · exact absurd h h1
      · rcases hnot with hnot | hnot
        · exact absurd h hnot
        · exact absurd hstorage.1 (by omega)
    · rfl
    · rfl

/-! ### A whole upload -/

/-- The writes of an upload add up. -/
lemma wp_upload {image : ℕ → ℕ → Byte} (f : Flash) {ws : List RecordWrite}
    (hws : ∀ w ∈ ws, w.Valid ∧ w.Carries image) (done : List RecordWrite) :
    Prog.wp (upload ws) (fun _ => True)
      (fun codes t => codes = List.replicate ws.length .enoerr ∧
        t = uploaded image (done ++ ws) f) (uploaded image done f) := by
  induction ws generalizing done with
  | nil => simp [upload]
  | cons w ws ih =>
      obtain ⟨hvalid, hdata⟩ := hws w List.mem_cons_self
      unfold upload
      rw [Prog.wp_bind]
      refine Prog.wp_mono (wp_eMBFileRecordCB hvalid _) (fun _ h => h) ?_
      rintro code t ⟨rfl, rfl⟩
      rw [programmed_uploaded hvalid hdata, Prog.wp_bind]
      refine Prog.wp_mono (ih (fun v hv => hws v (List.mem_cons_of_mem _ hv)) (done ++ [w]))
        (fun _ h => h) ?_
      rintro codes t ⟨rfl, rfl⟩
      rw [Prog.wp_pure, List.append_assoc]
      exact ⟨rfl, rfl⟩

/-- The storage depends on the set of the writes only. -/
lemma uploaded_congr {ws ws' : List RecordWrite} (h : ∀ w, w ∈ ws ↔ w ∈ ws')
    (image : ℕ → ℕ → Byte) (f : Flash) : uploaded image ws f = uploaded image ws' f := by
  have hsame : ∀ record i, Written ws record i ↔ Written ws' record i := by
    intro record i
    unfold Written
    simp only [h]
  funext x
  simp only [uploaded, hsame]

/-- **An upload is independent of order and repetition.** Into an erased storage region, let any
sequence of valid writes be made in which the writes of a record carry the bytes of one image.
Every request returns `MB_ENOERR`; byte `i` of record `r` of the storage is then the image's if
some write of the record was longer than `i` bytes, and `0xFF` otherwise; no byte outside the
region has changed; and every other sequence of the same set of writes leaves the same flash. -/
theorem upload_order_independent (f : Flash) (image : ℕ → ℕ → Byte) (ws : List RecordWrite)
    (herased : ∀ i < storageSize, f (storageStartAddress + i) = 0xFF)
    (hvalid : ∀ w ∈ ws, w.Valid) (hsame : ∀ w ∈ ws, w.Carries image) :
    ∃ t, (upload ws f).2 = some (List.replicate ws.length .enoerr, t) ∧
      (∀ r i, i < 128 → 128 * r + i < storageSize →
        t (storageStartAddress + (128 * r + i)) = if Written ws r i then image r i else 0xFF) ∧
      (∀ x, x < storageStartAddress ∨ storageStartAddress + storageSize ≤ x → t x = f x) ∧
      ∀ ws' : List RecordWrite, (∀ w, w ∈ ws' ↔ w ∈ ws) →
        (upload ws' f).2 = some (List.replicate ws'.length .enoerr, t) := by
  have hstart : uploaded image [] f = f := by
    funext x
    unfold uploaded
    split_ifs with hstorage hwritten
    · exact absurd hwritten (by simp [Written])
    · have hx := herased (x - storageStartAddress) (by omega)
      rw [Nat.add_sub_cancel' hstorage.1] at hx
      exact hx.symm
    · rfl
  have hrun : ∀ ws' : List RecordWrite, (∀ w, w ∈ ws' ↔ w ∈ ws) →
      (upload ws' f).2 = some (List.replicate ws'.length .enoerr, uploaded image ws f) := by
    intro ws' hmem
    have hws' : ∀ w ∈ ws', w.Valid ∧ w.Carries image :=
      fun w hw => ⟨hvalid w ((hmem w).mp hw), hsame w ((hmem w).mp hw)⟩
    obtain ⟨-, codes, t, hend, rfl, rfl⟩ := wp_upload f hws' []
    rw [hstart, List.nil_append, uploaded_congr hmem] at hend
    exact hend
  refine ⟨uploaded image ws f, hrun ws fun _ => Iff.rfl, ?_, ?_, hrun⟩
  · intro r i hi hr
    have hdiv : (128 * r + i) / 128 = r := by omega
    have hmod : (128 * r + i) % 128 = i := by omega
    unfold uploaded
    rw [if_pos (by omega), Nat.add_sub_cancel_left, hdiv, hmod]
  · intro x hx
    exact if_neg (by omega)

/-- Two records, the second partial and sent twice, into an erased flash. -/
theorem upload_two_records :
    ∃ t, (upload [⟨1, 3, fun i => BitVec.ofNat 8 i⟩, ⟨0, 64, fun _ => 7⟩,
          ⟨1, 3, fun i => BitVec.ofNat 8 i⟩] fun _ => 0xFF).2
        = some (List.replicate 3 .enoerr, t) ∧
      (∀ r i, i < 128 → 128 * r + i < storageSize →
        t (storageStartAddress + (128 * r + i)) =
          if Written [⟨1, 3, fun i => BitVec.ofNat 8 i⟩, ⟨0, 64, fun _ => 7⟩,
            ⟨1, 3, fun i => BitVec.ofNat 8 i⟩] r i
          then (if r = 0 then 7 else BitVec.ofNat 8 i) else 0xFF) ∧
      (∀ x, x < storageStartAddress ∨ storageStartAddress + storageSize ≤ x → t x = 0xFF) ∧
      ∀ ws' : List RecordWrite, (∀ w, w ∈ ws' ↔ w ∈ [⟨1, 3, fun i => BitVec.ofNat 8 i⟩,
          ⟨0, 64, fun _ => 7⟩, ⟨1, 3, fun i => BitVec.ofNat 8 i⟩]) →
        (upload ws' fun _ => 0xFF).2 = some (List.replicate ws'.length .enoerr, t) := by
  refine upload_order_independent (fun _ => 0xFF) (fun r i => if r = 0 then 7 else BitVec.ofNat 8 i)
    _ (fun _ _ => rfl) ?_ ?_
  · simp [RecordWrite.Valid, storageSize]
  · simp [RecordWrite.Carries]

end PanelFirmware.Modbus
