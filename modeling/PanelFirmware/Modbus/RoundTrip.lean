import PanelFirmware.Modbus.Transfer

/-!
# Reading back what was written

`MB_REG_WRITE` and `MB_REG_READ` are two switches over the size of a parameter. They are inverse
to each other for two and four bytes. A parameter of one byte takes the low byte of its register
and drops the high one, unchecked; it is read back with a high byte of zero.

* `toFrame_written`, `written_val_iff`: one parameter.
* `read_written`: the read of a front of the table that was written.
* `roundTrip_iff`: exactly when a request is read back as it was written.
-/

namespace PanelFirmware.Modbus

open PanelFirmware.Lib PanelFirmware.Prm

/-! ### One parameter -/

section Slots

variable (version : Version) (src : ℕ → Byte)

/-- The bytes of the request for a parameter, in the order of the frame. -/
def Slot.frame (s : Slot) : List Byte :=
  (List.range (2 * registers s.prm.getsize)).map fun i => src (2 * s.consumed + i)

/-- The number in the registers of a parameter, the low word first, with the sign of its type. -/
def Slot.register (s : Slot) : ℤ :=
  wrap s.prm.handler.T.signed (16 * registers s.prm.getsize) (ofBytesLE (s.bytes src))

/-- The register of a parameter of one byte holds a number of the non-negative values of its
type: the high byte is zero, and so is the top bit of the low one if the type is signed. -/
def Slot.Narrow (s : Slot) : Prop :=
  s.prm.getsize = 1 → src (2 * s.consumed) = 0 ∧
    (s.prm.handler.T.signed = true → (src (2 * s.consumed + 1)).toNat < 128)

variable {src}

/-- A parameter without a callback is left by it. -/
lemma call_of_no_callback {p : Val} (h : p.handler.callback = none) (read : Bool) :
    p.call version read = p := by
  unfold Val.call
  rw [h]

/-- A parameter without a callback holds the value of the request. -/
lemma written_of_no_callback {s : Slot} (hcb : s.prm.handler.callback = none) :
    s.written version src = s.prm.set (s.value src) (CType.repr_ofBytes _ _) :=
  call_of_no_callback version (p := s.prm.set (s.value src) (CType.repr_ofBytes _ _)) hcb false

/-- Its value is the one of the request. -/
lemma written_val {s : Slot} (hcb : s.prm.handler.callback = none) :
    (s.written version src).val = s.value src :=
  congrArg Val.val (written_of_no_callback version hcb)

/-- Its memory image is the bytes handed to `deserialize`. -/
lemma serialize_written {s : Slot} (hcb : s.prm.handler.callback = none)
    (hstage : Stageable s.prm.getsize) :
    (s.written version src).serialize = (s.bytes src).take s.prm.getsize := by
  have hfilled : s.prm.getsize ≤ (s.bytes src).length := by
    rw [Slot.bytes, length_fromFrame]
    exact ((size_le_filled_iff .write s.prm.handler.T).mpr hstage).2
  rw [written_of_no_callback version hcb]
  exact encode_decode hfilled

/-- **What is read back** of a parameter is what was written, but for the high byte of a parameter
of one byte, which is zero. -/
theorem toFrame_written {s : Slot} (hcb : s.prm.handler.callback = none)
    (hstage : Stageable s.prm.getsize) :
    ∃ buffer, stage (s.written version src).serialize = some buffer ∧
      (toFrame buffer s.prm.getsize).length = (s.frame src).length ∧
      (toFrame buffer s.prm.getsize = s.frame src ↔
        (s.prm.getsize = 1 → src (2 * s.consumed) = 0)) := by
  rw [serialize_written version hcb hstage]
  unfold Slot.bytes Slot.frame
  rcases hstage with h | h | h
  · rw [h]
    refine ⟨_, rfl, rfl, ?_⟩
    change [0, src (2 * s.consumed + 1)] = [src (2 * s.consumed), src (2 * s.consumed + 1)] ↔ _
    rw [List.cons.injEq, and_iff_left rfl]
    exact ⟨fun hzero _ => hzero.symm, fun hzero => (hzero rfl).symm⟩
  · rw [h]
    exact ⟨_, rfl, rfl, iff_of_true rfl fun hone => absurd hone (by decide)⟩
  · rw [h]
    exact ⟨_, rfl, rfl, iff_of_true rfl fun hone => absurd hone (by decide)⟩

/-- The loop body of a read puts the bytes into the frame and leaves the parameter. -/
lemma readBody_written {s : Slot} (hcb : s.prm.handler.callback = none)
    (hstage : Stageable s.prm.getsize) (consumed : ℕ) :
    ∃ sent ran, readBody version (s.written version src) consumed
        = .move (s.written version src) sent ran ∧
      sent.length = (s.frame src).length ∧
      (sent = s.frame src ↔ (s.prm.getsize = 1 → src (2 * s.consumed) = 0)) := by
  obtain ⟨buffer, hbuffer, hlen, heq⟩ := toFrame_written version hcb hstage
  have hcall : (s.written version src).call version true = s.written version src := by
    apply call_of_no_callback
    rw [written_handler]
    exact hcb
  have hsize : (s.written version src).getsize = s.prm.getsize :=
    congrArg (fun h => h.T.size) (written_handler version src s)
  refine ⟨toFrame buffer s.prm.getsize, (s.written version src).callbackRun true, ?_, hlen, heq⟩
  simp only [readBody, hcall, hbuffer, hsize]

/-- A parameter of two or four bytes holds the number in its registers. -/
lemma value_eq_register {s : Slot} (h : s.prm.getsize = 2 ∨ s.prm.getsize = 4) :
    s.value src = s.register src := by
  have hwide : 8 * s.prm.getsize = 16 * registers s.prm.getsize := by
    rcases h with h | h <;> rw [h] <;> rfl
  have hlen : (s.bytes src).length = s.prm.getsize := by
    rw [Slot.bytes, length_fromFrame]
    omega
  change wrap _ (8 * s.prm.getsize) (ofBytesLE ((s.bytes src).take s.prm.getsize)) = _
  rw [List.take_of_length_le hlen.le, hwide]
  rfl

/-- A parameter of one byte, written from a register with a high byte of zero, holds the number in
it exactly when this is not negative as a value of the type. -/
lemma value_eq_register_iff {s : Slot} (h : s.prm.getsize = 1)
    (hzero : src (2 * s.consumed) = 0) :
    s.value src = s.register src ↔
      (s.prm.handler.T.signed = true → (src (2 * s.consumed + 1)).toNat < 128) := by
  have hlow := (src (2 * s.consumed + 1)).isLt
  have hbytes : s.bytes src = [src (2 * s.consumed + 1), 0] := by
    unfold Slot.bytes
    rw [h, ← hzero]
    rfl
  have hvalue : s.value src
      = wrap s.prm.handler.T.signed 8 (src (2 * s.consumed + 1)).toNat := by
    change wrap _ (8 * s.prm.getsize) (ofBytesLE ((s.bytes src).take s.prm.getsize)) = _
    rw [hbytes, h]
    simp [ofBytesLE]
  have hregister : s.register src
      = wrap s.prm.handler.T.signed 16 (src (2 * s.consumed + 1)).toNat := by
    unfold Slot.register
    rw [hbytes, h]
    simp [ofBytesLE, registers]
  have hfits : Fits s.prm.handler.T.signed 16 (src (2 * s.consumed + 1)).toNat := by
    cases s.prm.handler.T.signed
    · exact (fits_unsigned_iff 16 _).mpr (by omega)
    · exact (fits_signed_iff 15 _).mpr (by omega)
  rw [hvalue, hregister, show wrap _ 16 _ = _ from hfits]
  cases s.prm.handler.T.signed
  · exact iff_of_true ((fits_unsigned_iff 8 _).mpr (by omega)) fun hsg => absurd hsg (by decide)
  · exact (fits_signed_iff 7 _).trans ⟨fun hlt _ => by omega, fun hlt => by have := hlt rfl; omega⟩

end Slots

/-! ### A front of the table -/

section Walk

variable (version : Version) {src : ℕ → Byte}

/-- The frames of the parameters moved are the bytes of the request, as far as it is used. -/
lemma flatMap_frame (ps : List Val) (consumed n : ℕ) :
    (moved src ps consumed n).flatMap (Slot.frame src)
      = (List.range (2 * used (moved src ps consumed n))).map fun i => src (2 * consumed + i) := by
  induction ps generalizing consumed n with
  | nil => simp [used]
  | cons p ps ih =>
      cases n with
      | zero => simp [used]
      | succ n =>
          by_cases hmoves : (Slot.mk p consumed).Moves src (n + 1)
          · rw [moved_cons hmoves, List.flatMap_cons, ih, used, Nat.mul_add, Nat.mul_add,
              List.range_add, List.map_append, List.map_map]
            refine congrArg (Slot.frame src ⟨p, consumed⟩ ++ ·) (List.map_congr_left fun i _ => ?_)
            rw [Function.comp_apply, Nat.add_assoc]
          · rw [moved_cons_of_not hmoves]
            rfl

/-- **The read of a front that was written**, over any table: it succeeds, and returns the bytes
of the request exactly when every parameter of one byte was given a high byte of zero. -/
theorem read_written (dst : ℕ → Byte) (ps rest : List Val) {consumed n : ℕ}
    (hcb : ∀ s ∈ moved src ps consumed n, s.prm.handler.callback = none)
    (hused : used (moved src ps consumed n) = n) :
    let r := walk (bodyOf version dst .read)
      ((moved src ps consumed n).map (·.written version src) ++ rest) consumed n
    r.code = some .enoerr ∧
      (r.sent = (moved src ps consumed n).flatMap (Slot.frame src) ↔
        ∀ s ∈ moved src ps consumed n, s.prm.getsize = 1 → src (2 * s.consumed) = 0) := by
  induction ps generalizing consumed n with
  | nil =>
      rw [moved_nil] at hused ⊢
      obtain rfl : n = 0 := hused.symm
      dsimp only
      rw [walk_zero]
      exact ⟨rfl, iff_of_true rfl fun s hs => absurd hs List.not_mem_nil⟩
  | cons p ps ih =>
      cases n with
      | zero =>
          dsimp only
          rw [walk_zero, moved_zero]
          exact ⟨rfl, iff_of_true rfl fun s hs => absurd hs List.not_mem_nil⟩
      | succ n =>
          by_cases hmoves : (Slot.mk p consumed).Moves src (n + 1)
          · have ⟨hstage, hle, _⟩ := hmoves
            rw [moved_cons hmoves] at hcb hused ⊢
            obtain ⟨hhead, htail⟩ := List.forall_mem_cons.mp hcb
            have hrest : used (moved src ps (consumed + registers p.getsize)
                (n + 1 - registers p.getsize)) = n + 1 - registers p.getsize := by
              rw [used] at hused
              dsimp only at hused
              omega
            obtain ⟨hcode, hsent⟩ := ih htail hrest
            obtain ⟨sent, ran, hbody, hlen, heq⟩ := readBody_written version hhead hstage consumed
            have hsize : ((Slot.mk p consumed).written version src).getsize = p.getsize :=
              congrArg (fun h => h.T.size) (written_handler version src _)
            rw [List.map_cons, List.cons_append, walk, hsize, if_neg hmoves.not_half, bodyOf, hbody,
              List.flatMap_cons, List.forall_mem_cons, ← hsent, ← heq]
            refine ⟨hcode, fun happ => List.append_inj happ hlen, ?_⟩
            rintro ⟨h₁, h₂⟩
            exact congrArg₂ (· ++ ·) h₁ h₂
          · rw [moved_cons_of_not hmoves] at hused
            exact absurd hused (Nat.succ_ne_zero n).symm

end Walk

/-! ### A request -/

/-- The read of a request that was written. -/
lemma readBack (version : Version) (vals : List Val) (src dst : ℕ → Byte)
    (usAddress usNRegs : ℕ)
    (hcb : ∀ s ∈ movedBy vals src usAddress usNRegs, s.prm.handler.callback = none)
    (hused : used (movedBy vals src usAddress usNRegs) = usNRegs) :
    let w := eMBRegHoldingCB version vals src usAddress usNRegs .write
    let r := eMBRegHoldingCB version w.vals dst usAddress usNRegs .read
    r.code = some .enoerr ∧ (r.sent = (List.range (2 * usNRegs)).map src ↔
      ∀ s ∈ movedBy vals src usAddress usNRegs, s.prm.getsize = 1 → src (2 * s.consumed) = 0) := by
  intro w r
  obtain ⟨hcode, hsent⟩ := read_written version dst (vals.drop (entry vals usAddress))
    (vals.drop (entry vals usAddress + (movedBy vals src usAddress usNRegs).length)) hcb hused
  have hentry : getbyaddress w.vals (startAddress usAddress) = entry vals usAddress :=
    getbyaddress_congr (sameTable_write version vals src usAddress usNRegs) _
  have hframe : (movedBy vals src usAddress usNRegs).flatMap (Slot.frame src)
      = (List.range (2 * used (movedBy vals src usAddress usNRegs))).map
        fun i => src (2 * 0 + i) :=
    flatMap_frame _ _ _
  simp only [hused, Nat.mul_zero, Nat.zero_add] at hframe
  have hwalk : r.code = (walk (bodyOf version dst .read)
        (w.vals.drop (getbyaddress w.vals (startAddress usAddress))) 0 usNRegs).code ∧
      r.sent = (walk (bodyOf version dst .read)
        (w.vals.drop (getbyaddress w.vals (startAddress usAddress))) 0 usNRegs).sent :=
    ⟨rfl, rfl⟩
  rw [hentry, drop_write version] at hwalk
  rw [hwalk.1, hwalk.2, ← hframe]
  exact ⟨hcode, hsent⟩

/-- **The register round trip, and exactly when it holds.** Over any table, for every start
address, count and payload of a write request that moves parameters without a callback and
returns `MB_ENOERR`: a read of the same start and count returns `MB_ENOERR` and the bytes that
were written, and each parameter holds the number of its registers, if and only if every register
given to a parameter of one byte holds a number among the non-negative values of its type. -/
theorem roundTrip_iff (version : Version) (vals : List Val) (src dst : ℕ → Byte)
    (usAddress usNRegs : ℕ)
    (hcb : ∀ s ∈ movedBy vals src usAddress usNRegs, s.prm.handler.callback = none)
    (hok : (eMBRegHoldingCB version vals src usAddress usNRegs .write).code = some .enoerr) :
    let w := eMBRegHoldingCB version vals src usAddress usNRegs .write
    let r := eMBRegHoldingCB version w.vals dst usAddress usNRegs .read
    let ms := movedBy vals src usAddress usNRegs
    (r.code = some .enoerr ∧ r.sent = (List.range (2 * usNRegs)).map src ∧
        ∀ j s, ms[j]? = some s →
          (w.vals[entry vals usAddress + j]?).map Val.val = some (s.register src)) ↔
      ∀ s ∈ ms, s.Narrow src := by
  intro w r ms
  have hused : used ms = usNRegs := by
    rw [code_write, stopCode_eq_enoerr] at hok
    exact le_antisymm (used_moved_le _ _ _) (Nat.le_of_sub_eq_zero hok)
  obtain ⟨hcode, hsent⟩ := readBack version vals src dst usAddress usNRegs hcb hused
  have hval : ∀ j s, ms[j]? = some s →
      ((w.vals[entry vals usAddress + j]?).map Val.val = some (s.register src) ↔
        s.value src = s.register src) := by
    intro j s hs
    rw [getElem?_write version hs, Option.map_some, written_val version
      (hcb s (List.mem_of_getElem? hs)), Option.some.injEq]
  have hstage : ∀ s ∈ ms, Stageable s.prm.getsize := fun s hs =>
    (moves_of_mem_moved hs).elim fun _ hmoves => hmoves.1
  constructor
  · rintro ⟨-, hbytes, hnumbers⟩ s hs hone
    have hzero := hsent.mp hbytes s hs hone
    obtain ⟨j, hj⟩ := List.getElem?_of_mem hs
    exact ⟨hzero, (value_eq_register_iff hone hzero).mp ((hval j s hj).mp (hnumbers j s hj))⟩
  · intro hnarrow
    refine ⟨hcode, hsent.mpr fun s hs hone => (hnarrow s hs hone).1, fun j s hj => ?_⟩
    have hs := List.mem_of_getElem? hj
    rw [hval j s hj]
    rcases hstage s hs with hone | hwide
    · exact (value_eq_register_iff hone (hnarrow s hs hone).1).mpr (hnarrow s hs hone).2
    · exact value_eq_register hwide

/-- A request that sets `brightness` to 50, with a high byte of its register. -/
def brightnessRequest (high : Byte) : ℕ → Byte := fun i => if i = 0 then high else 50

/-- The request with a high byte of zero. -/
theorem brightness_roundTrip :
    let w := eMBRegHoldingCB ⟨1, 0, 0, 0⟩ valuearray (brightnessRequest 0) 0x0102 1 .write
    let r := eMBRegHoldingCB ⟨1, 0, 0, 0⟩ w.vals (fun _ => 0) 0x0102 1 .read
    let ms := movedBy valuearray (brightnessRequest 0) 0x0102 1
    (r.code = some .enoerr ∧ r.sent = (List.range (2 * 1)).map (brightnessRequest 0) ∧
        ∀ j s, ms[j]? = some s → (w.vals[entry valuearray 0x0102 + j]?).map Val.val
          = some (s.register (brightnessRequest 0))) ↔
      ∀ s ∈ ms, s.Narrow (brightnessRequest 0) :=
  roundTrip_iff ⟨1, 0, 0, 0⟩ valuearray (brightnessRequest 0) (fun _ => 0) 0x0102 1
    (by decide +kernel) (by decide +kernel)

/-- **The high byte is lost.** A request that sets `brightness` to 306 succeeds; 50 is checked and
stored, and 50 is read back. -/
theorem brightness_not_read_back :
    ¬ ∀ (version : Version) (vals : List Val) (src dst : ℕ → Byte) (usAddress usNRegs : ℕ),
      (∀ s ∈ movedBy vals src usAddress usNRegs, s.prm.handler.callback = none) →
      (eMBRegHoldingCB version vals src usAddress usNRegs .write).code = some .enoerr →
      let w := eMBRegHoldingCB version vals src usAddress usNRegs .write
      let r := eMBRegHoldingCB version w.vals dst usAddress usNRegs .read
      r.code = some .enoerr ∧ r.sent = (List.range (2 * usNRegs)).map src := by
  intro h
  obtain ⟨-, hsent⟩ := h ⟨1, 0, 0, 0⟩ valuearray (brightnessRequest 1) (fun _ => 0) 0x0102 1
    (by decide +kernel) (by decide +kernel)
  exact absurd hsent (by decide +kernel)

end PanelFirmware.Modbus
