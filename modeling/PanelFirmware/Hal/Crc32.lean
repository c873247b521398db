import PanelFirmware.Hal.Flash

/-!
# `hal/include/hal/crc32.h`: the CRC unit and `crc32_posix`

The unit is a parameter: whatever it computes, it is a function of its state and the word written.
Memory is read word by word through a `load`, which is `none` where an access faults, so that the
words a checksum reads are part of its model.

* `crc32Posix_congr`: the checksum depends on the full words of the buffer and on the low bytes,
  within the length, of the last one.
* `isSome_crc32Posix`, `crc32Posix_eq_none`: it faults where one of these words does, and only
  there.
-/

namespace PanelFirmware.Hal

open PanelFirmware.Lib

/-- Source: `uint32_t`. -/
abbrev Word : Type := BitVec 32

/-- The CRC unit: its state after a reset (`CRC->CR`), after a write of the data register
(`CRC->DR`), and the word the data register reads. -/
structure CrcUnit (S : Type) where
  reset : S
  write : S → Word → S
  read : S → Word

/-- One shift of the controller's unit, most significant bit first. -/
def stm32CrcShift (s : Word) : Word := if s.msb then (s <<< 1) ^^^ 0x04C11DB7 else s <<< 1

/-- The controller's unit: 32 shifts of the state exclusive-or the word. -/
def stm32Crc : CrcUnit Word where
  reset := 0xFFFFFFFF
  write s w := stm32CrcShift^[32] (s ^^^ w)
  read s := s

/-- The bytes of the flash from an address on. -/
def Flash.bytes (f : Flash) (a n : ℕ) : List Byte := (List.range n).map fun i => f (a + i)

/-- The word at an address of the flash, low byte first. -/
def Flash.word (f : Flash) (a : ℕ) : Word := BitVec.ofNat 32 (ofBytesLE (f.bytes a 4))

/-- A word access to the 1 MB of flash; `none` is the fault outside it. -/
def Flash.load (f : Flash) (a : ℕ) : Option Word :=
  if 0x08000000 ≤ a ∧ a + 4 ≤ 0x08100000 then some (f.word a) else none

/-- A word access to a buffer in RAM, at an offset. -/
def bufferLoad (buffer : List Byte) (a : ℕ) : Option Word :=
  if a + 4 ≤ buffer.length then some (BitVec.ofNat 32 (ofBytesLE ((buffer.drop a).take 4)))
  else none

section Crc

variable {S : Type} (u : CrcUnit S)

/-- Source: `crc32.h` `crc32_CalcCRC`. -/
def crc32CalcCRC (s : S) (data : Word) : S × Word := (u.write s data, u.read (u.write s data))

/-- The full words, with `crc_reg` after the last of them.
Source: `crc32.h` `crc32_posix`, `while(len >= 4)`. -/
def crc32Words (load : ℕ → Option Word) : ℕ → ℕ → S → Word → Option (S × Word)
  | 0, _, s, crcReg => some (s, crcReg)
  | n + 1, p, s, _ => do
      let w ← load p
      let (s', crcReg) := crc32CalcCRC u s w.reverse
      crc32Words load n (p + 4) s' crcReg

/-- The unit and `crc_reg` after the full words; a buffer without one feeds a constant.
Source: `crc32.h` `crc32_posix`, `if(len >= 4)`. -/
def crc32Head (load : ℕ → Option Word) (buf len : ℕ) (s : S) : Option (S × Word) :=
  if len ≥ 4 then crc32Words u load (len / 4) buf s 0
  else some (crc32CalcCRC u s 0xEBABAB)

/-- The last bytes, with the masks and shifts of a case.
Source: `crc32.h` `crc32_posix`, `if(len)`. -/
def crc32Tail (load : ℕ → Option Word) (p : ℕ) (mask : Word) (right down : ℕ) (s : S)
    (crcReg : Word) : Option (S × Word) := do
  let crc := crcReg.reverse
  let (s', _) := crc32CalcCRC u s crcReg
  let w ← load p
  let (s'', crcReg') := crc32CalcCRC u s' (((w &&& mask) ^^^ crc).reverse >>> right)
  some (s'', ~~~((crc >>> down) ^^^ crcReg'.reverse))

/-- The unit after the call and the checksum returned.
Source: `crc32.h` `crc32_posix`. -/
def crc32Posix (load : ℕ → Option Word) (buf len : ℕ) (clear : Bool) (s : S) :
    Option (S × Word) := do
  let (s', crcReg) ← crc32Head u load buf len (if clear then u.reset else s)
  let p := buf + 4 * (len / 4)
  match len % 4 with
  | 1 => crc32Tail u load p 0xFF 24 8 s' crcReg
  | 2 => crc32Tail u load p 0xFFFF 16 16 s' crcReg
  | 3 => crc32Tail u load p 0xFFFFFF 8 24 s' crcReg
  | _ => some (s', ~~~crcReg.reverse)

/-! ### What the checksum reads -/

/-- The low `r` bytes of a word. -/
def lowMask (r : ℕ) : Word := BitVec.ofNat 32 (2 ^ (8 * r) - 1)

/-- The full words are read in order. -/
lemma crc32Words_congr {load load' : ℕ → Option Word} {n p q : ℕ} (s : S) (crcReg : Word)
    (h : ∀ i < n, load (p + 4 * i) = load' (q + 4 * i)) :
    crc32Words u load n p s crcReg = crc32Words u load' n q s crcReg := by
  induction n generalizing p q s crcReg with
  | zero => rfl
  | succ n ih =>
      have hfirst := h 0 n.succ_pos
      rw [Nat.mul_zero, Nat.add_zero, Nat.add_zero] at hfirst
      have hrest : ∀ i < n, load (p + 4 + 4 * i) = load' (q + 4 + 4 * i) := by
        intro i hi
        have hnext := h (i + 1) (by omega)
        rw [show p + 4 * (i + 1) = p + 4 + 4 * i by ring,
          show q + 4 * (i + 1) = q + 4 + 4 * i by ring] at hnext
        exact hnext
      simp only [crc32Words, hfirst, ih _ _ hrest]

/-- Two buffers of one length with the same full words, and the same bytes within the length in
the word after these, have the same checksum. -/
theorem crc32Posix_congr {load load' : ℕ → Option Word} {p q len : ℕ} (clear : Bool) (s : S)
    (hwords : ∀ i < len / 4, load (p + 4 * i) = load' (q + 4 * i))
    (htail : len % 4 ≠ 0 → ∃ w w', load (p + 4 * (len / 4)) = some w ∧
      load' (q + 4 * (len / 4)) = some w' ∧
      w &&& lowMask (len % 4) = w' &&& lowMask (len % 4)) :
    crc32Posix u load p len clear s = crc32Posix u load' q len clear s := by
  have hlast : ∀ (mask : Word) (right down : ℕ) (t : S) (crcReg : Word), len % 4 ≠ 0 →
      mask = lowMask (len % 4) →
      crc32Tail u load (p + 4 * (len / 4)) mask right down t crcReg
        = crc32Tail u load' (q + 4 * (len / 4)) mask right down t crcReg := by
    intro mask right down t crcReg hrest hmask
    obtain ⟨w, w', hw, hw', heq⟩ := htail hrest
    simp only [crc32Tail, hw, hw', hmask, Option.bind_eq_bind, Option.bind_some, heq]
  have hlt : len % 4 < 4 := Nat.mod_lt _ (by norm_num)
  have hhead : ∀ t, crc32Head u load p len t = crc32Head u load' q len t := by
    intro t
    rw [crc32Head, crc32Head, crc32Words_congr u _ _ hwords]
  unfold crc32Posix
  rw [hhead]
  congr 1
  funext r
  obtain ⟨t, crcReg⟩ := r
  obtain h | h | h | h : len % 4 = 0 ∨ len % 4 = 1 ∨ len % 4 = 2 ∨ len % 4 = 3 := by omega
  · simp only [h]
  · simp only [h]
    exact hlast _ _ _ _ _ (by omega) (by rw [h]; rfl)
  · simp only [h]
    exact hlast _ _ _ _ _ (by omega) (by rw [h]; rfl)
  · simp only [h]
    exact hlast _ _ _ _ _ (by omega) (by rw [h]; rfl)

/-- The full words are enough for the loop not to fault. -/
lemma isSome_crc32Words {load : ℕ → Option Word} {n p : ℕ} (s : S) (crcReg : Word)
    (h : ∀ i < n, (load (p + 4 * i)).isSome) : (crc32Words u load n p s crcReg).isSome := by
  induction n generalizing p s crcReg with
  | zero => rfl
  | succ n ih =>
      obtain ⟨w, hw⟩ := Option.isSome_iff_exists.mp (h 0 n.succ_pos)
      rw [Nat.mul_zero, Nat.add_zero] at hw
      have hrest : ∀ i < n, (load (p + 4 + 4 * i)).isSome := by
        intro i hi
        have hnext := h (i + 1) (by omega)
        rw [show p + 4 * (i + 1) = p + 4 + 4 * i by ring] at hnext
        exact hnext
      simp only [crc32Words, hw, Option.bind_eq_bind, Option.bind_some]
      exact ih _ _ hrest

/-- The checksum faults only where one of its words does. -/
theorem isSome_crc32Posix {load : ℕ → Option Word} {p len : ℕ} (clear : Bool) (s : S)
    (hwords : ∀ i < len / 4, (load (p + 4 * i)).isSome)
    (htail : len % 4 ≠ 0 → (load (p + 4 * (len / 4))).isSome) :
    (crc32Posix u load p len clear s).isSome := by
  have hlast : ∀ (mask : Word) (right down : ℕ) (t : S) (crcReg : Word), len % 4 ≠ 0 →
      (crc32Tail u load (p + 4 * (len / 4)) mask right down t crcReg).isSome := by
    intro mask right down t crcReg hrest
    obtain ⟨w, hw⟩ := Option.isSome_iff_exists.mp (htail hrest)
    simp only [crc32Tail, hw, Option.bind_eq_bind, Option.bind_some, Option.isSome_some]
  have hhead : ∀ t, ∃ r, crc32Head u load p len t = some r := by
    intro t
    rw [← Option.isSome_iff_exists]
    unfold crc32Head
    split_ifs
    · exact isSome_crc32Words u _ _ hwords
    · rfl
  obtain ⟨⟨t, crcReg⟩, hr⟩ := hhead (if clear then u.reset else s)
  simp only [crc32Posix, hr, Option.bind_eq_bind, Option.bind_some]
  have hlt : len % 4 < 4 := Nat.mod_lt _ (by norm_num)
  obtain h | h | h | h : len % 4 = 0 ∨ len % 4 = 1 ∨ len % 4 = 2 ∨ len % 4 = 3 := by omega
  · simp only [h, Option.isSome_some]
  · simp only [h]
    exact hlast _ _ _ _ _ (by omega)
  · simp only [h]
    exact hlast _ _ _ _ _ (by omega)
  · simp only [h]
    exact hlast _ _ _ _ _ (by omega)

/-- The loop faults where one of the full words does. -/
lemma crc32Words_eq_none {load : ℕ → Option Word} {n p i : ℕ} (s : S) (crcReg : Word) (hi : i < n)
    (h : load (p + 4 * i) = none) : crc32Words u load n p s crcReg = none := by
  induction n generalizing p i s crcReg with
  | zero => exact absurd hi (Nat.not_lt_zero i)
  | succ n ih =>
      cases hw : load p with
      | none => simp only [crc32Words, hw, Option.bind_eq_bind, Option.bind_none]
      | some w =>
          obtain _ | i := i
          · rw [Nat.mul_zero, Nat.add_zero, hw] at h
            exact absurd h (Option.some_ne_none w)
          · rw [show p + 4 * (i + 1) = p + 4 + 4 * i by ring] at h
            simp only [crc32Words, hw, Option.bind_eq_bind, Option.bind_some]
            exact ih _ _ (by omega) h

/-- The checksum faults where one of its words does. -/
theorem crc32Posix_eq_none {load : ℕ → Option Word} {p len i : ℕ} (clear : Bool) (s : S)
    (hi : 4 * i < len) (h : load (p + 4 * i) = none) : crc32Posix u load p len clear s = none := by
  by_cases hfull : i < len / 4
  · have hhead : ∀ t, crc32Head u load p len t = none := by
      intro t
      rw [crc32Head, if_pos (by omega)]
      exact crc32Words_eq_none u t 0 hfull h
    simp only [crc32Posix, hhead, Option.bind_eq_bind, Option.bind_none]
  · obtain rfl : i = len / 4 := by omega
    have htail : ∀ (mask : Word) (right down : ℕ) (t : S) (crcReg : Word),
        crc32Tail u load (p + 4 * (len / 4)) mask right down t crcReg = none := by
      intro mask right down t crcReg
      simp only [crc32Tail, h, Option.bind_eq_bind, Option.bind_none]
    unfold crc32Posix
    cases crc32Head u load p len (if clear then u.reset else s) with
    | none => rfl
    | some r =>
        obtain ⟨t, crcReg⟩ := r
        rw [Option.bind_eq_bind, Option.bind_some]
        obtain hr | hr | hr : len % 4 = 1 ∨ len % 4 = 2 ∨ len % 4 = 3 := by omega
        all_goals
          rw [hr]
          exact htail _ _ _ _ _

end Crc

end PanelFirmware.Hal
