import PanelFirmware.Boot.Program
import PanelFirmware.Lib.ForwardCrc

/-!
# The check of an image is the build tool's checksum

The build computes the reflected CRC-32 of the image with its checksum and size fields zeroed.
The boot loader computes it with the controller's unit, which shifts the other way and takes whole
words: it reverses the bits of every word, and adds the last one to three bytes by hand.

* `crc32Words_stm32Crc`: the unit after some words, reversed, is the reflected register after
  their bytes.
* `crc32Posix_stm32Crc`: the checksum returned for a buffer of any length.
* `checkProgram_iff_crc32`: the check of an image.
-/

namespace PanelFirmware.Boot

open PanelFirmware.Lib PanelFirmware.Hal PanelFirmware.Systems

/-- The polynomial of the CRC-32, reflected. -/
def crc32Poly : Word := (0x04C11DB7 : Word).reverse

/-- The CRC-32 of a buffer: reflected, initial value and final exclusive or all ones.
Source: `CMakeLists.txt`, the command `crc32`; `crc32.h`, the table of the algorithm. -/
def crc32 (bs : List Byte) : Word := ~~~ byteSteps crc32Poly 0xFFFFFFFF bs

/-- The check value of the algorithm. -/
example : crc32 [0x31, 0x32, 0x33, 0x34, 0x35, 0x36, 0x37, 0x38, 0x39] = 0xCBF43926 := by
  decide +kernel

/-- The image of `n` bytes at an address as the build saw it: the checksum and the size, the first
eight bytes, are zero. Source: `link.sh`, `CALC_CRC` and `IMAGE_SIZE`. -/
def builtImage (f : Flash) (addr n : ℕ) : List Byte :=
  List.replicate 8 0 ++ f.bytes (addr + 8) (n - 8)

/-! ### Words -/

/-- The length of a stretch of the flash. -/
lemma length_bytes (f : Flash) (a n : ℕ) : (f.bytes a n).length = n := by
  rw [Flash.bytes, List.length_map, List.length_range]

/-- A stretch of the flash splits anywhere. -/
lemma bytes_add (f : Flash) (a m n : ℕ) : f.bytes a (m + n) = f.bytes a m ++ f.bytes (a + m) n := by
  unfold Flash.bytes
  rw [List.range_add, List.map_append, List.map_map]
  simp only [Function.comp_def, Nat.add_assoc]

/-- The bytes of a word. -/
lemma toBytesLE_word (f : Flash) (a : ℕ) : toBytesLE 4 (f.word a).toNat = f.bytes a 4 := by
  have hlen := length_bytes f a 4
  have hlt := ofBytesLE_lt (f.bytes a 4)
  have hback := toBytesLE_ofBytesLE (f.bytes a 4)
  rw [hlen] at hlt hback
  rw [Flash.word, BitVec.toNat_ofNat, Nat.mod_eq_of_lt (by omega), hback]

/-- A word into the unit. -/
lemma reverse_write_word (f : Flash) (a : ℕ) (s : Word) :
    (stm32Crc.write s (f.word a).reverse).reverse
      = byteSteps crc32Poly s.reverse (f.bytes a 4) := by
  have hword := reverse_forwardSteps_word (0x04C11DB7 : Word) (k := 4) rfl s (f.word a)
  rw [toBytesLE_word] at hword
  exact hword

/-- **Full words.** The unit after some words of the flash, reversed, is the reflected register
after their bytes; `crc_reg` is the unit. -/
theorem crc32Words_stm32Crc {load : ℕ → Option Word} {f : Flash} {n p : ℕ} (s crcReg : Word)
    (h : ∀ i < n, load (p + 4 * i) = some (f.word (p + 4 * i))) :
    ∃ t, crc32Words stm32Crc load n p s crcReg = some (t, if n = 0 then crcReg else t) ∧
      t.reverse = byteSteps crc32Poly s.reverse (f.bytes p (4 * n)) := by
  induction n generalizing p s crcReg with
  | zero => exact ⟨s, rfl, rfl⟩
  | succ n ih =>
      have hfirst := h 0 n.succ_pos
      rw [Nat.mul_zero, Nat.add_zero] at hfirst
      have hrest : ∀ i < n, load (p + 4 + 4 * i) = some (f.word (p + 4 + 4 * i)) := by
        intro i hi
        have hnext := h (i + 1) (by omega)
        rwa [show p + 4 * (i + 1) = p + 4 + 4 * i by ring] at hnext
      obtain ⟨t, ht, hrev⟩ := ih (stm32Crc.write s (f.word p).reverse)
        (stm32Crc.read (stm32Crc.write s (f.word p).reverse)) hrest
      refine ⟨t, ?_, ?_⟩
      · simp only [crc32Words, hfirst, Option.bind_eq_bind, Option.bind_some, crc32CalcCRC, ht]
        rw [if_neg n.succ_ne_zero]
        split_ifs with hn
        · subst hn
          simp only [crc32Words, Option.some.injEq, Prod.mk.injEq] at ht
          rw [← ht.1]
          rfl
        · rfl
      · rw [hrev, reverse_write_word, ← byteSteps_append, ← bytes_add,
          show 4 + 4 * n = 4 * (n + 1) by ring]

/-! ### The rest -/

/-- The low bytes of a word, as bits. -/
lemma lowBits_word_and_lowMask (f : Flash) (a : ℕ) {r : ℕ} (hr : r ≤ 4) :
    lowBits (8 * r) (f.word a &&& lowMask r) = bytesBits (f.bytes a r) := by
  have hback := toBytesLE_ofBytesLE (f.bytes a r)
  rw [length_bytes] at hback
  rw [← bytesBits_toBytesLE, toNat_word_and_lowMask f a hr, hback]

/-- The low bytes of a word leave nothing above them. -/
lemma word_and_lowMask_ushiftRight (f : Flash) (a : ℕ) {r : ℕ} (hr : r ≤ 4) :
    (f.word a &&& lowMask r) >>> (8 * r) = 0 := by
  have hlt := ofBytesLE_lt (f.bytes a r)
  rw [length_bytes, show 256 ^ r = 2 ^ (8 * r) by rw [pow_mul]; norm_num] at hlt
  apply BitVec.eq_of_toNat_eq
  rw [BitVec.toNat_ushiftRight, toNat_word_and_lowMask f a hr, Nat.shiftRight_eq_div_pow,
    Nat.div_eq_of_lt hlt]
  rfl

/-- **The last bytes.** With one to three bytes left, the checksum returned is the reflected
register after these bytes. -/
theorem crc32Tail_stm32Crc {load : ℕ → Option Word} {f : Flash} {p r : ℕ} (hr : r ≤ 4)
    (h : load p = some (f.word p)) (s : Word) :
    ∃ t, crc32Tail stm32Crc load p (lowMask r) (32 - 8 * r) (8 * r) s s
      = some (t, ~~~ byteSteps crc32Poly s.reverse (f.bytes p r)) := by
  have hclear : stm32Crc.write s s = 0 := by
    change stm32CrcShift^[32] (s ^^^ s) = 0
    rw [BitVec.xor_self]
    decide +kernel
  have htail := reverse_forwardSteps_tail (0x04C11DB7 : Word) (n := 8 * r) (by omega) s.reverse
    (f.word p &&& lowMask r) (word_and_lowMask_ushiftRight f p hr)
  rw [lowBits_word_and_lowMask f p hr, ← byteSteps_eq_bitSteps] at htail
  have hunit : ∀ x : Word, stm32Crc.write 0 x = (forwardStep (0x04C11DB7 : Word))^[32] x := by
    intro x
    change stm32CrcShift^[32] (0#32 ^^^ x) = _
    rw [BitVec.zero_xor]
    rfl
  unfold crc32Tail crc32CalcCRC
  rw [h]
  simp only [Option.bind_eq_bind, Option.bind_some, hclear, hunit]
  exact ⟨_, congrArg (fun c => some (_, ~~~ c)) htail⟩

/-- **The checksum** of a buffer of at least a word: the register after its bytes, complemented,
and, when only full words were fed, the unit reversed is that register. -/
theorem crc32Posix_stm32Crc {load : ℕ → Option Word} {f : Flash} {p len : ℕ} (clear : Bool)
    (s : Word) (hlen : 4 ≤ len)
    (h : ∀ i, 4 * i < len → load (p + 4 * i) = some (f.word (p + 4 * i))) :
    ∃ t, crc32Posix stm32Crc load p len clear s = some (t, ~~~ byteSteps crc32Poly
        (if clear then stm32Crc.reset else s).reverse (f.bytes p len)) ∧
      (len % 4 = 0 → t.reverse = byteSteps crc32Poly
        (if clear then stm32Crc.reset else s).reverse (f.bytes p len)) := by
  obtain ⟨t, hwords, hrev⟩ := crc32Words_stm32Crc (if clear then stm32Crc.reset else s) 0
    (n := len / 4) (fun i hi => h i (by omega))
  have hhead : crc32Head stm32Crc load p len (if clear then stm32Crc.reset else s)
      = some (t, t) := by
    rw [crc32Head, if_pos hlen, hwords, if_neg (by omega)]
  have hsplit : f.bytes p len = f.bytes p (4 * (len / 4)) ++ f.bytes (p + 4 * (len / 4)) (len % 4)
      := by
    rw [← bytes_add, Nat.div_add_mod]
  have hlt : len % 4 < 4 := Nat.mod_lt _ (by norm_num)
  unfold crc32Posix
  rw [hhead, hsplit, byteSteps_append, ← hrev]
  simp only [Option.bind_eq_bind, Option.bind_some]
  have htail : len % 4 ≠ 0 → ∃ t', crc32Tail stm32Crc load (p + 4 * (len / 4)) (lowMask (len % 4))
      (32 - 8 * (len % 4)) (8 * (len % 4)) t t = some (t', ~~~ byteSteps crc32Poly t.reverse
        (f.bytes (p + 4 * (len / 4)) (len % 4))) :=
    fun hrest => crc32Tail_stm32Crc hlt.le (h _ (by omega)) t
  obtain hr | hr | hr | hr : len % 4 = 0 ∨ len % 4 = 1 ∨ len % 4 = 2 ∨ len % 4 = 3 := by omega
  · rw [hr]
    exact ⟨t, rfl, fun _ => rfl⟩
  all_goals
    rw [hr] at htail ⊢
    obtain ⟨t', ht'⟩ := htail (by decide)
    exact ⟨t', ht', fun hzero => absurd hzero (by decide)⟩

/-! ### The check -/

/-- The eight zero bytes fed in the place of the checksum and the size. -/
lemma crc32Posix_zeros (s : Word) :
    ∃ t, crc32Posix stm32Crc (bufferLoad (List.replicate 8 0)) 0 8 true s
        = some (t, ~~~ t.reverse) ∧
      t.reverse = byteSteps crc32Poly 0xFFFFFFFF (List.replicate 8 0) := by
  have hzeros : Flash.bytes (fun _ => 0) 0 8 = List.replicate 8 0 := by decide
  have hreset : stm32Crc.reset.reverse = 0xFFFFFFFF := by decide +kernel
  have hload : ∀ i, 4 * i < 8 → bufferLoad (List.replicate 8 0) (0 + 4 * i)
      = some (Flash.word (fun _ => 0) (0 + 4 * i)) := by
    intro i hi
    obtain rfl | rfl : i = 0 ∨ i = 1 := by omega
    · decide
    · decide
  obtain ⟨t, hrun, hrev⟩ := crc32Posix_stm32Crc true s (by decide) hload
  have hstate := hrev (by decide)
  rw [if_pos rfl, hreset, hzeros] at hrun hstate
  refine ⟨t, ?_, hstate⟩
  rw [hstate]
  exact hrun

/-- **The check is the build's checksum.** For an image with the magic whose size covers the first
twelve bytes and fits its region, the check succeeds exactly if the checksum in the header is the
CRC-32 of the image with its first eight bytes zero, whatever the size leaves over a word. -/
theorem checkProgram_iff_crc32 (f : Flash) {addr : ℕ} (haddr : Inside addr)
    (hmagic : (header f addr).magic = headerMagic) (hmin : 12 ≤ (header f addr).size.toNat)
    (hmax : (header f addr).size.toNat ≤ imageSize) :
    checkProgram stm32Crc f.load addr = some true ↔
      (header f addr).valueCRC = crc32 (builtImage f addr (header f addr).size.toNat) := by
  have hreads := reads_load f haddr
  have hm : f.load (addr + 8) = some (header f addr).magic := hreads 8 (by decide)
  have hz : f.load (addr + 4) = some (header f addr).size := hreads 4 (by decide)
  have hv : f.load addr = some (header f addr).valueCRC := hreads 0 (by decide)
  obtain ⟨s, hzeros, hstate⟩ := crc32Posix_zeros stm32Crc.reset
  have hload : ∀ i, 4 * i < (header f addr).size.toNat - 8 →
      f.load (addr + 8 + 4 * i) = some (f.word (addr + 8 + 4 * i)) := by
    intro i hi
    unfold imageSize at hmax
    rw [Nat.add_assoc]
    exact hreads _ (by unfold imageSize; omega)
  obtain ⟨t, hrun, -⟩ := crc32Posix_stm32Crc false s (by omega) hload
  rw [if_neg (by decide), hstate, ← byteSteps_append] at hrun
  have hlen : ((header f addr).size - (4 + 4 : ℕ)).toNat = (header f addr).size.toNat - 8 :=
    toNat_size_sub (by omega)
  have hzero : ¬ (header f addr).size.toNat = 0 := by omega
  unfold checkProgram
  rw [hm, hz, hv]
  simp only [Option.bind_eq_bind, Option.bind_some, hlen, hmagic, ne_eq, not_true_eq_false,
    if_false, if_neg hzero, Nat.reduceAdd, hzeros, hrun, Option.some.injEq, beq_iff_eq]
  rfl

/-- A flash with an image of 30 bytes in the storage region. -/
def oddImage : Flash := fun x =>
  if x < storageStartAddress then 0xFF
  else ([0, 0, 0, 0, 30, 0, 0, 0, 0x85, 0x25, 0x27, 0x38, 1, 0, 0, 0, 2, 0, 0, 0,
    3, 0, 0, 0, 0, 4, 0, 0, 0xAA, 0x55] : List Byte).getD (x - storageStartAddress) 0xFF

/-- An image that ends within a word. -/
theorem oddImage_check :
    checkProgram stm32Crc oddImage.load storageStartAddress = some true ↔
      (header oddImage storageStartAddress).valueCRC = crc32 (builtImage oddImage
        storageStartAddress (header oddImage storageStartAddress).size.toNat) :=
  checkProgram_iff_crc32 oddImage inside_storage (by decide +kernel) (by decide +kernel)
    (by decide +kernel)

end PanelFirmware.Boot
