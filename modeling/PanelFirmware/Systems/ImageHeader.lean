import PanelFirmware.Hal.Crc32

/-!
# `systems/memory.ld`, `systems/include/imageheader.h`: regions and image header

The flash holds the boot loader, the main region with the firmware that runs, and the storage
region that receives an upgrade. Both regions begin with an image header.
-/

namespace PanelFirmware.Systems

open PanelFirmware.Lib PanelFirmware.Hal

/-- Source: `memory.ld` `_main_flash_start`; `imageheader.h` `getImageStartAddress`. -/
def imageStartAddress : ℕ := 0x08020000

/-- Source: `memory.ld` `_main_flash_size`; `imageheader.h` `getImageSize`. -/
def imageSize : ℕ := 384 * 1024

/-- Source: `memory.ld` `_fwstorage_flash_start`; `imageheader.h` `getStorageStartAddress`. -/
def storageStartAddress : ℕ := 0x08080000

/-- Source: `memory.ld` `_fwstorage_flash_size`; `imageheader.h` `getStorageSize`. -/
def storageSize : ℕ := 384 * 1024

/-- Source: `imageheader.h` `getHeaderMagic`. -/
def headerMagic : Word := 0x38272585

/-- Source: `imageheader.h` `imageHeader_t`. -/
structure ImageHeader where
  valueCRC : Word
  size : Word
  magic : Word
  versionMajor : Word
  versionMinor : Word
  versionPach : Word
  exeOffset : Word

/-- The header an image begins with. -/
def header (f : Flash) (addr : ℕ) : ImageHeader where
  valueCRC := f.word addr
  size := f.word (addr + 4)
  magic := f.word (addr + 8)
  versionMajor := f.word (addr + 12)
  versionMinor := f.word (addr + 16)
  versionPach := f.word (addr + 20)
  exeOffset := f.word (addr + 24)

/-- `sizeof(imageHeader_t)`. -/
def headerSize : ℕ := 28

/-- Two flashes hold the same `n` bytes, one from `a` and the other from `b` on. -/
def SameBytes (f : Flash) (a : ℕ) (g : Flash) (b n : ℕ) : Prop := ∀ i < n, f (a + i) = g (b + i)

/-- Stretches of bytes that are the same are the same. -/
lemma SameBytes.bytes {f g : Flash} {a b n : ℕ} (h : SameBytes f a g b n) {k m : ℕ}
    (hk : k + m ≤ n) : f.bytes (a + k) m = g.bytes (b + k) m := by
  refine List.map_congr_left fun i hi => ?_
  have hlt := List.mem_range.mp hi
  rw [Nat.add_assoc, Nat.add_assoc]
  exact h (k + i) (by omega)

/-- A word within bytes that are the same is the same. -/
lemma SameBytes.word {f g : Flash} {a b n : ℕ} (h : SameBytes f a g b n) {k : ℕ}
    (hk : k + 4 ≤ n) : f.word (a + k) = g.word (b + k) := by
  rw [Flash.word, Flash.word, h.bytes hk]

/-- The low bytes of a word are the first bytes at its address. -/
lemma toNat_word_and_lowMask (f : Flash) (a : ℕ) {r : ℕ} (hr : r ≤ 4) :
    (f.word a &&& lowMask r).toNat = ofBytesLE (f.bytes a r) := by
  have hpow : 256 ^ r = 2 ^ (8 * r) := by rw [pow_mul]; norm_num
  have hle : 2 ^ (8 * r) ≤ 2 ^ 32 := Nat.pow_le_pow_right (by norm_num) (by omega)
  have hmask : (lowMask r).toNat = 2 ^ (8 * r) - 1 := by
    have hpos : 0 < 2 ^ (8 * r) := Nat.two_pow_pos _
    rw [lowMask, BitVec.toNat_ofNat, Nat.mod_eq_of_lt (by omega)]
  have hbound : ofBytesLE (f.bytes a 4) < 2 ^ 32 := by
    have hlt := ofBytesLE_lt (f.bytes a 4)
    rw [Flash.bytes, List.length_map, List.length_range] at hlt
    rw [Flash.bytes]
    omega
  have htake : (f.bytes a 4).take r = f.bytes a r := by
    rw [Flash.bytes, Flash.bytes, ← List.map_take, List.take_range, Nat.min_eq_left hr]
  rw [BitVec.toNat_and, hmask, Nat.and_two_pow_sub_one_eq_mod, Flash.word, BitVec.toNat_ofNat,
    Nat.mod_eq_of_lt hbound, ← hpow, ofBytesLE_mod, htake]

/-- The bytes of a word within bytes that are the same are the same. -/
lemma SameBytes.word_and_lowMask {f g : Flash} {a b n : ℕ} (h : SameBytes f a g b n) {k r : ℕ}
    (hk : k + r ≤ n) (hr : r ≤ 4) :
    f.word (a + k) &&& lowMask r = g.word (b + k) &&& lowMask r := by
  apply BitVec.eq_of_toNat_eq
  rw [toNat_word_and_lowMask _ _ hr, toNat_word_and_lowMask _ _ hr, h.bytes hk]

/-- A word inside the flash is read without a fault. -/
lemma load_eq (f : Flash) {a : ℕ} (h0 : 0x08000000 ≤ a) (h1 : a + 4 ≤ 0x08100000) :
    f.load a = some (f.word a) :=
  if_pos ⟨h0, h1⟩

end PanelFirmware.Systems
