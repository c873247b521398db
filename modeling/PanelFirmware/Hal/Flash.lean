import PanelFirmware.Lib.Bytes
import PanelFirmware.Lib.CrashHoare

/-!
# `hal/src/flash.c`: the flash and its two atomic steps

The flash is a function from addresses to bytes. It changes in two ways only: a sector erase sets
a whole sector to `0xFF`, and a byte program clears bits of one byte. `flash_erasePage` is one
erase, `flash_write` one program after the other, each reading its source byte at its own time.

* `selectedSector_iff`: a page erase selects the sector its address lies in.
* `wp_flashWrite`, `wp_erasePages`: the stores a write and a run of page erases pass through are
  the ones with a first part programmed (`programmed`) and erased (`erased`).
-/

namespace PanelFirmware.Hal

open PanelFirmware.Lib

/-- The contents of the flash, by address. -/
abbrev Flash : Type := ℕ → Byte

/-- Source: `flash.h` `FLASH_PAGE_SIZE`. -/
def flashPageSize : ℕ := 1024 * 128

/-- The sector an address of the flash is taken to lie in.
Source: `flash.c` `flash_erasePage`. -/
def sectorNumber (addr : ℕ) : ℕ :=
  if addr ≤ 0x0800FFFF then (addr - 0x08000000) / (16 * 1024)
  else if addr ≥ 0x08010000 ∧ addr ≤ 0x0801FFFF then 4
  else 5 + (addr - 0x08020000) / (128 * 1024)

/-- The first address of a sector of the controller: four of 16K, one of 64K, seven of 128K. -/
def sectorStart (n : ℕ) : ℕ :=
  if n < 4 then 0x08000000 + n * (16 * 1024)
  else if n = 4 then 0x08010000
  else 0x08020000 + (n - 5) * (128 * 1024)

/-- The size of a sector of the controller. -/
def sectorSize (n : ℕ) : ℕ :=
  if n < 4 then 16 * 1024 else if n = 4 then 64 * 1024 else 128 * 1024

/-- The erase of a sector. -/
def eraseSector (n : ℕ) (f : Flash) : Flash := fun x =>
  if sectorStart n ≤ x ∧ x < sectorStart n + sectorSize n then 0xFF else f x

/-- The program of a byte: bits are only cleared. -/
def programByte (a : ℕ) (b : Byte) (f : Flash) : Flash := fun x =>
  if x = a then f x &&& b else f x

/-- Source: `flash.c` `flash_erasePage`. -/
def flashErasePage (address : ℕ) : Prog Flash Unit :=
  Prog.atomic (eraseSector (sectorNumber address))

/-- Where the source pointer of a write leads: into the flash, or to a buffer in RAM. -/
inductive Source
  | flash (a : ℕ)
  | ram (bytes : ℕ → Byte)

/-- The byte `i` places behind the source pointer, read now. -/
def Source.read (f : Flash) (i : ℕ) : Source → Byte
  | flash a => f (a + i)
  | ram bytes => bytes i

/-- The loop runs while `pWr` is below `pEnd`, a 32-bit pointer.
Source: `flash.c` `flash_write`. -/
def flashWrite (dst : ℕ) (src : Source) (num : ℕ) : Prog Flash Unit :=
  let pEnd := (dst + num) % 2 ^ 32
  Prog.forEach (fun i => do
    let f ← Prog.get
    Prog.atomic (programByte (dst + i) (src.read f i))) (List.range (pEnd - dst))

/-- The addresses of the pages from `start` on that begin below `stop`.
Source: `boot.cpp` `main`, `for(p = start; p < stop; p += FLASH_PAGE_SIZE)`. -/
def pageAddresses (start stop : ℕ) : List ℕ :=
  (List.range ((stop - start + (flashPageSize - 1)) / flashPageSize)).map
    fun k => start + flashPageSize * k

/-! ### The sector that is selected -/

/-- The control register when `flash_erasePage` starts the erase: `FLASH_CR_SER`, the sector number
from bit 3 on, and `FLASH_CR_STRT`. Source: `flash.c` `flash_erasePage`; `stm32f412zx.h`. -/
def erasePageCr (addr : ℕ) : ℕ := 0x2 ||| sectorNumber addr <<< 3 ||| 0x10000

/-- The sector the control register selects, its field `SNB`.
Source: `stm32f412zx.h` `FLASH_CR_SNB`. -/
def selectedSector (cr : ℕ) : ℕ := cr >>> 3 &&& 0x1F

/-- The address lies in a sector of the controller. -/
def InSector (n x : ℕ) : Prop := sectorStart n ≤ x ∧ x < sectorStart n + sectorSize n

instance (n x : ℕ) : Decidable (InSector n x) := inferInstanceAs (Decidable (_ ∧ _))

/-- The register field holds the sector number, for every sector there is. -/
lemma selectedSector_of_lt {addr : ℕ} (h : sectorNumber addr < 12) :
    selectedSector (erasePageCr addr) = sectorNumber addr := by
  have hall : ∀ n < 12, (0x2 ||| n <<< 3 ||| 0x10000) >>> 3 &&& 0x1F = n := by decide
  exact hall _ h

/-- **The sector selected is the one the address lies in**, for every address of the flash of one
megabyte, and no other one contains it. -/
theorem selectedSector_iff {addr : ℕ} (h0 : 0x08000000 ≤ addr) (h1 : addr < 0x08100000) :
    selectedSector (erasePageCr addr) < 12 ∧
      ∀ n < 12, InSector n addr ↔ n = selectedSector (erasePageCr addr) := by
  have hlt : sectorNumber addr < 12 := by
    unfold sectorNumber
    split_ifs <;> omega
  rw [selectedSector_of_lt hlt]
  refine ⟨hlt, fun n hn => ?_⟩
  unfold InSector sectorStart sectorSize sectorNumber
  split_ifs <;> omega

/-! ### What the two loops pass through -/

/-- The flash with `n` bytes from `a` on erased. -/
def erased (a n : ℕ) (f : Flash) : Flash := fun x => if a ≤ x ∧ x < a + n then 0xFF else f x

/-- The flash with the first `n` of `bytes` programmed from `a` on. -/
def programmed (a : ℕ) (bytes : ℕ → Byte) (n : ℕ) (f : Flash) : Flash := fun x =>
  if a ≤ x ∧ x < a + n then f x &&& bytes (x - a) else f x

/-- Outside the bytes erased nothing changes. -/
lemma erased_of_outside {a n x : ℕ} (h : x < a ∨ a + n ≤ x) (f : Flash) : erased a n f x = f x :=
  if_neg (by omega)

/-- An erased byte is `0xFF`. -/
lemma erased_of_inside {a n x : ℕ} (h0 : a ≤ x) (h1 : x < a + n) (f : Flash) :
    erased a n f x = 0xFF :=
  if_pos ⟨h0, h1⟩

/-- Outside the bytes programmed nothing changes. -/
lemma programmed_of_outside {a n x : ℕ} (h : x < a ∨ a + n ≤ x) (bytes : ℕ → Byte) (f : Flash) :
    programmed a bytes n f x = f x :=
  if_neg (by omega)

/-- A byte programmed over an erased one is the byte. -/
lemma programmed_of_inside {a n x : ℕ} (h0 : a ≤ x) (h1 : x < a + n) (bytes : ℕ → Byte)
    {f : Flash} (hf : f x = 0xFF) : programmed a bytes n f x = bytes (x - a) := by
  rw [programmed, if_pos ⟨h0, h1⟩, hf]
  exact BitVec.allOnes_and

/-- Programming one byte more. -/
lemma programByte_programmed (a : ℕ) (bytes : ℕ → Byte) (n : ℕ) (f : Flash) :
    programByte (a + n) (bytes n) (programmed a bytes n f) = programmed a bytes (n + 1) f := by
  funext x
  unfold programByte programmed
  by_cases hx : x = a + n
  · rw [if_pos hx, if_neg (by omega), if_pos (by omega), hx, Nat.add_sub_cancel_left]
  · rw [if_neg hx]
    by_cases hin : a ≤ x ∧ x < a + n
    · rw [if_pos hin, if_pos (by omega)]
    · rw [if_neg hin, if_neg (by omega)]

/-- The sectors from the fifth on are 128K pages. -/
lemma sector_page (n : ℕ) :
    sectorStart (5 + n) = 0x08020000 + flashPageSize * n ∧ sectorSize (5 + n) = flashPageSize := by
  unfold sectorStart sectorSize flashPageSize
  rw [if_neg (by omega), if_neg (by omega), if_neg (by omega), if_neg (by omega)]
  exact ⟨by omega, rfl⟩

/-- Erasing a sector of 128K that follows an erased stretch. -/
lemma eraseSector_erased {a k : ℕ} (ha : 0x08020000 ≤ a)
    (hpage : flashPageSize ∣ a - 0x08020000) (f : Flash) :
    eraseSector (sectorNumber (a + flashPageSize * k)) (erased a (flashPageSize * k) f)
      = erased a (flashPageSize * (k + 1)) f := by
  obtain ⟨j, hj⟩ := hpage
  have hsector : sectorNumber (a + flashPageSize * k) = 5 + (j + k) := by
    unfold sectorNumber flashPageSize at *
    rw [if_neg (by omega), if_neg (by omega)]
    omega
  obtain ⟨hstart, hsize⟩ := sector_page (j + k)
  have hfirst : 0x08020000 + flashPageSize * (j + k) = a + flashPageSize * k := by
    rw [Nat.mul_add]
    omega
  funext x
  rw [hsector]
  unfold eraseSector erased
  rw [hstart, hsize, hfirst, Nat.mul_add_one]
  by_cases hnew : a + flashPageSize * k ≤ x ∧ x < a + flashPageSize * k + flashPageSize
  · rw [if_pos hnew, if_pos (by omega)]
  · rw [if_neg hnew]
    by_cases hold : a ≤ x ∧ x < a + flashPageSize * k
    · rw [if_pos hold, if_pos (by omega)]
    · rw [if_neg hold, if_neg (by omega)]

/-- **A write.** If the source reads `bytes` however far the write has come, the write passes
through the stores with a first part of `bytes` programmed. -/
theorem wp_flashWrite {dst num : ℕ} {src : Source} (bytes : ℕ → Byte) {f : Flash}
    {C : Flash → Prop} {Q : Unit → Flash → Prop} (hend : dst + num < 2 ^ 32)
    (hsrc : ∀ i < num, src.read (programmed dst bytes i f) i = bytes i)
    (hC : ∀ n, 0 < n → n ≤ num → C (programmed dst bytes n f))
    (hQ : Q () (programmed dst bytes num f)) : Prog.wp (flashWrite dst src num) C Q f := by
  have hcount : (dst + num) % 2 ^ 32 - dst = num := by
    rw [Nat.mod_eq_of_lt hend, Nat.add_sub_cancel_left]
  have hzero : programmed dst bytes 0 f = f := by
    funext x
    exact programmed_of_outside (by omega) bytes f
  simp only [flashWrite, hcount]
  refine Prog.wp_mono (Prog.wp_forEach (fun n t => n ≤ num → t = programmed dst bytes n f) ?_
    (fun _ => hzero.symm)) (fun _ h => h) fun _ t ht => ?_
  · intro n i hi t ht
    obtain ⟨hn, rfl⟩ : n < num ∧ n = i := by
      rw [List.getElem?_eq_some_iff] at hi
      obtain ⟨hlt, heq⟩ := hi
      rw [List.getElem_range] at heq
      exact ⟨by simpa using hlt, heq⟩
    have hnext := programByte_programmed dst bytes n f
    rw [ht hn.le, Prog.wp_bind, Prog.wp_get, Prog.wp_atomic, hsrc n hn, hnext]
    exact ⟨hC (n + 1) n.succ_pos hn, fun _ => rfl⟩
  · rw [ht (by simp), List.length_range]
    exact hQ

/-- **Page erases.** The erases of the 128K pages from `start` to `stop` pass through the stores
with a first part erased. -/
theorem wp_erasePages {start : ℕ} (pages : ℕ) {f : Flash} {C : Flash → Prop}
    {Q : Unit → Flash → Prop}
    (hstart : 0x08020000 ≤ start) (hpage : flashPageSize ∣ start - 0x08020000)
    (hC : ∀ k, 0 < k → k ≤ pages → C (erased start (flashPageSize * k) f))
    (hQ : Q () (erased start (flashPageSize * pages) f)) :
    Prog.wp (Prog.forEach flashErasePage (pageAddresses start (start + flashPageSize * pages)))
      C Q f := by
  have hcount : (start + flashPageSize * pages - start + (flashPageSize - 1)) / flashPageSize
      = pages := by
    unfold flashPageSize
    omega
  have hzero : erased start 0 f = f := by
    funext x
    exact erased_of_outside (by omega) f
  unfold pageAddresses
  rw [hcount]
  refine Prog.wp_mono (Prog.wp_forEach
    (fun k t => k ≤ pages → t = erased start (flashPageSize * k) f) ?_
    (fun _ => by rw [Nat.mul_zero, hzero])) (fun _ h => h) fun _ t ht => ?_
  · intro k a ha t ht
    obtain ⟨hk, rfl⟩ : k < pages ∧ start + flashPageSize * k = a := by
      rw [List.getElem?_map, Option.map_eq_some_iff] at ha
      obtain ⟨i, hi, rfl⟩ := ha
      rw [List.getElem?_eq_some_iff] at hi
      obtain ⟨hlt, heq⟩ := hi
      rw [List.getElem_range] at heq
      exact ⟨by simpa using hlt, by rw [heq]⟩
    unfold flashErasePage
    rw [Prog.wp_atomic, ht hk.le, eraseSector_erased hstart hpage]
    exact ⟨hC (k + 1) k.succ_pos hk, fun _ => rfl⟩
  · rw [ht (by simp), List.length_map, List.length_range]
    exact hQ

end PanelFirmware.Hal
