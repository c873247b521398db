import PanelFirmware.Systems.ImageHeader

/-!
# `boot.cpp`: the boot loader

`main` copies a valid image from the storage region over the main region when the two differ,
erases the storage once the copy checks out, and starts the main image. It runs on the flash as a
`Prog`, so that power may be lost at every erase and every programmed byte.

* `checkProgram_congr`: two regions that agree on the bytes of one image agree on the check.
* `exists_checkProgram`: the check of a header that can be checked reads inside the region.
-/

namespace PanelFirmware.Boot

open PanelFirmware.Lib PanelFirmware.Hal PanelFirmware.Systems

section CheckProgram

variable {S : Type} (u : CrcUnit S)

/-- Whether the image at `addr` has the magic, a size and the checksum; `none` where a read
faults. The length handed to the checksum is a `size_t`.
Source: `boot.cpp` `checkProgram`. -/
def checkProgram (load : ℕ → Option Word) (addr : ℕ) : Option Bool := do
  let magic ← load (addr + 8)
  if magic ≠ headerMagic then some false
  else do
    let size ← load (addr + 4)
    if size.toNat = 0 then some false
    else do
      let skipbytes := 4 + 4
      let buffer := List.replicate skipbytes 0
      let (s, _) ← crc32Posix u (bufferLoad buffer) 0 skipbytes true u.reset
      let (_, crc) ← crc32Posix u load (addr + skipbytes) (size - skipbytes).toNat false s
      let valueCRC ← load addr
      some (valueCRC == crc)

/-- How `main` ends: at `cm4_executeprogram`, or in the endless loop. -/
inductive Outcome
  | execute (exe : ℕ)
  | hang
  deriving DecidableEq, Repr

/-- Read the check of an image. Source: `boot.cpp` `main`, the calls of `checkProgram`. -/
def check (addr : ℕ) : Prog Flash Bool := do
  let f ← Prog.get
  Prog.ofOption (checkProgram u f.load addr)

/-- Whether the two images differ in a version or in the checksum.
Source: `boot.cpp` `main`, the comparison of the headers. -/
def differ (imageHeader storageImageHeader : ImageHeader) : Bool :=
  imageHeader.versionMajor != storageImageHeader.versionMajor ||
    imageHeader.versionMinor != storageImageHeader.versionMinor ||
    imageHeader.versionPach != storageImageHeader.versionPach ||
    imageHeader.valueCRC != storageImageHeader.valueCRC

/-- Source: `boot.cpp` `main`, the computation of `upgrade`. -/
def upgradeNeeded : Prog Flash Bool := do
  if ← check u storageStartAddress then
    if ← check u imageStartAddress then do
      let f ← Prog.get
      pure (differ (header f imageStartAddress) (header f storageStartAddress))
    else pure true
  else pure false

/-- Source: `boot.cpp` `main`, `if(upgrade)`. -/
def performUpgrade : Prog Flash Unit := do
  Prog.forEach flashErasePage (pageAddresses imageStartAddress storageStartAddress)
  let f ← Prog.get
  flashWrite imageStartAddress (.flash storageStartAddress)
    (header f storageStartAddress).size.toNat
  if ← check u imageStartAddress then
    Prog.forEach flashErasePage
      (pageAddresses storageStartAddress (storageStartAddress + storageSize))
  else pure ()

/-- Source: `boot.cpp` `main`, its end. -/
def start : Prog Flash Outcome := do
  if ← check u imageStartAddress then do
    let f ← Prog.get
    pure (.execute (imageStartAddress + (header f imageStartAddress).exeOffset.toNat))
  else pure .hang

/-- Source: `boot.cpp` `main`. -/
def main : Prog Flash Outcome := do
  if ← upgradeNeeded u then performUpgrade u else pure ()
  start u

end CheckProgram

/-! ### What a check depends on -/

section Lemmas

variable {S : Type} {u : CrcUnit S}

/-- The header of the region at `addr` is sane: if its magic matches, the size it announces is at
least the eight bytes that are skipped and at most the region. -/
def SaneHeader (f : Flash) (addr : ℕ) : Prop :=
  (header f addr).magic = headerMagic →
    8 ≤ (header f addr).size.toNat ∧ (header f addr).size.toNat ≤ imageSize

/-- The flash has room for a main region at `addr`. -/
def Inside (addr : ℕ) : Prop := 0x08000000 ≤ addr ∧ addr + imageSize ≤ 0x08100000

/-- The main region lies inside the flash. -/
lemma inside_image : Inside imageStartAddress := by
  unfold Inside
  decide

/-- So does an image in the storage region. -/
lemma inside_storage : Inside storageStartAddress := by
  unfold Inside
  decide

/-- A check that the magic fails. -/
lemma checkProgram_of_magic {f : Flash} {addr : ℕ} (haddr : Inside addr)
    (hmagic : (header f addr).magic ≠ headerMagic) :
    checkProgram u f.load addr = some false := by
  obtain ⟨h0, h1⟩ := haddr
  unfold imageSize at h1
  unfold checkProgram
  rw [load_eq f (by omega) (by omega)]
  exact if_pos hmagic

/-- The length handed to the checksum. -/
lemma toNat_size_sub {size : Word} (h : 8 ≤ size.toNat) :
    (size - (4 + 4 : ℕ)).toNat = size.toNat - 8 := by
  rw [BitVec.toNat_sub_of_le]
  · rfl
  · rw [BitVec.le_def]
    exact h

/-- Two regions that agree on the bytes of an image agree on its check. -/
theorem checkProgram_congr {f g : Flash} {a b : ℕ} (ha : Inside a) (hb : Inside b)
    (hmin : headerSize ≤ (header g b).size.toNat) (hmax : (header g b).size.toNat ≤ imageSize)
    (h : SameBytes f a g b (header g b).size.toNat) :
    checkProgram u f.load a = checkProgram u g.load b := by
  obtain ⟨ha0, ha1⟩ := ha
  obtain ⟨hb0, hb1⟩ := hb
  generalize hn : (header g b).size.toNat = n at hmin hmax h
  unfold headerSize at hmin
  unfold imageSize at ha1 hb1 hmax
  have hload : ∀ k, k + 4 ≤ n → f.load (a + k) = g.load (b + k) := by
    intro k hk
    rw [load_eq f (by omega) (by omega), load_eq g (by omega) (by omega), h.word hk]
  have hsize : g.load (b + 4) = some (header g b).size := load_eq g (by omega) (by omega)
  have hlen : ((header g b).size - (4 + 4 : ℕ)).toNat = n - 8 := by
    rw [toNat_size_sub (by omega), hn]
  have hcrc : ∀ s, crc32Posix u f.load (a + 8) (n - 8) false s
      = crc32Posix u g.load (b + 8) (n - 8) false s := by
    intro s
    refine crc32Posix_congr u false s (fun i hi => ?_) fun htail => ?_
    · rw [Nat.add_assoc, Nat.add_assoc]
      exact hload _ (by omega)
    · rw [Nat.add_assoc, Nat.add_assoc]
      exact ⟨_, _, load_eq f (by omega) (by omega), load_eq g (by omega) (by omega),
        h.word_and_lowMask (by omega) (by omega)⟩
  have hfirst : f.load a = g.load b := hload 0 (by omega)
  unfold checkProgram
  rw [hload 8 (by omega), hload 4 (by omega), hsize, hfirst]
  simp only [Option.bind_eq_bind, Option.bind_some, hlen, hcrc]

/-- The header of the region at `addr` can be checked: if its magic matches, the size it announces
is zero, or at least the eight bytes that are skipped and at most the region. -/
def HeaderOk (f : Flash) (addr : ℕ) : Prop :=
  (header f addr).magic = headerMagic → (header f addr).size.toNat = 0 ∨
    (8 ≤ (header f addr).size.toNat ∧ (header f addr).size.toNat ≤ imageSize)

/-- Within the region at `addr` the loads read the flash. -/
def Reads (f : Flash) (addr : ℕ) (load : ℕ → Option Word) : Prop :=
  ∀ k, k + 4 ≤ imageSize → load (addr + k) = some (f.word (addr + k))

/-- The loads of the controller read the flash. -/
lemma reads_load (f : Flash) {addr : ℕ} (haddr : Inside addr) : Reads f addr f.load := by
  obtain ⟨h0, h1⟩ := haddr
  intro k hk
  exact load_eq f (by omega) (by omega)

/-- **What a check reads.** The check of a header that can be checked does not fault, and it reads
within the region only: any two loads that read the region lead to the same result. -/
theorem exists_checkProgram {f : Flash} {addr : ℕ} (hok : HeaderOk f addr) :
    ∃ b, ∀ load, Reads f addr load → checkProgram u load addr = some b := by
  by_cases hmagic : (header f addr).magic = headerMagic
  · by_cases hzero : (header f addr).size.toNat = 0
    · refine ⟨false, fun load h => ?_⟩
      have hm : load (addr + 8) = some (header f addr).magic := h 8 (by decide)
      have hz : load (addr + 4) = some (header f addr).size := h 4 (by decide)
      unfold checkProgram
      rw [hm, hz]
      simp only [Option.bind_eq_bind, Option.bind_some, hmagic, ne_eq, not_true_eq_false, if_false,
        if_pos hzero]
    · obtain ⟨hmin, hmax⟩ := (hok hmagic).resolve_left hzero
      unfold imageSize at hmax
      have hlen := toNat_size_sub hmin
      have hbuffer : ∃ r, crc32Posix u (bufferLoad (List.replicate 8 0)) 0 8 true u.reset
          = some r := by
        rw [← Option.isSome_iff_exists]
        refine isSome_crc32Posix u true _ (fun i hi => ?_) fun htail => absurd rfl htail
        rw [bufferLoad, if_pos (by simp; omega)]
        rfl
      obtain ⟨⟨s, c⟩, hs⟩ := hbuffer
      have hcrc : ∃ r, crc32Posix u (fun a => some (f.word a)) (addr + 8)
          ((header f addr).size.toNat - 8) false s = some r := by
        rw [← Option.isSome_iff_exists]
        exact isSome_crc32Posix u false _ (fun _ _ => rfl) fun _ => rfl
      obtain ⟨⟨t, crc⟩, hr⟩ := hcrc
      refine ⟨(header f addr).valueCRC == crc, fun load h => ?_⟩
      have hm : load (addr + 8) = some (header f addr).magic := h 8 (by decide)
      have hz : load (addr + 4) = some (header f addr).size := h 4 (by decide)
      have hv : load addr = some (header f addr).valueCRC := h 0 (by decide)
      have hword : ∀ i, 4 * i < (header f addr).size.toNat - 8 →
          load (addr + 8 + 4 * i) = some (f.word (addr + 8 + 4 * i)) := by
        intro i hi
        rw [Nat.add_assoc]
        exact h _ (by unfold imageSize; omega)
      have hsame : crc32Posix u load (addr + 8) ((header f addr).size.toNat - 8) false s
          = some (t, crc) := by
        rw [← hr]
        refine crc32Posix_congr u false s (fun i hi => hword i (by omega)) fun htail => ?_
        exact ⟨_, _, hword _ (by omega), rfl, rfl⟩
      unfold checkProgram
      rw [hm, hz, hv]
      simp only [Option.bind_eq_bind, Option.bind_some, hlen, hmagic, ne_eq, not_true_eq_false,
        if_false, if_neg hzero, Nat.reduceAdd, hs, hsame]
  · refine ⟨false, fun load h => ?_⟩
    have hm : load (addr + 8) = some (header f addr).magic := h 8 (by decide)
    unfold checkProgram
    rw [hm]
    exact if_pos hmagic

/-- The check of a region inside the flash whose header is sane does not fault. -/
theorem isSome_checkProgram {f : Flash} {addr : ℕ} (haddr : Inside addr)
    (hsane : SaneHeader f addr) : ∃ b, checkProgram u f.load addr = some b := by
  have hok : HeaderOk f addr := fun hmagic => Or.inr (hsane hmagic)
  obtain ⟨b, hb⟩ := exists_checkProgram (u := u) hok
  exact ⟨b, hb f.load (reads_load f haddr)⟩

end Lemmas

end PanelFirmware.Boot
