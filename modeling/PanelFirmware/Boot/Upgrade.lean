import PanelFirmware.Boot.Program

/-!
# Boot and upgrade survive power losses

`image` is the flash before the upgrade. Its storage region holds a valid image, and the boot
loader never gives that image up before the main region holds a copy of it.

* `BootInv`: either the storage is untouched and the main header is sane, or the main region holds
  the image and the storage header is erased.
* `wp_main`: a run of `main` keeps `BootInv` at every erase and every programmed byte and ends
  with the start of a valid main image.
* `bootCrashConsistent`: the same for any number of runs cut short by power losses.
-/

namespace PanelFirmware.Boot

open PanelFirmware.Lib PanelFirmware.Hal PanelFirmware.Systems

/-- The storage region is byte for byte the one of `image`. -/
def StorageIntact (image f : Flash) : Prop :=
  SameBytes f storageStartAddress image storageStartAddress storageSize

/-- The size the header of the storage image announces. -/
def uploadSize (image : Flash) : ℕ := (header image storageStartAddress).size.toNat

/-- The main region begins with the storage image of `image`. -/
def MainCopied (image f : Flash) : Prop :=
  SameBytes f imageStartAddress image storageStartAddress (uploadSize image)

/-- The invariant of the boot loader. -/
def BootInv (image f : Flash) : Prop :=
  (StorageIntact image f ∧ SaneHeader f imageStartAddress) ∨
    (MainCopied image f ∧ (header f storageStartAddress).magic ≠ headerMagic)

/-- A valid storage image that covers its header and fits the main region. -/
structure ValidUpload {S : Type} (u : CrcUnit S) (image : Flash) : Prop where
  checked : checkProgram u image.load storageStartAddress = some true
  min_size : headerSize ≤ uploadSize image
  max_size : uploadSize image ≤ imageSize

section Invariant

variable {S : Type} {u : CrcUnit S} {image f : Flash}

/-- The check of the storage while it is untouched. -/
lemma check_storage (hup : ValidUpload u image) (h : StorageIntact image f) :
    checkProgram u f.load storageStartAddress = some true := by
  have hmax := hup.max_size
  rw [← hup.checked]
  exact checkProgram_congr inside_storage inside_storage hup.min_size
    hup.max_size fun i hi => h i (by unfold uploadSize imageSize at hmax; unfold storageSize; omega)

/-- The check of the main region once it holds the image. -/
lemma check_main (hup : ValidUpload u image) (h : MainCopied image f) :
    checkProgram u f.load imageStartAddress = some true := by
  rw [← hup.checked]
  exact checkProgram_congr inside_image inside_storage hup.min_size
    hup.max_size h

/-- An erased header has not the magic. -/
lemma magic_of_erased {addr n : ℕ} {start : ℕ} (hstart : start ≤ addr)
    (hend : addr + 12 ≤ start + n) : (header (erased start n f) addr).magic ≠ headerMagic := by
  have hword : (erased start n f).word (addr + 8) = 0xFFFFFFFF := by
    have hbytes : (erased start n f).bytes (addr + 8) 4 = List.replicate 4 0xFF := by
      refine List.eq_replicate_iff.mpr ⟨by simp [Flash.bytes], fun b hb => ?_⟩
      obtain ⟨i, hi, rfl⟩ := List.mem_map.mp hb
      have hlt := List.mem_range.mp hi
      exact erased_of_inside (by omega) (by omega) f
    rw [Flash.word, hbytes]
    rfl
  change (erased start n f).word (addr + 8) ≠ headerMagic
  rw [hword]
  decide

/-! ### The stores of an upgrade -/

/-- The store with the main region erased and the first `n` bytes of the image copied. -/
def copying (image f : Flash) (n : ℕ) : Flash :=
  programmed imageStartAddress (fun i => image (storageStartAddress + i)) n
    (erased imageStartAddress imageSize f)

/-- The bytes copied so far. -/
lemma copying_main {n i : ℕ} (hi : i < n) (hn : n ≤ imageSize) :
    copying image f n (imageStartAddress + i) = image (storageStartAddress + i) := by
  unfold copying
  rw [programmed_of_inside (by omega) (by omega) _
    (erased_of_inside (by omega) (by omega) f), Nat.add_sub_cancel_left]

/-- Copying does not touch the storage. -/
lemma copying_storage {n x : ℕ} (hn : n ≤ imageSize) (hx : storageStartAddress ≤ x) :
    copying image f n x = f x := by
  unfold imageSize at hn
  unfold storageStartAddress at hx
  unfold copying imageStartAddress imageSize
  rw [programmed_of_outside (by omega), erased_of_outside (by omega)]

/-- While the main region is being erased, the storage is untouched and the main header gone. -/
lemma bootInv_erasing (h : StorageIntact image f) {k : ℕ} (hk0 : 0 < k) (hk : k ≤ 3) :
    BootInv image (erased imageStartAddress (flashPageSize * k) f) := by
  have hpage : flashPageSize ≤ flashPageSize * k ∧ flashPageSize * k ≤ imageSize := by
    unfold flashPageSize imageSize
    omega
  left
  refine ⟨fun i hi => ?_, fun hmagic => absurd hmagic (magic_of_erased le_rfl ?_)⟩
  · rw [erased_of_outside]
    · exact h i hi
    · unfold imageStartAddress storageStartAddress
      unfold imageSize at hpage
      omega
  · unfold flashPageSize at hpage ⊢
    omega

/-- While the image is being copied, the storage is untouched, and the main header is the one of
the image or has not its magic yet. -/
lemma bootInv_copying (hup : ValidUpload u image) (h : StorageIntact image f) {n : ℕ}
    (hn : n ≤ uploadSize image) : BootInv image (copying image f n) := by
  have hmin := hup.min_size
  have hmax := hup.max_size
  unfold headerSize at hmin
  have hmain : SameBytes (copying image f n) imageStartAddress image storageStartAddress n :=
    fun i hi => copying_main hi (by omega)
  left
  refine ⟨?_, ?_⟩
  · intro i hi
    rw [copying_storage (by omega) (by omega)]
    exact h i hi
  · intro hmagic
    by_cases hsize : 8 ≤ n
    · have hword : (header (copying image f n) imageStartAddress).size
          = (header image storageStartAddress).size := hmain.word (k := 4) (by omega)
      rw [hword]
      exact ⟨(show 8 ≤ uploadSize image by omega), hmax⟩
    · have hrest : (copying image f n).bytes (imageStartAddress + 8) 4
          = List.replicate 4 0xFF := by
        refine List.eq_replicate_iff.mpr ⟨by simp [Flash.bytes], fun b hb => ?_⟩
        obtain ⟨i, hi, rfl⟩ := List.mem_map.mp hb
        have hlt := List.mem_range.mp hi
        unfold copying
        rw [programmed_of_outside (by omega)]
        exact erased_of_inside (by omega) (by unfold imageSize; omega) f
      have hword : (header (copying image f n) imageStartAddress).magic = 0xFFFFFFFF := by
        change (copying image f n).word (imageStartAddress + 8) = 0xFFFFFFFF
        rw [Flash.word, hrest]
        rfl
      rw [hword] at hmagic
      exact absurd hmagic (by decide)

/-- While the storage is being erased, the main region holds the image and the storage header is
gone. -/
lemma bootInv_discarding (h : MainCopied image f) (hmax : uploadSize image ≤ imageSize) {k : ℕ}
    (hk0 : 0 < k) :
    MainCopied image (erased storageStartAddress (flashPageSize * k) f) ∧
      BootInv image (erased storageStartAddress (flashPageSize * k) f) := by
  have hpage : 12 ≤ flashPageSize * k := by
    unfold flashPageSize
    omega
  have hmain : MainCopied image (erased storageStartAddress (flashPageSize * k) f) := by
    intro i hi
    rw [erased_of_outside]
    · exact h i hi
    · unfold imageSize at hmax
      unfold imageStartAddress storageStartAddress
      omega
  exact ⟨hmain, Or.inr ⟨hmain, magic_of_erased le_rfl (by omega)⟩⟩

/-! ### The parts of `main` -/

/-- A check whose result is known. -/
lemma wp_check {addr : ℕ} {b : Bool} {C : Flash → Prop} {Q : Bool → Flash → Prop}
    (h : checkProgram u f.load addr = some b) : Prog.wp (check u addr) C Q f ↔ Q b f := by
  unfold check
  rw [Prog.wp_bind, Prog.wp_get, h, Prog.wp_ofOption_some]

/-- The last part of `main` starts a valid main image. -/
lemma wp_start {C : Flash → Prop} (h : checkProgram u f.load imageStartAddress = some true) :
    Prog.wp (start u) C (fun o t => checkProgram u t.load imageStartAddress = some true ∧
      o = .execute (imageStartAddress + (header t imageStartAddress).exeOffset.toNat)) f := by
  unfold start
  rw [Prog.wp_bind, wp_check h, if_pos rfl, Prog.wp_bind, Prog.wp_get, Prog.wp_pure]
  exact ⟨h, rfl⟩

/-- An upgrade from an untouched storage keeps the invariant at every atomic step and ends with
the image in the main region. -/
lemma wp_performUpgrade (hup : ValidUpload u image) (h : StorageIntact image f) :
    Prog.wp (performUpgrade u) (BootInv image) (fun _ t => MainCopied image t ∧ BootInv image t)
      f := by
  have hmax := hup.max_size
  have herase : flashPageSize * 3 = imageSize := rfl
  unfold performUpgrade
  rw [Prog.wp_bind]
  refine wp_erasePages 3 (by decide) (by decide)
    (fun k hk0 hk => bootInv_erasing h hk0 hk) ?_
  rw [herase, Prog.wp_bind, Prog.wp_get, Prog.wp_bind]
  have hsize : (header (erased imageStartAddress imageSize f) storageStartAddress).size.toNat
      = uploadSize image := by
    have hkept : SameBytes (erased imageStartAddress imageSize f) storageStartAddress image
        storageStartAddress storageSize := by
      intro i hi
      rw [erased_of_outside]
      · exact h i hi
      · unfold imageStartAddress imageSize storageStartAddress
        omega
    exact congrArg BitVec.toNat (hkept.word (k := 4) (by decide))
  rw [hsize]
  refine wp_flashWrite (fun i => image (storageStartAddress + i)) ?_ (fun i hi => ?_)
    (fun n _ hn => bootInv_copying hup h hn) ?_
  · unfold imageSize at hmax
    unfold imageStartAddress
    omega
  · change copying image f i (storageStartAddress + i) = image (storageStartAddress + i)
    rw [copying_storage (by omega) (by omega)]
    exact h i (by unfold imageSize at hmax; unfold storageSize; omega)
  · have hcopied : MainCopied image (copying image f (uploadSize image)) :=
      fun i hi => copying_main hi hmax
    rw [Prog.wp_bind]
    change Prog.wp (check u imageStartAddress) _ _ (copying image f (uploadSize image))
    rw [wp_check (check_main hup hcopied), if_pos rfl]
    exact wp_erasePages 3 (by decide) (by decide)
      (fun k hk0 _ => (bootInv_discarding hcopied hmax hk0).2)
      (bootInv_discarding hcopied hmax (by norm_num))

/-- `upgrade` is computed without a flash step; when it is false, the main image is valid. -/
lemma wp_upgradeNeeded (hup : ValidUpload u image) (h : BootInv image f)
    {C : Flash → Prop} {Q : Bool → Flash → Prop} (htrue : StorageIntact image f → Q true f)
    (hfalse : checkProgram u f.load imageStartAddress = some true → Q false f) :
    Prog.wp (upgradeNeeded u) C Q f := by
  unfold upgradeNeeded
  rcases h with ⟨hintact, hsane⟩ | ⟨hcopied, hmagic⟩
  · obtain ⟨b, hb⟩ := isSome_checkProgram (u := u) inside_image hsane
    rw [Prog.wp_bind, wp_check (check_storage hup hintact), if_pos rfl, Prog.wp_bind, wp_check hb]
    cases b with
    | false => exact (Prog.wp_pure true _).mpr (htrue hintact)
    | true =>
        rw [if_pos rfl, Prog.wp_bind, Prog.wp_get, Prog.wp_pure]
        cases differ (header f imageStartAddress) (header f storageStartAddress) with
        | false => exact hfalse hb
        | true => exact htrue hintact
  · have hstorage : checkProgram u f.load storageStartAddress = some false :=
      checkProgram_of_magic inside_storage hmagic
    rw [Prog.wp_bind, wp_check hstorage]
    exact (Prog.wp_pure false _).mpr (hfalse (check_main hup hcopied))

/-- **One run.** From a flash that satisfies the invariant, `main` keeps it at every atomic step,
does not fault, and ends by starting a main image that passes the check. -/
theorem wp_main (hup : ValidUpload u image) (h : BootInv image f) :
    Prog.wp (main u) (BootInv image)
      (fun o t => checkProgram u t.load imageStartAddress = some true ∧
        o = .execute (imageStartAddress + (header t imageStartAddress).exeOffset.toNat)) f := by
  unfold main
  rw [Prog.wp_bind]
  refine wp_upgradeNeeded hup h (fun hintact => ?_) fun hmain => ?_
  · rw [if_pos rfl, Prog.wp_bind]
    refine Prog.wp_mono (wp_performUpgrade hup hintact) (fun _ ht => ht) fun _ t ht => ?_
    exact wp_start (check_main hup ht.1)
  · exact wp_start hmain

end Invariant

/-- **Boot and upgrade are crash consistent.** Take any flash whose storage region passes the
check with a size between the header's and the main region's, and whose main header, if it has the
magic, announces between 8 bytes and the region. Whatever the number and the placement of power
losses between the flash steps of `main`, in every flash met the storage region is unchanged and
passes the check, or the main region begins with the storage image and passes the check; and from
every flash met an uninterrupted `main` starts a main image that passes the check. -/
theorem bootCrashConsistent {S : Type} (u : CrcUnit S) (image : Flash)
    (hup : ValidUpload u image) (hmain : SaneHeader image imageStartAddress) (f : Flash)
    (hreach : Prog.CrashReach (main u) image f) :
    ((StorageIntact image f ∧ checkProgram u f.load storageStartAddress = some true) ∨
        (MainCopied image f ∧ checkProgram u f.load imageStartAddress = some true)) ∧
      ∃ exe t, (main u f).2 = some (.execute exe, t) ∧
        checkProgram u t.load imageStartAddress = some true := by
  have hinv : BootInv image f :=
    Prog.crashReach_induction (I := BootInv image) (Or.inl ⟨fun _ _ => rfl, hmain⟩)
      (fun s hs => wp_main hup hs) hreach
  obtain ⟨-, o, t, hend, hvalid, rfl⟩ := wp_main hup hinv
  refine ⟨?_, _, t, hend, hvalid⟩
  rcases hinv with ⟨hintact, -⟩ | ⟨hcopied, -⟩
  · exact Or.inl ⟨hintact, check_storage hup hintact⟩
  · exact Or.inr ⟨hcopied, check_main hup hcopied⟩

/-- A flash with an image of one header in the storage and nothing in the main region. -/
def sampleFlash : Flash := fun x =>
  if x < storageStartAddress then 0xFF
  else ([0x08, 0xEA, 0x5A, 0x70, 28, 0, 0, 0, 0x85, 0x25, 0x27, 0x38, 1, 0, 0, 0, 2, 0, 0, 0,
    3, 0, 0, 0, 0, 4, 0, 0] : List Byte).getD (x - storageStartAddress) 0xFF

/-- The sample flash when power is lost behind the eighth byte of the copy. -/
def halfCopied : Flash := (main stm32Crc sampleFlash).1.get ⟨10, by decide +kernel⟩

/-- That flash when power is lost again, behind the first page of the storage that is erased. -/
def halfErased : Flash := (main stm32Crc halfCopied).1.get ⟨31, by decide +kernel⟩

/-- The sample flash after the two power losses: the header is in the main region, and no longer in
the storage. -/
theorem sampleFlash_consistent :
    ((header halfErased imageStartAddress).magic = headerMagic ∧
        halfErased storageStartAddress = 0xFF) ∧
      ((StorageIntact sampleFlash halfErased ∧
            checkProgram stm32Crc halfErased.load storageStartAddress = some true) ∨
          (MainCopied sampleFlash halfErased ∧
            checkProgram stm32Crc halfErased.load imageStartAddress = some true)) ∧
        ∃ exe t, (main stm32Crc halfErased).2 = some (.execute exe, t) ∧
          checkProgram stm32Crc t.load imageStartAddress = some true := by
  have hreach : Prog.CrashReach (main stm32Crc) sampleFlash halfErased :=
    (Prog.CrashReach.start.crash (List.get_mem _ _)).crash (List.get_mem _ _)
  exact ⟨by decide +kernel, bootCrashConsistent stm32Crc sampleFlash
    ⟨by decide +kernel, by decide +kernel, by decide +kernel⟩
    (fun h => absurd h (by decide +kernel)) halfErased hreach⟩

end PanelFirmware.Boot
