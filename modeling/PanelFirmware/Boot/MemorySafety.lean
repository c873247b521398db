import PanelFirmware.Boot.Upgrade

/-!
# What the boot loader reads and writes

`checkProgram` believes the size in a header: the length of the checksum is the size less the
eight bytes skipped, in an unsigned subtraction. A header with the magic and a size from 1 to 7,
or beyond the region, makes it read outside of the region.

* `feedsRegion_iff`: which headers keep a check inside its region.
* `storesInRegions`: where the erases and programs of a run of `main` lie.
-/

namespace PanelFirmware.Boot

open PanelFirmware.Lib PanelFirmware.Hal PanelFirmware.Systems

/-! ### The properties -/

/-- A word access to the region of an image; `none` is an access outside of it. -/
def regionLoad (f : Flash) (addr : ℕ) (a : ℕ) : Option Word :=
  if addr ≤ a ∧ a + 4 ≤ addr + imageSize then some (f.word a) else none

/-- The check of the image at `addr` is the same with accesses to its region only: it reads the
header and feeds the CRC unit from bytes of the region. -/
def FeedsRegion {S : Type} (u : CrcUnit S) (f : Flash) (addr : ℕ) : Prop :=
  ∃ b, checkProgram u (regionLoad f addr) addr = some b ∧ checkProgram u f.load addr = some b

/-- The flash `t` differs from `f` in bytes of the main region only. -/
def ChangesMainOnly (f t : Flash) : Prop :=
  ∀ x, x < imageStartAddress ∨ imageStartAddress + imageSize ≤ x → t x = f x

/-- The flash `t` differs from `f` in erased bytes of the storage region only. -/
def ErasesStorageOnly (f t : Flash) : Prop :=
  ∀ x, t x = f x ∨
    (storageStartAddress ≤ x ∧ x < storageStartAddress + storageSize ∧ t x = 0xFF)

/-- A run of `main` passes through stores `copied` and then through stores `wiped`. The first
differ from the start in the main region only; the second are there only once the main region has
been copied and has passed its check, and they differ from the last of the first by erased bytes
of the storage region. The checks of the main region after the copy and at the end of the run feed
from the region too. -/
def StoresInRegions {S : Type} (u : CrcUnit S) (f : Flash) : Prop :=
  ∃ copied wiped o t, Prog.Runs (main u) f (copied ++ wiped) o t ∧
    (∀ g ∈ copied, ChangesMainOnly f g) ∧
    (wiped ≠ [] → MainCopied f (copied.getLastD f) ∧
      checkProgram u (copied.getLastD f).load imageStartAddress = some true) ∧
    (∀ g ∈ wiped, ErasesStorageOnly (copied.getLastD f) g) ∧
    FeedsRegion u (copied.getLastD f) imageStartAddress ∧ FeedsRegion u t imageStartAddress

/-- The boot loader is memory safe on the flash `f`. -/
def MemorySafe {S : Type} (u : CrcUnit S) (f : Flash) : Prop :=
  FeedsRegion u f imageStartAddress ∧ FeedsRegion u f storageStartAddress ∧ StoresInRegions u f

section Safety

variable {S : Type} {u : CrcUnit S} {f : Flash}

/-! ### Checks -/

/-- Accesses to the region read the flash. -/
lemma reads_regionLoad (f : Flash) (addr : ℕ) : Reads f addr (regionLoad f addr) :=
  fun k hk => if_pos ⟨by omega, by omega⟩

/-- A header that can be checked is checked within its region. -/
lemma HeaderOk.feedsRegion {addr : ℕ} (haddr : Inside addr) (h : HeaderOk f addr) :
    FeedsRegion u f addr := by
  obtain ⟨b, hb⟩ := exists_checkProgram (u := u) h
  exact ⟨b, hb _ (reads_regionLoad f addr), hb _ (reads_load f haddr)⟩

/-- The checksum of more bytes than the region holds leaves the region. -/
lemma crc32Posix_regionLoad {addr len : ℕ} (hlen : imageSize - 8 < len) (s : S) :
    crc32Posix u (regionLoad f addr) (addr + 8) len false s = none := by
  refine crc32Posix_eq_none u false s (i := (imageSize - 8) / 4) ?_ (if_neg ?_)
  · omega
  · unfold imageSize
    omega

/-- **The reads of a check.** The check of an image stays in its region exactly if its header can
be checked. -/
theorem feedsRegion_iff {addr : ℕ} (haddr : Inside addr) :
    FeedsRegion u f addr ↔ HeaderOk f addr := by
  refine ⟨fun h hmagic => ?_, HeaderOk.feedsRegion haddr⟩
  by_contra hsize
  push Not at hsize
  obtain ⟨hzero, hrange⟩ := hsize
  have hm : regionLoad f addr (addr + 8) = some (header f addr).magic :=
    reads_regionLoad f addr 8 (by decide)
  have hz : regionLoad f addr (addr + 4) = some (header f addr).size :=
    reads_regionLoad f addr 4 (by decide)
  have hlen : imageSize - 8 < ((header f addr).size - (4 + 4 : ℕ)).toNat := by
    by_cases hmin : 8 ≤ (header f addr).size.toNat
    · have hmax := hrange hmin
      rw [toNat_size_sub hmin]
      unfold imageSize at *
      omega
    · -- the subtraction wraps around
      have hword : ((4 + 4 : ℕ) : Word).toNat = 8 := rfl
      rw [BitVec.toNat_sub, hword]
      unfold imageSize
      omega
  obtain ⟨b, hb, -⟩ := h
  unfold checkProgram at hb
  rw [hm, hz] at hb
  simp only [Option.bind_eq_bind, Option.bind_some, hmagic, ne_eq, not_true_eq_false, if_false,
    if_neg hzero, crc32Posix_regionLoad hlen] at hb
  simp at hb

/-- A header that passes the check has the magic and a size. -/
lemma magic_of_checkProgram {addr : ℕ} (haddr : Inside addr)
    (h : checkProgram u f.load addr = some true) :
    (header f addr).magic = headerMagic ∧ (header f addr).size.toNat ≠ 0 := by
  have hm : f.load (addr + 8) = some (header f addr).magic := reads_load f haddr 8 (by decide)
  have hz : f.load (addr + 4) = some (header f addr).size := reads_load f haddr 4 (by decide)
  unfold checkProgram at h
  rw [hm, hz] at h
  simp only [Option.bind_eq_bind, Option.bind_some] at h
  constructor
  · by_contra hne
    rw [if_pos hne] at h
    cases h
  · intro hzero
    rw [if_pos hzero, ite_self] at h
    cases h

/-! ### Stores -/

/-- A header depends on the first bytes of its region. -/
lemma HeaderOk.congr {g : Flash} {a b : ℕ} (h : HeaderOk g b) (hsame : SameBytes f a g b 12) :
    HeaderOk f a := by
  have hsize : (header f a).size = (header g b).size := hsame.word (k := 4) (by decide)
  have hmagic : (header f a).magic = (header g b).magic := hsame.word (k := 8) (by decide)
  unfold HeaderOk
  rw [hsize, hmagic]
  exact h

/-- Erasing pages of the main region. -/
lemma changesMainOnly_erased {k : ℕ} (hk : k ≤ 3) (f : Flash) :
    ChangesMainOnly f (erased imageStartAddress (flashPageSize * k) f) := by
  intro x hx
  unfold imageSize at hx
  refine erased_of_outside ?_ f
  unfold flashPageSize
  omega

/-- Copying bytes of the storage into the erased main region. -/
lemma changesMainOnly_copying {n : ℕ} (hn : n ≤ imageSize) (f : Flash) :
    ChangesMainOnly f (copying f f n) := by
  intro x hx
  unfold copying
  rw [programmed_of_outside (by omega), erased_of_outside (by omega)]

/-- Erasing pages of the storage. -/
lemma erasesStorageOnly_erased {k : ℕ} (hk : k ≤ 3) (f : Flash) :
    ErasesStorageOnly f (erased storageStartAddress (flashPageSize * k) f) := by
  intro x
  unfold erased
  split_ifs with hx
  · right
    unfold flashPageSize at hx
    exact ⟨hx.1, by unfold storageSize; omega, rfl⟩
  · exact Or.inl rfl

/-- Erasing the storage leaves the header of the main region. -/
lemma sameBytes_erased_storage (n : ℕ) (f : Flash) :
    SameBytes (erased storageStartAddress n f) imageStartAddress f imageStartAddress 12 := by
  intro i hi
  refine erased_of_outside (Or.inl ?_) f
  unfold imageStartAddress storageStartAddress
  omega

/-- The header of a copy that covers the size announces that size, which is fit for the region. -/
lemma headerOk_copying (hmin : 8 ≤ uploadSize f) (hmax : uploadSize f ≤ imageSize) :
    HeaderOk (copying f f (uploadSize f)) imageStartAddress := by
  have hcopied : MainCopied f (copying f f (uploadSize f)) := fun i hi => copying_main hi hmax
  have hsize : (header (copying f f (uploadSize f)) imageStartAddress).size
      = (header f storageStartAddress).size := hcopied.word (k := 4) hmin
  intro _
  rw [hsize]
  exact Or.inr ⟨hmin, hmax⟩

/-! ### Runs -/

/-- A check changes nothing. -/
lemma runs_check {addr : ℕ} {b : Bool} (h : checkProgram u f.load addr = some b) :
    Prog.Runs (check u addr) f [] b f := by
  refine (Prog.runs_get f).bind ?_
  rw [h]
  rfl

/-- The comparison of the images changes nothing, and it asks for an upgrade only if the storage
passes its check. -/
lemma runs_upgradeNeeded (hmain : HeaderOk f imageStartAddress)
    (hstorage : HeaderOk f storageStartAddress) :
    ∃ b, Prog.Runs (upgradeNeeded u) f [] b f ∧
      (b = true → checkProgram u f.load storageStartAddress = some true) := by
  obtain ⟨b, -, hb⟩ := hstorage.feedsRegion (u := u) inside_storage
  obtain ⟨c, -, hc⟩ := hmain.feedsRegion (u := u) inside_image
  cases b with
  | false => exact ⟨false, (runs_check hb).bind (Prog.runs_pure false f), fun h => by cases h⟩
  | true =>
      cases c with
      | false => exact ⟨true, (runs_check hb).bind ((runs_check hc).bind (Prog.runs_pure _ f)),
          fun _ => hb⟩
      | true => exact ⟨_, (runs_check hb).bind ((runs_check hc).bind
          ((Prog.runs_get f).bind (Prog.runs_pure _ f))), fun _ => hb⟩

/-- The last part of `main` changes nothing. -/
lemma runs_start (hmain : HeaderOk f imageStartAddress) : ∃ o, Prog.Runs (start u) f [] o f := by
  obtain ⟨b, -, hb⟩ := hmain.feedsRegion (u := u) inside_image
  cases b with
  | false => exact ⟨_, (runs_check hb).bind (Prog.runs_pure _ f)⟩
  | true => exact ⟨_, (runs_check hb).bind ((Prog.runs_get f).bind (Prog.runs_pure _ f))⟩

/-- The erase of the main region. -/
lemma runs_eraseMain (f : Flash) :
    ∃ l, Prog.Runs (Prog.forEach flashErasePage
        (pageAddresses imageStartAddress storageStartAddress)) f l ()
        (erased imageStartAddress imageSize f) ∧ ∀ g ∈ l, ChangesMainOnly f g :=
  Prog.exists_runs_of_wp_eq (wp_erasePages 3 (show 0x08020000 ≤ imageStartAddress by decide)
    (by decide) (fun _ _ hk => changesMainOnly_erased hk f) rfl)

/-- The copy of the storage image into the erased main region. -/
lemma runs_copy (hmax : uploadSize f ≤ imageSize) :
    ∃ l, Prog.Runs (flashWrite imageStartAddress (.flash storageStartAddress) (uploadSize f))
        (erased imageStartAddress imageSize f) l () (copying f f (uploadSize f)) ∧
      ∀ g ∈ l, ChangesMainOnly f g := by
  have hwp : Prog.wp
      (flashWrite imageStartAddress (.flash storageStartAddress) (uploadSize f))
      (ChangesMainOnly f) (fun _ t => t = copying f f (uploadSize f))
      (erased imageStartAddress imageSize f) := by
    refine wp_flashWrite (fun i => f (storageStartAddress + i)) ?_ (fun i hi => ?_)
      (fun n _ hn => changesMainOnly_copying (by omega) f) rfl
    · unfold imageSize at hmax
      unfold imageStartAddress
      omega
    · have hread : copying f f i (storageStartAddress + i) = f (storageStartAddress + i) :=
        copying_storage (by omega) (Nat.le_add_right _ i)
      exact hread
  exact Prog.exists_runs_of_wp_eq hwp

/-- The erase of the storage. -/
lemma runs_eraseStorage (f : Flash) :
    ∃ l, Prog.Runs (Prog.forEach flashErasePage
        (pageAddresses storageStartAddress (storageStartAddress + storageSize))) f l ()
        (erased storageStartAddress storageSize f) ∧ ∀ g ∈ l, ErasesStorageOnly f g :=
  Prog.exists_runs_of_wp_eq (wp_erasePages 3 (show 0x08020000 ≤ storageStartAddress by decide)
    (by decide) (fun _ _ hk => erasesStorageOnly_erased hk f) rfl)

/-- Erasing the main region leaves the header of the storage. -/
lemma uploadSize_erased_main (f : Flash) :
    uploadSize (erased imageStartAddress imageSize f) = uploadSize f := by
  have hkept : SameBytes (erased imageStartAddress imageSize f) storageStartAddress f
      storageStartAddress 12 := by
    intro i _
    refine erased_of_outside (Or.inr ?_) f
    unfold imageStartAddress imageSize storageStartAddress
    omega
  exact congrArg BitVec.toNat (hkept.word (k := 4) (by decide))

/-- The stores of an upgrade: those up to the copy, the last of which holds it, and those of the
erase of the storage, which is made if the copy passes its check. -/
lemma runs_performUpgrade (hmin : 8 ≤ uploadSize f) (hmax : uploadSize f ≤ imageSize) :
    ∃ copied wiped t, Prog.Runs (performUpgrade u) f (copied ++ wiped) () t ∧
      copied.getLastD f = copying f f (uploadSize f) ∧ (∀ g ∈ copied, ChangesMainOnly f g) ∧
      (wiped ≠ [] →
        checkProgram u (copying f f (uploadSize f)).load imageStartAddress = some true) ∧
      (∀ g ∈ wiped, ErasesStorageOnly (copying f f (uploadSize f)) g) ∧
      SameBytes t imageStartAddress (copying f f (uploadSize f)) imageStartAddress 12 := by
  obtain ⟨l, hl, hlmain⟩ := runs_eraseMain f
  obtain ⟨m, hm, hmmain⟩ := runs_copy hmax
  have hend : (l ++ m).getLastD f = copying f f (uploadSize f) := by
    have hlast : Prog.EndsLast
        (flashWrite imageStartAddress (.flash storageStartAddress) (uploadSize f)) :=
      Prog.endsLast_forEach (fun _ => Prog.endsLast_get.bind fun _ => Prog.endsLast_atomic _) _
    have hpages : Prog.EndsLast (Prog.forEach flashErasePage
        (pageAddresses imageStartAddress storageStartAddress)) :=
      Prog.endsLast_forEach (fun _ => Prog.endsLast_atomic _) _
    rw [Prog.getLastD_append, ← hpages _ _ _ _ hl, ← hlast _ _ _ _ hm]
  have hcopied : ∀ g ∈ l ++ m, ChangesMainOnly f g := by
    intro g hg
    rcases List.mem_append.mp hg with hg | hg
    · exact hlmain g hg
    · exact hmmain g hg
  obtain ⟨b, -, hb⟩ := (headerOk_copying hmin hmax).feedsRegion (u := u) inside_image
  have hcopy : Prog.Runs (flashWrite imageStartAddress (.flash storageStartAddress)
      (header (erased imageStartAddress imageSize f) storageStartAddress).size.toNat)
      (erased imageStartAddress imageSize f) m () (copying f f (uploadSize f)) := by
    have hsize := uploadSize_erased_main f
    unfold uploadSize at hsize hm ⊢
    rw [hsize]
    exact hm
  have hlist : ∀ w : List Flash, l ++ m ++ w = l ++ ([] ++ (m ++ ([] ++ w))) := by simp
  unfold performUpgrade
  cases b with
  | false =>
      refine ⟨l ++ m, [], copying f f (uploadSize f), ?_, hend, hcopied, fun h => absurd rfl h,
        fun g hg => absurd hg List.not_mem_nil, fun _ _ => rfl⟩
      rw [hlist]
      exact hl.bind ((Prog.runs_get _).bind
        (hcopy.bind ((runs_check hb).bind (Prog.runs_pure () _))))
  | true =>
      obtain ⟨w, hw, hwstorage⟩ := runs_eraseStorage (copying f f (uploadSize f))
      refine ⟨l ++ m, w, _, ?_, hend, hcopied, fun _ => hb, hwstorage,
        sameBytes_erased_storage storageSize _⟩
      rw [hlist]
      exact hl.bind ((Prog.runs_get _).bind (hcopy.bind ((runs_check hb).bind hw)))

/-- **The stores of a run.** If the headers of both regions can be checked, `main` erases and
programs bytes of the main region until this has passed its check after the copy, and erases the
storage only from then on. -/
theorem storesInRegions (hmain : HeaderOk f imageStartAddress)
    (hstorage : HeaderOk f storageStartAddress) : StoresInRegions u f := by
  obtain ⟨b, hneeded, hchecked⟩ := runs_upgradeNeeded (u := u) hmain hstorage
  cases b with
  | false =>
      obtain ⟨o, hstart⟩ := runs_start (u := u) hmain
      refine ⟨[], [], o, f, ?_, fun g hg => absurd hg List.not_mem_nil, fun h => absurd rfl h,
        fun g hg => absurd hg List.not_mem_nil, ?_, ?_⟩
      · exact hneeded.bind hstart
      · exact hmain.feedsRegion inside_image
      · exact hmain.feedsRegion inside_image
  | true =>
      obtain ⟨hmagic, hzero⟩ := magic_of_checkProgram inside_storage (hchecked rfl)
      obtain ⟨hmin, hmax⟩ := (hstorage hmagic).resolve_left hzero
      obtain ⟨copied, wiped, t, hrun, hlast, hcopied, hcheck, hwiped, hsame⟩ :=
        runs_performUpgrade (u := u) hmin hmax
      have hok := headerOk_copying hmin hmax
      obtain ⟨o, hstart⟩ := runs_start (u := u) (hok.congr hsame)
      refine ⟨copied, wiped, o, t, ?_, hcopied, fun h => ?_, ?_, ?_, ?_⟩
      · have hlist : copied ++ wiped = [] ++ (copied ++ wiped ++ []) := by simp
        rw [hlist]
        exact hneeded.bind (hrun.bind hstart)
      · rw [hlast]
        exact ⟨fun i hi => copying_main hi hmax, hcheck h⟩
      · rw [hlast]
        exact hwiped
      · rw [hlast]
        exact hok.feedsRegion inside_image
      · exact (hok.congr hsame).feedsRegion inside_image

/-- **Memory safety of the boot loader.** For any CRC unit and any contents of the flash: both
checks feed from their own region, and `main` erases and programs bytes of the main region until
the copy there has passed its check and erases the storage only afterwards, exactly if in each
region a header with the magic announces a size of zero, or of 8 bytes up to the region. -/
theorem memorySafe_iff :
    MemorySafe u f ↔ HeaderOk f imageStartAddress ∧ HeaderOk f storageStartAddress := by
  constructor
  · rintro ⟨hmain, hstorage, -⟩
    exact ⟨(feedsRegion_iff inside_image).mp hmain, (feedsRegion_iff inside_storage).mp hstorage⟩
  · rintro ⟨hmain, hstorage⟩
    exact ⟨hmain.feedsRegion inside_image, hstorage.feedsRegion inside_storage,
      storesInRegions hmain hstorage⟩

end Safety

/-- A flash with nothing but the magic and a size of one byte in the header of the storage. -/
def tinySize : Flash := fun x =>
  if x < storageStartAddress then 0xFF
  else ([0, 0, 0, 0, 1, 0, 0, 0, 0x85, 0x25, 0x27, 0x38] : List Byte).getD
    (x - storageStartAddress) 0xFF

/-- The check of a header that announces one byte leaves its region. -/
theorem tinySize_unsafe : ¬ ∀ f, MemorySafe stm32Crc f := by
  intro h
  have hok := (feedsRegion_iff inside_storage).mp (h tinySize).2.1
  rcases hok (by decide +kernel) with hsize | ⟨hmin, -⟩
  · exact absurd hsize (by decide +kernel)
  · exact absurd hmin (by decide +kernel)

end PanelFirmware.Boot
