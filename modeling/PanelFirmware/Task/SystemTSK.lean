import PanelFirmware.Dev.Eep24AA
import PanelFirmware.Lib.Machine
import PanelFirmware.Prm.Parameters

/-!
# `task/src/systemTSK.cpp`: the settings in the EEPROM

`loadParameters` reads the images of the two save classes at boot. A class whose image is read and
not accepted is reported (`LoadDefault`); a class whose image cannot be read is not, and its
parameters stay at their defaults, which the next save of the class writes over the image.

* `Sound`: the report is exact, and no image that was intact but could not be read is overwritten
  with defaults.
* `sound_iff`: over all boots and runs, exactly when the bus gives both images.
-/

namespace PanelFirmware.Task

open PanelFirmware.Lib PanelFirmware.Prm PanelFirmware.Dev

/-! ### The code -/

/-- The chip, and the transfers that will fail. Source: `systemTSK.cpp` `eeprom`. -/
abbrev Bus := Chip × List Bool

/-- Source: `systemTSK.cpp` `loadParameters`, `systemSettingsAddress`. -/
def systemSettingsAddress : ℕ := 0

/-- Source: `systemTSK.cpp` `loadParameters`, `userSettingsAddress`. -/
def userSettingsAddress : ℕ := 512

/-- What a block of `loadParameters` comes to: whether the bus gave the image, whether it was
accepted, and whether the indication is set. -/
structure Block where
  eeprom : Bus
  vals : List Val
  read : Bool
  loaded : Bool
  loadDefault : Bool

/-- A block of `loadParameters`. Source: `systemTSK.cpp` `loadParameters`. -/
def loadBlock (save : Save) (address : ℕ) (eeprom : Bus) (vals : List Val) : Option Block := do
  let size := getSerialSize vals save
  if size ≠ 0 then
    match Dev.read Chip.faulty eeprom (List.replicate size 0) address with
    | (eeprom, true, buffer) =>
        let (result, vals) ← deserialize vals save buffer size
        some ⟨eeprom, vals, true, result, !result⟩
    | (eeprom, false, _) => some ⟨eeprom, vals, false, false, false⟩
  else some ⟨eeprom, vals, false, false, false⟩

/-- What the boot met: the memory of the chip then, the classes whose image the bus gave and the
ones that were loaded. No step reads it. -/
structure Boot where
  memory : ℕ → Byte
  read : Save → Bool
  loaded : Save → Bool

/-- The panel after the boot. The parameters that have been assigned since are recorded.
Source: `prmSystem.cpp` `valuearray`; `systemTSK.cpp` `eeprom`, `fp.state`. -/
structure System where
  vals : List Val
  eeprom : Bus
  sysSettingLoadDefault : Bool
  userSettingLoadDefault : Bool
  boot : Boot
  edited : ℕ → Bool

/-- What the two blocks say, by class. -/
def byClass (sys use : Bool) : Save → Bool
  | .savesys => sys
  | .saveuse => use
  | .notsave => false

/-- The boot. Source: `systemTSK.cpp` `loadParameters`. -/
def loadParameters (eeprom : Bus) : Option System := do
  let sys ← loadBlock .savesys systemSettingsAddress eeprom valuearray
  let use ← loadBlock .saveuse userSettingsAddress sys.eeprom sys.vals
  some {
    vals := use.vals
    eeprom := use.eeprom
    sysSettingLoadDefault := sys.loadDefault
    userSettingLoadDefault := use.loadDefault
    boot := ⟨eeprom.1.memory, byClass sys.read use.read, byClass sys.loaded use.loaded⟩
    edited := fun _ => false }

/-- Source: `systemTSK.cpp` `saveparametersSystem`, `saveparametersUser`. -/
def saveBlock (save : Save) (address : ℕ) (s : System) : Option System := do
  let size := getSerialSize s.vals save
  if size ≠ 0 then
    let buffer ← serialize s.vals save
    some { s with eeprom := (Dev.write Chip.faulty s.eeprom address buffer).1 }
  else some s

/-- Source: `systemTSK.cpp` `saveparametersSystem`. -/
def saveparametersSystem : System → Option System := saveBlock .savesys systemSettingsAddress

/-- Source: `systemTSK.cpp` `saveparametersUser`. -/
def saveparametersUser : System → Option System := saveBlock .saveuse userSettingsAddress

/-- The place of a parameter in the table. -/
def position (label : String) : ℕ := valuearray.findIdx fun p => p.handler.label = label

/-- The parameters after an assignment to one of a value of its type. -/
def setVal (vals : List Val) (i : ℕ) (v : ℤ) : List Val :=
  vals.modify i fun p => if h : p.handler.T.Repr v then p.set v h else p

/-- An assignment to a parameter. -/
def assign (s : System) (i : ℕ) (v : ℤ) : System :=
  { s with vals := setVal s.vals i v, edited := Function.update s.edited i true }

/-- The value of a parameter. -/
def System.val (s : System) (i : ℕ) : ℤ := (s.vals[i]?.map Val.val).getD 0

/-- What can happen after the boot: an assignment; the regulator's serial number has been read; the
start window; the exit of the settings menu; the shutdown. -/
inductive Event
  | edit (i : ℕ) (v : ℤ)
  | serial (serialNumber : BitVec 32)
  | startup
  | settingsExit
  | shutdown

/-- A step of the panel. Source: `systemTSK.cpp` `systemTSK`; `startupTSK.cpp` `startupTSK`;
`settingTSK.cpp` `settingTSK`. -/
def step (s : System) : Event → Option System
  | .edit i v => some (assign s i v)
  | .serial serialNumber =>
      let i := position "serial_number"
      if s.val i ≠ serialNumber.toNat then saveparametersSystem (assign s i serialNumber.toNat)
      else some s
  | .startup =>
      let i := position "startcnt"
      let s := assign s i ((s.val i + 1) % 2 ^ 32)
      if s.sysSettingLoadDefault ∨ s.userSettingLoadDefault then saveparametersSystem s else some s
  | .settingsExit => saveparametersSystem s
  | .shutdown => saveparametersUser s

/-! ### Soundness -/

/-- The address of the image of a class. -/
def settingsAddress : Save → ℕ
  | .saveuse => userSettingsAddress
  | _ => systemSettingsAddress

/-- The indication of a class. -/
def System.loadDefault (s : System) : Save → Bool :=
  byClass s.sysSettingLoadDefault s.userSettingLoadDefault

/-- The values in the image of a class in a memory, if it is intact. -/
def storedVals (memory : ℕ → Byte) (save : Save) : Option (List Val) :=
  let size := getSerialSize valuearray save
  match deserialize valuearray save
    (Ring.contents chipSize memory (settingsAddress save) size) size with
  | some (true, vals) => some vals
  | _ => none

/-- The image of a class that was intact at the boot has been overwritten: a parameter that has not
been assigned since holds its default in the image now, and held another value then. -/
def Defaulted (s : System) (save : Save) : Prop :=
  ∃ before after, storedVals s.boot.memory save = some before ∧
    storedVals s.eeprom.1.memory save = some after ∧
    ∃ i p q, before[i]? = some p ∧ after[i]? = some q ∧ q.getsave = save ∧
      s.edited i = false ∧ q.val = q.handler.dflt ∧ p.val ≠ q.val

/-- For each class, the indication is set exactly when it was not loaded, and an image that the bus
did not give is not overwritten with defaults. -/
def Sound (s : System) : Prop :=
  ∀ save, save ≠ .notsave →
    (s.loadDefault save = true ↔ s.boot.loaded save = false) ∧
    (s.boot.read save = false → ¬ Defaulted s save)

/-! ### The boot -/

/-- The images have bytes. -/
lemma getSerialSize_ne_zero (vals : List Val) (save : Save) : getSerialSize vals save ≠ 0 := by
  unfold getSerialSize
  omega

/-- A buffer with bytes has a verdict. -/
lemma exists_deserialize (vals : List Val) (save : Save) {src : List Byte} {size : ℕ}
    (hsrc : src ≠ []) (hsize : size ≠ 0) :
    ∃ result vals', deserialize vals save src size = some (result, vals') := by
  have htake : src.take size ≠ [] := by
    rw [ne_eq, List.take_eq_nil_iff]
    exact fun h => h.elim hsize hsrc
  unfold deserialize
  split_ifs
  · exact ⟨_, _, rfl⟩
  · rw [Utils.crc16Calc_crcModBus htake]
    dsimp only [Option.bind_eq_bind, Option.bind_some]
    split_ifs <;> exact ⟨_, _, rfl⟩

/-- A block comes to an end, and its indication is set exactly when the image was read and not
accepted. -/
lemma exists_loadBlock (save : Save) (address : ℕ) (eeprom : Bus) (vals : List Val) :
    ∃ b, loadBlock save address eeprom vals = some b ∧
      (b.loadDefault = true ↔ b.read = true ∧ b.loaded = false) ∧
      (b.read = false → b.loaded = false) ∧ b.eeprom.1.memory = eeprom.1.memory := by
  have hsize := getSerialSize_ne_zero vals save
  have hmem := memory_read_faulty eeprom (List.replicate (getSerialSize vals save) 0) address
  have hlen := length_read_faulty eeprom (List.replicate (getSerialSize vals save) 0) address
  unfold loadBlock
  dsimp only
  rw [if_pos hsize]
  split
  · next eeprom' buffer hread =>
      rw [hread] at hmem hlen
      have hbuffer : buffer ≠ [] := by
        rintro rfl
        exact hsize (by simpa using hlen.symm)
      obtain ⟨result, vals', hverdict⟩ := exists_deserialize vals save hbuffer hsize
      rw [hverdict]
      refine ⟨_, rfl, ?_, fun h => absurd h Bool.noConfusion, hmem⟩
      simp
  · next eeprom' _ hread =>
      rw [hread] at hmem
      exact ⟨_, rfl, by simp, fun _ => rfl, hmem⟩

/-- The boot comes to an end. The indication of a class is exact if and only if the bus gave its
image. -/
lemma exists_loadParameters (eeprom : Bus) :
    ∃ s, loadParameters eeprom = some s ∧ ∀ save, save ≠ .notsave →
      ((s.loadDefault save = true ↔ s.boot.loaded save = false) ↔ s.boot.read save = true) := by
  obtain ⟨sys, hsys, hsysFlag, hsysRead, -⟩ :=
    exists_loadBlock .savesys systemSettingsAddress eeprom valuearray
  obtain ⟨use, huse, huseFlag, huseRead, -⟩ :=
    exists_loadBlock .saveuse userSettingsAddress sys.eeprom sys.vals
  have hexact : ∀ b : Block, (b.loadDefault = true ↔ b.read = true ∧ b.loaded = false) →
      (b.read = false → b.loaded = false) →
      ((b.loadDefault = true ↔ b.loaded = false) ↔ b.read = true) := by
    intro b hflag hread
    rw [hflag]
    cases hb : b.read
    · simp [hread hb]
    · simp
  refine ⟨_, by rw [loadParameters, hsys, Option.bind_eq_bind, Option.bind_some, huse]; rfl, ?_⟩
  intro save hsave
  cases save with
  | notsave => exact absurd rfl hsave
  | savesys => exact hexact sys hsysFlag hsysRead
  | saveuse => exact hexact use huseFlag huseRead

/-! ### Runs -/

/-- A save comes to an end, and changes the chip only. -/
lemma exists_saveBlock (save : Save) (address : ℕ) (s : System) :
    ∃ eeprom, saveBlock save address s = some { s with eeprom := eeprom } := by
  obtain ⟨crc, -, himg⟩ := serialize_eq s.vals save
  unfold saveBlock
  dsimp only
  rw [if_pos (getSerialSize_ne_zero s.vals save), himg]
  exact ⟨_, rfl⟩

/-- A step comes to an end, and leaves the indications and the record of the boot. -/
lemma exists_step (s : System) (e : Event) :
    ∃ t, step s e = some t ∧ t.loadDefault = s.loadDefault ∧ t.boot = s.boot := by
  have hsave : ∀ save address s, ∃ t, saveBlock save address s = some t ∧
      t.loadDefault = s.loadDefault ∧ t.boot = s.boot := by
    intro save address s
    obtain ⟨eeprom, h⟩ := exists_saveBlock save address s
    exact ⟨_, h, rfl, rfl⟩
  cases e with
  | edit i v => exact ⟨_, rfl, rfl, rfl⟩
  | serial serialNumber =>
      simp only [step]
      split_ifs
      · exact hsave _ _ (assign s _ _)
      · exact ⟨s, rfl, rfl, rfl⟩
  | startup =>
      simp only [step]
      split_ifs
      · exact hsave _ _ (assign s _ _)
      · exact ⟨_, rfl, rfl, rfl⟩
  | settingsExit => exact hsave _ _ s
  | shutdown => exact hsave _ _ s

/-- A run comes to an end, and leaves the indications and the record of the boot. -/
lemma exists_run (s : System) (es : List Event) :
    ∃ t, Machine.run step s es = some t ∧ t.loadDefault = s.loadDefault ∧ t.boot = s.boot := by
  induction es generalizing s with
  | nil => exact ⟨s, rfl, rfl, rfl⟩
  | cons e es ih =>
      obtain ⟨u, hu, hflag, hboot⟩ := exists_step s e
      obtain ⟨t, ht, hflag', hboot'⟩ := ih u
      refine ⟨t, ?_, hflag'.trans hflag, hboot'.trans hboot⟩
      rw [Machine.run, hu, Option.bind_some, ht]

/-- **Stored settings, and exactly when they survive.** For every content of the chip, every bus,
and every run of assignments and saves after the boot: the run comes to an end, and the settings
are sound if and only if the bus gave the images of both classes at the boot. -/
theorem sound_iff (eeprom : Bus) (es : List Event) :
    ∃ s t, loadParameters eeprom = some s ∧ Machine.run step s es = some t ∧
      (Sound t ↔ s.boot.read .savesys = true ∧ s.boot.read .saveuse = true) := by
  obtain ⟨s, hs, hexact⟩ := exists_loadParameters eeprom
  obtain ⟨t, ht, hflag, hboot⟩ := exists_run s es
  refine ⟨s, t, hs, ht, ?_⟩
  unfold Sound
  rw [hflag, hboot]
  constructor
  · intro h
    exact ⟨(hexact .savesys (by decide)).mp (h .savesys (by decide)).1,
      (hexact .saveuse (by decide)).mp (h .saveuse (by decide)).1⟩
  · rintro ⟨hsys, huse⟩ save hsave
    have hread : s.boot.read save = true := by
      cases save with
      | notsave => exact absurd rfl hsave
      | savesys => exact hsys
      | saveuse => exact huse
    refine ⟨(hexact save hsave).mpr hread, fun hfail => ?_⟩
    rw [hread] at hfail
    cases hfail

/-! ### An image that is overwritten -/

/-- An image written from a store over the table is intact, and holds the values of the store. -/
lemma storedVals_store (memory : ℕ → Byte) {save : Save} {vals : List Val} {img : List Byte}
    (himg : serialize vals save = some img) (hsame : SameTable vals valuearray)
    (hr : ∀ p ∈ vals, p.getsave = save → p.InRange)
    (hfit : settingsAddress save + getSerialSize valuearray save ≤ chipSize) :
    ∃ stored, storedVals (Ring.store memory (settingsAddress save) img) save = some stored ∧
      ∀ (i : ℕ) (p q : Val), vals[i]? = some p → valuearray[i]? = some q →
        stored[i]? = some (if save = p.getsave then p else q) := by
  obtain ⟨img', himg', -, stored, hread, -, hstored⟩ :=
    serialize_deserialize vals valuearray save hsame hr
  obtain rfl : img = img' := Option.some.inj (himg.symm.trans himg')
  have hlen : img.length = getSerialSize valuearray save := by
    rw [length_of_serialize himg, getSerialSize, getSerialSize, valsSize_congr hsame]
  refine ⟨stored, ?_, hstored⟩
  unfold storedVals
  rw [← hlen] at hfit hread ⊢
  simp only [Ring.contents_of_le hfit, Ring.store_read, hread]

/-- The panel with another chip, on a bus that does not fail. -/
def System.setChip (s : System) (chip : Chip) : System := { s with eeprom := (chip, []) }

/-- The memory of a chip after a save on a bus that does not fail. -/
lemma saveBlock_memory {save : Save} {s : System} {img : List Byte}
    (himg : serialize s.vals save = some img)
    (hfit : settingsAddress save + img.length ≤ chipSize) (hbus : s.eeprom.2 = []) :
    ∃ chip, saveBlock save (settingsAddress save) s = some (s.setChip chip) ∧
      chip.memory = Ring.store s.eeprom.1.memory (settingsAddress save) img := by
  have hsize := getSerialSize_ne_zero s.vals save
  have hpos : 0 < img.length := by
    rw [length_of_serialize himg]
    omega
  obtain ⟨chip, ts, hwrite, hmem, -, -⟩ := write_chip hpos hfit s.eeprom.1
  refine ⟨chip, ?_, hmem⟩
  have heeprom : s.eeprom = (s.eeprom.1, []) := by rw [← hbus]
  unfold saveBlock
  dsimp only
  rw [if_pos hsize, himg, heeprom, Option.bind_eq_bind, Option.bind_some, write_faulty hwrite,
    System.setChip]

/-- A block whose first transfer fails. -/
lemma loadBlock_fail (save : Save) (address : ℕ) (chip : Chip) (faults : List Bool)
    (vals : List Val) :
    loadBlock save address (chip, false :: faults) vals =
      some ⟨(chip, faults), vals, false, false, false⟩ := by
  have hsize := getSerialSize_ne_zero vals save
  unfold loadBlock Dev.read
  dsimp only
  rw [if_pos hsize, if_neg (by rw [List.length_replicate]; exact hsize)]
  rfl

/-- A new serial number is saved. -/
lemma step_serial {s : System} {serialNumber : BitVec 32}
    (h : s.val (position "serial_number") ≠ serialNumber.toNat) :
    step s (.serial serialNumber) =
      saveparametersSystem (assign s (position "serial_number") serialNumber.toNat) :=
  if_pos h

/-- The parameters of a panel whose brightness was set to 55. -/
def dimmed : List Val := setVal valuearray (position "brightness") 55

/-- The parameters of a panel that has read the regulator's serial number. -/
def numbered : List Val := setVal valuearray (position "serial_number") 12345

/-- **A fault at boot loses the settings.** The image of the system class in the chip is intact, and
both reads fail at the bus; then the regulator's serial number is saved. No indication is set, and
the image holds the default brightness. -/
theorem defaulted_failedReads :
    ∃ chip s t, loadParameters (chip, [false, false]) = some s ∧
      Machine.run step s [.serial 12345#32] = some t ∧ t.loadDefault .savesys = false ∧
      t.boot.loaded .savesys = false ∧ t.boot.read .savesys = false ∧ Defaulted t .savesys := by
  obtain ⟨_, -, himg⟩ := serialize_eq dimmed .savesys
  obtain ⟨before, hbefore, hentry⟩ := storedVals_store (fun _ => 0xFF) himg rfl
    (by decide +kernel) (by decide +kernel)
  generalize Ring.store _ _ _ = memory at hbefore
  obtain ⟨_, -, himg'⟩ := serialize_eq numbered .savesys
  obtain ⟨after, hafter, hentry'⟩ := storedVals_store memory himg' rfl
    (by decide +kernel) (by decide +kernel)
  have hlen := length_of_serialize himg'
  -- the panel after the boot
  let s : System := ⟨valuearray, (⟨memory, 0, []⟩, []), false, false,
    ⟨memory, byClass false false, byClass false false⟩, fun _ => false⟩
  have hboot : loadParameters (⟨memory, 0, []⟩, [false, false]) = some s := by
    simp only [loadParameters, loadBlock_fail, Option.bind_eq_bind, Option.bind_some, s]
  have hnumber : s.val (position "serial_number") ≠ (12345#32).toNat := by
    change (valuearray[position "serial_number"]?.map Val.val).getD 0 ≠ _
    decide +kernel
  obtain ⟨chip, hsave, hchip⟩ := saveBlock_memory (s := assign s (position "serial_number") 12345)
    himg' (by rw [hlen]; decide +kernel) rfl
  refine ⟨⟨memory, 0, []⟩, s, (assign s (position "serial_number") 12345).setChip chip, hboot, ?_,
    rfl, rfl, rfl, before, after, hbefore, ?_, ?_⟩
  · rw [Machine.run, step_serial hnumber]
    exact congrArg (fun o => Option.bind o some) hsave
  · rw [← hafter]
    exact congrArg (fun memory => storedVals memory .savesys) hchip
  · have hp : dimmed[position "brightness"]? = some _ := rfl
    have hq : numbered[position "brightness"]? = some _ := rfl
    have hv : valuearray[position "brightness"]? = some _ := rfl
    refine ⟨position "brightness", _, _, hentry _ _ _ hp hv, hentry' _ _ _ hq hv, rfl, rfl, ?_, ?_⟩
    · decide +kernel
    · decide +kernel

/-- **Settings do not survive a fault of the bus at boot.** -/
theorem not_sound_failedReads :
    ¬ ∀ eeprom es s t, loadParameters eeprom = some s → Machine.run step s es = some t →
      Sound t := by
  intro hall
  obtain ⟨chip, s, t, hboot, hrun, -, -, hread, hdefaulted⟩ := defaulted_failedReads
  exact (hall _ _ s t hboot hrun .savesys (by decide)).2 hread hdefaulted

end PanelFirmware.Task
