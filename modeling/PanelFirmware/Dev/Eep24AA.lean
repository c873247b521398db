import PanelFirmware.Lib.Bytes
import PanelFirmware.Lib.Ring

/-!
# `dev/src/24AAxx.cpp`: the driver of the EEPROM

`Eep24AA::write` cuts a block into transfers that end at the borders of the chip's pages of 16
bytes; the upper two bits of an address go into the device address, the lower eight into the first
byte of the transfer. `Eep24AA::read` sets the address and reads the block in one transfer.

* `write_read`: what a write leaves in a 24AA08 whose transfers succeed, the size of its transfers,
  and that a read gives the block back.
* `write_faulty`, `memory_read_faulty`: the chip on a bus on which transfers fail.
-/

namespace PanelFirmware.Dev

open PanelFirmware.Lib

/-! ### The code -/

/-- The two transfers of the bus, on its state: with the bytes to send and whether a stop condition
ends them, or with the buffer to fill. Source: `driver/i2c.h` `I2cManager`. -/
structure I2cManager (σ : Type) where
  write : σ → (devAddr : Byte) → (src : List Byte) → (needstop : Bool) → σ × Bool
  read : σ → (devAddr : Byte) → (dst : List Byte) → σ × Bool × List Byte

/-- Source: `24AAxx.cpp` `eepWrite`. -/
def eepWrite : BitVec 1 := 0

/-- Source: `24AAxx.cpp` `eepRead`. -/
def eepRead : BitVec 1 := 1

/-- Source: `24AAxx.cpp` `CONTROLCODE`. -/
def controlCode : BitVec 4 := 0xA

/-- Source: `24AAxx.cpp` `BYTESINPAGE`. -/
def bytesInPage : ℕ := 256

/-- Source: `24AAxx.cpp` `BYTESINBLOCK`. -/
def bytesInBlock : ℕ := 16

/-- The device address of a linear address. Source: `24AAxx.cpp` `eepAddress_type`. -/
def eepAddress (rw : BitVec 1) (addr : ℕ) : Byte :=
  controlCode ++ BitVec.ofNat 3 (addr / bytesInPage) ++ rw

/-- The first byte of a transfer. Source: `24AAxx.cpp` `adrInBlock`. -/
def adrInBlock (addr : ℕ) : Byte := BitVec.ofNat 8 (addr % bytesInPage)

/-- The bytes up to the next border. Source: `24AAxx.cpp` `Eep24AA::write`, `canWrite`. -/
def canWrite (dst : ℕ) : ℕ :=
  let n := (bytesInPage - dst % bytesInPage) % bytesInBlock
  if n = 0 then bytesInBlock else n

lemma canWrite_pos (dst : ℕ) : 0 < canWrite dst := by
  unfold canWrite bytesInBlock
  dsimp only
  split_ifs <;> omega

section Driver

variable {σ : Type} (i2c : I2cManager σ)

/-- The loop; `len` is the length of `pData`. Source: `24AAxx.cpp` `Eep24AA::write`,
`while(len > 0)`. -/
def writeLoop (s : σ) (dst : ℕ) (pData : List Byte) : σ × Bool :=
  if 0 < pData.length then
    if pData.length ≤ canWrite dst then
      i2c.write s (eepAddress eepWrite dst) (adrInBlock dst :: pData) true
    else
      match i2c.write s (eepAddress eepWrite dst) (adrInBlock dst :: pData.take (canWrite dst))
        true with
      | (s, true) => writeLoop s ((dst + canWrite dst) % 0x10000) (pData.drop (canWrite dst))
      | (s, false) => (s, false)
  else (s, true)
termination_by pData.length
decreasing_by
  have hpos := canWrite_pos dst
  rw [List.length_drop]
  omega

/-- The block `src` at the address `dst`. Source: `24AAxx.cpp` `Eep24AA::write`. -/
def write (s : σ) (dst : ℕ) (src : List Byte) : σ × Bool :=
  if src.length = 0 then (s, false) else writeLoop i2c s dst src

/-- The result, and the buffer afterwards. Source: `24AAxx.cpp` `Eep24AA::read`. -/
def read (s : σ) (dst : List Byte) (src : ℕ) : σ × Bool × List Byte :=
  if dst.length = 0 then (s, false, dst)
  else
    match i2c.write s (eepAddress eepWrite src) [adrInBlock src] false with
    | (s, true) => i2c.read s (eepAddress eepRead src) dst
    | (s, false) => (s, false, dst)

end Driver

/-! ### The chip -/

/-- A transfer to the chip. -/
structure Transfer where
  devAddr : Byte
  src : List Byte

/-- A 24AA08: the array, the address pointer, and a record of the transfers to it. -/
structure Chip where
  memory : ℕ → Byte
  pointer : ℕ
  transfers : List Transfer

/-- The size of the array. -/
def chipSize : ℕ := 1024

/-- The size of the page a write wraps around in. -/
def pageSize : ℕ := 16

/-- The block a device address selects. -/
def blockSelect (devAddr : Byte) : ℕ := (devAddr.extractLsb' 1 2).toNat

/-- The address a transfer starts at, and its data. -/
def Transfer.start (t : Transfer) : ℕ := 256 * blockSelect t.devAddr + (t.src.headD 0).toNat

/-- The bytes of a transfer after the address. -/
def Transfer.data (t : Transfer) : List Byte := t.src.tail

/-- The chip after a transfer to it: the first byte sets the pointer, and the data is stored when a
stop condition ends the transfer. -/
def Chip.receive (chip : Chip) (t : Transfer) (needstop : Bool) : Chip where
  memory :=
    if needstop then Ring.storeInPage pageSize chip.memory t.start t.data else chip.memory
  pointer := t.start / pageSize * pageSize + (t.start + t.data.length) % pageSize
  transfers := chip.transfers ++ [t]

/-- The chip on the bus: it acknowledges its control code, and all transfers to it succeed. -/
def Chip.i2c : I2cManager Chip where
  write chip devAddr src needstop :=
    if devAddr.extractLsb' 4 4 = controlCode then (chip.receive ⟨devAddr, src⟩ needstop, true)
    else (chip, false)
  read chip devAddr dst :=
    if devAddr.extractLsb' 4 4 = controlCode then
      ({ chip with pointer := (chip.pointer + dst.length) % chipSize }, true,
        Ring.contents chipSize chip.memory chip.pointer dst.length)
    else (chip, false, dst)

/-- The chip on a bus that fails: the list says of the transfers to come whether they succeed, and
after its end they do. A transfer that fails leaves the chip and the buffer as they were. -/
def Chip.faulty : I2cManager (Chip × List Bool) where
  write s devAddr src needstop :=
    match s.2 with
    | false :: rest => ((s.1, rest), false)
    | faults =>
        let (chip, result) := Chip.i2c.write s.1 devAddr src needstop
        ((chip, faults.tail), result)
  read s devAddr dst :=
    match s.2 with
    | false :: rest => ((s.1, rest), false, dst)
    | faults =>
        let (chip, result, buffer) := Chip.i2c.read s.1 devAddr dst
        ((chip, faults.tail), result, buffer)

/-- A transfer of at most 16 bytes of data, all for one page, and 17 in all. -/
def Transfer.InPage (t : Transfer) : Prop :=
  t.src.length ≤ 17 ∧ t.data.length ≤ 16 ∧
    ∀ i < t.data.length, (t.start + i) / pageSize = t.start / pageSize

/-! ### Addresses -/

/-- The chip takes the control code from a device address of the driver. -/
lemma controlCode_eepAddress (rw : BitVec 1) (addr : ℕ) :
    (eepAddress rw addr).extractLsb' 4 4 = controlCode := by
  unfold eepAddress
  generalize BitVec.ofNat 3 (addr / bytesInPage) = block
  revert rw block
  decide

/-- The chip takes the block from a device address of the driver. -/
lemma blockSelect_eepAddress (rw : BitVec 1) {addr : ℕ} (h : addr < chipSize) :
    blockSelect (eepAddress rw addr) = addr / 256 := by
  have hblock : ∀ (rw : BitVec 1) (b : Fin 4),
      blockSelect (controlCode ++ BitVec.ofNat 3 b ++ rw) = b := by decide
  exact hblock rw ⟨addr / 256, by unfold chipSize at h; omega⟩

/-- A transfer of the driver starts at the address it was made for. -/
lemma start_transfer {addr : ℕ} (h : addr < chipSize) (rw : BitVec 1) (data : List Byte) :
    Transfer.start ⟨eepAddress rw addr, adrInBlock addr :: data⟩ = addr := by
  unfold Transfer.start adrInBlock bytesInPage
  rw [blockSelect_eepAddress rw h, List.headD_cons, BitVec.toNat_ofNat]
  omega

/-- The bytes up to the border are the ones up to the end of the chip's page. -/
lemma canWrite_eq (dst : ℕ) : canWrite dst = 16 - dst % 16 := by
  unfold canWrite bytesInPage bytesInBlock
  dsimp only
  split_ifs <;> omega

/-! ### One transfer -/

/-- A transfer of the driver that ends at the border at most stays in its page. -/
lemma inPage_transfer {dst : ℕ} (hdst : dst < chipSize) {data : List Byte}
    (h : data.length ≤ canWrite dst) :
    Transfer.InPage ⟨eepAddress eepWrite dst, adrInBlock dst :: data⟩ := by
  rw [canWrite_eq] at h
  refine ⟨?_, ?_, ?_⟩
  · rw [List.length_cons]
    omega
  · rw [Transfer.data, List.tail_cons]
    omega
  · intro i hi
    rw [Transfer.data, List.tail_cons] at hi
    rw [start_transfer hdst]
    unfold pageSize
    omega

/-- A transfer of the driver that ends at the border at most stores its data linearly. -/
lemma memory_receive {dst : ℕ} (hdst : dst < chipSize) {data : List Byte}
    (h : data.length ≤ canWrite dst) (chip : Chip) :
    (chip.receive ⟨eepAddress eepWrite dst, adrInBlock dst :: data⟩ true).memory =
      Ring.store chip.memory dst data := by
  rw [canWrite_eq] at h
  unfold Chip.receive Transfer.data
  rw [if_pos rfl, start_transfer hdst, List.tail_cons]
  exact Ring.storeInPage_eq_store (by unfold pageSize; omega)

/-- A transfer of the driver succeeds. -/
lemma write_i2c (chip : Chip) (dst : ℕ) (src : List Byte) (needstop : Bool) :
    Chip.i2c.write chip (eepAddress eepWrite dst) src needstop =
      (chip.receive ⟨eepAddress eepWrite dst, src⟩ needstop, true) :=
  if_pos (controlCode_eepAddress eepWrite dst)

/-! ### The loop -/

/-- The loop stores a block linearly, in transfers that stay in their pages. -/
lemma writeLoop_chip {pData : List Byte} {dst : ℕ} (hfit : dst + pData.length ≤ chipSize)
    (chip : Chip) :
    ∃ chip' ts, writeLoop Chip.i2c chip dst pData = (chip', true) ∧
      chip'.memory = Ring.store chip.memory dst pData ∧
      chip'.transfers = chip.transfers ++ ts ∧ ∀ t ∈ ts, t.InPage := by
  induction hlen : pData.length using Nat.strong_induction_on generalizing pData dst chip with
  | _ n ih =>
      subst hlen
      rw [writeLoop]
      by_cases hpos : 0 < pData.length
      · have hdst : dst < chipSize := by omega
        rw [if_pos hpos]
        by_cases hlast : pData.length ≤ canWrite dst
        · rw [if_pos hlast, write_i2c]
          refine ⟨_, _, rfl, memory_receive hdst hlast chip, rfl, ?_⟩
          intro t ht
          rw [List.mem_singleton.mp ht]
          exact inPage_transfer hdst hlast
        · rw [if_neg hlast, write_i2c]
          have hcan := canWrite_pos dst
          have htake : (pData.take (canWrite dst)).length = canWrite dst := by
            rw [List.length_take]
            omega
          have hsize : (pData.drop (canWrite dst)).length = pData.length - canWrite dst :=
            List.length_drop
          have hnext : (dst + canWrite dst) % 0x10000 = dst + canWrite dst :=
            Nat.mod_eq_of_lt (by unfold chipSize at hfit; omega)
          have hrest : dst + canWrite dst + (pData.drop (canWrite dst)).length ≤ chipSize := by
            omega
          dsimp only
          rw [hnext]
          obtain ⟨chip', ts, hrun, hmem, htransfers, hpages⟩ :=
            ih (pData.length - canWrite dst) (by omega) hrest (chip.receive
              ⟨eepAddress eepWrite dst, adrInBlock dst :: pData.take (canWrite dst)⟩ true) hsize
          refine ⟨chip',
            ⟨eepAddress eepWrite dst, adrInBlock dst :: pData.take (canWrite dst)⟩ :: ts,
            hrun, ?_, ?_, ?_⟩
          · rw [hmem, memory_receive hdst htake.le]
            have hparts := Ring.store_append chip.memory dst (pData.take (canWrite dst))
              (pData.drop (canWrite dst))
            rw [List.take_append_drop, htake] at hparts
            exact hparts.symm
          · rw [htransfers]
            exact List.append_assoc _ _ _
          · intro t ht
            rcases List.mem_cons.mp ht with rfl | ht
            · exact inPage_transfer hdst htake.le
            · exact hpages t ht
      · rw [if_neg hpos]
        obtain rfl := List.eq_nil_of_length_eq_zero (Nat.eq_zero_of_not_pos hpos)
        exact ⟨chip, [], rfl, rfl, (List.append_nil _).symm, fun _ ht => absurd ht List.not_mem_nil⟩

/-! ### Blocks -/

/-- A block is read back from where it is stored. -/
lemma read_chip {src : List Byte} (hpos : 0 < src.length) {dst : ℕ}
    (hfit : dst + src.length ≤ chipSize) {memory : ℕ → Byte} {chip : Chip}
    (hmem : chip.memory = Ring.store memory dst src) {buf : List Byte}
    (hbuf : buf.length = src.length) : (read Chip.i2c chip buf dst).2 = (true, src) := by
  have hdst : dst < chipSize := by omega
  have hpointer :
      (chip.receive ⟨eepAddress eepWrite dst, [adrInBlock dst]⟩ false).pointer = dst := by
    unfold Chip.receive Transfer.data
    dsimp only
    rw [start_transfer hdst, List.tail_cons, List.length_nil, Nat.add_zero, Nat.div_add_mod']
  have hsame : (chip.receive ⟨eepAddress eepWrite dst, [adrInBlock dst]⟩ false).memory =
      chip.memory := by
    unfold Chip.receive
    rw [if_neg Bool.false_ne_true]
  unfold read
  rw [if_neg (by omega), write_i2c]
  dsimp only [Chip.i2c]
  rw [if_pos (controlCode_eepAddress eepRead dst), hpointer, hsame, hmem, hbuf,
    Ring.contents_of_le hfit, Ring.store_read]

/-- A block that fits in the chip is written. -/
lemma write_chip {src : List Byte} (hpos : 0 < src.length) {dst : ℕ}
    (hfit : dst + src.length ≤ chipSize) (chip : Chip) :
    ∃ chip' ts, write Chip.i2c chip dst src = (chip', true) ∧
      chip'.memory = Ring.store chip.memory dst src ∧
      chip'.transfers = chip.transfers ++ ts ∧ ∀ t ∈ ts, t.InPage := by
  unfold write
  rw [if_neg (by omega)]
  exact writeLoop_chip hfit chip

/-- **EEPROM blocks.** For every content of the chip, every address and every source of at least
one byte that fit in it: `write` returns true, leaves the source at the address and every other
byte as it was, in transfers of at most 16 bytes of data inside one page (17 bytes of its buffer);
a `read` of the same size from there returns true with exactly the source. -/
theorem write_read (chip : Chip) (dst : ℕ) (src : List Byte) (hpos : 0 < src.length)
    (hfit : dst + src.length ≤ 1024) :
    ∃ chip' ts, write Chip.i2c chip dst src = (chip', true) ∧
      (∀ i b, src[i]? = some b → chip'.memory (dst + i) = b) ∧
      (∀ x, x < dst ∨ dst + src.length ≤ x → chip'.memory x = chip.memory x) ∧
      chip'.transfers = chip.transfers ++ ts ∧ (∀ t ∈ ts, t.InPage) ∧
      ∀ buf : List Byte, buf.length = src.length →
        (read Chip.i2c chip' buf dst).2 = (true, src) := by
  obtain ⟨chip', ts, hrun, hmem, htransfers, hpages⟩ := write_chip hpos hfit chip
  refine ⟨chip', ts, hrun, ?_, ?_, htransfers, hpages, ?_⟩
  · intro i b hb
    obtain ⟨hi, hget⟩ := List.getElem?_eq_some_iff.mp hb
    have hstored : (List.range src.length).map
        (fun i => Ring.store chip.memory dst src (dst + i)) = src := Ring.store_read src
    have hread := congrArg (fun l : List Byte => l[i]?) hstored
    simp only [List.getElem?_map, List.getElem?_range hi, Option.map_some, hb] at hread
    rw [hmem]
    exact Option.some.inj hread
  · intro x hx
    rw [hmem]
    exact Ring.store_of_outside hx
  · intro buf hbuf
    exact read_chip hpos hfit hmem hbuf

/-- Five bytes across a border of blocks. -/
theorem write_read_border :
    ∃ chip' ts, write Chip.i2c ⟨fun _ => 0xFF, 0, []⟩ 0x0FE [1, 2, 3, 4, 5] = (chip', true) ∧
      (∀ i b, [1, 2, 3, 4, 5][i]? = some b → chip'.memory (0x0FE + i) = b) ∧
      (∀ x, x < 0x0FE ∨ 0x0FE + [1, 2, 3, 4, 5].length ≤ x → chip'.memory x = 0xFF) ∧
      chip'.transfers = [] ++ ts ∧ (∀ t ∈ ts, t.InPage) ∧
      ∀ buf : List Byte, buf.length = [1, 2, 3, 4, 5].length →
        (read Chip.i2c chip' buf 0x0FE).2 = (true, [1, 2, 3, 4, 5]) :=
  write_read ⟨fun _ => 0xFF, 0, []⟩ 0x0FE [1, 2, 3, 4, 5] (by decide) (by decide)

/-! ### A bus that fails -/

/-- While no transfer fails, a write does what it does on the bus that does not. -/
lemma write_faulty {chip chip' : Chip} {dst : ℕ} {src : List Byte}
    (h : write Chip.i2c chip dst src = (chip', true)) :
    write Chip.faulty (chip, []) dst src = ((chip', []), true) := by
  have hloop : ∀ (chip : Chip) (dst : ℕ) (pData : List Byte),
      writeLoop Chip.i2c chip dst pData = (chip', true) →
        writeLoop Chip.faulty (chip, []) dst pData = ((chip', []), true) := by
    intro chip dst pData
    induction hlen : pData.length using Nat.strong_induction_on generalizing pData dst chip with
    | _ n ih =>
        subst hlen
        intro hrun
        rw [writeLoop] at hrun ⊢
        have hcan := canWrite_pos dst
        split_ifs at hrun ⊢ with hpos hlast
        · rw [write_i2c] at hrun
          simp only [Chip.faulty, write_i2c]
          rw [← (Prod.mk.inj hrun).1]
          rfl
        · rw [write_i2c] at hrun
          simp only [Chip.faulty, write_i2c]
          exact ih _ (by rw [List.length_drop]; omega) _ _ _ rfl hrun
        · rw [← (Prod.mk.inj hrun).1]
  unfold write at h ⊢
  split_ifs at h ⊢ with hlen
  · cases h
  · exact hloop chip dst src h

/-- A read leaves the memory as it was, whatever fails. -/
lemma memory_read_faulty (s : Chip × List Bool) (buf : List Byte) (src : ℕ) :
    (read Chip.faulty s buf src).1.1.memory = s.1.memory := by
  have hwrite : ∀ s : Chip × List Bool,
      (Chip.faulty.write s (eepAddress eepWrite src) [adrInBlock src] false).1.1.memory =
        s.1.memory := by
    intro s
    simp only [Chip.faulty, write_i2c]
    split
    · rfl
    · simp only [Chip.receive, Bool.false_eq_true, if_false]
  have hread : ∀ s : Chip × List Bool,
      (Chip.faulty.read s (eepAddress eepRead src) buf).1.1.memory = s.1.memory := by
    intro s
    simp only [Chip.faulty, Chip.i2c]
    split
    · rfl
    · rw [if_pos (controlCode_eepAddress eepRead src)]
  unfold read
  split_ifs
  · rfl
  · rw [← hwrite s]
    split
    · next s' hs =>
        rw [hs]
        exact hread s'
    · next s' hs => rw [hs]

/-- A read leaves a buffer of the same size. -/
lemma length_read_faulty (s : Chip × List Bool) (buf : List Byte) (src : ℕ) :
    (read Chip.faulty s buf src).2.2.length = buf.length := by
  have hread : ∀ s : Chip × List Bool,
      (Chip.faulty.read s (eepAddress eepRead src) buf).2.2.length = buf.length := by
    intro s
    simp only [Chip.faulty, Chip.i2c]
    split
    · rfl
    · rw [if_pos (controlCode_eepAddress eepRead src)]
      exact Ring.length_contents _ _ _ _
  unfold read
  split_ifs
  · rfl
  · split
    · exact hread _
    · rfl

end PanelFirmware.Dev
