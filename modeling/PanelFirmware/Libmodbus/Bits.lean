import PanelFirmware.Lib.BitPack
import PanelFirmware.Lib.BoundedArray
import PanelFirmware.Libmodbus.Master

/-!
# `libmodbus/src/modbus.c`, `modbus-data.c`: bits

Tables hold a bit in a byte and messages eight. There is a loop for each direction at each end:
`modbus_write_bits` packs the bits of a request and `modbus_set_bits_from_bytes` puts them in a
table; `response_io_status` packs a table and `read_io_status` unpacks what it sends.

* `responseIoStatus_eq`, `writeBitsRequest_eq`: both ends pack alike.
* `setBitsFromBytes_eq`, `ioStatusValues_eq`: both ends find a bit where it was packed.
-/

namespace PanelFirmware.Libmodbus

open PanelFirmware.Lib PanelFirmware.Lib.BoundedArray

/-! ### Packing a table -/

/-- `shift`, `one_byte` and what has been put behind the header.
Source: `modbus.c` `response_io_status`. -/
structure IoStatus where
  shift : ℕ
  oneByte : ℕ
  rsp : List Byte

/-- Source: `modbus.c` `response_io_status`, the loop body. -/
def IoStatus.round (st : IoStatus) (value : Byte) : IoStatus :=
  let oneByte := st.oneByte ||| value.toNat <<< st.shift
  if st.shift = 7 then ⟨0, 0, st.rsp ++ [BitVec.ofNat 8 oneByte]⟩
  else ⟨st.shift + 1, oneByte, st.rsp⟩

/-- The loop, over the table from `address` on; `none` where it reads outside the table.
Source: `modbus.c` `response_io_status`. -/
def ioStatusLoop (tabIoStatus : List Byte) (address : ℤ) (nb : ℕ) (rsp : List Byte) :
    Option IoStatus :=
  rounds nb (fun st i => (load tabIoStatus (address + i)).map st.round) ⟨0, 0, rsp⟩

/-- Source: `modbus.c` `response_io_status`. -/
def responseIoStatus (tabIoStatus : List Byte) (address : ℤ) (nb : ℕ) (rsp : List Byte) :
    Option (List Byte) :=
  (ioStatusLoop tabIoStatus address nb rsp).map fun st =>
    if st.shift ≠ 0 then st.rsp ++ [BitVec.ofNat 8 st.oneByte] else st.rsp

/-- A bit in a byte of its own. -/
def bitByte (b : Bool) : Byte := if b then 1 else 0

/-- The loop packs the bits that it has passed. -/
structure IoStatus.Packs (f : ℕ → Bool) (n : ℕ) (rsp : List Byte) (st : IoStatus) : Prop where
  shift : st.shift = n % 8
  oneByte : BitVec.ofNat 8 st.oneByte = packedByte f n (n / 8)
  rsp : st.rsp = rsp ++ wholeBytes f n

/-- A bit put into the byte in the making. -/
lemma ofNat_or_bitByte {f : ℕ → Bool} {n oneByte : ℕ}
    (h : BitVec.ofNat 8 oneByte = packedByte f n (n / 8)) :
    BitVec.ofNat 8 (oneByte ||| (bitByte (f n)).toNat <<< (n % 8)) =
      packedByte f (n + 1) (n / 8) := by
  have hor : BitVec.ofNat 8 (oneByte ||| (bitByte (f n)).toNat <<< (n % 8)) =
      BitVec.ofNat 8 oneByte ||| bitByte (f n) <<< (n % 8) := by
    rw [BitVec.ofNat_or]
    rfl
  have hclear : packedByte f n (n / 8) &&& ~~~(1#8 <<< (n % 8)) = packedByte f n (n / 8) := by
    apply BitVec.eq_of_getLsbD_eq
    intro k hk
    rw [BitVec.getLsbD_and, BitVec.getLsbD_not, getLsbD_mask hk,
      getLsbD_packedByte f n (n / 8) hk, decide_eq_true hk]
    by_cases hbit : k = n % 8
    · rw [decide_eq_false (by omega : ¬ 8 * (n / 8) + k < n), Bool.false_and, Bool.false_and]
    · rw [decide_eq_false hbit]
      simp
  rw [hor, h, packedByte_succ]
  cases hf : f n with
  | true => rfl
  | false =>
      rw [if_neg Bool.false_ne_true, hclear]
      simp [bitByte]

/-- A round packs another bit. -/
lemma IoStatus.Packs.round {f : ℕ → Bool} {n : ℕ} {rsp : List Byte} {st : IoStatus}
    (h : st.Packs f n rsp) : (st.round (bitByte (f n))).Packs f (n + 1) rsp := by
  have hbyte := ofNat_or_bitByte h.oneByte
  rw [← h.shift] at hbyte
  by_cases hfull : n % 8 = 7
  · have hround : st.round (bitByte (f n)) = ⟨0, 0, st.rsp ++
        [BitVec.ofNat 8 (st.oneByte ||| (bitByte (f n)).toNat <<< st.shift)]⟩ :=
      if_pos (h.shift.trans hfull)
    rw [hround]
    refine ⟨?_, ?_, ?_⟩
    · simp only
      omega
    · rw [packedByte_of_ge (by omega)]
    · simp only
      rw [hbyte, h.rsp, wholeBytes_succ_of_mod hfull, List.append_assoc]
  · have hround : st.round (bitByte (f n)) =
        ⟨st.shift + 1, st.oneByte ||| (bitByte (f n)).toNat <<< st.shift, st.rsp⟩ :=
      if_neg (fun h7 => hfull (h.shift.symm.trans h7))
    rw [hround]
    refine ⟨?_, ?_, ?_⟩
    · simp only
      rw [h.shift]
      omega
    · simp only
      rw [hbyte, show (n + 1) / 8 = n / 8 by omega]
    · simp only
      rw [h.rsp, wholeBytes_succ_of_mod_ne hfull]

/-- The loop over a table of bits. -/
lemma ioStatusLoop_packs {f : ℕ → Bool} {tabIoStatus : List Byte} {address : ℤ} {nb : ℕ}
    (h : ∀ i : ℕ, i < nb → load tabIoStatus (address + i) = some (bitByte (f i)))
    (rsp : List Byte) :
    ∃ st, ioStatusLoop tabIoStatus address nb rsp = some st ∧ st.Packs f nb rsp := by
  refine rounds_spec (P := fun n (st : IoStatus) => st.Packs f n rsp) ?_ ?_
  · refine ⟨rfl, ?_, (List.append_nil rsp).symm⟩
    rw [packedByte_of_ge (Nat.le_refl 0)]
  · intro i hi st hst
    exact ⟨st.round (bitByte (f i)), by rw [h i hi, Option.map_some], hst.round⟩

/-- **A table of bits is packed.** -/
theorem responseIoStatus_eq {f : ℕ → Bool} {tabIoStatus : List Byte} {address : ℤ} {nb : ℕ}
    (h : ∀ i : ℕ, i < nb → load tabIoStatus (address + i) = some (bitByte (f i)))
    (rsp : List Byte) :
    responseIoStatus tabIoStatus address nb rsp = some (rsp ++ packBits f nb) := by
  obtain ⟨st, hloop, hpacks⟩ := ioStatusLoop_packs h rsp
  rw [responseIoStatus, hloop, Option.map_some, hpacks.shift]
  by_cases hmod : nb % 8 = 0
  · rw [if_neg (not_not_intro hmod), hpacks.rsp, packBits_of_mod hmod]
  · rw [if_pos hmod, hpacks.rsp, hpacks.oneByte, packBits_of_mod_ne hmod, List.append_assoc]

/-- A table of any bytes takes as much room. -/
lemma length_responseIoStatus {tabIoStatus : List Byte} {address : ℤ} {nb : ℕ}
    {rsp rsp' : List Byte} (h : responseIoStatus tabIoStatus address nb rsp = some rsp') :
    rsp'.length = rsp.length + (nb + 7) / 8 := by
  obtain ⟨st, hloop, hrsp⟩ := Option.map_eq_some_iff.mp h
  obtain ⟨hshift, hlength⟩ : st.shift = nb % 8 ∧ st.rsp.length = rsp.length + nb / 8 := by
    refine rounds_keeps (P := fun n (st : IoStatus) =>
      st.shift = n % 8 ∧ st.rsp.length = rsp.length + n / 8) hloop ⟨rfl, rfl⟩ ?_
    rintro n _ st st' ⟨hshift, hlength⟩ hround
    obtain ⟨value, -, rfl⟩ := Option.map_eq_some_iff.mp hround
    simp only [IoStatus.round, hshift]
    split_ifs with hfull
    · simp only [List.length_append, hlength, List.length_singleton]
      omega
    · simp only [hlength]
      omega
  rw [← hrsp, hshift]
  split_ifs with hmod
  · rw [List.length_append, hlength, List.length_singleton]
    omega
  · rw [hlength]
    omega

/-- A range of a table is packed without a read outside it. -/
lemma responseIoStatus_isSome (tabIoStatus : List Byte) {address : ℤ} {nb : ℕ}
    (h0 : 0 ≤ address) (h : address + nb ≤ tabIoStatus.length) (rsp : List Byte) :
    ∃ rsp', responseIoStatus tabIoStatus address nb rsp = some rsp' := by
  obtain ⟨st, hloop, -⟩ : ∃ st, ioStatusLoop tabIoStatus address nb rsp = some st ∧ True := by
    refine rounds_spec (P := fun _ _ => True) trivial fun i hi st _ => ?_
    have hlt : (address + i).toNat < tabIoStatus.length := by omega
    exact ⟨_, by rw [load_of_lt (by omega) hlt, Option.map_some], trivial⟩
  exact ⟨_, by rw [responseIoStatus, hloop, Option.map_some]⟩

/-! ### Unpacking into a table -/

/-- The loop, with `shift`; `none` where it writes outside the table. `idx` is not negative where it
is called. Source: `modbus-data.c` `modbus_set_bits_from_bytes`. -/
def setBitsLoop (idx : ℤ) (tabByte : ℕ → Byte) (nbBits : ℕ) (dest : List Byte) :
    Option (List Byte × ℕ) :=
  rounds nbBits
    (fun st i =>
      (store st.1 (idx + i) (if tabByte (i / 8) &&& 1#8 <<< st.2 ≠ 0 then 1 else 0)).map
        fun dest => (dest, (st.2 + 1) % 8))
    (dest, 0)

/-- Source: `modbus-data.c` `modbus_set_bits_from_bytes`. -/
def setBitsFromBytes (dest : List Byte) (idx : ℤ) (nbBits : ℕ) (tabByte : ℕ → Byte) :
    Option (List Byte) :=
  (setBitsLoop idx tabByte nbBits dest).map Prod.fst

/-- The value that is stored for a bit. -/
lemma maskedBit_eq (b : Byte) {k : ℕ} (hk : k < 8) :
    (if b &&& 1#8 <<< k ≠ 0 then (1 : Byte) else 0) = bitByte (b.getLsbD k) := by
  have hbit : b &&& 1#8 <<< k ≠ 0 ↔ b.getLsbD k = true := by
    constructor
    · intro hne
      by_contra hclear
      apply hne
      apply BitVec.eq_of_getLsbD_eq
      intro j hj
      rw [BitVec.getLsbD_and, getLsbD_mask hj]
      by_cases hjk : j = k
      · rw [hjk, Bool.eq_false_iff.mpr hclear]
        simp
      · rw [decide_eq_false hjk]
        simp
    · intro hset hzero
      have hk' := congrArg (fun v : Byte => v.getLsbD k) hzero
      simp only [BitVec.getLsbD_and, getLsbD_mask hk, hset, decide_true, Bool.and_true] at hk'
      simp at hk'
  rw [bitByte]
  exact if_congr hbit rfl rfl

/-- The shift follows the bits that have been passed. -/
lemma setBitsLoop_eq (idx : ℤ) (tabByte : ℕ → Byte) (nbBits : ℕ) (dest : List Byte) :
    setBitsLoop idx tabByte nbBits dest =
      (storeAll dest idx nbBits fun i => bitByte (bitOf tabByte i)).map
        fun dest => (dest, nbBits % 8) := by
  induction nbBits with
  | zero => rfl
  | succ n ih =>
      rw [setBitsLoop, rounds_succ, ← setBitsLoop, ih, storeAll_succ, Option.bind_map,
        Option.map_bind]
      refine Option.bind_congr fun dest _ => ?_
      simp only [Function.comp_apply, maskedBit_eq _ (Nat.mod_lt n (by decide : 8 > 0)),
        Nat.mod_add_mod]
      rfl

/-- **The bits that are set are those of the bytes.** -/
theorem setBitsFromBytes_eq (dest : List Byte) (idx : ℤ) (nbBits : ℕ) (tabByte : ℕ → Byte) :
    setBitsFromBytes dest idx nbBits tabByte =
      storeAll dest idx nbBits fun i => bitByte (bitOf tabByte i) := by
  rw [setBitsFromBytes, setBitsLoop_eq, Option.map_map]
  exact congrFun Option.map_id _

/-! ### Packing a request -/

/-- `bit_check`, `pos` and the byte in the making. Source: `modbus.c` `modbus_write_bits`. -/
structure WriteBits where
  bitCheck : ℕ
  pos : ℕ
  byte : Byte

/-- The inner loop, with the rounds that are left until `bit & 0xFF` is zero.
Source: `modbus.c` `modbus_write_bits`, `while ((bit & 0xFF) && (bit_check++ < nb))`. -/
def writeBitsRounds (src : ℕ → Byte) (nb : ℤ) : ℕ → Byte → WriteBits → WriteBits
  | 0, _, st => st
  | rounds + 1, bit, st =>
      if st.bitCheck < nb then
        writeBitsRounds src nb rounds (bit <<< 1)
          ⟨st.bitCheck + 1, st.pos + 1,
            if src st.pos ≠ 0 then st.byte ||| bit else st.byte &&& ~~~bit⟩
      else { st with bitCheck := st.bitCheck + 1 }

/-- The outer loop: the bytes of the request and the counters.
Source: `modbus.c` `modbus_write_bits`, `for (i = 0; i < byte_count; i++)`. -/
def writeBitsLoop (src : ℕ → Byte) (nb : ℤ) (byteCount : ℕ) : List Byte × WriteBits :=
  (List.range byteCount).foldl
    (fun acc _ =>
      let st := writeBitsRounds src nb 8 0x01 { acc.2 with byte := 0 }
      (acc.1 ++ [st.byte], st))
    ([], ⟨0, 0, 0⟩)

/-- Source: `modbus.c` `modbus_write_bits`, `byte_count`. -/
def bitsByteCount (nb : ℤ) : ℤ := nb.tdiv 8 + if nb.tmod 8 ≠ 0 then 1 else 0

/-- Source: `modbus.c` `modbus_write_bits`. -/
def writeBitsRequest (ctxSlave : Byte) (addr nb : ℤ) (src : ℕ → Byte) : List Byte :=
  buildRequestBasis ctxSlave fcWriteMultipleCoils addr nb ++ [BitVec.ofInt 8 (bitsByteCount nb)] ++
    (writeBitsLoop src nb (bitsByteCount nb).toNat).1

/-- The bits of an array of bytes: those that are not zero. -/
def nonzero (src : ℕ → Byte) (i : ℕ) : Bool := decide (src i ≠ 0)

/-- The inner loop goes on until the byte is full or the bits are packed. -/
lemma writeBitsRounds_eq (src : ℕ → Byte) (nb i : ℕ) {k rounds : ℕ} (hk : k + rounds = 8)
    (hnb : 8 * i + k ≤ nb) :
    (writeBitsRounds src nb rounds (1#8 <<< k)
      ⟨8 * i + k, 8 * i + k, packedByte (nonzero src) (8 * i + k) i⟩).byte =
        packedByte (nonzero src) (min nb (8 * i + 8)) i ∧
    (8 * i + 8 ≤ nb → writeBitsRounds src nb rounds (1#8 <<< k)
      ⟨8 * i + k, 8 * i + k, packedByte (nonzero src) (8 * i + k) i⟩ =
        ⟨8 * i + 8, 8 * i + 8, packedByte (nonzero src) (8 * i + 8) i⟩) := by
  induction rounds generalizing k with
  | zero =>
      obtain rfl : k = 8 := hk
      rw [min_eq_right hnb]
      exact ⟨rfl, fun _ => rfl⟩
  | succ rounds ih =>
      rw [writeBitsRounds]
      by_cases hlt : 8 * i + k < nb
      · have hbyte : (if src (8 * i + k) ≠ 0 then
            packedByte (nonzero src) (8 * i + k) i ||| 1#8 <<< k
            else packedByte (nonzero src) (8 * i + k) i &&& ~~~(1#8 <<< k)) =
            packedByte (nonzero src) (8 * i + (k + 1)) i := by
          have hsucc := packedByte_succ (nonzero src) (8 * i + k)
          rw [show (8 * i + k) / 8 = i by omega, show (8 * i + k) % 8 = k by omega] at hsucc
          rw [← Nat.add_assoc, hsucc]
          exact if_congr (by rw [nonzero, decide_eq_true_iff]) rfl rfl
        have hmask : 1#8 <<< k <<< 1 = 1#8 <<< (k + 1) := BitVec.shiftLeft_add _ _ _ |>.symm
        simp only
        rw [if_pos (by exact_mod_cast hlt), hbyte, hmask]
        exact ih (by omega) (by omega)
      · simp only
        rw [if_neg (by exact_mod_cast hlt)]
        refine ⟨?_, fun hle => by omega⟩
        rw [show min nb (8 * i + 8) = 8 * i + k by omega]

/-- The outer loop packs the bytes it has passed. -/
lemma writeBitsLoop_eq (src : ℕ → Byte) (nb : ℕ) {n : ℕ} (hn : n ≤ (nb + 7) / 8) :
    (writeBitsLoop src nb n).1 = (List.range n).map (packedByte (nonzero src) nb) ∧
      (8 * n ≤ nb → (writeBitsLoop src nb n).2.bitCheck = 8 * n ∧
        (writeBitsLoop src nb n).2.pos = 8 * n) := by
  induction n with
  | zero => exact ⟨rfl, fun _ => ⟨rfl, rfl⟩⟩
  | succ n ih =>
      obtain ⟨hbytes, hcounters⟩ := ih (by omega)
      obtain ⟨hcheck, hpos⟩ := hcounters (by omega)
      have hstart : { (writeBitsLoop src nb n).2 with byte := 0 } =
          (⟨8 * n + 0, 8 * n + 0, packedByte (nonzero src) (8 * n + 0) n⟩ : WriteBits) := by
        rw [packedByte_of_ge (Nat.le_refl (8 * n + 0))]
        exact congrArg₂ (fun c p => (⟨c, p, 0⟩ : WriteBits)) hcheck hpos
      have hstep : writeBitsLoop src nb (n + 1) =
          ((writeBitsLoop src nb n).1 ++ [(writeBitsRounds src nb 8 (1#8 <<< 0)
            ⟨8 * n + 0, 8 * n + 0, packedByte (nonzero src) (8 * n + 0) n⟩).byte],
          writeBitsRounds src nb 8 (1#8 <<< 0)
            ⟨8 * n + 0, 8 * n + 0, packedByte (nonzero src) (8 * n + 0) n⟩) := by
        rw [writeBitsLoop, List.range_succ, List.foldl_append, List.foldl_cons, List.foldl_nil,
          ← writeBitsLoop, hstart]
        rfl
      obtain ⟨hbyte, hnext⟩ := writeBitsRounds_eq src nb n (Nat.zero_add 8) (by omega)
      rw [hstep]
      constructor
      · rw [hbytes, hbyte, List.range_succ, List.map_append, List.map_singleton]
        rw [packedByte_min]
      · intro hle
        simp only
        rw [hnext (by omega)]
        exact ⟨rfl, rfl⟩

/-- The number of bytes of a request. -/
lemma bitsByteCount_natCast (nb : ℕ) : bitsByteCount nb = ((nb + 7) / 8 : ℕ) := by
  rw [bitsByteCount, Int.tdiv_eq_ediv_of_nonneg (Int.natCast_nonneg nb),
    Int.tmod_eq_emod_of_nonneg (Int.natCast_nonneg nb)]
  split_ifs with h <;> omega

/-- **The bits of a request are packed.** -/
theorem writeBitsRequest_eq (ctxSlave : Byte) (addr : ℤ) (nb : ℕ) (src : ℕ → Byte) :
    writeBitsRequest ctxSlave addr nb src =
      buildRequestBasis ctxSlave fcWriteMultipleCoils addr nb ++
        [BitVec.ofNat 8 ((nb + 7) / 8)] ++ packBits (nonzero src) nb := by
  rw [writeBitsRequest, bitsByteCount_natCast, Int.toNat_natCast,
    (writeBitsLoop_eq src nb (Nat.le_refl _)).1]
  rfl

/-! ### Unpacking an answer -/

/-- The rounds over the bits of a byte; `pos` is the number of values that have been stored.
Source: `modbus.c` `read_io_status`, the inner loop. -/
def ioStatusByte (nb : ℤ) (temp : Byte) (dest : List Byte) : List Byte :=
  (List.range 8).foldl
    (fun dest k =>
      if dest.length < nb then dest ++ [if temp &&& 1#8 <<< k ≠ 0 then 1 else 0] else dest)
    dest

/-- Source: `modbus.c` `read_io_status`, the outer loop. -/
def ioStatusValues (rsp : Buffer) (rc : ℕ) (nb : ℤ) : List Byte :=
  (List.range rc).foldl (fun dest i => ioStatusByte nb (rsp (3 + i)) dest) []

variable {σ : Type}

/-- Source: `modbus.c` `read_io_status`. -/
def readIoStatus (ctxSlave : Byte) (line : Line σ) (s : σ) (function : Byte) (addr nb : ℤ)
    (errno : ℕ) : Read σ Byte :=
  let x := transact ctxSlave line s (buildRequestBasis ctxSlave function addr nb) errno
  if x.ret.rc = -1 then ⟨x.ret, [], x.line⟩
  else ⟨x.ret, ioStatusValues x.rsp x.ret.rc.toNat nb, x.line⟩

/-- Source: `modbus.h` `MODBUS_MAX_READ_BITS`. -/
def modbusMaxReadBits : ℤ := 2000
/-- Source: `modbus.h` `MODBUS_MAX_WRITE_BITS`. -/
def modbusMaxWriteBits : ℤ := 1968

/-- The body of the two calls that read bits. Source: `modbus.c` `modbus_read_bits`. -/
def readBitsWith (ctxSlave : Byte) (line : Line σ) (s : σ) (function : Byte) (addr nb : ℤ)
    (errno : ℕ) : Read σ Byte :=
  if modbusMaxReadBits < nb then ⟨⟨-1, embmdata⟩, [], s⟩
  else
    let x := readIoStatus ctxSlave line s function addr nb errno
    if x.ret.rc = -1 then ⟨⟨-1, x.ret.errno⟩, x.dest, x.line⟩
    else ⟨⟨nb, x.ret.errno⟩, x.dest, x.line⟩

/-- Source: `modbus.c` `modbus_read_bits`. -/
def modbusReadBits (ctxSlave : Byte) (line : Line σ) (s : σ) (addr nb : ℤ) (errno : ℕ) :
    Read σ Byte :=
  readBitsWith ctxSlave line s fcReadCoils addr nb errno

/-- Source: `modbus.c` `modbus_read_input_bits`. -/
def modbusReadInputBits (ctxSlave : Byte) (line : Line σ) (s : σ) (addr nb : ℤ) (errno : ℕ) :
    Read σ Byte :=
  readBitsWith ctxSlave line s fcReadDiscreteInputs addr nb errno

/-- Source: `modbus.c` `modbus_write_bits`. -/
def modbusWriteBits (ctxSlave : Byte) (line : Line σ) (s : σ) (addr nb : ℤ) (src : ℕ → Byte)
    (errno : ℕ) : Return × σ :=
  if modbusMaxWriteBits < nb then (⟨-1, embmdata⟩, s)
  else (transact ctxSlave line s (writeBitsRequest ctxSlave addr nb src) errno).status

/-- The rounds store bits until there are enough. -/
lemma ioStatusByte_eq (bytes : ℕ → Byte) {nb i : ℕ} (hi : 8 * i ≤ nb) :
    ioStatusByte nb (bytes i) ((List.range (8 * i)).map fun j => bitByte (bitOf bytes j)) =
      (List.range (min nb (8 * i + 8))).map fun j => bitByte (bitOf bytes j) := by
  have hrounds : ∀ k, k ≤ 8 →
      (List.range k).foldl
        (fun dest k =>
          if (dest.length : ℤ) < (nb : ℤ) then
            dest ++ [if bytes i &&& 1#8 <<< k ≠ 0 then (1 : Byte) else 0]
          else dest)
        ((List.range (8 * i)).map fun j => bitByte (bitOf bytes j)) =
      (List.range (min nb (8 * i + k))).map fun j => bitByte (bitOf bytes j) := by
    intro k
    induction k with
    | zero =>
        intro _
        rw [List.range_zero, List.foldl_nil, Nat.add_zero, min_eq_right hi]
    | succ k ih =>
        intro hk
        rw [List.range_succ, List.foldl_append, List.foldl_cons, List.foldl_nil, ih (by omega)]
        simp only [List.length_map, List.length_range]
        by_cases hlt : 8 * i + k < nb
        · rw [min_eq_right hlt.le, if_pos (by exact_mod_cast hlt), maskedBit_eq _ (by omega),
            show min nb (8 * i + (k + 1)) = 8 * i + k + 1 by omega, List.range_succ,
            List.map_append, List.map_singleton, bitOf, show (8 * i + k) / 8 = i by omega,
            show (8 * i + k) % 8 = k by omega]
        · rw [show min nb (8 * i + k) = nb by omega, if_neg (by omega),
            show min nb (8 * i + (k + 1)) = nb by omega]
  exact hrounds 8 (Nat.le_refl 8)

/-- **The values that are stored are the bits of the answer.** -/
theorem ioStatusValues_eq (rsp : Buffer) (nb : ℕ) :
    ioStatusValues rsp ((nb + 7) / 8) nb =
      (List.range nb).map fun j => bitByte (bitOf (fun i => rsp (3 + i)) j) := by
  have hloop : ∀ n, n ≤ (nb + 7) / 8 → ioStatusValues rsp n nb =
      (List.range (min nb (8 * n))).map fun j => bitByte (bitOf (fun i => rsp (3 + i)) j) := by
    intro n
    induction n with
    | zero =>
        intro _
        rw [Nat.mul_zero, Nat.min_zero]
        rfl
    | succ n ih =>
        intro hn
        have hstep : ioStatusValues rsp (n + 1) nb =
            ioStatusByte nb (rsp (3 + n)) (ioStatusValues rsp n nb) := by
          rw [ioStatusValues, List.range_succ, List.foldl_append, List.foldl_cons, List.foldl_nil]
          rfl
        have hle : 8 * n ≤ nb := by omega
        rw [hstep, ih (by omega), min_eq_right hle]
        exact ioStatusByte_eq (fun i => rsp (3 + i)) hle
  rw [hloop _ (Nat.le_refl _), show min nb (8 * ((nb + 7) / 8)) = nb by omega]

end PanelFirmware.Libmodbus
