import PanelFirmware.Prm.Val
import PanelFirmware.Utils.Crc

/-!
# `prmsystem/src/prmSystem.cpp`: the stored image of a save class

The store is `valuearray`, a list of parameters in table order. `getSerialSize`, `serialize` and
`deserialize` are three independent walks of it: they count, write and read the parameters of one
save class behind a two-byte magic and in front of a two-byte CRC.

* `serialize_deserialize`: an image written by one store is accepted by any other store over the
  same table, which then holds the written values in the image's class and its own elsewhere.
* `deserialize_burst`: an image damaged within sixteen consecutive bits is rejected.
-/

namespace PanelFirmware.Prm

open PanelFirmware.Lib PanelFirmware.Utils

/-- Source: `prmSystem.cpp` `magic`. -/
def magic : ℕ := 0x2805

/-- The size of the parameters of a class, before magic and CRC.
Source: `prmSystem.cpp` `getSerialSize`, its loop. -/
def valsSize (save : Save) : List Val → ℕ
  | [] => 0
  | p :: ps => if save = p.getsave then p.getsize + valsSize save ps else valsSize save ps

/-- Source: `prmSystem.cpp` `getSerialSize` (`sizeof(magic)` and `sizeof(crc_t)` are 2). -/
def getSerialSize (vals : List Val) (save : Save) : ℕ := valsSize save vals + 2 + 2

/-- The bytes of the parameters of a class, in table order.
Source: `prmSystem.cpp` `serialize`, its loop. -/
def serializeVals (save : Save) : List Val → List Byte
  | [] => []
  | p :: ps =>
      if save = p.getsave then p.serialize ++ serializeVals save ps else serializeVals save ps

/-- The bytes written at `dst`: magic, parameters, CRC of both.
Source: `prmSystem.cpp` `serialize`. -/
def serialize (vals : List Val) (save : Save) : Option (List Byte) := do
  let body := toBytesLE 2 magic ++ serializeVals save vals
  let crc ← crc16Calc crcModBus body
  some (body ++ toBytesLE 2 crc.toNat)

/-- The store after the reading loop; each parameter of the class judges its own bytes.
Source: `prmSystem.cpp` `deserialize`, its loop. -/
def deserializeVals (save : Save) : List Val → List Byte → List Val
  | [], _ => []
  | p :: ps, src =>
      if save = p.getsave then
        (p.deserialize src).2 :: deserializeVals save ps (src.drop p.getsize)
      else p :: deserializeVals save ps src

/-- The verdict and the store afterwards; `src` is the memory from the pointer on.
Source: `prmSystem.cpp` `deserialize`. -/
def deserialize (vals : List Val) (save : Save) (src : List Byte) (size : ℕ) :
    Option (Bool × List Val) := do
  if ofBytesLE (src.take 2) ≠ magic then some (false, vals)
  else
    let crc ← crc16Calc crcModBus (src.take size)
    if crc ≠ 0 then some (false, vals)
    else some (true, deserializeVals save vals (src.drop 2))

/-! ### The three walks agree -/

/-- Two stores over one table. -/
def SameTable (vals others : List Val) : Prop := others.map Val.handler = vals.map Val.handler

/-- The writer's loop writes what the counter's loop counts. -/
@[simp] lemma length_serializeVals (save : Save) (vals : List Val) :
    (serializeVals save vals).length = valsSize save vals := by
  induction vals with
  | nil => rfl
  | cons p ps ih =>
      unfold serializeVals valsSize
      split_ifs <;> simp [ih]

/-- The counter reads the table only. -/
lemma valsSize_congr {vals others : List Val} (h : SameTable vals others) (save : Save) :
    valsSize save others = valsSize save vals := by
  induction vals generalizing others with
  | nil =>
      obtain rfl : others = [] := by simpa [SameTable] using h
      rfl
  | cons p ps ih =>
      cases others with
      | nil => simp [SameTable] at h
      | cons q qs =>
          simp only [SameTable, List.map_cons, List.cons.injEq] at h
          have hsave : q.getsave = p.getsave := by rw [Val.getsave, h.1, Val.getsave]
          have hsize : q.getsize = p.getsize := by rw [Val.getsize, h.1, Val.getsize]
          rw [valsSize, valsSize, hsave, hsize, ih h.2]

/-- The body of an image is not empty. -/
lemma body_ne_nil (save : Save) (vals : List Val) :
    toBytesLE 2 magic ++ serializeVals save vals ≠ [] := by
  simp [toBytesLE]

/-- An image is its body and the CRC of its body, and is as long as announced. -/
lemma serialize_eq (vals : List Val) (save : Save) :
    ∃ crc, crc16Calc crcModBus (toBytesLE 2 magic ++ serializeVals save vals) = some crc ∧
      serialize vals save =
        some (toBytesLE 2 magic ++ serializeVals save vals ++ toBytesLE 2 crc.toNat) := by
  refine ⟨_, crc16Calc_crcModBus (body_ne_nil save vals), ?_⟩
  simp only [serialize, crc16Calc_crcModBus (body_ne_nil save vals)]
  rfl

/-- **The writer writes exactly `getSerialSize` bytes.** -/
theorem length_of_serialize {vals : List Val} {save : Save} {img : List Byte}
    (h : serialize vals save = some img) : img.length = getSerialSize vals save := by
  obtain ⟨crc, -, heq⟩ := serialize_eq vals save
  rw [heq, Option.some.injEq] at h
  rw [← h]
  simp [getSerialSize]
  omega

/-- The checksum over a whole image is zero. -/
lemma crc_of_serialize {vals : List Val} {save : Save} {img : List Byte}
    (h : serialize vals save = some img) : crc16Calc crcModBus img = some 0#16 := by
  obtain ⟨crc, hcrc, heq⟩ := serialize_eq vals save
  rw [heq, Option.some.injEq] at h
  rw [← h]
  exact crc16Calc_append_crc (body_ne_nil save vals) hcrc

/-! ### Reading back -/

/-- The store that holds the parameters of class `save` from `vals` and the others from
`others`. -/
def overlay (save : Save) (vals others : List Val) : List Val :=
  List.zipWith (fun (p q : Val) => if save = p.getsave then p else q) vals others

/-- An entry of the overlaid store. -/
lemma getElem?_overlay {save : Save} {vals others : List Val} {i : ℕ} {p q : Val}
    (hp : vals[i]? = some p) (hq : others[i]? = some q) :
    (overlay save vals others)[i]? = some (if save = p.getsave then p else q) := by
  simp [overlay, List.getElem?_zipWith, hp, hq]

/-- The reader's loop, fed what the writer's loop wrote and anything after it, overlays the
written class. -/
lemma deserializeVals_serializeVals {save : Save} {vals others : List Val}
    (hsame : SameTable vals others) (hr : ∀ p ∈ vals, p.getsave = save → p.InRange)
    (rest : List Byte) :
    deserializeVals save others (serializeVals save vals ++ rest) = overlay save vals others := by
  induction vals generalizing others with
  | nil =>
      obtain rfl : others = [] := by simpa [SameTable] using hsame
      rfl
  | cons p ps ih =>
      cases others with
      | nil => simp [SameTable] at hsame
      | cons q qs =>
          simp only [SameTable, List.map_cons, List.cons.injEq] at hsame
          have hsave : q.getsave = p.getsave := by rw [Val.getsave, hsame.1, Val.getsave]
          have hsize : q.getsize = p.serialize.length := by
            rw [Val.length_serialize, Val.getsize, hsame.1, Val.getsize]
          have hrest := ih hsame.2 fun r hmem => hr r (List.mem_cons_of_mem _ hmem)
          unfold overlay at hrest ⊢
          rw [deserializeVals, serializeVals, List.zipWith_cons_cons, hsave]
          by_cases hs : save = p.getsave
          · have hread := Val.deserialize_serialize hsame.1 (hr p List.mem_cons_self hs.symm)
              (serializeVals save ps ++ rest)
            simp only [if_pos hs, List.append_assoc, hread, hsize, List.drop_left, hrest]
          · simp only [if_neg hs, hrest]

/-- **Persistence round trip.** The image of a class, written from a store in which the class is
in range, is exactly `getSerialSize` bytes long; `deserialize` of it on any other store over the
same table returns true, gives every parameter of the class the written value and leaves every
other parameter as it was. -/
theorem serialize_deserialize (vals others : List Val) (save : Save)
    (hsame : SameTable vals others) (hr : ∀ p ∈ vals, p.getsave = save → p.InRange) :
    ∃ img, serialize vals save = some img ∧ img.length = getSerialSize vals save ∧
      ∃ vals', deserialize others save img (getSerialSize others save) = some (true, vals') ∧
        vals'.length = others.length ∧
        ∀ (i : ℕ) (p q : Val), vals[i]? = some p → others[i]? = some q →
          vals'[i]? = some (if save = p.getsave then p else q) := by
  obtain ⟨crc, hcrc, himg⟩ := serialize_eq vals save
  have hlen := length_of_serialize himg
  have hzero := crc_of_serialize himg
  refine ⟨_, himg, hlen, overlay save vals others, ?_, ?_, fun i p q hp hq =>
    getElem?_overlay hp hq⟩
  · have hsize : getSerialSize others save = getSerialSize vals save := by
      rw [getSerialSize, getSerialSize, valsSize_congr hsame]
    have hmagic : ofBytesLE ((toBytesLE 2 magic ++ serializeVals save vals ++
        toBytesLE 2 crc.toNat).take 2) = magic := by
      rw [List.append_assoc, List.take_left' (by simp), ofBytesLE_toBytesLE]
      rfl
    have hdrop : (toBytesLE 2 magic ++ serializeVals save vals ++ toBytesLE 2 crc.toNat).drop 2
        = serializeVals save vals ++ toBytesLE 2 crc.toNat := by
      rw [List.append_assoc, List.drop_left' (by simp)]
    unfold deserialize
    rw [hmagic, if_neg (by simp), hsize, List.take_of_length_le hlen.le, hzero, hdrop]
    simp [deserializeVals_serializeVals hsame hr]
  · have hl : others.length = vals.length := by simpa using congrArg List.length hsame
    simp [overlay, hl]

/-- A table of three types and two classes. -/
def sampleTable : List ValHandler :=
  [ ⟨"on", .bool, 1, 0, 1, 0, 0, 0, 0, 0, .savesys, none, by decide, by decide, by decide,
      by decide, by decide⟩,
    ⟨"limit", .int64, 0x1234, 0, 0xFFFF, 1, 10, 0, 0, 0, .saveuse, none, by decide, by decide,
      by decide, by decide, by decide⟩,
    ⟨"gain", .float, 0x3F800000, 0, 0x7F7FFFFF, 0, 0, 0, 0, 0, .savesys, none, by decide,
      by decide, by decide, by decide, by decide⟩ ]

/-- A store over it in which every parameter has been set. -/
def sampleVals : List Val :=
  [ ⟨sampleTable.get ⟨0, by decide⟩, 0, by decide⟩,
    ⟨sampleTable.get ⟨1, by decide⟩, 0x42, by decide⟩,
    ⟨sampleTable.get ⟨2, by decide⟩, 0x40490FDB, by decide⟩ ]

/-- The system class of that store is read onto the defaults. -/
theorem sampleTable_roundTrip :
    ∃ img, serialize sampleVals .savesys = some img ∧
      img.length = getSerialSize sampleVals .savesys ∧
      ∃ vals', deserialize (sampleTable.map Val.new) .savesys img
          (getSerialSize (sampleTable.map Val.new) .savesys) = some (true, vals') ∧
        vals'.length = (sampleTable.map Val.new).length ∧
        ∀ (i : ℕ) (p q : Val), sampleVals[i]? = some p →
          (sampleTable.map Val.new)[i]? = some q →
          vals'[i]? = some (if .savesys = p.getsave then p else q) :=
  serialize_deserialize sampleVals (sampleTable.map Val.new) .savesys rfl (by decide)

/-! ### Damaged images -/

/-- **Burst rejection.** Let `img` be the image of a class, of any length, and `e` a damage with
a set bit, whose set bits lie in a window of sixteen consecutive bits of the image, anywhere in
it. Then `deserialize` of the damaged image returns false and changes no parameter. -/
theorem deserialize_burst (vals others : List Val) (save : Save) (hsame : SameTable vals others)
    (img e : List Byte) (himg : serialize vals save = some img) (hlen : e.length = img.length)
    (start : ℕ) (hset : true ∈ bytesBits e)
    (hwin : ∀ i, (bytesBits e)[i]? = some true → start ≤ i ∧ i < start + 16) :
    deserialize others save (xorBytes img e) (getSerialSize others save)
      = some (false, others) := by
  have hsize : getSerialSize others save = img.length := by
    rw [length_of_serialize himg, getSerialSize, getSerialSize, valsSize_congr hsame]
  have hne := crc16Calc_burst hlen (crc_of_serialize himg) start hset hwin
  have hdam : xorBytes img e ≠ [] := by
    rw [← List.length_pos_iff, length_xorBytes hlen, ← hsize]
    simp [getSerialSize]
  have hcalc := crc16Calc_crcModBus hdam
  unfold deserialize
  rw [hsize, List.take_of_length_le (length_xorBytes hlen).le, hcalc]
  split_ifs with hmagic
  · rfl
  · rw [hcalc, ne_eq, Option.some.injEq] at hne
    simp [hne]

/-- An image of the sample table damaged across a byte border. -/
theorem sampleTable_burst :
    deserialize (sampleTable.map Val.new) .savesys
        (xorBytes [0x05, 0x28, 1, 0, 0, 0x80, 0x3F, 0x54, 0x38] [0, 0, 0x80, 0x7F, 0, 0, 0, 0, 0])
        (getSerialSize (sampleTable.map Val.new) .savesys)
      = some (false, sampleTable.map Val.new) := by
  have hwin : ∀ i < 72, (bytesBits [0, 0, 0x80, 0x7F, 0, 0, 0, 0, 0])[i]? = some true →
      23 ≤ i ∧ i < 23 + 16 := by decide
  refine deserialize_burst (sampleTable.map Val.new) _ .savesys rfl _
    [0, 0, 0x80, 0x7F, 0, 0, 0, 0, 0] (by decide +kernel) rfl 23 (by decide) fun i hi => ?_
  exact hwin i (List.getElem?_eq_some_iff.mp hi).1 hi

end PanelFirmware.Prm
