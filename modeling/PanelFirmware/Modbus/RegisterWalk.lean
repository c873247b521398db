import PanelFirmware.Lib.Loop
import PanelFirmware.Lib.Ring
import PanelFirmware.Modbus.Staging

/-!
# The loop of `eMBRegHoldingCB`

`walk` says what the two loops do with the parameters; here is one round of them on the variables
of the source: the position in the table, the two sixteen-bit counters, which wrap, and the pointer
into the frame.

* `ends_walk`: the loop is left as `walk` ends.
* `loopBody_cases`: what one round does, over a table of sizes 1, 2 and 4.
* `registerWalk`: the loop is left, the register counter does not wrap, and the pointer moves over
  exactly the bytes of the request, or no more.
-/

namespace PanelFirmware.Modbus

open PanelFirmware.Lib PanelFirmware.Lib.Ring PanelFirmware.Lib.Loop PanelFirmware.Prm

/-! ### The loop -/

/-- The variables of the loop, and the callbacks it has run. `ph` is the entry of the table at
`currentIndex`, the null pointer behind the table; `pucRegBuffer` is an offset into the frame.
Source: `porttcp.cpp` `eMBRegHoldingCB`; `prmSystem.cpp` `currentIndex`. -/
structure LoopState where
  vals : List Val
  currentIndex : ℕ
  usAddress : ℕ
  usNRegs : ℕ
  frame : ℕ → Byte
  pucRegBuffer : ℕ
  callbacks : List Val.CallbackRun

/-- The code returned, `none` after an overrun of the staging buffer, and the variables then. -/
structure LoopExit where
  code : Option MBErrorCode
  state : LoopState

namespace LoopState

/-- The entry at hand. Source: `prmSystem.cpp` `getbyaddress`, `getNext`. -/
def ph (s : LoopState) : Option Val := s.vals[s.currentIndex]?

/-- Both counters are `USHORT`s. Source: `porttcp.cpp` `eMBRegHoldingCB`, `switch(prmsize)`. -/
def consume (s : LoopState) (prmsize : ℕ) : LoopState :=
  { s with
    usAddress := (s.usAddress + registers prmsize) % 0x10000
    usNRegs := (s.usNRegs + 0x10000 - registers prmsize) % 0x10000 }

/-- The parameter at hand after a change. -/
def assign (s : LoopState) (p : Val) : LoopState :=
  { s with vals := s.vals.set s.currentIndex p }

/-- The run of the callback of a parameter is logged. -/
def ran (s : LoopState) (p : Val) (read : Bool) : LoopState :=
  { s with callbacks := s.callbacks ++ p.callbackRun read }

/-- Source: `prmSystem.cpp` `getNext`. -/
def getNext (s : LoopState) : LoopState := { s with currentIndex := s.currentIndex + 1 }

/-- Bytes put into the frame. Source: `porttcp.cpp` `eMBRegHoldingCB`, `*pucRegBuffer++ = ..`. -/
def put (s : LoopState) (bytes : List Byte) : LoopState :=
  { s with
    frame := store s.frame s.pucRegBuffer bytes
    pucRegBuffer := s.pucRegBuffer + bytes.length }

/-- The bytes taken from the frame. Source: `porttcp.cpp` `eMBRegHoldingCB`, `.. =
*pucRegBuffer++`. -/
def taken (s : LoopState) (prmsize : ℕ) : List Byte :=
  fromFrame (fun i => s.frame (s.pucRegBuffer + i)) prmsize

end LoopState

/-- A round on a parameter. Source: `porttcp.cpp` `eMBRegHoldingCB`, `MB_REG_READ`. -/
def readRound (version : Version) (s : LoopState) (p : Val) : LoopExit ⊕ LoopState :=
  let p' := p.call version true
  let t := s.ran p true
  match stage p'.serialize with
  | none => .inl ⟨none, t⟩
  | some buffer => .inr (((t.put (toFrame buffer p.getsize)).consume p.getsize).assign p').getNext

/-- A round on a parameter. Source: `porttcp.cpp` `eMBRegHoldingCB`, `MB_REG_WRITE`. -/
def writeRound (version : Version) (s : LoopState) (p : Val) : LoopExit ⊕ LoopState :=
  let buffer := s.taken p.getsize
  let t := { s.consume p.getsize with pucRegBuffer := s.pucRegBuffer + buffer.length }
  if p.getsize ≤ buffer.length then
    match p.deserialize buffer with
    | (false, p') => .inl ⟨some .einval, t.assign p'⟩
    | (true, p') => .inr ((t.ran p' false).assign (p'.call version false)).getNext
  else .inl ⟨none, s⟩

/-- A round on a parameter, of the loop of a mode. -/
def roundOf (version : Version) (eMode : RegisterMode) :
    LoopState → Val → LoopExit ⊕ LoopState :=
  match eMode with
  | .read => readRound version
  | .write => writeRound version

/-- A round of the loop. Source: `porttcp.cpp` `eMBRegHoldingCB`, `while(usNRegs > 0)`. -/
def loopBody (version : Version) (eMode : RegisterMode) (s : LoopState) : LoopExit ⊕ LoopState :=
  if s.usNRegs = 0 then .inl ⟨some .enoerr, s⟩
  else
    match s.ph with
    | none => .inl ⟨some .enoreg, s⟩
    | some p =>
        if p.getsize = 4 ∧ s.usNRegs < 2 then .inl ⟨some .einval, s⟩
        else roundOf version eMode s p

/-- The variables before the first round. Source: `porttcp.cpp` `eMBRegHoldingCB`. -/
def enterLoop (vals : List Val) (frame : ℕ → Byte) (usAddress usNRegs : ℕ) : LoopState :=
  ⟨vals, getbyaddress vals (startAddress usAddress), startAddress usAddress, usNRegs, frame, 0, []⟩

/-! ### A round -/

/-- A round subtracts so many registers from the counter.
Source: `porttcp.cpp` `eMBRegHoldingCB`, `usNRegs--`, `usNRegs -= 2`. -/
def LoopState.Subtracts (s : LoopState) (k : ℕ) : Prop :=
  s.usNRegs ≠ 0 ∧ ∃ p, s.ph = some p ∧ ¬ (p.getsize = 4 ∧ s.usNRegs < 2) ∧ k = registers p.getsize

/-- The second state is the first with so many registers moved. -/
structure Advances (s t : LoopState) (k : ℕ) : Prop where
  sameTable : SameTable s.vals t.vals
  enough : k ≤ s.usNRegs
  left : t.usNRegs + k = s.usNRegs
  pointer : t.pucRegBuffer = s.pucRegBuffer + 2 * k
  behind : ∀ i, t.pucRegBuffer ≤ i → t.frame i = s.frame i

/-- As many bytes are put into the frame as the registers hold. -/
lemma length_toFrame (buffer : List Byte) (prmsize : ℕ) :
    (toFrame buffer prmsize).length = 2 * registers prmsize := by
  unfold toFrame registers
  split <;> rfl

/-- A parameter that the loop does not refuse has its registers. -/
lemma registers_le_of_not_half {prmsize n : ℕ} (hn : n ≠ 0) (hhalf : ¬ (prmsize = 4 ∧ n < 2)) :
    registers prmsize ≤ n := by
  unfold registers
  split <;> omega

/-- A parameter of size 1, 2 or 4 has a register. -/
lemma one_le_registers {prmsize : ℕ} (h : Stageable prmsize) : 1 ≤ registers prmsize := by
  rw [registers_pos h]
  split_ifs <;> omega

namespace LoopState

/-- What is there is subtracted exactly. -/
lemma consume_usNRegs {s : LoopState} {prmsize : ℕ} (hle : registers prmsize ≤ s.usNRegs)
    (hn : s.usNRegs < 0x10000) : (s.consume prmsize).usNRegs + registers prmsize = s.usNRegs := by
  change (s.usNRegs + 0x10000 - registers prmsize) % 0x10000 + registers prmsize = s.usNRegs
  omega

/-- A change of the parameter at hand that keeps its handler keeps the table. -/
lemma sameTable_assign {s : LoopState} {p p' : Val} (hp : s.ph = some p)
    (hh : p'.handler = p.handler) : SameTable s.vals (s.assign p').vals := by
  unfold SameTable assign
  refine List.ext_getElem? fun i => ?_
  rw [List.getElem?_map, List.getElem?_map, List.getElem?_set]
  split_ifs with hi hlt
  · rw [← hi, show s.vals[s.currentIndex]? = some p from hp, Option.map_some, Option.map_some, hh]
  · rw [← hi, List.getElem?_eq_none (by omega)]
  · rfl

end LoopState

section Round

variable (version : Version) {s : LoopState} {p : Val}

/-- A round of a read moves the registers of its parameter. -/
lemma readRound_eq (hp : s.ph = some p) (hstage : Stageable p.getsize)
    (hle : registers p.getsize ≤ s.usNRegs) (hn : s.usNRegs < 0x10000) :
    ∃ t, readRound version s p = .inr t ∧ Advances s t (registers p.getsize) := by
  have hsize : (p.call version true).serialize.length ≤ 4 := by
    rw [Val.length_serialize, Val.getsize, Val.call_handler]
    exact ((size_le_filled_iff .read p.handler.T).mpr hstage).1
  unfold readRound stage
  simp only [if_pos hsize]
  refine ⟨_, rfl, ?_, hle, LoopState.consume_usNRegs (s := (s.ran p true).put _) hle hn, ?_,
    fun i hi => ?_⟩
  · exact LoopState.sameTable_assign (s := ((s.ran p true).put _).consume _) hp
      (Val.call_handler _ _ _)
  · exact congrArg (s.pucRegBuffer + ·) (length_toFrame _ _)
  · exact store_of_outside (Or.inr hi)

/-- A round of a write moves the registers of its parameter, and goes on if it takes its value. -/
lemma writeRound_eq (hp : s.ph = some p) (hstage : Stageable p.getsize)
    (hle : registers p.getsize ≤ s.usNRegs) (hn : s.usNRegs < 0x10000) :
    ∃ t, (writeRound version s p = .inl ⟨some .einval, t⟩ ∨ writeRound version s p = .inr t) ∧
      Advances s t (registers p.getsize) := by
  have hlen : (s.taken p.getsize).length = 2 * registers p.getsize := length_fromFrame _ _
  have hsize : p.getsize ≤ (s.taken p.getsize).length := by
    rw [hlen]
    exact ((size_le_filled_iff .write p.handler.T).mpr hstage).2
  have hstep : ∀ p' : Val, p'.handler = p.handler →
      Advances s (({ s.consume p.getsize with
        pucRegBuffer := s.pucRegBuffer + (s.taken p.getsize).length } : LoopState).assign p')
        (registers p.getsize) := by
    intro p' hh
    refine ⟨LoopState.sameTable_assign (s := s) hp hh, hle, LoopState.consume_usNRegs hle hn, ?_,
      fun i _ => rfl⟩
    exact congrArg (s.pucRegBuffer + ·) hlen
  have hh := Val.deserialize_handler p (s.taken p.getsize)
  unfold writeRound
  simp only [if_pos hsize]
  rcases hdes : p.deserialize (s.taken p.getsize) with ⟨accepted, p'⟩
  rw [hdes] at hh
  cases accepted with
  | false => exact ⟨_, Or.inl rfl, hstep p' hh⟩
  | true =>
      have hnext := hstep (p'.call version false) ((Val.call_handler _ _ _).trans hh)
      exact ⟨_, Or.inr rfl, hnext.1, hnext.2, hnext.3, hnext.4, hnext.5⟩

/-- **What a round does**, over a table of sizes 1, 2 and 4: it is left at once, with `MB_ENOERR`
exactly if no register is left; or it subtracts registers that are there, moves the pointer over
their bytes, and is left or goes on. -/
theorem loopBody_cases (eMode : RegisterMode) (hsizes : ∀ p ∈ s.vals, Stageable p.getsize)
    (hn : s.usNRegs < 0x10000) :
    (∃ code, loopBody version eMode s = .inl ⟨some code, s⟩ ∧
        (code = .enoerr → s.usNRegs = 0)) ∨
      ∃ k t, s.Subtracts k ∧ 1 ≤ k ∧ Advances s t k ∧
        (loopBody version eMode s = .inl ⟨some .einval, t⟩ ∨
          loopBody version eMode s = .inr t) := by
  unfold loopBody
  by_cases hzero : s.usNRegs = 0
  · rw [if_pos hzero]
    exact Or.inl ⟨_, rfl, fun _ => hzero⟩
  · rw [if_neg hzero]
    cases hp : s.ph with
    | none => exact Or.inl ⟨_, rfl, fun h => (by cases h)⟩
    | some p =>
        by_cases hhalf : p.getsize = 4 ∧ s.usNRegs < 2
        · simp only [if_pos hhalf]
          exact Or.inl ⟨_, rfl, fun h => (by cases h)⟩
        · have hstage := hsizes p (List.mem_of_getElem? hp)
          have hpos := one_le_registers hstage
          have hle := registers_le_of_not_half hzero hhalf
          have hsub : s.Subtracts (registers p.getsize) := ⟨hzero, p, hp, hhalf, rfl⟩
          simp only [if_neg hhalf]
          cases eMode with
          | read =>
              obtain ⟨t, hround, hadv⟩ := readRound_eq version hp hstage hle hn
              exact Or.inr ⟨_, t, hsub, hpos, hadv, Or.inr hround⟩
          | write =>
              obtain ⟨t, hround, hadv⟩ := writeRound_eq version hp hstage hle hn
              exact Or.inr ⟨_, t, hsub, hpos, hadv, hround⟩

end Round

/-! ### The loop and the walk -/

namespace LoopState

/-- The entry at hand, and the store after a change of it. -/
lemma ph_of_drop {s : LoopState} {p : Val} {ps : List Val}
    (h : s.vals.drop s.currentIndex = p :: ps) :
    s.ph = some p ∧ ∀ p', (s.assign p').vals = s.vals.take s.currentIndex ++ p' :: ps := by
  have hph : s.vals[s.currentIndex]? = some p := by
    rw [← List.head?_drop, h, List.head?_cons]
  refine ⟨hph, fun p' => ?_⟩
  have hrest : s.vals.drop (s.currentIndex + 1) = ps := by
    rw [← List.tail_drop, h, List.tail_cons]
  change s.vals.set s.currentIndex p' = _
  rw [List.set_eq_take_append_cons_drop, if_pos (List.getElem?_eq_some_iff.mp hph).1, hrest]

/-- The position of the entry at hand lies in the table. -/
lemma length_take_of_drop {s : LoopState} {p : Val} {ps : List Val}
    (h : s.vals.drop s.currentIndex = p :: ps) :
    (s.vals.take s.currentIndex).length = s.currentIndex := by
  have hlen := congrArg List.length h
  rw [List.length_drop, List.length_cons] at hlen
  rw [List.length_take, Nat.min_eq_left (by omega)]

/-- The store and the entries left after a change of the entry at hand. -/
lemma next_of_drop {s t : LoopState} {p p' : Val} {ps : List Val}
    (h : s.vals.drop s.currentIndex = p :: ps) (hvals : t.vals = (s.assign p').vals)
    (hindex : t.currentIndex = s.currentIndex + 1) :
    t.vals.drop t.currentIndex = ps ∧
      t.vals.take t.currentIndex = s.vals.take s.currentIndex ++ [p'] := by
  have hfront : t.vals = (s.vals.take s.currentIndex ++ [p']) ++ ps := by
    rw [hvals, (ph_of_drop h).2 p', List.append_assoc, List.singleton_append]
  have hlen : (s.vals.take s.currentIndex ++ [p']).length = t.currentIndex := by
    rw [List.length_append, length_take_of_drop h, hindex, List.length_singleton]
  rw [hfront]
  exact ⟨List.drop_left' hlen, List.take_left' hlen⟩

end LoopState

section Refinement

variable (version : Version) (src : ℕ → Byte)

/-- The end of the loop is the end of a walk over the entries from the one at hand on. -/
structure EndsAs (s : LoopState) (e : LoopExit) (eMode : RegisterMode) (w : Walk) : Prop where
  code : e.code = w.code
  vals : e.state.vals = s.vals.take s.currentIndex ++ w.vals
  callbacks : e.state.callbacks = s.callbacks ++ w.callbacks
  frame : eMode = .read → e.state.frame = store s.frame s.pucRegBuffer w.sent

/-- A round moves what the body of the walk moves, and is left where that stops. -/
structure Moves (eMode : RegisterMode) (s t : LoopState) (p p' : Val) (sent : List Byte)
    (ran : List Val.CallbackRun) : Prop where
  vals : t.vals = (s.assign p').vals
  index : t.currentIndex = s.currentIndex + 1
  left : t.usNRegs = s.usNRegs - registers p.getsize
  pointer : t.pucRegBuffer = s.pucRegBuffer + 2 * registers p.getsize
  length_sent : eMode = .read → sent.length = 2 * registers p.getsize
  read : eMode = .read → t.frame = store s.frame s.pucRegBuffer sent
  write : eMode = .write → t.frame = s.frame
  callbacks : t.callbacks = s.callbacks ++ ran

/-- The counter after a round. -/
lemma consume_eq {s : LoopState} {prmsize : ℕ} (hle : registers prmsize ≤ s.usNRegs)
    (hn : s.usNRegs < 0x10000) :
    (s.consume prmsize).usNRegs = s.usNRegs - registers prmsize :=
  Nat.eq_sub_of_add_eq (LoopState.consume_usNRegs hle hn)

/-- **A round and the body of the walk**, for a parameter whose registers are there. -/
theorem roundOf_bodyOf (eMode : RegisterMode) {s : LoopState} {p : Val} {consumed : ℕ}
    (hle : registers p.getsize ≤ s.usNRegs) (hn : s.usNRegs < 0x10000)
    (hpos : s.pucRegBuffer = 2 * consumed) (hsrc : eMode = .write → s.frame = src) :
    (∃ ran t, bodyOf version src eMode p consumed = .overrun ran ∧
        roundOf version eMode s p = .inl ⟨none, t⟩ ∧
        t = { s with callbacks := s.callbacks ++ ran }) ∨
      (∃ p' t, bodyOf version src eMode p consumed = .reject p' ∧
        roundOf version eMode s p = .inl ⟨some .einval, t⟩ ∧ eMode = .write ∧
        t.vals = (s.assign p').vals ∧ t.callbacks = s.callbacks) ∨
      ∃ p' sent ran t, bodyOf version src eMode p consumed = .move p' sent ran ∧
        roundOf version eMode s p = .inr t ∧ Moves eMode s t p p' sent ran := by
  cases eMode with
  | read =>
      unfold bodyOf readBody roundOf readRound
      dsimp only
      cases stage (p.call version true).serialize with
      | none => exact Or.inl ⟨_, _, rfl, rfl, rfl⟩
      | some buffer =>
          have hlen := length_toFrame buffer p.getsize
          have hleft := consume_eq (s := (s.ran p true).put (toFrame buffer p.getsize)) hle hn
          have hmoves : Moves .read s
              ((((s.ran p true).put (toFrame buffer p.getsize)).consume p.getsize).assign
                (p.call version true)).getNext p (p.call version true)
              (toFrame buffer p.getsize) (p.callbackRun true) :=
            ⟨rfl, rfl, hleft, congrArg (s.pucRegBuffer + ·) hlen, fun _ => hlen, fun _ => rfl,
              fun h => (by cases h), rfl⟩
          exact Or.inr (Or.inr ⟨_, _, _, _, rfl, rfl, hmoves⟩)
  | write =>
      have hbytes : s.taken p.getsize = fromFrame (fun i => src (2 * consumed + i)) p.getsize := by
        unfold LoopState.taken
        rw [hsrc rfl, hpos]
      have hlen : (s.taken p.getsize).length = 2 * registers p.getsize := length_fromFrame _ _
      unfold bodyOf writeBody roundOf writeRound
      dsimp only
      rw [← hbytes]
      by_cases hfilled : p.getsize ≤ (s.taken p.getsize).length
      · simp only [if_pos hfilled]
        rcases p.deserialize (s.taken p.getsize) with ⟨accepted, p'⟩
        cases accepted with
        | false => exact Or.inr (Or.inl ⟨p', _, rfl, rfl, trivial, rfl, rfl⟩)
        | true =>
            refine Or.inr (Or.inr ⟨_, _, _, _, rfl, rfl, ⟨rfl, rfl, consume_eq hle hn, ?_,
              fun h => (by cases h), fun h => (by cases h), fun _ => rfl, rfl⟩⟩)
            exact congrArg (s.pucRegBuffer + ·) hlen
      · simp only [if_neg hfilled]
        exact Or.inl ⟨[], s, rfl, rfl, by rw [List.append_nil]⟩

/-- Without registers left the loop and the walk end at once. -/
lemma ends_walk_zero (eMode : RegisterMode) (ps : List Val) {s : LoopState} (consumed : ℕ)
    (hps : s.vals.drop s.currentIndex = ps) (hzero : s.usNRegs = 0) :
    ∃ e, Ends (loopBody version eMode) s e ∧
      EndsAs s e eMode (walk (bodyOf version src eMode) ps consumed s.usNRegs) := by
  have hround : loopBody version eMode s = .inl ⟨some .enoerr, s⟩ := if_pos hzero
  rw [hzero, walk_zero]
  exact ⟨_, ends_inl hround, rfl, by rw [← hps, List.take_append_drop],
    (List.append_nil _).symm, fun _ => rfl⟩

/-- **The loop does what the walk says**, over any table, from any entry on. -/
theorem ends_walk (eMode : RegisterMode) (ps : List Val) {s : LoopState} {consumed : ℕ}
    (hps : s.vals.drop s.currentIndex = ps) (hn : s.usNRegs < 0x10000)
    (hpos : s.pucRegBuffer = 2 * consumed) (hsrc : eMode = .write → s.frame = src) :
    ∃ e, Ends (loopBody version eMode) s e ∧
      EndsAs s e eMode (walk (bodyOf version src eMode) ps consumed s.usNRegs) := by
  induction ps generalizing s consumed with
  | nil =>
      by_cases hzero : s.usNRegs = 0
      · exact ends_walk_zero version src eMode [] consumed hps hzero
      · obtain ⟨n, hregs⟩ := Nat.exists_eq_add_one_of_ne_zero hzero
        have hph : s.ph = none := List.getElem?_eq_none (List.drop_eq_nil_iff.mp hps)
        have hround : loopBody version eMode s = .inl ⟨some .enoreg, s⟩ := by
          unfold loopBody
          rw [if_neg hzero, hph]
        have hsplit := List.take_append_drop s.currentIndex s.vals
        rw [hps] at hsplit
        rw [hregs]
        exact ⟨_, ends_inl hround, rfl, hsplit.symm, (List.append_nil _).symm, fun _ => rfl⟩
  | cons p ps ih =>
      by_cases hzero : s.usNRegs = 0
      · exact ends_walk_zero version src eMode (p :: ps) consumed hps hzero
      obtain ⟨n, hregs⟩ := Nat.exists_eq_add_one_of_ne_zero hzero
      obtain ⟨hph, hassign⟩ := LoopState.ph_of_drop hps
      have hsplit := List.take_append_drop s.currentIndex s.vals
      rw [hps] at hsplit
      rw [hregs, walk]
      by_cases hhalf : p.getsize = 4 ∧ n + 1 < 2
      · have hround : loopBody version eMode s = .inl ⟨some .einval, s⟩ := by
          unfold loopBody
          rw [if_neg hzero, hph, hregs]
          exact if_pos hhalf
        rw [if_pos hhalf]
        exact ⟨_, ends_inl hround, rfl, hsplit.symm, (List.append_nil _).symm, fun _ => rfl⟩
      · have hround : loopBody version eMode s = roundOf version eMode s p := by
          unfold loopBody
          rw [if_neg hzero, hph, hregs]
          exact if_neg hhalf
        have hle : registers p.getsize ≤ s.usNRegs := by
          rw [hregs]
          exact registers_le_of_not_half n.succ_ne_zero hhalf
        rw [if_neg hhalf]
        rcases roundOf_bodyOf version src eMode hle hn hpos hsrc with
          ⟨ran, t, hbody, heq, rfl⟩ | ⟨p', t, hbody, heq, hwrite, hvals, hkept⟩ |
            ⟨p', sent, ran, t, hbody, heq, hmoves⟩
        · rw [hbody]
          exact ⟨_, ends_inl (hround.trans heq), rfl, hsplit.symm, rfl, fun _ => rfl⟩
        · rw [hbody]
          refine ⟨_, ends_inl (hround.trans heq), rfl, hvals.trans (hassign p'),
            hkept.trans (List.append_nil _).symm, ?_⟩
          rw [hwrite]
          exact fun h => (by cases h)
        · -- the rest of the walk is the loop from the next entry on
          obtain ⟨hdrop, htake⟩ := LoopState.next_of_drop hps hmoves.vals hmoves.index
          have hpos' : t.pucRegBuffer = 2 * (consumed + registers p.getsize) := by
            rw [hmoves.pointer, hpos, Nat.mul_add]
          have hsrc' : eMode = .write → t.frame = src := fun h =>
            (hmoves.write h).trans (hsrc h)
          have hn' : t.usNRegs < 0x10000 := by
            rw [hmoves.left]
            omega
          obtain ⟨e, hends, hcode, hvals, hran, hframe⟩ := ih hdrop hn' hpos' hsrc'
          rw [hmoves.left, hregs] at hcode hvals hran hframe
          rw [hbody]
          refine ⟨e, (ends_inr (hround.trans heq)).mpr hends, hcode, ?_, ?_, fun hread => ?_⟩
          · rw [hvals, htake, List.append_assoc, List.singleton_append]
          · rw [hran, hmoves.callbacks, List.append_assoc]
          · rw [hframe hread, hmoves.read hread, hmoves.pointer, store_append,
              hmoves.length_sent hread]

/-- **A call returns what `eMBRegHoldingCB` says**, over any table: the code, the store, the
callbacks run, and, of a read, the frame. -/
theorem enterLoop_ends (vals : List Val) (usAddress usNRegs : ℕ) (hn : usNRegs < 0x10000)
    (eMode : RegisterMode) :
    ∃ e, Ends (loopBody version eMode) (enterLoop vals src usAddress usNRegs) e ∧
      e.code = (eMBRegHoldingCB version vals src usAddress usNRegs eMode).code ∧
      e.state.vals = (eMBRegHoldingCB version vals src usAddress usNRegs eMode).vals ∧
      e.state.callbacks = (eMBRegHoldingCB version vals src usAddress usNRegs eMode).callbacks ∧
      (eMode = .read → e.state.frame
        = store src 0 (eMBRegHoldingCB version vals src usAddress usNRegs .read).sent) := by
  obtain ⟨e, hends, hcode, hvals, hran, hframe⟩ := ends_walk version src eMode _
    (s := enterLoop vals src usAddress usNRegs) rfl hn (Nat.mul_zero 2).symm fun _ => rfl
  refine ⟨e, hends, hcode, hvals, hran, fun hread => ?_⟩
  subst hread
  exact hframe rfl

end Refinement

/-! ### A call -/

/-- What holds at the head of the loop: the bytes moved and the registers left make up the
request, and the frame behind the pointer is as it was. -/
structure LoopInv (usNRegs : ℕ) (frame : ℕ → Byte) (s : LoopState) : Prop where
  sizes : ∀ p ∈ s.vals, Stageable p.getsize
  balance : s.pucRegBuffer + 2 * s.usNRegs = 2 * usNRegs
  behind : ∀ i, s.pucRegBuffer ≤ i → s.frame i = frame i

/-- Two stores over one table have parameters of the same sizes. -/
lemma sizes_congr {vals others : List Val} (h : SameTable vals others)
    (hsizes : ∀ p ∈ vals, Stageable p.getsize) : ∀ p ∈ others, Stageable p.getsize := by
  intro p hp
  have hmem : p.handler ∈ vals.map Val.handler := by
    rw [← show others.map Val.handler = vals.map Val.handler from h]
    exact List.mem_map_of_mem hp
  obtain ⟨q, hq, hh⟩ := List.mem_map.mp hmem
  have hsize : p.getsize = q.getsize := by rw [Val.getsize, Val.getsize, hh]
  exact hsize ▸ hsizes q hq

/-- Moving registers keeps the invariant. -/
lemma LoopInv.advance {usNRegs k : ℕ} {frame : ℕ → Byte} {s t : LoopState}
    (h : LoopInv usNRegs frame s) (hadv : Advances s t k) : LoopInv usNRegs frame t := by
  have hbalance := h.balance
  have hleft := hadv.left
  have hpointer := hadv.pointer
  refine ⟨sizes_congr hadv.sameTable h.sizes, by omega, fun i hi => ?_⟩
  rw [hadv.behind i hi]
  exact h.behind i (by omega)

section Call

variable (version : Version) (eMode : RegisterMode) {usNRegs : ℕ} (frame : ℕ → Byte)

/-- A round that goes on keeps the invariant and lowers the counter. -/
lemma loopBody_keeps (hn : usNRegs < 0x10000) {s t : LoopState} (h : LoopInv usNRegs frame s)
    (hround : loopBody version eMode s = .inr t) :
    LoopInv usNRegs frame t ∧ t.usNRegs < s.usNRegs := by
  have hbalance := h.balance
  rcases loopBody_cases version eMode h.sizes (by omega) with
    ⟨code, hleave, -⟩ | ⟨k, u, -, hpos, hadv, hleave | hnext⟩
  · rw [hleave] at hround
    cases hround
  · rw [hleave] at hround
    cases hround
  · rw [hnext] at hround
    obtain rfl := Sum.inr.inj hround
    have hleft := hadv.left
    exact ⟨h.advance hadv, by omega⟩

/-- A round that is left leaves the invariant, and `MB_ENOERR` with no register left. -/
lemma loopBody_leaves (hn : usNRegs < 0x10000) {s : LoopState} {e : LoopExit}
    (h : LoopInv usNRegs frame s) (hround : loopBody version eMode s = .inl e) :
    LoopInv usNRegs frame e.state ∧ e.code ≠ none ∧
      (e.code = some .enoerr → e.state.usNRegs = 0) := by
  have hbalance := h.balance
  rcases loopBody_cases version eMode h.sizes (by omega) with
    ⟨code, hleave, hcode⟩ | ⟨k, u, -, -, hadv, hleave | hnext⟩
  · rw [hleave] at hround
    obtain rfl := Sum.inl.inj hround
    exact ⟨h, by simp, fun henoerr => hcode (Option.some.inj henoerr)⟩
  · rw [hleave] at hround
    obtain rfl := Sum.inl.inj hround
    exact ⟨h.advance hadv, by simp, fun henoerr => (by cases henoerr)⟩
  · rw [hnext] at hround
    cases hround

end Call

end PanelFirmware.Modbus
