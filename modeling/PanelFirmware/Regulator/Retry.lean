import PanelFirmware.Libmodbus.Session

/-!
# `regulator/src/regulatorConnTSK.c`: repeated calls

The regulator task repeats a call that does not succeed, without knowing whether the regulator has
served it: `writeReg` and `writeRegs` call three times at most, `readRegs` as often as its caller
says. The regulator is another program and a parameter here.

* `ModbusSlave`, `PassesOverOne`: what is relied on of it; `server_modbusSlave` and
  `server_passesOverOne` show libmodbus's own server to be such a slave.
* `tries_takes`: however often a call is repeated, the regulator ends as after one or none; what the
  task takes for done was done, and what it has read is what the regulator holds.
* `tries_of_one_fault`: three calls are enough for one fault of any kind. Two would not be: after a
  message that seems to be for another slave the regulator may pass over the next one.
-/

namespace PanelFirmware.Regulator

open PanelFirmware.Lib PanelFirmware.Libmodbus

section Tries

variable {σ α : Type}

/-- Calls are made until one returns `nb`, so many at most: what the last one has read, the line and
`libmodbuserrno`. Source: `regulatorConnTSK.c` `writeReg`, `writeRegs`, `readRegs`, the loop. -/
def tries (call : σ → ℕ → (Return × α) × σ) (nb : ℤ) : ℕ → σ → ℕ → Option α × σ × ℕ
  | 0, s, errno => (none, s, errno)
  | n + 1, s, errno =>
      let x := call s errno
      if x.1.1.rc = nb then (some x.1.2, x.2, x.1.1.errno)
      else tries call nb n x.2 x.1.1.errno

/-- Source: `regulatorConnTSK.c` `writeReg`. -/
def writeReg (slave : Byte) (line : Line σ) (s : σ) (addr value : BitVec 16) (errno : ℕ) :
    Bool × σ × ℕ :=
  let x := tries (fun s errno =>
    let r := modbusWriteRegister slave line s addr.toNat value errno
    ((r.1, ()), r.2)) 1 3 s errno
  (x.1.isSome, x.2)

/-- The registers are those of `src`, `len` of them. Source: `regulatorConnTSK.c` `writeRegs`. -/
def writeRegs (slave : Byte) (line : Line σ) (s : σ) (addr : BitVec 16) (src : List (BitVec 16))
    (errno : ℕ) : Bool × σ × ℕ :=
  let len : ℤ := src.length
  let x := tries (fun s errno =>
    let r := modbusWriteRegisters slave line s addr.toNat len (fun i => src.getD i 0) errno
    ((r.1, ()), r.2)) len 3 s errno
  (x.1.isSome, x.2)

/-- The registers are stored at `dst` by the call that succeeds.
Source: `regulatorConnTSK.c` `readRegs`. -/
def readRegs (slave : Byte) (line : Line σ) (s : σ) (addr : BitVec 16) (len : ℕ) (n : Byte)
    (errno : ℕ) : Option (List (BitVec 16)) × σ × ℕ :=
  tries (fun s errno =>
    let r := modbusReadRegisters slave line s addr.toNat len errno
    ((r.ret, r.dest), r.line)) len n.toNat s errno

end Tries

/-! ### The regulator -/

/-- The requests that the task repeats. -/
def OfTask : Query → Prop
  | .writeRegister _ _ | .writeRegisters _ _ | .readRegisters false _ _ => True
  | _ => False

section Slave

variable {τ : Type}

/-- What is relied on of a slave: `receive` is what it does with a frame that arrives and what it
answers, and `device` the registers that nothing but a request changes. It runs in the states of
`Runs`. -/
structure ModbusSlave (slave : Byte) (receive : τ → List Byte → τ × Option (List Byte))
    (device : τ → Device) (Runs : τ → Prop) : Prop where
  /-- A frame whose checksum is wrong writes nothing and is not answered. -/
  damaged : ∀ s frame, Runs s → (∀ msg, frame ≠ sendMsg msg) →
    Runs (receive s frame).1 ∧ device (receive s frame).1 = device s ∧ (receive s frame).2 = none
  /-- A request for such registers is passed over, or served and answered. -/
  request : ∀ s request, Runs s → request.Valid → OfTask request →
    (device s).serve request ≠ none →
    Runs (receive s (sendMsg (request.message slave))).1 ∧
      Replied slave request (device s) (device (receive s (sendMsg (request.message slave))).1)
        (receive s (sendMsg (request.message slave))).2

/-- A slave that passes over no request while it listens, and listens after a frame if it did not
before. -/
structure PassesOverOne (slave : Byte) (receive : τ → List Byte → τ × Option (List Byte))
    (device : τ → Device) (Runs Listens : τ → Prop) : Prop where
  answers : ∀ s request, Runs s → Listens s → request.Valid → OfTask request →
    (device s).serve request ≠ none → (receive s (sendMsg (request.message slave))).2 ≠ none
  recovers : ∀ s frame, Runs s → ¬ Listens s → Listens (receive s frame).1

/-- The slave and the faults to come. -/
structure Wire (τ : Type) where
  regulator : τ
  faults : ℕ → Fault

/-- The slave after a message that was sent to it, and its answer. -/
def Wire.received (receive : τ → List Byte → τ × Option (List Byte)) (b : Wire τ)
    (frame : List Byte) : τ × Option (List Byte) :=
  match (b.faults 0).request.arrives frame with
  | some query => receive b.regulator query
  | none => (b.regulator, none)

/-- The line to the slave. -/
def Wire.line (receive : τ → List Byte → τ × Option (List Byte)) : Line (Wire τ) := fun b frame =>
  let (regulator, answer) := b.received receive frame
  ((b.faults 0).reception answer, ⟨regulator, fun i => b.faults (i + 1)⟩)

/-- A slave that runs, with these registers, on a line whose faults a checksum is there for. -/
structure Wire.Sound (device : τ → Device) (Runs : τ → Prop) (b : Wire τ) (d : Device) : Prop where
  runs : Runs b.regulator
  device : device b.regulator = d
  faults : ∀ i, (b.faults i).Tolerable

variable {slave : Byte} {receive : τ → List Byte → τ × Option (List Byte)} {device : τ → Device}
  {Runs Listens : τ → Prop} {b : Wire τ} {d : Device} {request : Query}

/-- What the slave makes of a request, if it arrives. -/
lemma Wire.received_replied (hreg : ModbusSlave slave receive device Runs)
    (hb : b.Sound device Runs d) (hvalid : request.Valid) (htask : OfTask request)
    (hserve : d.serve request ≠ none) :
    Runs (b.received receive (sendMsg (request.message slave))).1 ∧
      Replied slave request d (device (b.received receive (sendMsg (request.message slave))).1)
        (b.received receive (sendMsg (request.message slave))).2 := by
  obtain ⟨hruns, rfl, hfaults⟩ := hb
  rw [Wire.received]
  rcases arrives_cases (hfaults 0).request (message_ne_nil slave request) with hlost | harrives |
    ⟨frame, hdamaged, hne⟩
  · rw [hlost]
    exact ⟨hruns, .passedOver⟩
  · rw [harrives]
    exact hreg.request b.regulator request hruns hvalid htask hserve
  · rw [hdamaged]
    obtain ⟨hruns', hdevice, hanswer⟩ := hreg.damaged b.regulator frame hruns hne
    refine ⟨hruns', ?_⟩
    simp only [hdevice, hanswer]
    exact .passedOver

/-- What is left on the line after a call. -/
lemma Wire.call_line (slave : Byte) (receive : τ → List Byte → τ × Option (List Byte))
    (b : Wire τ) (hvalid : request.Valid) (errno : ℕ) :
    (request.call slave (Wire.line receive) b errno).2 =
      ⟨(b.received receive (sendMsg (request.message slave))).1, fun i => b.faults (i + 1)⟩ :=
  request.call_line slave (Wire.line receive) b hvalid errno

/-- **A call is served once or not at all, and succeeds only when it was served.** -/
theorem Wire.call_takes (hreg : ModbusSlave slave receive device Runs)
    (hb : b.Sound device Runs d) (hvalid : request.Valid) (htask : OfTask request)
    (hserve : d.serve request ≠ none) (errno : ℕ) :
    let x := request.call slave (Wire.line receive) b errno
    ∃ d', Takes request d x.1 d' ∧ x.2.Sound device Runs d' := by
  obtain ⟨hruns, hreplied⟩ := Wire.received_replied hreg hb hvalid htask hserve
  refine ⟨_, hreplied.takes (hb.faults 0) hvalid rfl errno, ?_⟩
  rw [Wire.call_line slave receive b hvalid errno]
  exact ⟨hruns, rfl, fun i => hb.faults (i + 1)⟩

/-! ### The same request again and again -/

/-- A request called until it succeeds. -/
def callTries (slave : Byte) (receive : τ → List Byte → τ × Option (List Byte)) (request : Query)
    (n : ℕ) (b : Wire τ) (errno : ℕ) : Option Response × Wire τ × ℕ :=
  tries (fun s errno =>
    let x := request.call slave (Wire.line receive) s errno
    ((x.1.ret, x.1.answer), x.2)) request.count n b errno

/-- What repeated calls of a request leave: it was served, which further calls do not show, or it
was not and has no result. -/
def Done (device : τ → Device) (Runs : τ → Prop) (d : Device) (request : Query)
    (x : Option Response × Wire τ × ℕ) : Prop :=
  (∃ answer d', d.serve request = some (answer, d') ∧ (x.1 = some answer ∨ x.1 = none) ∧
      x.2.1.Sound device Runs d') ∨
    x.1 = none ∧ x.2.1.Sound device Runs d

/-- **However often a request is called, it is served once or not at all**, as far as the registers
can tell, and a result is what was served. -/
theorem tries_takes (hreg : ModbusSlave slave receive device Runs) (hb : b.Sound device Runs d)
    (request : Query) (hvalid : request.Valid) (htask : OfTask request)
    (hserve : d.serve request ≠ none) (n errno : ℕ) :
    Done device Runs d request (callTries slave receive request n b errno) := by
  induction n generalizing b d errno with
  | zero => exact Or.inr ⟨rfl, hb⟩
  | succ n ih =>
      obtain ⟨d₁, htakes, hb₁⟩ := Wire.call_takes hreg hb hvalid htask hserve errno
      have hfailed : ∀ rc : ℤ, rc = -1 → ¬ rc = request.count := by
        intro rc hrc
        omega
      have hstep : callTries slave receive request (n + 1) b errno =
          let x := request.call slave (Wire.line receive) b errno
          if x.1.ret.rc = request.count then (some x.1.answer, x.2, x.1.ret.errno)
          else callTries slave receive request n x.2 x.1.ret.errno := rfl
      generalize hx : request.call slave (Wire.line receive) b errno = x at htakes hb₁ hstep
      obtain ⟨o, b₁⟩ := x
      cases htakes with
      | @served answer _ errno' hserved =>
          rw [hstep]
          simp only [if_true]
          exact Or.inl ⟨answer, d₁, hserved, Or.inl rfl, hb₁⟩
      | @unconfirmed answer _ _ hserved hrc =>
          rw [hstep]
          simp only [if_neg (hfailed _ hrc)]
          have hagain : d₁.serve request ≠ none := by
            rw [serve_again hserved]
            exact Option.some_ne_none _
          rcases ih hb₁ hagain o.ret.errno with
            ⟨answer', d', hserved', hresult, hb'⟩ | ⟨hnone, hb'⟩
          · -- the request is served again
            rw [serve_again hserved] at hserved'
            obtain ⟨rfl, rfl⟩ := Prod.mk.inj (Option.some.inj hserved')
            exact Or.inl ⟨answer, d₁, hserved, hresult, hb'⟩
          · exact Or.inl ⟨answer, d₁, hserved, Or.inr hnone, hb'⟩
      | @failed _ hrc =>
          rw [hstep]
          simp only [if_neg (hfailed _ hrc)]
          exact ih hb₁ hserve o.ret.errno

/-! ### The functions of the task -/

/-- What the calls have read may be looked at afterwards. -/
lemma tries_map {σ α β : Type} (f : α → β) (call : σ → ℕ → (Return × α) × σ) (nb : ℤ) (n : ℕ)
    (s : σ) (errno : ℕ) :
    tries (fun s errno => let x := call s errno; ((x.1.1, f x.1.2), x.2)) nb n s errno =
      ((tries call nb n s errno).1.map f, (tries call nb n s errno).2) := by
  induction n generalizing s errno with
  | zero => rfl
  | succ n ih =>
      simp only [tries]
      split_ifs with hrc
      · rfl
      · exact ih _ _

/-- What a task knows of a write that it has repeated: the values are written if it takes it for
done, and else are written or not. -/
def Written (device : τ → Device) (Runs : τ → Prop) (d : Device) (addr : BitVec 16)
    (src : List (BitVec 16)) (x : Bool × Wire τ × ℕ) : Prop :=
  (∃ register, d.register.write addr.toNat src = some register ∧
      x.2.1.Sound device Runs { d with register }) ∨
    x.1 = false ∧ x.2.1.Sound device Runs d

/-- What a request to write leaves, as a write. -/
lemma Done.written {addr : BitVec 16} {src : List (BitVec 16)} {x : Option Response × Wire τ × ℕ}
    (hserve : d.serve request =
      (d.register.write addr.toNat src).map fun register => (.done, { d with register }))
    (h : Done device Runs d request x) :
    Written device Runs d addr src ((x.1.map fun _ => ()).isSome, x.2) := by
  rcases h with ⟨answer, d', hserved, -, hb'⟩ | ⟨hnone, hb'⟩
  · rw [hserve] at hserved
    obtain ⟨register, hwrite, heq⟩ := Option.map_eq_some_iff.mp hserved
    rw [← (Prod.mk.inj heq).2] at hb'
    exact Or.inl ⟨register, hwrite, hb'⟩
  · rw [hnone]
    exact Or.inr ⟨rfl, hb'⟩

/-- Whether a write has succeeded, from the calls that also return what has been read. -/
lemma isSome_tries (slave : Byte) (receive : τ → List Byte → τ × Option (List Byte))
    (request : Query) (b : Wire τ) (errno : ℕ) :
    let x := tries (fun s errno =>
      let x := request.call slave (Wire.line receive) s errno
      ((x.1.ret, ()), x.2)) request.count 3 b errno
    (x.1.isSome, x.2) =
      let x := callTries slave receive request 3 b errno
      ((x.1.map fun _ => ()).isSome, x.2) :=
  congrArg (fun x : Option Unit × Wire τ × ℕ => (x.1.isSome, x.2))
    (tries_map (fun _ : Response => ()) (fun s errno =>
      let x := request.call slave (Wire.line receive) s errno
      ((x.1.ret, x.1.answer), x.2)) request.count 3 b errno)

/-- A write of one register. -/
lemma writeReg_eq (slave : Byte) (receive : τ → List Byte → τ × Option (List Byte)) (b : Wire τ)
    (addr value : BitVec 16) (errno : ℕ) :
    writeReg slave (Wire.line receive) b addr value errno =
      let x := callTries slave receive (.writeRegister addr value) 3 b errno
      ((x.1.map fun _ => ()).isSome, x.2) :=
  isSome_tries slave receive (.writeRegister addr value) b errno

/-- A write of registers. -/
lemma writeRegs_eq (slave : Byte) (receive : τ → List Byte → τ × Option (List Byte)) (b : Wire τ)
    (addr : BitVec 16) (src : List (BitVec 16)) (errno : ℕ) :
    writeRegs slave (Wire.line receive) b addr src errno =
      let x := callTries slave receive (.writeRegisters addr src) 3 b errno
      ((x.1.map fun _ => ()).isSome, x.2) :=
  isSome_tries slave receive (.writeRegisters addr src) b errno

/-- A read of registers. -/
lemma readRegs_eq (slave : Byte) (receive : τ → List Byte → τ × Option (List Byte)) (b : Wire τ)
    (addr : BitVec 16) (len : ℕ) (n : Byte) (errno : ℕ) :
    callTries slave receive (.readRegisters false addr len) n.toNat b errno =
      ((readRegs slave (Wire.line receive) b addr len n errno).1.map .registers,
        (readRegs slave (Wire.line receive) b addr len n errno).2) :=
  tries_map Response.registers (fun s errno =>
    let r := modbusReadRegisters slave (Wire.line receive) s addr.toNat len errno
    ((r.ret, r.dest), r.line)) len n.toNat b errno

/-- A range that is there is written. -/
lemma serve_write_ne_none {addr : BitVec 16} {src : List (BitVec 16)}
    (h : d.register.Covers addr.toNat src.length) :
    ((d.register.write addr.toNat src).map fun register =>
      (Response.done, { d with register })) ≠ none := by
  rw [Ne, Option.map_eq_none_iff, Table.write_eq_none_iff]
  exact not_not_intro h

/-- **The writes and the reads of the task over a line with faults**, for registers that only
requests change. Repeated as they are, a write leaves the registers written once or not at all, and
written if it returns true; a read changes nothing and returns what the registers hold. -/
theorem retries_sound (hreg : ModbusSlave slave receive device Runs) (hb : b.Sound device Runs d)
    {addr : BitVec 16} (value : BitVec 16) {src : List (BitVec 16)}
    (hsrc : 1 ≤ src.length ∧ src.length ≤ 123) (hwrite : d.register.Covers addr.toNat src.length)
    {len : ℕ} (hlen : 1 ≤ len ∧ len ≤ 125) (hread : d.register.Covers addr.toNat len) (n : Byte)
    (errno : ℕ) :
    Written device Runs d addr [value]
        (writeReg slave (Wire.line receive) b addr value errno) ∧
      Written device Runs d addr src (writeRegs slave (Wire.line receive) b addr src errno) ∧
      (readRegs slave (Wire.line receive) b addr len n errno).2.1.Sound device Runs d ∧
      ∀ values, (readRegs slave (Wire.line receive) b addr len n errno).1 = some values →
        d.register.read addr.toNat len = some values := by
  refine ⟨?_, ?_, ?_⟩
  · have hone : d.register.Covers addr.toNat [value].length := fun i hi =>
      hwrite i (Nat.lt_of_lt_of_le hi hsrc.1)
    rw [writeReg_eq]
    exact Done.written rfl (tries_takes hreg hb (.writeRegister addr value) trivial trivial
      (serve_write_ne_none hone) 3 errno)
  · rw [writeRegs_eq]
    exact Done.written rfl (tries_takes hreg hb (.writeRegisters addr src) hsrc trivial
      (serve_write_ne_none hwrite) 3 errno)
  · have hserve : d.serve (.readRegisters false addr len) ≠ none := by
      rw [Device.serve, Ne, Option.map_eq_none_iff, if_neg Bool.false_ne_true,
        Table.read_eq_none_iff]
      exact not_not_intro hread
    have htakes := tries_takes hreg hb (.readRegisters false addr len) hlen trivial hserve n.toNat
      errno
    rw [readRegs_eq] at htakes
    rcases htakes with ⟨answer, d', hserved, hresult, hb'⟩ | ⟨hnone, hb'⟩
    · obtain ⟨vs, hvs, heq⟩ := Option.map_eq_some_iff.mp hserved
      obtain ⟨rfl, rfl⟩ := Prod.mk.inj heq
      refine ⟨hb', fun values hvalues => ?_⟩
      rcases hresult with hsome | hnone
      · rw [hvalues] at hsome
        rw [Response.registers.inj (Option.some.inj hsome)]
        exact hvs
      · rw [hvalues] at hnone
        cases hnone
    · refine ⟨hb', fun values hvalues => ?_⟩
      rw [hvalues] at hnone
      cases hnone

/-! ### How many calls are enough -/

variable {answer : Response} {d' : Device}

/-- What a call on a clean line makes of a request that is answered. -/
lemma Wire.call_of_answered (hreg : ModbusSlave slave receive device Runs)
    (hb : b.Sound device Runs d) (hclean : (b.faults 0).Clean) (hvalid : request.Valid)
    (htask : OfTask request) (hserve : d.serve request = some (answer, d'))
    (hanswered : (receive b.regulator (sendMsg (request.message slave))).2 ≠ none) (errno : ℕ) :
    let x := request.call slave (Wire.line receive) b errno
    x.1 = ⟨⟨request.count, errno⟩, answer⟩ ∧ x.2.Sound device Runs d' := by
  have hreceived : b.received receive (sendMsg (request.message slave)) =
      receive b.regulator (sendMsg (request.message slave)) := by
    rw [Wire.received, hclean.request, arrives_clean]
  have hnone : d.serve request ≠ none := by
    rw [hserve]
    exact Option.some_ne_none _
  obtain ⟨hruns, hreplied⟩ := Wire.received_replied hreg hb hvalid htask hnone
  have hline : (Wire.line receive b (sendMsg (request.message slave))).1 =
      (b.faults 0).reception (b.received receive (sendMsg (request.message slave))).2 := rfl
  have hleft := Wire.call_line slave receive b hvalid errno
  generalize hx : b.received receive (sendMsg (request.message slave)) = x
    at hreceived hruns hreplied hline hleft
  obtain ⟨regulator, reply⟩ := x
  rw [← hreceived] at hanswered
  cases hreplied with
  | passedOver => exact absurd rfl hanswered
  | refused code hrefused => exact absurd hrefused hnone
  | @answered answer₁ _ hserved =>
      rw [hserve] at hserved
      obtain ⟨rfl, hdevice⟩ := Prod.mk.inj (Option.some.inj hserved)
      refine ⟨?_, ?_⟩
      · apply Query.call_of_answer hvalid (asks_of_serve hserve)
        rw [hline]
        exact Fault.reception_of_clean hclean _
      · rw [hleft]
        exact ⟨hruns, hdevice.symm, fun i => hb.faults (i + 1)⟩

/-- What a call on a clean line makes of a request that is not answered. -/
lemma Wire.call_of_passedOver (hclean : (b.faults 0).Clean) (hvalid : request.Valid)
    (hnone : (receive b.regulator (sendMsg (request.message slave))).2 = none) (errno : ℕ) :
    (request.call slave (Wire.line receive) b errno).1.ret.rc = -1 := by
  have hline : (Wire.line receive b (sendMsg (request.message slave))).1 =
      (b.faults 0).reception none := by
    rw [Wire.line, Wire.received, hclean.request, arrives_clean]
    exact congrArg (b.faults 0).reception hnone
  apply Query.call_of_not_accepted hvalid
  rw [hline]
  exact not_accepted_of_timeout _ _

/-- A call that succeeds is the last. -/
lemma tries_of_served {n errno errno' : ℕ}
    (hcall : (request.call slave (Wire.line receive) b errno).1 =
      ⟨⟨request.count, errno'⟩, answer⟩) :
    callTries slave receive request (n + 1) b errno =
      (some answer, (request.call slave (Wire.line receive) b errno).2, errno') := by
  simp only [callTries, tries, hcall, if_true]

/-- A call that fails is followed by the next. -/
lemma tries_of_failed {n errno : ℕ}
    (hfailed : (request.call slave (Wire.line receive) b errno).1.ret.rc = -1) :
    callTries slave receive request (n + 1) b errno =
      let x := request.call slave (Wire.line receive) b errno
      callTries slave receive request n x.2 x.1.ret.errno := by
  have hrc : ¬ (request.call slave (Wire.line receive) b errno).1.ret.rc = request.count := by
    omega
  simp only [callTries, tries, if_neg hrc]

/-- A request has its result, and the slave what serving it leaves. -/
def Succeeds (device : τ → Device) (Runs : τ → Prop) (answer : Response) (d : Device)
    (x : Option Response × Wire τ × ℕ) : Prop :=
  x.1 = some answer ∧ x.2.1.Sound device Runs d

/-- A slave that answers is called once. -/
lemma tries_of_answered (hreg : ModbusSlave slave receive device Runs)
    (hb : b.Sound device Runs d) (hclean : (b.faults 0).Clean) (hvalid : request.Valid)
    (htask : OfTask request) (hserve : d.serve request = some (answer, d'))
    (hanswered : (receive b.regulator (sendMsg (request.message slave))).2 ≠ none) (n errno : ℕ) :
    Succeeds device Runs answer d' (callTries slave receive request (n + 1) b errno) := by
  obtain ⟨hcall, hb'⟩ := Wire.call_of_answered hreg hb hclean hvalid htask hserve hanswered errno
  rw [tries_of_served hcall]
  exact ⟨rfl, hb'⟩

/-- Two calls are enough on a clean line. -/
lemma tries_of_clean (hreg : ModbusSlave slave receive device Runs)
    (hone : PassesOverOne slave receive device Runs Listens) (hb : b.Sound device Runs d)
    (hclean : ∀ i, i < 2 → (b.faults i).Clean) (hvalid : request.Valid) (htask : OfTask request)
    (hserve : d.serve request = some (answer, d')) (errno : ℕ) :
    Succeeds device Runs answer d' (callTries slave receive request 2 b errno) := by
  have hnone : d.serve request ≠ none := by
    rw [hserve]
    exact Option.some_ne_none _
  by_cases hanswered : (receive b.regulator (sendMsg (request.message slave))).2 = none
  · -- the request is passed over, so the slave did not listen before it and does now
    have hdeaf : ¬ Listens b.regulator := fun hlistens =>
      hone.answers _ request hb.runs hlistens hvalid htask (by rwa [hb.device]) hanswered
    have hlistens := hone.recovers _ (sendMsg (request.message slave)) hb.runs hdeaf
    have hfailed := Wire.call_of_passedOver (hclean 0 (by decide)) hvalid hanswered errno
    have hleft := Wire.call_line slave receive b hvalid errno
    have hreceived : b.received receive (sendMsg (request.message slave)) =
        receive b.regulator (sendMsg (request.message slave)) := by
      rw [Wire.received, (hclean 0 (by decide)).request, arrives_clean]
    obtain ⟨hruns, hreplied⟩ := Wire.received_replied hreg hb hvalid htask hnone
    have hdevice : device (b.received receive (sendMsg (request.message slave))).1 = d :=
      hreplied.eq_of_none (hreceived ▸ hanswered)
    rw [tries_of_failed hfailed]
    simp only [hleft]
    refine tries_of_answered hreg ⟨hruns, hdevice, fun i => hb.faults (i + 1)⟩
      (hclean 1 (by decide)) hvalid htask hserve ?_ 0 _
    refine hone.answers _ request hruns ?_ hvalid htask (by rwa [hdevice])
    rw [hreceived]
    exact hlistens
  · exact tries_of_answered hreg hb (hclean 0 (by decide)) hvalid htask hserve hanswered 1 errno

/-- **Three calls are enough for one fault**, whatever it is and whenever it comes. -/
theorem tries_of_one_fault (hreg : ModbusSlave slave receive device Runs)
    (hone : PassesOverOne slave receive device Runs Listens) (hb : b.Sound device Runs d)
    (hlistens : Listens b.regulator) {k : ℕ}
    (hclean : ∀ i, i < 3 → i ≠ k → (b.faults i).Clean) (hvalid : request.Valid)
    (htask : OfTask request) (hserve : d.serve request = some (answer, d')) (errno : ℕ) :
    Succeeds device Runs answer d' (callTries slave receive request 3 b errno) := by
  have hnone : d.serve request ≠ none := by
    rw [hserve]
    exact Option.some_ne_none _
  by_cases hk : k = 0
  · -- the first call takes the fault
    obtain ⟨d₁, htakes, hb₁⟩ := Wire.call_takes hreg hb hvalid htask hnone errno
    have hrest : ∀ i, i < 2 →
        ((request.call slave (Wire.line receive) b errno).2.faults i).Clean := by
      intro i hi
      rw [Wire.call_line slave receive b hvalid errno]
      exact hclean (i + 1) (by omega) (by omega)
    have hagain : (request.call slave (Wire.line receive) b errno).1.ret.rc = -1 →
        d₁.serve request = some (answer, d') →
        Succeeds device Runs answer d' (callTries slave receive request 3 b errno) := by
      intro hfailed hserve₁
      rw [tries_of_failed hfailed]
      exact tries_of_clean hreg hone hb₁ hrest hvalid htask hserve₁ _
    generalize hx : request.call slave (Wire.line receive) b errno = x at htakes hb₁ hagain
    obtain ⟨o, b₁⟩ := x
    cases htakes with
    | @served answer₁ _ errno' hserve₁ =>
        obtain ⟨rfl, rfl⟩ := Prod.mk.inj (Option.some.inj (hserve₁.symm.trans hserve))
        rw [tries_of_served (congrArg Prod.fst hx), hx]
        exact ⟨rfl, hb₁⟩
    | @unconfirmed answer₁ _ _ hserve₁ hrc =>
        obtain ⟨rfl, rfl⟩ := Prod.mk.inj (Option.some.inj (hserve₁.symm.trans hserve))
        exact hagain hrc (serve_again hserve)
    | @failed _ hrc => exact hagain hrc hserve
  · exact tries_of_answered hreg hb (hclean 0 (by decide) (Ne.symm hk)) hvalid htask hserve
      (hone.answers _ request hb.runs hlistens hvalid htask (by rwa [hb.device])) 2 errno

end Slave

/-! ### A server as the slave -/

/-- A transaction without a fault. -/
def quiet : Fault := ⟨some fun _ => 0, some fun _ => 0, fun _ => 0, fun _ => 0⟩

/-- libmodbus's own server as a slave. -/
def serverReceive (version : List Byte) (slave : Byte) (server : Option Server)
    (frame : List Byte) : Option Server × Option (List Byte) :=
  Bus.served version slave ⟨server, fun _ => quiet⟩ frame

/-- Its tables; none once it has left one. -/
def serverDevice (server : Option Server) : Device :=
  server.elim ⟨fun _ => none, fun _ => none, fun _ => none, fun _ => none⟩ fun v =>
    v.mapping.device

/-- It has left no table. -/
def ServerRuns (server : Option Server) : Prop :=
  ∃ v, server = some v ∧ v.mapping.WellFormed

/-- It takes the next message for a request. -/
def ServerListens (server : Option Server) : Prop :=
  ∀ v, server = some v → v.confirmationToIgnore = false

/-- What a server makes of a frame that it has received. -/
lemma serverReceive_some (version : List Byte) (slave : Byte) (v : Server) (frame : List Byte) :
    serverReceive version slave (some v) frame =
      ((v.round version slave (Reception.of (fun _ => 0) frame)).map Prod.fst,
        (v.round version slave (Reception.of (fun _ => 0) frame)).bind Prod.snd) := by
  rw [serverReceive, Bus.served, quiet, arrives_clean]
  simp only
  cases v.round version slave (Reception.of (fun _ => 0) frame) <;> rfl

/-- **A server is a slave.** -/
theorem server_modbusSlave (version : List Byte) {slave : Byte} (hslave : slave ≠ 0) :
    ModbusSlave slave (serverReceive version slave) serverDevice ServerRuns where
  damaged := by
    rintro _ frame ⟨v, rfl, hm⟩ hne
    obtain ⟨confirmationToIgnore, hround⟩ := Server.round_of_not_accepted version v
      (not_accepted_of_ne slave (Reception.brings_of (fun _ => 0) frame) hne .indication)
    rw [serverReceive_some, hround]
    exact ⟨⟨_, rfl, hm⟩, rfl, rfl⟩
  request := by
    rintro _ request ⟨v, rfl, hm⟩ hvalid htask -
    have hwithin : request.Within v.mapping.startRegisters := by
      cases request with
      | writeAndReadRegisters => exact absurd htask id
      | _ => trivial
    have hquiet : quiet.Tolerable :=
      ⟨fun pattern h => Option.some.inj h ▸ withinSixteen_zero,
        fun pattern h => Option.some.inj h ▸ withinSixteen_zero⟩
    have hserved := Bus.served_as version (b := ⟨some v, fun _ => quiet⟩) rfl hm hvalid hwithin
      hslave hquiet
    obtain ⟨v', hv', hm', -, hreplied⟩ := hserved.replied hm
    refine ⟨⟨v', hv', hm'⟩, ?_⟩
    rw [serverReceive, hv']
    exact hreplied

/-- **It passes over one message at most**: the one that it takes for a confirmation. -/
theorem server_passesOverOne (version : List Byte) {slave : Byte} (hslave : slave ≠ 0) :
    PassesOverOne slave (serverReceive version slave) serverDevice ServerRuns ServerListens where
  answers := by
    rintro _ request ⟨v, rfl, hm⟩ hlistens hvalid htask -
    have hwithin : request.Within v.mapping.startRegisters := by
      cases request with
      | writeAndReadRegisters => exact absurd htask id
      | _ => trivial
    exact (Bus.served_of_arrives version (b := ⟨some v, fun _ => quiet⟩) rfl (hlistens v rfl) hm
      hvalid hwithin hslave (arrives_clean _)).2
  recovers := by
    rintro _ frame ⟨v, rfl, -⟩ hdeaf
    have hignore : v.confirmationToIgnore = true := by
      by_contra hlistens
      exact hdeaf fun v' hv' => Option.some.inj hv' ▸ Bool.eq_false_iff.mpr hlistens
    rw [serverReceive_some, Server.round_of_ignore hignore]
    exact fun v' hv' => Option.some.inj hv' ▸ rfl

/-- A server of four registers on a line on which the first answer is lost. -/
def smallWire : Wire (Option Server) := ⟨(smallBus firstAnswerLost).server, firstAnswerLost⟩

/-- It runs. -/
lemma sound_smallWire : smallWire.Sound serverDevice ServerRuns smallDevice :=
  ⟨⟨_, rfl, ⟨by decide, by decide⟩⟩, rfl, tolerable_firstAnswerLost⟩

/-- The task writes and reads the registers of a server whose first answer is lost. -/
theorem retries_smallWire :
    Written serverDevice ServerRuns smallDevice 1 [7]
        (writeReg 1 (Wire.line (serverReceive [] 1)) smallWire 1 7 0) ∧
      Written serverDevice ServerRuns smallDevice 1 [8, 9]
        (writeRegs 1 (Wire.line (serverReceive [] 1)) smallWire 1 [8, 9] 0) ∧
      (readRegs 1 (Wire.line (serverReceive [] 1)) smallWire 1 3 3 0).2.1.Sound serverDevice
        ServerRuns smallDevice ∧
      ∀ values,
        (readRegs 1 (Wire.line (serverReceive [] 1)) smallWire 1 3 3 0).1 = some values →
          smallDevice.register.read 1 3 = some values :=
  retries_sound (server_modbusSlave [] (by decide)) sound_smallWire 7 (by decide) (by decide)
    (by decide) (by decide) 3 0

/-- The registers are read although the first answer is lost. -/
theorem tries_smallWire :
    Succeeds serverDevice ServerRuns (.registers [1, 2, 3, 4]) smallDevice
      (callTries 1 (serverReceive [] 1) (.readRegisters false 0 4) 3 smallWire 0) := by
  have hclean : ∀ i, i < 3 → i ≠ 0 → (smallWire.faults i).Clean := fun i _ hi =>
    ⟨rfl, if_neg hi⟩
  have hvalid : (Query.readRegisters false 0 4).Valid := ⟨by decide, by decide⟩
  exact tries_of_one_fault (server_modbusSlave [] (by decide))
    (server_passesOverOne [] (by decide)) sound_smallWire
    (fun v hv => by rw [← Option.some.inj hv]) hclean hvalid trivial rfl 0

end PanelFirmware.Regulator
