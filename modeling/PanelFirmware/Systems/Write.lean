import PanelFirmware.Lib.Bytes
import PanelFirmware.Lib.Machine
import PanelFirmware.Lib.Ring

/-!
# `systems/src/write.c`: the log

`_write` copies its bytes into a circular buffer and starts the UART, whose interrupt starts the
next segment after each one. A call runs inside a critical section, so that the machine steps by
whole calls, single bytes taken from the buffer by the UART, and transmit-complete interrupts. The
state also records the bytes of the calls that returned and the bytes transmitted.

* `Inv`: the bytes accepted are the ones transmitted and the ones in the buffer that are still to
  be sent, in order.
* `step_inv`: every step keeps it, as long as the bytes of a call fit.
* `log_lossless`: what the log transmits over any run of calls that fit.
-/

namespace PanelFirmware.Systems.Write

open PanelFirmware.Lib PanelFirmware.Lib.Ring

/-! ### The machine -/

/-- Source: `write.c` `bffSize`, `BUFFER_LEN`. -/
def bffSize : ℕ := 1024 * 4

/-- The index of the last byte of the buffer. Source: `write.c` `bffEnd`. -/
def bffEnd : ℕ := bffSize - 1

/-- The pointers are indices; `dmaAddr` and `dmaLen` are the next byte of the buffer the UART
takes and the number of bytes it has still to take; `accepted` and `transmitted` are recorded.
Source: `write.c` `buffer`, `bffWr`, `bffRd`; `uart.c` `uart_write`, `txState`. -/
structure State where
  buffer : ℕ → Byte
  bffWr : ℕ
  bffRd : ℕ
  txRun : Bool
  dmaAddr : ℕ
  dmaLen : ℕ
  accepted : List Byte
  transmitted : List Byte

/-- The state before the first call. -/
def init : State := ⟨fun _ => 0, 0, 0, false, 0, 0, [], []⟩

/-- Source: `uart.c` `uart_write`. -/
def uartWrite (s : State) (src len : ℕ) : State :=
  { s with dmaAddr := src, dmaLen := len % 0x10000, txRun := true }

/-- Source: `write.c` `txHandler`; `_write`, "Send from UART". -/
def txHandler (s : State) : State :=
  if s.txRun then s
  else
    let s := if s.bffRd < s.bffWr then
        { uartWrite s s.bffRd (s.bffWr - s.bffRd) with bffRd := s.bffWr }
      else s
    if s.bffRd > s.bffWr then
      { uartWrite s s.bffRd (bffEnd - s.bffRd) with bffRd := 0 }
    else s

/-- The bytes one round of the loop copies. Source: `write.c` `_write`, `numBytesToWrite`. -/
def numBytesToWrite (bffRd bffWr numBytes : ℕ) : ℕ :=
  let free := if bffRd > bffWr then bffRd - bffWr - 1 else bffSize - (bffWr - bffRd + 1)
  min (min free (bffEnd - bffWr)) numBytes

/-- The loop over the rounds, with a bound on their number; `none` once it is used up.
Source: `write.c` `_write`, `do { ... } while(numBytes)`. -/
def copyLoop (bffRd : ℕ) : ℕ → (ℕ → Byte) → ℕ → List Byte → Option ((ℕ → Byte) × ℕ)
  | 0, _, _, _ => none
  | rounds + 1, buffer, bffWr, data =>
      let n := numBytesToWrite bffRd bffWr data.length
      let buffer := store buffer bffWr (data.take n)
      let bffWr := if bffWr + n = bffEnd then 0 else bffWr + n
      if data.drop n = [] then some (buffer, bffWr)
      else copyLoop bffRd rounds buffer bffWr (data.drop n)

/-- A call; `none` where it never returns (`copyLoop_bound`: a round that copies nothing is
repeated for ever, and every other round copies a byte).
Source: `write.c` `_write`. -/
def write (data : List Byte) (s : State) : Option State := do
  let (buffer, bffWr) ← copyLoop s.bffRd (data.length + 1) s.buffer s.bffWr data
  some (txHandler { s with buffer := buffer, bffWr := bffWr, accepted := s.accepted ++ data })

/-- What can happen: a call, the UART takes a byte from the buffer, the interrupt after the last
byte. -/
inductive Event
  | write (data : List Byte)
  | dmaByte
  | txComplete

/-- The events of the UART. -/
def Event.OfUart : Event → Prop
  | .write _ => False
  | _ => True

/-- Source: `write.c` `_write`, `txHandler`; `uart.c` `USART_IRQHandler`, "USART TRANSFER
COMPLETE". -/
def step (s : State) : Event → Option State
  | .write data => write data s
  | .dmaByte =>
      if s.txRun ∧ 0 < s.dmaLen then
        some { s with
          transmitted := s.transmitted ++ [s.buffer s.dmaAddr]
          dmaAddr := s.dmaAddr + 1
          dmaLen := s.dmaLen - 1 }
      else none
  | .txComplete =>
      if s.txRun ∧ s.dmaLen = 0 then some (txHandler { s with txRun := false }) else none

/-! ### The properties -/

/-- The bytes in the buffer that no segment has been started for. -/
def State.pending (s : State) : ℕ := between bffEnd s.bffRd s.bffWr

/-- The bytes in the buffer that are still to be sent, in the order the UART will take them. -/
def State.unsent (s : State) : List Byte :=
  contents bffEnd s.buffer s.dmaAddr (s.dmaLen + s.pending)

/-- A call fits if the buffer does not become full of bytes no segment has been started for, and
has places for these and for the bytes of the segment that are still to be sent. -/
def WriteFits (s : State) : Event → Prop
  | .write data => s.pending + data.length < bffEnd ∧ s.dmaLen + s.pending + data.length ≤ bffEnd
  | _ => True

instance (s : State) (e : Event) : Decidable (WriteFits s e) :=
  match e with
  | .write data => inferInstanceAs (Decidable (s.pending + data.length < bffEnd ∧
      s.dmaLen + s.pending + data.length ≤ bffEnd))
  | .dmaByte => isTrue trivial
  | .txComplete => isTrue trivial

/-- The log has lost nothing: what was transmitted is the front of what was accepted, the rest is
in the buffer, to be sent in this order, and the events of the UART transmit all of it. -/
structure Lossless (s : State) : Prop where
  front : s.transmitted <+: s.accepted
  rest : s.accepted = s.transmitted ++ s.unsent
  drained : ∃ es t, (∀ e ∈ es, e.OfUart) ∧ Machine.run step s es = some t ∧ t.txRun = false ∧
    t.transmitted = s.accepted

/-- The invariant, but that an idle UART has nothing to send. -/
structure Core (s : State) : Prop where
  wr_lt : s.bffWr < bffEnd
  rd_lt : s.bffRd < bffEnd
  dma_le : s.dmaAddr + s.dmaLen ≤ bffEnd
  dma_rd : (s.dmaAddr + s.dmaLen) % bffEnd = s.bffRd
  fits : s.dmaLen + s.pending ≤ bffEnd
  stopped : s.txRun = false → s.dmaLen = 0
  ledger : s.accepted = s.transmitted ++ s.unsent

/-- The invariant of the log. -/
structure Inv (s : State) : Prop extends Core s where
  idle : s.txRun = false → s.bffRd = s.bffWr

/-- The invariant holds at the start. -/
lemma init_inv : Inv init := by
  refine ⟨⟨by decide, by decide, by decide, rfl, by decide, fun _ => rfl, rfl⟩, fun _ => rfl⟩

/-! ### Starting a segment -/

/-- Nothing is started while the UART runs. -/
lemma txHandler_of_run {s : State} (hrun : s.txRun = true) : txHandler s = s :=
  if_pos hrun

/-- Nothing is started when all has been. -/
lemma txHandler_of_eq {s : State} (heq : s.bffRd = s.bffWr) : txHandler s = s := by
  have hnone : ¬ s.bffRd < s.bffWr ∧ ¬ s.bffRd > s.bffWr := by omega
  cases hrun : s.txRun with
  | true => exact txHandler_of_run hrun
  | false =>
      unfold txHandler
      rw [hrun, if_neg Bool.false_ne_true]
      simp only [hnone.1, if_false, hnone.2]

/-- Starting a segment accepts nothing. -/
lemma txHandler_accepted (s : State) : (txHandler s).accepted = s.accepted := by
  unfold txHandler
  dsimp only
  split_ifs <;> rfl

/-- The bytes up to the write pointer are started. -/
lemma txHandler_of_lt {s : State} (hrun : s.txRun = false) (hwr : s.bffWr < bffEnd)
    (hlt : s.bffRd < s.bffWr) :
    txHandler s = { s with
      dmaAddr := s.bffRd
      dmaLen := s.bffWr - s.bffRd
      txRun := true
      bffRd := s.bffWr } := by
  have hlen : (s.bffWr - s.bffRd) % 0x10000 = s.bffWr - s.bffRd := by
    unfold bffEnd bffSize at hwr
    omega
  unfold txHandler
  rw [hrun, if_neg Bool.false_ne_true]
  simp only [if_pos hlt, gt_iff_lt, lt_irrefl, if_false, uartWrite, hlen]

/-- The bytes up to the end of the buffer are started. -/
lemma txHandler_of_gt {s : State} (hrun : s.txRun = false) (hgt : s.bffWr < s.bffRd) :
    txHandler s = { s with
      dmaAddr := s.bffRd
      dmaLen := bffEnd - s.bffRd
      txRun := true
      bffRd := 0 } := by
  have hlen : (bffEnd - s.bffRd) % 0x10000 = bffEnd - s.bffRd := by
    unfold bffEnd bffSize
    omega
  unfold txHandler
  rw [hrun, if_neg Bool.false_ne_true]
  simp only [Nat.not_lt.mpr hgt.le, if_false, gt_iff_lt, if_pos hgt, uartWrite, hlen]

/-- A segment started at the read pointer takes its bytes from those no segment had been started
for, in their order. -/
lemma Core.start {s : State} (h : Core s) (hrun : s.txRun = false) {len rd : ℕ}
    (hlen : s.bffRd + len ≤ bffEnd) (hrd : (s.bffRd + len) % bffEnd = rd)
    (hcount : len + between bffEnd rd s.bffWr = s.pending) :
    Inv { s with dmaAddr := s.bffRd, dmaLen := len, txRun := true, bffRd := rd } := by
  have hsum := h.fits
  have hstart := h.dma_rd
  rw [h.stopped hrun, Nat.zero_add] at hsum
  rw [h.stopped hrun, Nat.add_zero] at hstart
  refine ⟨⟨h.wr_lt, ?_, hlen, hrd, hcount.trans_le hsum, fun hidle => (by cases hidle), ?_⟩,
    fun hidle => (by cases hidle)⟩
  · rw [← hrd]
    exact Nat.mod_lt _ (by decide)
  · have hunsent : s.unsent
        = contents bffEnd s.buffer s.bffRd (len + between bffEnd rd s.bffWr) := by
      rw [State.unsent, h.stopped hrun, Nat.zero_add, hcount, ← hstart, contents_mod]
    exact h.ledger.trans (congrArg (s.transmitted ++ ·) hunsent)

/-- Where the UART is idle a segment is started, if there is anything to send. -/
lemma txHandler_inv {s : State} (h : Core s) : Inv (txHandler s) := by
  have hwr := h.wr_lt
  have hrd := h.rd_lt
  cases hrun : s.txRun with
  | true =>
      rw [txHandler_of_run hrun]
      exact ⟨h, fun hidle => absurd (hrun.symm.trans hidle) (by decide)⟩
  | false =>
      rcases lt_trichotomy s.bffRd s.bffWr with hlt | heq | hgt
      · rw [txHandler_of_lt hrun hwr hlt]
        refine h.start hrun (by omega) ?_ ?_
        · rw [Nat.add_sub_cancel' hlt.le, Nat.mod_eq_of_lt hwr]
        · rw [State.pending, between, between, if_pos le_rfl, if_pos hlt.le]
          omega
      · rw [txHandler_of_eq heq]
        exact ⟨h, fun _ => heq⟩
      · rw [txHandler_of_gt hrun hgt]
        refine h.start hrun (by omega) ?_ ?_
        · rw [Nat.add_sub_cancel' hrd.le, Nat.mod_self]
        · rw [State.pending, between, between, if_pos (Nat.zero_le _), if_neg (by omega),
            Nat.sub_zero]

/-! ### A call -/

/-- While the bytes fit, a round copies all of them, or as many as there are places up to the end
of the buffer. -/
lemma numBytesToWrite_eq {bffRd bffWr numBytes : ℕ} (hrd : bffRd < bffEnd) (hwr : bffWr < bffEnd)
    (hfits : between bffEnd bffRd bffWr + numBytes < bffEnd) :
    numBytesToWrite bffRd bffWr numBytes = min (bffEnd - bffWr) numBytes := by
  unfold between at hfits
  unfold numBytesToWrite
  unfold bffEnd bffSize at *
  dsimp only
  split_ifs at hfits ⊢ <;> omega

/-- **The loop of a call** whose bytes fit: it ends, with the write pointer moved on by the bytes,
and the bytes are appended to every queue that ends at the write pointer, as far as there are
places. -/
lemma copyLoop_spec {bffRd : ℕ} (hrd : bffRd < bffEnd) {rounds : ℕ} (buffer : ℕ → Byte)
    {bffWr : ℕ} {data : List Byte} (hwr : bffWr < bffEnd) (hrounds : data.length < rounds)
    (hfits : between bffEnd bffRd bffWr + data.length < bffEnd) :
    ∃ buffer', copyLoop bffRd rounds buffer bffWr data
        = some (buffer', (bffWr + data.length) % bffEnd) ∧
      ∀ start count, (start + count) % bffEnd = bffWr → count + data.length ≤ bffEnd →
        contents bffEnd buffer' start (count + data.length)
          = contents bffEnd buffer start count ++ data := by
  induction rounds generalizing buffer bffWr data with
  | zero => exact absurd hrounds (Nat.not_lt_zero _)
  | succ rounds ih =>
      have hn := numBytesToWrite_eq hrd hwr hfits
      by_cases hall : data.length ≤ bffEnd - bffWr
      · -- the bytes end within the linear run
        rw [Nat.min_eq_right hall] at hn
        have hnext : (if bffWr + data.length = bffEnd then 0 else bffWr + data.length)
            = (bffWr + data.length) % bffEnd := by
          split_ifs with hend
          · rw [hend, Nat.mod_self]
          · rw [Nat.mod_eq_of_lt (by omega)]
        refine ⟨store buffer bffWr data, ?_, fun start count hbehind hroom => ?_⟩
        · simp only [copyLoop, hn, List.take_length, List.drop_length, if_true, hnext]
        · exact contents_store hbehind (by omega) hroom
      · -- the bytes wrap around
        have hmin : numBytesToWrite bffRd bffWr data.length = bffEnd - bffWr := by
          rw [hn, Nat.min_eq_left (by omega)]
        generalize hk : bffEnd - bffWr = k at hmin hall
        have hend : (0 + (data.length - k)) % bffEnd = (bffWr + data.length) % bffEnd := by
          have hwrap : bffWr + data.length = 0 + (data.length - k) + bffEnd := by omega
          rw [hwrap, Nat.add_mod_right]
        have htake : (data.take k).length = k := by rw [List.length_take]; omega
        have hdrop : (data.drop k).length = data.length - k := List.length_drop
        have hsome : data.drop k ≠ [] := by
          rw [← List.length_pos_iff, hdrop]
          omega
        have hrest : between bffEnd bffRd 0 + (data.drop k).length < bffEnd := by
          unfold between at hfits ⊢
          split_ifs at hfits ⊢ <;> omega
        obtain ⟨buffer', hloop, hqueue⟩ := ih (store buffer bffWr (data.take k))
          (show 0 < bffEnd by decide) (by omega) hrest
        refine ⟨buffer', ?_, fun start count hbehind hroom => ?_⟩
        · rw [copyLoop]
          simp only [hmin, if_neg hsome, if_pos (show bffWr + k = bffEnd by omega)]
          rw [hloop, hdrop, hend]
        · have hfront : contents bffEnd (store buffer bffWr (data.take k)) start (count + k)
              = contents bffEnd buffer start count ++ data.take k := by
            have hstored : contents bffEnd (store buffer bffWr (data.take k)) start
                (count + (data.take k).length)
                  = contents bffEnd buffer start count ++ data.take k :=
              contents_store hbehind (by omega) (by omega)
            rwa [htake] at hstored
          have hzero : (start + (count + k)) % bffEnd = 0 := by
            have hwhole : bffWr + k = bffEnd := by omega
            rw [← Nat.add_assoc, ← Nat.mod_add_mod, hbehind, hwhole, Nat.mod_self]
          have hrear := hqueue start (count + k) hzero (by omega)
          rw [hfront, hdrop, List.append_assoc, List.take_append_drop] at hrear
          rw [← hrear]
          congr 1
          omega

/-- Moving the write pointer on by bytes that fit adds them to those pending. -/
lemma between_add {bffRd bffWr n : ℕ} (hrd : bffRd < bffEnd) (hwr : bffWr < bffEnd)
    (hfits : between bffEnd bffRd bffWr + n < bffEnd) :
    between bffEnd bffRd ((bffWr + n) % bffEnd) = between bffEnd bffRd bffWr + n := by
  unfold between bffEnd bffSize at *
  split_ifs at hfits ⊢ <;> omega

/-- **A call** whose bytes fit returns, and keeps the invariant. -/
lemma write_inv {s : State} (h : Inv s) {data : List Byte} (hfits : WriteFits s (.write data)) :
    ∃ t, write data s = some t ∧ Inv t ∧ t.accepted = s.accepted ++ data := by
  obtain ⟨hfull, hroom⟩ := hfits
  have hpos : 0 < bffEnd := by decide
  obtain ⟨buffer', hloop, hqueue⟩ := copyLoop_spec h.rd_lt s.buffer h.wr_lt
    (Nat.lt_succ_self data.length) hfull
  have hpending := between_add h.rd_lt h.wr_lt hfull
  -- the queue of the UART ends at the write pointer
  have hbehind : (s.dmaAddr + (s.dmaLen + s.pending)) % bffEnd = s.bffWr := by
    rw [← Nat.add_assoc, ← Nat.mod_add_mod, h.dma_rd]
    have hwr := h.wr_lt
    have hrd := h.rd_lt
    unfold State.pending between
    split_ifs with hle
    · rw [Nat.add_sub_cancel' hle, Nat.mod_eq_of_lt hwr]
    · rw [← Nat.add_assoc, Nat.add_sub_cancel' hrd.le, Nat.add_mod_left, Nat.mod_eq_of_lt hwr]
  have hstored := hqueue s.dmaAddr (s.dmaLen + s.pending) hbehind hroom
  have hcore : Core { s with
      buffer := buffer'
      bffWr := (s.bffWr + data.length) % bffEnd
      accepted := s.accepted ++ data } := by
    refine ⟨Nat.mod_lt _ hpos, h.rd_lt, h.dma_le, h.dma_rd, ?_, h.stopped, ?_⟩
    · change s.dmaLen + between bffEnd s.bffRd ((s.bffWr + data.length) % bffEnd) ≤ bffEnd
      rw [hpending, ← Nat.add_assoc]
      exact hroom
    · change s.accepted ++ data = s.transmitted ++ contents bffEnd buffer' s.dmaAddr
        (s.dmaLen + between bffEnd s.bffRd ((s.bffWr + data.length) % bffEnd))
      rw [hpending, ← Nat.add_assoc]
      change s.accepted ++ data = s.transmitted ++ contents bffEnd buffer' s.dmaAddr
        (s.dmaLen + s.pending + data.length)
      rw [hstored, h.ledger, List.append_assoc]
      rfl
  refine ⟨_, ?_, txHandler_inv hcore, txHandler_accepted _⟩
  unfold write
  rw [hloop]
  rfl

/-! ### The UART -/

/-- A byte is taken from the front of those to be sent. -/
lemma dmaByte_inv {s : State} (h : Inv s) (hlen : 0 < s.dmaLen) :
    Inv { s with
      transmitted := s.transmitted ++ [s.buffer s.dmaAddr]
      dmaAddr := s.dmaAddr + 1
      dmaLen := s.dmaLen - 1 } := by
  have haddr : s.dmaAddr + 1 + (s.dmaLen - 1) = s.dmaAddr + s.dmaLen := by omega
  have hle := h.dma_le
  have hfits := h.fits
  refine ⟨⟨h.wr_lt, h.rd_lt, ?_, ?_, ?_, fun hidle => ?_, ?_⟩, h.idle⟩
  · change s.dmaAddr + 1 + (s.dmaLen - 1) ≤ bffEnd
    omega
  · change (s.dmaAddr + 1 + (s.dmaLen - 1)) % bffEnd = s.bffRd
    rw [haddr]
    exact h.dma_rd
  · change s.dmaLen - 1 + s.pending ≤ bffEnd
    omega
  · have hzero := h.stopped hidle
    omega
  · change s.accepted = s.transmitted ++ [s.buffer s.dmaAddr]
      ++ contents bffEnd s.buffer (s.dmaAddr + 1) (s.dmaLen - 1 + s.pending)
    have hcount : s.dmaLen + s.pending = s.dmaLen - 1 + s.pending + 1 := by omega
    rw [h.ledger, State.unsent, hcount, contents_succ, Nat.mod_eq_of_lt (by omega),
      List.append_assoc, List.singleton_append]

/-- The state in which the interrupt after the last byte starts the next segment. -/
lemma Inv.stop {s : State} (h : Inv s) (hlen : s.dmaLen = 0) : Core { s with txRun := false } :=
  ⟨h.wr_lt, h.rd_lt, h.dma_le, h.dma_rd, h.fits, fun _ => hlen, h.ledger⟩

/-- **Every step** whose call fits keeps the invariant. -/
theorem step_inv {s t : State} {e : Event} (h : Inv s) (hfits : WriteFits s e)
    (hstep : step s e = some t) : Inv t := by
  cases e with
  | write data =>
      obtain ⟨u, hu, hinv, -⟩ := write_inv h hfits
      obtain rfl := Option.some.inj (hu.symm.trans hstep)
      exact hinv
  | dmaByte =>
      simp only [step] at hstep
      split_ifs at hstep with hrun
      obtain rfl := Option.some.inj hstep
      exact dmaByte_inv h hrun.2
  | txComplete =>
      simp only [step] at hstep
      split_ifs at hstep with hrun
      obtain rfl := Option.some.inj hstep
      exact txHandler_inv (h.stop hrun.2)

/-! ### Draining -/

/-- What is left for the UART to do: bytes to send, bytes no segment has been started for, and the
interrupt. -/
def State.work (s : State) : ℕ := s.dmaLen + s.pending + s.pending + s.txRun.toNat

/-- Starting a segment leaves less to do than the bytes it was started for twice over. -/
lemma work_txHandler {s : State} (h : Core s) (hrun : s.txRun = false) :
    (txHandler s).work < s.pending + s.pending + 1 := by
  have hrd := h.rd_lt
  rw [State.pending]
  rcases lt_trichotomy s.bffRd s.bffWr with hlt | heq | hgt
  · rw [txHandler_of_lt hrun h.wr_lt hlt]
    change s.bffWr - s.bffRd + between bffEnd s.bffWr s.bffWr + between bffEnd s.bffWr s.bffWr + 1
      < _
    rw [between, between, if_pos le_rfl, if_pos hlt.le]
    omega
  · rw [txHandler_of_eq heq, State.work, State.pending, h.stopped hrun, hrun, Bool.toNat_false]
    omega
  · rw [txHandler_of_gt hrun hgt]
    change bffEnd - s.bffRd + between bffEnd 0 s.bffWr + between bffEnd 0 s.bffWr + 1 < _
    rw [between, between, if_pos (Nat.zero_le _), if_neg (by omega)]
    omega

/-- A UART that runs can take a step of its own, which accepts nothing and leaves less to do. -/
lemma exists_uartStep {s : State} (h : Inv s) (hrun : s.txRun = true) :
    ∃ e t, e.OfUart ∧ WriteFits s e ∧ step s e = some t ∧ t.accepted = s.accepted ∧
      t.work < s.work := by
  by_cases hlen : 0 < s.dmaLen
  · refine ⟨.dmaByte, _, trivial, trivial, if_pos ⟨hrun, hlen⟩, rfl, ?_⟩
    change s.dmaLen - 1 + s.pending + s.pending + s.txRun.toNat
      < s.dmaLen + s.pending + s.pending + s.txRun.toNat
    omega
  · have hzero : s.dmaLen = 0 := Nat.eq_zero_of_not_pos hlen
    refine ⟨.txComplete, _, trivial, trivial, if_pos ⟨hrun, hzero⟩, txHandler_accepted _, ?_⟩
    have hwork : s.work = s.pending + s.pending + 1 := by
      rw [State.work, hzero, hrun, Nat.zero_add, Bool.toNat_true]
    rw [hwork]
    exact work_txHandler (h.stop hzero) rfl

/-- An idle UART has sent everything. -/
lemma Inv.transmitted_of_idle {s : State} (h : Inv s) (hidle : s.txRun = false) :
    s.transmitted = s.accepted := by
  have hpending : s.pending = 0 := by
    rw [State.pending, between, h.idle hidle, if_pos le_rfl, Nat.sub_self]
  rw [h.ledger, State.unsent, h.stopped hidle, hpending]
  exact (List.append_nil _).symm

/-- **Draining.** The events of the UART lead to a state in which all accepted bytes have been
transmitted. -/
theorem drains {s : State} (h : Inv s) :
    ∃ es t, (∀ e ∈ es, e.OfUart) ∧ Machine.run step s es = some t ∧ t.txRun = false ∧
      t.transmitted = s.accepted := by
  induction hwork : s.work using Nat.strong_induction_on generalizing s with
  | _ n ih =>
      cases hrun : s.txRun with
      | false =>
          exact ⟨[], s, fun e he => absurd he List.not_mem_nil, rfl, hrun,
            h.transmitted_of_idle hrun⟩
      | true =>
          obtain ⟨e, u, huart, hfits, hstep, haccepted, hless⟩ := exists_uartStep h hrun
          obtain ⟨es, t, hes, hrest, hidle, hsent⟩ :=
            ih u.work (by omega) (step_inv h hfits hstep) rfl
          refine ⟨e :: es, t, fun e' he' => ?_, ?_, hidle, hsent.trans haccepted⟩
          · rcases List.mem_cons.mp he' with rfl | he'
            · exact huart
            · exact hes e' he'
          · rw [Machine.run, hstep]
            exact hrest

/-- The invariant is enough for the log to have lost nothing. -/
lemma Inv.lossless {s : State} (h : Inv s) : Lossless s :=
  ⟨⟨s.unsent, h.ledger.symm⟩, h.ledger, drains h⟩

/-- **The log is a lossless FIFO** over every run of calls that fit, bytes sent and interrupts, in
any order: in every state reached it has lost, repeated, reordered and overwritten nothing, and a
call that fits returns. -/
theorem log_lossless {es : List Event} {s : State} (hfits : Machine.Meets step WriteFits init es)
    (hrun : Machine.run step init es = some s) :
    Lossless s ∧ ∀ data, WriteFits s (.write data) → ∃ t, step s (.write data) = some t := by
  have hinv : Inv s :=
    Machine.run_induction (fun _ _ _ h hok hstep => step_inv h hok hstep) init_inv hfits hrun
  refine ⟨hinv.lossless, fun data hdata => ?_⟩
  obtain ⟨t, ht, -⟩ := write_inv hinv hdata
  exact ⟨t, ht⟩

/-- A call while a segment is being sent, with the interrupt in between. -/
def twoCalls : List Event :=
  [.write [0x68, 0x69], .dmaByte, .write [0x0A], .dmaByte, .txComplete, .dmaByte]

/-- The run of the two calls. -/
theorem twoCalls_lossless : ∃ s, Machine.run step init twoCalls = some s ∧ Lossless s ∧
    ∀ data, WriteFits s (.write data) → ∃ t, step s (.write data) = some t := by
  obtain ⟨s, hs⟩ : ∃ s, Machine.run step init twoCalls = some s :=
    Option.isSome_iff_exists.mp (by decide +kernel)
  exact ⟨s, hs, log_lossless (by decide +kernel) hs⟩

/-- A call that fills the buffer up to its end leaves it empty: nothing of it is ever sent. -/
theorem full_buffer_lost : ¬ ∀ es s, Machine.run step init es = some s → Lossless s := by
  intro h
  have hn : numBytesToWrite 0 0 bffEnd = bffEnd := by decide
  have hcall : write (List.replicate bffEnd 0) init = some { init with
      buffer := store init.buffer 0 (List.replicate bffEnd 0)
      accepted := List.replicate bffEnd 0 } := by
    have hloop : copyLoop 0 (bffEnd + 1) init.buffer 0 (List.replicate bffEnd 0)
        = some (store init.buffer 0 (List.replicate bffEnd 0), 0) := by
      simp only [copyLoop, List.length_replicate, hn, Nat.zero_add, if_true, List.drop_replicate,
        Nat.sub_self, List.replicate_zero, List.take_replicate, Nat.min_self]
    unfold write
    rw [List.length_replicate]
    change (copyLoop 0 (bffEnd + 1) init.buffer 0 _ >>= _) = _
    rw [hloop]
    exact congrArg some (txHandler_of_eq rfl)
  have hlost :=
    (h [.write (List.replicate bffEnd 0)] _ (by rw [Machine.run, step, hcall]; rfl)).rest
  have hlen := congrArg List.length hlost
  rw [List.length_replicate] at hlen
  exact absurd hlen (by decide)

end PanelFirmware.Systems.Write
