import PanelFirmware.Lib.Loop
import PanelFirmware.Lib.MachineInt
import PanelFirmware.Lib.Raster

/-!
# `utils/src/plog.c`: the hex dump

A line of the dump shows `column` bytes, in hexadecimal and as characters. The loop over the first
is bounded by the length of the line, the loop over the second by `column`; its other condition,
`length`, does not change in it.

* `lineOut`: what a line prints; `dumpOut`: the whole dump is its lines.
* `dumpOut_hex`, `dumpOut_lines`: every byte comes once in hexadecimal, and no line is too long.
* `dumpOut_char`: the characters go on to the end of the last line.
* `plogHexdumpcolumn_iff`: so the dump is right where the last line is full.
-/

namespace PanelFirmware.Utils

open PanelFirmware.Lib

/-! ### The code -/

/-- The calls of `plog_printf`, by their formats. A place is an offset into the buffer; where the
call prints a byte, it is read there. -/
inductive Print
  /-- `"%p  "` -/
  | pointer (place : ℕ)
  /-- `"%02X "` -/
  | hex (place : ℕ) (b : Byte)
  /-- `"   "` -/
  | gap
  /-- `"%*c"` of a blank -/
  | blank (width : ℤ)
  /-- `"%c"` of what is shown for the byte read -/
  | char (place : ℕ) (c : Byte)
  /-- `"\n"` -/
  | newline

/-- The printing characters of the C locale. Source: `ctype.h` `isprint`. -/
def isprint (b : Byte) : Bool := decide (0x20 ≤ b.toNat ∧ b.toNat ≤ 0x7E)

/-- What is shown for a byte. Source: `plog.c` `plog_hexdumpcolumn`, `c`. -/
def shown (b : Byte) : Byte := if isprint b then b else 0x2E#8

/-- The variables of the loop, and the calls made. -/
structure Dump where
  bbuffer : ℕ
  length : ℕ
  plen : BitVec 32
  out : List Print

section Code

variable (mem : ℕ → Byte) (ret : ℕ → BitVec 32) (column : ℕ)

/-- `plen += plog_printf(…)`, when the calls return the values of `ret` one after the other. -/
def Dump.print (p : Print) (d : Dump) : Dump :=
  { d with plen := d.plen + ret d.out.length, out := d.out ++ [p] }

/-- The first inner loop. Source: `plog.c` `plog_hexdumpcolumn`, `for(i = 0; i < linelen; i++)`. -/
def hexLoop (linelen : ℕ) (d : Dump) : Dump :=
  (List.range linelen).foldl
    (fun d i => d.print ret (.hex (d.bbuffer + i) (mem (d.bbuffer + i)))) d

/-- The width of the padding, an `unsigned` product passed as an `int`. -/
def padWidth (linelen : ℕ) : ℤ := wrap true 32 (wrap false 32 ((column - linelen : ℕ) * 3))

/-- The padding. Source: `plog.c` `plog_hexdumpcolumn`, `if(linelen < column)`. -/
def pad (linelen : ℕ) (d : Dump) : Dump :=
  if linelen < column then d.print ret (.blank (padWidth column linelen)) else d

/-- The second inner loop. The body does not change `length`, so the condition holds for no index
or for all below `column`. Source: `plog.c` `plog_hexdumpcolumn`,
`for(i = 0; i < column && length; i++)`. -/
def charLoop (d : Dump) : Dump :=
  (List.range (if d.length ≠ 0 then column else 0)).foldl
    (fun d i => d.print ret (.char (d.bbuffer + i) (shown (mem (d.bbuffer + i))))) d

/-- One line. Source: `plog.c` `plog_hexdumpcolumn`, the body of the outer loop. -/
def hexdumpLine (d : Dump) : Dump :=
  let linelen := if column < d.length then column else d.length
  let d := d.print ret (.pointer d.bbuffer)
  let d := hexLoop mem ret linelen d
  let d := d.print ret .gap
  let d := pad ret column linelen d
  let d := charLoop mem ret column d
  let d := d.print ret .newline
  { d with bbuffer := d.bbuffer + linelen, length := d.length - linelen }

/-- The outer loop, `while(length)`. -/
def hexdumpRound (d : Dump) : (BitVec 32 × List Print) ⊕ Dump :=
  if d.length ≠ 0 then .inr (hexdumpLine mem ret column d) else .inl (d.plen, d.out)

/-- The call returns the first component of the result and has made the calls of the second.
Source: `plog.c` `plog_hexdumpcolumn`. -/
def PlogHexdumpcolumn (length : ℕ) (r : BitVec 32 × List Print) : Prop :=
  if length = 0 then r = (0#32, [])
  else Loop.Ends (hexdumpRound mem ret column) ⟨0, length, 0#32, []⟩ r

end Code

/-! ### What a dump is for -/

namespace Print

/-- The places of the buffer that the call reads. -/
def reads : Print → List ℕ
  | hex place _ | char place _ => [place]
  | _ => []

/-- The byte printed in hexadecimal, and its place. -/
def hex? : Print → Option (ℕ × Byte)
  | hex place b => some (place, b)
  | _ => none

/-- The character printed, and its place. -/
def char? : Print → Option (ℕ × Byte)
  | char place c => some (place, c)
  | _ => none

/-- The call ends a line. -/
def isNewline : Print → Bool
  | newline => true
  | _ => false

end Print

/-- The dump of a buffer of so many bytes reads these bytes only and shows each of them once in
hexadecimal and once as a character, in order, and no more than `column` on a line. -/
structure DumpCorrect (mem : ℕ → Byte) (length column : ℕ) (out : List Print) : Prop where
  reads : ∀ p ∈ out, ∀ place ∈ p.reads, place < length
  hex : out.filterMap Print.hex? = (List.range length).map fun i => (i, mem i)
  char : out.filterMap Print.char? = (List.range length).map fun i => (i, shown (mem i))
  lines : ∀ line ∈ out.splitOnP Print.isNewline,
    (line.filterMap Print.hex?).length ≤ column ∧ (line.filterMap Print.char?).length ≤ column

/-! ### One line -/

section Line

variable (mem : ℕ → Byte) (column : ℕ)

/-- The blanks of a line that is not full. -/
def padding (linelen : ℕ) : List Print :=
  if linelen < column then [.blank (padWidth column linelen)] else []

/-- A line up to its end, from a place with so many bytes left. -/
def lineBody (place left : ℕ) : List Print :=
  [Print.pointer place] ++
    ((List.range (min column left)).map fun i => Print.hex (place + i) (mem (place + i))) ++
    [Print.gap] ++ padding column (min column left) ++
    (List.range column).map fun i => Print.char (place + i) (shown (mem (place + i)))

/-- What a line prints. -/
def lineOut (place left : ℕ) : List Print := lineBody mem column place left ++ [.newline]

/-- What so many lines print, from the start of a buffer of so many bytes. -/
def dumpOut (length m : ℕ) : List Print :=
  (List.range m).flatMap fun b => lineOut mem column (column * b) (length - column * b)

variable {mem column}

/-- Of the calls of a line only the two loops show bytes. -/
lemma filterMap_lineBody {f : Print → Option (ℕ × Byte)}
    (hpointer : ∀ place, f (.pointer place) = none) (hgap : f .gap = none)
    (hblank : ∀ width, f (.blank width) = none) (place left : ℕ) :
    (lineBody mem column place left).filterMap f =
      ((List.range (min column left)).filterMap fun i => f (.hex (place + i) (mem (place + i)))) ++
        (List.range column).filterMap fun i =>
          f (.char (place + i) (shown (mem (place + i)))) := by
  have hpad : (padding column (min column left)).filterMap f = [] := by
    unfold padding
    split_ifs
    · exact List.filterMap_cons_none (hblank _)
    · rfl
  simp only [lineBody, List.filterMap_append, List.filterMap_map, hpad, List.append_nil,
    List.filterMap_cons_none (hpointer place), List.filterMap_cons_none hgap, List.filterMap_nil,
    List.nil_append]
  rfl

/-- A line shows in hexadecimal what is left of the buffer, up to its end. -/
lemma lineBody_hex (place left : ℕ) : (lineBody mem column place left).filterMap Print.hex? =
    (List.range (min column left)).map fun i => (place + i, mem (place + i)) := by
  rw [filterMap_lineBody (fun _ => rfl) rfl (fun _ => rfl)]
  simp [Print.hex?]

/-- A line shows as many characters as it has columns. -/
lemma lineBody_char (place left : ℕ) : (lineBody mem column place left).filterMap Print.char? =
    (List.range column).map fun i => (place + i, shown (mem (place + i))) := by
  rw [filterMap_lineBody (fun _ => rfl) rfl (fun _ => rfl)]
  simp [Print.char?]

/-- Nothing before the end of a line ends it. -/
lemma isNewline_lineBody {place left : ℕ} :
    ∀ p ∈ lineBody mem column place left, p.isNewline = false := by
  intro p hp
  simp only [lineBody, padding, List.mem_append, List.mem_singleton, List.mem_map] at hp
  rcases hp with (((rfl | ⟨i, -, rfl⟩) | rfl) | hpad) | ⟨i, -, rfl⟩
  · rfl
  · rfl
  · rfl
  · split_ifs at hpad
    · rw [List.mem_singleton.mp hpad]
      rfl
    · cases hpad
  · rfl

/-! ### The whole dump -/

/-- What every line shows the dump shows, line by line. -/
lemma filterMap_dumpOut {f : Print → Option (ℕ × Byte)} {g : ℕ → Byte} {n : ℕ → ℕ}
    (hbody : ∀ place left, (lineBody mem column place left).filterMap f =
      (List.range (n left)).map fun i => (place + i, g (place + i)))
    (hnewline : f .newline = none) (length m : ℕ) :
    (dumpOut mem column length m).filterMap f =
      ((List.range m).flatMap fun b =>
        (List.range (n (length - column * b))).map (column * b + ·)).map fun i => (i, g i) := by
  have hline : ∀ place left, (lineOut mem column place left).filterMap f =
      ((List.range (n left)).map (place + ·)).map fun i => (i, g i) := by
    intro place left
    rw [lineOut, List.filterMap_append, hbody, List.filterMap_cons_none hnewline, List.map_map]
    exact List.append_nil _
  rw [dumpOut, List.filterMap_flatMap, List.map_flatMap]
  simp only [hline]

/-- **Hexadecimal**: the lines show each byte of the buffer, in order. -/
theorem dumpOut_hex (length m : ℕ) : (dumpOut mem column length m).filterMap Print.hex? =
    (List.range (min (column * m) length)).map fun i => (i, mem i) := by
  rw [filterMap_dumpOut lineBody_hex rfl, Raster.flatMap_chunks_min]

/-- **Characters**: full lines of them, in order. -/
theorem dumpOut_char (length m : ℕ) : (dumpOut mem column length m).filterMap Print.char? =
    (List.range (column * m)).map fun i => (i, shown (mem i)) := by
  rw [filterMap_dumpOut (g := fun i => shown (mem i)) lineBody_char rfl, Raster.flatMap_rows]

/-- **No line is too long.** -/
theorem dumpOut_lines (length m : ℕ) :
    ∀ line ∈ (dumpOut mem column length m).splitOnP Print.isNewline,
      (line.filterMap Print.hex?).length ≤ column ∧
        (line.filterMap Print.char?).length ≤ column := by
  have hsplit : (dumpOut mem column length m).splitOnP Print.isNewline =
      ((List.range m).map fun b => lineBody mem column (column * b) (length - column * b)) ++
        [[]] := by
    unfold dumpOut
    induction List.range m with
    | nil => rfl
    | cons b l ih =>
        rw [List.flatMap_cons, lineOut, List.append_assoc, List.singleton_append,
          List.splitOnP_append_cons_of_forall_mem isNewline_lineBody _ rfl, ih]
        rfl
  intro line hline
  rw [hsplit, List.mem_append, List.mem_map, List.mem_singleton] at hline
  rcases hline with ⟨b, -, rfl⟩ | rfl
  · rw [lineBody_hex, lineBody_char, List.length_map, List.length_map, List.length_range,
      List.length_range]
    exact ⟨Nat.min_le_left _ _, le_rfl⟩
  · exact ⟨Nat.zero_le _, Nat.zero_le _⟩

end Line

/-! ### The loop -/

section Run

variable (mem : ℕ → Byte) (ret : ℕ → BitVec 32) (column : ℕ)

/-- From one state to the other only calls are made, these. -/
structure Dump.Prints (d : Dump) (ps : List Print) (e : Dump) : Prop where
  out : e.out = d.out ++ ps
  bbuffer : e.bbuffer = d.bbuffer
  length : e.length = d.length

/-- Calls after calls. -/
lemma Dump.Prints.trans {d e f : Dump} {ps qs : List Print} (h : d.Prints ps e)
    (h' : e.Prints qs f) : d.Prints (ps ++ qs) f where
  out := by rw [h'.out, h.out, List.append_assoc]
  bbuffer := h'.bbuffer.trans h.bbuffer
  length := h'.length.trans h.length

/-- One call. -/
lemma prints_print (p : Print) (d : Dump) : d.Prints [p] (d.print ret p) := ⟨rfl, rfl, rfl⟩

/-- The calls of a loop that makes one for each of its indices. -/
lemma prints_foldl (f : ℕ → ℕ → Print) (l : List ℕ) (d : Dump) :
    d.Prints (l.map (f d.bbuffer)) (l.foldl (fun d i => d.print ret (f d.bbuffer i)) d) := by
  induction l generalizing d with
  | nil => exact ⟨(List.append_nil _).symm, rfl, rfl⟩
  | cons i l ih => exact (prints_print ret (f d.bbuffer i) d).trans (ih _)

/-- The bytes in hexadecimal. -/
lemma prints_hexLoop (linelen : ℕ) (d : Dump) :
    d.Prints ((List.range linelen).map fun i => .hex (d.bbuffer + i) (mem (d.bbuffer + i)))
      (hexLoop mem ret linelen d) :=
  prints_foldl ret (fun place i => .hex (place + i) (mem (place + i))) _ d

/-- The padding. -/
lemma prints_pad (linelen : ℕ) (d : Dump) :
    d.Prints (padding column linelen) (pad ret column linelen d) := by
  unfold padding pad
  split_ifs
  · exact prints_print ret _ d
  · exact ⟨(List.append_nil _).symm, rfl, rfl⟩

/-- The characters: as many as there are columns. -/
lemma prints_charLoop {d : Dump} (hd : d.length ≠ 0) :
    d.Prints ((List.range column).map fun i => .char (d.bbuffer + i) (shown (mem (d.bbuffer + i))))
      (charLoop mem ret column d) := by
  unfold charLoop
  rw [if_pos hd]
  exact prints_foldl ret (fun place i => .char (place + i) (shown (mem (place + i)))) _ d

/-- One round of the outer loop prints a line and goes on after what it shows in hexadecimal. -/
lemma hexdumpLine_eq {d : Dump} (hd : d.length ≠ 0) :
    (hexdumpLine mem ret column d).out = d.out ++ lineOut mem column d.bbuffer d.length ∧
      (hexdumpLine mem ret column d).bbuffer = d.bbuffer + min column d.length ∧
      (hexdumpLine mem ret column d).length = d.length - min column d.length := by
  have hlinelen : (if column < d.length then column else d.length) = min column d.length := by
    split_ifs <;> omega
  have hpointer := prints_print ret (.pointer d.bbuffer) d
  have hbytes := hpointer.trans (prints_hexLoop mem ret (min column d.length) _)
  have hgap := hbytes.trans (prints_print ret .gap _)
  have hpad := hgap.trans (prints_pad ret column (min column d.length) _)
  have hchars := hpad.trans (prints_charLoop mem ret column (hpad.length.trans_ne hd))
  have hline := hchars.trans (prints_print ret .newline _)
  unfold hexdumpLine
  rw [hlinelen]
  refine ⟨hline.out.trans ?_, congrArg (· + _) hline.bbuffer, congrArg (· - _) hline.length⟩
  rw [hpad.bbuffer, hpointer.bbuffer, lineOut, lineBody]

variable {mem ret column}

/-- Every line takes bytes from those left, so the loop is left. -/
lemma exists_ends (hcolumn : 1 ≤ column) (d : Dump) :
    ∃ r, Loop.Ends (hexdumpRound mem ret column) d r := by
  have hless : ∀ d e : Dump, True → hexdumpRound mem ret column d = .inr e →
      e.length < d.length := by
    intro d e _ hround
    unfold hexdumpRound at hround
    split_ifs at hround with hd
    rw [← Sum.inr.inj hround, (hexdumpLine_eq mem ret column hd).2.2]
    omega
  obtain ⟨r, hr⟩ := Loop.ends_of_measure (fun _ _ _ _ => trivial) hless (s := d) trivial
  exact ⟨r, _, hr⟩

/-- The state at the head of the loop after `m` lines. -/
structure AfterLines (mem : ℕ → Byte) (column length m : ℕ) (d : Dump) : Prop where
  out : d.out = dumpOut mem column length m
  left : d.length = length - column * m
  place : d.length ≠ 0 → d.bbuffer = column * m
  started : column * m < length + column

/-- A round adds a line. -/
lemma AfterLines.round {length m : ℕ} {d : Dump} (h : AfterLines mem column length m d)
    (hd : d.length ≠ 0) :
    AfterLines mem column length (m + 1) (hexdumpLine mem ret column d) := by
  obtain ⟨hout, hplace, hleft⟩ := hexdumpLine_eq mem ret column hd
  have hrest := h.left
  have hrows : column * (m + 1) = column * m + column := Nat.mul_succ column m
  constructor
  · rw [hout, h.out, h.place hd, h.left, dumpOut, dumpOut, List.range_succ, List.flatMap_append,
      List.flatMap_singleton]
  · omega
  · intro hmore
    rw [hplace, h.place hd]
    omega
  · omega

/-- **The dump is its lines**: so many that the last of them reaches the end of the buffer. -/
theorem exists_dumpOut (hcolumn : 1 ≤ column) {length : ℕ} {r : BitVec 32 × List Print}
    (h : PlogHexdumpcolumn mem ret column length r) :
    ∃ m, r.2 = dumpOut mem column length m ∧ length ≤ column * m ∧
      column * m < length + column := by
  unfold PlogHexdumpcolumn at h
  split_ifs at h with hzero
  · rw [h, hzero]
    exact ⟨0, rfl, Nat.zero_le _, by omega⟩
  · have hstart : ∃ m, AfterLines mem column length m ⟨0, length, 0#32, []⟩ :=
      ⟨0, ⟨rfl, rfl, fun _ => rfl, by omega⟩⟩
    refine Loop.Ends.keeps (I := fun d => ∃ m, AfterLines mem column length m d)
      (Q := fun r => ∃ m, r.2 = dumpOut mem column length m ∧ length ≤ column * m ∧
        column * m < length + column) ?_ ?_ h hstart
    · rintro d e ⟨m, hm⟩ hround
      unfold hexdumpRound at hround
      split_ifs at hround with hd
      exact ⟨m + 1, Sum.inr.inj hround ▸ hm.round hd⟩
    · rintro d r ⟨m, hm⟩ hround
      unfold hexdumpRound at hround
      split_ifs at hround with hd
      rw [← Sum.inl.inj hround]
      have hleft := hm.left
      exact ⟨m, hm.out, by omega, hm.started⟩

end Run

/-! ### Main result -/

/-- What a call reads it prints. -/
lemma reads_subset {p : Print} {place : ℕ} (h : place ∈ p.reads) :
    (∃ b, p.hex? = some (place, b)) ∨ ∃ c, p.char? = some (place, c) := by
  cases p with
  | hex _ b => exact .inl ⟨b, by rw [List.mem_singleton.mp h]; rfl⟩
  | char _ c => exact .inr ⟨c, by rw [List.mem_singleton.mp h]; rfl⟩
  | pointer | gap | blank | newline => cases h

/-- The places of a column that shows the buffer are in it. -/
lemma lt_of_mem_places {f : ℕ → Byte} {length place : ℕ} {b : Byte}
    (h : (place, b) ∈ (List.range length).map fun i => (i, f i)) : place < length := by
  obtain ⟨i, hi, heq⟩ := List.mem_map.mp h
  rw [← (Prod.mk.inj heq).1]
  exact List.mem_range.mp hi

/-- The lines of a buffer make a correct dump where they hold as many bytes as it. -/
lemma dumpCorrect_iff (mem : ℕ → Byte) {length column m : ℕ} (hlong : length ≤ column * m) :
    DumpCorrect mem length column (dumpOut mem column length m) ↔ column * m = length := by
  have hhex : (dumpOut mem column length m).filterMap Print.hex? = _ := dumpOut_hex length m
  rw [Nat.min_eq_right hlong] at hhex
  have hchar : (dumpOut mem column length m).filterMap Print.char? = _ := dumpOut_char length m
  constructor
  · intro h
    have hlength := congrArg List.length (hchar.symm.trans h.char)
    simpa using hlength
  · intro hfull
    rw [hfull] at hchar
    refine ⟨?_, hhex, hchar, dumpOut_lines length m⟩
    intro p hp place hplace
    rcases reads_subset hplace with ⟨b, hb⟩ | ⟨c, hc⟩
    · have hmem : (place, b) ∈ (dumpOut mem column length m).filterMap Print.hex? :=
        List.mem_filterMap.mpr ⟨p, hp, hb⟩
      rw [hhex] at hmem
      exact lt_of_mem_places hmem
    · have hmem : (place, c) ∈ (dumpOut mem column length m).filterMap Print.char? :=
        List.mem_filterMap.mpr ⟨p, hp, hc⟩
      rw [hchar] at hmem
      exact lt_of_mem_places hmem

/-- **The hex dump** ends for every buffer. It reads the buffer only and shows each byte once, in
both ways, exactly where the last line is full. -/
theorem plogHexdumpcolumn_iff (mem : ℕ → Byte) (ret : ℕ → BitVec 32) (length : ℕ) {column : ℕ}
    (hcolumn : 1 ≤ column) :
    (∃ r, PlogHexdumpcolumn mem ret column length r) ∧
      ∀ r, PlogHexdumpcolumn mem ret column length r →
        (DumpCorrect mem length column r.2 ↔ column ∣ length) := by
  constructor
  · unfold PlogHexdumpcolumn
    split_ifs
    · exact ⟨_, rfl⟩
    · exact exists_ends hcolumn _
  · intro r hr
    obtain ⟨m, hout, hlong, hlast⟩ := exists_dumpOut hcolumn hr
    rw [hout, dumpCorrect_iff mem hlong]
    constructor
    · intro hfull
      exact ⟨m, hfull.symm⟩
    · rintro ⟨k, rfl⟩
      have hmk : m < k + 1 := Nat.lt_of_mul_lt_mul_left (a := column) (by rwa [Nat.mul_succ])
      have hkm : k ≤ m := Nat.le_of_mul_le_mul_left hlong hcolumn
      rw [show m = k by omega]

/-- A dump of 64 bytes in lines of 32. -/
theorem plogHexdumpcolumn_two_lines :
    (∃ r, PlogHexdumpcolumn (fun _ => 0x41#8) (fun _ => 1#32) 32 64 r) ∧
      ∀ r, PlogHexdumpcolumn (fun _ => 0x41#8) (fun _ => 1#32) 32 64 r →
        (DumpCorrect (fun _ => 0x41#8) 64 32 r.2 ↔ 32 ∣ 64) :=
  plogHexdumpcolumn_iff (fun _ => 0x41#8) (fun _ => 1#32) 64 (by decide)

/-- **The last line is not full**: the dump of one byte in lines of 32 shows 31 characters that are
not in the buffer. -/
theorem not_dumpCorrect :
    ¬ ∀ (mem : ℕ → Byte) (ret : ℕ → BitVec 32) (length column : ℕ), 1 ≤ column →
      ∃ r, PlogHexdumpcolumn mem ret column length r ∧ DumpCorrect mem length column r.2 := by
  intro h
  obtain ⟨r, hr, hcorrect⟩ := h (fun _ => 0x41#8) (fun _ => 1#32) 1 32 (by decide)
  obtain ⟨m, hout, hlong, hlast⟩ := exists_dumpOut (by decide) hr
  rw [hout, dumpCorrect_iff _ hlong] at hcorrect
  omega

end PanelFirmware.Utils
