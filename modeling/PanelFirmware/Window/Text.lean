import PanelFirmware.Lib.MachineInt
import PanelFirmware.Lib.Raster

/-!
# `Disp::putChar`, `putStr`, `putStrCenter`, `putStrRight`

A glyph is rows of bits, each row filled up to whole bytes, high bit first. A text is its glyphs
one beside the other with a distance behind each; to centre it or to put it to the right its width
is summed up before.

* `putChar_eq`: the turns of the loops over rows, bytes and bits are the points of the glyph.
* `draw_of_pairwise`: turns at different cells leave each its own colour.
* `text_in_boxes`: the text is in the boxes of its glyphs, wherever it is put.
-/

namespace PanelFirmware.Window.Text

open PanelFirmware.Lib

/-! ### Fonts -/

/-- A glyph; `data` is the bytes from the pointer on. Source: `font.h` `image_type`. -/
structure Image where
  data : ℕ → ℕ
  w : ℕ
  h : ℕ
  w_lt : w < 2 ^ 8
  h_lt : h < 2 ^ 8

/-- Source: `font.h` `char_type`. -/
structure CharType where
  n : ℕ
  image : Image
  n_lt : n < 2 ^ 8

/-- Source: `font.h` `font_type`. -/
structure Font where
  chars : List CharType

/-- An element of the array of characters; `none` outside of it. -/
def Font.char (font : Font) (i : ℤ) : Option CharType :=
  if 0 ≤ i then font.chars[i.toNat]? else none

/-! ### The display -/

/-- The driver's size and the settings of the display. Source: `display.h` `Disp`. -/
structure Disp where
  w : ℕ
  h : ℕ
  useBackground : Bool
  backgroundColor : ℕ
  contentColor : ℕ
  w_lt : w < 2 ^ 16
  h_lt : h < 2 ^ 16

/-- Source: `st7735.c` `st7735_setPixel`. -/
def setPixel (disp : Disp) (videoBff : List ℕ) (x y color : ℕ) : Option (List ℕ) :=
  if y * disp.w + x < videoBff.length then some (videoBff.set (y * disp.w + x) color) else none

/-- Source: `st7735.c` `st7735_getPixel`. -/
def getPixel (disp : Disp) (videoBff : List ℕ) (x y : ℕ) : Option ℕ := videoBff[y * disp.w + x]?

/-! ### Drawing -/

/-- A turn of the innermost loop: the byte it reads, the point it writes, and the bit. -/
structure Plot where
  pdata : ℕ
  x : ℕ
  y : ℕ
  bit : Bool

/-- The colour of a turn. Source: `display.cpp` `Disp::putChar`. -/
def Plot.color (disp : Disp) (videoBff : List ℕ) (p : Plot) : Option ℕ :=
  if p.bit then
    if disp.useBackground then getPixel disp videoBff p.x p.y else some disp.backgroundColor
  else some disp.contentColor

/-- What a turn does to the video buffer. Source: `display.cpp` `Disp::putChar`. -/
def plot (disp : Disp) (videoBff : List ℕ) (p : Plot) : Option (List ℕ) :=
  (p.color disp videoBff).bind (setPixel disp videoBff p.x p.y)

/-- What the turns do to the video buffer; `none` where one goes outside of it. -/
def draw (disp : Disp) (videoBff : List ℕ) (plots : List Plot) : Option (List ℕ) :=
  plots.foldlM (plot disp) videoBff

/-- Source: `display.cpp` `Disp::putChar`, `bytesPerLine`. -/
def bytesPerLine (image : Image) : ℕ := (((image.w : ℤ) - 1).tdiv 8 + 1).toNat

/-- Source: `display.cpp` `Disp::putChar`, `count`. -/
def count (image : Image) (width : ℕ) : ℕ :=
  let count := (wrap false 8 ((image.w : ℤ) - width * 8)).toNat
  if 8 < count then 8 else count

/-- The bits of a byte. Source: `display.cpp` `Disp::putChar`, the loop over `j`. -/
def putBits (image : Image) (x y width pdata : ℕ) : List Plot :=
  (List.range (count image width)).map fun j =>
    ⟨pdata, (x + width * 8 + j) % 2 ^ 16, y % 2 ^ 16,
      decide (image.data pdata &&& 0x80 >>> j ≠ 0)⟩

/-- The bytes of a row that are left. Source: `display.cpp` `Disp::putChar`, the loop over
`width`. -/
def putBytes (image : Image) (x y : ℕ) : ℕ → ℕ → ℕ → List Plot
  | 0, _, _ => []
  | n + 1, width, pdata =>
      putBits image x y width pdata ++ putBytes image x y n (width + 1) (pdata + 1)

/-- The rows that are left. Source: `display.cpp` `Disp::putChar`, the loop over `height`. -/
def putRows (image : Image) (x y : ℕ) : ℕ → ℕ → ℕ → List Plot
  | 0, _, _ => []
  | n + 1, height, pdata =>
      putBytes image x (y + height) (bytesPerLine image) 0 pdata ++
        putRows image x y n (height + 1) (pdata + bytesPerLine image)

/-- Source: `display.cpp` `Disp::putChar`. -/
def putChar (font : Font) (x y : ℕ) (c : ℤ) : Option (List Plot) :=
  (font.char 0).bind fun first =>
    (font.char (wrap false 8 (wrap false 8 c - first.n))).map fun char =>
      putRows char.image x y char.image.h 0 0

/-- The width of a character as it is measured. Source: `display.cpp` `Disp::putStr`,
`font->chars[*(uint8_t*)s - font->chars[0].n].image->w`. -/
def charWidth (font : Font) (c : ℕ) : Option ℕ :=
  (font.char 0).bind fun first => (font.char (c - first.n)).map fun char => char.image.w

/-- A string is the list of its bytes before the closing zero; `sg` is the sign of `char`.
Source: `display.cpp` `Disp::putStr`. -/
def putStr (sg : Bool) (font : Font) (distance y : ℕ) : ℕ → List ℕ → Option (List Plot)
  | _, [] => some []
  | x, c :: s =>
      (putChar font x y (wrap sg 8 c)).bind fun plots =>
        (charWidth font c).bind fun w =>
          (putStr sg font distance y ((x + w + distance) % 2 ^ 16) s).map fun rest => plots ++ rest

/-- The width of a string. Source: `display.cpp` `Disp::putStrCenter`, `with`. -/
def measure (font : Font) (distance : ℕ) : ℕ → List ℕ → Option ℕ
  | width, [] => some width
  | width, c :: s =>
      (charWidth font c).bind fun w => measure font distance ((width + w + distance) % 2 ^ 16) s

/-- Source: `display.cpp` `Disp::putStrCenter`. -/
def putStrCenter (disp : Disp) (sg : Bool) (font : Font) (distance y : ℕ) (s : List ℕ) :
    Option (List Plot) :=
  (measure font distance 0 s).bind fun width =>
    putStr sg font distance y (wrap false 16 (((disp.w : ℤ) - width).tdiv 2)).toNat s

/-- Source: `display.cpp` `Disp::putStrRight`. -/
def putStrRight (disp : Disp) (sg : Bool) (font : Font) (distance y : ℕ) (s : List ℕ) :
    Option (List Plot) :=
  (measure font distance 0 s).bind fun width =>
    putStr sg font distance y (wrap false 16 ((disp.w : ℤ) - width)).toNat s

/-! ### The boxes -/

/-- The characters are numbered one after the other from the first. -/
def Font.Consecutive (font : Font) : Prop :=
  ∀ i char first, font.chars[i]? = some char → font.chars[0]? = some first → char.n = first.n + i

/-- The font has a glyph for the character. -/
def Font.Has (font : Font) (c : ℕ) (glyph : Image) : Prop :=
  ∃ char ∈ font.chars, char.n = c ∧ char.image = glyph

/-- The box of a glyph: its first column, and the glyph. -/
structure Box where
  x : ℕ
  glyph : Image

/-- The columns of a box. -/
def Box.w (box : Box) : ℕ := box.glyph.w

/-- The rows of a box. -/
def Box.h (box : Box) : ℕ := box.glyph.h

/-- The boxes of glyphs from a column on, with a distance behind each. -/
def boxes (distance : ℕ) : ℕ → List Image → List Box
  | _, [] => []
  | x, glyph :: glyphs => ⟨x, glyph⟩ :: boxes distance (x + glyph.w + distance) glyphs

/-- The width of the glyphs and the distances behind them. -/
def total (distance : ℕ) (glyphs : List Image) : ℕ :=
  (glyphs.map fun glyph => glyph.w + distance).sum

/-- The points of a box with the given first row. -/
def Box.Covers (box : Box) (y px py : ℕ) : Prop :=
  (box.x ≤ px ∧ px < box.x + box.w) ∧ y ≤ py ∧ py < y + box.h

/-- The bit of a glyph in a row and a column: rows are filled up to whole bytes, and the high bit
of a byte is the left one. -/
def Image.bit (image : Image) (row column : ℕ) : Bool :=
  decide (image.data (row * ((image.w + 7) / 8) + column / 8) &&& 0x80 >>> (column % 8) ≠ 0)

/-- Two turns write different points. -/
def Apart (p q : Plot) : Prop := p.x ≠ q.x ∨ p.y ≠ q.y

/-- The points written are those of the box, each of them once and by its bit of the glyph, and the
bytes read are those of its rows. -/
structure Drawn (y : ℕ) (box : Box) (part : List Plot) : Prop where
  points : ∀ px py, (∃ p ∈ part, p.x = px ∧ p.y = py) ↔ box.Covers y px py
  once : part.Pairwise Apart
  bits : ∀ p ∈ part, p.bit = box.glyph.bit (p.y - y) (p.x - box.x)
  bytes : ∀ k, (∃ p ∈ part, p.pdata = k) ↔ k < box.h * ((box.w + 7) / 8)

/-- The colour of a cell in a box: that of the content where the bit of the glyph is clear, and
that of the background, or the one the cell has, where it is set. -/
def Box.color (disp : Disp) (videoBff : List ℕ) (box : Box) (y px py : ℕ) : Option ℕ :=
  if box.glyph.bit (py - y) (px - box.x) then
    if disp.useBackground then getPixel disp videoBff px py else some disp.backgroundColor
  else some disp.contentColor

/-- The text is its glyphs, each drawn in its box. In the video buffer of the display this gives
every cell of a box its colour, and goes nowhere else. -/
def Boxed (disp : Disp) (y : ℕ) (boxes : List Box) (text : Option (List Plot)) : Prop :=
  ∃ parts, text = some parts.flatten ∧ List.Forall₂ (Drawn y) boxes parts ∧
    ∀ videoBff : List ℕ, videoBff.length = disp.w * disp.h →
      ∃ drawn, draw disp videoBff parts.flatten = some drawn ∧
        drawn.length = videoBff.length ∧
        (∀ box ∈ boxes, ∀ px py, box.Covers y px py →
          getPixel disp drawn px py = box.color disp videoBff y px py) ∧
        ∀ px py, px < disp.w → py < disp.h → (∀ box ∈ boxes, ¬ box.Covers y px py) →
          getPixel disp drawn px py = getPixel disp videoBff px py

/-! ### A glyph -/

section Glyph

variable {image : Image}

/-- A row is filled up to whole bytes. -/
lemma bytesPerLine_eq (hw : 1 ≤ image.w) : bytesPerLine image = (image.w + 7) / 8 := by
  have hw' : (0 : ℤ) ≤ image.w - 1 := by omega
  rw [bytesPerLine, Int.tdiv_eq_ediv_of_nonneg hw']
  omega

/-- A byte has eight bits, and the last one what is left. -/
lemma count_eq {width : ℕ} (h : width * 8 ≤ image.w) :
    count image width = min 8 (image.w - 8 * width) := by
  have hlt := image.w_lt
  have hwrap : wrap false 8 ((image.w : ℤ) - width * 8) = image.w - width * 8 :=
    (fits_unsigned_iff 8 _).mpr ⟨by omega, by omega⟩
  simp only [count, hwrap]
  split_ifs <;> omega

/-- The bytes of a row in their order. -/
lemma putBytes_eq (x y n width pdata : ℕ) :
    putBytes image x y n width pdata =
      (List.range n).flatMap fun b => putBits image x y (width + b) (pdata + b) := by
  induction n generalizing width pdata with
  | zero => rfl
  | succ n ih =>
      rw [putBytes, ih, List.range_succ_eq_map, List.flatMap_cons, List.flatMap_map]
      simp only [Nat.add_zero, Nat.succ_eq_add_one, Nat.add_assoc, Nat.add_comm 1]

/-- The rows in their order. -/
lemma putRows_eq (x y n height pdata : ℕ) :
    putRows image x y n height pdata =
      (List.range n).flatMap fun r =>
        putBytes image x (y + (height + r)) (bytesPerLine image) 0
          (pdata + r * bytesPerLine image) := by
  induction n generalizing height pdata with
  | zero => rfl
  | succ n ih =>
      rw [putRows, ih, List.range_succ_eq_map, List.flatMap_cons, List.flatMap_map]
      simp only [Nat.add_zero, Nat.zero_mul, Nat.succ_eq_add_one, Nat.add_assoc, Nat.add_comm 1,
        Nat.add_mul, Nat.one_mul, Nat.add_comm (bytesPerLine image)]

/-- A point of a glyph: bit `i` of row `r`. -/
def point (image : Image) (x y r i : ℕ) : Plot :=
  ⟨r * ((image.w + 7) / 8) + i / 8, x + i, y + r, image.bit r i⟩

/-- **The glyph.** The loops over rows, bytes and bits go over the points of the glyph, row by row
and from the left to the right. -/
theorem putRows_points (hw : 1 ≤ image.w) {x y : ℕ} (hx : x + image.w ≤ 2 ^ 16)
    (hy : y + image.h ≤ 2 ^ 16) :
    putRows image x y image.h 0 0 =
      (List.range image.h).flatMap fun r => (List.range image.w).map (point image x y r) := by
  rw [putRows_eq]
  refine List.flatMap_congr fun r hr => ?_
  rw [List.mem_range] at hr
  rw [putBytes_eq, bytesPerLine_eq hw, ← Raster.flatMap_chunks (k := 8) (by omega) image.w,
    List.map_flatMap]
  refine List.flatMap_congr fun b hb => ?_
  rw [List.mem_range] at hb
  rw [putBits, count_eq (by omega), List.map_map, Nat.zero_add, Nat.zero_add, Nat.zero_add]
  refine List.map_congr_left fun j hj => ?_
  rw [List.mem_range] at hj
  have hdiv : (8 * b + j) / 8 = b := by omega
  have hmod : (8 * b + j) % 8 = j := by omega
  simp only [Function.comp_apply, point, Image.bit, hdiv, hmod, Plot.mk.injEq, true_and, and_true]
  exact ⟨by omega, by omega⟩

/-- The glyph is in its box. -/
lemma drawn_points (hw : 1 ≤ image.w) (x y : ℕ) :
    Drawn y ⟨x, image⟩
      ((List.range image.h).flatMap fun r => (List.range image.w).map (point image x y r)) := by
  have hmem : ∀ p, (p ∈ (List.range image.h).flatMap fun r =>
      (List.range image.w).map (point image x y r)) ↔
      ∃ r < image.h, ∃ i < image.w, point image x y r i = p := by
    intro p
    simp only [List.mem_flatMap, List.mem_map, List.mem_range]
  refine ⟨fun px py => ?_, ?_, fun p hp => ?_, fun k => ?_⟩
  · simp only [hmem, Box.Covers, Box.w, Box.h]
    constructor
    · rintro ⟨-, ⟨r, hr, i, hi, rfl⟩, rfl, rfl⟩
      simp only [point]
      omega
    · rintro ⟨⟨hx0, hx1⟩, hy0, hy1⟩
      refine ⟨_, ⟨py - y, by omega, px - x, by omega, rfl⟩, ?_, ?_⟩ <;> simp only [point] <;> omega
  · refine List.pairwise_flatMap.mpr ⟨fun r _ => List.pairwise_map.mpr ?_, ?_⟩
    · refine List.pairwise_lt_range.imp fun {i j} hij => Or.inl ?_
      simp only [point]
      omega
    · refine List.pairwise_lt_range.imp fun {r r'} hr p hp q hq => Or.inr ?_
      obtain ⟨i, -, rfl⟩ := List.mem_map.mp hp
      obtain ⟨j, -, rfl⟩ := List.mem_map.mp hq
      simp only [point]
      omega
  · obtain ⟨r, -, i, -, rfl⟩ := (hmem p).mp hp
    simp only [point, Nat.add_sub_cancel_left]
  · simp only [hmem, Box.w, Box.h]
    constructor
    · rintro ⟨-, ⟨r, hr, i, hi, rfl⟩, rfl⟩
      have hlt := Raster.cell_lt (show i / 8 < (image.w + 7) / 8 by omega) hr
      rw [Nat.mul_comm] at hlt
      exact hlt
    · intro hk
      have hpos : 0 < (image.w + 7) / 8 := by omega
      have hr := Nat.div_lt_of_lt_mul (Nat.mul_comm image.h _ ▸ hk)
      have hb := Nat.mod_lt k hpos
      refine ⟨_, ⟨k / ((image.w + 7) / 8), hr, 8 * (k % ((image.w + 7) / 8)), by omega, rfl⟩, ?_⟩
      simp only [point, Nat.mul_div_cancel_left _ (show 0 < 8 by omega)]
      exact Nat.div_add_mod' k _

end Glyph

/-! ### A text -/

section String

variable {font : Font} {c : ℕ} {glyph : Image}

/-- A character is at its number less the first one's, whatever the sign of `char`. -/
lemma char_of_has (hfont : font.Consecutive) (h : font.Has c glyph) (sg : Bool) :
    ∃ first char, font.char 0 = some first ∧ font.char (c - first.n) = some char ∧
      wrap false 8 (wrap false 8 (wrap sg 8 c) - first.n) = c - first.n ∧ char.image = glyph := by
  obtain ⟨char, hmem, rfl, rfl⟩ := h
  obtain ⟨i, hi, hget⟩ := List.getElem_of_mem hmem
  have hpos : 0 < font.chars.length := by omega
  have hfirst : font.chars[0]? = some font.chars[0] := List.getElem?_eq_getElem hpos
  have hchar : font.chars[i]? = some char := by rw [List.getElem?_eq_getElem hi, hget]
  have hn := hfont i char _ hchar hfirst
  have hlt := char.n_lt
  have hsub : (char.n : ℤ) - (font.chars[0]).n = i := by omega
  have hcast : wrap false 8 (wrap sg 8 char.n) = char.n := by
    have hself : wrap false 8 (char.n : ℤ) = char.n :=
      (fits_unsigned_iff 8 _).mpr ⟨by omega, by omega⟩
    rw [← hself]
    exact wrap_congr (by rw [wrap_emod, wrap_emod])
  have hdiff : wrap false 8 (i : ℤ) = i := (fits_unsigned_iff 8 _).mpr ⟨by omega, by omega⟩
  refine ⟨_, char, hfirst, ?_, ?_, rfl⟩
  · rw [hsub, Font.char, if_pos (Int.natCast_nonneg i), Int.toNat_natCast, hchar]
  · rw [hcast, hsub, hdiff]

/-- A character that the font has is drawn as its glyph. -/
lemma putChar_of_has (hfont : font.Consecutive) (h : font.Has c glyph) (sg : Bool) (x y : ℕ) :
    putChar font x y (wrap sg 8 c) = some (putRows glyph x y glyph.h 0 0) := by
  obtain ⟨first, char, hfirst, hchar, hwrap, rfl⟩ := char_of_has hfont h sg
  rw [putChar, hfirst, Option.bind_some, hwrap, hchar, Option.map_some]

/-- A character that the font has is measured as its glyph. -/
lemma charWidth_of_has (hfont : font.Consecutive) (h : font.Has c glyph) :
    charWidth font c = some glyph.w := by
  obtain ⟨first, char, hfirst, hchar, -, rfl⟩ := char_of_has hfont h false
  rw [charWidth, hfirst, Option.bind_some, hchar, Option.map_some]

variable {s : List ℕ} {glyphs : List Image} {distance : ℕ}

/-- **The width of a text** is that of its glyphs and of the distances behind them. -/
lemma measure_eq (hfont : font.Consecutive) (hs : List.Forall₂ font.Has s glyphs)
    (distance width : ℕ) (h : width + total distance glyphs < 2 ^ 16) :
    measure font distance width s = some (width + total distance glyphs) := by
  induction hs generalizing width with
  | nil => rfl
  | @cons c glyph s glyphs hc hs ih =>
      have hstep : total distance (glyph :: glyphs) = glyph.w + distance + total distance glyphs :=
        List.sum_cons
      rw [hstep] at h ⊢
      rw [measure, charWidth_of_has hfont hc, Option.bind_some, Nat.mod_eq_of_lt (by omega),
        ih _ (by omega)]
      congr 1
      omega

/-- The boxes of a text that is no wider than the screen fit beside each other. -/
lemma boxes_fit {x w : ℕ} (h : x + total distance glyphs ≤ w) :
    ∀ box ∈ boxes distance x glyphs, box.x + box.w ≤ w := by
  induction glyphs generalizing x with
  | nil => exact fun box hbox => absurd hbox List.not_mem_nil
  | cons glyph glyphs ih =>
      have hstep : total distance (glyph :: glyphs) = glyph.w + distance + total distance glyphs :=
        List.sum_cons
      rw [hstep] at h
      intro box hbox
      rcases List.mem_cons.mp hbox with rfl | hbox
      · simp only [Box.w]
        omega
      · exact ih (by omega) box hbox

/-- The boxes begin where the text does, or behind. -/
lemma le_boxes {x : ℕ} : ∀ box ∈ boxes distance x glyphs, x ≤ box.x := by
  induction glyphs generalizing x with
  | nil => exact fun box hbox => absurd hbox List.not_mem_nil
  | cons glyph glyphs ih =>
      intro box hbox
      rcases List.mem_cons.mp hbox with rfl | hbox
      · exact le_rfl
      · have hbehind := ih box hbox
        omega

/-- The boxes are as high as the glyphs. -/
lemma boxes_h {x : ℕ} {box : Box} (h : box ∈ boxes distance x glyphs) :
    ∃ glyph ∈ glyphs, box.h = glyph.h := by
  induction glyphs generalizing x with
  | nil => cases h
  | cons glyph glyphs ih =>
      rcases List.mem_cons.mp h with rfl | h
      · exact ⟨glyph, List.mem_cons_self, rfl⟩
      · obtain ⟨glyph', hmem, heq⟩ := ih h
        exact ⟨glyph', List.mem_cons_of_mem _ hmem, heq⟩

/-- The glyphs of a text are drawn in its boxes. -/
lemma putStr_drawn (hfont : font.Consecutive) (hs : List.Forall₂ font.Has s glyphs)
    (hw : ∀ glyph ∈ glyphs, 1 ≤ glyph.w) (sg : Bool) {x y : ℕ}
    (hx : ∀ box ∈ boxes distance x glyphs, box.x + box.w < 2 ^ 16)
    (hy : ∀ glyph ∈ glyphs, y + glyph.h < 2 ^ 16) :
    ∃ parts, putStr sg font distance y x s = some parts.flatten ∧
      List.Forall₂ (Drawn y) (boxes distance x glyphs) parts := by
  induction hs generalizing x with
  | nil => exact ⟨[], rfl, List.Forall₂.nil⟩
  | @cons c glyph s glyphs hc hs ih =>
      have hx0 : x + glyph.w < 2 ^ 16 := hx _ List.mem_cons_self
      have hw0 := hw glyph List.mem_cons_self
      have hy0 := hy glyph List.mem_cons_self
      -- the column behind the last glyph may wrap, but then nothing is drawn there
      have hrest : ∃ parts, putStr sg font distance y ((x + glyph.w + distance) % 2 ^ 16) s =
          some parts.flatten ∧
          List.Forall₂ (Drawn y) (boxes distance (x + glyph.w + distance) glyphs) parts := by
        cases hs with
        | nil => exact ⟨[], rfl, List.Forall₂.nil⟩
        | @cons c' glyph' s' glyphs' hc' hs' =>
            have hx1 : x + glyph.w + distance + glyph'.w < 2 ^ 16 :=
              hx ⟨x + glyph.w + distance, glyph'⟩
                (List.mem_cons_of_mem _ List.mem_cons_self)
            rw [Nat.mod_eq_of_lt (by omega)]
            exact ih (fun g hg => hw g (List.mem_cons_of_mem _ hg))
              (fun box hbox => hx box (List.mem_cons_of_mem _ hbox))
              (fun g hg => hy g (List.mem_cons_of_mem _ hg))
      obtain ⟨parts, hparts, hdrawn⟩ := hrest
      refine ⟨_ :: parts, ?_, List.Forall₂.cons (drawn_points hw0 x y) hdrawn⟩
      rw [putStr, putChar_of_has hfont hc, Option.bind_some, charWidth_of_has hfont hc,
        Option.bind_some, hparts, Option.map_some, putRows_points hw0 hx0.le hy0.le,
        List.flatten_cons]

end String

/-! ### The video buffer -/

section Buffer

variable {disp : Disp} {videoBff : List ℕ}

/-- A turn at a cell of the buffer changes this cell only, to its colour. -/
lemma plot_of_lt {p : Plot} (h : p.y * disp.w + p.x < videoBff.length) :
    ∃ color, p.color disp videoBff = some color ∧
      plot disp videoBff p = some (videoBff.set (p.y * disp.w + p.x) color) := by
  obtain ⟨color, hcolor⟩ : ∃ color, p.color disp videoBff = some color := by
    unfold Plot.color
    split_ifs
    · exact ⟨_, List.getElem?_eq_getElem h⟩
    · exact ⟨_, rfl⟩
    · exact ⟨_, rfl⟩
  refine ⟨color, hcolor, ?_⟩
  rw [plot, hcolor, Option.bind_some, setPixel, if_pos h]

/-- The colour of a turn depends on its own cell only. -/
lemma color_set_of_ne {p : Plot} {i : ℕ} (h : i ≠ p.y * disp.w + p.x) (color : ℕ) :
    p.color disp (videoBff.set i color) = p.color disp videoBff := by
  unfold Plot.color getPixel
  rw [List.getElem?_set_ne h]

/-- **Turns at different cells** of the buffer give each cell its colour and leave the others. -/
theorem draw_of_pairwise (disp : Disp) (videoBff : List ℕ) (plots : List Plot)
    (h : ∀ p ∈ plots, p.y * disp.w + p.x < videoBff.length)
    (hapart : plots.Pairwise fun p q => p.y * disp.w + p.x ≠ q.y * disp.w + q.x) :
    ∃ drawn, draw disp videoBff plots = some drawn ∧ drawn.length = videoBff.length ∧
      (∀ p ∈ plots, drawn[p.y * disp.w + p.x]? = p.color disp videoBff) ∧
      ∀ i, (∀ p ∈ plots, p.y * disp.w + p.x ≠ i) → drawn[i]? = videoBff[i]? := by
  induction plots generalizing videoBff with
  | nil => exact ⟨videoBff, rfl, rfl, fun _ hp => absurd hp List.not_mem_nil, fun _ _ => rfl⟩
  | cons p plots ih =>
      obtain ⟨hfirst, hrest⟩ := List.pairwise_cons.mp hapart
      have hcell := h p List.mem_cons_self
      obtain ⟨color, hcolor, hplot⟩ := plot_of_lt hcell
      have hlen : (videoBff.set (p.y * disp.w + p.x) color).length = videoBff.length :=
        List.length_set
      obtain ⟨drawn, hdraw, hdrawn, hcolors, hframe⟩ :=
        ih (videoBff.set (p.y * disp.w + p.x) color) (fun q hq => by
          rw [hlen]
          exact h q (List.mem_cons_of_mem _ hq)) hrest
      refine ⟨drawn, ?_, hdrawn.trans hlen, fun q hq => ?_, fun i hi => ?_⟩
      · rw [draw, List.foldlM_cons, hplot]
        exact hdraw
      · rcases List.mem_cons.mp hq with rfl | hq
        · rw [hframe _ fun q' hq' => (hfirst q' hq').symm, hcolor, List.getElem?_set_self hcell]
        · rw [hcolors q hq, color_set_of_ne (hfirst q hq)]
      · rw [hframe i fun q hq => hi q (List.mem_cons_of_mem _ hq),
          List.getElem?_set_ne (hi p List.mem_cons_self)]

end Buffer

/-! ### A text on the screen -/

/-- A point that is written is in one of the boxes. -/
lemma covers_of_mem {y : ℕ} {bs : List Box} {parts : List (List Plot)}
    (h : List.Forall₂ (Drawn y) bs parts) {p : Plot} (hp : p ∈ parts.flatten) :
    ∃ box ∈ bs, box.Covers y p.x p.y := by
  induction h with
  | nil => cases hp
  | @cons box part bs parts hdrawn _ ih =>
      rw [List.flatten_cons, List.mem_append] at hp
      rcases hp with hp | hp
      · exact ⟨box, List.mem_cons_self, (hdrawn.points _ _).mp ⟨p, hp, rfl, rfl⟩⟩
      · obtain ⟨box', hmem, hcovers⟩ := ih hp
        exact ⟨box', List.mem_cons_of_mem _ hmem, hcovers⟩

/-- Every box has its part of the turns. -/
lemma exists_part {y : ℕ} {bs : List Box} {parts : List (List Plot)}
    (h : List.Forall₂ (Drawn y) bs parts) {box : Box} (hbox : box ∈ bs) :
    ∃ part ∈ parts, Drawn y box part := by
  induction h with
  | nil => cases hbox
  | @cons box' part bs parts hdrawn _ ih =>
      rcases List.mem_cons.mp hbox with rfl | hbox
      · exact ⟨part, List.mem_cons_self, hdrawn⟩
      · obtain ⟨part', hmem, hdrawn'⟩ := ih hbox
        exact ⟨part', List.mem_cons_of_mem _ hmem, hdrawn'⟩

/-- The turns of a text write different points: the boxes lie beside each other. -/
lemma pairwise_parts {distance y x : ℕ} {glyphs : List Image} {parts : List (List Plot)}
    (h : List.Forall₂ (Drawn y) (boxes distance x glyphs) parts) :
    parts.flatten.Pairwise Apart := by
  induction glyphs generalizing x parts with
  | nil =>
      cases h
      exact List.Pairwise.nil
  | cons glyph glyphs ih =>
      obtain ⟨part, rest, hdrawn, hrest, rfl⟩ := List.forall₂_cons_left_iff.mp h
      rw [List.flatten_cons]
      refine List.pairwise_append.mpr ⟨hdrawn.once, ih hrest, fun p hp q hq => Or.inl ?_⟩
      obtain ⟨⟨-, hright⟩, -⟩ := (hdrawn.points _ _).mp ⟨p, hp, rfl, rfl⟩
      obtain ⟨box, hbox, ⟨hleft, -⟩, -⟩ := covers_of_mem hrest hq
      have hbehind := le_boxes box hbox
      simp only [Box.w] at hright
      omega

section Screen

variable {disp : Disp} {sg : Bool} {font : Font} {s : List ℕ} {glyphs : List Image}
  {distance y : ℕ}

/-- A text that fits is in the boxes of its glyphs. -/
lemma putStr_boxed (hfont : font.Consecutive) (hwidth : ∀ char ∈ font.chars, 1 ≤ char.image.w)
    (hs : List.Forall₂ font.Has s glyphs) (hy : ∀ glyph ∈ glyphs, y + glyph.h ≤ disp.h) {x : ℕ}
    (hx : ∀ box ∈ boxes distance x glyphs, box.x + box.w ≤ disp.w) :
    Boxed disp y (boxes distance x glyphs) (putStr sg font distance y x s) := by
  have hw : ∀ glyph ∈ glyphs, 1 ≤ glyph.w := by
    clear hy hx
    induction hs with
    | nil => exact fun glyph h => absurd h List.not_mem_nil
    | cons hc _ ih =>
        intro glyph h
        rcases List.mem_cons.mp h with rfl | h
        · obtain ⟨char, hmem, -, rfl⟩ := hc
          exact hwidth char hmem
        · exact ih glyph h
  obtain ⟨parts, htext, hdrawn⟩ := putStr_drawn hfont hs hw sg (y := y)
    (fun box hbox => (hx box hbox).trans_lt disp.w_lt)
    (fun glyph hglyph => (hy glyph hglyph).trans_lt disp.h_lt)
  have hscreen : ∀ p ∈ parts.flatten, p.x < disp.w ∧ p.y < disp.h := by
    intro p hp
    obtain ⟨box, hbox, ⟨-, hcol⟩, -, hrow⟩ := covers_of_mem hdrawn hp
    obtain ⟨glyph, hglyph, hh⟩ := boxes_h hbox
    have hfit := hx box hbox
    have hhigh := hy glyph hglyph
    omega
  refine ⟨parts, htext, hdrawn, fun videoBff hlen => ?_⟩
  have hcells : parts.flatten.Pairwise fun p q =>
      p.y * disp.w + p.x ≠ q.y * disp.w + q.x := by
    refine List.Pairwise.imp_of_mem (fun {p q} hp hq hapart heq => ?_) (pairwise_parts hdrawn)
    obtain ⟨hcol, hrow⟩ := Raster.cell_inj (hscreen p hp).1 (hscreen q hq).1 heq
    exact hapart.elim (fun hne => hne hcol) fun hne => hne hrow
  obtain ⟨drawn, hdraw, hdrawnlen, hcolors, hframe⟩ :=
    draw_of_pairwise disp videoBff parts.flatten (fun p hp => by
      rw [hlen]
      exact Raster.cell_lt (hscreen p hp).1 (hscreen p hp).2) hcells
  refine ⟨drawn, hdraw, hdrawnlen, fun box hbox px py hcovers => ?_,
    fun px py hpx hpy hout => hframe _ fun p hp heq => ?_⟩
  · -- the turn at the point has the bit of the glyph there
    obtain ⟨part, hpart, hbox'⟩ := exists_part hdrawn hbox
    obtain ⟨p, hp, rfl, rfl⟩ := (hbox'.points px py).mpr hcovers
    have hcolor := hcolors p (List.mem_flatten_of_mem hpart hp)
    rw [Plot.color, hbox'.bits p hp] at hcolor
    exact hcolor
  · obtain ⟨box, hbox, hcovers⟩ := covers_of_mem hdrawn hp
    obtain ⟨rfl, rfl⟩ := Raster.cell_inj (hscreen p hp).1 hpx heq
    exact hout box hbox hcovers

/-- **Text stays in its boxes.** With a font whose characters are numbered one after the other and
are a pixel wide at least, a text of its characters that is no wider than the screen is drawn in the
boxes of its glyphs: from any column where they fit, centred from half of what its width leaves
over, and to the right from all of it. -/
theorem text_in_boxes (disp : Disp) (sg : Bool) (font : Font) (hfont : font.Consecutive)
    (hwidth : ∀ char ∈ font.chars, 1 ≤ char.image.w) (s : List ℕ) (glyphs : List Image)
    (hs : List.Forall₂ font.Has s glyphs) (distance y : ℕ)
    (hy : ∀ glyph ∈ glyphs, y + glyph.h ≤ disp.h) (htotal : total distance glyphs ≤ disp.w) :
    (∀ x, (∀ box ∈ boxes distance x glyphs, box.x + box.w ≤ disp.w) →
      Boxed disp y (boxes distance x glyphs) (putStr sg font distance y x s)) ∧
    Boxed disp y (boxes distance ((disp.w - total distance glyphs) / 2) glyphs)
      (putStrCenter disp sg font distance y s) ∧
    Boxed disp y (boxes distance (disp.w - total distance glyphs) glyphs)
      (putStrRight disp sg font distance y s) := by
  have hlt := disp.w_lt
  have hmeasure := measure_eq hfont hs distance 0 (by omega)
  rw [Nat.zero_add] at hmeasure
  refine ⟨fun x hx => putStr_boxed hfont hwidth hs hy hx, ?_, ?_⟩
  · have hhalf : ((disp.w : ℤ) - total distance glyphs).tdiv 2 =
        ((disp.w - total distance glyphs) / 2 : ℕ) := by
      rw [Int.tdiv_eq_ediv_of_nonneg (by omega)]
      omega
    have hwrap : wrap false 16 (((disp.w - total distance glyphs) / 2 : ℕ) : ℤ) = _ :=
      (fits_unsigned_iff 16 _).mpr ⟨by omega, by omega⟩
    rw [putStrCenter, hmeasure, Option.bind_some, hhalf, hwrap, Int.toNat_natCast]
    exact putStr_boxed hfont hwidth hs hy (boxes_fit (by omega))
  · have hrest : (disp.w : ℤ) - total distance glyphs = (disp.w - total distance glyphs : ℕ) := by
      omega
    have hwrap : wrap false 16 ((disp.w - total distance glyphs : ℕ) : ℤ) = _ :=
      (fits_unsigned_iff 16 _).mpr ⟨by omega, by omega⟩
    rw [putStrRight, hmeasure, Option.bind_some, hrest, hwrap, Int.toNat_natCast]
    exact putStr_boxed hfont hwidth hs hy (boxes_fit (by omega))

/-- Source: `st7735.c` `st7735_driver`. -/
def st7735 : Disp := ⟨160, 128, false, 0, 0xFFFF, by decide, by decide⟩

/-- A glyph of two rows of two bytes. -/
def oneGlyph : Image := ⟨fun _ => 0xAA, 9, 2, by decide, by decide⟩

/-- A font with one character, above 127. -/
def oneChar : Font := ⟨[⟨200, oneGlyph, by decide⟩]⟩

/-- Two of these characters, three columns apart. -/
theorem text_in_boxes_oneChar :
    Boxed st7735 10 [⟨5, oneGlyph⟩, ⟨17, oneGlyph⟩] (putStr true oneChar 3 10 5 [200, 200]) ∧
      Boxed st7735 10 [⟨68, oneGlyph⟩, ⟨80, oneGlyph⟩]
        (putStrCenter st7735 true oneChar 3 10 [200, 200]) ∧
      Boxed st7735 10 [⟨136, oneGlyph⟩, ⟨148, oneGlyph⟩]
        (putStrRight st7735 true oneChar 3 10 [200, 200]) := by
  have hfont : oneChar.Consecutive := by
    rintro (_ | i) char first hchar hfirst
    · exact congrArg CharType.n (Option.some.inj (hchar.symm.trans hfirst))
    · cases hchar
  have hhas : oneChar.Has 200 oneGlyph :=
    ⟨_, List.mem_singleton_self _, rfl, rfl⟩
  have hall := text_in_boxes st7735 true oneChar hfont (by simp [oneChar, oneGlyph]) [200, 200] _
    (List.Forall₂.cons hhas (List.Forall₂.cons hhas List.Forall₂.nil)) 3 10
    (by simp [st7735, oneGlyph]) (by simp [total, st7735, oneGlyph])
  exact ⟨hall.1 5 (by simp [boxes, Box.w, st7735, oneGlyph]), hall.2⟩

end Screen

end PanelFirmware.Window.Text
