import PanelFirmware.Hal.Rtc
import PanelFirmware.Lib.Machine
import PanelFirmware.Window.MenuSystem

/-!
# `window/src/menuSystem.cpp`: setting the clock

`clockEditor` breaks the parameter `utcTime` down into six fields, which the keys select and the
encoder changes. When it returns it puts the fields together again, in an instant of sixty-four
bits, and stores this in the parameter, which has thirty-two.

* `Valid`: the fields are a date and a time of day; `exists_pass`: a pass of the loop keeps them so.
* `mktime_localtimeR`, `localtimeR_mktime`: the two functions of the C library are inverse.
* `before_iff`: dates and times are ordered as their instants.
* `stored_iff`: exactly when the parameter denotes what was displayed, in its declared range.
-/

namespace PanelFirmware.Window.ClockEditor

open PanelFirmware.Lib PanelFirmware.Hal

/-! ### The code -/

/-- The fields, by which one is selected. Source: `menuSystem.cpp` `clockEditor`, its `enum`. -/
inductive Var
  | day
  | mon
  | yaer
  | hour
  | min
  | sec
  deriving DecidableEq

/-- Source: `menuSystem.cpp` `clockEditor`, `Val`. -/
abbrev Fields := Var → ℤ

/-- Source: `menuSystem.cpp` `clockEditor`, `limits`. -/
def limits : Var → ℤ × ℤ
  | .day => (1, 31)
  | .mon => (1, 12)
  | .yaer => (2025, 3000)
  | .hour => (0, 23)
  | .min => (0, 59)
  | .sec => (0, 59)

/-- The parts of an instant in a zone that is `off` seconds ahead of UTC, for a local time that is
not before 1970, as the C library documents `localtime_r`. -/
def localtimeR (off t : ℤ) : Tm := gmtimeR (t + off).toNat

/-- The instant of a date and a time of day in that zone, as the C library documents `mktime`, for a
date of the calendar that is not before 1970. -/
def mktime (off : ℤ) (t : Tm) : ℤ :=
  gregorian.ordinal 1970 ⟨(t.tmYear + 1900).toNat, t.tmMon.toNat, (t.tmMday - 1).toNat⟩ * 86400 +
    t.tmHour * 3600 + t.tmMin * 60 + t.tmSec - off

/-- Source: `menuSystem.cpp` `clockEditor`, `val` where it is defined. -/
def ofTm (t : Tm) : Fields
  | .day => t.tmMday
  | .mon => t.tmMon + 1
  | .yaer => t.tmYear + 1900
  | .hour => t.tmHour
  | .min => t.tmMin
  | .sec => t.tmSec

/-- Source: `menuSystem.cpp` `clockEditor`, `t` behind the loop. -/
def toTm (val : Fields) : Tm where
  tmMday := val .day
  tmMon := val .mon - 1
  tmYear := val .yaer - 1900
  tmHour := val .hour
  tmMin := val .min
  tmSec := val .sec

/-- Source: `menuSystem.cpp` `clockEditor`, `isLeapYear`. -/
def isLeapYear (y : ℤ) : Bool :=
  y.tmod 4 == 0 && (y.tmod 100 != 0 || y.tmod 400 == 0)

/-- `none` where the table is left. Source: `menuSystem.cpp` `clockEditor`, `daysInMonth`. -/
def daysInMonth (month year : ℤ) : Option ℤ :=
  if month = 2 ∧ isLeapYear year then some 29
  else if month < 1 then none
  else ([31, 28, 31, 30, 31, 30, 31, 31, 30, 31, 30, 31] : List ℤ)[(month - 1).toNat]?

/-- The selected field after the keys of a scan. Source: `menuSystem.cpp` `clockEditor`. -/
def moveVar (keys : Key → Bool) (var : Var) : Var :=
  if keys .kUp then
    match var with
    | .day => .mon
    | .mon => .yaer
    | .yaer => .hour
    | .hour => .min
    | .min => .sec
    | .sec => .sec
  else if keys .kDown then
    match var with
    | .day => .day
    | .mon => .day
    | .yaer => .mon
    | .hour => .yaer
    | .min => .hour
    | .sec => .min
  else var

/-- The encoder's step is added to the selected field, in `int32_t`, and the field is put within its
limits. Source: `menuSystem.cpp` `clockEditor`. -/
def edit (var : Var) (encoder : ℤ) (val : Fields) : Fields :=
  let x := wrap true 32 (val var + encoder)
  let x := if x < (limits var).1 then (limits var).1 else x
  let x := if x > (limits var).2 then (limits var).2 else x
  Function.update val var x

/-- The editor, and the parameter. -/
structure State where
  var : Var
  val : Fields
  returned : Bool
  utcTime : ℤ

/-- A pass of the loop: the keys of its scan and the step of the encoder. -/
structure Pass where
  keys : Key → Bool
  encoder : ℤ

/-- The editor is entered. Source: `menuSystem.cpp` `clockEditor`. -/
def enter (off utcTime : ℤ) : State where
  var := .day
  val := ofTm (localtimeR off utcTime)
  returned := false
  utcTime := utcTime

/-- A pass of the loop, the last one with the return, on the item `m` in a zone that is `off`
seconds ahead. Source: `menuSystem.cpp` `clockEditor`. -/
def step (m : Item) (off : ℤ) (s : State) (p : Pass) : Option State :=
  if s.returned then none
  else
    let var := moveVar p.keys s.var
    if p.keys .kMode then
      some { s with
        var := var
        returned := true
        utcTime :=
          if m.get.change then wrap false 32 (mktime off (toTm s.val)) else s.utcTime }
    else do
      let val := if m.get.change then edit var p.encoder s.val else s.val
      let monlimit ← daysInMonth (val .mon) (wrap true 32 (val .yaer + 2000))
      let val := if val .day > monlimit then Function.update val .day monlimit else val
      some { s with var := var, val := val }

/-! ### Valid fields -/

/-- The values of a field; the years are those of the limits and of a parameter that has not been
edited yet. -/
def range (var : Var) : ℤ × ℤ := if var = .yaer then (1970, 3000) else limits var

/-- The fields are a date of the calendar and a time of day. -/
structure Valid (val : Fields) : Prop where
  range : ∀ var, (range var).1 ≤ val var ∧ val var ≤ (range var).2
  day : val .day ≤ gregorian.length (val .yaer).toNat (val .mon - 1).toNat

/-- The date of the fields. -/
def dateOf (val : Fields) : Date :=
  ⟨(val .yaer).toNat, (val .mon - 1).toNat, (val .day - 1).toNat⟩

/-- Valid fields are a date of the calendar, not before 1970. -/
lemma Valid.date {val : Fields} (h : Valid val) :
    gregorian.Valid (dateOf val) ∧ 1970 ≤ (dateOf val).year := by
  have hday : 1 ≤ val .day := (h.range .day).1
  have hmon : 1 ≤ val .mon ∧ val .mon ≤ 12 := h.range .mon
  have hyear : 1970 ≤ val .yaer := (h.range .yaer).1
  have hlength := h.day
  refine ⟨⟨?_, ?_⟩, ?_⟩
  · change (val .mon - 1).toNat < 12
    omega
  · change (val .day - 1).toNat < gregorian.length (val .yaer).toNat (val .mon - 1).toNat
    omega
  · change 1970 ≤ (val .yaer).toNat
    omega

/-- The length of a month, found in the year 2000 years later. -/
lemma daysInMonth_eq {month year : ℤ} (hm0 : 1 ≤ month) (hm1 : month ≤ 12) (hy0 : 0 ≤ year)
    (hy1 : year ≤ 3000) : daysInMonth month (wrap true 32 (year + 2000)) =
      some (gregorian.length year.toNat (month - 1).toNat : ℤ) := by
  have hfit : wrap true 32 (year + 2000) = year + 2000 := (fits_signed_iff 31 _).mpr (by omega)
  have hleap : isLeapYear (year + 2000) = gregorianLeap year.toNat := by
    unfold isLeapYear
    rw [gregorianLeap_eq, Int.tmod_eq_emod_of_nonneg (by omega),
      Int.tmod_eq_emod_of_nonneg (by omega), Int.tmod_eq_emod_of_nonneg (by omega),
      Bool.eq_iff_iff]
    simp only [Bool.and_eq_true, Bool.or_eq_true, beq_iff_eq, bne_iff_ne, ne_eq]
    split_ifs <;> simp only [decide_eq_true_eq, iff_true, iff_false] <;> omega
  rw [hfit]
  unfold daysInMonth
  rw [hleap]
  change _ = some (gregorianLength year.toNat (month - 1).toNat : ℤ)
  unfold gregorianLength
  cases gregorianLeap year.toNat <;> interval_cases month <;> rfl

/-- A field that was edited is within its limits, and the others are left. -/
lemma edit_range {var : Var} {encoder : ℤ} {val : Fields}
    (h : ∀ w, (range w).1 ≤ val w ∧ val w ≤ (range w).2) (w : Var) :
    (range w).1 ≤ edit var encoder val w ∧ edit var encoder val w ≤ (range w).2 := by
  have hlimits : (limits var).1 ≤ (limits var).2 := by cases var <;> decide
  have hwithin : (range var).1 ≤ (limits var).1 ∧ (limits var).2 ≤ (range var).2 := by
    cases var <;> decide
  unfold edit
  by_cases hw : w = var
  · subst hw
    rw [Function.update_self]
    split_ifs <;> omega
  · rw [Function.update_of_ne hw]
    exact h w

/-- **A pass that does not leave the loop** keeps the fields a date and a time of day. -/
lemma exists_pass (m : Item) (off : ℤ) {s : State} (h : Valid s.val) (hs : s.returned = false)
    {p : Pass} (hp : p.keys .kMode = false) :
    ∃ t, step m off s p = some t ∧ Valid t.val ∧ t.returned = false := by
  unfold step
  simp only [hs, hp, Bool.false_eq_true, if_false]
  obtain ⟨val, hval⟩ : ∃ val, (if m.get.change then edit (moveVar p.keys s.var) p.encoder s.val
    else s.val) = val := ⟨_, rfl⟩
  have hedit : ∀ w, (range w).1 ≤ val w ∧ val w ≤ (range w).2 := by
    rw [← hval]
    split_ifs
    · exact edit_range h.range
    · exact h.range
  rw [hval]
  have hmon : 1 ≤ val .mon ∧ val .mon ≤ 12 := hedit .mon
  have hyear : 1970 ≤ val .yaer ∧ val .yaer ≤ 3000 := hedit .yaer
  have hlimit := daysInMonth_eq hmon.1 hmon.2 (by omega) hyear.2
  simp only [hlimit, Option.bind_eq_bind, Option.bind_some]
  refine ⟨_, rfl, ?_, rfl⟩
  dsimp only
  have hpos := gregorian.length_pos (val .yaer).toNat (val .mon - 1).toNat
  split_ifs with hlong
  · have hday : 1 ≤ val .day ∧ val .day ≤ 31 := hedit .day
    refine ⟨fun w => ?_, ?_⟩
    · by_cases hw : w = .day
      · subst hw
        rw [Function.update_self]
        change 1 ≤ _ ∧ _ ≤ 31
        omega
      · rw [Function.update_of_ne hw]
        exact hedit w
    · rw [Function.update_self, Function.update_of_ne (by decide),
        Function.update_of_ne (by decide)]
  · exact ⟨hedit, not_lt.mp hlong⟩

/-- A run of such passes does. -/
lemma exists_passes (m : Item) (off : ℤ) {s : State} (h : Valid s.val)
    (hs : s.returned = false) {ps : List Pass} (hps : ∀ p ∈ ps, p.keys .kMode = false) :
    ∃ t, Machine.run (step m off) s ps = some t ∧ Valid t.val ∧ t.returned = false := by
  induction ps generalizing s with
  | nil => exact ⟨s, rfl, h, hs⟩
  | cons p ps ih =>
      obtain ⟨hp, hrest⟩ := List.forall_mem_cons.mp hps
      obtain ⟨t, ht, hvalid, hreturned⟩ := exists_pass m off h hs hp
      rw [Machine.run, ht, Option.bind_some]
      exact ih hvalid hreturned hrest

/-! ### Instants -/

/-- What was taken apart is put together again. -/
lemma toTm_ofTm (t : Tm) : toTm (ofTm t) = t := by
  unfold toTm ofTm
  ext <;> dsimp only <;> omega

/-- An instant of the years 1970 to 2109 in the zone. -/
structure InYears (off t : ℤ) : Prop where
  lo : 0 ≤ t + off
  hi : t + off < 4417977600

/-- The parts of an instant are a date and a time of day. -/
lemma valid_localtimeR {off t : ℤ} (h : InYears off t) : Valid (ofTm (localtimeR off t)) := by
  obtain ⟨hlo, hhi⟩ := h
  obtain ⟨n, hn⟩ := Int.eq_ofNat_of_zero_le hlo
  obtain ⟨⟨hmonth, hday⟩, hepoch, -⟩ := gregorian.ordinal_dateOf 1970 (n / 86400)
  have hlast : n / 86400 < gregorian.daysOfYears 1970 140 := by
    have hdays : gregorian.daysOfYears 1970 140 = 51134 := by decide +kernel
    omega
  have hyear := (Calendar.year_dateOf (a := 0) (Nat.zero_le _) hlast).2
  change _ < 12 at hmonth
  have hlength : gregorian.length (gregorian.dateOf 1970 (n / 86400)).year
      (gregorian.dateOf 1970 (n / 86400)).month ≤ 31 := by
    simp only [gregorian, gregorianLength]
    split <;> (try split_ifs) <;> decide
  unfold localtimeR gmtimeR
  rw [hn, Int.toNat_natCast]
  clear hlast
  generalize gregorian.dateOf 1970 (n / 86400) = d at *
  refine ⟨fun var => ?_, ?_⟩
  · cases var <;> simp only [ofTm, range, limits] <;> simp <;> omega
  · simp only [ofTm, sub_add_cancel, add_sub_cancel_right, Int.toNat_natCast]
    omega

/-- **`mktime` undoes `localtime_r`.** -/
theorem mktime_localtimeR {off t : ℤ} (h : 0 ≤ t + off) : mktime off (localtimeR off t) = t := by
  obtain ⟨n, hn⟩ := Int.eq_ofNat_of_zero_le h
  obtain ⟨-, -, hord⟩ := gregorian.ordinal_dateOf 1970 (n / 86400)
  unfold localtimeR gmtimeR mktime
  rw [hn, Int.toNat_natCast]
  dsimp only
  rw [sub_add_cancel, add_sub_cancel_right, Int.toNat_natCast, Int.toNat_natCast,
    Int.toNat_natCast, hord]
  omega

/-- The instant of valid fields, by the days before their date. -/
lemma mktime_toTm {off : ℤ} (val : Fields) :
    mktime off (toTm val) = gregorian.ordinal 1970 (dateOf val) * 86400 + val .hour * 3600 +
      val .min * 60 + val .sec - off := by
  unfold mktime toTm dateOf
  dsimp only
  rw [sub_add_cancel]

/-- **`localtime_r` undoes `mktime`**, on valid fields. -/
theorem localtimeR_mktime {off : ℤ} {val : Fields} (h : Valid val) :
    ofTm (localtimeR off (mktime off (toTm val))) = val := by
  obtain ⟨hvalid, hepoch⟩ := h.date
  have hhour : 0 ≤ val .hour ∧ val .hour ≤ 23 := h.range .hour
  have hmin : 0 ≤ val .min ∧ val .min ≤ 59 := h.range .min
  have hsec : 0 ≤ val .sec ∧ val .sec ≤ 59 := h.range .sec
  have hmon : 1 ≤ val .mon ∧ val .mon ≤ 12 := h.range .mon
  have hday : 1 ≤ val .day ∧ val .day ≤ 31 := h.range .day
  have hyear : 1970 ≤ val .yaer ∧ val .yaer ≤ 3000 := h.range .yaer
  have hback := Calendar.dateOf_ordinal hvalid hepoch
  rw [mktime_toTm]
  unfold localtimeR gmtimeR
  generalize hn : gregorian.ordinal 1970 (dateOf val) = n at hback ⊢
  have hsum : ((n : ℤ) * 86400 + val .hour * 3600 + val .min * 60 + val .sec - off + off).toNat =
      n * 86400 + (val .hour * 3600 + val .min * 60 + val .sec).toNat := by omega
  have hdays : (n * 86400 + (val .hour * 3600 + val .min * 60 + val .sec).toNat) / 86400 = n := by
    omega
  rw [hsum, hdays, hback]
  funext var
  cases var <;> simp only [ofTm, dateOf] <;> omega

/-- The order of dates and times: by year, month, day, hour, minute and second. -/
def Before (v w : Fields) : Prop :=
  v .yaer < w .yaer ∨ v .yaer = w .yaer ∧ (v .mon < w .mon ∨ v .mon = w .mon ∧
    (v .day < w .day ∨ v .day = w .day ∧ (v .hour < w .hour ∨ v .hour = w .hour ∧
      (v .min < w .min ∨ v .min = w .min ∧ v .sec < w .sec))))

instance (v w : Fields) : Decidable (Before v w) := inferInstanceAs (Decidable (_ ∨ _))

/-- The order of the dates of valid fields. -/
lemma dateOf_before {v w : Fields} (hv : Valid v) (hw : Valid w) :
    Calendar.Before (dateOf v) (dateOf w) ↔ v .yaer < w .yaer ∨ v .yaer = w .yaer ∧
      (v .mon < w .mon ∨ v .mon = w .mon ∧ v .day < w .day) := by
  have hvmon : 1 ≤ v .mon := (hv.range .mon).1
  have hwmon : 1 ≤ w .mon := (hw.range .mon).1
  have hvday : 1 ≤ v .day := (hv.range .day).1
  have hwday : 1 ≤ w .day := (hw.range .day).1
  have hvyear : 1970 ≤ v .yaer := (hv.range .yaer).1
  have hwyear : 1970 ≤ w .yaer := (hw.range .yaer).1
  unfold Calendar.Before dateOf
  dsimp only
  omega

/-- **Dates and times are ordered as their instants.** -/
theorem before_iff (off : ℤ) {v w : Fields} (hv : Valid v) (hw : Valid w) :
    Before v w ↔ mktime off (toTm v) < mktime off (toTm w) := by
  obtain ⟨hv0, hv1⟩ := hv.date
  obtain ⟨hw0, hw1⟩ := hw.date
  have hdates := Calendar.ordinal_lt_iff hv0 hw0 hv1 hw1
  have hdates' := Calendar.ordinal_lt_iff hw0 hv0 hw1 hv1
  rw [dateOf_before hv hw] at hdates
  rw [dateOf_before hw hv] at hdates'
  have htimes : ∀ u : Fields, Valid u → (0 ≤ u .hour ∧ u .hour ≤ 23) ∧
      (0 ≤ u .min ∧ u .min ≤ 59) ∧ 0 ≤ u .sec ∧ u .sec ≤ 59 :=
    fun u hu => ⟨hu.range .hour, hu.range .min, hu.range .sec⟩
  obtain ⟨hvh, hvm, hvs⟩ := htimes v hv
  obtain ⟨hwh, hwm, hws⟩ := htimes w hw
  rw [mktime_toTm, mktime_toTm]
  unfold Before
  generalize gregorian.ordinal 1970 (dateOf v) = a at *
  generalize gregorian.ordinal 1970 (dateOf w) = b at *
  rcases lt_trichotomy a b with h | rfl | h
  · have hlt := hdates.mp h
    omega
  · have hlt := mt hdates.mpr (lt_irrefl a)
    have hlt' := mt hdates'.mpr (lt_irrefl a)
    omega
  · have hlt := hdates'.mp h
    omega

/-! ### The stored parameter -/

/-- The first and the last instant that the parameter holds. Source: `parametres.txt` `utcTime`. -/
def utcTimeRange : ℤ × ℤ := (0x58684680, 0xFFFFFFFF)

/-- The parameter denotes what is displayed, and is within its declared range. -/
def Stored (off : ℤ) (s : State) : Prop :=
  ofTm (localtimeR off s.utcTime) = s.val ∧ utcTimeRange.1 ≤ s.utcTime ∧
    s.utcTime ≤ utcTimeRange.2

/-- A parameter that denotes what is displayed is its instant. -/
lemma mktime_of_stored {off : ℤ} (hoff : |off| ≤ 86400) {s : State} (h : Stored off s) :
    mktime off (toTm s.val) = s.utcTime := by
  obtain ⟨hdenotes, hlo, -⟩ := h
  have hoff0 := (abs_le.mp hoff).1
  have hlocal : 0 ≤ s.utcTime + off := by
    unfold utcTimeRange at hlo
    omega
  rw [← hdenotes, toTm_ofTm, mktime_localtimeR hlocal]

/-- Fields between those of the first and of the last instant that the parameter holds. -/
def Storable (off : ℤ) (val : Fields) : Prop :=
  ¬ Before val (ofTm (localtimeR off utcTimeRange.1)) ∧
    ¬ Before (ofTm (localtimeR off utcTimeRange.2)) val

/-- Fields of an instant that the parameter holds. -/
lemma storable_iff {off : ℤ} (hoff : |off| ≤ 86400) {val : Fields} (h : Valid val) :
    Storable off val ↔ utcTimeRange.1 ≤ mktime off (toTm val) ∧
      mktime off (toTm val) ≤ utcTimeRange.2 := by
  obtain ⟨hoff0, hoff1⟩ := abs_le.mp hoff
  have hyears : ∀ t, utcTimeRange.1 ≤ t → t ≤ utcTimeRange.2 → InYears off t := by
    intro t h0 h1
    unfold utcTimeRange at h0 h1
    exact ⟨by omega, by omega⟩
  have hlo := hyears utcTimeRange.1 le_rfl (by decide)
  have hhi := hyears utcTimeRange.2 (by decide) le_rfl
  unfold Storable
  rw [before_iff off h (valid_localtimeR hlo), before_iff off (valid_localtimeR hhi) h, toTm_ofTm,
    toTm_ofTm, mktime_localtimeR hlo.lo, mktime_localtimeR hhi.lo, not_lt, not_lt]

/-- **Exactly when the clock editor stores the displayed instant.** In every session on an item that
can be changed, from any value of the parameter: after every pass of the loop the fields are a date
and a time of day, and the parameter that the return stores denotes them and is within its declared
range, if and only if they are between the first and the last instant of this range. -/
theorem stored_iff {m : Item} (hm : m.get.change = true) {off utcTime : ℤ} (hoff : |off| ≤ 86400)
    (h0 : utcTimeRange.1 ≤ utcTime) (h1 : utcTime ≤ utcTimeRange.2) {ps : List Pass}
    (hps : ∀ p ∈ ps, p.keys .kMode = false) {last : Pass} (hlast : last.keys .kMode = true) :
    ∃ s t, Machine.run (step m off) (enter off utcTime) ps = some s ∧ Valid s.val ∧
      step m off s last = some t ∧ t.val = s.val ∧ (Stored off t ↔ Storable off s.val) := by
  obtain ⟨hoff0, hoff1⟩ := abs_le.mp hoff
  have hyears : InYears off utcTime := by
    unfold utcTimeRange at h0 h1
    exact ⟨by omega, by omega⟩
  obtain ⟨s, hs, hvalid, hreturned⟩ := exists_passes m off (s := enter off utcTime)
    (valid_localtimeR hyears) rfl hps
  have hstep : step m off s last = some { s with
      var := moveVar last.keys s.var
      returned := true
      utcTime := wrap false 32 (mktime off (toTm s.val)) } := by
    unfold step
    simp only [hreturned, hlast, hm, Bool.false_eq_true, if_false, if_true]
  refine ⟨s, _, hs, hvalid, hstep, rfl, ?_⟩
  rw [storable_iff hoff hvalid]
  constructor
  · intro hstored
    have hinstant := mktime_of_stored hoff hstored
    obtain ⟨-, hlo, hhi⟩ := hstored
    rw [← hinstant] at hlo hhi
    exact ⟨hlo, hhi⟩
  · rintro ⟨hlo, hhi⟩
    have hfit : wrap false 32 (mktime off (toTm s.val)) = mktime off (toTm s.val) := by
      unfold utcTimeRange at hlo hhi
      exact (fits_unsigned_iff 32 _).mpr (by omega)
    unfold Stored
    dsimp only
    rw [hfit]
    exact ⟨localtimeR_mktime hvalid, hlo, hhi⟩

/-- The one key. -/
def onlyKey (k : Key) : Key → Bool := fun k' => decide (k' = k)

/-- The passes of a session that sets the year: two keys select it, and the encoder is turned. -/
def setYear (encoder : ℤ) : List Pass := [⟨onlyKey .kUp, 0⟩, ⟨onlyKey .kUp, encoder⟩]

/-- The year is set two zones east of Greenwich. -/
theorem stored_iff_2040 : ∃ s t,
    Machine.run (step .m20 7200) (enter 7200 1700000000) (setYear 17) = some s ∧ Valid s.val ∧
      step .m20 7200 s ⟨onlyKey .kMode, 0⟩ = some t ∧ t.val = s.val ∧
      (Stored 7200 t ↔ Storable 7200 s.val) :=
  stored_iff rfl (by decide) (by decide) (by decide) (by decide) (by decide)

/-- The first of January 2017, at midnight. -/
def firstDay : Fields
  | .day | .mon => 1
  | .yaer => 2017
  | .hour | .min | .sec => 0

/-- This is the first instant that the parameter holds. -/
lemma localtimeR_firstDay : ofTm (localtimeR 0 utcTimeRange.1) = firstDay := by
  have hvalid : Valid firstDay := ⟨fun var => by cases var <;> decide, by decide⟩
  have hinstant : mktime 0 (toTm firstDay) = utcTimeRange.1 := by decide +kernel
  rw [← hinstant]
  exact localtimeR_mktime hvalid

/-- **The year 2125 is displayed, and another instant is stored.** -/
theorem not_stored : ¬ ∀ m : Item, m.get.change = true → ∀ off utcTime : ℤ, |off| ≤ 86400 →
    utcTimeRange.1 ≤ utcTime → utcTime ≤ utcTimeRange.2 →
    ∀ ps : List Pass, (∀ p ∈ ps, p.keys .kMode = false) →
    ∀ last : Pass, last.keys .kMode = true →
    ∀ s t, Machine.run (step m off) (enter off utcTime) ps = some s →
      step m off s last = some t → Stored off t := by
  intro h
  have henter : enter 0 utcTimeRange.1 = ⟨.day, firstDay, false, utcTimeRange.1⟩ := by
    rw [enter, localtimeR_firstDay]
  obtain ⟨s, t, hs, ht, hlate⟩ : ∃ s t, Machine.run (step .m20 0)
      ⟨.day, firstDay, false, utcTimeRange.1⟩ (setYear 108) = some s ∧
      step .m20 0 s ⟨onlyKey .kMode, 0⟩ = some t ∧ utcTimeRange.2 < mktime 0 (toTm t.val) :=
    ⟨_, _, rfl, rfl, by decide +kernel⟩
  have hstored := h .m20 rfl 0 utcTimeRange.1 (by decide) (by decide) (by decide) (setYear 108)
    (by decide) ⟨onlyKey .kMode, 0⟩ (by decide) s t (henter ▸ hs) ht
  rw [mktime_of_stored (by decide) hstored] at hlate
  exact absurd hstored.2.2 (not_le.mpr hlate)

end PanelFirmware.Window.ClockEditor
