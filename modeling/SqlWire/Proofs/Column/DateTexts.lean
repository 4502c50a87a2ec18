import SqlWire.Proofs.Calendar.Texts
import SqlWire.Proofs.Row.Natural

/-!
# Texts of calendar fields in both protocols

A calendar field in text form is its own text, and one in binary form has the text of what it
denotes.  `Column.sameOutcome_calendarField` says for which years, months, days and times of day the
two are the same: for the days of the calendar, and for the zero date, whose text has no time of day
of its own.  Other fields have a text in text form alone.
-/

namespace SqlWire

open Digits

/-- The same value, or failures of the same kind. -/
inductive SameOutcome {α : Type} : Except Error α → Except Error α → Prop where
  | ok (a : α) : SameOutcome (.ok a) (.ok a)
  | error {e e' : Error} (h : e.kind = e'.kind) : SameOutcome (.error e) (.error e')

theorem sameOutcome_ok_iff
    {α : Type} {a b : α} :
  SameOutcome (.ok a) (.ok b) ↔ a = b
  := by
  constructor
  · rintro ⟨⟩
    rfl
  · rintro rfl
    exact .ok a

namespace DateTimeField

variable {f : DateTimeField}

/-- The text `YYYY-MM-DD` of the year, month and day, of the calendar or not. -/
def dateLiteral (f : DateTimeField) : String :=
  pad 4 f.year.toNat ++ "-" ++ pad 2 f.month.toNat ++ "-" ++ pad 2 f.day.toNat

/-- The text `HH:MM:SS` of the time of day. -/
def timeLiteral (f : DateTimeField) : String :=
  pad 2 f.hour.toNat ++ ":" ++ pad 2 f.minute.toNat ++ ":" ++ pad 2 f.second.toNat

/-- The year, month and day are such as fit the text of a date. -/
structure FitsDate (f : DateTimeField) : Prop where
  year : f.year.toNat ≤ 9999
  month : f.month.toNat ≤ 12
  day : f.day.toNat ≤ 31

/-- The hour, minute and second are those of a time of day. -/
structure FitsTime (f : DateTimeField) : Prop where
  hour : f.hour.toNat < 24
  minute : f.minute.toNat < 60
  second : f.second.toNat < 60

/-- The year, month and day are those of a day of the calendar. -/
def IsOfDay (f : DateTimeField) : Prop :=
  IsDay f.year.toNat f.month.toNat f.day.toNat

instance (f : DateTimeField) : Decidable f.IsOfDay := by
  unfold IsOfDay
  infer_instance

theorem IsOfDay.isZeroDate
    (h : f.IsOfDay) :
  f.isZeroDate = false
  := by
  obtain ⟨-, ⟨hmonth, -⟩, -⟩ := h
  have month : f.month ≠ 0 := by
    intro hzero
    rw [hzero] at hmonth
    cases hmonth
  simp [DateTimeField.isZeroDate, month]

/-! ### Zero dates in texts -/

theorem toList_dateLiteral
    (f : DateTimeField) :
  f.dateLiteral.toList = fill 4 (ofNat f.year.toNat) ++ '-' :: (fill 2 (ofNat f.month.toNat) ++
    '-' :: (fill 2 (ofNat f.day.toNat) ++ []))
  := by
  rw [dateLiteral]
  simp [pad]

theorem toList_timeLiteral
    (f : DateTimeField) :
  f.timeLiteral.toList = fill 2 (ofNat f.hour.toNat) ++ ':' :: (fill 2 (ofNat f.minute.toNat) ++
    ':' :: (fill 2 (ofNat f.second.toNat) ++ []))
  := by
  rw [timeLiteral]
  simp [pad]

/-- Numbers of one width in front of other texts are told apart. -/
theorem fill_ofNat_append_inj
    {w n m : Nat} {cs cs' : List Char} (hw : 0 < w) (hn : n < 10 ^ w) (hm : m < 10 ^ w)
    (h : fill w (ofNat n) ++ cs = fill w (ofNat m) ++ cs') :
  n = m ∧ cs = cs'
  := by
  have lengths : (fill w (ofNat n)).length = (fill w (ofNat m)).length := by
    rw [length_fill_ofNat hw hn, length_fill_ofNat hw hm]
  obtain ⟨number, rest⟩ := List.append_inj h lengths
  have value := congrArg Digits.value number
  rw [value_fill_ofNat, value_fill_ofNat] at value
  exact ⟨value, rest⟩

theorem FitsDate.length_dateLiteral
    (h : f.FitsDate) :
  f.dateLiteral.toList.length = 10
  := by
  have month := h.month
  have day := h.day
  rw [toList_dateLiteral]
  simp only [List.length_append, List.length_cons, List.length_nil,
    length_fill_ofNat (by decide : 0 < 4) (by have := h.year; omega : f.year.toNat < 10 ^ 4),
    length_fill_ofNat (by decide : 0 < 2) (by omega : f.month.toNat < 10 ^ 2),
    length_fill_ofNat (by decide : 0 < 2) (by omega : f.day.toNat < 10 ^ 2)]

/-- Only the zero date has the text of the zero date. -/
theorem FitsDate.dateLiteral_eq_zeroDate_iff
    (h : f.FitsDate) :
  f.dateLiteral = zeroDate ↔ f.isZeroDate = true
  := by
  have zero : zeroDate = zero.dateLiteral := by decide
  obtain ⟨hyear, hmonth, hday⟩ := h
  rw [zero, ← String.toList_inj, toList_dateLiteral, toList_dateLiteral, isZeroDate]
  simp only [Bool.and_eq_true, beq_iff_eq, and_assoc, ← UInt16.toNat_inj, ← UInt8.toNat_inj]
  constructor
  · intro heq
    obtain ⟨year, heq⟩ := fill_ofNat_append_inj (by decide) (by omega) (by decide) heq
    obtain ⟨-, heq⟩ := List.cons.inj heq
    obtain ⟨month, heq⟩ := fill_ofNat_append_inj (by decide) (by omega) (by decide) heq
    obtain ⟨-, heq⟩ := List.cons.inj heq
    obtain ⟨day, -⟩ := fill_ofNat_append_inj (by decide) (by omega) (by decide) heq
    exact ⟨year, month, day⟩
  · rintro ⟨year, month, day⟩
    rw [year, month, day]
    rfl

theorem FitsTime.timeLiteral_eq_zero_iff
    (h : f.FitsTime) :
  f.timeLiteral = zero.timeLiteral ↔ f.hour = 0 ∧ f.minute = 0 ∧ f.second = 0
  := by
  obtain ⟨hhour, hminute, hsecond⟩ := h
  rw [← String.toList_inj, toList_timeLiteral, toList_timeLiteral]
  simp only [← UInt8.toNat_inj]
  constructor
  · intro heq
    obtain ⟨hour, heq⟩ := fill_ofNat_append_inj (by decide) (by omega) (by decide) heq
    obtain ⟨-, heq⟩ := List.cons.inj heq
    obtain ⟨minute, heq⟩ := fill_ofNat_append_inj (by decide) (by omega) (by decide) heq
    obtain ⟨-, heq⟩ := List.cons.inj heq
    obtain ⟨second, -⟩ := fill_ofNat_append_inj (by decide) (by omega) (by decide) heq
    exact ⟨hour, minute, second⟩
  · rintro ⟨hour, minute, second⟩
    rw [hour, minute, second]
    rfl

theorem FitsDate.startsWithZeroDate
    (h : f.FitsDate) (rest : String) :
  Column.startsWithZeroDate (f.dateLiteral ++ rest) = f.isZeroDate
  := by
  rw [Bool.eq_iff_iff, ← h.dateLiteral_eq_zeroDate_iff, Column.startsWithZeroDate,
    List.isPrefixOf_iff_prefix, String.toList_append]
  have ten : zeroDate.toList.length = f.dateLiteral.toList.length := by
    rw [h.length_dateLiteral]
    decide
  constructor
  · intro hstart
    have first := List.prefix_of_prefix_length_le hstart (List.prefix_append _ _) ten.le
    exact String.toList_inj.mp (first.eq_of_length ten).symm
  · intro heq
    rw [heq]
    apply List.prefix_append

/-! ### Texts of days and times -/

theorem FitsDate.exists_date?
    (h : f.FitsDate) (hday : f.IsOfDay) :
  ∃ d, f.date? = some d ∧ d.toText = f.dateLiteral
  := by
  refine ⟨⟨_, _, _, hday⟩, dif_pos hday, ?_⟩
  have four : (0 : Int) ≤ f.year.toNat ∧ (f.year.toNat : Int) ≤ 9999 := by
    have := h.year
    omega
  rw [Date.toText, Date.yearText, if_pos four]
  rfl

theorem FitsTime.exists_time?
    (h : f.FitsTime) (hmicros : f.micros = 0) :
  ∃ t, f.time? = some t ∧ t.toText = f.timeLiteral
  := by
  have time : IsTimeOfDay f.hour.toNat f.minute.toNat f.second.toNat 0 :=
    ⟨h.hour, h.minute, h.second, by decide, nofun⟩
  refine ⟨⟨_, _, _, _, time⟩, ?_, ?_⟩
  · rw [time?, hmicros, UInt32.toNat_zero, Nat.zero_mul, TimeOfDay.of?, dif_pos time]
  · rw [TimeOfDay.toText, timeLiteral, Nat.zero_div, Nat.add_zero]

/-- The text of a field whose parts have the given literal: that literal for a day of the calendar,
and the one for zero dates, if they are not refused. -/
def calendarText (f : DateTimeField) (policy : ZeroDatePolicy) (zero literal : String) :
    Except Error String :=
  if f.isZeroDate then f.zeroText zero policy
  else if f.IsOfDay then .ok literal
  else .error (.malformed f.describe Target.text.name)

theorem FitsDate.dateText_eq
    (h : f.FitsDate) {length : Nat} (hlength : length ≠ 0) (policy : ZeroDatePolicy) :
  f.dateText length policy = f.calendarText policy zeroDate f.dateLiteral
  := by
  rw [dateText, calendarText, if_neg hlength]
  by_cases hday : f.IsOfDay
  · obtain ⟨d, hd, htext⟩ := h.exists_date? hday
    rw [hd, if_pos hday, ← htext]
  · have none : f.date? = none := dif_neg hday
    rw [none, if_neg hday]

theorem FitsDate.dateTimeText_eq
    (h : f.FitsDate) (htime : f.FitsTime) (hmicros : f.micros = 0) {length : Nat}
    (hlength : length ≠ 0) (policy : ZeroDatePolicy) :
  f.dateTimeText length 0 policy =
    f.calendarText policy zeroDateTime (f.dateLiteral ++ (" " ++ f.timeLiteral))
  := by
  rw [dateTimeText, calendarText, if_neg hlength]
  by_cases hday : f.IsOfDay
  · obtain ⟨d, hd, hdate⟩ := h.exists_date? hday
    obtain ⟨t, ht, htext⟩ := htime.exists_time? hmicros
    have both : f.dateTime? = some ⟨d, t⟩ := by
      rw [dateTime?, hd, ht]
      rfl
    have fraction : microFraction 0 f.micros.toNat = "" := by
      rw [hmicros]
      rfl
    rw [both, if_pos hday]
    dsimp only
    rw [DateTime.toSecondText, fraction, hdate, htext, String.append_empty, String.append_assoc]
  · have none : f.dateTime? = none := by
      rw [dateTime?, show f.date? = none from dif_neg hday]
      rfl
    rw [none, if_neg hday]

end DateTimeField

namespace Column

variable {c : Column} {f : DateTimeField}

/-- The text of the parts that a field of the column holds. -/
def calendarLiteral (c : Column) (f : DateTimeField) : String :=
  f.dateLiteral ++ if c.type.isDateOnly then "" else " " ++ f.timeLiteral

/-- The field of the column that holds the parts: their text, or their bytes up to the seconds. -/
def calendarField (c : Column) (f : DateTimeField) : Protocol → Bytes
  | .text => Utf8.encode (c.calendarLiteral f)
  | .binary => f.dateBytes ++ if c.type.isDateOnly then [] else [f.hour, f.minute, f.second]

/-- The column shows whole seconds, and the parts fit the texts of its fields. -/
structure Shows (c : Column) (f : DateTimeField) : Prop where
  date : f.FitsDate
  time : c.type.isDateOnly = false → c.decimals = 0 ∧ f.FitsTime

theorem decode_calendarField_text
    (hcalendar : c.type.isCalendar) (h : f.FitsDate) :
  c.decode .text .text (c.calendarField f .text) =
    if c.zeroDates == .reject && f.isZeroDate then
      .error (.malformed (c.calendarLiteral f) Target.text.name)
    else .ok (.text (c.calendarLiteral f))
  := by
  rw [decode_text_text hcalendar, calendarField, Utf8.decode_encode, calendarLiteral,
    h.startsWithZeroDate]

/-- The parts that a field of the column holds in binary form. -/
def heldParts (c : Column) (f : DateTimeField) : DateTimeField :=
  if c.type.isDateOnly then
    { DateTimeField.zero with year := f.year, month := f.month, day := f.day }
  else { f with micros := 0 }

theorem isZeroDate_heldParts
    (c : Column) (f : DateTimeField) :
  (c.heldParts f).isZeroDate = f.isZeroDate
  := by
  rw [heldParts]
  split <;> rfl

theorem isOfDay_heldParts
    (c : Column) (f : DateTimeField) :
  (c.heldParts f).IsOfDay ↔ f.IsOfDay
  := by
  rw [heldParts]
  split <;> exact Iff.rfl

theorem read_calendarField
    (c : Column) (f : DateTimeField) :
  (DateTimeField.read (c.calendarField f .binary).length).run (c.calendarField f .binary) =
    .ok (c.heldParts f)
  := by
  rw [calendarField, heldParts]
  split
  next =>
    rw [List.append_nil]
    exact f.reads_dateBytes.run
  next =>
    have bytes : f.dateBytes ++ [f.hour, f.minute, f.second] =
        { f with micros := 0 }.bytes := by
      rw [DateTimeField.bytes, Value.microBytes]
      simp [DateTimeField.dateBytes]
    rw [bytes]
    exact (DateTimeField.reads_bytes _).run

theorem decode_calendarField_binary
    (hcalendar : c.type.isCalendar) (h : c.Shows f) :
  c.decode .binary .text (c.calendarField f .binary) =
    (c.heldParts f).calendarText c.zeroDates c.zeroLiteral (c.calendarLiteral f) >>= fun s =>
      .ok (.text s)
  := by
  have some : (c.calendarField f .binary).length ≠ 0 := by
    rw [calendarField, List.length_append, DateTimeField.length_dateBytes]
    omega
  obtain ⟨⟨hyear, hmonth, hday⟩, htime⟩ := h
  rw [decode_binary_text hcalendar, read_calendarField]
  change (if _ then _ else _) = _
  rw [heldParts, zeroLiteral, calendarLiteral]
  split
  next hdate =>
    have fits : DateTimeField.FitsDate
        { DateTimeField.zero with year := f.year, month := f.month, day := f.day } :=
      ⟨hyear, hmonth, hday⟩
    rw [fits.dateText_eq some, String.append_empty]
    rfl
  next hdate =>
    obtain ⟨hscale, hhour, hminute, hsecond⟩ := htime (Bool.eq_false_iff.mpr hdate)
    have fits : DateTimeField.FitsDate { f with micros := 0 } := ⟨hyear, hmonth, hday⟩
    have fitsTime : DateTimeField.FitsTime { f with micros := 0 } := ⟨hhour, hminute, hsecond⟩
    have scale : c.decimals.toNat = 0 := by
      rw [hscale]
      rfl
    rw [scale, fits.dateTimeText_eq fitsTime rfl some]
    rfl

/-- A zero date has the text of the zero date if it has no time of day. -/
theorem calendarLiteral_eq_zeroLiteral_iff
    (h : c.Shows f) (hzero : f.isZeroDate = true) :
  c.calendarLiteral f = c.zeroLiteral ↔
    c.type.isDateOnly = true ∨ f.hour = 0 ∧ f.minute = 0 ∧ f.second = 0
  := by
  have date : f.dateLiteral = zeroDate := h.date.dateLiteral_eq_zeroDate_iff.mpr hzero
  rw [calendarLiteral, zeroLiteral, date]
  split
  next hdate => simp [hdate]
  next hdate =>
    have zero : zeroDateTime = zeroDate ++ (" " ++ DateTimeField.zero.timeLiteral) := by decide
    obtain ⟨-, htime⟩ := h.time (Bool.eq_false_iff.mpr hdate)
    rw [zero, String.append_right_inj, String.append_right_inj, htime.timeLiteral_eq_zero_iff]
    simp [hdate]

/-! ### The outcomes in both protocols -/

/-- A day of the calendar has its text. -/
theorem decode_calendarField_of_isOfDay
    (hcalendar : c.type.isCalendar) (h : c.Shows f) (hday : f.IsOfDay) (p : Protocol) :
  c.decode p .text (c.calendarField f p) = .ok (.text (c.calendarLiteral f))
  := by
  have zero := hday.isZeroDate
  cases p with
  | text =>
    rw [decode_calendarField_text hcalendar h.date, zero, Bool.and_false,
      if_neg Bool.false_ne_true]
  | binary =>
    rw [decode_calendarField_binary hcalendar h, DateTimeField.calendarText, isZeroDate_heldParts,
      zero, if_neg Bool.false_ne_true, if_pos ((isOfDay_heldParts c f).mpr hday)]
    rfl

/-- A zero date may be refused; otherwise it has its own text in text form, and that of the zero
date in binary form. -/
theorem decode_calendarField_of_isZeroDate
    (hcalendar : c.type.isCalendar) (h : c.Shows f) (hzero : f.isZeroDate = true) :
  (c.zeroDates = .reject → ∀ p, ∃ e, c.decode p .text (c.calendarField f p) = .error e ∧
    e.kind = .malformedLiteral) ∧
  (c.zeroDates = .literal →
    c.decode .text .text (c.calendarField f .text) = .ok (.text (c.calendarLiteral f)) ∧
    c.decode .binary .text (c.calendarField f .binary) = .ok (.text c.zeroLiteral))
  := by
  rw [decode_calendarField_text hcalendar h.date, decode_calendarField_binary hcalendar h,
    DateTimeField.calendarText, isZeroDate_heldParts, hzero, if_pos rfl]
  constructor
  · intro hpolicy p
    cases p with
    | text =>
      rw [decode_calendarField_text hcalendar h.date, hzero, hpolicy]
      exact ⟨_, rfl, rfl⟩
    | binary =>
      rw [decode_calendarField_binary hcalendar h, DateTimeField.calendarText,
        isZeroDate_heldParts, hzero, if_pos rfl, hpolicy]
      exact ⟨_, rfl, rfl⟩
  · intro hpolicy
    rw [hpolicy]
    exact ⟨rfl, rfl⟩

/-- Other parts have their text in text form, and none in binary form. -/
theorem decode_calendarField_of_other
    (hcalendar : c.type.isCalendar) (h : c.Shows f) (hday : ¬ f.IsOfDay)
    (hzero : f.isZeroDate = false) :
  c.decode .text .text (c.calendarField f .text) = .ok (.text (c.calendarLiteral f)) ∧
  ∃ e, c.decode .binary .text (c.calendarField f .binary) = .error e ∧ e.kind = .malformedLiteral
  := by
  rw [decode_calendarField_text hcalendar h.date, decode_calendarField_binary hcalendar h,
    DateTimeField.calendarText, isZeroDate_heldParts, hzero, Bool.and_false,
    if_neg Bool.false_ne_true, if_neg Bool.false_ne_true,
    if_neg (mt (isOfDay_heldParts c f).mp hday)]
  exact ⟨rfl, _, rfl, rfl⟩

/-- A calendar field has the same text in both protocols, or none, exactly if it holds a day of the
calendar, or a zero date that is refused or has no time of day.  Of the others, the text in text
form is that of the parts; in binary form a zero date has the text of the zero date, and a field
that holds no day is refused. -/
theorem sameOutcome_calendarField
    (hcalendar : c.type.isCalendar) (h : c.Shows f) :
  let text := c.decode .text .text (c.calendarField f .text)
  let binary := c.decode .binary .text (c.calendarField f .binary)
  (SameOutcome text binary ↔ f.IsOfDay ∨ f.isZeroDate = true ∧
    (c.zeroDates = .reject ∨ c.type.isDateOnly = true ∨
      f.hour = 0 ∧ f.minute = 0 ∧ f.second = 0)) ∧
  (¬ SameOutcome text binary → text = .ok (.text (c.calendarLiteral f)) ∧
    if f.isZeroDate then binary = .ok (.text c.zeroLiteral)
    else ∃ e, binary = .error e ∧ e.kind = .malformedLiteral)
  := by
  intro text binary
  by_cases hday : f.IsOfDay
  · have same : SameOutcome text binary := by
      have outcome := decode_calendarField_of_isOfDay hcalendar h hday
      rw [show text = _ from outcome .text, show binary = _ from outcome .binary]
      exact .ok _
    simp [same, hday]
  cases hzero : f.isZeroDate with
  | true =>
    obtain ⟨reject, literal⟩ := decode_calendarField_of_isZeroDate hcalendar h hzero
    cases hpolicy : c.zeroDates with
    | reject =>
      obtain ⟨e, htext, he⟩ := reject hpolicy .text
      obtain ⟨e', hbinary, he'⟩ := reject hpolicy .binary
      have same : SameOutcome text binary := by
        rw [show text = _ from htext, show binary = _ from hbinary]
        exact .error (he.trans he'.symm)
      simp [same]
    | literal =>
      obtain ⟨htext, hbinary⟩ := literal hpolicy
      have same : SameOutcome text binary ↔ c.calendarLiteral f = c.zeroLiteral := by
        rw [show text = _ from htext, show binary = _ from hbinary, sameOutcome_ok_iff,
          Value.text.injEq]
      rw [same, calendarLiteral_eq_zeroLiteral_iff h hzero]
      exact ⟨by simp [hday], fun _ => ⟨htext, hbinary⟩⟩
  | false =>
    obtain ⟨htext, e, hbinary, he⟩ := decode_calendarField_of_other hcalendar h hday hzero
    have differ : ¬ SameOutcome text binary := by
      rw [show text = _ from htext, show binary = _ from hbinary]
      nofun
    refine ⟨by simp [differ, hday], fun _ => ⟨htext, ?_⟩⟩
    exact ⟨e, hbinary, he⟩

/-- A leap day, and the 30th of February. -/
theorem sameOutcome_calendarField_february :
  let c := ofNameAndType "c" .dateTime
  let leap : DateTimeField := ⟨2024, 2, 29, 10, 20, 30, 0⟩
  let other : DateTimeField := ⟨2024, 2, 30, 10, 20, 30, 0⟩
  SameOutcome (c.decode .text .text (c.calendarField leap .text))
      (c.decode .binary .text (c.calendarField leap .binary)) ∧
    c.decode .text .text (c.calendarField other .text) = .ok (.text "2024-02-30 10:20:30") ∧
    ∃ e, c.decode .binary .text (c.calendarField other .binary) = .error e ∧
      e.kind = .malformedLiteral
  := by
  intro c leap other
  have shows {f : DateTimeField} (hdate : f.FitsDate) (htime : f.FitsTime) : c.Shows f :=
    ⟨hdate, fun _ => ⟨rfl, htime⟩⟩
  have leapShown : c.Shows leap := shows ⟨by decide, by decide, by decide⟩
    ⟨by decide, by decide, by decide⟩
  have otherShown : c.Shows other := shows ⟨by decide, by decide, by decide⟩
    ⟨by decide, by decide, by decide⟩
  obtain ⟨same, -⟩ := sameOutcome_calendarField (c := c) rfl leapShown
  obtain ⟨same', outcomes⟩ := sameOutcome_calendarField (c := c) rfl otherShown
  have differ := mt same'.mp (by decide)
  obtain ⟨htext, hbinary⟩ := outcomes differ
  have literal : c.calendarLiteral other = "2024-02-30 10:20:30" := by decide
  rw [literal] at htext
  exact ⟨same.mpr (.inl (by decide)), htext, hbinary⟩

/-- A year alone, and a time of day on the zero date. -/
theorem not_sameOutcome_calendarField :
  let c := ofNameAndType "c" .date
  let year : DateTimeField := ⟨2024, 0, 0, 0, 0, 0, 0⟩
  let c' := ofNameAndType "c" .dateTime
  let time : DateTimeField := ⟨0, 0, 0, 10, 11, 12, 0⟩
  (c.calendarField year .text = Utf8.encode "2024-00-00" ∧
    c.calendarField year .binary = [0xE8, 7, 0, 0] ∧
    ¬ SameOutcome (c.decode .text .text (c.calendarField year .text))
      (c.decode .binary .text (c.calendarField year .binary))) ∧
  c'.calendarField time .text = Utf8.encode "0000-00-00 10:11:12" ∧
    c'.calendarField time .binary = [0, 0, 0, 0, 10, 11, 12] ∧
    ¬ SameOutcome (c'.decode .text .text (c'.calendarField time .text))
      (c'.decode .binary .text (c'.calendarField time .binary))
  := by
  intro c year c' time
  constructor
  · have shown : c.Shows year := ⟨⟨by decide, by decide, by decide⟩, nofun⟩
    obtain ⟨htext, e, hbinary, -⟩ :=
      decode_calendarField_of_other (c := c) rfl shown (by decide) (by decide)
    have literal : c.calendarLiteral year = "2024-00-00" := by decide
    rw [htext, hbinary, calendarField, literal]
    exact ⟨rfl, by decide, nofun⟩
  · have shown : c'.Shows time := ⟨⟨by decide, by decide, by decide⟩, fun _ =>
      ⟨rfl, by decide, by decide, by decide⟩⟩
    obtain ⟨htext, hbinary⟩ :=
      (decode_calendarField_of_isZeroDate (c := c') rfl shown (by decide)).2 rfl
    have literal : c'.calendarLiteral time = "0000-00-00 10:11:12" := by decide
    rw [htext, hbinary, calendarField, literal, sameOutcome_ok_iff, Value.text.injEq]
    exact ⟨rfl, by decide, by decide⟩

end Column

end SqlWire
