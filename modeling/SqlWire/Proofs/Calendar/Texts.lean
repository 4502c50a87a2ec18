import SqlWire.Calendar.Reading
import SqlWire.Proofs.Calendar.Fields
import SqlWire.Proofs.Calendar.TimeLiteral

/-!
# Temporal texts are read back

The parts of a text that hold numbers of a fixed width are read as those numbers, whatever follows
them, so that the text of a date, a time of day, or a duration is read back: `Temporal.date_toText`,
`Temporal.timeOfDay_toText`, `Temporal.readDuration_toText`.  Dates are those whose years have four
digits, and durations are kept to the microsecond.
-/

namespace SqlWire

open Digits

/-! ### Characters and bytes -/

theorem not_isBlank_of_isDigit
    {c : Char} (h : isDigit c) :
  Blank.isBlank c = false
  := by
  obtain ⟨hlow, hhigh⟩ := toNat_of_isDigit h
  simp only [Blank.isBlank, Bool.or_eq_false_iff, Bool.and_eq_false_iff, decide_eq_false_iff_not,
    beq_eq_false_iff_ne]
  omega

theorem utf8Size_of_isDigit
    {c : Char} (h : isDigit c) :
  c.utf8Size = 1
  := by
  obtain ⟨-, hhigh⟩ := toNat_of_isDigit h
  rw [Char.utf8Size_eq_one_iff, UInt32.le_iff_toNat_le]
  exact Nat.le_trans hhigh (by decide)

/-- A text has as many bytes as characters where these have one byte each. -/
theorem utf8ByteSize_eq_length
    {s : String} (h : ∀ c ∈ s.toList, c.utf8Size = 1) :
  s.utf8ByteSize = s.toList.length
  := by
  have chars (cs : List Char) (hcs : ∀ c ∈ cs, c.utf8Size = 1) :
      (String.ofList cs).utf8ByteSize = cs.length := by
    induction cs with
    | nil => rfl
    | cons c cs ih =>
      have hc : c.utf8Size = 1 := hcs c List.mem_cons_self
      rw [String.ofList_cons, String.utf8ByteSize_append, String.utf8ByteSize_singleton, hc,
        ih fun c hc => hcs c (List.mem_cons_of_mem _ hc), List.length_cons, Nat.add_comm]
  have whole := chars s.toList h
  rw [String.ofList_toList] at whole
  exact whole

namespace Temporal

/-- The first bytes of a text are its first characters where these have one byte each. -/
theorem firstBytes?_append
    {cs : List Char} (h : ∀ c ∈ cs, c.utf8Size = 1) (rest : List Char) :
  firstBytes? cs.length (cs ++ rest) = some cs
  := by
  induction cs with
  | nil => cases rest <;> rfl
  | cons c cs ih =>
    have hc : c.utf8Size = 1 := h c List.mem_cons_self
    rw [List.length_cons, List.cons_append, firstBytes?, hc, if_pos (by omega), Nat.add_sub_cancel,
      ih fun c hc => h c (List.mem_cons_of_mem _ hc)]
    rfl

/-! ### Numbers -/

theorem trimStart_fill
    (w n : Nat) (rest : List Char) :
  Blank.trimStart (fill w (ofNat n) ++ rest) = fill w (ofNat n) ++ rest
  := by
  obtain ⟨c, cs, hcons, hc⟩ := exists_fill_ofNat_eq_cons w n
  rw [hcons, List.cons_append, Blank.trimStart,
    List.dropWhile_cons_of_neg (by simp [not_isBlank_of_isDigit hc])]

theorem digits_fill
    {w n : Nat} (hw : 0 < w) (hn : n < 10 ^ w) (rest : List Char) :
  digits w (fill w (ofNat n) ++ rest) = some (n, rest)
  := by
  have length := length_fill_ofNat hw hn
  have all : (fill w (ofNat n)).takeWhile isDigit = fill w (ofNat n) := by
    rw [← List.append_nil (fill w (ofNat n)),
      List.takeWhile_append_of_pos fun _ => isDigit_of_mem_fill_ofNat]
    rfl
  obtain ⟨c, cs, hcons, -⟩ := exists_fill_ofNat_eq_cons w n
  have some : (fill w (ofNat n)).isEmpty = false := by
    rw [hcons]
    rfl
  simp only [digits, List.take_left' length, all, some, value_fill_ofNat, List.drop_left]
  rfl

theorem twoDigits_fill
    {least greatest n : Nat} (h : least ≤ n ∧ n ≤ greatest) (hn : n < 100) (rest : List Char) :
  twoDigits least greatest (fill 2 (ofNat n) ++ rest) = some (n, rest)
  := by
  rw [twoDigits, trimStart_fill, digits_fill (by decide) hn]
  exact if_pos h

theorem year_fill
    {n : Nat} (hn : n < 10000) (rest : List Char) :
  year (fill 4 (ofNat n) ++ rest) = some ((n : Int), rest)
  := by
  have read : digits 4 (fill 4 (ofNat n) ++ rest) = some (n, rest) :=
    digits_fill (by decide) hn rest
  obtain ⟨c, cs, hcons, hc⟩ := exists_fill_ofNat_eq_cons 4 n
  rw [year, trimStart_fill]
  rw [hcons, List.cons_append] at read ⊢
  split
  next heq =>
    obtain ⟨rfl, -⟩ := List.cons.inj heq
    cases hc
  next heq =>
    obtain ⟨rfl, -⟩ := List.cons.inj heq
    cases hc
  next =>
    rw [read]
    rfl

theorem char_append
    (c : Char) (rest : List Char) :
  char c (c :: rest) = some ((), rest)
  :=
  if_pos rfl

/-! ### Dates -/

theorem toList_toText_date
    {d : Date} (hyear : 0 ≤ d.year ∧ d.year ≤ 9999) :
  d.toText.toList = fill 4 (ofNat d.year.natAbs) ++ '-' :: (fill 2 (ofNat d.month) ++
    '-' :: fill 2 (ofNat d.day))
  := by
  rw [Date.toText, Date.yearText, if_pos hyear]
  simp [pad]

/-- The text of a date whose year has four digits is read as the date, whatever follows. -/
theorem date_toText
    {d : Date} (hyear : 0 ≤ d.year ∧ d.year ≤ 9999) (rest : List Char) :
  date (d.toText.toList ++ rest) = some (d, rest)
  := by
  obtain ⟨-, hmonth, hday⟩ := d.isDay
  have days := daysInMonth_le d.year d.month
  have same : Date.of? (d.year.natAbs : Int) d.month d.day = some d := by
    rw [Int.natAbs_of_nonneg hyear.1]
    exact dif_pos d.isDay
  have year := year_fill (n := d.year.natAbs) (by omega)
  have month := twoDigits_fill (n := d.month) hmonth (by omega)
  have day (rest : List Char) :
      twoDigits 1 31 (fill 2 (ofNat d.day) ++ rest) = some (d.day, rest) :=
    twoDigits_fill (by omega) (by omega) rest
  rw [toList_toText_date hyear]
  simp only [date, List.append_assoc, List.cons_append, Option.bind_eq_bind, year, char_append,
    month, day, same, Option.bind_some]
  rfl

theorem length_toText_date
    {d : Date} (hyear : 0 ≤ d.year ∧ d.year ≤ 9999) :
  d.toText.toList.length = 10
  := by
  obtain ⟨-, hmonth, hday⟩ := d.isDay
  have days := daysInMonth_le d.year d.month
  have year := length_fill_ofNat (w := 4) (n := d.year.natAbs) (by decide) (by omega)
  have month := length_fill_ofNat (w := 2) (n := d.month) (by decide) (by omega)
  have day := length_fill_ofNat (w := 2) (n := d.day) (by decide) (by omega)
  rw [toList_toText_date hyear]
  simp only [List.length_append, List.length_cons, year, month, day]

theorem utf8Size_of_mem_toText_date
    {d : Date} (hyear : 0 ≤ d.year ∧ d.year ≤ 9999) :
  ∀ c ∈ d.toText.toList, c.utf8Size = 1
  := by
  intro c hc
  rw [toList_toText_date hyear] at hc
  simp only [List.mem_append, List.mem_cons] at hc
  rcases hc with hc | rfl | hc | rfl | hc
  · apply utf8Size_of_isDigit (isDigit_of_mem_fill_ofNat hc)
  · rfl
  · apply utf8Size_of_isDigit (isDigit_of_mem_fill_ofNat hc)
  · rfl
  · apply utf8Size_of_isDigit (isDigit_of_mem_fill_ofNat hc)

/-- The date at the start of a text that starts with one. -/
theorem readDate_append
    {d : Date} {s : String} {rest : List Char} (hyear : 0 ≤ d.year ∧ d.year ≤ 9999)
    (hs : s.toList = d.toText.toList ++ rest) (target : String) :
  readDate s target = .ok d
  := by
  have first : firstBytes? 10 s.toList = some d.toText.toList := by
    rw [hs, ← length_toText_date hyear]
    apply firstBytes?_append (utf8Size_of_mem_toText_date hyear)
  have whole : Temporal.whole date d.toText.toList = some d := by
    have read := date_toText hyear []
    rw [List.append_nil] at read
    rw [Temporal.whole, read]
  rw [readDate, first, Option.getD_some, whole]

theorem readDate_toText
    {d : Date} (hyear : 0 ≤ d.year ∧ d.year ≤ 9999) (target : String) :
  readDate d.toText target = .ok d
  :=
  readDate_append hyear (List.append_nil _).symm target

/-! ### Times of day -/

theorem fraction_digits
    {ds : List Char} (hds : ∀ c ∈ ds, isDigit c) (hsome : ds ≠ []) (hlength : ds.length ≤ 9) :
  fraction ('.' :: ds) = some (value ds * 10 ^ (9 - ds.length), [])
  := by
  have all : (ds.take 9).takeWhile isDigit = ds := by
    rw [List.take_of_length_le hlength, ← List.append_nil ds, List.takeWhile_append_of_pos hds]
    rfl
  have some : ds.isEmpty = false := List.isEmpty_eq_false_iff.mpr hsome
  rw [fraction]
  simp only [all, some, List.drop_length]
  rfl

theorem toList_toText_timeOfDay
    (t : TimeOfDay) :
  t.toText.toList = fill 2 (ofNat t.hour) ++ ':' :: (fill 2 (ofNat t.minute) ++
    ':' :: fill 2 (ofNat (t.second + t.nanosecond / 1000000000)))
  := by
  rw [TimeOfDay.toText]
  simp [pad]

/-- The text of a time of day is read as its second, which may be a leap second, with the fraction
that follows it. -/
theorem timeOfDay_toText
    (t : TimeOfDay) {n : Nat} {rest rest' : List Char} (hrest : fraction rest = some (n, rest')) :
  timeOfDay (t.toText.toList ++ rest) =
    (TimeOfDay.of? t.hour t.minute t.second (t.nanosecond / 1000000000 * 1000000000 + n)).map
      (·, rest')
  := by
  obtain ⟨hhour, hminute, hsecond, hnanosecond, hleap⟩ := t.isTimeOfDay
  have hour (rest : List Char) :
      twoDigits 0 23 (fill 2 (ofNat t.hour) ++ rest) = some (t.hour, rest) :=
    twoDigits_fill (by omega) (by omega) rest
  have minute (rest : List Char) :
      twoDigits 0 59 (fill 2 (ofNat t.minute) ++ rest) = some (t.minute, rest) :=
    twoDigits_fill (by omega) (by omega) rest
  have second (rest : List Char) :
      twoDigits 0 60 (fill 2 (ofNat (t.second + t.nanosecond / 1000000000)) ++ rest) =
        some (t.second + t.nanosecond / 1000000000, rest) :=
    twoDigits_fill (by omega) (by omega) rest
  rw [toList_toText_timeOfDay]
  simp only [timeOfDay, List.append_assoc, List.cons_append, Option.bind_eq_bind, hour, char_append,
    minute, second, hrest, Option.bind_some]
  -- a leap second is shown as second 60 and read as one beyond the end of second 59
  rcases Nat.lt_or_ge t.nanosecond 1000000000 with hordinary | hleapSecond
  · have none : t.nanosecond / 1000000000 = 0 := Nat.div_eq_of_lt hordinary
    rw [none, Nat.add_zero, Nat.zero_mul, Nat.zero_add, if_neg (by omega), Option.map_eq_bind]
    rfl
  · have one : t.nanosecond / 1000000000 = 1 := by omega
    rw [one, hleap hleapSecond, if_pos rfl, Nat.one_mul, Nat.add_comm n, Option.map_eq_bind]
    rfl

/-! ### Times on a day -/

/-- A date and a time of day are read one after the other, with a blank between them. -/
theorem dateTime_toSecondText
    {t : DateTime} {time : TimeOfDay} {rest : List Char}
    (hyear : 0 ≤ t.date.year ∧ t.date.year ≤ 9999)
    (htime : timeOfDay (t.time.toText.toList ++ rest) = some (time, [])) :
  dateTime (t.toSecondText.toList ++ rest) = some (⟨t.date, time⟩, [])
  := by
  have blank : Blank.trimStart (' ' :: (t.time.toText.toList ++ rest)) =
      t.time.toText.toList ++ rest := by
    rw [toList_toText_timeOfDay, List.append_assoc]
    apply trimStart_fill
  have text : t.toSecondText.toList = t.date.toText.toList ++ ' ' :: t.time.toText.toList := by
    rw [DateTime.toSecondText]
    simp
  rw [text, List.append_assoc, List.cons_append, dateTime]
  simp only [Option.bind_eq_bind, date_toText hyear, Option.bind_some, blank, htime]
  rfl

/-- The literal of a time on a day is read as that time, to the microsecond. -/
theorem dateTime_dateTimeText
    {t : DateTime} (hyear : 0 ≤ t.date.year ∧ t.date.year ≤ 9999) :
  dateTime (Value.dateTimeText t).toList = some (⟨t.date, t.time.wholeMicros⟩, [])
  := by
  have same : TimeOfDay.of? t.time.hour t.time.minute t.time.second
      (t.time.nanosecond / 1000 * 1000) = some t.time.wholeMicros :=
    dif_pos t.time.wholeMicros.isTimeOfDay
  rw [Value.dateTimeText]
  split
  next hmicros =>
    have sixDigits := length_fill_ofNat (w := 6) (n := t.time.subsecond / 1000) (by decide)
      (by rw [TimeOfDay.subsecond]; omega)
    have shown : t.time.microText.toList = '.' :: fill 6 (ofNat (t.time.subsecond / 1000)) := by
      rw [TimeOfDay.microText]
      simp [pad]
    have read : fraction t.time.microText.toList = some (t.time.subsecond / 1000 * 1000, []) := by
      rw [shown, fraction_digits (fun _ => isDigit_of_mem_fill_ofNat)
        (List.ne_nil_of_length_pos (by omega)) (by omega), value_fill_ofNat, sixDigits]
    rw [String.toList_append]
    apply dateTime_toSecondText hyear
    have whole : t.time.nanosecond / 1000000000 * 1000000000 + t.time.subsecond / 1000 * 1000 =
        t.time.nanosecond / 1000 * 1000 := by
      rw [TimeOfDay.subsecond]
      omega
    rw [timeOfDay_toText t.time read, whole, same]
    rfl
  next hmicros =>
    have none : t.time.nanosecond / 1000000000 * 1000000000 + 0 =
        t.time.nanosecond / 1000 * 1000 := by omega
    rw [← List.append_nil t.toSecondText.toList]
    apply dateTime_toSecondText hyear
    rw [timeOfDay_toText t.time (n := 0) rfl, none, same]
    rfl

/-- A date and a time of day are more than a date. -/
theorem lt_utf8ByteSize_toSecondText
    {t : DateTime} (hyear : 0 ≤ t.date.year ∧ t.date.year ≤ 9999) :
  10 < t.toSecondText.utf8ByteSize
  := by
  have date : t.date.toText.utf8ByteSize = 10 := by
    rw [utf8ByteSize_eq_length (utf8Size_of_mem_toText_date hyear), length_toText_date hyear]
  have blank : (" " : String).utf8ByteSize = 1 := rfl
  rw [DateTime.toSecondText, String.utf8ByteSize_append, String.utf8ByteSize_append]
  omega

theorem readDateTime_dateTimeText
    {t : DateTime} (hyear : 0 ≤ t.date.year ∧ t.date.year ≤ 9999) (target : String) :
  readDateTime (Value.dateTimeText t) target = .ok ⟨t.date, t.time.wholeMicros⟩
  := by
  have seconds := lt_utf8ByteSize_toSecondText hyear
  have long : (Value.dateTimeText t).utf8ByteSize ≠ 10 := by
    rw [Value.dateTimeText]
    split
    · rw [String.utf8ByteSize_append]
      omega
    · omega
  rw [readDateTime, if_neg long, whole, dateTime_dateTimeText hyear]

/-! ### Durations -/

/-- The text of hours, minutes and seconds, in at least two digits each. -/
def clockText (h m s : Nat) : List Char :=
  fill 2 (ofNat h) ++ ':' :: (fill 2 (ofNat m) ++ ':' :: fill 2 (ofNat s))

theorem ne_point_of_mem_clockText
    {h m s : Nat} {c : Char} (hc : c ∈ clockText h m s) :
  (c != '.') = true
  := by
  rw [bne_iff_ne]
  simp only [clockText, List.mem_append, List.mem_cons] at hc
  rcases hc with hc | rfl | hc | rfl | hc
  · apply ne_of_isDigit (isDigit_of_mem_fill_ofNat hc) rfl
  · decide
  · apply ne_of_isDigit (isDigit_of_mem_fill_ofNat hc) rfl
  · decide
  · apply ne_of_isDigit (isDigit_of_mem_fill_ofNat hc) rfl

/-- A clock with a fraction, if there is one, is read as its seconds and microseconds, which are
negative behind a minus sign. -/
theorem readDuration_clockText
    {text : String} {negative : Bool} {h m s micros : Nat} {fraction : Option (List Char)}
    {d : Duration} (hm : m ≤ 59) (hs : s ≤ 59) (hnumber : ∀ ds ∈ fraction, isNumber ds)
    (hlength : ∀ ds ∈ fraction, ds.length ≤ 9)
    (hmicros : (fraction.map fun ds => value ds * 10 ^ 6 / 10 ^ ds.length).getD 0 = micros)
    (htext : text.toList = (if negative then ['-'] else []) ++
      (clockText h m s ++ (fraction.map ('.' :: ·)).getD []))
    (hd : d.nanoseconds =
      if negative then -((((3600 * h + 60 * m + s) * 1000000 + micros) * 1000 : Nat) : Int)
      else (((3600 * h + 60 * m + s) * 1000000 + micros) * 1000 : Nat))
    (target : String) :
  readDuration text target = .ok d
  := by
  let l : TimeLiteral :=
    { negative, hours := fill 2 (ofNat h), minutes := fill 2 (ofNat m),
      seconds := fill 2 (ofNat s), fraction, isNumber_hours := isNumber_fill_ofNat 2 h,
      isNumber_minutes := isNumber_fill_ofNat 2 m, isNumber_seconds := isNumber_fill_ofNat 2 s,
      minutes_le := by rw [value_fill_ofNat]; exact hm,
      seconds_le := by rw [value_fill_ofNat]; exact hs,
      isNumber_fraction := hnumber, length_fraction_le := hlength }
  have literal : text = l.toText := String.toList_inj.mp (htext.trans l.toList_toText.symm)
  have number : l.magnitude = ((3600 * h + 60 * m + s) * 1000000 + micros) * 1000 := by
    rw [TimeLiteral.magnitude, TimeLiteral.wholeSeconds, TimeLiteral.micros, value_fill_ofNat,
      value_fill_ofNat, value_fill_ofNat, hmicros]
  rw [literal]
  apply readDuration_literal_of_nanoseconds
  rw [TimeLiteral.nanoseconds, number, hd]

theorem toList_toText_duration
    (d : Duration) :
  d.toText.toList = (if d.isNegative then ['-'] else []) ++
    (clockText (d.seconds / 3600) (d.seconds % 3600 / 60) (d.seconds % 60) ++
      ((if 0 < d.micros then some (fill 6 (ofNat d.micros)) else none).map ('.' :: ·)).getD [])
  := by
  rw [Duration.toText, clockText]
  cases d.isNegative <;> by_cases hmicros : 0 < d.micros <;> simp [pad, hmicros]

/-- The text of a duration is read as the duration, to the microsecond. -/
theorem readDuration_toText
    (d : Duration) (target : String) :
  readDuration d.toText target = .ok d.wholeMicros
  := by
  have micros := d.micros_lt
  have six := length_fill_ofNat (w := 6) (n := d.micros) (by decide) micros
  have shown : ((if 0 < d.micros then some (fill 6 (ofNat d.micros)) else none).map fun ds =>
      value ds * 10 ^ 6 / 10 ^ ds.length).getD 0 = d.micros := by
    split
    next =>
      rw [Option.map_some, Option.getD_some, value_fill_ofNat, six, Nat.mul_div_cancel _ (by decide)]
    next hnone =>
      rw [Option.map_none, Option.getD_none]
      omega
  apply readDuration_clockText _ _ _ _ shown (toList_toText_duration d)
  · have parts : (3600 * (d.seconds / 3600) + 60 * (d.seconds % 3600 / 60) + d.seconds % 60) *
        1000000 + d.micros = d.nanoseconds.natAbs / 1000 := by
      rw [Duration.seconds, Duration.micros]
      omega
    rw [parts]
    apply d.nanoseconds_wholeMicros
  · omega
  · omega
  · intro ds hds
    split at hds
    next =>
      cases hds
      apply isNumber_fill_ofNat
    next => cases hds
  · intro ds hds
    split at hds
    next =>
      cases hds
      omega
    next => cases hds

end Temporal

end SqlWire
