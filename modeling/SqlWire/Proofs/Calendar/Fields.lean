import Mathlib.Tactic.Use
import SqlWire.Calendar.DateTimeField
import SqlWire.Parameter
import SqlWire.Proofs.Layout

/-!
# Calendar fields are read back

The parts of a duration, `Duration.toField`, and of a time on a day, `DateTime.toField`, and the
bytes of such parts, which parameters are written with and which the readers of fields read as the
same parts.  They denote what they were taken from, in whole microseconds: `Duration.wholeMicros`
and `TimeOfDay.wholeMicros`.
-/

namespace SqlWire

open Reader

theorem Value.length_microBytes_le
    (micros : Nat) :
  (microBytes micros).length ≤ 4
  := by
  rw [microBytes]
  split <;> simp

/-! ### Durations -/

namespace TimeField

/-- The bytes of the parts, the microseconds being left out when they are zero. -/
def bytes (f : TimeField) : Bytes :=
  (if f.negative then 1 else 0) :: Bytes.ofNatLE 4 f.days.toNat
    ++ [f.hours, f.minutes, f.seconds] ++ Value.microBytes f.micros.toNat

theorem length_bytes
    (f : TimeField) :
  f.bytes.length < 0xFB
  := by
  have hmicros := Value.length_microBytes_le f.micros.toNat
  simp only [bytes, List.length_append, List.length_cons, List.length_nil, Bytes.length_ofNatLE]
  omega

theorem reads_bytes
    (f : TimeField) :
  (read f.bytes.length).Reads f.bytes f
  := by
  obtain ⟨negative, days, hours, minutes, seconds, micros⟩ := f
  have hsign : ((if negative then 1 else 0 : UInt8) == 1) = negative := by
    cases negative <;> rfl
  have hdays := reads_uint_of_lt (w := 4) days.toNat_lt
  have hmicros := reads_uint_of_lt (w := 4) micros.toNat_lt
  by_cases hzero : micros.toNat = 0
  · obtain rfl : micros = 0 := UInt32.toNat_inj.mp hzero
    rw [bytes, Value.microBytes, if_pos hzero, List.append_nil]
    refine (reads_byte _).bind (hdays.bind ((reads_byte hours).bind
      ((reads_byte minutes).bind ((reads_byte seconds).bind_nil ?_))))
    rw [hsign, UInt32.ofNat_toNat]
    apply reads_pure _
  · rw [bytes, Value.microBytes, if_neg hzero]
    refine (reads_byte _).bind (hdays.bind ((reads_byte hours).bind
      ((reads_byte minutes).bind ((reads_byte seconds).bind (hmicros.bind_nil ?_)))))
    rw [hsign, UInt32.ofNat_toNat, UInt32.ofNat_toNat]
    apply reads_pure _

end TimeField

namespace Duration

/-- The duration without what it has beyond whole microseconds. -/
def wholeMicros (d : Duration) : Duration where
  nanoseconds := d.nanoseconds.tdiv 1000 * 1000
  natAbs_le := by
    have h := d.natAbs_le
    rw [Int.natAbs_mul, Int.natAbs_tdiv]
    apply Nat.le_trans (Nat.div_mul_le_self _ 1000) h

/-- The parts of a duration. -/
def toField (d : Duration) : TimeField where
  negative := d.isNegative
  days := UInt32.ofNat (d.seconds / 86400)
  hours := UInt8.ofNat (d.seconds % 86400 / 3600)
  minutes := UInt8.ofNat (d.seconds % 3600 / 60)
  seconds := UInt8.ofNat (d.seconds % 60)
  micros := UInt32.ofNat d.micros

theorem toNat_days_toField
    {d : Duration} (hdays : d.seconds / 86400 < 2 ^ 32) :
  d.toField.days.toNat = d.seconds / 86400
  :=
  UInt32.toNat_ofNat_of_lt' hdays

theorem micros_lt
    (d : Duration) :
  d.micros < 1000000
  := by
  rw [micros]
  omega

theorem toNat_micros_toField
    (d : Duration) :
  d.toField.micros.toNat = d.micros
  := by
  apply UInt32.toNat_ofNat_of_lt' (Nat.lt_trans d.micros_lt (by decide))

/-- The magnitude of the parts is that of the duration, in whole microseconds. -/
theorem magnitude_toField
    {d : Duration} (hdays : d.seconds / 86400 < 2 ^ 32) :
  d.toField.magnitude = d.nanoseconds.natAbs / 1000
  := by
  have hours : d.toField.hours.toNat = d.seconds % 86400 / 3600 :=
    UInt8.toNat_ofNat_of_lt' (Nat.lt_trans (by omega) (by decide : 24 < UInt8.size))
  have minutes : d.toField.minutes.toNat = d.seconds % 3600 / 60 :=
    UInt8.toNat_ofNat_of_lt' (Nat.lt_trans (by omega) (by decide : 60 < UInt8.size))
  have seconds : d.toField.seconds.toNat = d.seconds % 60 :=
    UInt8.toNat_ofNat_of_lt' (Nat.lt_trans (by omega) (by decide : 60 < UInt8.size))
  rw [TimeField.magnitude, TimeField.totalHours, toNat_days_toField hdays, hours, minutes, seconds,
    toNat_micros_toField, Duration.seconds, Duration.micros]
  omega

theorem eq_of_nanoseconds_eq
    {d e : Duration} (h : d.nanoseconds = e.nanoseconds) :
  d = e
  := by
  cases d
  cases e
  cases h
  rfl

/-- The whole microseconds of a duration have its sign. -/
theorem nanoseconds_wholeMicros
    (d : Duration) :
  d.wholeMicros.nanoseconds =
    if d.isNegative then -((d.nanoseconds.natAbs / 1000 * 1000 : Nat) : Int)
    else (d.nanoseconds.natAbs / 1000 * 1000 : Nat)
  := by
  obtain ⟨n, hn⟩ := d
  simp only [wholeMicros, isNegative, decide_eq_true_eq]
  split
  next hnegative =>
    have opposite : n.tdiv 1000 = -((n.natAbs : Int) / 1000) := by
      rw [← Int.natCast_tdiv_eq_ediv, ← Int.neg_tdiv]
      congr 1
      omega
    rw [opposite]
    omega
  next hnonnegative =>
    rw [Int.tdiv_eq_ediv_of_nonneg (by omega)]
    omega

/-- The parts of a duration denote it, in whole microseconds. -/
theorem toDuration_toField
    {d : Duration} (hdays : d.seconds / 86400 < 2 ^ 32) :
  d.toField.toDuration = d.wholeMicros
  := by
  apply eq_of_nanoseconds_eq
  simp only [nanoseconds_wholeMicros, TimeField.toDuration, magnitude_toField hdays]
  rfl

end Duration

theorem Value.timeBytes_eq_ok
    {d : Duration} (hdays : d.seconds / 86400 < 2 ^ 32) :
  timeBytes d = .ok (counted d.toField.bytes)
  := by
  rw [timeBytes, TimeField.bytes, d.toNat_days_toField hdays, d.toNat_micros_toField]
  apply if_pos hdays

/-! ### Dates, and times on a day -/

namespace DateTimeField

/-- The bytes of the year, month and day. -/
def dateBytes (f : DateTimeField) : Bytes :=
  Bytes.ofNatLE 2 f.year.toNat ++ [f.month, f.day]

/-- The bytes of the parts, the microseconds being left out when they are zero. -/
def bytes (f : DateTimeField) : Bytes :=
  f.dateBytes ++ [f.hour, f.minute, f.second] ++ Value.microBytes f.micros.toNat

theorem length_dateBytes
    (f : DateTimeField) :
  f.dateBytes.length = 4
  := by
  simp [dateBytes]

theorem length_bytes
    (f : DateTimeField) :
  f.bytes.length < 0xFB
  := by
  have hmicros := Value.length_microBytes_le f.micros.toNat
  simp only [bytes, length_dateBytes, List.length_append, List.length_cons, List.length_nil]
  omega

/-- A field with a date alone has no time of day. -/
theorem reads_dateBytes
    (f : DateTimeField) :
  (read f.dateBytes.length).Reads f.dateBytes
    { zero with year := f.year, month := f.month, day := f.day }
  := by
  have hyear := reads_uint_of_lt (w := 2) f.year.toNat_lt
  rw [length_dateBytes]
  refine hyear.bind ((reads_byte f.month).bind ((reads_byte f.day).bind_nil ?_))
  rw [UInt16.ofNat_toNat]
  apply reads_pure _

theorem reads_bytes
    (f : DateTimeField) :
  (read f.bytes.length).Reads f.bytes f
  := by
  obtain ⟨year, month, day, hour, minute, second, micros⟩ := f
  have hyear := reads_uint_of_lt (w := 2) year.toNat_lt
  have hmicros := reads_uint_of_lt (w := 4) micros.toNat_lt
  by_cases hzero : micros.toNat = 0
  · obtain rfl : micros = 0 := UInt32.toNat_inj.mp hzero
    rw [bytes, dateBytes, Value.microBytes, if_pos hzero, List.append_nil, List.append_assoc]
    refine hyear.bind ((reads_byte month).bind ((reads_byte day).bind ((reads_byte hour).bind
      ((reads_byte minute).bind ((reads_byte second).bind_nil ?_)))))
    rw [UInt16.ofNat_toNat]
    apply reads_pure _
  · rw [bytes, dateBytes, Value.microBytes, if_neg hzero, List.append_assoc, List.append_assoc]
    refine hyear.bind ((reads_byte month).bind ((reads_byte day).bind ((reads_byte hour).bind
      ((reads_byte minute).bind ((reads_byte second).bind (hmicros.bind_nil ?_))))))
    rw [UInt16.ofNat_toNat, UInt32.ofNat_toNat]
    apply reads_pure _

end DateTimeField

theorem daysInMonth_le
    (year : Int) (month : Nat) :
  daysInMonth year month ≤ 31
  := by
  rw [daysInMonth]
  split
  · split <;> omega
  split <;> omega

/-- The time without what it has beyond whole microseconds. -/
def TimeOfDay.wholeMicros (t : TimeOfDay) : TimeOfDay where
  hour := t.hour
  minute := t.minute
  second := t.second
  nanosecond := t.nanosecond / 1000 * 1000
  isTimeOfDay := by
    obtain ⟨hhour, hminute, hsecond, hnanosecond, hleap⟩ := t.isTimeOfDay
    refine ⟨hhour, hminute, hsecond, ?_, ?_⟩
    · omega
    · intro h
      apply hleap
      omega

/-- The year, month and day of a date. -/
def Date.toField (d : Date) : DateTimeField where
  year := UInt16.ofNat d.year.natAbs
  month := UInt8.ofNat d.month
  day := UInt8.ofNat d.day
  hour := 0
  minute := 0
  second := 0
  micros := 0

/-- The parts of a time on a day. -/
def DateTime.toField (t : DateTime) : DateTimeField :=
  { t.date.toField with
    hour := UInt8.ofNat t.time.hour
    minute := UInt8.ofNat t.time.minute
    second := UInt8.ofNat t.time.second
    micros := UInt32.ofNat (t.time.nanosecond / 1000) }

namespace Date

theorem toNat_year_toField
    {d : Date} (hyear : 0 ≤ d.year ∧ d.year ≤ 65535) :
  d.toField.year.toNat = d.year.natAbs
  := by
  apply UInt16.toNat_ofNat_of_lt'
  apply Nat.lt_of_le_of_lt (by omega : _ ≤ 65535) (by decide)

theorem toNat_month_toField
    (d : Date) :
  d.toField.month.toNat = d.month
  := by
  obtain ⟨-, ⟨-, hmonth⟩, -⟩ := d.isDay
  apply UInt8.toNat_ofNat_of_lt' (Nat.lt_of_le_of_lt hmonth (by decide))

theorem toNat_day_toField
    (d : Date) :
  d.toField.day.toNat = d.day
  := by
  obtain ⟨-, -, -, hday⟩ := d.isDay
  have hmonth := daysInMonth_le d.year d.month
  apply UInt8.toNat_ofNat_of_lt' (Nat.lt_of_le_of_lt (Nat.le_trans hday hmonth) (by decide))

/-- The year, month and day of a date denote it. -/
theorem date?_toField
    {d : Date} (hyear : 0 ≤ d.year ∧ d.year ≤ 65535) :
  d.toField.date? = some d
  := by
  have year : (d.year.natAbs : Int) = d.year := by omega
  rw [DateTimeField.date?, toNat_year_toField hyear, toNat_month_toField, toNat_day_toField, year,
    of?, dif_pos d.isDay]

/-- No date of the calendar is the zero date. -/
theorem isZeroDate_toField
    (d : Date) :
  d.toField.isZeroDate = false
  := by
  obtain ⟨-, ⟨hmonth, -⟩, -⟩ := d.isDay
  have nonzero : d.toField.month ≠ 0 := by
    intro hzero
    have month := d.toNat_month_toField
    rw [hzero] at month
    change 0 = d.month at month
    omega
  simp [DateTimeField.isZeroDate, nonzero]

end Date

namespace DateTime

theorem toNat_micros_toField
    (t : DateTime) :
  t.toField.micros.toNat = t.time.nanosecond / 1000
  := by
  obtain ⟨-, -, -, hnanosecond, -⟩ := t.time.isTimeOfDay
  apply UInt32.toNat_ofNat_of_lt' (Nat.lt_of_le_of_lt (by omega : _ ≤ 2000000) (by decide))

theorem time?_toField
    (t : DateTime) :
  t.toField.time? = some t.time.wholeMicros
  := by
  obtain ⟨hhour, hminute, hsecond, -, -⟩ := t.time.isTimeOfDay
  have hour : t.toField.hour.toNat = t.time.hour :=
    UInt8.toNat_ofNat_of_lt' (Nat.lt_trans hhour (by decide))
  have minute : t.toField.minute.toNat = t.time.minute :=
    UInt8.toNat_ofNat_of_lt' (Nat.lt_trans hminute (by decide))
  have second : t.toField.second.toNat = t.time.second :=
    UInt8.toNat_ofNat_of_lt' (Nat.lt_trans hsecond (by decide))
  rw [DateTimeField.time?, hour, minute, second, toNat_micros_toField, TimeOfDay.of?]
  apply dif_pos t.time.wholeMicros.isTimeOfDay

/-- The parts of a time on a day denote it, in whole microseconds. -/
theorem dateTime?_toField
    {t : DateTime} (hyear : 0 ≤ t.date.year ∧ t.date.year ≤ 65535) :
  t.toField.dateTime? = some ⟨t.date, t.time.wholeMicros⟩
  := by
  have date : t.toField.date? = some t.date := Date.date?_toField hyear
  rw [DateTimeField.dateTime?, date, time?_toField]
  rfl

end DateTime

namespace Value

theorem dateBytes_eq_ok
    {d : Date} (hyear : 0 ≤ d.year ∧ d.year ≤ 65535) :
  dateBytes d = .ok d.toField.dateBytes
  := by
  rw [DateTimeField.dateBytes, Date.toNat_year_toField hyear]
  apply if_pos hyear

theorem dateTimeBytes_eq_ok
    {t : DateTime} (hyear : 0 ≤ t.date.year ∧ t.date.year ≤ 65535) :
  dateTimeBytes t = .ok (counted t.toField.bytes)
  := by
  rw [dateTimeBytes, dateBytes_eq_ok hyear, DateTimeField.bytes, DateTime.toNat_micros_toField]
  rfl

end Value

end SqlWire
