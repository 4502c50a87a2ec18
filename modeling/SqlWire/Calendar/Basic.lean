import SqlWire.Text.Digits

/-!
# Dates, times of day, and durations

The types `Date`, in the proleptic Gregorian calendar, `TimeOfDay`, whose last second of a minute
may be a leap second, `DateTime`, and `Duration`, a signed number of nanoseconds; and their texts.
Years outside four digits are written with a sign.
-/

namespace SqlWire

/-- The year has a 29th of February. -/
def isLeapYear (year : Int) : Bool :=
  year % 4 == 0 && (year % 100 != 0 || year % 400 == 0)

/-- The number of days of a month. -/
def daysInMonth (year : Int) (month : Nat) : Nat :=
  if month = 2 then if isLeapYear year then 29 else 28
  else if month = 4 ∨ month = 6 ∨ month = 9 ∨ month = 11 then 30
  else 31

/-- The year, month and day are those of a day of the calendar. -/
def IsDay (year : Int) (month day : Nat) : Prop :=
  (-262143 ≤ year ∧ year ≤ 262142) ∧ (1 ≤ month ∧ month ≤ 12) ∧
    1 ≤ day ∧ day ≤ daysInMonth year month

instance (year : Int) (month day : Nat) : Decidable (IsDay year month day) := by
  unfold IsDay
  infer_instance

/-- A day of the calendar. -/
structure Date where
  year : Int
  month : Nat
  day : Nat
  isDay : IsDay year month day
  deriving DecidableEq, Repr

/-- The hour, minute, second and nanosecond are those of a time of day; a nanosecond past the end of
its second belongs to a leap second. -/
def IsTimeOfDay (hour minute second nanosecond : Nat) : Prop :=
  hour < 24 ∧ minute < 60 ∧ second < 60 ∧ nanosecond < 2000000000 ∧
    (1000000000 ≤ nanosecond → second = 59)

instance (hour minute second nanosecond : Nat) :
    Decidable (IsTimeOfDay hour minute second nanosecond) := by
  unfold IsTimeOfDay
  infer_instance

/-- A time of day. -/
structure TimeOfDay where
  hour : Nat
  minute : Nat
  second : Nat
  nanosecond : Nat
  isTimeOfDay : IsTimeOfDay hour minute second nanosecond
  deriving DecidableEq, Repr

/-- A time on a day. -/
structure DateTime where
  date : Date
  time : TimeOfDay
  deriving DecidableEq, Repr

/-- The greatest number of nanoseconds of a duration. -/
def Duration.limit : Nat := (2 ^ 63 - 1) * 1000000

/-- A signed length of time in nanoseconds. -/
structure Duration where
  nanoseconds : Int
  natAbs_le : nanoseconds.natAbs ≤ Duration.limit
  deriving DecidableEq, Repr

namespace Date

/-- The day with the given year, month and day, if there is one. -/
def of? (year : Int) (month day : Nat) : Option Date :=
  if h : IsDay year month day then some ⟨year, month, day, h⟩ else none

/-- The text of a year: four digits, and a sign and at least four digits outside of them. -/
def yearText (year : Int) : String :=
  if 0 ≤ year ∧ year ≤ 9999 then Digits.pad 4 year.natAbs
  else (if year < 0 then "-" else "+") ++ Digits.pad 4 year.natAbs

/-- The text `YYYY-MM-DD` of a day. -/
def toText (d : Date) : String :=
  yearText d.year ++ "-" ++ Digits.pad 2 d.month ++ "-" ++ Digits.pad 2 d.day

end Date

namespace TimeOfDay

/-- The time with the given hour, minute, second and nanosecond, if there is one. -/
def of? (hour minute second nanosecond : Nat) : Option TimeOfDay :=
  if h : IsTimeOfDay hour minute second nanosecond then some ⟨hour, minute, second, nanosecond, h⟩
  else none

/-- The start of the day. -/
def midnight : TimeOfDay :=
  ⟨0, 0, 0, 0, by decide⟩

/-- The text `HH:MM:SS` of a time, in which a leap second is the second 60. -/
def toText (t : TimeOfDay) : String :=
  Digits.pad 2 t.hour ++ ":" ++ Digits.pad 2 t.minute ++ ":"
    ++ Digits.pad 2 (t.second + t.nanosecond / 1000000000)

/-- The nanoseconds within the second. -/
def subsecond (t : TimeOfDay) : Nat :=
  t.nanosecond % 1000000000

/-- The fraction of the second in as many groups of three digits as it needs, behind a point. -/
def fractionText (t : TimeOfDay) : String :=
  let n := t.subsecond
  if n = 0 then ""
  else if n % 1000000 = 0 then "." ++ Digits.pad 3 (n / 1000000)
  else if n % 1000 = 0 then "." ++ Digits.pad 6 (n / 1000)
  else "." ++ Digits.pad 9 n

/-- The fraction of the second in six digits, behind a point. -/
def microText (t : TimeOfDay) : String :=
  "." ++ Digits.pad 6 (t.subsecond / 1000)

end TimeOfDay

namespace DateTime

/-- The text `YYYY-MM-DD HH:MM:SS`, without the fraction of the second. -/
def toSecondText (t : DateTime) : String :=
  t.date.toText ++ " " ++ t.time.toText

/-- The text `YYYY-MM-DD HH:MM:SS` with the fraction of the second, if it is not zero. -/
def toText (t : DateTime) : String :=
  t.toSecondText ++ t.time.fractionText

end DateTime

namespace Duration

/-- The duration of the given number of nanoseconds, if it is in range. -/
def ofNanoseconds? (n : Int) : Option Duration :=
  if h : n.natAbs ≤ limit then some ⟨n, h⟩ else none

/-- The duration is less than nothing. -/
def isNegative (d : Duration) : Bool :=
  decide (d.nanoseconds < 0)

/-- The whole seconds of a duration's magnitude. -/
def seconds (d : Duration) : Nat :=
  d.nanoseconds.natAbs / 1000000000

/-- The whole microseconds of a duration's magnitude beyond its seconds. -/
def micros (d : Duration) : Nat :=
  d.nanoseconds.natAbs % 1000000000 / 1000

/-- The text `[-]HH:MM:SS`, with the microseconds behind a point if they are not zero. -/
def toText (d : Duration) : String :=
  (if d.isNegative then "-" else "") ++ Digits.pad 2 (d.seconds / 3600) ++ ":"
    ++ Digits.pad 2 (d.seconds % 3600 / 60) ++ ":" ++ Digits.pad 2 (d.seconds % 60)
    ++ (if 0 < d.micros then "." ++ Digits.pad 6 d.micros else "")

end Duration

end SqlWire
