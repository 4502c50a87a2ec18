import SqlWire.Calendar.TimeField
import SqlWire.Value

/-!
# Binary date and date-time fields

The type `DateTimeField` of the fields of DATE, DATETIME and TIMESTAMP columns in binary rows: year,
month and day, then the time of day and microseconds, of which a shorter field leaves the later ones
zero.  A field may denote no day of the calendar; the zero date is such a field, and the
`ZeroDatePolicy` says whether it has a text nevertheless.
-/

namespace SqlWire

/-- What a field whose year, month and day are zero is read as: its literal, or nothing. -/
inductive ZeroDatePolicy where
  | literal
  | reject
  deriving DecidableEq, Repr, Inhabited

/-- The literal of the zero date. -/
def zeroDate : String := "0000-00-00"

/-- The literal of the zero date and time. -/
def zeroDateTime : String := "0000-00-00 00:00:00"

/-- The parts of a date or date-time field. -/
structure DateTimeField where
  year : UInt16
  month : UInt8
  day : UInt8
  hour : UInt8
  minute : UInt8
  second : UInt8
  micros : UInt32
  deriving DecidableEq, Repr

namespace DateTimeField

/-- The field with all parts zero. -/
def zero : DateTimeField :=
  ⟨0, 0, 0, 0, 0, 0, 0⟩

/-- The field with the given length: nothing, or a date, then the time of day from five bytes on,
and the microseconds from eight. -/
def read (length : Nat) : Reader DateTimeField := do
  if length = 0 then return zero
  let year := UInt16.ofNat (← Reader.uint 2)
  let month ← Reader.byte
  let day ← Reader.byte
  if length ≤ 4 then return { zero with year, month, day }
  let hour ← Reader.byte
  let minute ← Reader.byte
  let second ← Reader.byte
  if length ≤ 7 then return ⟨year, month, day, hour, minute, second, 0⟩
  let micros := UInt32.ofNat (← Reader.uint 4)
  return ⟨year, month, day, hour, minute, second, micros⟩

/-- The year, month and day are zero. -/
def isZeroDate (f : DateTimeField) : Bool :=
  f.year == 0 && f.month == 0 && f.day == 0

/-- The day that a field denotes, if there is one. -/
def date? (f : DateTimeField) : Option Date :=
  Date.of? f.year.toNat f.month.toNat f.day.toNat

/-- The time of day that a field denotes, if there is one. -/
def time? (f : DateTimeField) : Option TimeOfDay :=
  TimeOfDay.of? f.hour.toNat f.minute.toNat f.second.toNat (f.micros.toNat * 1000)

/-- The time on a day that a field denotes, if there is one. -/
def dateTime? (f : DateTimeField) : Option DateTime := do
  return ⟨← f.date?, ← f.time?⟩

/-- The parts of a field in the order of a date-time. -/
def describe (f : DateTimeField) : String :=
  Digits.pad 4 f.year.toNat ++ "-" ++ Digits.pad 2 f.month.toNat ++ "-" ++ Digits.pad 2 f.day.toNat
    ++ " " ++ Digits.pad 2 f.hour.toNat ++ ":" ++ Digits.pad 2 f.minute.toNat ++ ":"
    ++ Digits.pad 2 f.second.toNat ++ "." ++ Digits.pad 6 f.micros.toNat

/-- The parts of a field with their names. -/
def inspect (f : DateTimeField) : String :=
  "BinaryDateTime \x7b year: " ++ toString f.year.toNat ++ ", month: " ++ toString f.month.toNat
    ++ ", day: " ++ toString f.day.toNat ++ ", hour: " ++ toString f.hour.toNat
    ++ ", minute: " ++ toString f.minute.toNat ++ ", second: " ++ toString f.second.toNat
    ++ ", micros: " ++ toString f.micros.toNat ++ " \x7d"

/-- The text of a field with a zero date. -/
def zeroText (f : DateTimeField) (literal : String) : ZeroDatePolicy → Except Error String
  | .literal => .ok literal
  | .reject => .error (.malformed f.describe Target.text.name)

/-- The text `YYYY-MM-DD` of a date field of the given length. -/
def dateText (f : DateTimeField) (length : Nat) (policy : ZeroDatePolicy) : Except Error String :=
  if length = 0 then .ok zeroDate
  else if f.isZeroDate then f.zeroText zeroDate policy
  else
    match f.date? with
    | some d => .ok d.toText
    | none => .error (.malformed f.describe Target.text.name)

/-- The text `YYYY-MM-DD HH:MM:SS[.ffffff]` of a date-time field of the given length. -/
def dateTimeText (f : DateTimeField) (length scale : Nat) (policy : ZeroDatePolicy) :
    Except Error String :=
  if length = 0 then .ok (zeroDateTime ++ zeroFraction scale)
  else if f.isZeroDate then f.zeroText zeroDateTime policy
  else
    match f.dateTime? with
    | some t => .ok (t.toSecondText ++ microFraction scale f.micros.toNat)
    | none => .error (.malformed f.describe Target.text.name)

end DateTimeField

end SqlWire
