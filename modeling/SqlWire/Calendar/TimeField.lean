import SqlWire.Calendar.Basic
import SqlWire.Cursor

/-!
# Binary time fields

The type `TimeField` of the fields of TIME columns in binary rows: a sign, days, hours, minutes,
seconds and microseconds, of which a shorter field leaves the later ones zero.  It denotes a
`Duration` and has a text, whose number of fraction digits is the column's.
-/

namespace SqlWire

/-- The literal of the zero time. -/
def zeroTime : String := "00:00:00"

/-- A fraction of zeros behind a point, as many as the scale says and six at most. -/
def zeroFraction (scale : Nat) : String :=
  if scale = 0 then "" else "." ++ String.ofList (List.replicate (min scale 6) '0')

/-- The number of fraction digits shown: the scale, six at most, and six for a scale of zero if
there are microseconds to show. -/
def shownDigits (scale micros : Nat) : Nat :=
  if min scale 6 = 0 then if 0 < micros then 6 else 0 else min scale 6

/-- The first digits of the microseconds behind a point; none without digits to show. -/
def microFraction (scale micros : Nat) : String :=
  let n := shownDigits scale micros
  if n = 0 then ""
  else "." ++ String.ofList ((Digits.fill 6 (Digits.ofNat (micros % 1000000))).take n)

/-- The parts of a time field. -/
structure TimeField where
  negative : Bool
  days : UInt32
  hours : UInt8
  minutes : UInt8
  seconds : UInt8
  micros : UInt32
  deriving DecidableEq, Repr

namespace TimeField

/-- The field of the zero time. -/
def zero : TimeField :=
  ⟨false, 0, 0, 0, 0, 0⟩

/-- The field with the given length: nothing, or a sign, then days from five bytes on, the time of
day from eight, and the microseconds from nine. -/
def read (length : Nat) : Reader TimeField := do
  if length = 0 then return zero
  let negative := (← Reader.byte) == 1
  if length ≤ 4 then return { zero with negative }
  let days := UInt32.ofNat (← Reader.uint 4)
  if length ≤ 7 then return { zero with negative, days }
  let hours ← Reader.byte
  let minutes ← Reader.byte
  let seconds ← Reader.byte
  if length ≤ 8 then return ⟨negative, days, hours, minutes, seconds, 0⟩
  let micros := UInt32.ofNat (← Reader.uint 4)
  return ⟨negative, days, hours, minutes, seconds, micros⟩

/-- The hours, with those of the days. -/
def totalHours (t : TimeField) : Nat :=
  t.days.toNat * 24 + t.hours.toNat

/-- The magnitude in microseconds. -/
def magnitude (t : TimeField) : Nat :=
  (t.totalHours * 3600 + t.minutes.toNat * 60 + t.seconds.toNat) * 1000000 + t.micros.toNat

/-- The magnitude of a field is far within the range of durations. -/
theorem magnitude_le
    (t : TimeField) :
  t.magnitude * 1000 ≤ Duration.limit
  := by
  have hd := t.days.toNat_lt
  have hh := t.hours.toNat_lt
  have hm := t.minutes.toNat_lt
  have hs := t.seconds.toNat_lt
  have hu := t.micros.toNat_lt
  simp only [magnitude, totalHours, Duration.limit]
  omega

/-- The duration of a field. -/
def toDuration (t : TimeField) : Duration :=
  let n : Int := (t.magnitude * 1000 : Nat)
  ⟨if t.negative then -n else n, by
    have h := t.magnitude_le
    split <;> omega⟩

/-- The text `[-]HH:MM:SS[.ffffff]` of a field of the given length; an empty field is the zero time
with a fraction of zeros. -/
def toText (t : TimeField) (length scale : Nat) : String :=
  if length = 0 then zeroTime ++ zeroFraction scale
  else
    (if t.negative then "-" else "") ++ Digits.pad 2 t.totalHours ++ ":"
      ++ Digits.pad 2 t.minutes.toNat ++ ":" ++ Digits.pad 2 t.seconds.toNat
      ++ microFraction scale t.micros.toNat

end TimeField

end SqlWire
