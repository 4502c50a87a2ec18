import SqlWire.Calendar.Basic
import SqlWire.Error
import SqlWire.Text.Blank
import SqlWire.Text.Utf8

/-!
# Dates, times, and durations from text

The readers `readDate`, `readDateTime` and `readDuration` of temporal texts.  Dates and date-times
are read part by part: before a number blanks are skipped, and it has as many digits as it can up to
its width; a year may also have a sign and then any number of digits.
-/

namespace SqlWire.Temporal

/-! ### Parts -/

/-- A way to read a part at the start of a text: its value and the rest. -/
abbrev Part (α : Type) : Type :=
  List Char → Option (α × List Char)

/-- One to `width` digits. -/
def digits (width : Nat) : Part Nat :=
  fun cs =>
    let ds := (cs.take width).takeWhile Digits.isDigit
    if ds.isEmpty then none else some (Digits.value ds, cs.drop ds.length)

/-- A run of digits of any length, at least one, of a number below `2 ^ 63`. -/
def allDigits : Part Nat :=
  fun cs =>
    let ds := cs.takeWhile Digits.isDigit
    if ds.isEmpty then none else (Digits.below? (2 ^ 63) ds).map (·, cs.drop ds.length)

/-- A number of at most two digits between the bounds, behind any blanks. -/
def twoDigits (least greatest : Nat) : Part Nat :=
  fun cs => do
    let (n, cs) ← digits 2 (Blank.trimStart cs)
    if least ≤ n ∧ n ≤ greatest then some (n, cs) else none

/-- A year, behind any blanks: at most four digits, or a sign and any number of them. -/
def year : Part Int :=
  fun cs =>
    match Blank.trimStart cs with
    | '-' :: cs => do
      let (n, cs) ← allDigits cs
      return (-(n : Int), cs)
    | '+' :: cs => do
      let (n, cs) ← allDigits cs
      return ((n : Int), cs)
    | cs => do
      let (n, cs) ← digits 4 cs
      return ((n : Int), cs)

/-- The given character. -/
def char (c : Char) : Part Unit :=
  fun cs =>
    match cs with
    | [] => none
    | c' :: cs => if c = c' then some ((), cs) else none

/-- The nanoseconds of a fraction of a second, if a point follows: nine digits count, and any
further ones are passed over. -/
def fraction : Part Nat :=
  fun cs =>
    match cs with
    | '.' :: cs =>
      let ds := (cs.take 9).takeWhile Digits.isDigit
      if ds.isEmpty then none
      else
        some (Digits.value ds * 10 ^ (9 - ds.length), (cs.drop ds.length).dropWhile Digits.isDigit)
    | _ => some (0, cs)

/-- A date `Y-M-D`. -/
def date : Part Date :=
  fun cs => do
    let (y, cs) ← year cs
    let ((), cs) ← char '-' cs
    let (m, cs) ← twoDigits 1 12 cs
    let ((), cs) ← char '-' cs
    let (d, cs) ← twoDigits 1 31 cs
    return (← Date.of? y m d, cs)

/-- A time of day `h:m:s[.f]`, in which the second 60 is the leap second. -/
def timeOfDay : Part TimeOfDay :=
  fun cs => do
    let (h, cs) ← twoDigits 0 23 cs
    let ((), cs) ← char ':' cs
    let (m, cs) ← twoDigits 0 59 cs
    let ((), cs) ← char ':' cs
    let (s, cs) ← twoDigits 0 60 cs
    let (n, cs) ← fraction cs
    let time ← if s = 60 then TimeOfDay.of? h m 59 (n + 1000000000) else TimeOfDay.of? h m s n
    return (time, cs)

/-- A date and a time of day, with any blanks or none between them. -/
def dateTime : Part DateTime :=
  fun cs => do
    let (d, cs) ← date cs
    let (t, cs) ← timeOfDay (Blank.trimStart cs)
    return (⟨d, t⟩, cs)

/-- The value of a part that is the whole text. -/
def whole {α : Type} (p : Part α) (cs : List Char) : Option α :=
  match p cs with
  | some (a, []) => some a
  | _ => none

/-! ### Whole texts -/

/-- The characters in the first `n` bytes of a text, if a character ends there. -/
def firstBytes? : Nat → List Char → Option (List Char)
  | 0, _ => some []
  | _ + 1, [] => none
  | n + 1, c :: cs =>
    if c.utf8Size ≤ n + 1 then (firstBytes? (n + 1 - c.utf8Size) cs).map (c :: ·) else none

/-- The date at the start of a text: its first ten bytes if they end with a character, else all of
it, are a date. -/
def readDate (s target : String) : Except Error Date :=
  match whole date ((firstBytes? 10 s.toList).getD s.toList) with
  | some d => .ok d
  | none => .error (.malformed s target)

/-- The date and time of a text; ten bytes are a date, which means its midnight. -/
def readDateTime (s target : String) : Except Error DateTime :=
  if s.utf8ByteSize = 10 then do
    return ⟨← readDate s target, TimeOfDay.midnight⟩
  else
    match whole dateTime s.toList with
    | some t => .ok t
    | none => .error (.malformed s target)

/-- The parts of a text between the given characters. -/
def splitOn (sep : Char) : List Char → List (List Char)
  | [] => [[]]
  | c :: cs =>
    if c = sep then [] :: splitOn sep cs
    else
      match splitOn sep cs with
      | [] => [[c]]
      | part :: parts => (c :: part) :: parts

/-- The number of a run of digits below `2 ^ 63`. -/
def number? (ds : List Char) : Option Nat :=
  if Digits.isNumber ds then Digits.below? (2 ^ 63) ds else none

/-- The microseconds of one to nine digits, of which the first six count. -/
def micros? (ds : List Char) : Option Nat :=
  if Digits.isNumber ds ∧ ds.length ≤ 9 then
    some (Digits.value ((ds ++ List.replicate (6 - ds.length) '0').take 6))
  else none

/-- The seconds of hours, minutes and seconds between colons. -/
def clock? (cs : List Char) : Option Nat := do
  match splitOn ':' cs with
  | [h, m, s] =>
    let h ← number? h
    let m ← number? m
    let s ← number? s
    if m ≤ 59 ∧ s ≤ 59 then some (3600 * h + 60 * m + s) else none
  | _ => none

/-- The seconds and microseconds of a magnitude `H:M:S[.f]`. -/
def magnitude? (cs : List Char) : Option (Nat × Nat) :=
  match cs.dropWhile (· != '.') with
  | [] => do return (← clock? cs, 0)
  | _ :: f => do return (← clock? (cs.takeWhile (· != '.')), ← micros? f)

/-- The duration of a text `[-]H:M:S[.f]`. -/
def readDuration (s target : String) : Except Error Duration :=
  let (negative, body) :=
    match s.toList with
    | '-' :: cs => (true, cs)
    | cs => (false, cs)
  match magnitude? body with
  | none => .error (.malformed s target)
  | some (seconds, micros) =>
    let n : Int := ((seconds * 1000000 + micros) * 1000 : Nat)
    match Duration.ofNanoseconds? (if negative then -n else n) with
    | none => .error (.overflow s target)
    | some d => .ok d

end SqlWire.Temporal
