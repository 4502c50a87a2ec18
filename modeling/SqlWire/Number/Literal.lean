import SqlWire.Text.Digits

/-!
# Numeric literals

The parts `Literal` of a numeric literal, their writing `Literal.write`, and the parts
`Literal.ofChars?` that a text has, if it is a literal at all.  A literal is an optional sign,
digits with an optional point among them, at least one in all, and an optional exponent.
-/

namespace SqlWire

/-- The exponent of a literal: the letter that announces it, its sign and its digits. -/
structure Literal.Exponent where
  marker : Char
  sign : Option Char
  digits : List Char
  deriving DecidableEq, Repr

/-- The parts of a numeric literal. -/
structure Literal where
  sign : Option Char
  whole : List Char
  pointed : Bool
  fraction : List Char
  exponent : Option Literal.Exponent
  deriving DecidableEq, Repr

namespace Literal

/-- The two signs. -/
def isSign (c : Char) : Bool :=
  c == '+' || c == '-'

/-- The two letters that announce an exponent. -/
def isMarker (c : Char) : Bool :=
  c == 'e' || c == 'E'

/-- The sign at the start of a text, if it has one, and the rest. -/
def takeSign : List Char → Option Char × List Char
  | [] => (none, [])
  | c :: cs => if isSign c then (some c, cs) else (none, c :: cs)

/-- The digits at the start of a text, and the rest. -/
def takeDigits (cs : List Char) : List Char × List Char :=
  (cs.takeWhile Digits.isDigit, cs.dropWhile Digits.isDigit)

/-- The exponent that a text is, the empty text being none. -/
def takeExponent : List Char → Option (Option Exponent)
  | [] => some none
  | c :: cs =>
    if isMarker c then
      let (sign, ds) := takeSign cs
      if Digits.isNumber ds then some (some ⟨c, sign, ds⟩) else none
    else none

/-- The point and the digits behind it at the start of a text, and the rest. -/
def takeFraction : List Char → Bool × List Char × List Char
  | [] => (false, [], [])
  | c :: cs =>
    if c = '.' then
      let (ds, rest) := takeDigits cs
      (true, ds, rest)
    else (false, [], c :: cs)

/-- The parts of a text, if it is a literal. -/
def ofChars? (cs : List Char) : Option Literal :=
  let (sign, cs) := takeSign cs
  let (whole, cs) := takeDigits cs
  let (pointed, fraction, cs) := takeFraction cs
  if whole.isEmpty && fraction.isEmpty then none
  else (takeExponent cs).map fun exponent => ⟨sign, whole, pointed, fraction, exponent⟩

/-- The parts of a text, if it is a literal. -/
def ofString? (s : String) : Option Literal :=
  ofChars? s.toList

/-- The text of an exponent. -/
def Exponent.write (e : Exponent) : List Char :=
  e.marker :: e.sign.toList ++ e.digits

/-- The text of a literal. -/
def write (l : Literal) : List Char :=
  l.sign.toList ++ l.whole ++ (if l.pointed then '.' :: l.fraction else [])
    ++ (l.exponent.map Exponent.write).getD []

/-- The exponent has a marker, at most a sign, and digits. -/
structure Exponent.WellFormed (e : Exponent) : Prop where
  marker : isMarker e.marker
  sign : ∀ c ∈ e.sign, isSign c
  digits : Digits.isNumber e.digits

/-- The parts are those of a literal: its signs are signs, its digits are digits, there is one at
least, and digits behind the point only if there is a point. -/
structure WellFormed (l : Literal) : Prop where
  sign : ∀ c ∈ l.sign, isSign c
  whole : ∀ c ∈ l.whole, Digits.isDigit c
  fraction : ∀ c ∈ l.fraction, Digits.isDigit c
  pointed : l.pointed = false → l.fraction = []
  digits : l.whole ≠ [] ∨ l.fraction ≠ []
  exponent : ∀ e ∈ l.exponent, e.WellFormed

/-- The literal has a minus sign. -/
def isNegative (l : Literal) : Bool :=
  l.sign == some '-'

/-- The exponent has a minus sign. -/
def Exponent.isNegative (e : Exponent) : Bool :=
  e.sign == some '-'

/-- The number that the digits on both sides of the point make. -/
def significand (l : Literal) : Nat :=
  Digits.longValue (l.whole ++ l.fraction)

end Literal

end SqlWire
