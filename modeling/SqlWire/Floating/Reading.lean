import SqlWire.Floating.Basic
import SqlWire.Number.Literal
import SqlWire.Text.Ascii

/-!
# Floating-point numbers from text

The number `Double.ofLiteral` nearest to a numeric literal, and the number `Double.ofText?` that a
text denotes: a literal, or a name of the infinity or of what is not a number, in any case of
letters and with an optional sign.
-/

namespace SqlWire

/-- The number that the digits of an exponent make.  Digits are no longer taken once it has reached
65536, which is far beyond every range. -/
def Literal.Exponent.saturated (e : Literal.Exponent) : Nat :=
  e.digits.foldl (fun n c => if n < 0x10000 then 10 * n + Digits.digitValue c else n) 0

/-- The power of ten that the significand of a literal is multiplied by. -/
def Literal.power (l : Literal) : Int :=
  let moved : Int :=
    match l.exponent with
    | none => 0
    | some e => if e.isNegative then -(e.saturated : Int) else e.saturated
  moved - l.fraction.length

namespace Double

/-- Powers of ten above this one overflow with any positive significand, and decimals below its
reciprocal vanish. -/
def reach : Nat := 400

/-- The number nearest to `± n · 10 ^ e`, where `n` has at most `width` digits. -/
def ofScaled (negative : Bool) (n : Nat) (width : Nat) (e : Int) : Double :=
  if n = 0 ∨ e + width < -(reach : Int) then ofBits (Format.binary64.signBit negative)
  else if (reach : Int) < e then ofBits (Format.binary64.infinity negative)
  else ofBits (Format.binary64.round negative (n * 10 ^ e.toNat) (10 ^ (-e).toNat))

/-- The number nearest to a literal. -/
def ofLiteral (l : Literal) : Double :=
  ofScaled l.isNegative l.significand (l.whole.length + l.fraction.length) l.power

/-- The pattern of the quiet datum that is no number. -/
def quietNan (negative : Bool) : Nat :=
  Format.binary64.infinity negative + 2 ^ 51

/-- The number named by a text without digits. -/
def ofName? (cs : List Char) : Option Double :=
  let (sign, name) := Literal.takeSign cs
  let negative := sign == some '-'
  let name := String.ofList (name.map Ascii.lower)
  if name = "inf" ∨ name = "infinity" then some (ofBits (Format.binary64.infinity negative))
  else if name = "nan" then some (ofBits (quietNan negative))
  else none

/-- The number that a text denotes. -/
def ofText? (s : String) : Option Double :=
  match Literal.ofString? s with
  | some l => some (ofLiteral l)
  | none => ofName? s.toList

end Double

end SqlWire
