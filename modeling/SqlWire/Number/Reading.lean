import SqlWire.Error
import SqlWire.Floating.Reading
import SqlWire.Floating.Shortest
import SqlWire.Number.Decimal

/-!
# Numbers from text

Numeric fields in text, read as a decimal, an integer or a floating-point number.  A text that is no
literal is malformed; a literal whose value does not fit is an overflow.
-/

namespace SqlWire.Number

/-- The text is a numeric literal. -/
def isLiteral (s : String) : Bool :=
  (Literal.ofString? s).isSome

/-- The decimal that a text denotes. -/
def readDecimal (s target : String) : Except Error Decimal :=
  match Literal.ofString? s with
  | none => .error (.malformed s target)
  | some l =>
    match Decimal.ofLiteral? l with
    | none => .error (.overflow s target)
    | some d => .ok d

/-- The integer part of the decimal that a text denotes. -/
def readInteger (s target : String) : Except Error Int := do
  return (← readDecimal s target).truncate

/-- The floating-point number nearest to a text. -/
def readDouble (s target : String) : Except Error Double :=
  match Double.ofText? s with
  | none => .error (.malformed s target)
  | some x => .ok x

/-- The integer, if it lies between the bounds of the target. -/
def narrow (least greatest : Int) (i : Int) (target : String) : Except Error Int :=
  if least ≤ i ∧ i ≤ greatest then .ok i else .error (.overflow (toString i) target)

/-- The magnitude from which a floating-point number is not read as an integer: the double nearest
to `10 ^ 38`. -/
def integerReach : Nat := 99999999999999997748809823456034029568

/-- The integer part of a floating-point number, toward zero. -/
def truncate (x : Double) (target : String) : Except Error Int :=
  match x.datum.truncate? with
  | some i =>
    if x.datum.reaches integerReach then .error (.overflow x.toText target) else .ok i
  | none => .error (.overflow x.toText target)

end SqlWire.Number
