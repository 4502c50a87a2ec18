import SqlWire.Floating.Basic
import SqlWire.Number.Literal

/-!
# Exact decimals

The type `Decimal` of numbers `± coefficient · 10 ^ (-scale)` with a coefficient below `2 ^ 96` and
a scale up to 28; the decimal `Decimal.ofLiteral?` that a literal denotes, the decimal
`Decimal.ofDouble?` near a floating-point number, and the text and the integer part of a decimal.

Digits of a literal that do not fit behind the point are rounded away by the first of them; those
that do not fit before it make the literal unrepresentable.  An exponent moves the point, and must
neither push it past the greatest scale nor exceed that scale itself.
-/

namespace SqlWire

/-- An exact decimal: `± coefficient · 10 ^ (-scale)`. -/
structure Decimal where
  negative : Bool
  coefficient : Nat
  scale : Nat
  coefficient_lt : coefficient < 2 ^ 96
  scale_le : scale ≤ 28
  deriving DecidableEq, Repr

namespace Decimal

/-- The bound on coefficients. -/
def limit : Nat := 2 ^ 96

/-- The greatest scale. -/
def maxScale : Nat := 28

/-- The decimal with the given parts, if they are in range. -/
def ofParts? (negative : Bool) (coefficient scale : Nat) : Option Decimal :=
  if h : coefficient < 2 ^ 96 ∧ scale ≤ 28 then some ⟨negative, coefficient, scale, h.1, h.2⟩
  else none

/-- The decimal with the given parts, if they are in range, where zero has no sign. -/
def ofUnsignedZero? (negative : Bool) (coefficient scale : Nat) : Option Decimal :=
  ofParts? (negative && coefficient != 0) coefficient scale

/-- The decimal that is an integer, if it is in range. -/
def ofInt? (i : Int) : Option Decimal :=
  ofParts? (decide (i < 0)) i.natAbs 0

/-- The decimal `unscaled · 10 ^ (-scale)`, if it is in range. -/
def ofScaled? (unscaled : Int) (scale : Nat) : Option Decimal :=
  ofParts? (decide (unscaled < 0)) unscaled.natAbs scale

/-- The decimal that a number of 64 bits is. -/
def ofUInt64 (n : UInt64) : Decimal :=
  ⟨false, n.toNat, 0, Nat.lt_trans n.toNat_lt (by decide), by decide⟩

/-- The decimal is zero. -/
def isZero (d : Decimal) : Bool :=
  d.coefficient == 0

/-- The integer part, toward zero. -/
def truncate (d : Decimal) : Int :=
  let n := d.coefficient / 10 ^ d.scale
  if d.negative then -(n : Int) else n

/-- Two decimals are the same number. -/
def SameNumber (a b : Decimal) : Prop :=
  a.coefficient * 10 ^ b.scale = b.coefficient * 10 ^ a.scale ∧
    (a.negative = b.negative ∨ a.coefficient = 0)

/-- The text of a decimal: its sign, its digits, and a point before the last `scale` of them. -/
def toText (d : Decimal) : String :=
  let ds := Digits.fill (d.scale + 1) (Digits.ofNat d.coefficient)
  let whole := ds.take (ds.length - d.scale)
  let fraction := ds.drop (ds.length - d.scale)
  String.ofList ((if d.negative then ['-'] else []) ++ whole
    ++ (if fraction.isEmpty then [] else '.' :: fraction))

/-! ### From literals -/

/-- The coefficient and scale after a digit that does not fit: five and above carry into the
coefficient, and a carry that makes it too large drops its last digit in turn. -/
def carry (n scale : Nat) (c : Char) : Option (Nat × Nat) :=
  if Digits.digitValue c < 5 then some (n, scale)
  else if n + 1 < limit then some (n + 1, scale)
  else
    match scale with
    | 0 => none
    | scale + 1 => some ((n + 5) / 10, scale)

/-- The coefficient and scale after the digits behind the point: those that fit are appended, the
first that does not is rounded into the rest. -/
def appendFraction (n scale : Nat) : List Char → Option (Nat × Nat)
  | [] => some (n, scale)
  | c :: cs =>
    let next := 10 * n + Digits.digitValue c
    if scale < maxScale ∧ next < limit then appendFraction next (scale + 1) cs else carry n scale c

/-- The coefficient and scale of the digits before and behind the point. -/
def ofDigits? (whole fraction : List Char) : Option (Nat × Nat) := do
  appendFraction (← Digits.below? limit whole) 0 fraction

/-- The coefficient and scale with the point moved by an exponent of at most `maxScale`. -/
def shift? (coefficient scale : Nat) (e : Literal.Exponent) : Option (Nat × Nat) := do
  let places ← Digits.below? (maxScale + 1) e.digits
  if e.isNegative then some (coefficient, scale + places)
  else if places ≤ scale then some (coefficient, scale - places)
  else some (coefficient * 10 ^ (places - scale), 0)

/-- The decimal that a literal denotes, if there is one. -/
def ofLiteral? (l : Literal) : Option Decimal := do
  let (coefficient, scale) ← ofDigits? l.whole l.fraction
  let (coefficient, scale) ←
    match l.exponent with
    | none => some (coefficient, scale)
    | some e => shift? coefficient scale e
  ofUnsignedZero? l.isNegative coefficient scale

/-! ### From floating-point numbers

A whole number `m · 2 ^ e` is taken as it is.  A fraction `m · 2 ^ (-e)` is brought to the form
`m' · 10 ^ (-e')` by halvings and multiplications by five that keep `m'` below the limit, dropping
its lowest bit where they must; then the digits beyond the greatest scale, those beyond the
precision of the number, and trailing zeros are removed. -/

/-- The coefficient and scale of `m · 5 ^ five · 10 ^ (-five - scale)`, one step a power of five; a
halving takes the place of a power of ten. -/
def absorbFives (m scale : Nat) : Nat → Nat × Nat
  | 0 => (m, scale)
  | five + 1 =>
    if m % 2 = 0 then absorbFives (m / 2) scale five
    else if m * 5 < limit then absorbFives (m * 5) (scale + 1) five
    else absorbFives (m / 2) scale five

/-- The coefficient without its last digit, a half rounded up. -/
def dropDigit (m : Nat) : Nat :=
  m / 10 + if 5 ≤ m % 10 then 1 else 0

/-- The coefficient and scale with digits dropped down to the greatest scale; a coefficient that
vanishes has scale zero. -/
def clampScale (m : Nat) : Nat → Nat × Nat
  | 0 => (m, 0)
  | scale + 1 =>
    if scale + 1 ≤ maxScale then (m, scale + 1)
    else if m / 10 = 0 then (0, 0)
    else clampScale (dropDigit m) scale

/-- The coefficient and scale with digits behind the point dropped while the coefficient has more
than 52 bits. -/
def clampPrecision (m : Nat) : Nat → Nat × Nat
  | 0 => (m, 0)
  | scale + 1 => if m < 2 ^ 52 then (m, scale + 1) else clampPrecision (dropDigit m) scale

/-- The coefficient and scale without trailing zeros behind the point. -/
def stripZeros (m : Nat) : Nat → Nat × Nat
  | 0 => (m, 0)
  | scale + 1 => if m % 10 = 0 then stripZeros (m / 10) scale else (m, scale + 1)

/-- The decimal near a floating-point number, if there is one. -/
def ofDouble? (x : Double) : Option Decimal :=
  match x.datum with
  | .finite negative m e =>
    if m = 0 then ofParts? negative 0 0
    else if 0 ≤ e then ofParts? negative (m * 2 ^ e.toNat) 0
    else
      let (m, scale) := absorbFives m 0 (-e).toNat
      let (m, scale) := clampScale m scale
      let (m, scale) := clampPrecision m scale
      let (m, scale) := stripZeros m scale
      ofParts? negative m scale
  | _ => none

end Decimal

end SqlWire
