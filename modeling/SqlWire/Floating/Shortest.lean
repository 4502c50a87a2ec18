import SqlWire.Floating.Basic
import SqlWire.Text.Digits

/-!
# The shortest decimal writing of a floating-point number

The digits `Shortest.digits` of the shortest decimal that is read back as a given number, nearest to
it among the decimals of that length; and its positional writing `Double.toText`.  The decimals that
are read back as a number form an interval around it, which includes its ends when the significand
is even.
-/

namespace SqlWire

namespace Shortest

/-- The numbers that are rounded to a number: all three in units of `1 / scale`, and whether the
bounds belong to them. -/
structure Interval where
  low : Nat
  value : Nat
  high : Nat
  scale : Nat
  closed : Bool
  deriving Repr

/-- The interval of a finite positive number.  Below the least number of a binade the spacing is
half as wide, except at the bottom of the range. -/
def interval (f : Format) (significand : Nat) (exponent : Int) : Interval :=
  let up := 2 ^ (exponent - 2).toNat
  let narrow := significand = 2 ^ f.fractionBits ∧ f.leastExponent < exponent
  { low := (4 * significand - if narrow then 1 else 2) * up
    value := 4 * significand * up
    high := (4 * significand + 2) * up
    scale := 2 ^ (2 - exponent).toNat
    closed := significand % 2 == 0 }

/-- Whether `n · 10 ^ (-k)` belongs to the interval. -/
def Interval.contains (i : Interval) (n : Nat) (k : Int) : Bool :=
  let x := n * 10 ^ (-k).toNat * i.scale
  let widen := 10 ^ k.toNat
  if i.closed then i.low * widen ≤ x && x ≤ i.high * widen
  else i.low * widen < x && x < i.high * widen

/-- The least `p` not below the given one with `x < scale · 10 ^ p`. -/
def magnitudeFrom (x scale : Nat) : Nat → Nat → Nat
  | 0, p => p
  | fuel + 1, p => if x < scale * 10 ^ p then p else magnitudeFrom x scale fuel (p + 1)

/-- The greatest `p` with `x · 10 ^ p < scale`, searched upwards. -/
def smallnessFrom (x scale : Nat) : Nat → Nat → Nat
  | 0, p => p
  | fuel + 1, p => if x * 10 ^ (p + 1) < scale then smallnessFrom x scale fuel (p + 1) else p

/-- The position of the point before the first digit: the least `p` with `value < 10 ^ p`. -/
def Interval.point (i : Interval) : Int :=
  if i.scale ≤ i.value then (magnitudeFrom i.value i.scale (i.value.log2 + 1) 0 : Nat)
  else -(smallnessFrom i.value i.scale (i.scale.log2 + 1) 0 : Nat)

/-- The nearer of the two decimals with `k` places that enclose the number, if it belongs to the
interval, else the other one; of two equally near the upper. -/
def Interval.candidate? (i : Interval) (k : Int) : Option Nat :=
  let n := i.value * 10 ^ k.toNat
  let d := i.scale * 10 ^ (-k).toNat
  let lower := n / d
  let upper := lower + 1
  let preferUpper := d ≤ 2 * (n % d)
  match i.contains lower k, i.contains upper k with
  | true, true => some (if preferUpper then upper else lower)
  | true, false => some lower
  | false, true => some upper
  | false, false => none

/-- The first candidate with at least `n` digits. -/
def Interval.search (i : Interval) (point : Int) : Nat → Nat → Nat × Int
  | 0, n => (i.value / i.scale, n)
  | fuel + 1, n =>
    let k := (n : Int) - point
    match i.candidate? k with
    | some digits => (digits, k)
    | none => Interval.search i point fuel (n + 1)

/-- The shortest decimal `digits · 10 ^ (-places)` that is read back as a finite positive number. -/
def digits (f : Format) (significand : Nat) (exponent : Int) : Nat × Int :=
  let i := interval f significand exponent
  i.search i.point 20 1

/-- The positional writing of `n · 10 ^ (-places)` without trailing zeros in the fraction. -/
def positional (n : Nat) (places : Int) : List Char :=
  if places ≤ 0 then Digits.ofNat (n * 10 ^ (-places).toNat)
  else
    let ds := Digits.fill (places.toNat + 1) (Digits.ofNat n)
    let whole := ds.take (ds.length - places.toNat)
    let part := ((ds.drop (ds.length - places.toNat)).reverse.dropWhile (· == '0')).reverse
    if part.isEmpty then whole else whole ++ '.' :: part

/-- The writing of a datum: `NaN`, `inf`, or the shortest digits, with a sign when negative. -/
def write (f : Format) : Datum → String
  | .nan => "NaN"
  | .infinite negative => if negative then "-inf" else "inf"
  | .finite negative m e =>
    let sign := if negative then ['-'] else []
    if m = 0 then String.ofList (sign ++ ['0'])
    else
      let (n, places) := digits f m e
      String.ofList (sign ++ positional n places)

end Shortest

/-- The shortest text that is read back as the number, in positional notation. -/
def Double.toText (x : Double) : String :=
  Shortest.write .binary64 x.datum

/-- The shortest text that is read back as the number, in positional notation. -/
def Single.toText (x : Single) : String :=
  Shortest.write .binary32 x.datum

end SqlWire
