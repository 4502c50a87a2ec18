import SqlWire.Bytes

/-!
# Binary floating-point numbers

The formats `Format.binary64` and `Format.binary32` of IEEE 754, the datum `Format.datum` that a bit
pattern denotes, and the bit pattern `Format.round` of the number nearest to a ratio.  Numbers are
kept as bit patterns, `Double` and `Single`; the value of a finite one is an integer significand
times a power of two, so that every operation here is exact integer arithmetic.
-/

namespace SqlWire

/-- What a bit pattern denotes: no number, an infinity, or `± significand · 2 ^ exponent`. -/
inductive Datum where
  | nan
  | infinite (negative : Bool)
  | finite (negative : Bool) (significand : Nat) (exponent : Int)
  deriving DecidableEq, Repr

/-- A binary interchange format, by the widths of its fraction and exponent fields. -/
structure Format where
  fractionBits : Nat
  exponentBits : Nat
  deriving DecidableEq, Repr

namespace Format

/-- The format of eight bytes. -/
def binary64 : Format :=
  ⟨52, 11⟩

/-- The format of four bytes. -/
def binary32 : Format :=
  ⟨23, 8⟩

/-- The exponent of the last place of a subnormal number. -/
def leastExponent (f : Format) : Int :=
  2 - 2 ^ (f.exponentBits - 1) - f.fractionBits

/-- The exponent field of infinities and of what is not a number. -/
def specialExponent (f : Format) : Nat :=
  2 ^ f.exponentBits - 1

/-- The pattern of the sign bit. -/
def signBit (f : Format) (negative : Bool) : Nat :=
  if negative then 2 ^ (f.fractionBits + f.exponentBits) else 0

/-- The pattern of an infinity. -/
def infinity (f : Format) (negative : Bool) : Nat :=
  f.signBit negative + f.specialExponent * 2 ^ f.fractionBits

/-- The fraction field of a pattern. -/
def fraction (f : Format) (bits : Nat) : Nat :=
  bits % 2 ^ f.fractionBits

/-- The exponent field of a pattern. -/
def exponentField (f : Format) (bits : Nat) : Nat :=
  bits / 2 ^ f.fractionBits % 2 ^ f.exponentBits

/-- The sign field of a pattern: set on negative numbers. -/
def isNegative (f : Format) (bits : Nat) : Bool :=
  bits / 2 ^ (f.fractionBits + f.exponentBits) % 2 == 1

/-- The datum that a pattern denotes. -/
def datum (f : Format) (bits : Nat) : Datum :=
  let m := f.fraction bits
  let e := f.exponentField bits
  if e = f.specialExponent then
    if m = 0 then .infinite (f.isNegative bits) else .nan
  else if e = 0 then .finite (f.isNegative bits) m f.leastExponent
  else .finite (f.isNegative bits) (2 ^ f.fractionBits + m) (f.leastExponent + e - 1)

/-- The quotient rounded to the nearest integer, a half to the even neighbour. -/
def divEven (n d : Nat) : Nat :=
  let q := n / d
  let r := n % d
  if 2 * r < d then q else if d < 2 * r then q + 1 else q + q % 2

/-- The integer part of the binary logarithm of a positive ratio. -/
def logRatio (n d : Nat) : Int :=
  let k : Int := (n.log2 : Int) - d.log2
  if d * 2 ^ k.toNat ≤ n * 2 ^ (-k).toNat then k else k - 1

/-- The pattern of the number nearest to `± n / d`, ties to the even significand; beyond the largest
finite number, the infinity. -/
def round (f : Format) (negative : Bool) (n d : Nat) : Nat :=
  if n = 0 then f.signBit negative
  else
    let e := max f.leastExponent (logRatio n d - f.fractionBits)
    let q := divEven (n * 2 ^ (-e).toNat) (d * 2 ^ e.toNat)
    let magnitude := (e - f.leastExponent).toNat * 2 ^ f.fractionBits + q
    if f.specialExponent * 2 ^ f.fractionBits ≤ magnitude then f.infinity negative
    else f.signBit negative + magnitude

/-- The pattern of the number nearest to `± significand · 2 ^ exponent`. -/
def roundScaled (f : Format) (negative : Bool) (significand : Nat) (exponent : Int) : Nat :=
  f.round negative (significand * 2 ^ exponent.toNat) (2 ^ (-exponent).toNat)

/-- The pattern in the format `g` of the number that a pattern of `f` is nearest to; what is not a
number stays so, quiet and with the leading bits of its fraction. -/
def convert (f g : Format) (bits : Nat) : Nat :=
  match f.datum bits with
  | .nan =>
    let payload := f.fraction bits * 2 ^ g.fractionBits / 2 ^ f.fractionBits
    let quiet := 2 ^ (g.fractionBits - 1)
    g.infinity (f.isNegative bits) + (if payload / quiet % 2 = 1 then payload else payload + quiet)
  | .infinite negative => g.infinity negative
  | .finite negative m e => g.roundScaled negative m e

end Format

/-- A floating-point number of eight bytes, by its bit pattern. -/
structure Double where
  bits : UInt64
  deriving DecidableEq, Repr, Inhabited

/-- A floating-point number of four bytes, by its bit pattern. -/
structure Single where
  bits : UInt32
  deriving DecidableEq, Repr, Inhabited

namespace Datum

/-- Neither an infinity nor without value. -/
def isFinite : Datum → Bool
  | finite .. => true
  | _ => false

/-- The number is zero, of either sign. -/
def isZero : Datum → Bool
  | finite _ m _ => m == 0
  | _ => false

/-- The integer part of a finite number, toward zero. -/
def truncate? : Datum → Option Int
  | finite negative m e =>
    let n := m * 2 ^ e.toNat / 2 ^ (-e).toNat
    some (if negative then -(n : Int) else n)
  | _ => none

/-- Whether a finite number is at least `n` in magnitude. -/
def reaches (n : Nat) : Datum → Bool
  | finite _ m e => n * 2 ^ (-e).toNat ≤ m * 2 ^ e.toNat
  | _ => false

end Datum

namespace Double

/-- The number with the given pattern. -/
def ofBits (n : Nat) : Double :=
  ⟨UInt64.ofNat n⟩

/-- The datum of a number. -/
def datum (x : Double) : Datum :=
  Format.binary64.datum x.bits.toNat

/-- Neither an infinity nor without value. -/
def isFinite (x : Double) : Bool :=
  x.datum.isFinite

/-- The number nearest to an integer. -/
def ofInt (i : Int) : Double :=
  ofBits (Format.binary64.round (decide (i < 0)) i.natAbs 1)

/-- The four-byte number nearest to a number. -/
def toSingle (x : Double) : Single :=
  ⟨UInt32.ofNat (Format.binary64.convert Format.binary32 x.bits.toNat)⟩

/-- Equality of numbers: what is not a number equals nothing, and the two zeros are equal. -/
def equals (x y : Double) : Bool :=
  match x.datum, y.datum with
  | .nan, _ => false
  | _, .nan => false
  | a, b => (a.isZero && b.isZero) || x.bits == y.bits

end Double

namespace Single

/-- The number with the given pattern. -/
def ofBits (n : Nat) : Single :=
  ⟨UInt32.ofNat n⟩

/-- The datum of a number. -/
def datum (x : Single) : Datum :=
  Format.binary32.datum x.bits.toNat

/-- Neither an infinity nor without value. -/
def isFinite (x : Single) : Bool :=
  x.datum.isFinite

/-- The same number in eight bytes. -/
def toDouble (x : Single) : Double :=
  .ofBits (Format.binary32.convert Format.binary64 x.bits.toNat)

end Single

end SqlWire
