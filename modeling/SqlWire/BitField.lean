import SqlWire.Bytes

/-!
# Bit fields

A bit field is a run of bytes, most significant first.  Its number `BitField.value` has 64 bits, of
which the last eight bytes decide; its literal `BitField.literal` is `b'…'` with the bits from the
first one that is set.
-/

namespace SqlWire.BitField

/-- The number of the last 64 bits. -/
def value (bs : Bytes) : UInt64 :=
  bs.foldl (fun n b => n * 256 + b.toUInt64) 0

/-- The bits of a byte, most significant first. -/
def byteBits (b : UInt8) : List Bool :=
  [7, 6, 5, 4, 3, 2, 1, 0].map b.toNat.testBit

/-- The bits of a field, most significant first. -/
def bits (bs : Bytes) : List Bool :=
  bs.flatMap byteBits

/-- The digit of a bit. -/
def bitDigit (b : Bool) : Char :=
  if b then '1' else '0'

/-- The literal of a field; the bits before the first one that is set are left out. -/
def literal (bs : Bytes) : String :=
  "b'" ++ String.ofList (((bits bs).dropWhile (! ·)).map bitDigit) ++ "'"

end SqlWire.BitField
