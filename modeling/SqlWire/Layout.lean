import SqlWire.Floating.Basic
import SqlWire.Text.Utf8

/-!
# Layouts

The bytes of the items that payloads are made of: length-encoded numbers and byte strings,
NUL-terminated runs, and floating-point numbers.  Numbers are little-endian.
-/

namespace SqlWire.Layout

/-- The length-encoded form of a number: one byte below 251, else the byte 252, 253 or 254 and as
many bytes as the number needs of two, three and eight. -/
def lengthEncoded (n : Nat) : Bytes :=
  if n < 0xFB then [UInt8.ofNat n]
  else if n < 0x10000 then 0xFC :: Bytes.ofNatLE 2 n
  else if n < 0x1000000 then 0xFD :: Bytes.ofNatLE 3 n
  else 0xFE :: Bytes.ofNatLE 8 n

/-- Bytes behind their length. -/
def lengthEncodedBytes (bs : Bytes) : Bytes :=
  lengthEncoded bs.length ++ bs

/-- A text behind its length in bytes. -/
def lengthEncodedText (s : String) : Bytes :=
  lengthEncodedBytes (Utf8.encode s)

/-- Bytes with a NUL behind them. -/
def nulTerminated (bs : Bytes) : Bytes :=
  bs ++ [0]

/-- The eight bytes of a floating-point number. -/
def double (x : Double) : Bytes :=
  Bytes.ofNatLE 8 x.bits.toNat

/-- The four bytes of a floating-point number. -/
def single (x : Single) : Bytes :=
  Bytes.ofNatLE 4 x.bits.toNat

end SqlWire.Layout
