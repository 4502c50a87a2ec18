import SqlWire.Parameter
import SqlWire.Writer

/-!
# Writing parameters

The writers of the kinds of values, which write to the buffer of a statement or of a parameter block
piece by piece: `Value.writeTextAs` and `Value.writeBinaryAs` for a given kind, and
`Value.writeText` and `Value.writeBinary` for the first kind that accepts the value.
-/

namespace SqlWire.Value

open Writer

/-! ### Literals -/

/-- The literal with the given content. -/
def writeQuoted (mode : Quoted.Escaping) (content : Bytes) : Writer Unit := do
  put [Quoted.quote]
  put (Quoted.escape mode content)
  put [Quoted.quote]

/-- The literal of a byte string, behind its introducer. -/
def writeByteString (mode : Quoted.Escaping) (content : Bytes) : Writer Unit := do
  put (plain "_binary '")
  put (Quoted.escape mode content)
  put [Quoted.quote]

/-- The literal that the writer of a kind writes for a value, of which at most `max` characters or
bytes are kept. -/
def writeTextAs (target : Target) (mode : Quoted.Escaping) (max : Option Nat) (v : Value) :
    Writer Unit :=
  match target, v with
  | .bool, .bool b => put (plain (if b then "1" else "0"))
  | .int8, .int8 i => put (plain (integerText i.toInt))
  | .int16, .int16 i => put (plain (integerText i.toInt))
  | .int32, .int32 i => put (plain (integerText i.toInt))
  | .int64, .int64 i => put (plain (integerText i.toInt))
  | .uint64, .uint64 n => put (plain (integerText n.toNat))
  | .float32, .float32 x => do put (← lift (finiteText x.isFinite x.toText .float32))
  | .float64, .float64 x => do put (← lift (finiteText x.isFinite x.toText .float64))
  | .decimal, .decimal d => put (plain d.toText)
  | .text, .text s => writeQuoted mode (Utf8.encode (String.ofList (truncated max s.toList)))
  | .bytes, .bytes bs => writeByteString mode (truncated max bs)
  | .date, .date d => writeQuoted mode (Utf8.encode d.toText)
  | .time, .time d => writeQuoted mode (Utf8.encode d.toText)
  | .dateTime, .dateTime t => writeQuoted mode (Utf8.encode (dateTimeText t))
  | .point, .point p => put (pointLiteral p)
  | .point, .geometry (.point p) => put (pointLiteral p)
  | .geometry, .geometry g => put (plain ("ST_GeomFromText('" ++ g.toText ++ "')"))
  | _, v => lift v.unsupported

/-- The literal of a value. -/
def writeText (mode : Quoted.Escaping) (max : Option Nat) (v : Value) : Writer Unit := do
  v.writeTextAs (← lift v.writer) mode max

/-! ### Binary fields -/

/-- Bytes behind their number. -/
def writeCounted (bs : Bytes) : Writer Unit := do
  put (Layout.lengthEncoded bs.length)
  put bs

/-- The year of a date, if it fits into two bytes. -/
def binaryYear (d : Date) : Except Error Nat :=
  if 0 ≤ d.year ∧ d.year ≤ 65535 then .ok d.year.natAbs
  else .error (.overflow d.toText Target.date.name)

/-- The year, month and day of a date. -/
def writeDay (year : Nat) (d : Date) : Writer Unit := do
  put (Bytes.ofNatLE 2 year)
  put [UInt8.ofNat d.month]
  put [UInt8.ofNat d.day]

/-- The microseconds of a field, unless they are zero. -/
def writeMicros (micros : Nat) : Writer Unit :=
  if micros = 0 then pure () else put (Bytes.ofNatLE 4 micros)

/-- The field of a date. -/
def writeDate (d : Date) : Writer Unit := do
  let year ← lift (binaryYear d)
  put [4]
  writeDay year d

/-- The days of a duration, if they fit into four bytes. -/
def binaryDays (d : Duration) : Except Error Nat :=
  if d.seconds / 86400 < 2 ^ 32 then .ok (d.seconds / 86400)
  else .error (.overflow d.toText Target.time.name)

/-- The field of a duration. -/
def writeTime (d : Duration) : Writer Unit := do
  let days ← lift (binaryDays d)
  put [if d.micros = 0 then 8 else 12]
  put [if d.isNegative then 1 else 0]
  put (Bytes.ofNatLE 4 days)
  put [UInt8.ofNat (d.seconds % 86400 / 3600)]
  put [UInt8.ofNat (d.seconds % 3600 / 60)]
  put [UInt8.ofNat (d.seconds % 60)]
  writeMicros d.micros

/-- The field of a time on a day. -/
def writeDateTime (t : DateTime) : Writer Unit := do
  let year ← lift (binaryYear t.date)
  let micros := t.time.nanosecond / 1000
  put [if micros = 0 then 7 else 11]
  writeDay year t.date
  put [UInt8.ofNat t.time.hour]
  put [UInt8.ofNat t.time.minute]
  put [UInt8.ofNat t.time.second]
  writeMicros micros

/-- The number of bytes in the field of a point: those of the spatial reference, the byte order, the
shape and the two coordinates. -/
def pointLength : Nat := 25

/-- The field of a point: a zero spatial reference and the well-known binary body. -/
def writePoint (p : Point) : Writer Unit := do
  put (Layout.lengthEncoded pointLength)
  put (Bytes.ofNatLE 4 0)
  put (Geometry.header .point)
  put (Layout.double p.x)
  put (Layout.double p.y)

/-- The field of a geometry, whose body is made before its length is written. -/
def writeGeometry (g : Geometry) : Writer Unit := do
  let body := g.toBinary
  put (Layout.lengthEncoded (4 + body.length))
  put (Bytes.ofNatLE 4 0)
  put body

/-- The field that the writer of a kind writes for a value, of which at most `max` bytes are
kept. -/
def writeBinaryAs (target : Target) (max : Option Nat) (v : Value) : Writer Unit :=
  match target, v with
  | .bool, .bool b => put [if b then 1 else 0]
  | .int8, .int8 i => put (Bytes.ofIntLE 1 i.toInt)
  | .int16, .int16 i => put (Bytes.ofIntLE 2 i.toInt)
  | .int32, .int32 i => put (Bytes.ofIntLE 4 i.toInt)
  | .int64, .int64 i => put (Bytes.ofIntLE 8 i.toInt)
  | .uint64, .uint64 n => put (Bytes.ofNatLE 8 n.toNat)
  | .float32, .float32 x => put (Layout.single x)
  | .float64, .float64 x => put (Layout.double x)
  | .decimal, .decimal d => writeCounted (Utf8.encode d.toText)
  | .text, .text s => writeCounted (truncated max (Utf8.encode s))
  | .bytes, .bytes bs => writeCounted (truncated max bs)
  | .date, .date d => writeDate d
  | .time, .time d => writeTime d
  | .dateTime, .dateTime t => writeDateTime t
  | .point, .point p => writePoint p
  | .point, .geometry (.point p) => writePoint p
  | .geometry, .geometry g => writeGeometry g
  | _, v => lift v.unsupported

/-- The field of a value; the outcome is the type announced for it. -/
def writeBinary (max : Option Nat) (v : Value) : Writer WireType := do
  let target ← lift v.writer
  v.writeBinaryAs target max
  return target.wireType

end SqlWire.Value
