import SqlWire.Error
import SqlWire.Geometry.Binary
import SqlWire.Layout
import SqlWire.Text.Quoted
import SqlWire.Value

/-!
# Parameters

The bytes of a parameter, as a literal in the text of a statement, `Value.textBytes`, and as a field
of a prepared statement, `Value.binaryBytes`.  Each kind of value has its own; a value is written as
the first kind that accepts it.  The bytes come behind those of the statement or the parameter
block, `append`, and a failure leaves those as they were.
-/

namespace SqlWire

/-- The escaping that a server asks for by its status. -/
def Quoted.Escaping.ofStatus (status : UInt16) : Quoted.Escaping :=
  if status &&& 0x0200 != 0 then .quotesOnly else .backslash

/-- The type announced for parameters of a kind. -/
def Target.wireType : Target → WireType
  | bool | int8 => .tiny
  | int16 => .short
  | int32 => .long
  | int64 | uint64 => .longLong
  | float32 => .float
  | float64 => .double
  | decimal => .newDecimal
  | text => .varString
  | bytes => .blob
  | date => .date
  | time => .time
  | dateTime => .dateTime
  | point | geometry => .blob

/-- The value is written by the writer of the kind: points are also the geometries that are
points. -/
def Target.accepts : Target → Value → Bool
  | point, .geometry (.point _) => true
  | target, v => v.target? == some target

namespace Value

/-- The first kind that accepts a value. -/
def writer? (v : Value) : Option Target :=
  Target.all.find? (·.accepts v)

/-- The failure for a value that is not accepted. -/
def unsupported {α : Type} (v : Value) : Except Error α :=
  .error (.unsupportedValue v.typeName)

/-- The first kind that accepts a value; the null value has none. -/
def writer (v : Value) : Except Error Target :=
  match v.writer? with
  | some target => .ok target
  | none => v.unsupported

/-- The first elements of a list, as many as the limit says. -/
def truncated {α : Type} (max : Option Nat) (as : List α) : List α :=
  match max with
  | none => as
  | some n => as.take n

/-! ### Literals -/

/-- The ASCII bytes of a text. -/
def plain (s : String) : Bytes :=
  Utf8.encode s

/-- The literal with the given text. -/
def quoted (mode : Quoted.Escaping) (s : String) : Bytes :=
  Quoted.literal mode (Utf8.encode s)

/-- The text of a floating-point number, which statements have for finite ones alone. -/
def finiteText (finite : Bool) (text : String) (target : Target) : Except Error Bytes :=
  if finite then .ok (plain text) else .error (.overflow text target.name)

/-- The text of a time on a day: the fraction of the second in six digits, if it has a
microsecond. -/
def dateTimeText (t : DateTime) : String :=
  if 1000 ≤ t.time.nanosecond then t.toSecondText ++ t.time.microText else t.toSecondText

/-- The literal of a point. -/
def pointLiteral (p : Point) : Bytes :=
  plain ("ST_PointFromText('" ++ p.toText ++ "')")

/-- The literal that the writer of a kind gives for a value, of which at most `max` characters or
bytes are kept. -/
def textBytesAs (target : Target) (mode : Quoted.Escaping) (max : Option Nat) (v : Value) :
    Except Error Bytes :=
  match target, v with
  | .bool, .bool b => .ok (plain (if b then "1" else "0"))
  | .int8, .int8 i => .ok (plain (integerText i.toInt))
  | .int16, .int16 i => .ok (plain (integerText i.toInt))
  | .int32, .int32 i => .ok (plain (integerText i.toInt))
  | .int64, .int64 i => .ok (plain (integerText i.toInt))
  | .uint64, .uint64 n => .ok (plain (integerText n.toNat))
  | .float32, .float32 x => finiteText x.isFinite x.toText .float32
  | .float64, .float64 x => finiteText x.isFinite x.toText .float64
  | .decimal, .decimal d => .ok (plain d.toText)
  | .text, .text s => .ok (quoted mode (String.ofList (truncated max s.toList)))
  | .bytes, .bytes bs =>
    .ok (plain "_binary " ++ Quoted.literal mode (truncated max bs))
  | .date, .date d => .ok (quoted mode d.toText)
  | .time, .time d => .ok (quoted mode d.toText)
  | .dateTime, .dateTime t => .ok (quoted mode (dateTimeText t))
  | .point, .point p => .ok (pointLiteral p)
  | .point, .geometry (.point p) => .ok (pointLiteral p)
  | .geometry, .geometry g => .ok (plain ("ST_GeomFromText('" ++ g.toText ++ "')"))
  | _, v => v.unsupported

/-- The literal of a value. -/
def textBytes (mode : Quoted.Escaping) (max : Option Nat) (v : Value) : Except Error Bytes := do
  v.textBytesAs (← v.writer) mode max

/-! ### Binary fields -/

/-- The year, month and day of a date whose year has two bytes. -/
def dateBytes (d : Date) : Except Error Bytes :=
  if 0 ≤ d.year ∧ d.year ≤ 65535 then
    .ok (Bytes.ofNatLE 2 d.year.natAbs ++ [UInt8.ofNat d.month, UInt8.ofNat d.day])
  else .error (.overflow d.toText Target.date.name)

/-- The microseconds of a field, which are left out when they are zero. -/
def microBytes (micros : Nat) : Bytes :=
  if micros = 0 then [] else Bytes.ofNatLE 4 micros

/-- Bytes behind their number, which takes one byte. -/
def counted (bs : Bytes) : Bytes :=
  UInt8.ofNat bs.length :: bs

/-- The field of a duration whose days have four bytes. -/
def timeBytes (d : Duration) : Except Error Bytes :=
  let days := d.seconds / 86400
  if days < 2 ^ 32 then
    .ok (counted ((if d.isNegative then 1 else 0) :: Bytes.ofNatLE 4 days
      ++ [UInt8.ofNat (d.seconds % 86400 / 3600), UInt8.ofNat (d.seconds % 3600 / 60),
        UInt8.ofNat (d.seconds % 60)]
      ++ microBytes d.micros))
  else .error (.overflow d.toText Target.time.name)

/-- The field of a time on a day. -/
def dateTimeBytes (t : DateTime) : Except Error Bytes := do
  let date ← dateBytes t.date
  return counted (date
    ++ [UInt8.ofNat t.time.hour, UInt8.ofNat t.time.minute, UInt8.ofNat t.time.second]
    ++ microBytes (t.time.nanosecond / 1000))

/-- The field of a geometry: a zero spatial reference and the well-known binary body. -/
def geometryBytes (g : Geometry) : Bytes :=
  Layout.lengthEncodedBytes ([0, 0, 0, 0] ++ g.toBinary)

/-- The field that the writer of a kind gives for a value, of which at most `max` bytes are kept. -/
def binaryBytesAs (target : Target) (max : Option Nat) (v : Value) : Except Error Bytes :=
  match target, v with
  | .bool, .bool b => .ok [if b then 1 else 0]
  | .int8, .int8 i => .ok (Bytes.ofIntLE 1 i.toInt)
  | .int16, .int16 i => .ok (Bytes.ofIntLE 2 i.toInt)
  | .int32, .int32 i => .ok (Bytes.ofIntLE 4 i.toInt)
  | .int64, .int64 i => .ok (Bytes.ofIntLE 8 i.toInt)
  | .uint64, .uint64 n => .ok (Bytes.ofNatLE 8 n.toNat)
  | .float32, .float32 x => .ok (Layout.single x)
  | .float64, .float64 x => .ok (Layout.double x)
  | .decimal, .decimal d => .ok (Layout.lengthEncodedText d.toText)
  | .text, .text s => .ok (Layout.lengthEncodedBytes (truncated max (Utf8.encode s)))
  | .bytes, .bytes bs => .ok (Layout.lengthEncodedBytes (truncated max bs))
  | .date, .date d => do return counted (← dateBytes d)
  | .time, .time d => timeBytes d
  | .dateTime, .dateTime t => dateTimeBytes t
  | .point, .point p => .ok (geometryBytes (.point p))
  | .point, .geometry (.point p) => .ok (geometryBytes (.point p))
  | .geometry, .geometry g => .ok (geometryBytes g)
  | _, v => v.unsupported

/-- The type announced for a value, and its field. -/
def binaryBytes (max : Option Nat) (v : Value) : Except Error (WireType × Bytes) := do
  let target ← v.writer
  return (target.wireType, ← v.binaryBytesAs target max)

end Value

/-- The bytes with what was written behind them; a failure leaves them as they are. -/
def append (out : Bytes) : Except Error Bytes → Except Error Unit × Bytes
  | .ok bs => (.ok (), out ++ bs)
  | .error e => (.error e, out)

end SqlWire
