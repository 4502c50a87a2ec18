import SqlWire.Calendar.Basic
import SqlWire.Geometry.Text
import SqlWire.Number.Decimal
import SqlWire.Text.Utf8

/-!
# Values

The kinds `Target` of values that fields are read as and parameters are given as, in the order in
which parameters look for their writer; and the type `Value` of values of any kind, with the null
value among them.
-/

namespace SqlWire

/-- A kind of value. -/
inductive Target where
  | bool | int8 | int16 | int32 | int64 | uint64 | float32 | float64 | decimal | text | bytes
  | date | time | dateTime | point | geometry
  deriving DecidableEq, Repr, Inhabited

namespace Target

/-- The name of a kind. -/
def name : Target → String
  | bool => "bool"
  | int8 => "i8"
  | int16 => "i16"
  | int32 => "i32"
  | int64 => "i64"
  | uint64 => "u64"
  | float32 => "f32"
  | float64 => "f64"
  | decimal => "Decimal"
  | text => "String"
  | bytes => "Vec<u8>"
  | date => "NaiveDate"
  | time => "Duration"
  | dateTime => "NaiveDateTime"
  | point => "Point"
  | geometry => "Geometry"

/-- Every kind, in the order in which parameters look for their writer. -/
def all : List Target :=
  [bool, int8, int16, int32, int64, uint64, float32, float64, decimal, text, bytes, date, time,
    dateTime, point, geometry]

/-- The kind with the given name, if there is one. -/
def ofName? (s : String) : Option Target :=
  all.find? (·.name == s)

end Target

/-- A value of a column or parameter. -/
inductive Value where
  | null
  | bool (b : Bool)
  | int8 (i : Int8)
  | int16 (i : Int16)
  | int32 (i : Int32)
  | int64 (i : Int64)
  | uint64 (n : UInt64)
  | float32 (x : Single)
  | float64 (x : Double)
  | decimal (d : Decimal)
  | text (s : String)
  | bytes (bs : Bytes)
  | date (d : Date)
  | time (d : Duration)
  | dateTime (t : DateTime)
  | point (p : Point)
  | geometry (g : Geometry)
  deriving Repr, Inhabited

namespace Value

/-- The kind of a value; the null value has none. -/
def target? : Value → Option Target
  | null => none
  | bool _ => some .bool
  | int8 _ => some .int8
  | int16 _ => some .int16
  | int32 _ => some .int32
  | int64 _ => some .int64
  | uint64 _ => some .uint64
  | float32 _ => some .float32
  | float64 _ => some .float64
  | decimal _ => some .decimal
  | text _ => some .text
  | bytes _ => some .bytes
  | date _ => some .date
  | time _ => some .time
  | dateTime _ => some .dateTime
  | point _ => some .point
  | geometry _ => some .geometry

/-- The name of a value's kind. -/
def typeName (v : Value) : String :=
  match v.target? with
  | none => "null"
  | some t => t.name

/-- The value is null. -/
def isNull : Value → Bool
  | null => true
  | _ => false

/-- The text that a value is. -/
def text? : Value → Option String
  | text s => some s
  | _ => none

/-- The integer of 64 bits that a truth value or an integer is, if it fits. -/
def int64? : Value → Option Int64
  | bool b => some (if b then 1 else 0)
  | int8 i => some i.toInt64
  | int16 i => some i.toInt64
  | int32 i => some i.toInt64
  | int64 i => some i
  | uint64 n => if n.toNat < 2 ^ 63 then some (Int64.ofNat n.toNat) else none
  | _ => none

/-- The bytes that a byte string or a text is. -/
def bytes? : Value → Option Bytes
  | bytes bs => some bs
  | text s => some (Utf8.encode s)
  | _ => none

/-- The text of an integer. -/
def integerText (i : Int) : String :=
  toString i

/-- The display text of a value. -/
def toText : Value → String
  | null => "NULL"
  | bool b => if b then "true" else "false"
  | int8 i => integerText i.toInt
  | int16 i => integerText i.toInt
  | int32 i => integerText i.toInt
  | int64 i => integerText i.toInt
  | uint64 n => integerText n.toNat
  | float32 x => x.toText
  | float64 x => x.toText
  | decimal d => d.toText
  | text s => s
  | bytes bs => "<BYTES: " ++ toString bs.length ++ " bytes>"
  | date d => d.toText
  | time d => d.toText
  | dateTime t => t.toText
  | point p => p.toText
  | geometry g => g.toText

end Value

end SqlWire
