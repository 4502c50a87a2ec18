/-!
# Wire types

The closed set `WireType` of type codes that column definitions and parameters carry, the code
`WireType.code` and display name `WireType.name` of each, the type `WireType.ofCode?` of a code, the
families of types that share a representation, and the width `WireType.binaryWidth` of a field in a
binary row.  Every code is read back as its type.
-/

namespace SqlWire

/-- The type of a column or parameter on the wire. -/
inductive WireType where
  | oldDecimal | tiny | short | long | float | double | null | timestamp | longLong | int24
  | date | time | dateTime | year | newDate | varchar | bit
  | json | newDecimal | enumeration | set | tinyBlob | mediumBlob | longBlob | blob
  | varString | string | geometry
  deriving DecidableEq, Repr, Inhabited

namespace WireType

/-- The code of a type on the wire. -/
def code : WireType → UInt8
  | oldDecimal => 0
  | tiny => 1
  | short => 2
  | long => 3
  | float => 4
  | double => 5
  | null => 6
  | timestamp => 7
  | longLong => 8
  | int24 => 9
  | date => 10
  | time => 11
  | dateTime => 12
  | year => 13
  | newDate => 14
  | varchar => 15
  | bit => 16
  | json => 245
  | newDecimal => 246
  | enumeration => 247
  | set => 248
  | tinyBlob => 249
  | mediumBlob => 250
  | longBlob => 251
  | blob => 252
  | varString => 253
  | string => 254
  | geometry => 255

/-- Every type, in the order of the codes. -/
def all : List WireType :=
  [oldDecimal, tiny, short, long, float, double, null, timestamp, longLong, int24, date, time,
    dateTime, year, newDate, varchar, bit, json, newDecimal, enumeration, set, tinyBlob, mediumBlob,
    longBlob, blob, varString, string, geometry]

/-- The type with the given code, if there is one. -/
def ofCode? (n : UInt8) : Option WireType :=
  all.find? (·.code == n)

/-- The display name of a type. -/
def name : WireType → String
  | oldDecimal => "OLDDECIMAL"
  | tiny => "TINYINT"
  | short => "SMALLINT"
  | long => "INTEGER"
  | float => "FLOAT"
  | double => "DOUBLE"
  | null => "NULL"
  | timestamp => "TIMESTAMP"
  | longLong => "BIGINT"
  | int24 => "MEDIUMINT"
  | date => "DATE"
  | time => "TIME"
  | dateTime => "DATETIME"
  | year => "YEAR"
  | newDate => "NEWDATE"
  | varchar => "VARCHAR"
  | bit => "BIT"
  | json => "JSON"
  | newDecimal => "DECIMAL"
  | enumeration => "ENUM"
  | set => "SET"
  | tinyBlob => "TINYBLOB"
  | mediumBlob => "MEDIUMBLOB"
  | longBlob => "LONGBLOB"
  | blob => "BLOB"
  | varString => "VARSTRING"
  | string => "STRING"
  | geometry => "GEOMETRY"

/-- The integer types, years among them. -/
def isInteger : WireType → Bool
  | tiny | short | int24 | long | longLong | year => true
  | _ => false

/-- The exact decimal types, carried as text in both protocols. -/
def isDecimal : WireType → Bool
  | oldDecimal | newDecimal => true
  | _ => false

/-- The character and byte string types. -/
def isString : WireType → Bool
  | varchar | varString | string | enumeration | set | json
  | tinyBlob | mediumBlob | longBlob | blob => true
  | _ => false

/-- The calendar types whose fields hold a date alone. -/
def isDateOnly : WireType → Bool
  | date | newDate => true
  | _ => false

/-- The calendar types: dates, and dates with a time of day. -/
def isCalendar : WireType → Bool
  | date | newDate | dateTime | timestamp => true
  | _ => false

/-- The width of a field in a binary row, or nothing where the field carries its own length. -/
def binaryWidth : WireType → Option Nat
  | tiny => some 1
  | short | year => some 2
  | int24 | long | float => some 4
  | longLong | double => some 8
  | null => some 0
  | _ => none

/-- Each code denotes its type. -/
theorem ofCode?_code
    (t : WireType) :
  ofCode? t.code = some t
  := by
  cases t <;> rfl

end WireType

end SqlWire
