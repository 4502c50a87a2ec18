import SqlWire.BitField
import SqlWire.Calendar.Reading
import SqlWire.Column.Basic
import SqlWire.Geometry.Binary
import SqlWire.Number.Reading

/-!
# Fields

The readers of the fields of a column: `Column.readAs` for a value of a given kind, and
`Column.readNatural` for a value of the kind that the column's type suggests.  A field is read in
one of two protocols: as text, or in the binary form of its type, where decimals, strings, bit
fields and geometries look the same in both.  A kind that the type does not admit is a mismatch, and
the field is then passed over.
-/

namespace SqlWire

/-- The forms in which rows are sent. -/
inductive Protocol where
  | text
  | binary
  deriving DecidableEq, Repr, Inhabited

/-- The families of types that are read alike.  Strings are bytes or text by their character set. -/
inductive Family where
  | integer | float | decimal | text | bytes | bit | calendar | time | geometry | null
  deriving DecidableEq, Repr

namespace Column

/-- The family of the column's type. -/
def family (c : Column) : Family :=
  match c.type with
  | .tiny | .short | .int24 | .long | .longLong | .year => .integer
  | .float | .double => .float
  | .oldDecimal | .newDecimal => .decimal
  | .varchar | .varString | .string | .enumeration | .set | .json
  | .tinyBlob | .mediumBlob | .longBlob | .blob => if c.isBinary then .bytes else .text
  | .bit => .bit
  | .date | .newDate | .dateTime | .timestamp => .calendar
  | .time => .time
  | .geometry => .geometry
  | .null => .null

/-- The failure of a kind that the column's type does not admit; the field is passed over, as far as
there are bytes. -/
def mismatch {α : Type} (c : Column) (length : Nat) (target : String) : Reader α := do
  Reader.skipAtMost length
  Reader.fail (.typeMismatch c.type target)

/-! ### Integers -/

/-- The integer part of a number in text, or the number of a bit field. -/
def readIntegerText (c : Column) (length : Nat) (target : String) : Reader Int :=
  match c.family with
  | .integer | .float | .decimal | .text => do
    let s ← Reader.text length
    Reader.lift (Number.readInteger s target)
  | .bit => do
    return ((BitField.value (← Reader.bytes length)).toNat : Int)
  | _ => c.mismatch length target

/-- The integer of `w` bytes, with a sign if the column has signs. -/
def readFixed (c : Column) (w : Nat) : Reader Int := do
  if c.isSigned then Reader.sint w else return (← Reader.uint w : Nat)

/-- The integer of a field in binary form; a medium integer is followed by a byte of filling, and a
floating-point number loses its fraction. -/
def readIntegerBinary (c : Column) (length : Nat) (target : String) : Reader Int :=
  match c.type with
  | .tiny => c.readFixed 1
  | .short => c.readFixed 2
  | .year => do return (← Reader.uint 2 : Nat)
  | .int24 => do
    let i ← c.readFixed 3
    Reader.skip 1
    return i
  | .long => c.readFixed 4
  | .longLong => c.readFixed 8
  | .float => do
    let x ← Reader.single
    Reader.lift (Number.truncate x.toDouble target)
  | .double => do
    let x ← Reader.double
    Reader.lift (Number.truncate x target)
  | _ => c.readIntegerText length target

/-- The integer of a field. -/
def readInteger (c : Column) (p : Protocol) (length : Nat) (target : String) : Reader Int :=
  match p with
  | .text => c.readIntegerText length target
  | .binary => c.readIntegerBinary length target

/-- The integer of a field, which has to lie between the bounds of the kind. -/
def readNarrow (c : Column) (p : Protocol) (length : Nat) (least greatest : Int) (target : Target) :
    Reader Int := do
  let i ← c.readInteger p length target.name
  Reader.lift (Number.narrow least greatest i target.name)

/-- The first byte of a bit field, with a sign; the rest of the field is passed over. -/
def readBitByte (length : Nat) : Reader Int := do
  if length = 0 then Reader.fail (.malformed "" Target.int8.name)
  else
    let i ← Reader.sint 1
    Reader.skip (length - 1)
    return i

/-- The integer of one byte of a field. -/
def readInt8 (c : Column) (p : Protocol) (length : Nat) : Reader Int :=
  match c.type with
  | .bit => readBitByte length
  | _ => c.readNarrow p length (-128) 127 .int8

/-! ### Other numbers, and truth values -/

/-- The floating-point number of a field. -/
def readDouble (c : Column) (p : Protocol) (length : Nat) : Reader Double :=
  match c.family, p with
  | .integer, .binary => do
    return .ofInt (← c.readIntegerBinary length Target.float64.name)
  | .float, .binary =>
    match c.type with
    | .float => do return (← Reader.single).toDouble
    | _ => Reader.double
  | .integer, .text | .float, .text | .decimal, _ | .text, _ => do
    let s ← Reader.text length
    Reader.lift (Number.readDouble s Target.float64.name)
  | .bit, _ => do
    return .ofInt (BitField.value (← Reader.bytes length)).toNat
  | _, _ => c.mismatch length Target.float64.name

/-- The floating-point number of four bytes of a field. -/
def readSingle (c : Column) (p : Protocol) (length : Nat) : Reader Single :=
  if c.type = .float ∧ p = .binary then Reader.single
  else
    match c.family with
    | .bytes | .calendar | .time | .geometry | .null => c.mismatch length Target.float32.name
    | _ => do return (← c.readDouble p length).toSingle

/-- The decimal that an integer or a floating-point number is, if there is one. -/
def decimalOr (d : Option Decimal) (text : String) : Except Error Decimal :=
  match d with
  | some d => .ok d
  | none => .error (.overflow text Target.decimal.name)

/-- The decimal of a field. -/
def readDecimal (c : Column) (p : Protocol) (length : Nat) : Reader Decimal :=
  match c.family, p with
  | .integer, .binary => do
    let i ← c.readIntegerBinary length Target.decimal.name
    Reader.lift (decimalOr (Decimal.ofInt? i) (toString i))
  | .float, .binary => do
    let x ← c.readDouble p length
    Reader.lift (decimalOr (Decimal.ofDouble? x) x.toText)
  | .integer, .text | .float, .text | .decimal, _ | .text, _ => do
    let s ← Reader.text length
    Reader.lift (Number.readDecimal s Target.decimal.name)
  | .bit, _ => do
    return Decimal.ofUInt64 (BitField.value (← Reader.bytes length))
  | _, _ => c.mismatch length Target.decimal.name

/-- The truth value of a field: a number other than zero, or a text other than `0`. -/
def readBool (c : Column) (p : Protocol) (length : Nat) : Reader Bool :=
  match c.family, p with
  | .text, _ => do return (← Reader.text length) != "0"
  | .bit, _ => do return BitField.value (← Reader.bytes length) != 0
  | .integer, _ => do return (← c.readInteger p length Target.bool.name) != 0
  | .float, .binary => do return !(← c.readDouble p length).datum.isZero
  | .float, .text | .decimal, _ => do
    let s ← Reader.text length
    let d ← Reader.lift (Number.readDecimal s Target.bool.name)
    return !d.isZero
  | _, _ => c.mismatch length Target.bool.name

/-! ### Texts and bytes -/

/-- The text starts with the zero date. -/
def startsWithZeroDate (s : String) : Bool :=
  zeroDate.toList.isPrefixOf s.toList

/-- The text of a field in text form; the policy may refuse zero dates in calendar columns. -/
def readPlainText (c : Column) (length : Nat) : Reader String := do
  let s ← Reader.text length
  if c.type.isCalendar && c.zeroDates == .reject && startsWithZeroDate s then
    Reader.fail (.malformed s Target.text.name)
  else return s

/-- The text of a field in binary form, where decimals and strings are texts already. -/
def readBinaryText (c : Column) (length : Nat) : Reader String :=
  match c.type with
  | .year => do return Digits.pad c.length.toNat (← Reader.uint 2)
  | .tiny | .short | .int24 | .long | .longLong => do
    return toString (← c.readIntegerBinary length Target.text.name)
  | .float => do return (← Reader.single).toText
  | .double => do return (← Reader.double).toText
  | .time => do return (← TimeField.read length).toText length c.decimals.toNat
  | .date | .newDate => do
    let f ← DateTimeField.read length
    Reader.lift (f.dateText length c.zeroDates)
  | .dateTime | .timestamp => do
    let f ← DateTimeField.read length
    Reader.lift (f.dateTimeText length c.decimals.toNat c.zeroDates)
  | _ => Reader.text length

/-- The text of a field. -/
def readText (c : Column) (p : Protocol) (length : Nat) : Reader String :=
  match c.family, p with
  | .bit, _ => do return BitField.literal (← Reader.bytes length)
  | .geometry, _ | .null, _ => c.mismatch length Target.text.name
  | _, .text => c.readPlainText length
  | _, .binary => c.readBinaryText length

/-- The bytes of a field. -/
def readBytes (c : Column) (length : Nat) : Reader Bytes :=
  match c.family with
  | .bit | .text | .bytes | .geometry => Reader.bytes length
  | _ => c.mismatch length Target.bytes.name

/-! ### Dates and times -/

/-- The literal of the column's zero date. -/
def zeroLiteral (c : Column) : String :=
  if c.type.isDateOnly then zeroDate else zeroDateTime

/-- The parts of a calendar field, which must not be a zero date. -/
def readCalendar (c : Column) (length : Nat) (target : String) : Reader DateTimeField := do
  let f ← DateTimeField.read length
  if f.isZeroDate then Reader.fail (.malformed c.zeroLiteral target) else return f

/-- What a calendar field denotes, if anything. -/
def denoted {α : Type} (f : DateTimeField) (a : Option α) (target : String) : Except Error α :=
  match a with
  | some a => .ok a
  | none => .error (.malformed f.inspect target)

/-- The date of a field. -/
def readDate (c : Column) (p : Protocol) (length : Nat) : Reader Date :=
  match c.family, p with
  | .calendar, .binary => do
    let f ← c.readCalendar length Target.date.name
    Reader.lift (denoted f f.date? Target.date.name)
  | .calendar, .text | .text, _ => do
    let s ← Reader.text length
    Reader.lift (Temporal.readDate s Target.date.name)
  | _, _ => c.mismatch length Target.date.name

/-- The date and time of a field. -/
def readDateTime (c : Column) (p : Protocol) (length : Nat) : Reader DateTime :=
  match c.family, p with
  | .calendar, .binary => do
    let f ← c.readCalendar length Target.dateTime.name
    Reader.lift (denoted f f.dateTime? Target.dateTime.name)
  | .calendar, .text | .text, _ => do
    let s ← Reader.text length
    Reader.lift (Temporal.readDateTime s Target.dateTime.name)
  | _, _ => c.mismatch length Target.dateTime.name

/-- The duration of a field. -/
def readTime (c : Column) (p : Protocol) (length : Nat) : Reader Duration :=
  match c.family, p with
  | .time, .binary => do return (← TimeField.read length).toDuration
  | .time, .text | .text, _ => do
    let s ← Reader.text length
    Reader.lift (Temporal.readDuration s Target.time.name)
  | _, _ => c.mismatch length Target.time.name

/-! ### Geometries -/

/-- The geometry of a field. -/
def readGeometry (c : Column) (length : Nat) : Reader Geometry :=
  match c.type with
  | .geometry => Geometry.readField length
  | _ => c.mismatch length Target.geometry.name

/-- The point of a field; a geometry of another shape is a mismatch. -/
def readPoint (c : Column) (length : Nat) : Reader Point := do
  match ← c.readGeometry length with
  | .point p => return p
  | _ => Reader.fail (.typeMismatch .geometry Target.point.name)

/-! ### Kinds -/

/-- The value of the given kind of a field. -/
def readAs (c : Column) (p : Protocol) (target : Target) (length : Nat) : Reader Value :=
  match target with
  | .bool => do return .bool (← c.readBool p length)
  | .int8 => do return .int8 (.ofInt (← c.readInt8 p length))
  | .int16 => do return .int16 (.ofInt (← c.readNarrow p length (-32768) 32767 .int16))
  | .int32 => do return .int32 (.ofInt (← c.readNarrow p length (-2147483648) 2147483647 .int32))
  | .int64 => do
    return .int64 (.ofInt
      (← c.readNarrow p length (-9223372036854775808) 9223372036854775807 .int64))
  | .uint64 => do
    return .uint64 (.ofNat (← c.readNarrow p length 0 18446744073709551615 .uint64).toNat)
  | .float32 => do return .float32 (← c.readSingle p length)
  | .float64 => do return .float64 (← c.readDouble p length)
  | .decimal => do return .decimal (← c.readDecimal p length)
  | .text => do return .text (← c.readText p length)
  | .bytes => do return .bytes (← c.readBytes length)
  | .date => do return .date (← c.readDate p length)
  | .time => do return .time (← c.readTime p length)
  | .dateTime => do return .dateTime (← c.readDateTime p length)
  | .point => do return .point (← c.readPoint length)
  | .geometry => do return .geometry (← c.readGeometry length)

/-- The kind that the column's type suggests; the null type suggests none. -/
def naturalTarget (c : Column) : Option Target :=
  match c.type with
  | .tiny => some (if c.isSigned then .int8 else .int16)
  | .year => some .int16
  | .short => some (if c.isSigned then .int16 else .int32)
  | .int24 => some .int32
  | .long => some (if c.isSigned then .int32 else .int64)
  | .longLong => some (if c.isSigned then .int64 else .uint64)
  | .float => some .float32
  | .double => some .float64
  | .oldDecimal | .newDecimal => some .decimal
  | .bit => some (if c.length = 1 then .bool else .bytes)
  | .time => some .time
  | .date | .newDate => some .date
  | .dateTime | .timestamp => some .dateTime
  | .geometry => some .geometry
  | .null => none
  | .varchar | .varString | .string | .enumeration | .set | .json
  | .tinyBlob | .mediumBlob | .longBlob | .blob => some (if c.isBinary then .bytes else .text)

/-- The name of the natural kind in failures of a calendar field. -/
def naturalName : String := "Value"

/-- The date, or date and time, of a calendar field in text form; a zero date is its own text, or
refused by policy. -/
def readNaturalCalendarText (c : Column) (length : Nat) : Reader Value := do
  let s ← Reader.text length
  if startsWithZeroDate s then
    match c.zeroDates with
    | .literal => return .text s
    | .reject => Reader.fail (.malformed s naturalName)
  else if c.type.isDateOnly then
    return .date (← Reader.lift (Temporal.readDate s Target.date.name))
  else
    return .dateTime (← Reader.lift (Temporal.readDateTime s Target.dateTime.name))

/-- The date, or date and time, of a calendar field in binary form; a zero date is its literal, or
refused by policy. -/
def readNaturalCalendarBinary (c : Column) (length : Nat) : Reader Value := do
  let f ← DateTimeField.read length
  if f.isZeroDate then
    if c.type.isDateOnly then return .text (← Reader.lift (f.dateText length c.zeroDates))
    else return .text (← Reader.lift (f.dateTimeText length c.decimals.toNat c.zeroDates))
  else if c.type.isDateOnly then
    return .date (← Reader.lift (denoted f f.date? naturalName))
  else
    return .dateTime (← Reader.lift (denoted f f.dateTime? naturalName))

/-- The value of the kind that the column's type suggests. -/
def readNatural (c : Column) (p : Protocol) (length : Nat) : Reader Value :=
  if c.type.isCalendar then
    match p with
    | .text => c.readNaturalCalendarText length
    | .binary => c.readNaturalCalendarBinary length
  else
    match c.naturalTarget with
    | some target => c.readAs p target length
    | none => do
      Reader.skip length
      return .null

/-! ### Whole fields -/

/-- The column's number can be read: a number or a bit field, or text. -/
def admitsNumbers (c : Column) : Bool :=
  match c.family with
  | .integer | .float | .decimal | .text | .bit => true
  | _ => false

/-- The column's fields can be read as values of the given kind. -/
def admits (c : Column) : Target → Bool
  | .bool | .int8 | .int16 | .int32 | .int64 | .uint64 | .float32 | .float64 | .decimal =>
    c.admitsNumbers
  | .text => c.type != .geometry && c.type != .null
  | .bytes => c.type.isString || c.type == .bit || c.type == .geometry
  | .date | .dateTime => c.type.isCalendar || c.family == .text
  | .time => c.type == .time || c.family == .text
  | .point | .geometry => c.type == .geometry

/-- The value of the given kind that a field is; kinds that the column does not admit are refused
before the field is read. -/
def decode (c : Column) (p : Protocol) (target : Target) (field : Bytes) : Except Error Value :=
  if c.admits target then (c.readAs p target field.length).run field
  else .error (.typeMismatch c.type target.name)

/-- The value of the natural kind that a field is. -/
def decodeNatural (c : Column) (p : Protocol) (field : Bytes) : Except Error Value :=
  (c.readNatural p field.length).run field

end Column

end SqlWire
