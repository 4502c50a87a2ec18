import SqlWire.Column.Field

/-!
# Rows

The type `Row` of rows whose fields have been told apart, the functions `Row.ofText` and
`Row.ofBinary` that split a payload into its fields, and the payloads `Row.textPayload` and
`Row.binaryPayload` of given fields.  In text form every field is a length-encoded string or the
NULL marker.  In binary form a bitmap in front, whose first two bits are not used, marks the null
fields, and the others follow in the form of their types.
-/

namespace SqlWire

/-- A row: the columns of its result, and a field for each, null fields being nothing. -/
structure Row where
  columns : Columns
  fields : List (Option Bytes)
  protocol : Protocol
  deriving DecidableEq, Repr

namespace Row

/-! ### Splitting payloads -/

/-- One field in text form for each column. -/
def readTextFields : Columns → Reader (List (Option Bytes))
  | [] => return []
  | _ :: cs => do
    let field ← Reader.lengthEncodedBytes
    return field :: (← readTextFields cs)

/-- A field that is not null in the binary form of its type. -/
def readBinaryField (c : Column) : Reader Bytes := do
  match c.type.binaryWidth with
  | some w => Reader.bytes w
  | none =>
    match ← Reader.lengthEncodedBytes with
    | some bs => return bs
    | none => Reader.fail (.protocol .nullLength)

/-- The `i`-th bit of a bitmap, the lowest bit of its first byte being the first. -/
def bit (bitmap : Bytes) (i : Nat) : Bool :=
  (bitmap.getD (i / 8) 0).toNat.testBit (i % 8)

/-- One field in binary form for each column, the first of which has the given bit in the bitmap. -/
def readBinaryFields (bitmap : Bytes) : Nat → Columns → Reader (List (Option Bytes))
  | _, [] => return []
  | i, c :: cs => do
    if bit bitmap i then return none :: (← readBinaryFields bitmap (i + 1) cs)
    else
      let field ← readBinaryField c
      return some field :: (← readBinaryFields bitmap (i + 1) cs)

/-- The number of bytes of the bitmap for `n` columns. -/
def bitmapWidth (n : Nat) : Nat :=
  (n + 9) / 8

/-- The fields of a row in binary form. -/
def readBinary (cs : Columns) : Reader (List (Option Bytes)) := do
  let header ← Reader.byte
  if header = 0 then
    let bitmap ← Reader.bytes (bitmapWidth cs.length)
    readBinaryFields bitmap 2 cs
  else Reader.fail (.protocol (.rowHeader header))

/-- The row of a payload in text form. -/
def ofText (cs : Columns) (payload : Bytes) : Except Error Row := do
  return ⟨cs, ← (readTextFields cs).run payload, .text⟩

/-- The row of a payload in binary form. -/
def ofBinary (cs : Columns) (payload : Bytes) : Except Error Row := do
  return ⟨cs, ← (readBinary cs).run payload, .binary⟩

/-- The row of a payload in the given form. -/
def ofPayload (p : Protocol) (cs : Columns) (payload : Bytes) : Except Error Row :=
  match p with
  | .text => ofText cs payload
  | .binary => ofBinary cs payload

/-! ### Payloads -/

/-- The payload of fields in text form. -/
def textPayload (fields : List (Option Bytes)) : Bytes :=
  fields.flatMap fun field =>
    match field with
    | none => [0xFB]
    | some bs => Layout.lengthEncodedBytes bs

/-- The bytes whose bits are the given ones, lowest first. -/
def bitmapOf : Nat → List Bool → Bytes
  | 0, _ => []
  | w + 1, bits =>
    UInt8.ofNat ((bits.take 8).foldr (fun b n => 2 * n + b.toNat) 0) :: bitmapOf w (bits.drop 8)

/-- A field that is not null, in the binary form of its type. -/
def binaryField (c : Column) (bs : Bytes) : Bytes :=
  match c.type.binaryWidth with
  | some _ => bs
  | none => Layout.lengthEncodedBytes bs

/-- The payload of fields in binary form. -/
def binaryPayload (cs : Columns) (fields : List (Option Bytes)) : Bytes :=
  0 :: bitmapOf ((cs.length + 9) / 8) ([false, false] ++ fields.map Option.isNone)
    ++ (List.zipWith (fun c field => (field.map (binaryField c)).getD []) cs fields).flatten

/-! ### Values -/

/-- The number of fields. -/
def length (r : Row) : Nat :=
  r.fields.length

/-- The column at a place. -/
def column (r : Row) (i : Nat) : Except Error Column :=
  match r.columns[i]? with
  | some c => .ok c
  | none => .error (.protocol (.columnOutOfRange i r.length))

/-- The field at a place, which is nothing if it is null or missing. -/
def field? (r : Row) (i : Nat) : Option Bytes :=
  (r.fields[i]?).join

/-- The value of the given kind at a place, which is nothing if the field is null. -/
def get (r : Row) (target : Target) (i : Nat) : Except Error (Option Value) := do
  let c ← r.column i
  match r.field? i with
  | none => return none
  | some bs => return some (← c.decode r.protocol target bs)

/-- The value of the given kind in the column of a name. -/
def getByName (r : Row) (target : Target) (name : String) : Except Error (Option Value) :=
  match Columns.find? name r.columns with
  | some i => r.get target i
  | none => .error (.protocol (.noColumn name))

/-- The value of the natural kind at a place. -/
def getValue (r : Row) (i : Nat) : Except Error Value := do
  let c ← r.column i
  match r.field? i with
  | none => return .null
  | some bs => c.decodeNatural r.protocol bs

/-- The values of the natural kinds of all fields. -/
def values (r : Row) : Except Error (List Value) :=
  (List.range r.length).mapM r.getValue

/-- The field at a place is null. -/
def isNull (r : Row) (i : Nat) : Bool :=
  r.fields[i]? == some none

/-- The type of the column at a place. -/
def type? (r : Row) (i : Nat) : Option WireType :=
  r.columns[i]?.map (·.type)

end Row

end SqlWire
