import SqlWire.Calendar.DateTimeField
import SqlWire.Cursor
import SqlWire.Layout
import SqlWire.Text.Ascii
import SqlWire.Text.Uppercase

/-!
# Columns

The type `Column` of column descriptions, what their flags and character sets say, their display
size, precision and type name; the reader `Column.readDefinition` of the packet that describes a
column, and the bytes `Column.definition` of that packet; and `Columns`, the columns of a result in
order, which are found by name without regard to the case of ASCII letters.
-/

namespace SqlWire

/-- The character set whose texts are bytes. -/
def binaryCharset : Nat := 63

/-- The description of a column. -/
structure Column where
  schema : String
  table : String
  orgTable : String
  name : String
  orgName : String
  type : WireType
  charset : UInt16
  length : UInt32
  decimals : UInt8
  flags : UInt16
  extName : Option String
  extFormat : Option String
  zeroDates : ZeroDatePolicy
  deriving DecidableEq, Repr, Inhabited

namespace Column

/-- The column with a name and a type, and nothing else known of it. -/
def ofNameAndType (name : String) (type : WireType) : Column :=
  { schema := "", table := "", orgTable := "", name, orgName := "", type,
    charset := UInt16.ofNat binaryCharset, length := 0, decimals := 0, flags := 0,
    extName := none, extFormat := none, zeroDates := .literal }

/-! ### Flags and character sets -/

/-- A flag of the column: the bit of the given weight is set. -/
def hasFlag (c : Column) (weight : UInt16) : Bool :=
  c.flags &&& weight != 0

/-- The column's integers may be negative. -/
def isSigned (c : Column) : Bool :=
  !c.hasFlag 0x20

/-- The column holds bytes rather than text. -/
def isBinary (c : Column) : Bool :=
  c.charset.toNat == binaryCharset

/-- The column's numbers are filled up with zeros. -/
def isZeroFill (c : Column) : Bool :=
  c.hasFlag 0x40

/-- The column may hold null values. -/
def isNullable (c : Column) : Bool :=
  !c.hasFlag 0x01

/-- The number of bytes that a character of the column's character set takes at most. -/
def maxCharLength (c : Column) : Nat :=
  let n := c.charset.toNat
  if n = 33 ∨ n = 83 ∨ (192 ≤ n ∧ n ≤ 215) ∨ n = 223 then 3
  else if n = 45 ∨ n = 46 ∨ (224 ≤ n ∧ n ≤ 247) ∨ n = 255 then 4
  else if n = 35 ∨ n = 90 ∨ (128 ≤ n ∧ n ≤ 151) then 2
  else if n = 54 ∨ n = 55 ∨ (101 ≤ n ∧ n ≤ 124) ∨ n = 60 ∨ n = 61 ∨ (160 ≤ n ∧ n ≤ 183) then 4
  else 1

/-! ### Sizes and names -/

/-- The width of the column in characters. -/
def displaySize (c : Column) : Nat :=
  if c.type.isString && !c.isBinary then c.length.toNat / c.maxCharLength else c.length.toNat

/-- The number of digits of a decimal column, without the places of the sign and the point; the
width of any other. -/
def precision (c : Column) : Nat :=
  if c.type.isDecimal then
    c.length.toNat - (if c.isSigned then 1 else 0) - (if c.decimals = 0 then 0 else 1)
  else c.displaySize

/-- The name of a byte or text object, by its greatest length. -/
def objectName (c : Column) : String :=
  if c.isBinary then
    let n := c.length.toNat
    if n ≤ 255 then "TINYBLOB"
    else if n ≤ 65535 then "BLOB"
    else if n ≤ 16777215 then "MEDIUMBLOB"
    else "LONGBLOB"
  else
    let n := c.displaySize
    if n ≤ 65532 then "VARCHAR"
    else if n ≤ 65535 then "TEXT"
    else if n ≤ 16777215 then "MEDIUMTEXT"
    else "LONGTEXT"

/-- The name of the column's type as applications see it: the extended format if there is one, else
a name that says how the type's fields are to be understood. -/
def typeName (c : Column) : String :=
  match c.extFormat with
  | some format => Uppercase.ofString format
  | none =>
    match c.type with
    | .tinyBlob | .mediumBlob | .longBlob | .blob => c.objectName
    | .varString => if c.isBinary then "VARBINARY" else "VARCHAR"
    | .varchar => if c.isBinary then "VARBINARY" else WireType.varchar.name
    | .string => if c.isBinary then "BINARY" else "CHAR"
    | .newDate => "DATE"
    | .geometry =>
      match c.extName with
      | some name => Uppercase.ofString name
      | none => "GEOMETRY"
    | type => if !c.isSigned && type.isInteger then type.name ++ " UNSIGNED" else type.name

/-! ### The packet of a column -/

/-- An entry of the extended type information: a tag and a text. -/
structure Extension where
  tag : UInt8
  text : Option String
  deriving DecidableEq, Repr

/-- The next entry of the extended type information. -/
def readExtension : Reader Extension := do
  let tag ← Reader.byte
  let text ← Reader.lengthEncodedText
  return ⟨tag, text⟩

/-- All entries up to the end of the bytes; each takes one byte at least. -/
def readExtensions : Nat → Reader (List Extension)
  | 0 => return []
  | fuel + 1 => do
    if ← Reader.has 1 then
      let entry ← readExtension
      return entry :: (← readExtensions fuel)
    else return []

/-- The entries that some bytes hold. -/
def extensionsOf (bs : Bytes) : Except Error (List Extension) :=
  (readExtensions (bs.length + 1)).run bs

/-- The text of the last entry with the given tag. -/
def lastText (tag : UInt8) (entries : List Extension) : Option String :=
  (entries.reverse.find? (·.tag == tag)).bind (·.text)

/-- The extended type information, if it was agreed on. -/
def readExtended (extended : Bool) : Reader (List Extension) := do
  if extended then
    match ← Reader.lengthEncodedBytes with
    | none => return []
    | some bs => Reader.lift (extensionsOf bs)
  else return []

/-- A name of a column; the NULL marker stands for the empty one. -/
def readName : Reader String := do
  return (← Reader.lengthEncodedText).getD ""

/-- The type of a column. -/
def readType : Reader WireType := do
  let code ← Reader.byte
  match WireType.ofCode? code with
  | some type => return type
  | none => Reader.fail (.unsupportedType code)

/-- The description that a packet gives: six names, of which the first is not kept, the extended
type information if it was agreed on, and the fixed part behind its length. -/
def readDefinition (extended : Bool) : Reader Column := do
  let _ ← readName
  let schema ← readName
  let table ← readName
  let orgTable ← readName
  let name ← readName
  let orgName ← readName
  let entries ← readExtended extended
  let _ ← Reader.lengthEncoded
  let charset := UInt16.ofNat (← Reader.uint 2)
  let length := UInt32.ofNat (← Reader.uint 4)
  let type ← readType
  let flags := UInt16.ofNat (← Reader.uint 2)
  let decimals ← Reader.byte
  return { schema, table, orgTable, name, orgName, type, charset, length, decimals, flags,
           extName := lastText 0 entries, extFormat := lastText 1 entries, zeroDates := .literal }

/-- The bytes of an entry of the extended type information. -/
def Extension.bytes (e : Extension) : Bytes :=
  e.tag :: (e.text.map Layout.lengthEncodedText).getD [0xFB]

/-- The bytes of the packet that describes a column, with the given entries of extended type
information if it was agreed on. -/
def definition (catalog : String) (c : Column) (extended : Option (List Extension)) : Bytes :=
  [catalog, c.schema, c.table, c.orgTable, c.name, c.orgName].flatMap Layout.lengthEncodedText
    ++ (extended.map fun entries =>
        Layout.lengthEncodedBytes (entries.flatMap Extension.bytes)).getD []
    ++ 0x0C :: Bytes.ofNatLE 2 c.charset.toNat ++ Bytes.ofNatLE 4 c.length.toNat
    ++ c.type.code :: Bytes.ofNatLE 2 c.flags.toNat ++ [c.decimals]

end Column

/-- The columns of a result, in order. -/
abbrev Columns := List Column

namespace Columns

/-- The columns with one policy for zero dates. -/
def withZeroDates (policy : ZeroDatePolicy) (cs : Columns) : Columns :=
  cs.map fun c => { c with zeroDates := policy }

/-- Equality of texts without regard to the case of ASCII letters. -/
def sameName (s t : String) : Bool :=
  Ascii.lowerText s == Ascii.lowerText t

/-- The place of the first column with the given name. -/
def find? (name : String) (cs : Columns) : Option Nat :=
  cs.findIdx? fun c => sameName c.name name

end Columns

end SqlWire
