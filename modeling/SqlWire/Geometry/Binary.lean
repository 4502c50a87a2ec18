import SqlWire.Cursor
import SqlWire.Geometry.Basic
import SqlWire.Layout

/-!
# Well-known binary

The little-endian well-known binary form `Geometry.toBinary` of a geometry, and the reader
`Geometry.readBinary` of bodies in which every geometry, members included, chooses its own byte
order.  Members nest at most `Geometry.maxDepth` levels deep.  A field of a geometry column is such
a body behind the four bytes of a spatial reference, which is not kept: `Geometry.readField`.
-/

namespace SqlWire

/-- The orders in which the bytes of a number may come. -/
inductive ByteOrder where
  | big
  | little
  deriving DecidableEq, Repr

namespace ByteOrder

/-- The byte that announces an order. -/
def marker : ByteOrder → UInt8
  | big => 0
  | little => 1

/-- The order that a byte announces, if it announces one. -/
def ofMarker? (b : UInt8) : Option ByteOrder :=
  if b = 0 then some big else if b = 1 then some little else none

/-- The number that bytes in the given order denote. -/
def value : ByteOrder → Bytes → Nat
  | big, bs => Bytes.bigEndian bs
  | little, bs => Bytes.littleEndian bs

/-- The `w` bytes of a number in the given order. -/
def bytes : ByteOrder → Nat → Nat → Bytes
  | big, w, n => Bytes.ofNatBE w n
  | little, w, n => Bytes.ofNatLE w n

end ByteOrder

namespace Geometry

/-- The number of levels to which members may nest. -/
def maxDepth : Nat := 32

/-! ### Writing -/

/-- The byte order and shape in front of a little-endian body. -/
def header (s : Shape) : Bytes :=
  ByteOrder.little.marker :: Bytes.ofNatLE 4 s.code

/-- The coordinates of a point. -/
def pointBytes (p : Point) : Bytes :=
  Layout.double p.x ++ Layout.double p.y

/-- The points of a run behind their number. -/
def runBytes (points : PointRun) : Bytes :=
  Bytes.ofNatLE 4 points.length ++ points.flatMap pointBytes

/-- The rings of a polygon behind their number. -/
def ringsBytes (rings : Rings) : Bytes :=
  Bytes.ofNatLE 4 rings.length ++ rings.flatMap runBytes

mutual

/-- The little-endian body of a geometry. -/
def toBinary : Geometry → Bytes
  | point p => header .point ++ pointBytes p
  | lineString points => header .lineString ++ runBytes points
  | polygon rings => header .polygon ++ ringsBytes rings
  | multiPoint points =>
    header .multiPoint ++ Bytes.ofNatLE 4 points.length
      ++ points.flatMap fun p => header .point ++ pointBytes p
  | multiLineString lines =>
    header .multiLineString ++ Bytes.ofNatLE 4 lines.length
      ++ lines.flatMap fun l => header .lineString ++ runBytes l
  | multiPolygon polygons =>
    header .multiPolygon ++ Bytes.ofNatLE 4 polygons.length
      ++ polygons.flatMap fun r => header .polygon ++ ringsBytes r
  | collection members =>
    header .collection ++ Bytes.ofNatLE 4 members.length ++ membersBinary members

/-- The little-endian bodies of the members of a collection. -/
def membersBinary : List Geometry → Bytes
  | [] => []
  | g :: gs => toBinary g ++ membersBinary gs

end

/-! ### Reading -/

/-- As many values as the count says, one after another, or the first failure. -/
def readMany {α : Type} (item : Reader α) : Nat → List α → Reader (List α)
  | 0, read => return read.reverse
  | n + 1, read => do readMany item n ((← item) :: read)

/-- A number of four bytes in the given order. -/
def readNumber (order : ByteOrder) : Reader Nat := do
  return order.value (← Reader.bytes 4)

/-- A coordinate in the given order. -/
def readCoordinate (order : ByteOrder) : Reader Double := do
  return .ofBits (order.value (← Reader.bytes 8))

/-- A point. -/
def readPoint (order : ByteOrder) : Reader Point := do
  let x ← readCoordinate order
  let y ← readCoordinate order
  return ⟨x, y⟩

/-- Values behind their number. -/
def readCounted {α : Type} (order : ByteOrder) (item : Reader α) : Reader (List α) := do
  let n ← readNumber order
  readMany item n []

/-- A run of points behind their number. -/
def readRun (order : ByteOrder) : Reader PointRun :=
  readCounted order (readPoint order)

/-- Runs of points behind their number. -/
def readRings (order : ByteOrder) : Reader Rings :=
  readCounted order (readRun order)

/-- The byte order in front of a body. -/
def readOrder : Reader ByteOrder := do
  let b ← Reader.byte
  match ByteOrder.ofMarker? b with
  | some order => return order
  | none => Reader.fail (.protocol (.byteOrder b))

/-- The point that a member of a collection of points has to be. -/
def asPoint : Geometry → Except Error Point
  | point p => .ok p
  | g => .error (.protocol (.memberShape .multiPoint g.shape))

/-- The run that a member of a collection of runs has to be. -/
def asRun : Geometry → Except Error PointRun
  | lineString points => .ok points
  | g => .error (.protocol (.memberShape .multiLineString g.shape))

/-- The rings that a member of a collection of polygons has to have. -/
def asRings : Geometry → Except Error Rings
  | polygon rings => .ok rings
  | g => .error (.protocol (.memberShape .multiPolygon g.shape))

/-- A member of the shape that its collection asks for. -/
def readMember {α : Type} (body : Reader Geometry) (as : Geometry → Except Error α) : Reader α := do
  Reader.lift (as (← body))

/-- A body whose members are read by the given reader. -/
def readBody (member : Reader Geometry) : Reader Geometry := do
  let order ← readOrder
  let code ← readNumber order
  match Shape.ofCode? code with
  | some .point => return point (← readPoint order)
  | some .lineString => return lineString (← readRun order)
  | some .polygon => return polygon (← readRings order)
  | some .multiPoint => return multiPoint (← readCounted order (readMember member asPoint))
  | some .multiLineString => return multiLineString (← readCounted order (readMember member asRun))
  | some .multiPolygon => return multiPolygon (← readCounted order (readMember member asRings))
  | some .collection => return collection (← readCounted order member)
  | none => Reader.fail (.protocol (.shapeCode code))

/-- A body whose members may nest the given number of levels deep. -/
def readNested : Nat → Reader Geometry
  | 0 => readBody (Reader.fail (.protocol (.geometryTooDeep maxDepth)))
  | levels + 1 => readBody (readNested levels)

/-- A body. -/
def readBinary : Reader Geometry :=
  readNested maxDepth

/-- A field of the given length: the spatial reference, which is passed over, a body, and any bytes
left of the field, passed over as well. -/
def readField (length : Nat) : Reader Geometry := do
  let start ← Reader.position
  Reader.skip 4
  let g ← readBinary
  let used := (← Reader.position) - start
  if length < used then Reader.fail (.protocol (.geometryOverrun (used - length) length))
  else
    Reader.skip (length - used)
    return g

end Geometry

end SqlWire
