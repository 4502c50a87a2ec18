import SqlWire.Floating.Shortest
import SqlWire.Geometry.Basic

/-!
# Well-known text

The well-known text `Geometry.toText` of a geometry: the name of its shape, and its coordinates in
brackets.  The members of a collection are geometries in turn; those of the other collections are
written without their names.  Numbers are written in the shortest form that reads back, and
`Geometry.toTextWith` has any other form in its place.
-/

namespace SqlWire

namespace WellKnownText

/-- Texts between brackets, separated by commas. -/
def bracketed (texts : List String) : String :=
  "(" ++ ",".intercalate texts ++ ")"

variable (number : Double → String)

/-- The coordinates of a point. -/
def coordinates (p : Point) : String :=
  number p.x ++ " " ++ number p.y

/-- The points of a run. -/
def run (points : PointRun) : String :=
  bracketed (points.map (coordinates number))

/-- The runs of a polygon or of a collection of runs. -/
def runs (rings : Rings) : String :=
  bracketed (rings.map (run number))

/-- The text of a point. -/
def point (p : Point) : String :=
  "POINT(" ++ coordinates number p ++ ")"

end WellKnownText

open WellKnownText

/-- The well-known text of a point. -/
def Point.toText (p : Point) : String :=
  WellKnownText.point Double.toText p

namespace Geometry

mutual

/-- The well-known text of a geometry with numbers in a given form. -/
def toTextWith (number : Double → String) : Geometry → String
  | point p => WellKnownText.point number p
  | lineString points => "LINESTRING" ++ run number points
  | polygon rings => "POLYGON" ++ runs number rings
  | multiPoint points => "MULTIPOINT" ++ run number points
  | multiLineString lines => "MULTILINESTRING" ++ runs number lines
  | multiPolygon polygons => "MULTIPOLYGON" ++ bracketed (polygons.map (runs number))
  | collection members => "GEOMETRYCOLLECTION" ++ bracketed (memberTexts number members)

/-- The well-known texts of the members of a collection. -/
def memberTexts (number : Double → String) : List Geometry → List String
  | [] => []
  | g :: gs => toTextWith number g :: memberTexts number gs

end

/-- The well-known text of a geometry. -/
def toText (g : Geometry) : String :=
  g.toTextWith Double.toText

end Geometry

end SqlWire
