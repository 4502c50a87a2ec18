import SqlWire.Floating.Basic
import SqlWire.Geometry.Shape

/-!
# Geometries

The type `Geometry` of spatial values: points, runs of points, polygons given by their rings, and
collections of each and of any.  Equality of geometries as numbers, `Geometry.equals`, differs from
equality of their bit patterns on zeros and on what is no number.
-/

namespace SqlWire

/-- A pair of coordinates. -/
structure Point where
  x : Double
  y : Double
  deriving DecidableEq, Repr, Inhabited

/-- A run of points. -/
abbrev PointRun := List Point

/-- The outer ring of a polygon and the rings of its holes. -/
abbrev Rings := List PointRun

/-- A spatial value. -/
inductive Geometry where
  | point (p : Point)
  | lineString (points : PointRun)
  | polygon (rings : Rings)
  | multiPoint (points : List Point)
  | multiLineString (lines : List PointRun)
  | multiPolygon (polygons : List Rings)
  | collection (members : List Geometry)
  deriving Repr, Inhabited

namespace Point

/-- Equality of coordinates as numbers. -/
def equals (p q : Point) : Bool :=
  p.x.equals q.x && p.y.equals q.y

end Point

/-- The run has two points or more, and its ends are equal as numbers. -/
def PointRun.isClosed (run : PointRun) : Bool :=
  match run with
  | [] | [_] => false
  | p :: q :: rest => p.equals ((q :: rest).getLastD q)

/-- Equality of lists by an equality of their elements. -/
def equalLists {α : Type} (eq : α → α → Bool) : List α → List α → Bool
  | [], [] => true
  | a :: as, b :: bs => eq a b && equalLists eq as bs
  | _, _ => false

namespace Geometry

/-- The shape of a geometry. -/
def shape : Geometry → Shape
  | point _ => .point
  | lineString _ => .lineString
  | polygon _ => .polygon
  | multiPoint _ => .multiPoint
  | multiLineString _ => .multiLineString
  | multiPolygon _ => .multiPolygon
  | collection _ => .collection

mutual

/-- Equality of geometries, with coordinates compared as numbers. -/
def equals : Geometry → Geometry → Bool
  | point p, point q => p.equals q
  | lineString ps, lineString qs => equalLists Point.equals ps qs
  | polygon rs, polygon ss => equalLists (equalLists Point.equals) rs ss
  | multiPoint ps, multiPoint qs => equalLists Point.equals ps qs
  | multiLineString ls, multiLineString ms => equalLists (equalLists Point.equals) ls ms
  | multiPolygon ps, multiPolygon qs => equalLists (equalLists (equalLists Point.equals)) ps qs
  | collection gs, collection hs => equalMembers gs hs
  | _, _ => false

/-- Equality of the members of two collections. -/
def equalMembers : List Geometry → List Geometry → Bool
  | [], [] => true
  | g :: gs, h :: hs => equals g h && equalMembers gs hs
  | _, _ => false

end

mutual

/-- The number of levels at which collections are nested in a geometry: none where there are no
members, and one more than the members' otherwise. -/
def depth : Geometry → Nat
  | multiPoint ps => if ps.isEmpty then 0 else 1
  | multiLineString ls => if ls.isEmpty then 0 else 1
  | multiPolygon ps => if ps.isEmpty then 0 else 1
  | collection gs => membersDepth gs
  | _ => 0

/-- One more than the greatest depth of the members, and zero if there are none. -/
def membersDepth : List Geometry → Nat
  | [] => 0
  | g :: gs => max (depth g + 1) (membersDepth gs)

end

end Geometry

end SqlWire
