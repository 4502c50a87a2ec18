/-!
# Shapes

The seven shapes of a geometry, with the name and the well-known binary code of each.
-/

namespace SqlWire

/-- The shape of a geometry. -/
inductive Shape where
  | point | lineString | polygon | multiPoint | multiLineString | multiPolygon | collection
  deriving DecidableEq, Repr, Inhabited

namespace Shape

/-- The name of a shape. -/
def name : Shape → String
  | point => "Point"
  | lineString => "LineString"
  | polygon => "Polygon"
  | multiPoint => "MultiPoint"
  | multiLineString => "MultiLineString"
  | multiPolygon => "MultiPolygon"
  | collection => "GeometryCollection"

/-- The well-known binary code of a shape. -/
def code : Shape → Nat
  | point => 1
  | lineString => 2
  | polygon => 3
  | multiPoint => 4
  | multiLineString => 5
  | multiPolygon => 6
  | collection => 7

/-- The shape with the given code, if there is one. -/
def ofCode? : Nat → Option Shape
  | 1 => some point
  | 2 => some lineString
  | 3 => some polygon
  | 4 => some multiPoint
  | 5 => some multiLineString
  | 6 => some multiPolygon
  | 7 => some collection
  | _ => none

/-- A code denotes a shape exactly when it is that shape's code. -/
theorem ofCode?_eq_some_iff
    {n : Nat} {s : Shape} :
  ofCode? n = some s ↔ s.code = n
  := by
  constructor
  · intro h
    unfold ofCode? at h
    split at h <;> simp at h <;> subst h <;> rfl
  · rintro rfl
    cases s <;> rfl

end Shape

end SqlWire
