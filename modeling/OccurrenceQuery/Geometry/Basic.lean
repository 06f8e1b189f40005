/-
Geometries over a coordinate type: positions, polygons with holes, and the eight kinds of
geometry.
-/

namespace OccurrenceQuery.Geometry

/-! ## Positions and polygons -/

/-- A position in the plane; `x` is the longitude and `y` the latitude. -/
structure Position (α : Type) where
  x : α
  y : α
deriving Repr

instance {α : Type} [BEq α] : BEq (Position α) where
  beq p q := p.x == q.x && p.y == q.y

/-- A ring as it is written down, the closing position included. -/
abbrev Ring (α : Type) := List (Position α)

/-- A polygon: a shell and any number of holes. -/
structure Polygon (α : Type) where
  shell : Ring α
  holes : List (Ring α)
deriving Repr

/-- The shell and then the holes. -/
def Polygon.rings {α : Type} (p : Polygon α) : List (Ring α) := p.shell :: p.holes

/-- The polygon with the given rings, the first of which is the shell. -/
def Polygon.ofRings {α : Type} : List (Ring α) → Polygon α
  | [] => ⟨[], []⟩
  | shell :: holes => ⟨shell, holes⟩

/-! ## Geometries -/

/-- The kinds of geometry. -/
inductive Kind where
  | point
  | lineString
  | linearRing
  | polygon
  | multiPoint
  | multiLineString
  | multiPolygon
  | collection
deriving DecidableEq, Repr

/-- The keyword of a kind in well-known text. -/
def Kind.keyword : Kind → String
  | point => "POINT"
  | lineString => "LINESTRING"
  | linearRing => "LINEARRING"
  | polygon => "POLYGON"
  | multiPoint => "MULTIPOINT"
  | multiLineString => "MULTILINESTRING"
  | multiPolygon => "MULTIPOLYGON"
  | collection => "GEOMETRYCOLLECTION"

end Geometry

/-- A geometry of one of the eight kinds. -/
inductive Geometry (α : Type) where
  | point (position : Geometry.Position α)
  | lineString (positions : List (Geometry.Position α))
  | linearRing (positions : List (Geometry.Position α))
  | polygon (polygon : Geometry.Polygon α)
  | multiPoint (positions : List (Geometry.Position α))
  | multiLineString (lines : List (List (Geometry.Position α)))
  | multiPolygon (polygons : List (Geometry.Polygon α))
  | collection (members : List (Geometry α))

namespace Geometry

variable {α : Type}

/-- The kind of a geometry. -/
def kind : Geometry α → Kind
  | point _ => .point
  | lineString _ => .lineString
  | linearRing _ => .linearRing
  | polygon _ => .polygon
  | multiPoint _ => .multiPoint
  | multiLineString _ => .multiLineString
  | multiPolygon _ => .multiPolygon
  | collection _ => .collection

/-- Whether a geometry is a polygon or a multipolygon. -/
def isPolygonal (g : Geometry α) : Bool := g.kind == .polygon || g.kind == .multiPolygon

mutual

/-- The positions of a geometry in reading order. -/
def positions : Geometry α → List (Position α)
  | point p => [p]
  | lineString ps => ps
  | linearRing ps => ps
  | polygon p => p.rings.flatten
  | multiPoint ps => ps
  | multiLineString lines => lines.flatten
  | multiPolygon polygons => (polygons.flatMap Polygon.rings).flatten
  | collection members => positionsOfAll members

/-- The positions of a list of geometries in reading order. -/
def positionsOfAll : List (Geometry α) → List (Position α)
  | [] => []
  | member :: members => member.positions ++ positionsOfAll members

end

mutual

/-- Whether a geometry is empty. A polygon counts as empty when its shell is. -/
def isEmpty : Geometry α → Bool
  | point _ => false
  | lineString ps => ps.isEmpty
  | linearRing ps => ps.isEmpty
  | polygon p => p.shell.isEmpty
  | multiPoint ps => ps.isEmpty
  | multiLineString lines => lines.all List.isEmpty
  | multiPolygon polygons => polygons.all fun p => p.shell.isEmpty
  | collection members => areEmpty members

/-- Whether all of a list of geometries are empty. -/
def areEmpty : List (Geometry α) → Bool
  | [] => true
  | member :: members => member.isEmpty && areEmpty members

end

end Geometry

end OccurrenceQuery
