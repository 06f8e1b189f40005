/-
Geometries to search in: their text is read, they are not empty, their latitudes lie on the globe,
and polygons are valid and have an area.
-/
import OccurrenceQuery.Geometry.Wkt.Reader
import OccurrenceQuery.Text.Basic
import OccurrenceQuery.Text.CharacterClass

namespace OccurrenceQuery.Geometry

open OccurrenceQuery.Text

/-! ## Reading -/

/-- The geometry that a text denotes, between white space and in any case. A text that begins with
the keyword of a linear ring is read as a line string and becomes a ring. -/
def readAny (text : String) : Except Fault (Geometry Float) := do
  let letters := asciiUpper (trim text.toList)
  let (isRing, letters) := match dropLeading? "LINEARRING".toList letters with
    | some rest => (true, "LINESTRING".toList ++ rest)
    | none => (false, letters)
  let shape ← (Wkt.read letters).mapError .unreadable
  let some found := shape.geometry? | throw .empty
  let found := match found with
    | .lineString ps => if isRing then .linearRing ps else found
    | _ => found
  if found.isEmpty then throw .empty
  return found

/-- Whether the latitude of a position lies on the globe. Longitudes are free, so that a shape can
cross the antimeridian. -/
def hasLatitude (p : Position Float) : Bool := decide (-90.0 ≤ p.y) && decide (p.y ≤ 90.0)

/-- The geometry that a text denotes; when `bounded`, all its latitudes must lie on the globe. -/
def read (bounded : Bool) (text : String) : Except Fault (Geometry Float) := do
  let g ← readAny text
  if bounded then
    if let some p := g.positions.find? fun p => !hasLatitude p then throw (.outOfBounds p)
  return g

/-! ## Acceptance -/

/-- Refuses a geometry that cannot be searched in. Of the kinds of geometry, points, lines, rings,
polygons and multipolygons can. -/
def checkSearchable (g : Geometry Float) : Except Fault Unit :=
  match g with
  | .point _ | .lineString _ => .ok ()
  | .linearRing ps =>
    if decide (4 ≤ ps.length) && ps.head? == ps.getLast? then .ok () else .error .openRing
  | .polygon _ | .multiPolygon _ =>
    match problem? g with
    | some found => .error (.problem found)
    | none => if area g == 0 then .error .zeroArea else .ok ()
  | _ => .error (.unsupported g.kind)

/-- The geometry that a text denotes, if it can be searched in. -/
def readSearchable (bounded : Bool) (text : String) : Except Fault (Geometry Float) := do
  let g ← read bounded text
  checkSearchable g
  return g

end OccurrenceQuery.Geometry
