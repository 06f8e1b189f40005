/-
The validity rules of polygons. A polygon is valid when every ring is closed and simple, the shell
winds counter-clockwise and the holes clockwise, no two rings cross, every hole lies inside the
shell and none inside another. The members of a multipolygon must not overlap either.
-/
import OccurrenceQuery.Geometry.Ring

namespace OccurrenceQuery.Geometry

/-- A violation of a validity rule. Rings are numbered from the shell, which has number zero. -/
inductive Problem (α : Type) where
  | tooFewPoints (ring : Nat)
  | notClosed (ring : Nat)
  | selfIntersection (ring : Nat) (position : Position α)
  | ringsCross (first second : Nat)
  | holeOutsideShell (ring : Nat)
  | nestedHole (ring within : Nat)
  | wrongOrientation (ring : Nat)
  | overlappingPolygons (first second : Nat)

/-- The problem that a fault of the ring with the given number makes. -/
def RingFault.problem {α : Type} (ring : Nat) : RingFault α → Problem α
  | tooFewPoints => .tooFewPoints ring
  | notClosed => .notClosed ring
  | selfIntersection p => .selfIntersection ring p

/-- The message of a problem, given the text of a coordinate. -/
def Problem.message {α : Type} (number : α → String) : Problem α → String
  | tooFewPoints ring => s!"ring {ring} has too few points"
  | notClosed ring => s!"ring {ring} is not closed"
  | selfIntersection ring p =>
    s!"ring {ring} self-intersects at (" ++ number p.x ++ " " ++ number p.y ++ ")"
  | ringsCross first second => s!"rings {first} and {second} cross"
  | holeOutsideShell ring => s!"hole {ring} lies outside the shell"
  | nestedHole ring within => s!"hole {ring} lies inside hole {within}"
  | wrongOrientation 0 => "shell must be counter-clockwise"
  | wrongOrientation ring => s!"hole {ring} must be clockwise"
  | overlappingPolygons first second => s!"polygons {first} and {second} overlap"

variable {α : Type} [Scalar α]

namespace Polygon

/-! ## Rules for one polygon -/

/-- The first ring that is not closed and simple. -/
def ringProblem? (p : Polygon α) : Option (Problem α) :=
  p.rings.zipIdx.findSome? fun (ring, i) => (ringFault? ring).map (·.problem i)

/-- The first ring that winds the wrong way: the shell clockwise, or a hole counter-clockwise. A
ring of area zero winds neither way. -/
def orientationProblem? (p : Polygon α) : Option (Problem α) :=
  if signedArea p.shell < 0 then some (.wrongOrientation 0)
  else (p.holes.findIdx? fun hole => decide (0 < signedArea hole)).map
    fun i => .wrongOrientation (i + 1)

/-- The first two rings of which one crosses the other. -/
def crossingProblem? (p : Polygon α) : Option (Problem α) :=
  (orderedPairs p.rings.zipIdx).findSome? fun ((r, i), (s, j)) =>
    if ringsCross r s then some (.ringsCross i j) else none

/-- Whether a hole lies inside the shell, judged by its first vertex off the shell's boundary. -/
def holdsHole (shell hole : Ring α) : Bool :=
  match hole.find? fun p => !onRing p shell with
  | some p => insideRing p shell
  | none => true

/-- The first hole that does not lie inside the shell. -/
def outsideProblem? (p : Polygon α) : Option (Problem α) :=
  (p.holes.findIdx? fun hole => !holdsHole p.shell hole).map fun i => .holeOutsideShell (i + 1)

/-- The first hole that reaches into another one, and the first such other. -/
def nestingProblem? (p : Polygon α) : Option (Problem α) :=
  p.holes.zipIdx.findSome? fun (inner, i) =>
    (p.holes.zipIdx.find? fun (outer, j) => j != i && reachesInto inner outer).map
      fun (_, j) => .nestedHole (i + 1) (j + 1)

/-- The first problem of a polygon; the rules are tried in their order, each of them on all rings.
-/
def problem? (p : Polygon α) : Option (Problem α) :=
  p.ringProblem?.or <| p.orientationProblem?.or <| p.crossingProblem?.or <|
    p.outsideProblem?.or p.nestingProblem?

/-! ## Area and interior -/

/-- The area of the shell less that of the holes, never negative. -/
def area (p : Polygon α) : α := greater (ringArea p.shell - total (p.holes.map ringArea)) 0

/-- Whether a position lies strictly inside the shell and strictly outside every hole. -/
def hasInside (p : Polygon α) (q : Position α) : Bool :=
  insideRing q p.shell && !p.holes.any fun hole => insideRing q hole || onRing q hole

/-! ## Rules for several polygons -/

/-- Whether the boundaries of two polygons cross or share a stretch. -/
def boundariesMeet (p q : Polygon α) : Bool :=
  p.rings.any fun r => q.rings.any fun s => ringsCross r s || ringsShareEdge r s

/-- Whether two polygons share area or a stretch of boundary; they may touch in positions. -/
def overlaps (p q : Polygon α) : Bool :=
  boundariesMeet p q || (probes q.shell).any p.hasInside || (probes p.shell).any q.hasInside

/-- The first problem of several polygons: that of a member, or two members that overlap. -/
def problemOfAll? (polygons : List (Polygon α)) : Option (Problem α) :=
  (polygons.findSome? problem?).or <|
    (orderedPairs polygons.zipIdx).findSome? fun ((p, i), (q, j)) =>
      if p.overlaps q then some (.overlappingPolygons i j) else none

end Polygon

/-! ## Geometries -/

/-- The first problem of a polygon or multipolygon; the other kinds have none. -/
def problem? : Geometry α → Option (Problem α)
  | .polygon p => p.problem?
  | .multiPolygon polygons => Polygon.problemOfAll? polygons
  | _ => none

/-- Whether the geometry is a polygon or multipolygon without a problem. -/
def isValidPolygonal (g : Geometry α) : Bool := g.isPolygonal && (problem? g).isNone

mutual

/-- The area of a geometry; only polygons have one. -/
def area : Geometry α → α
  | .polygon p => p.area
  | .multiPolygon polygons => total (polygons.map Polygon.area)
  | .collection members => total (areas members)
  | _ => 0

/-- The areas of a list of geometries. -/
def areas : List (Geometry α) → List α
  | [] => []
  | member :: members => area member :: areas members

end

end OccurrenceQuery.Geometry
