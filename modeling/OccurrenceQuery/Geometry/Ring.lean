/-
Rings: their area, their simplicity, and which positions lie inside them.
-/
import OccurrenceQuery.Geometry.Segment

namespace OccurrenceQuery.Geometry

variable {α : Type}

/-! ## Pairs -/

/-- All pairs of two different entries of a list, the earlier entry first. -/
def orderedPairs {β : Type} : List β → List (β × β)
  | [] => []
  | b :: bs => bs.map (b, ·) ++ orderedPairs bs

variable [Scalar α]

/-! ## Area -/

/-- The sides of the polygon through the positions, the one back to the first included. -/
def sides : List (Position α) → List (Segment α)
  | [] => []
  | p :: ps => segments (p :: ps ++ [p])

/-- The signed area of a ring: positive when it winds counter-clockwise. -/
def signedArea (ring : Ring α) : α :=
  if ring.length < 3 then 0
  else
    (sides ring).foldl (fun sum s => sum + (s.start.x * s.stop.y - s.stop.x * s.start.y)) 0 / 2.0

/-- The area of a ring, whichever way it winds. -/
def ringArea (ring : Ring α) : α := magnitude (signedArea ring)

/-! ## Simplicity -/

/-- The positions that follow `last`, without those that repeat the one before. -/
def dropRepeatsAfter (last : Position α) : List (Position α) → List (Position α)
  | [] => []
  | p :: ps => if last == p then dropRepeatsAfter last ps else p :: dropRepeatsAfter p ps

/-- The positions without those that repeat the one before. -/
def dropRepeats : List (Position α) → List (Position α)
  | [] => []
  | p :: ps => p :: dropRepeatsAfter p ps

/-- Whether two segments that share the end `shared` also share a stretch: `p` and `q`, their
other ends, lie in the same direction from it. -/
def foldsBack (shared p q : Position α) : Bool :=
  turn p shared q == 0 && sameDirection shared p q

/-- Where the segments with the numbers `i < j` of a closed line of `n` segments meet, although
they should not. Neighbours share an end and may meet nowhere else; the last segment and the
first are neighbours, too. -/
def touchingAt? (n : Nat) : (Segment α × Nat) × (Segment α × Nat) → Option (Position α)
  | ((s, i), (t, j)) =>
    if j = i + 1 then if foldsBack s.stop s.start t.stop then some s.stop else none
    else if i = 0 ∧ j + 1 = n then if foldsBack s.start s.stop t.start then some s.start else none
    else if s.meets t then some t.start else none

/-- The first position where the closed line through the positions meets itself. -/
def selfMeeting? (points : List (Position α)) : Option (Position α) :=
  let parts := segments points
  (orderedPairs parts.zipIdx).findSome? (touchingAt? parts.length)

/-- What can be wrong with a single ring. -/
inductive RingFault (α : Type) where
  | tooFewPoints
  | notClosed
  | selfIntersection (position : Position α)

/-- The first fault of a ring. A ring is closed, has at least four positions after repeats are
dropped, and meets itself nowhere. -/
def ringFault? (ring : Ring α) : Option (RingFault α) :=
  match ring.head?, ring.getLast? with
  | some first, some last =>
    if first != last then some .notClosed
    else
      let points := dropRepeats ring
      if points.length < 4 then some .tooFewPoints
      else (selfMeeting? points).map .selfIntersection
  | _, _ => some .tooFewPoints

/-! ## Positions and rings -/

/-- Whether `p` lies on the ring. -/
def onRing (p : Position α) (ring : Ring α) : Bool := (segments ring).any (·.covers p)

/-- Whether `p` lies strictly inside the ring: not on it, and a ray from it passes the ring an odd
number of times. -/
def insideRing (p : Position α) (ring : Ring α) : Bool :=
  !onRing p ring && (segments ring).countP (·.stopsRay p) % 2 == 1

/-! ## Pairs of rings -/

/-- Whether a segment of one ring crosses a segment of the other. -/
def ringsCross (r s : Ring α) : Bool :=
  (segments r).any fun a => (segments s).any fun b => a.crosses b

/-- Whether the two rings share a stretch of positive length. -/
def ringsShareEdge (r s : Ring α) : Bool :=
  (segments r).any fun a => (segments s).any fun b => a.overlaps b

/-- The position beside the midpoint of a segment, a millionth of its length to its left (or to
its right, when `side` is minus one). -/
def besideMidpoint (side : α) (s : Segment α) : Position α :=
  let dx := s.stop.x - s.start.x
  let dy := s.stop.y - s.start.y
  ⟨(s.start.x + s.stop.x) / 2.0 - side * dy * 1e-6, (s.start.y + s.stop.y) / 2.0 + side * dx * 1e-6⟩

/-- Positions that tell where a ring lies: its vertices, and beside the midpoint of each edge one
just inside the ring. The latter find a ring whose vertices all lie on another ring. -/
def probes (ring : Ring α) : List (Position α) :=
  let side : α := if 0 ≤ signedArea ring then 1 else -1
  ring ++ ((segments ring).filter fun s => s.start != s.stop).map (besideMidpoint side)

/-- Whether some part of the ring `inner` lies strictly inside the ring `outer`. -/
def reachesInto (inner outer : Ring α) : Bool := (probes inner).any (insideRing · outer)

end OccurrenceQuery.Geometry
