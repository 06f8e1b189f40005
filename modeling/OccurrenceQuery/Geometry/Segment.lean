/-
Segments of the plane: on which side of a segment a position lies, and how two segments meet. These
rules are written over any arithmetic that coordinates can have: they run in floating point, and are
read as statements of geometry over the rationals.
-/
import OccurrenceQuery.Geometry.Basic

namespace OccurrenceQuery.Geometry

/-! ## Coordinates -/

/-- A type of coordinates: the four operations, decimal constants, comparisons. -/
class Scalar (α : Type) extends Add α, Sub α, Mul α, Div α, Neg α, Zero α, One α, OfScientific α,
    LE α, LT α, BEq α where
  decidableLE (a b : α) : Decidable (a ≤ b)
  decidableLT (a b : α) : Decidable (a < b)

instance Scalar.instDecidableLE {α : Type} [Scalar α] : DecidableLE α := Scalar.decidableLE

instance Scalar.instDecidableLT {α : Type} [Scalar α] : DecidableLT α := Scalar.decidableLT

instance Scalar.zeroFloat : Zero Float := ⟨0.0⟩

instance Scalar.oneFloat : One Float := ⟨1.0⟩

instance : Scalar Float where
  decidableLE := inferInstance
  decidableLT := inferInstance

instance : Scalar Rat where
  toZero := @Zero.ofOfNat0 Rat Rat.instOfNat
  toOne := @One.ofOfNat1 Rat Rat.instOfNat
  decidableLE := inferInstance
  decidableLT := inferInstance

variable {α : Type}

section

variable [Scalar α]

/-- The lesser of two numbers; a side that is not equal to itself is ignored. -/
def lesser (a b : α) : α := if a ≤ b then a else if b == b then b else a

/-- The greater of two numbers; a side that is not equal to itself is ignored. -/
def greater (a b : α) : α := if b ≤ a then a else if b == b then b else a

/-- The absolute value, never a negative zero. -/
def magnitude (a : α) : α := if a ≤ 0 then 0 - a else a

/-- The sum of a list from left to right. The start is the zero that changes no summand, which in
floating point is the negative one. -/
def total (as : List α) : α := as.foldl (· + ·) (-0)

end

/-! ## Segments -/

/-- A directed segment. -/
structure Segment (α : Type) where
  start : Position α
  stop : Position α
deriving Repr

/-- The segments between the consecutive positions of a list. -/
def segments : List (Position α) → List (Segment α)
  | p :: q :: ps => ⟨p, q⟩ :: segments (q :: ps)
  | _ => []

variable [Scalar α]

/-! ## Sides and directions -/

/-- Twice the signed area of the triangle `a b c`: positive when `c` lies to the left of the way
from `a` to `b`, zero when the three lie on a line. -/
def turn (a b c : Position α) : α := (b.x - a.x) * (c.y - a.y) - (b.y - a.y) * (c.x - a.x)

/-- Whether `p` and `q` lie on the same side of `origin`, given that the three lie on a line. -/
def sameDirection (origin p q : Position α) : Bool :=
  decide (0 < (p.x - origin.x) * (q.x - origin.x) + (p.y - origin.y) * (q.y - origin.y))

namespace Segment

/-- Whether the position `p` lies on the segment: on its line and in its bounding box. -/
def covers (s : Segment α) (p : Position α) : Bool :=
  turn s.start s.stop p == 0
    && decide (lesser s.start.x s.stop.x ≤ p.x) && decide (p.x ≤ greater s.start.x s.stop.x)
    && decide (lesser s.start.y s.stop.y ≤ p.y) && decide (p.y ≤ greater s.start.y s.stop.y)

/-! ## Pairs of segments -/

/-- Whether each segment has its ends on different sides of the other's line. -/
def crosses (s t : Segment α) : Bool :=
  decide (turn s.start s.stop t.start * turn s.start s.stop t.stop < 0)
    && decide (turn t.start t.stop s.start * turn t.start t.stop s.stop < 0)

/-- Whether the two segments have a position in common. -/
def meets (s t : Segment α) : Bool :=
  s.crosses t || s.covers t.start || s.covers t.stop || t.covers s.start || t.covers s.stop

/-- Where `p` stands along the segment, from zero at its start to one at its stop. -/
def fraction (s : Segment α) (p : Position α) : α :=
  let dx := s.stop.x - s.start.x
  let dy := s.stop.y - s.start.y
  ((p.x - s.start.x) * dx + (p.y - s.start.y) * dy) / (dx * dx + dy * dy)

/-- The square of the length of a segment. -/
def squaredLength (s : Segment α) : α :=
  let dx := s.stop.x - s.start.x
  let dy := s.stop.y - s.start.y
  dx * dx + dy * dy

/-- Whether the two segments lie on a line and share a stretch of positive length. -/
def overlaps (s t : Segment α) : Bool :=
  if turn s.start s.stop t.start != 0 || turn s.start s.stop t.stop != 0 then false
  else if s.squaredLength == 0 then false
  else
    let here := s.fraction t.start
    let there := s.fraction t.stop
    decide (0 < lesser (greater here there) 1 - greater (lesser here there) 0)

/-! ## Rays -/

/-- Whether the ray from `p` to the right passes through the segment. Of two ends on different
sides of the ray's line, one on the line itself counts as below. -/
def stopsRay (s : Segment α) (p : Position α) : Bool :=
  let a := s.start
  let b := s.stop
  (decide (p.y < a.y) != decide (p.y < b.y))
    && decide (p.x < a.x + (p.y - a.y) * (b.x - a.x) / (b.y - a.y))

end Segment

end OccurrenceQuery.Geometry
