/-
Geometries moved as a whole. Every test of the rules looks at differences of coordinates only, and the shoelace sum
changes by differences that cancel round a ring. So a moved geometry has the problem of the geometry, where it was
moved to, and the same area, whether its rings are closed or not; a shape across the antimeridian can be written on
either side of it.
-/
import Mathlib.Tactic
import OccurrenceQuery.Proofs.Geometry.Change
import OccurrenceQuery.Proofs.Geometry.SignedArea
import OccurrenceQuery.Proofs.Geometry.Simple

namespace OccurrenceQuery.Geometry

/-! ## Positions and segments -/

/-- The position moved by the offset `d`. -/
def shift (d p : Position ℚ) : Position ℚ := ⟨p.x + d.x, p.y + d.y⟩

theorem shift_injective (d : Position ℚ) : Function.Injective (shift d) := by
  intro p q h
  obtain ⟨hx, hy⟩ := Position.ext_iff.1 h
  exact Position.eq_of_xy (add_right_cancel hx) (add_right_cancel hy)

theorem shift_beq_shift (d p q : Position ℚ) : (shift d p == shift d q) = (p == q) := by
  rw [Bool.eq_iff_iff, Position.beq_iff, Position.beq_iff, (shift_injective d).eq_iff]

theorem turn_shift (d a b c : Position ℚ) : turn (shift d a) (shift d b) (shift d c) = turn a b c := by
  simp only [turn_eq, shift]
  ring

theorem foldsBack_shift (d v p q : Position ℚ) :
    foldsBack (shift d v) (shift d p) (shift d q) = foldsBack v p q := by
  rw [Bool.eq_iff_iff, Segment.foldsBack_eq_true_iff, Segment.foldsBack_eq_true_iff, turn_shift]
  simp only [shift, add_sub_add_right_eq_sub]

namespace Segment

variable (d : Position ℚ) (s t : Segment ℚ) (p : Position ℚ)

/-- The segment moved by the offset `d`. -/
def shift : Segment ℚ := ⟨Geometry.shift d s.start, Geometry.shift d s.stop⟩

@[simp] theorem start_shift : (s.shift d).start = Geometry.shift d s.start := rfl

@[simp] theorem stop_shift : (s.shift d).stop = Geometry.shift d s.stop := rfl

theorem along_shift (part : ℚ) : (s.shift d).along part = Geometry.shift d (s.along part) := by
  refine Position.eq_of_xy ?_ ?_ <;> simp only [along, shift, Geometry.shift] <;> ring

theorem covers_shift : (s.shift d).covers (Geometry.shift d p) = s.covers p := by
  rw [Bool.eq_iff_iff, covers_iff, covers_iff]
  simp only [along_shift, (shift_injective d).eq_iff]

theorem crosses_shift : (s.shift d).crosses (t.shift d) = s.crosses t := by
  simp only [crosses, start_shift, stop_shift, turn_shift]

theorem meets_shift : (s.shift d).meets (t.shift d) = s.meets t := by
  simp only [meets, crosses_shift, start_shift, stop_shift, covers_shift]

theorem squaredLength_shift : (s.shift d).squaredLength = s.squaredLength := by
  show (s.stop.x + d.x - (s.start.x + d.x)) * (s.stop.x + d.x - (s.start.x + d.x)) +
    (s.stop.y + d.y - (s.start.y + d.y)) * (s.stop.y + d.y - (s.start.y + d.y)) = _
  simp only [add_sub_add_right_eq_sub]
  rfl

theorem fraction_shift : (s.shift d).fraction (Geometry.shift d p) = s.fraction p := by
  show ((p.x + d.x - (s.start.x + d.x)) * (s.stop.x + d.x - (s.start.x + d.x)) +
    (p.y + d.y - (s.start.y + d.y)) * (s.stop.y + d.y - (s.start.y + d.y))) / (s.shift d).squaredLength = _
  rw [squaredLength_shift]
  simp only [add_sub_add_right_eq_sub]
  rfl

theorem overlaps_shift : (s.shift d).overlaps (t.shift d) = s.overlaps t := by
  rw [Bool.eq_iff_iff, overlaps_iff, overlaps_iff]
  simp only [start_shift, stop_shift, turn_shift, squaredLength_shift, fraction_shift]

theorem spans_shift (y : ℚ) : (s.shift d).Spans (y + d.y) ↔ s.Spans y := by
  simp only [Spans, start_shift, stop_shift, Geometry.shift, add_le_add_iff_right, add_lt_add_iff_right]

theorem crossing_shift (y : ℚ) : (s.shift d).crossing (y + d.y) = Geometry.shift d (s.crossing y) := by
  simp only [crossing, start_shift, stop_shift, Geometry.shift, add_sub_add_right_eq_sub, add_right_comm]

theorem stopsRay_shift : (s.shift d).stopsRay (Geometry.shift d p) = s.stopsRay p := by
  rw [Bool.eq_iff_iff, stopsRay_iff, stopsRay_iff]
  refine and_congr (spans_shift d s p.y) ?_
  show p.x + d.x < ((s.shift d).crossing (p.y + d.y)).x ↔ _
  rw [crossing_shift]
  exact add_lt_add_iff_right d.x

theorem besideMidpoint_shift (side : ℚ) :
    besideMidpoint side (s.shift d) = Geometry.shift d (besideMidpoint side s) := by
  have htwo : (2.0 : ℚ) = 2 := by norm_num
  have hmiddle : ∀ a b c : ℚ, (a + c + (b + c)) / (2.0 : ℚ) = (a + b) / (2.0 : ℚ) + c := by
    intro a b c
    rw [htwo]
    ring
  refine Position.eq_of_xy ?_ ?_
  · show (s.start.x + d.x + (s.stop.x + d.x)) / (2.0 : ℚ) -
      side * (s.stop.y + d.y - (s.start.y + d.y)) * (1e-6 : ℚ) = _
    rw [hmiddle, add_sub_add_right_eq_sub, add_sub_right_comm]
    rfl
  · show (s.start.y + d.y + (s.stop.y + d.y)) / (2.0 : ℚ) +
      side * (s.stop.x + d.x - (s.start.x + d.x)) * (1e-6 : ℚ) = _
    rw [hmiddle, add_sub_add_right_eq_sub, add_right_comm]
    rfl

end Segment

/-! ## Rings -/

section Rings

variable (d : Position ℚ) (r s : Ring ℚ)

theorem segments_shift : ∀ ps : List (Position ℚ),
    segments (ps.map (shift d)) = (segments ps).map (Segment.shift d)
  | [] => rfl
  | [_] => rfl
  | p :: q :: ps => by
    have ih := segments_shift (q :: ps)
    simp only [List.map_cons, segments] at ih ⊢
    rw [ih]
    rfl

theorem sides_shift : sides (r.map (shift d)) = (sides r).map (Segment.shift d) := by
  cases r with
  | nil => rfl
  | cons p ps =>
    rw [List.map_cons, sides, sides, ← segments_shift]
    simp

theorem onRing_shift (p : Position ℚ) : onRing (shift d p) (r.map (shift d)) = onRing p r := by
  simp only [onRing, segments_shift, List.any_map, Function.comp_def, Segment.covers_shift]

theorem insideRing_shift (p : Position ℚ) : insideRing (shift d p) (r.map (shift d)) = insideRing p r := by
  simp only [insideRing, onRing_shift, segments_shift, List.countP_map, Function.comp_def, Segment.stopsRay_shift]

theorem ringsCross_shift : ringsCross (r.map (shift d)) (s.map (shift d)) = ringsCross r s := by
  simp only [ringsCross, segments_shift, List.any_map, Function.comp_def, Segment.crosses_shift]

theorem ringsShareEdge_shift : ringsShareEdge (r.map (shift d)) (s.map (shift d)) = ringsShareEdge r s := by
  simp only [ringsShareEdge, segments_shift, List.any_map, Function.comp_def, Segment.overlaps_shift]

/-- A side adds to the sum what the offset makes of the difference between its ends. -/
theorem wedge_shift (s : Segment ℚ) : (s.shift d).wedge = s.wedge +
    ((d.x * s.stop.y - d.y * s.stop.x) - (d.x * s.start.y - d.y * s.start.x)) := by
  simp only [Segment.wedge, Segment.start_shift, Segment.stop_shift, shift]
  ring

/-- The area of a ring does not change when it is moved, nor when it is not closed. -/
theorem signedArea_shift : signedArea (r.map (shift d)) = signedArea r := by
  have hround := sum_sides_sub (fun p => d.x * p.y - d.y * p.x) r
  have hwedges : ((sides r).map (Segment.shift d)).map Segment.wedge = (sides r).map fun s => s.wedge +
      ((d.x * s.stop.y - d.y * s.stop.x) - (d.x * s.start.y - d.y * s.start.x)) := by
    rw [List.map_map]
    exact List.map_congr_left fun s _ => wedge_shift d s
  rw [signedArea_eq_sum, signedArea_eq_sum, sides_shift, hwedges, List.sum_map_add, hround, add_zero]

theorem probes_shift : probes (r.map (shift d)) = (probes r).map (shift d) := by
  have hlong : (fun s : Segment ℚ => s.start != s.stop) ∘ Segment.shift d = fun s => s.start != s.stop := by
    funext s
    exact congrArg not (shift_beq_shift d s.start s.stop)
  simp only [probes, signedArea_shift, segments_shift, List.filter_map, hlong, List.map_append, List.map_map]
  congr 1
  exact List.map_congr_left fun s _ => Segment.besideMidpoint_shift d s _

/-! ## Faults -/

theorem dropRepeats_shift : dropRepeats (r.map (shift d)) = (dropRepeats r).map (shift d) := by
  rw [dropRepeats_eq_destutter, dropRepeats_eq_destutter, List.map_destutter_ne r (shift_injective d)]

theorem touchingAt?_shift (n : ℕ) (s t : Segment ℚ) (i j : ℕ) :
    touchingAt? n ((s.shift d, i), (t.shift d, j)) = (touchingAt? n ((s, i), (t, j))).map (shift d) := by
  simp only [touchingAt?, Segment.start_shift, Segment.stop_shift, foldsBack_shift, Segment.meets_shift]
  split_ifs <;> rfl

theorem selfMeeting?_shift (points : List (Position ℚ)) :
    selfMeeting? (points.map (shift d)) = (selfMeeting? points).map (shift d) := by
  simp only [selfMeeting?, segments_shift, List.length_map]
  rw [orderedPairs_zipIdx_map, List.findSome?_map, List.map_findSome?]
  congr 1
  funext pair
  obtain ⟨⟨s, i⟩, t, j⟩ := pair
  exact touchingAt?_shift d _ s t i j

theorem ringFault?_shift : ringFault? (r.map (shift d)) = (ringFault? r).map (RingFault.moved (shift d)) := by
  simp only [ringFault?, List.head?_map, List.getLast?_map]
  cases r.head? with
  | none => rfl
  | some first =>
    cases r.getLast? with
    | none => rfl
    | some last =>
      have hends : (shift d first != shift d last) = (first != last) :=
        congrArg not (shift_beq_shift d first last)
      simp only [Option.map_some, hends, dropRepeats_shift, List.length_map, selfMeeting?_shift]
      split_ifs
      · rfl
      · rfl
      · rw [Option.map_map, Option.map_map]
        rfl

end Rings

/-- Moving all positions of a ring is followed by all tests. -/
theorem isFaithful_shift (d : Position ℚ) : IsFaithful (List.map (shift d)) (shift d) where
  fault := ringFault?_shift d
  area := signedArea_shift d
  crossing := ringsCross_shift d
  sharing := ringsShareEdge_shift d
  vertex r f := List.find?_map
  probe r f := by rw [probes_shift, List.any_map]
  border r p _ := onRing_shift d r p
  inside r p _ := insideRing_shift d r p

/-! ## Geometries -/

mutual

/-- The geometry moved by the offset `d`. -/
def shifted (d : Position ℚ) : Geometry ℚ → Geometry ℚ
  | .point p => .point (shift d p)
  | .lineString ps => .lineString (ps.map (shift d))
  | .linearRing ps => .linearRing (ps.map (shift d))
  | .polygon p => .polygon (p.changed (List.map (shift d)))
  | .multiPoint ps => .multiPoint (ps.map (shift d))
  | .multiLineString lines => .multiLineString (lines.map (List.map (shift d)))
  | .multiPolygon polygons => .multiPolygon (polygons.map (Polygon.changed (List.map (shift d))))
  | .collection members => .collection (shiftedAll d members)

/-- A list of geometries moved by an offset. -/
def shiftedAll (d : Position ℚ) : List (Geometry ℚ) → List (Geometry ℚ)
  | [] => []
  | member :: members => member.shifted d :: shiftedAll d members

end

mutual

theorem area_shift (d : Position ℚ) : ∀ g : Geometry ℚ, area (g.shifted d) = area g
  | .polygon p => (isFaithful_shift d).polygonArea p
  | .multiPolygon polygons => congrArg total ((isFaithful_shift d).areas polygons)
  | .collection members => congrArg total (areas_shift d members)
  | .point _ | .lineString _ | .linearRing _ | .multiPoint _ | .multiLineString _ => rfl

theorem areas_shift (d : Position ℚ) : ∀ members : List (Geometry ℚ), areas (shiftedAll d members) = areas members
  | [] => rfl
  | member :: members => congrArg₂ List.cons (area_shift d member) (areas_shift d members)

end

/-- A moved geometry has the problem of the geometry, with the position of the problem moved, and the same area. -/
theorem problem?_shifted (d : Position ℚ) (g : Geometry ℚ) :
    problem? (g.shifted d) = (problem? g).map (Problem.moved (shift d)) ∧ area (g.shifted d) = area g := by
  refine ⟨?_, area_shift d g⟩
  cases g with
  | polygon p => exact (isFaithful_shift d).problem? p
  | multiPolygon polygons => exact (isFaithful_shift d).problemOfAll? polygons
  | _ => rfl

-- a bow tie across the antimeridian, written on the other side of it
example : problem? (shifted ⟨-360, 0⟩ (.polygon ⟨[⟨170, 0⟩, ⟨190, 10⟩, ⟨190, 0⟩, ⟨170, 10⟩, ⟨170, 0⟩], []⟩)) =
    some (.selfIntersection 0 ⟨-170, 0⟩) := by cbv

end OccurrenceQuery.Geometry
