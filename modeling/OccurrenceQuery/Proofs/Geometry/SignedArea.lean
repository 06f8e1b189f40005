/-
The signed area of a ring as a sum. Each side adds the triangle that it makes with the origin, so that what sums to
nothing round a ring does not matter to its area: the sides of length zero, and the differences that the sides make
to a measure of their ends.
-/
import Mathlib.Tactic
import OccurrenceQuery.Geometry.Ring
import OccurrenceQuery.Proofs.Geometry.Segment

namespace OccurrenceQuery.Geometry

/-! ## The sum over the sides -/

/-- Twice the signed area of the triangle from the origin over the segment. -/
def Segment.wedge (s : Segment ℚ) : ℚ := s.start.x * s.stop.y - s.stop.x * s.start.y

theorem foldl_add_eq {β : Type} (f : β → ℚ) (bs : List β) (start : ℚ) :
    bs.foldl (fun sum b => sum + f b) start = start + (bs.map f).sum := by
  induction bs generalizing start with
  | nil => simp
  | cons b bs ih => rw [List.foldl_cons, ih, List.map_cons, List.sum_cons, add_assoc]

theorem signedArea_eq (ring : Ring ℚ) :
    signedArea ring = if ring.length < 3 then 0 else ((sides ring).map Segment.wedge).sum / 2 := by
  have htwo : (2.0 : ℚ) = 2 := by norm_num
  unfold signedArea
  split
  · rfl
  · show (sides ring).foldl (fun sum s => sum + s.wedge) (0 : ℚ) / (2.0 : ℚ) = _
    rw [foldl_add_eq, htwo, zero_add]

/-- A ring of at most two positions has no area by its sides either. -/
theorem signedArea_eq_sum (ring : Ring ℚ) : signedArea ring = ((sides ring).map Segment.wedge).sum / 2 := by
  rw [signedArea_eq]
  split
  · rename_i hlength
    match ring, hlength with
    | [], _ => simp [sides]
    | [p], _ => simp [sides, segments, Segment.wedge]
    | [p, q], _ => simp [sides, segments, Segment.wedge]
    | _ :: _ :: _ :: _, hlength => exact absurd hlength (by simp)
  · rfl

/-! ## Sums that telescope -/

/-- Along a way through positions, the differences of a measure add up to that of the ends. -/
theorem sum_segments_sub (f : Position ℚ → ℚ) : ∀ (ps : List (Position ℚ)) (p q : Position ℚ),
    ((segments (p :: ps ++ [q])).map fun s => f s.stop - f s.start).sum = f q - f p
  | [], p, q => by simp [segments]
  | r :: ps, p, q => by
    have ih := sum_segments_sub f ps r q
    simp only [List.cons_append, segments, List.map_cons, List.sum_cons] at ih ⊢
    rw [ih]
    ring

/-- Round a ring, they add up to zero. -/
theorem sum_sides_sub (f : Position ℚ → ℚ) (ring : Ring ℚ) :
    ((sides ring).map fun s => f s.stop - f s.start).sum = 0 := by
  cases ring with
  | nil => rfl
  | cons p ps => rw [sides, sum_segments_sub, sub_self]

end OccurrenceQuery.Geometry
