/-
Casting a ray. Round a closed ring the segments that span a height are even in number, whatever vertices and level
segments lie at that height. So a position at the left of all vertices has an even number of segments ahead, and one
below them can be moved away downwards; what lies inside a closed ring lies strictly inside its bounding box. The
number of segments ahead depends neither on the vertex that the ring is listed from nor on its direction.
-/
import OccurrenceQuery.Proofs.Geometry.Overlap
import OccurrenceQuery.Proofs.Geometry.Relisting

namespace OccurrenceQuery.Geometry

variable {p : Position ℚ} {ring : Ring ℚ}

/-! ## Segments that span a height -/

instance (s : Segment ℚ) (y : ℚ) : Decidable (s.Spans y) := inferInstanceAs (Decidable (_ ∨ _))

/-- The half-open comparison: of the ends of a segment that spans a height, one is above and one is not. -/
theorem Segment.not_spans_iff (s : Segment ℚ) (y : ℚ) : ¬ s.Spans y ↔ (y < s.start.y ↔ y < s.stop.y) := by
  unfold Spans
  rcases lt_or_ge y s.start.y with hstart | hstart <;> rcases lt_or_ge y s.stop.y with hstop | hstop <;>
    simp [hstart, hstop, not_le.2, not_lt.2]

/-- The segments of a closed ring that span a height are even in number. -/
theorem countP_spans_even (h : IsClosed ring) (y : ℚ) :
    (segments ring).countP (fun s => decide (s.Spans y)) % 2 = 0 := by
  cases ring with
  | nil => rfl
  | cons v ps =>
    have hround := countP_add_countP_segments (fun s => decide (s.Spans y)) (fun _ => false) (fun v => decide (y < v.y))
      v ps fun s _ => by rw [decide_eq_false_iff_not, Segment.not_spans_iff, decide_eq_decide]
    rw [h.getLast_eq, if_pos rfl, List.countP_false, Function.const_apply, add_zero] at hround
    exact hround

/-! ## The bounding box -/

/-- Whether a position lies strictly inside the bounding box of a ring: there are vertices further to each side. -/
structure InBox (ring : Ring ℚ) (p : Position ℚ) : Prop where
  left : ∃ v ∈ ring, v.x < p.x
  right : ∃ v ∈ ring, p.x < v.x
  below : ∃ v ∈ ring, v.y < p.y
  above : ∃ v ∈ ring, p.y < v.y

/-- From the left of all vertices, the ray meets all segments that span its height. -/
theorem exists_left_of_insideRing (hclosed : IsClosed ring) (hin : insideRing p ring = true) :
    ∃ v ∈ ring, v.x < p.x := by
  by_contra hnone
  push Not at hnone
  obtain ⟨hoff, hodd⟩ := (insideRing_iff p ring).1 hin
  rw [onRing_eq_false_iff] at hoff
  have hray : ∀ s ∈ segments ring, s.stopsRay p = true ↔ decide (s.Spans p.y) = true := by
    intro s hs
    rw [Segment.stopsRay_iff, decide_eq_true_eq, and_iff_left_iff_imp]
    intro hspans
    have hcovers := Segment.covers_crossing hspans
    obtain ⟨hstart, hstop⟩ := mem_of_mem_segments hs
    obtain ⟨-, ⟨hleft, -⟩, -⟩ := (Segment.covers_iff_box s _).1 hcovers
    have hle : p.x ≤ (s.crossing p.y).x := (le_min (hnone _ hstart) (hnone _ hstop)).trans hleft
    -- the crossing is no other position than `p` when it is not further to the right
    refine lt_of_le_of_ne hle fun heq => hoff s hs ?_
    rwa [← Position.eq_of_xy (p := p) heq rfl] at hcovers
  have heven := countP_spans_even hclosed p.y
  rw [← List.countP_congr hray] at heven
  omega

theorem exists_right_of_insideRing (hin : insideRing p ring = true) : ∃ v ∈ ring, p.x < v.x := by
  obtain ⟨s, hs, hray⟩ := exists_stopsRay_of_insideRing hin
  obtain ⟨hstart, hstop⟩ := mem_of_mem_segments hs
  rcases lt_end_of_stopsRay hray with h | h
  · exact ⟨_, hstart, h⟩
  · exact ⟨_, hstop, h⟩

/-- The ray meets a segment with one end at its height or below and one end above. -/
theorem exists_atMost_and_above_of_insideRing (hin : insideRing p ring = true) :
    (∃ v ∈ ring, v.y ≤ p.y) ∧ ∃ v ∈ ring, p.y < v.y := by
  obtain ⟨s, hs, hray⟩ := exists_stopsRay_of_insideRing hin
  obtain ⟨hstart, hstop⟩ := mem_of_mem_segments hs
  rcases ((Segment.stopsRay_iff s p).1 hray).1 with h | h
  · exact ⟨⟨_, hstart, h.1⟩, _, hstop, h.2⟩
  · exact ⟨⟨_, hstop, h.1⟩, _, hstart, h.2⟩

/-- From below all vertices or level with the lowest, the way down leads away from the ring. -/
theorem exists_below_of_insideRing (hclosed : IsClosed ring) (hin : insideRing p ring = true) :
    ∃ v ∈ ring, v.y < p.y := by
  by_contra hnone
  push Not at hnone
  have hoff := ((insideRing_iff p ring).1 hin).1
  have hlow : ∀ z, onRing z ring = true → p.y ≤ z.y := by
    intro z hz
    obtain ⟨s, hs, hsz⟩ := (onRing_iff z ring).1 hz
    obtain ⟨hstart, hstop⟩ := mem_of_mem_segments hs
    exact (le_min (hnone _ hstart) (hnone _ hstop)).trans ((Segment.covers_iff_box s z).1 hsz).2.2.1
  have havoid : Avoids ⟨p, ⟨p.x, p.y - 1⟩⟩ ring := by
    intro z hz
    obtain ⟨part, h0, -, rfl⟩ := (Segment.covers_iff _ z).1 hz
    rcases h0.eq_or_lt with rfl | hpos
    · rwa [Segment.along_zero]
    · refine Bool.eq_false_iff.2 fun hon => absurd (hlow _ hon) (not_le.2 ?_)
      simp only [Segment.along]
      linarith
  rw [insideRing_eq_of_avoids hclosed havoid] at hin
  obtain ⟨v, hv, hle⟩ := (exists_atMost_and_above_of_insideRing hin).1
  have hge := hnone v hv
  dsimp only at hle
  linarith

theorem inBox_of_insideRing (hclosed : IsClosed ring) (hin : insideRing p ring = true) : InBox ring p :=
  ⟨exists_left_of_insideRing hclosed hin, exists_right_of_insideRing hin, exists_below_of_insideRing hclosed hin,
    (exists_atMost_and_above_of_insideRing hin).2⟩

/-! ## Start and direction -/

theorem onRing_reverse (p : Position ℚ) (ring : Ring ℚ) : onRing p ring.reverse = onRing p ring := by
  have hturned : (fun s : Segment ℚ => s.covers p) ∘ Segment.turned = fun s => s.covers p := by
    funext s
    exact Segment.covers_swap s.stop s.start p
  rw [onRing, segments_reverse, List.any_reverse, List.any_map, hturned, onRing]

/-- The ray meets the segments of a ring read backwards that it meets of the ring. -/
theorem insideRing_reverse (p : Position ℚ) (ring : Ring ℚ) : insideRing p ring.reverse = insideRing p ring := by
  have hturned : (fun s : Segment ℚ => s.stopsRay p) ∘ Segment.turned = fun s => s.stopsRay p := by
    funext s
    exact Segment.stopsRay_swap s.stop s.start p
  rw [insideRing, onRing_reverse, segments_reverse, List.countP_reverse, List.countP_map, hturned, insideRing]

/-- Whether a position lies inside a closed ring depends neither on the vertex that the ring is listed from nor on its
direction, and a position that is not strictly inside its bounding box does not. -/
theorem insideRing_laws (hclosed : IsClosed ring) (p : Position ℚ) :
    (∀ n, insideRing p (listedFrom n ring) = insideRing p ring) ∧
    insideRing p ring.reverse = insideRing p ring ∧
    (¬ InBox ring p → insideRing p ring = false) :=
  ⟨fun n => (isAlike_listedFrom hclosed n).inside p, insideRing_reverse p ring,
    fun hout => Bool.eq_false_iff.2 fun hin => hout (inBox_of_insideRing hclosed hin)⟩

/-- A bow tie. -/
def bowTie : Ring ℚ := [⟨0, 0⟩, ⟨4, 4⟩, ⟨4, 0⟩, ⟨0, 4⟩, ⟨0, 0⟩]

/-- A position in the left wing of the bow tie, and one between the lowest vertices. -/
theorem insideRing_laws_bowTie : IsClosed bowTie ∧ insideRing ⟨1, 2⟩ bowTie = true ∧
    insideRing ⟨1, 2⟩ (listedFrom 2 bowTie) = true ∧ insideRing ⟨1, 2⟩ bowTie.reverse = true ∧
    ¬ InBox bowTie ⟨2, 0⟩ ∧ insideRing ⟨2, 0⟩ bowTie = false := by
  have hclosed : IsClosed bowTie := rfl
  have hin : insideRing ⟨1, 2⟩ bowTie = true := by decide +kernel
  have hlowest : ∀ v ∈ bowTie, 0 ≤ v.y := by decide +kernel
  have hout : ¬ InBox bowTie ⟨2, 0⟩ := fun hbox => by
    obtain ⟨v, hv, hbelow⟩ := hbox.below
    exact absurd (hlowest v hv) (not_le.2 hbelow)
  obtain ⟨hstart, hdirection, -⟩ := insideRing_laws hclosed ⟨1, 2⟩
  exact ⟨hclosed, hin, (hstart 2).trans hin, hdirection.trans hin, hout, (insideRing_laws hclosed ⟨2, 0⟩).2.2 hout⟩

end OccurrenceQuery.Geometry
