/-
The parity of a closed ring. Moving a position without touching the ring does not change whether it lies
inside: an edge that comes to stop the ray, or ceases to, does so by an end that passes between the ray
before and the ray after, and round the ring these ends pass in pairs.
-/
import OccurrenceQuery.Geometry.Ring
import OccurrenceQuery.Proofs.Geometry.Segment

namespace OccurrenceQuery.Geometry

namespace Segment

variable {s t : Segment ℚ} {p q u w z : Position ℚ}

/-! ## Where a ray meets a segment -/

/-- Whether the ends of a segment lie on different sides of a height; an end at the height counts as below. -/
def Spans (s : Segment ℚ) (y : ℚ) : Prop :=
  s.start.y ≤ y ∧ y < s.stop.y ∨ s.stop.y ≤ y ∧ y < s.start.y

/-- The position at a height on the line of a segment that is not level. -/
def crossing (s : Segment ℚ) (y : ℚ) : Position ℚ :=
  ⟨s.start.x + (y - s.start.y) * (s.stop.x - s.start.x) / (s.stop.y - s.start.y), y⟩

theorem Spans.not_level {y : ℚ} (h : s.Spans y) : s.start.y ≠ s.stop.y := by
  rcases h with h | h
  · exact (h.1.trans_lt h.2).ne
  · exact (h.1.trans_lt h.2).ne'

theorem spans_swap (a b : Position ℚ) (y : ℚ) : Spans ⟨a, b⟩ y ↔ Spans ⟨b, a⟩ y := or_comm

theorem stopsRay_iff (s : Segment ℚ) (p : Position ℚ) :
    s.stopsRay p = true ↔ s.Spans p.y ∧ p.x < (s.crossing p.y).x := by
  have hside : (decide (p.y < s.start.y) != decide (p.y < s.stop.y)) = true ↔ s.Spans p.y := by
    unfold Spans
    by_cases ha : p.y < s.start.y <;> by_cases hb : p.y < s.stop.y <;>
      simp [ha, hb, not_le.2, not_lt.1]
  rw [← hside]
  unfold stopsRay
  rw [Bool.and_eq_true, decide_eq_true_eq]
  exact Iff.rfl

theorem crossing_eq_along (h : s.start.y ≠ s.stop.y) (y : ℚ) :
    s.crossing y = s.along ((y - s.start.y) / (s.stop.y - s.start.y)) := by
  have hy : s.stop.y - s.start.y ≠ 0 := fun h' => h (sub_eq_zero.1 h').symm
  refine Position.eq_of_xy ?_ ?_
  · simp only [crossing, along]
    ring
  · simp only [crossing, along, div_mul_cancel₀ _ hy]
    ring

theorem covers_crossing {y : ℚ} (h : s.Spans y) : s.covers (s.crossing y) = true := by
  rw [crossing_eq_along h.not_level]
  rcases h with ⟨h0, h1⟩ | ⟨h0, h1⟩
  · exact covers_along (div_nonneg (by linarith) (by linarith)) ((div_le_one (by linarith)).2 (by linarith))
  · exact covers_along (div_nonneg_of_nonpos (by linarith) (by linarith))
      ((div_le_one_of_neg (by linarith)).2 (by linarith))

theorem eq_crossing_of_covers (hne : s.start.y ≠ s.stop.y) (h : s.covers p = true) : p = s.crossing p.y := by
  obtain ⟨part, -, -, rfl⟩ := (covers_iff s p).1 h
  have hy : s.stop.y - s.start.y ≠ 0 := fun h' => hne (sub_eq_zero.1 h').symm
  have hpart : ((s.along part).y - s.start.y) / (s.stop.y - s.start.y) = part := by
    rw [div_eq_iff hy]
    simp only [along]
    ring
  rw [crossing_eq_along hne, hpart]

theorem stopsRay_swap (a b p : Position ℚ) : stopsRay ⟨a, b⟩ p = stopsRay ⟨b, a⟩ p := by
  rw [Bool.eq_iff_iff, stopsRay_iff, stopsRay_iff, spans_swap]
  refine and_congr_right fun h => ?_
  have hcovers := covers_crossing h
  rw [covers_swap] at hcovers
  have heq := eq_crossing_of_covers (s := ⟨a, b⟩) (fun h' => h.not_level h'.symm) hcovers
  rw [heq]
  rfl

/-! ## Moving past a segment -/

/-- Whether two segments have no position in common. -/
def Misses (s t : Segment ℚ) : Prop := ∀ z, s.covers z = true → ¬ t.covers z = true

theorem Misses.between (h : s.Misses t) (hu : s.covers u = true) (hw : s.covers w = true) :
    Misses ⟨u, w⟩ t := fun z hz => h z (covers_of_between hu hw hz)

/-- From the right of a segment to its left, a way within its heights meets it. -/
theorem exists_common_of_turn (hpq : p.y < q.y) (hu : p.y ≤ u.y ∧ u.y ≤ q.y) (hw : p.y ≤ w.y ∧ w.y ≤ q.y)
    (hright : turn p q u < 0) (hleft : 0 ≤ turn p q w) :
    ∃ z, Segment.covers ⟨u, w⟩ z = true ∧ Segment.covers ⟨p, q⟩ z = true := by
  have hspan : 0 < turn p q w - turn p q u := by linarith
  have h0 : 0 ≤ -turn p q u / (turn p q w - turn p q u) := div_nonneg (by linarith) hspan.le
  have h1 : -turn p q u / (turn p q w - turn p q u) ≤ 1 := (div_le_one hspan).2 (by linarith)
  have hcancel := div_mul_cancel₀ (-turn p q u) hspan.ne'
  -- the part of the way at which the turn vanishes
  generalize -turn p q u / (turn p q w - turn p q u) = part at h0 h1 hcancel
  refine ⟨along ⟨u, w⟩ part, covers_along h0 h1, ?_⟩
  have hzero : turn p q (along ⟨u, w⟩ part) = 0 := by
    rw [turn_along]
    linear_combination hcancel
  have hy : p.y ≤ (along ⟨u, w⟩ part).y ∧ (along ⟨u, w⟩ part).y ≤ q.y := by
    simp only [along]
    constructor <;> nlinarith
  obtain ⟨share, hshare⟩ := exists_along (s := ⟨p, q⟩) (fun h : p = q => hpq.ne (by rw [h])) hzero
  have hstep : p.y + share * (q.y - p.y) = (along ⟨u, w⟩ part).y := by rw [hshare]; rfl
  rw [hshare]
  refine covers_along ?_ ?_
  · by_contra hneg
    nlinarith
  · by_contra hbig
    nlinarith

theorem right_iff_of_misses (hpq : p.y < q.y) (hu : p.y ≤ u.y ∧ u.y ≤ q.y) (hw : p.y ≤ w.y ∧ w.y ≤ q.y)
    (hmiss : Misses ⟨u, w⟩ ⟨p, q⟩) : turn p q u < 0 ↔ turn p q w < 0 := by
  constructor
  · intro hright
    by_contra hleft
    obtain ⟨z, hz, hz'⟩ := exists_common_of_turn hpq hu hw hright (not_lt.1 hleft)
    exact hmiss z hz hz'
  · intro hright
    by_contra hleft
    obtain ⟨z, hz, hz'⟩ := exists_common_of_turn hpq hw hu hright (not_lt.1 hleft)
    rw [covers_swap] at hz
    exact hmiss z hz hz'

/-- Whether a position lies right of the way up from `p` to `q`: above the ray from `p`, and not above
the ray from `q`. -/
def passes (p q v : Position ℚ) : Bool := decide (p.y < v.y ∧ v.y ≤ q.y ∧ turn p q v < 0)

/-- A crossing at the height of the lower end is right of the way when it is right of that end. -/
theorem right_crossing_low (hpq : p.y < q.y) : turn p q (s.crossing p.y) < 0 ↔ p.x < (s.crossing p.y).x := by
  have hturn : turn p q (s.crossing p.y) = (q.y - p.y) * (p.x - (s.crossing p.y).x) := by
    simp only [turn_eq, crossing]
    ring
  rw [hturn, mul_neg_iff]
  constructor
  · rintro (h | h) <;> linarith
  · exact fun h => .inl ⟨by linarith, by linarith⟩

theorem right_crossing_high (hpq : p.y < q.y) : turn p q (s.crossing q.y) < 0 ↔ q.x < (s.crossing q.y).x := by
  have hturn : turn p q (s.crossing q.y) = (q.y - p.y) * (q.x - (s.crossing q.y).x) := by
    simp only [turn_eq, crossing]
    ring
  rw [hturn, mul_neg_iff]
  constructor
  · rintro (h | h) <;> linarith
  · exact fun h => .inl ⟨by linarith, by linarith⟩

/-- Both rays end on the same side of a segment that spans the heights of both and misses the way. -/
theorem crossing_iff_of_misses (hpq : p.y ≤ q.y) (hp : s.Spans p.y) (hq : s.Spans q.y)
    (hmiss : s.Misses ⟨p, q⟩) : p.x < (s.crossing p.y).x ↔ q.x < (s.crossing q.y).x := by
  rcases hpq.lt_or_eq with hlt | heq
  · rw [← right_crossing_low hlt, ← right_crossing_high hlt]
    exact right_iff_of_misses hlt ⟨le_rfl, hpq⟩ ⟨hpq, le_rfl⟩
      (hmiss.between (covers_crossing hp) (covers_crossing hq))
  · -- on a level way the crossing would lie between its ends
    have hcovers := covers_crossing hp
    have hout : ¬ Segment.covers ⟨p, q⟩ (s.crossing p.y) = true := hmiss _ hcovers
    rw [covers_iff_box] at hout
    have hturn : turn p q (s.crossing p.y) = 0 := by
      simp only [turn_eq, crossing, ← heq]
      ring
    have hbox : ¬ (min p.x q.x ≤ (s.crossing p.y).x ∧ (s.crossing p.y).x ≤ max p.x q.x) := fun h =>
      hout ⟨hturn, h, by simp [crossing, ← heq], by simp [crossing, ← heq]⟩
    rw [← heq]
    generalize (s.crossing p.y).x = c at hbox
    constructor
    · intro h
      by_contra h'
      exact hbox ⟨min_le_of_left_le h.le, le_max_of_le_right (not_lt.1 h')⟩
    · intro h
      by_contra h'
      exact hbox ⟨min_le_of_right_le h.le, le_max_of_le_left (not_lt.1 h')⟩

/-- For a segment that does not go down, the rays from the ends of a way that it misses are stopped alike
exactly when both of its ends pass between the rays, or none does. -/
theorem ray_change_up (hpq : p.y ≤ q.y) (hup : s.start.y ≤ s.stop.y) (hmiss : s.Misses ⟨p, q⟩) :
    s.stopsRay p = s.stopsRay q ↔ passes p q s.start = passes p q s.stop := by
  have hspan : ∀ y, s.Spans y ↔ s.start.y ≤ y ∧ y < s.stop.y := fun y =>
    ⟨fun h => h.resolve_right fun h' => absurd (h'.1.trans_lt h'.2) (not_lt.2 hup), .inl⟩
  rw [@Bool.eq_iff_iff (s.stopsRay p), @Bool.eq_iff_iff (passes p q s.start), stopsRay_iff, stopsRay_iff]
  simp only [passes, decide_eq_true_eq]
  rcases le_or_gt s.stop.y p.y with hlow | hlow
  · -- below both rays
    have hp : ¬ s.Spans p.y := fun h => absurd ((hspan _).1 h).2 (not_lt.2 hlow)
    have hq : ¬ s.Spans q.y := fun h => absurd ((hspan _).1 h).2 (not_lt.2 (hlow.trans hpq))
    simp [hp, hq, not_lt.2 hlow, not_lt.2 (hup.trans hlow)]
  rcases lt_or_ge q.y s.start.y with hhigh | hhigh
  · -- above both rays
    have hp : ¬ s.Spans p.y := fun h => absurd ((hspan _).1 h).1 (not_le.2 (hpq.trans_lt hhigh))
    have hq : ¬ s.Spans q.y := fun h => absurd ((hspan _).1 h).1 (not_le.2 hhigh)
    simp [hp, hq, not_le.2 hhigh, not_le.2 (hhigh.trans_le hup)]
  rcases le_or_gt s.start.y p.y with hstart | hstart
  · have hp : s.Spans p.y := (hspan _).2 ⟨hstart, hlow⟩
    rcases le_or_gt s.stop.y q.y with hstop | hstop
    · -- through the lower ray only
      have hlt : p.y < q.y := hlow.trans_le hstop
      have hq : ¬ s.Spans q.y := fun h => absurd ((hspan _).1 h).2 (not_lt.2 hstop)
      have hright := right_iff_of_misses (u := s.crossing p.y) (w := s.stop) hlt ⟨le_rfl, hpq⟩ ⟨hlow.le, hstop⟩
        (hmiss.between (covers_crossing hp) (covers_stop s))
      rw [right_crossing_low hlt] at hright
      simp [hp, hq, hlow, hstop, hright, not_lt.2 hstart]
    · -- through both rays
      have hq : s.Spans q.y := (hspan _).2 ⟨hhigh, hstop⟩
      have hboth := crossing_iff_of_misses hpq hp hq hmiss
      simp [hp, hq, hboth, not_lt.2 hstart, not_le.2 hstop]
  · have hp : ¬ s.Spans p.y := fun h => absurd ((hspan _).1 h).1 (not_le.2 hstart)
    have hlt : p.y < q.y := hstart.trans_le hhigh
    rcases le_or_gt s.stop.y q.y with hstop | hstop
    · -- between the rays
      have hq : ¬ s.Spans q.y := fun h => absurd ((hspan _).1 h).2 (not_lt.2 hstop)
      have hright := right_iff_of_misses hlt ⟨hstart.le, hhigh⟩ ⟨hlow.le, hstop⟩
        (hmiss.between (covers_start s) (covers_stop s))
      simp [hp, hq, hstart, hhigh, hlow, hstop, hright]
    · -- through the upper ray only
      have hq : s.Spans q.y := (hspan _).2 ⟨hhigh, hstop⟩
      have hright := right_iff_of_misses (u := s.start) (w := s.crossing q.y) hlt ⟨hstart.le, hhigh⟩ ⟨hpq, le_rfl⟩
        (hmiss.between (covers_start s) (covers_crossing hq))
      rw [right_crossing_high hlt] at hright
      simp [hp, hq, hstart, hhigh, hright, not_le.2 hstop]

theorem ray_change (hpq : p.y ≤ q.y) (hmiss : s.Misses ⟨p, q⟩) :
    s.stopsRay p = s.stopsRay q ↔ passes p q s.start = passes p q s.stop := by
  rcases le_total s.start.y s.stop.y with hup | hdown
  · exact ray_change_up hpq hup hmiss
  · have hback : Misses ⟨s.stop, s.start⟩ ⟨p, q⟩ := fun z hz => hmiss z (by rwa [covers_swap] at hz)
    have h := ray_change_up hpq hdown hback
    rw [stopsRay_swap, stopsRay_swap s.stop s.start q] at h
    exact h.trans eq_comm

end Segment

/-! ## Round a ring -/

/-- Along a way through positions, two marks of its segments that differ exactly where a mark of its
positions changes differ oddly often exactly when the ends of the way have different marks. -/
theorem countP_add_countP_segments (f g : Segment ℚ → Bool) (mark : Position ℚ → Bool) (v : Position ℚ)
    (ps : List (Position ℚ)) (h : ∀ s ∈ segments (v :: ps), f s = g s ↔ mark s.start = mark s.stop) :
    ((segments (v :: ps)).countP f + (segments (v :: ps)).countP g) % 2 =
      if mark v = mark ((v :: ps).getLast (List.cons_ne_nil v ps)) then 0 else 1 := by
  induction ps generalizing v with
  | nil => simp [segments]
  | cons w ps ih =>
    have hedge := h ⟨v, w⟩ List.mem_cons_self
    have hrest := ih w fun s hs => h s (List.mem_cons_of_mem _ hs)
    rw [List.getLast_cons (List.cons_ne_nil w ps)]
    simp only [segments, List.countP_cons]
    generalize List.countP f (segments (w :: ps)) = m at hrest ⊢
    generalize List.countP g (segments (w :: ps)) = n at hrest ⊢
    generalize mark ((w :: ps).getLast _) = last at hrest ⊢
    generalize f ⟨v, w⟩ = a at hedge ⊢
    generalize g ⟨v, w⟩ = b at hedge ⊢
    -- the first edge adds two or nothing when its ends have one mark, and else one
    by_cases hab : a = b
    · rw [hedge.1 hab, ← hrest, hab]
      cases b
      · simp
      · simp
        omega
    · have hmark : mark v ≠ mark w := fun h => hab (hedge.2 h)
      have hodd : (m + (if a = true then 1 else 0) + (n + if b = true then 1 else 0)) % 2 = (m + n + 1) % 2 := by
        cases a <;> cases b <;> simp at hab ⊢ <;> omega
      rw [hodd]
      generalize mark v = c at hmark ⊢
      generalize mark w = d at hmark hrest
      cases c <;> cases d <;> cases last <;> simp at hmark hrest ⊢ <;> omega

theorem mem_of_mem_segments : ∀ {ps : List (Position ℚ)} {s : Segment ℚ}, s ∈ segments ps →
    s.start ∈ ps ∧ s.stop ∈ ps
  | p :: q :: ps, s, hs => by
    rcases List.mem_cons.1 hs with rfl | hs
    · exact ⟨List.mem_cons_self, List.mem_cons_of_mem _ List.mem_cons_self⟩
    · obtain ⟨hstart, hstop⟩ := mem_of_mem_segments hs
      exact ⟨List.mem_cons_of_mem _ hstart, List.mem_cons_of_mem _ hstop⟩

variable {p q u w z : Position ℚ} {ring : Ring ℚ}

theorem onRing_iff (p : Position ℚ) (ring : Ring ℚ) :
    onRing p ring = true ↔ ∃ s ∈ segments ring, s.covers p = true := List.any_eq_true

theorem onRing_eq_false_iff (p : Position ℚ) (ring : Ring ℚ) :
    onRing p ring = false ↔ ∀ s ∈ segments ring, ¬ s.covers p = true := by
  rw [← Bool.not_eq_true, onRing_iff]
  simp only [not_exists, not_and]

theorem insideRing_iff (p : Position ℚ) (ring : Ring ℚ) : insideRing p ring = true ↔
    onRing p ring = false ∧ (segments ring).countP (·.stopsRay p) % 2 = 1 := by
  unfold insideRing
  rw [Bool.and_eq_true, Bool.not_eq_true', beq_iff_eq]

/-- Whether a ring ends where it begins. -/
def IsClosed (ring : Ring ℚ) : Prop := ring.head? = ring.getLast?

theorem IsClosed.getLast_eq {v : Position ℚ} {ps : List (Position ℚ)} (h : IsClosed (v :: ps)) :
    (v :: ps).getLast (List.cons_ne_nil v ps) = v := by
  have hsome := h.symm
  rw [List.getLast?_eq_some_getLast (List.cons_ne_nil v ps)] at hsome
  exact Option.some.inj hsome

/-- Whether a way touches no position of a ring. -/
def Avoids (way : Segment ℚ) (ring : Ring ℚ) : Prop := ∀ z, way.covers z = true → onRing z ring = false

theorem Avoids.misses {way s : Segment ℚ} (h : Avoids way ring) (hs : s ∈ segments ring) : s.Misses way := by
  intro z hz hway
  have hon := (onRing_iff z ring).2 ⟨s, hs, hz⟩
  rw [h z hway] at hon
  cases hon

theorem Avoids.between {way : Segment ℚ} (h : Avoids way ring) (hu : way.covers u = true)
    (hw : way.covers w = true) : Avoids ⟨u, w⟩ ring := fun z hz =>
  h z (Segment.covers_of_between hu hw hz)

theorem Avoids.swap (h : Avoids ⟨p, q⟩ ring) : Avoids ⟨q, p⟩ ring := fun z hz =>
  h z (by rwa [Segment.covers_swap])

/-- The rays from the ends of a way that a closed ring is not touched by pass it both oddly often, or both
evenly often. -/
theorem countP_stopsRay_of_avoids (hclosed : IsClosed ring) (hpq : p.y ≤ q.y) (h : Avoids ⟨p, q⟩ ring) :
    ((segments ring).countP (·.stopsRay p) + (segments ring).countP (·.stopsRay q)) % 2 = 0 := by
  cases ring with
  | nil => rfl
  | cons v ps =>
    have hround := countP_add_countP_segments (·.stopsRay p) (·.stopsRay q) (Segment.passes p q) v ps
      fun s hs => Segment.ray_change hpq (h.misses hs)
    rw [hclosed.getLast_eq, if_pos rfl] at hround
    exact hround

/-- Moving along a way that does not touch a closed ring neither enters nor leaves it. -/
theorem insideRing_eq_of_avoids (hclosed : IsClosed ring) (h : Avoids ⟨p, q⟩ ring) :
    insideRing p ring = insideRing q ring := by
  have hp : onRing p ring = false := h p (Segment.covers_start ⟨p, q⟩)
  have hq : onRing q ring = false := h q (Segment.covers_stop ⟨p, q⟩)
  rw [Bool.eq_iff_iff, insideRing_iff, insideRing_iff, hp, hq]
  refine and_congr_right fun _ => ?_
  rcases le_total p.y q.y with hpq | hqp
  · have := countP_stopsRay_of_avoids hclosed hpq h
    omega
  · have := countP_stopsRay_of_avoids hclosed hqp h.swap
    omega

theorem insideRing_eq_of_segments (hclosed : IsClosed ring) (v : Position ℚ) (ps : List (Position ℚ))
    (h : ∀ s ∈ segments (v :: ps), Avoids s ring) :
    ∀ s ∈ segments (v :: ps), s.covers z = true → insideRing z ring = insideRing v ring := by
  induction ps generalizing v with
  | nil => intro s hs; cases hs
  | cons w ps ih =>
    have hfirst : Avoids ⟨v, w⟩ ring := h _ List.mem_cons_self
    intro s hs hz
    rcases List.mem_cons.1 hs with rfl | hs
    · exact (insideRing_eq_of_avoids hclosed (hfirst.between (Segment.covers_start ⟨v, w⟩) hz)).symm
    · rw [ih w (fun t ht => h t (List.mem_cons_of_mem _ ht)) s hs hz]
      exact (insideRing_eq_of_avoids hclosed hfirst).symm

/-- Of a ring that shares no position with a closed ring, all positions lie inside that one, or none. -/
theorem insideRing_eq_of_disjoint {other : Ring ℚ} (hclosed : IsClosed ring)
    (hdisjoint : ∀ z, onRing z other = true → onRing z ring = false)
    (hu : onRing u other = true) (hw : onRing w other = true) : insideRing u ring = insideRing w ring := by
  cases other with
  | nil => cases hu
  | cons v ps =>
    have havoid : ∀ s ∈ segments (v :: ps), Avoids s ring := fun s hs z hz =>
      hdisjoint z ((onRing_iff z _).2 ⟨s, hs, hz⟩)
    obtain ⟨s, hs, hsu⟩ := (onRing_iff u _).1 hu
    obtain ⟨t, ht, htw⟩ := (onRing_iff w _).1 hw
    rw [insideRing_eq_of_segments hclosed v ps havoid s hs hsu,
      insideRing_eq_of_segments hclosed v ps havoid t ht htw]

end OccurrenceQuery.Geometry
