/-
What lies round about a position. A position off the rings of a polygon has a box that the rings do not
reach, so being inside a polygon extends to a box; and a ray at a height that no end of an edge has meets a
first edge, before which it touches none.
-/
import OccurrenceQuery.Geometry.Validity
import OccurrenceQuery.Proofs.Geometry.Parity

namespace OccurrenceQuery.Geometry

variable {p q u w z : Position ℚ} {ring : Ring ℚ}

/-! ## Boxes -/

/-- Whether a position lies in the box of the given reach round another. -/
def Near (reach : ℚ) (p z : Position ℚ) : Prop := |z.x - p.x| < reach ∧ |z.y - p.y| < reach

theorem Near.mono {reach reach' : ℚ} (h : Near reach p z) (hle : reach ≤ reach') : Near reach' p z :=
  ⟨h.1.trans_le hle, h.2.trans_le hle⟩

theorem Near.trans {reach reach' : ℚ} (h : Near reach p q) (h' : Near reach' q z) : Near (reach + reach') p z := by
  have add : ∀ {a b c : ℚ}, |b - a| < reach → |c - b| < reach' → |c - a| < reach + reach' := by
    intro a b c hb hc
    rw [abs_lt] at hb hc ⊢
    constructor <;> linarith
  exact ⟨add h.1 h'.1, add h.2 h'.2⟩

theorem near_of_covers {reach : ℚ} (h : Near reach p q) (hz : Segment.covers ⟨p, q⟩ z = true) :
    Near reach p z := by
  obtain ⟨part, h0, h1, rfl⟩ := (Segment.covers_iff _ z).1 hz
  have shrink : ∀ a b : ℚ, |b - a| < reach → |a + part * (b - a) - a| < reach := by
    intro a b hab
    rw [add_sub_cancel_left, abs_mul, abs_of_nonneg h0]
    exact (mul_le_of_le_one_left (abs_nonneg _) h1).trans_lt hab
  exact ⟨shrink p.x q.x h.1, shrink p.y q.y h.2⟩

theorem near_self {reach : ℚ} (hpos : 0 < reach) (z : Position ℚ) : Near reach z z := by
  constructor <;> simpa using hpos

theorem near_of_between {reach : ℚ} (hp : Near reach z p) (hq : Near reach z q)
    (hw : Segment.covers ⟨p, q⟩ w = true) : Near reach z w := by
  obtain ⟨part, h0, h1, rfl⟩ := (Segment.covers_iff _ w).1 hw
  have mix : ∀ {a b c : ℚ}, |a - c| < reach → |b - c| < reach → |a + part * (b - a) - c| < reach := by
    intro a b c ha hb
    obtain ⟨hlow, hhigh⟩ := Segment.between_along (a := a) (b := b) h0 h1
    rw [abs_lt] at ha hb ⊢
    rcases le_total a b with hab | hab
    · rw [min_eq_left hab] at hlow
      rw [max_eq_right hab] at hhigh
      constructor <;> linarith
    · rw [min_eq_right hab] at hlow
      rw [max_eq_left hab] at hhigh
      constructor <;> linarith
  exact ⟨mix hp.1 hq.1, mix hp.2 hq.2⟩

/-- Round a position off a segment there is a box that the segment does not reach. -/
theorem exists_near_segment {s : Segment ℚ} (h : ¬ s.covers p = true) :
    ∃ reach > 0, ∀ z, Near reach p z → ¬ s.covers z = true := by
  simp only [Segment.covers_iff_box] at h ⊢
  by_cases hturn : turn s.start s.stop p = 0
  · -- on the line of the segment it lies outside its box
    obtain ⟨reach, hpos, hfar⟩ : ∃ reach > 0, ∀ z, Near reach p z →
        ¬ ((min s.start.x s.stop.x ≤ z.x ∧ z.x ≤ max s.start.x s.stop.x) ∧
          min s.start.y s.stop.y ≤ z.y ∧ z.y ≤ max s.start.y s.stop.y) := by
      have hout : ¬ ((min s.start.x s.stop.x ≤ p.x ∧ p.x ≤ max s.start.x s.stop.x) ∧
          min s.start.y s.stop.y ≤ p.y ∧ p.y ≤ max s.start.y s.stop.y) := fun hin => h ⟨hturn, hin⟩
      generalize min s.start.x s.stop.x = left at hout ⊢
      generalize max s.start.x s.stop.x = right at hout ⊢
      generalize min s.start.y s.stop.y = low at hout ⊢
      generalize max s.start.y s.stop.y = high at hout ⊢
      rcases lt_or_ge p.x left with hl | hl
      · exact ⟨left - p.x, by linarith, fun z hz hin => by linarith [(abs_lt.1 hz.1).2, hin.1.1]⟩
      rcases lt_or_ge right p.x with hr | hr
      · exact ⟨p.x - right, by linarith, fun z hz hin => by linarith [(abs_lt.1 hz.1).1, hin.1.2]⟩
      rcases lt_or_ge p.y low with hd | hd
      · exact ⟨low - p.y, by linarith, fun z hz hin => by linarith [(abs_lt.1 hz.2).2, hin.2.1]⟩
      rcases lt_or_ge high p.y with hu | hu
      · exact ⟨p.y - high, by linarith, fun z hz hin => by linarith [(abs_lt.1 hz.2).1, hin.2.2]⟩
      · exact absurd ⟨⟨hl, hr⟩, hd, hu⟩ hout
    exact ⟨reach, hpos, fun z hz hin => hfar z hz hin.2⟩
  · -- off the line the turn stays away from zero
    have hlength : 0 < |s.stop.x - s.start.x| + |s.stop.y - s.start.y| + 1 := by positivity
    refine ⟨|turn s.start s.stop p| / (|s.stop.x - s.start.x| + |s.stop.y - s.start.y| + 1),
      div_pos (abs_pos.2 hturn) hlength, ?_⟩
    rintro z ⟨hx, hy⟩ ⟨hzero, -⟩
    have hdiff : turn s.start s.stop p =
        (s.stop.y - s.start.y) * (z.x - p.x) - (s.stop.x - s.start.x) * (z.y - p.y) := by
      rw [turn_eq] at hzero ⊢
      linear_combination hzero
    have hbound : |turn s.start s.stop p| ≤
        |s.stop.y - s.start.y| * |z.x - p.x| + |s.stop.x - s.start.x| * |z.y - p.y| := by
      rw [hdiff, ← abs_mul, ← abs_mul]
      exact abs_sub _ _
    rw [lt_div_iff₀ hlength] at hx hy
    have hsum := abs_nonneg (s.stop.x - s.start.x)
    have hsum' := abs_nonneg (s.stop.y - s.start.y)
    have hpos := abs_pos.2 hturn
    nlinarith [abs_nonneg (z.x - p.x), abs_nonneg (z.y - p.y)]

theorem exists_near_segments (edges : List (Segment ℚ)) (h : ∀ s ∈ edges, ¬ s.covers p = true) :
    ∃ reach > 0, ∀ z, Near reach p z → ∀ s ∈ edges, ¬ s.covers z = true := by
  induction edges with
  | nil => exact ⟨1, one_pos, fun z _ s hs => by cases hs⟩
  | cons s edges ih =>
    obtain ⟨reach, hpos, hfar⟩ := ih fun t ht => h t (List.mem_cons_of_mem s ht)
    obtain ⟨reach', hpos', hfar'⟩ := exists_near_segment (h s List.mem_cons_self)
    refine ⟨min reach reach', lt_min hpos hpos', fun z hz t ht => ?_⟩
    rcases List.mem_cons.1 ht with rfl | ht
    · exact hfar' z (hz.mono (min_le_right _ _))
    · exact hfar z (hz.mono (min_le_left _ _)) t ht

/-- A position inside a closed ring has a box of such positions. -/
theorem exists_near_insideRing (hclosed : IsClosed ring) (h : insideRing p ring = true) :
    ∃ reach > 0, ∀ z, Near reach p z → insideRing z ring = true := by
  have hoff := (onRing_eq_false_iff p ring).1 ((insideRing_iff p ring).1 h).1
  obtain ⟨reach, hpos, hfar⟩ := exists_near_segments _ hoff
  refine ⟨reach, hpos, fun z hz => ?_⟩
  rw [← insideRing_eq_of_avoids hclosed fun w hw => ?_, h]
  exact (onRing_eq_false_iff w ring).2 (hfar w (near_of_covers hz hw))

/-- In every box round a position there is one at a height that is not among finitely many. -/
theorem exists_near_height {reach : ℚ} (hpos : 0 < reach) (p : Position ℚ) {heights : Set ℚ}
    (hfinite : heights.Finite) : ∃ q, Near reach p q ∧ q.y ∉ heights := by
  obtain ⟨y, ⟨hlow, hhigh⟩, hy⟩ :=
    (Set.Ioo_infinite (show p.y < p.y + reach by linarith)).exists_notMem_finite hfinite
  refine ⟨⟨p.x, y⟩, ⟨by simpa using hpos, ?_⟩, hy⟩
  rw [abs_lt]
  constructor <;> simp only <;> linarith

/-! ## Rings of a polygon -/

/-- The edges of some rings. -/
def edges (rings : List (Ring ℚ)) : List (Segment ℚ) := rings.flatMap segments

theorem mem_edges {rings : List (Ring ℚ)} {s : Segment ℚ} :
    s ∈ edges rings ↔ ∃ ring ∈ rings, s ∈ segments ring := List.mem_flatMap

namespace Polygon

variable {a : Polygon ℚ}

theorem hasInside_iff (a : Polygon ℚ) (p : Position ℚ) : a.hasInside p = true ↔
    insideRing p a.shell = true ∧ ∀ hole ∈ a.holes, insideRing p hole = false ∧ onRing p hole = false := by
  simp [hasInside, Bool.and_eq_true]

/-- The inside of a polygon without holes is that of its shell. -/
theorem hasInside_shell_iff (ring : Ring ℚ) (p : Position ℚ) :
    (⟨ring, []⟩ : Polygon ℚ).hasInside p = true ↔ insideRing p ring = true := by
  simp [hasInside_iff]

theorem onRing_of_hasInside (h : a.hasInside p = true) : ∀ ring ∈ a.rings, onRing p ring = false := by
  obtain ⟨hshell, hholes⟩ := (hasInside_iff a p).1 h
  intro ring hring
  rcases List.mem_cons.1 hring with rfl | hring
  · exact ((insideRing_iff p _).1 hshell).1
  · exact (hholes ring hring).2

/-- Moving along a way that touches no ring of a polygon neither enters nor leaves it. -/
theorem hasInside_of_avoids (hclosed : ∀ ring ∈ a.rings, IsClosed ring) (havoid : ∀ ring ∈ a.rings, Avoids ⟨p, q⟩ ring)
    (h : a.hasInside p = true) : a.hasInside q = true := by
  have hmove : ∀ ring ∈ a.rings, insideRing p ring = insideRing q ring := fun ring hring =>
    insideRing_eq_of_avoids (hclosed ring hring) (havoid ring hring)
  obtain ⟨hshell, hholes⟩ := (hasInside_iff a p).1 h
  refine (hasInside_iff a q).2 ⟨?_, fun hole hhole => ⟨?_, ?_⟩⟩
  · rw [← hmove _ List.mem_cons_self, hshell]
  · rw [← hmove _ (List.mem_cons_of_mem _ hhole), (hholes hole hhole).1]
  · exact havoid hole (List.mem_cons_of_mem _ hhole) q (Segment.covers_stop ⟨p, q⟩)

theorem exists_near_hasInside (hclosed : ∀ ring ∈ a.rings, IsClosed ring) (h : a.hasInside p = true) :
    ∃ reach > 0, ∀ z, Near reach p z → a.hasInside z = true := by
  have hoff : ∀ s ∈ edges a.rings, ¬ s.covers p = true := fun s hs => by
    obtain ⟨ring, hring, hs⟩ := mem_edges.1 hs
    exact (onRing_eq_false_iff p ring).1 (onRing_of_hasInside h ring hring) s hs
  obtain ⟨reach, hpos, hfar⟩ := exists_near_segments _ hoff
  refine ⟨reach, hpos, fun z hz => hasInside_of_avoids hclosed (fun ring hring w hw => ?_) h⟩
  exact (onRing_eq_false_iff w ring).2 fun s hs => hfar w (near_of_covers hz hw) s (mem_edges.2 ⟨ring, hring, hs⟩)

end Polygon

/-! ## The first hit of a ray -/

/-- Whether `z` is the first position to the right of `p` on one of the segments. -/
structure FirstHit (edges : List (Segment ℚ)) (p z : Position ℚ) : Prop where
  level : z.y = p.y
  ahead : p.x < z.x
  hit : ∃ s ∈ edges, s.covers z = true
  free : ∀ w, w.y = p.y → p.x < w.x → w.x < z.x → ∀ s ∈ edges, ¬ s.covers w = true

theorem spans_of_covers {s : Segment ℚ} (h : s.covers w = true) (hstart : s.start.y ≠ w.y)
    (hstop : s.stop.y ≠ w.y) : s.Spans w.y := by
  obtain ⟨-, -, hlow, hhigh⟩ := (Segment.covers_iff_box s w).1 h
  rcases le_total s.start.y s.stop.y with hle | hle
  · rw [min_eq_left hle] at hlow
    rw [max_eq_right hle] at hhigh
    exact .inl ⟨hlow, lt_of_le_of_ne hhigh hstop.symm⟩
  · rw [min_eq_right hle] at hlow
    rw [max_eq_left hle] at hhigh
    exact .inr ⟨hlow, lt_of_le_of_ne hhigh hstart.symm⟩

/-- A ray that some segment stops has a first hit, unless it runs at the height of an end. -/
theorem exists_firstHit {edges : List (Segment ℚ)}
    (hheight : ∀ s ∈ edges, s.start.y ≠ p.y ∧ s.stop.y ≠ p.y) (hstop : ∃ s ∈ edges, s.stopsRay p = true) :
    ∃ z, FirstHit edges p z := by
  -- of the segments that stop the ray take the one that it crosses first
  have hfinite : {s | s ∈ edges ∧ s.stopsRay p = true}.Finite :=
    (List.finite_toSet edges).subset fun s hs => hs.1
  obtain ⟨s, ⟨hs, hray⟩, hleast⟩ :=
    Set.exists_min_image _ (fun s : Segment ℚ => (s.crossing p.y).x) hfinite hstop
  obtain ⟨hspans, hahead⟩ := (Segment.stopsRay_iff s p).1 hray
  refine ⟨s.crossing p.y, rfl, hahead, ⟨s, hs, Segment.covers_crossing hspans⟩, fun w hw hpw hws t ht hcovers => ?_⟩
  have hends := hheight t ht
  rw [← hw] at hends
  have htspans := spans_of_covers hcovers hends.1 hends.2
  have hcross : w.x = (t.crossing p.y).x := by
    have heq := congrArg Position.x (Segment.eq_crossing_of_covers htspans.not_level hcovers)
    rwa [hw] at heq
  rw [hw] at htspans
  have hle : (s.crossing p.y).x ≤ (t.crossing p.y).x :=
    hleast t ⟨ht, (Segment.stopsRay_iff t p).2 ⟨htspans, hcross ▸ hpw⟩⟩
  linarith

/-- The way to a position before the first hit, or to the hit when it is off the ring, does not touch a ring
whose segments are among those that can be hit. -/
theorem FirstHit.avoids {edges : List (Segment ℚ)} (h : FirstHit edges p z)
    (hring : ∀ s ∈ segments ring, s ∈ edges) (hp : onRing p ring = false) (hlevel : w.y = p.y)
    (hahead : p.x ≤ w.x) (hbefore : w.x < z.x ∨ w = z ∧ onRing z ring = false) : Avoids ⟨p, w⟩ ring := by
  intro u hu
  obtain ⟨-, ⟨hleft, hright⟩, hlow, hhigh⟩ := (Segment.covers_iff_box _ u).1 hu
  simp only [hlevel, min_self, max_self] at hlow hhigh
  simp only [min_eq_left hahead, max_eq_right hahead] at hleft hright
  -- the way is level, and what it covers stands between its ends
  have huy : u.y = p.y := le_antisymm hhigh hlow
  rcases hleft.lt_or_eq with hlt | heq
  · have off : u.x < z.x → onRing u ring = false := fun hux =>
      (onRing_eq_false_iff u ring).2 fun s hs => h.free u huy hlt hux s (hring s hs)
    rcases hbefore with hbefore | ⟨rfl, hz⟩
    · exact off (hright.trans_lt hbefore)
    · rcases hright.lt_or_eq with hlt' | heq'
      · exact off hlt'
      · rwa [Position.eq_of_xy heq' (huy.trans hlevel.symm)]
  · rwa [Position.eq_of_xy heq.symm huy]

/-- What is inside a ring stays inside up to the first hit. -/
theorem FirstHit.inside {edges : List (Segment ℚ)} (h : FirstHit edges p z)
    (hring : ∀ s ∈ segments ring, s ∈ edges) (hclosed : IsClosed ring) (hp : insideRing p ring = true)
    (hlevel : w.y = p.y) (hahead : p.x ≤ w.x) (hbefore : w.x < z.x ∨ w = z ∧ onRing z ring = false) :
    insideRing w ring = true := by
  have havoid := h.avoids hring ((insideRing_iff p ring).1 hp).1 hlevel hahead hbefore
  rw [← insideRing_eq_of_avoids hclosed havoid, hp]

/-- Before the first hit there are positions of the ray in every box round the hit. -/
theorem FirstHit.exists_before {edges : List (Segment ℚ)} (h : FirstHit edges p z) {reach : ℚ} (hpos : 0 < reach) :
    ∃ w, Near reach z w ∧ w.y = p.y ∧ p.x ≤ w.x ∧ w.x < z.x := by
  have hahead := h.ahead
  have hbefore : max p.x (z.x - reach / 2) < z.x := max_lt hahead (by linarith)
  have hnear : z.x - reach / 2 ≤ max p.x (z.x - reach / 2) := le_max_right _ _
  refine ⟨⟨max p.x (z.x - reach / 2), p.y⟩, ⟨?_, ?_⟩, rfl, le_max_left _ _, hbefore⟩
  · rw [abs_lt]
    constructor <;> simp only <;> linarith
  · simpa [h.level] using hpos

end OccurrenceQuery.Geometry
