/-
The two sides of a ring at an edge. Round a position on an edge of a simple ring, off its vertices, the
positions strictly inside the ring are those on one side of the edge: a way across the edge changes the
parity of the ray once, and a way on one side of it not at all.
-/
import OccurrenceQuery.Proofs.Geometry.Holes
import OccurrenceQuery.Proofs.Geometry.Nearby

namespace OccurrenceQuery.Geometry

variable {p q u w z : Position ℚ} {ring : Ring ℚ} {e : Segment ℚ}

/-! ## Positions covered once -/

theorem segments_cons_dropRepeatsAfter (p : Position ℚ) (ps : List (Position ℚ)) :
    segments (p :: dropRepeatsAfter p ps) = (segments (p :: ps)).filter fun s => s.start != s.stop := by
  induction ps generalizing p with
  | nil => rfl
  | cons q ps ih =>
    rw [dropRepeatsAfter]
    by_cases hpq : p = q
    · subst hpq
      have hsame : (p == p) = true := (Position.beq_iff p p).2 rfl
      rw [if_pos hsame, ih, segments, List.filter_cons_of_neg (by simp [bne, hsame])]
    · have hdiff : (p == q) = false := Bool.eq_false_iff.2 (mt (Position.beq_iff p q).1 hpq)
      rw [if_neg (by simp [hdiff]), segments, segments, ih, List.filter_cons_of_pos (by simp [bne, hdiff])]

/-- Repeats of a position add no segment that covers anything but a vertex. -/
theorem countP_covers_dropRepeats (hz : z ∉ ring) :
    (segments (dropRepeats ring)).countP (·.covers z) = (segments ring).countP (·.covers z) := by
  cases ring with
  | nil => rfl
  | cons p ps =>
    rw [dropRepeats, segments_cons_dropRepeatsAfter, List.countP_filter]
    refine List.countP_congr fun s hs => ?_
    rw [Bool.and_eq_true, and_iff_left_iff_imp]
    intro hcovers
    rw [bne, Bool.not_eq_true', Bool.eq_false_iff, Ne, Position.beq_iff]
    intro hsame
    obtain ⟨part, -, -, rfl⟩ := (Segment.covers_iff s z).1 hcovers
    refine hz ?_
    have hstart : s.along part = s.start := by
      refine Position.eq_of_xy ?_ ?_ <;> simp only [Segment.along, hsame] <;> ring
    rw [hstart]
    exact (mem_of_mem_segments hs).1

theorem countP_le_one_of_pairwise {α : Type} {f : α → Bool} : ∀ {l : List α},
    l.Pairwise (fun a b => ¬ (f a = true ∧ f b = true)) → l.countP f ≤ 1
  | [], _ => by simp
  | a :: l, h => by
    obtain ⟨hhead, htail⟩ := List.pairwise_cons.1 h
    rw [List.countP_cons]
    by_cases ha : f a = true
    · have hzero : l.countP f = 0 := List.countP_eq_zero.2 fun b hb hfb => hhead b hb ⟨ha, hfb⟩
      rw [hzero, if_pos ha]
    · rw [if_neg ha]
      exact countP_le_one_of_pairwise htail

/-- A position on a ring without fault that is no vertex is covered by one edge only. -/
theorem countP_covers_eq_one (hring : ringFault? ring = none) (hz : onRing z ring = true) (hvertex : z ∉ ring) :
    (segments ring).countP (·.covers z) = 1 := by
  obtain ⟨-, -, -, hsimple⟩ := (ringFault?_eq_none_iff ring).1 hring
  rw [← dropRepeats_eq_destutter] at hsimple
  have hmem : ∀ v ∈ dropRepeats ring, v ≠ z := by
    rintro v hv rfl
    rw [dropRepeats_eq_destutter] at hv
    exact hvertex ((List.destutter_sublist _ _).mem hv)
  have hstop : ∀ {s t : Segment ℚ}, s ∈ segments (dropRepeats ring) →
      s.positions ∩ t.positions = {s.stop} → ¬ (s.covers z = true ∧ t.covers z = true) := by
    rintro s t hs hinter ⟨hsz, htz⟩
    have hz : z ∈ s.positions ∩ t.positions := ⟨Segment.mem_positions.2 hsz, Segment.mem_positions.2 htz⟩
    rw [hinter, Set.mem_singleton_iff] at hz
    exact hmem _ (mem_of_mem_segments hs).2 hz.symm
  have hpairs : (segments (dropRepeats ring)).Pairwise fun s t => ¬ (s.covers z = true ∧ t.covers z = true) := by
    refine List.pairwise_iff_getElem.2 fun i j hi hj hij => ?_
    have hs := List.getElem?_eq_getElem hi
    have ht := List.getElem?_eq_getElem hj
    by_cases hnext : Follows (segments (dropRepeats ring)).length i j
    · exact hstop (List.getElem_mem hi) (hsimple.neighbours i j _ _ hij.ne hs ht hnext).2
    by_cases hseam : Follows (segments (dropRepeats ring)).length j i
    · rw [and_comm]
      exact hstop (List.getElem_mem hj) (hsimple.neighbours j i _ _ hij.ne' ht hs hseam).2
    · rintro ⟨hsz, htz⟩
      have hempty := hsimple.others i j _ _ hij.ne hs ht hnext hseam
      exact Set.eq_empty_iff_forall_notMem.1 hempty z ⟨Segment.mem_positions.2 hsz, Segment.mem_positions.2 htz⟩
  have hle := countP_le_one_of_pairwise hpairs
  rw [countP_covers_dropRepeats hvertex] at hle
  have hpos : 0 < (segments ring).countP (·.covers z) := List.countP_pos_iff.2 ((onRing_iff z ring).1 hz)
  omega

/-! ## Across an edge -/

theorem countP_xor {α : Type} (f g : α → Bool) (l : List α) :
    (l.countP (fun a => f a ^^ g a) + l.countP f + l.countP g) % 2 = 0 := by
  induction l with
  | nil => rfl
  | cons a l ih =>
    simp only [List.countP_cons]
    cases f a <;> cases g a <;> simp <;> omega

/-- Whether a way leads over a segment: from one side of it to the other, and either the ray is stopped at
one end of the way only, or the way has one end of the segment only on its right. -/
structure LeadsOver (e : Segment ℚ) (p q : Position ℚ) : Prop where
  upward : p.y ≤ q.y
  sides : turn e.start e.stop p * turn e.start e.stop q < 0
  change : e.stopsRay p = e.stopsRay q ↔ Segment.passes p q e.start ≠ Segment.passes p q e.stop

/-- Along a way that only the edges through one position touch, and that leads over each of these, the
parity of the ray changes as often as there are such edges. -/
theorem countP_stopsRay_of_leadsOver (hclosed : IsClosed ring) (hpq : p.y ≤ q.y)
    (hmiss : ∀ s ∈ segments ring, ¬ s.covers z = true → s.Misses ⟨p, q⟩)
    (hover : ∀ s ∈ segments ring, s.covers z = true → LeadsOver s p q) :
    ((segments ring).countP (·.stopsRay p) + (segments ring).countP (·.stopsRay q) +
      (segments ring).countP (·.covers z)) % 2 = 0 := by
  cases ring with
  | nil => rfl
  | cons v ps =>
    have hround := countP_add_countP_segments (fun s => s.stopsRay p ^^ s.covers z) (·.stopsRay q)
      (Segment.passes p q) v ps fun s hs => by
        by_cases hz : s.covers z = true
        · have hs := (hover s hs hz).change
          rw [hz]
          generalize s.stopsRay p = a at hs
          generalize s.stopsRay q = b at hs
          cases a <;> cases b <;> simp_all
        · rw [Bool.not_eq_true] at hz
          rw [hz, Bool.xor_false]
          exact Segment.ray_change hpq (hmiss s hs (by simp [hz]))
    rw [hclosed.getLast_eq, if_pos rfl] at hround
    have hxor := countP_xor (·.stopsRay p) (·.covers z) (segments (v :: ps))
    omega

/-- The way up through a level segment has one end of it on the right; no ray is stopped. -/
theorem leadsOver_of_level (hz : e.covers z = true) (hstart : z ≠ e.start) (hstop : z ≠ e.stop)
    (hlevel : e.start.y = e.stop.y) {rise : ℚ} (hrise : 0 < rise) :
    LeadsOver e ⟨z.x, z.y - rise⟩ ⟨z.x, z.y + rise⟩ := by
  have hray : ∀ p, e.stopsRay p = false := fun p => Bool.eq_false_iff.2 fun h =>
    ((Segment.stopsRay_iff e p).1 h).1.not_level hlevel
  obtain ⟨part, ⟨h0, h1⟩, rfl⟩ := exists_along_inside hz hstart hstop
  have hwidth : e.stop.x - e.start.x ≠ 0 := fun hx => hstart <| Position.eq_of_xy
    (by simp [Segment.along, hx]) (by simp [Segment.along, hlevel])
  have hy : (e.along part).y = e.start.y := by simp [Segment.along, hlevel]
  have hleft : e.start.x - (e.along part).x = -(part * (e.stop.x - e.start.x)) := by simp [Segment.along]
  have hright : e.stop.x - (e.along part).x = (1 - part) * (e.stop.x - e.start.x) := by
    simp only [Segment.along]
    ring
  generalize e.along part = z at hy hleft hright
  refine ⟨?_, ?_, ?_⟩
  · show z.y - rise ≤ z.y + rise
    linarith
  · have hprod : turn e.start e.stop ⟨z.x, z.y - rise⟩ * turn e.start e.stop ⟨z.x, z.y + rise⟩ =
        -((e.stop.x - e.start.x) * rise * ((e.stop.x - e.start.x) * rise)) := by
      simp only [turn_eq, hy, ← hlevel]
      ring
    rw [hprod, neg_lt_zero]
    exact mul_self_pos.2 (mul_ne_zero hwidth hrise.ne')
  · have hpass : ∀ v : Position ℚ, v.y = z.y →
        Segment.passes ⟨z.x, z.y - rise⟩ ⟨z.x, z.y + rise⟩ v = decide (0 < v.x - z.x) := by
      intro v hv
      have hturn : turn ⟨z.x, z.y - rise⟩ ⟨z.x, z.y + rise⟩ v = -(2 * rise * (v.x - z.x)) := by
        simp only [turn_eq]
        ring
      have hlow : z.y - rise < v.y := by linarith
      have hhigh : v.y ≤ z.y + rise := by linarith
      simp [Segment.passes, hturn, hlow, hhigh, hrise]
    rw [hray, hray, hpass _ hy.symm, hpass _ (hy.trans hlevel).symm, hleft, hright]
    rcases lt_or_gt_of_ne hwidth with hneg | hpos
    · have hstart := mul_neg_of_pos_of_neg h0 hneg
      have hstop := mul_neg_of_pos_of_neg (sub_pos.2 h1) hneg
      simp [hstart, hstop.le]
    · have hstart := mul_pos h0 hpos
      have hstop := mul_pos (sub_pos.2 h1) hpos
      simp [hstart.le, hstop]

/-- The way to the right through a segment that is not level passes its ray; no end is passed. -/
theorem leadsOver_of_steep (hz : e.covers z = true) (hstart : z ≠ e.start) (hstop : z ≠ e.stop)
    (hsteep : e.start.y ≠ e.stop.y) {run : ℚ} (hrun : 0 < run) :
    LeadsOver e ⟨z.x - run, z.y⟩ ⟨z.x + run, z.y⟩ := by
  have hcross := Segment.eq_crossing_of_covers hsteep hz
  have hoff : ∀ v, e.covers v = true → v ≠ z → v.y ≠ z.y := fun v hv hne hy =>
    hne ((Segment.eq_crossing_of_covers hsteep hv).trans (hy ▸ hcross.symm))
  have hspans := spans_of_covers hz (hoff _ (Segment.covers_start e) hstart.symm)
    (hoff _ (Segment.covers_stop e) hstop.symm)
  have hzero : turn e.start e.stop z = 0 := ((Segment.covers_iff_box e z).1 hz).1
  refine ⟨le_rfl, ?_, ?_⟩
  · have hprod : turn e.start e.stop ⟨z.x - run, z.y⟩ * turn e.start e.stop ⟨z.x + run, z.y⟩ =
        -((e.stop.y - e.start.y) * run * ((e.stop.y - e.start.y) * run)) := by
      simp only [turn_eq] at hzero ⊢
      linear_combination ((e.stop.x - e.start.x) * (z.y - e.start.y) -
        (e.stop.y - e.start.y) * (z.x - e.start.x)) * hzero
    rw [hprod, neg_lt_zero]
    exact mul_self_pos.2 (mul_ne_zero (sub_ne_zero.2 hsteep.symm) hrun.ne')
  · have hpass : ∀ v, Segment.passes ⟨z.x - run, z.y⟩ ⟨z.x + run, z.y⟩ v = false := fun v => by
      simp only [Segment.passes, decide_eq_false_iff_not]
      exact fun h => absurd (h.1.trans_le h.2.1) (lt_irrefl _)
    have hbefore : e.stopsRay ⟨z.x - run, z.y⟩ = true := by
      refine (Segment.stopsRay_iff e _).2 ⟨hspans, ?_⟩
      rw [← hcross]
      linarith
    have hafter : ¬ e.stopsRay ⟨z.x + run, z.y⟩ = true := fun h => by
      have hahead := ((Segment.stopsRay_iff e _).1 h).2
      rw [← hcross] at hahead
      linarith
    rw [hpass, hpass, hbefore]
    simpa using hafter

/-! ## Round a position of an edge -/

/-- Whether, in the box of the given reach round a position of an edge, the ring is the line of the edge. -/
structure IsStraight (ring : Ring ℚ) (e : Segment ℚ) (z : Position ℚ) (reach : ℚ) : Prop where
  pos : 0 < reach
  only : ∀ w, Near reach z w → ∀ s ∈ segments ring, s.covers w = true → s = e
  line : ∀ w, Near reach z w → turn e.start e.stop w = 0 → e.covers w = true

theorem eq_of_countP_covers (honce : (segments ring).countP (·.covers z) = 1) {s : Segment ℚ}
    (he : e ∈ segments ring) (hez : e.covers z = true) (hs : s ∈ segments ring) (hsz : s.covers z = true) :
    s = e := by
  rw [List.countP_eq_length_filter] at honce
  obtain ⟨t, ht⟩ := List.length_eq_one_iff.1 honce
  have hmem : ∀ s ∈ segments ring, s.covers z = true → s = t := fun s hs hsz =>
    List.mem_singleton.1 (ht ▸ List.mem_filter.2 ⟨hs, hsz⟩)
  rw [hmem s hs hsz, hmem e he hez]

/-- In a box round a position of a segment that leaves out its ends, what is on its line is on it: from
beyond an end the way to the position would pass that end. -/
theorem covers_of_near (hez : e.covers z = true) {reach : ℚ} (hpos : 0 < reach) (hstart : ¬ Near reach z e.start)
    (hstop : ¬ Near reach z e.stop) (hw : Near reach z w) (hturn : turn e.start e.stop w = 0) :
    e.covers w = true := by
  obtain ⟨c, hc0, hc1, rfl⟩ := (Segment.covers_iff e z).1 hez
  have hne : e.start ≠ e.stop := fun heq => hstart <| by
    have hstill : e.along c = e.start := by
      refine Position.eq_of_xy ?_ ?_ <;> simp only [Segment.along, heq] <;> ring
    rw [hstill]
    exact near_self hpos e.start
  obtain ⟨part, rfl⟩ := Segment.exists_along hne hturn
  have hpassed : ∀ share, min part c ≤ share → share ≤ max part c → Near reach (e.along c) (e.along share) := by
    intro share hlow hhigh
    refine near_of_between hw (near_self hpos _) ?_
    exact (Segment.covers_along_iff (t := ⟨e.along part, e.along c⟩) hne rfl rfl share).2 ⟨hlow, hhigh⟩
  refine Segment.covers_along (not_lt.1 fun hneg => ?_) (not_lt.1 fun hbig => ?_)
  · have hnear := hpassed 0 (min_le_of_left_le hneg.le) (le_max_of_le_right hc0)
    rw [Segment.along_zero] at hnear
    exact hstart hnear
  · have hnear := hpassed 1 (min_le_of_right_le hc1) (le_max_of_le_left hbig.le)
    rw [Segment.along_one] at hnear
    exact hstop hnear

/-- Round a position that one edge covers, not at its ends, there is a box that leaves out the other edges and
these ends. -/
theorem exists_isStraight (he : e ∈ segments ring) (hez : e.covers z = true) (hstart : z ≠ e.start)
    (hstop : z ≠ e.stop) (honce : (segments ring).countP (·.covers z) = 1) {bound : ℚ} (hbound : 0 < bound) :
    ∃ reach ≤ bound, IsStraight ring e z reach := by
  have hpoint : ∀ {v : Position ℚ}, z ≠ v → ¬ Segment.covers ⟨v, v⟩ z = true := by
    intro v hne hcovers
    obtain ⟨part, -, -, rfl⟩ := (Segment.covers_iff _ z).1 hcovers
    exact hne (Position.eq_of_xy (by simp [Segment.along]) (by simp [Segment.along]))
  obtain ⟨reach, hpos, hfar⟩ := exists_near_segments ((segments ring).filter fun s => !s.covers z)
    fun s hs => by simpa using (List.mem_filter.1 hs).2
  obtain ⟨reach', hpos', hends⟩ := exists_near_segments [⟨e.start, e.start⟩, ⟨e.stop, e.stop⟩] fun s hs => by
    simp only [List.mem_cons, List.not_mem_nil, or_false] at hs
    rcases hs with rfl | rfl
    · exact hpoint hstart
    · exact hpoint hstop
  have hpositive : 0 < min (min reach reach') bound := lt_min (lt_min hpos hpos') hbound
  have hnear : ∀ {w}, Near (min (min reach reach') bound) z w → Near reach z w ∧ Near reach' z w := fun hw =>
    ⟨hw.mono ((min_le_left _ _).trans (min_le_left _ _)), hw.mono ((min_le_left _ _).trans (min_le_right _ _))⟩
  refine ⟨_, min_le_right _ _, hpositive, fun w hw s hs hsw => ?_, fun w hw hturn => ?_⟩
  · refine eq_of_countP_covers honce he hez hs ?_
    by_contra hsz
    exact hfar w (hnear hw).1 s (List.mem_filter.2 ⟨hs, by simpa using hsz⟩) hsw
  · refine covers_of_near hez hpositive (fun h => ?_) (fun h => ?_) hw hturn
    · exact hends _ (hnear h).2 _ List.mem_cons_self (Segment.covers_start ⟨e.start, e.start⟩)
    · exact hends _ (hnear h).2 _ (List.mem_cons_of_mem _ List.mem_cons_self)
        (Segment.covers_start ⟨e.stop, e.stop⟩)

variable {reach : ℚ}

namespace IsStraight

theorem onRing_iff_turn (h : IsStraight ring e z reach) (he : e ∈ segments ring) (hw : Near reach z w) :
    onRing w ring = true ↔ turn e.start e.stop w = 0 := by
  rw [onRing_iff]
  constructor
  · rintro ⟨s, hs, hsw⟩
    rw [← h.only w hw s hs hsw]
    exact ((Segment.covers_iff_box s w).1 hsw).1
  · exact fun hturn => ⟨e, he, h.line w hw hturn⟩

/-- Two positions on one side of the edge are both inside, or both not. -/
theorem insideRing_eq (h : IsStraight ring e z reach) (hclosed : IsClosed ring) (he : e ∈ segments ring)
    (hp : Near reach z p) (hq : Near reach z q)
    (hside : 0 < turn e.start e.stop p * turn e.start e.stop q) : insideRing p ring = insideRing q ring := by
  refine insideRing_eq_of_avoids hclosed fun w hw => Bool.eq_false_iff.2 fun hon => ?_
  have hturn := (h.onRing_iff_turn he (near_of_between hp hq hw)).1 hon
  obtain ⟨part, h0, h1, rfl⟩ := (Segment.covers_iff _ w).1 hw
  rw [Segment.turn_along] at hturn
  obtain ⟨hlow, hhigh⟩ := Segment.between_along (a := turn e.start e.stop p) (b := turn e.start e.stop q) h0 h1
  rcases mul_pos_iff.1 hside with ⟨hleft, hleft'⟩ | ⟨hright, hright'⟩
  · have hpos := lt_min hleft hleft'
    linarith
  · have hneg := max_lt hright hright'
    linarith

/-- On the two sides of the edge there are positions of which one is inside and one is not. -/
theorem exists_across (h : IsStraight ring e z reach) (hclosed : IsClosed ring) (he : e ∈ segments ring)
    (hez : e.covers z = true) (hstart : z ≠ e.start) (hstop : z ≠ e.stop)
    (honce : (segments ring).countP (·.covers z) = 1) :
    ∃ p q, Near reach z p ∧ Near reach z q ∧ turn e.start e.stop p * turn e.start e.stop q < 0 ∧
      insideRing p ring ≠ insideRing q ring := by
  have hpos : 0 < reach / 2 := half_pos h.pos
  have hhalf : reach / 2 < reach := half_lt_self h.pos
  obtain ⟨p, q, hp, hq, hover⟩ : ∃ p q, Near reach z p ∧ Near reach z q ∧ LeadsOver e p q := by
    by_cases hlevel : e.start.y = e.stop.y
    · refine ⟨_, _, ⟨?_, ?_⟩, ⟨?_, ?_⟩, leadsOver_of_level hez hstart hstop hlevel hpos⟩ <;>
        simp [abs_of_pos hpos, h.pos, hhalf]
    · refine ⟨_, _, ⟨?_, ?_⟩, ⟨?_, ?_⟩, leadsOver_of_steep hez hstart hstop hlevel hpos⟩ <;>
        simp [abs_of_pos hpos, h.pos, hhalf]
  have hside := hover.sides
  refine ⟨p, q, hp, hq, hside, fun heq => ?_⟩
  have hparity := countP_stopsRay_of_leadsOver (z := z) hclosed hover.upward (fun s hs hsz w hsw hw => ?_)
    fun s hs hsz => ?_
  · have hoff : ∀ {w}, Near reach z w → turn e.start e.stop w ≠ 0 → onRing w ring = false := fun hw hturn =>
      Bool.eq_false_iff.2 fun hon => hturn ((h.onRing_iff_turn he hw).1 hon)
    have hp' := hoff hp (left_ne_zero_of_mul hside.ne)
    have hq' := hoff hq (right_ne_zero_of_mul hside.ne)
    rw [Bool.eq_iff_iff, insideRing_iff, insideRing_iff, hp', hq'] at heq
    simp only [true_and] at heq
    omega
  · exact hsz (h.only w (near_of_between hp hq hw) s hs hsw ▸ hez)
  · rw [h.only z (near_self h.pos z) s hs hsz]
    exact hover

/-- With a position inside on one side and one not inside on the other, a side of the edge is the inside. -/
theorem insideRing_iff_side (h : IsStraight ring e z reach) (hclosed : IsClosed ring) (he : e ∈ segments ring)
    (hp : Near reach z p) (hq : Near reach z q) (hside : turn e.start e.stop p * turn e.start e.stop q < 0)
    (hin : insideRing p ring = true) (hout : insideRing q ring = false) (hw : Near reach z w) :
    insideRing w ring = true ↔ 0 < turn e.start e.stop p * turn e.start e.stop w := by
  constructor
  · intro hwin
    have hne : turn e.start e.stop w ≠ 0 := fun hturn => by
      have hoff := ((insideRing_iff w ring).1 hwin).1
      rw [(h.onRing_iff_turn he hw).2 hturn] at hoff
      cases hoff
    by_contra hother
    have hwq : 0 < turn e.start e.stop w * turn e.start e.stop q := by
      have hopposite : turn e.start e.stop p * turn e.start e.stop w < 0 :=
        lt_of_le_of_ne (not_lt.1 hother) (mul_ne_zero (left_ne_zero_of_mul hside.ne) hne)
      have hprod := mul_pos_of_neg_of_neg hopposite hside
      have hsq := mul_self_pos.2 (left_ne_zero_of_mul hside.ne)
      refine (mul_pos_iff_of_pos_left hsq).1 ?_
      linarith
    rw [h.insideRing_eq hclosed he hw hq hwq, hout] at hwin
    cases hwin
  · intro hsame
    rw [← h.insideRing_eq hclosed he hp hw hsame, hin]

end IsStraight

/-- Round a position of an edge of a ring without fault that is no vertex, the inside of the ring is one side
of the edge. -/
theorem exists_side (hring : ringFault? ring = none) (he : e ∈ segments ring) (hez : e.covers z = true)
    (hvertex : z ∉ ring) {bound : ℚ} (hbound : 0 < bound) :
    ∃ side reach : ℚ, 0 < reach ∧ reach ≤ bound ∧
      (∀ w, Near reach z w → (insideRing w ring = true ↔ 0 < side * turn e.start e.stop w)) ∧
      ∃ u, Near reach z u ∧ insideRing u ring = true := by
  have hclosed := isClosed_of_ringFault?_eq_none hring
  have honce := countP_covers_eq_one hring ((onRing_iff z ring).2 ⟨e, he, hez⟩) hvertex
  have hstart : z ≠ e.start := fun h => hvertex (h ▸ (mem_of_mem_segments he).1)
  have hstop : z ≠ e.stop := fun h => hvertex (h ▸ (mem_of_mem_segments he).2)
  obtain ⟨reach, hle, hstraight⟩ := exists_isStraight he hez hstart hstop honce hbound
  obtain ⟨p, q, hp, hq, hside, hdiff⟩ := hstraight.exists_across hclosed he hez hstart hstop honce
  cases hin : insideRing p ring with
  | true =>
    have hout : insideRing q ring = false := Bool.eq_false_iff.2 fun h => hdiff (hin.trans h.symm)
    exact ⟨_, reach, hstraight.pos, hle, fun w hw =>
      hstraight.insideRing_iff_side hclosed he hp hq hside hin hout hw, p, hp, hin⟩
  | false =>
    have hin' : insideRing q ring = true := by
      rw [← Bool.not_eq_false]
      exact fun h => hdiff (hin.trans h.symm)
    rw [mul_comm] at hside
    exact ⟨_, reach, hstraight.pos, hle, fun w hw =>
      hstraight.insideRing_iff_side hclosed he hq hp hside hin' hin hw, q, hq, hin'⟩

end OccurrenceQuery.Geometry
