/-
When holes of an accepted polygon overlap. The rules reject holes with edges that cross, and a hole with a
vertex inside another. What is left is that an edge of one hole runs through the inside of the other, from
where the two touch to where they touch again, or that the two run along each other with the same inside;
then they overlap, and otherwise they do not.
-/
import OccurrenceQuery.Proofs.Geometry.Overlap
import OccurrenceQuery.Proofs.Geometry.Parts
import OccurrenceQuery.Proofs.Geometry.Sides

namespace OccurrenceQuery.Geometry

variable {r s ring : Ring ℚ} {p q u w z : Position ℚ} {e f : Segment ℚ}

/-- Whether an edge of a ring runs through the inside of another, from where the two touch to where they touch
again. -/
def Traverses (r s : Ring ℚ) : Prop :=
  ∃ e ∈ segments r, ∃ a b : ℚ, 0 ≤ a ∧ a < b ∧ b ≤ 1 ∧ TouchAt r s (e.along a) ∧ TouchAt r s (e.along b) ∧
    ∀ part, a < part → part < b → insideRing (e.along part) s = true

/-- Whether two rings share a stretch of an edge and have, round some position of it, the same inside. -/
def RunAlong (r s : Ring ℚ) : Prop :=
  ∃ e ∈ segments r, ∃ f ∈ segments s, e.overlaps f = true ∧ ∃ z, e.covers z = true ∧ f.covers z = true ∧
    ∃ reach > 0, ∀ w, Near reach z w → insideRing w r = insideRing w s

/-! ## Positions of an edge -/

/-- Close to the start of a segment it has positions, before its stop, that are not among finitely many. -/
theorem exists_near_along (hne : e.start ≠ e.stop) {reach : ℚ} (hpos : 0 < reach) (positions : List (Position ℚ)) :
    ∃ part, 0 < part ∧ part < 1 ∧ Near reach e.start (e.along part) ∧ e.along part ∉ positions := by
  have hlength : 0 < |e.stop.x - e.start.x| + |e.stop.y - e.start.y| + reach := by positivity
  have hsmall : 0 < reach / (|e.stop.x - e.start.x| + |e.stop.y - e.start.y| + reach) := div_pos hpos hlength
  have hone : reach / (|e.stop.x - e.start.x| + |e.stop.y - e.start.y| + reach) ≤ 1 := by
    rw [div_le_one hlength]
    linarith [abs_nonneg (e.stop.x - e.start.x), abs_nonneg (e.stop.y - e.start.y)]
  have hfinite : {part | e.along part ∈ positions}.Finite :=
    (List.finite_toSet positions).preimage fun a _ b _ hab => Segment.along_injective hne hab
  obtain ⟨part, ⟨h0, hlt⟩, hout⟩ := (Set.Ioo_infinite hsmall).exists_notMem_finite hfinite
  have hstep := (lt_div_iff₀ hlength).1 hlt
  have hx := abs_nonneg (e.stop.x - e.start.x)
  have hy := abs_nonneg (e.stop.y - e.start.y)
  refine ⟨part, h0, hlt.trans_le hone, ⟨?_, ?_⟩, hout⟩
  · simp only [Segment.along, add_sub_cancel_left, abs_mul, abs_of_pos h0]
    nlinarith
  · simp only [Segment.along, add_sub_cancel_left, abs_mul, abs_of_pos h0]
    nlinarith

/-! ## What overlaps -/

/-- Where an edge of a ring runs through the inside of another ring, the two overlap. -/
theorem overlap_of_inside (hr : ringFault? r = none) (hs : IsClosed s) (he : e ∈ segments r)
    (hez : e.covers z = true) (hvertex : z ∉ r) (hin : insideRing z s = true) :
    ∃ q, insideRing q r = true ∧ insideRing q s = true := by
  obtain ⟨bound, hbound, hnear⟩ := exists_near_insideRing hs hin
  obtain ⟨-, reach, -, hle, -, u, hu, hur⟩ := exists_side hr he hez hvertex hbound
  exact ⟨u, hur, hnear u (hu.mono hle)⟩

theorem onRing_of_touchAt (hne : segments s ≠ []) (h : TouchAt r s z) : onRing z s = true := by
  rcases h with ⟨-, hon⟩ | ⟨hmem, -⟩
  · exact hon
  · exact onRing_of_mem hne z hmem

theorem overlap_of_traverses (hr : ringFault? r = none) (hs : IsClosed s) (h : Traverses r s) :
    ∃ q, insideRing q r = true ∧ insideRing q s = true := by
  obtain ⟨e, he, a, b, ha, hab, hb, htouch, -, hinside⟩ := h
  have hne : e.along a ≠ e.along b := fun heq => by
    have hmiddle := hinside (a + 1 / 2 * (b - a)) (by linarith) (by linarith)
    rw [← Segment.along_along, ← heq] at hmiddle
    have hstill : Segment.along ⟨e.along a, e.along a⟩ (1 / 2) = e.along a :=
      Position.eq_of_xy (by simp [Segment.along]) (by simp [Segment.along])
    rw [hstill] at hmiddle
    obtain ⟨t, ht, -⟩ := exists_stopsRay_of_insideRing hmiddle
    have hoff := ((insideRing_iff _ _).1 hmiddle).1
    rw [onRing_of_touchAt (List.ne_nil_of_mem ht) htouch] at hoff
    cases hoff
  obtain ⟨part, h0, h1, -, hvertex⟩ := exists_near_along (e := ⟨e.along a, e.along b⟩) hne one_pos r
  rw [Segment.along_along] at hvertex
  have hlow : a < a + part * (b - a) := by nlinarith
  have hhigh : a + part * (b - a) < b := by nlinarith
  exact overlap_of_inside hr hs he (Segment.covers_along (ha.trans hlow.le) (hhigh.le.trans hb)) hvertex
    (hinside _ hlow hhigh)

theorem overlap_of_runAlong (hr : ringFault? r = none) (h : RunAlong r s) :
    ∃ q, insideRing q r = true ∧ insideRing q s = true := by
  obtain ⟨e, he, f, hf, hover, z, hez, -, reach, hpos, hsame⟩ := h
  have hne := Segment.start_ne_stop_of_overlaps hover
  obtain ⟨v, hv, hzv⟩ : ∃ v, e.covers v = true ∧ z ≠ v := by
    by_cases hz : z = e.start
    · exact ⟨e.stop, Segment.covers_stop e, hz ▸ hne⟩
    · exact ⟨e.start, Segment.covers_start e, hz⟩
  -- close to the position there is one on the edge that is no vertex
  obtain ⟨part, h0, h1, hnear, hvertex⟩ := exists_near_along (e := ⟨z, v⟩) hzv (half_pos hpos) r
  have hcovers : e.covers (Segment.along ⟨z, v⟩ part) = true :=
    Segment.covers_of_between hez hv (Segment.covers_along h0.le h1.le)
  obtain ⟨-, reach', -, hle, -, u, hu, hur⟩ := exists_side hr he hcovers hvertex (half_pos hpos)
  have huz : Near reach z u := by
    have htwice := hnear.trans (hu.mono hle)
    rwa [add_halves] at htwice
  exact ⟨u, hur, by rw [← hsame u huz, hur]⟩

/-! ## Entering and leaving -/

/-- Between a position of an edge that is not inside a ring and one that is, the edge enters the ring where the
two touch. -/
theorem exists_entry (hs : IsClosed s) (hcross : ringsCross s r = false) (he : e ∈ segments r) {c d : ℚ}
    (hc : 0 ≤ c ∧ c ≤ 1) (hd : 0 ≤ d ∧ d ≤ 1) (hin : insideRing (e.along c) s = true)
    (hout : insideRing (e.along d) s = false) :
    ∃ part, 0 ≤ part ∧ part < 1 ∧ TouchAt r s (e.along (d + part * (c - d))) ∧
      ∀ later, part < later → later ≤ 1 → insideRing (e.along (d + later * (c - d))) s = true := by
  have hoff : ∀ t ∈ segments s, ¬ t.covers (e.along c) = true :=
    (onRing_eq_false_iff _ _).1 ((insideRing_iff _ _).1 hin).1
  rcases @Segment.exists_lastHit ⟨e.along d, e.along c⟩ _ hoff with hmiss | ⟨part, hlast⟩
  · have havoid : Avoids ⟨e.along d, e.along c⟩ s := fun w hw => by
      obtain ⟨part, h0, h1, rfl⟩ := (Segment.covers_iff _ w).1 hw
      exact (onRing_eq_false_iff _ _).2 fun t ht => hmiss t ht part h0 h1
    rw [insideRing_eq_of_avoids hs havoid, hin] at hout
    cases hout
  · have hcovers : e.covers (Segment.along ⟨e.along d, e.along c⟩ part) = true :=
      Segment.covers_of_between (Segment.covers_along hd.1 hd.2) (Segment.covers_along hc.1 hc.2)
        (Segment.covers_along hlast.nonneg hlast.lt_one.le)
    have htouch := touchAt_of_lastHit he hcross hlast hcovers
    rw [Segment.along_along] at htouch
    refine ⟨part, hlast.nonneg, hlast.lt_one, htouch, fun later hlater hle => ?_⟩
    rw [← Segment.along_along, ← hin]
    refine insideRing_eq_of_avoids hs fun w hw => ?_
    have hstop : e.along c = Segment.stop ⟨e.along d, e.along c⟩ := rfl
    rw [hstop] at hw
    obtain ⟨latest, hge, hle', rfl⟩ := exists_along_of_covers_rest hle hw
    exact (onRing_eq_false_iff _ _).2 (hlast.free latest (hlater.trans_le hge) hle')

/-- An edge with a position inside a ring, and none of its ends, runs through the inside of the ring. -/
theorem traverses_of_inside (hs : IsClosed s) (hcross : ringsCross s r = false) (he : e ∈ segments r)
    (hez : e.covers z = true) (hin : insideRing z s = true) (hprobe : ∀ v ∈ r, insideRing v s = false) :
    Traverses r s := by
  obtain ⟨c, hc0, hc1, rfl⟩ := (Segment.covers_iff e z).1 hez
  have hstart : insideRing (e.along 0) s = false := by
    rw [Segment.along_zero]
    exact hprobe _ (mem_of_mem_segments he).1
  have hstop : insideRing (e.along 1) s = false := by
    rw [Segment.along_one]
    exact hprobe _ (mem_of_mem_segments he).2
  have hpos : 0 < c := lt_of_le_of_ne hc0 fun h => by
    rw [← h, hstart] at hin
    cases hin
  have hlt : c < 1 := lt_of_le_of_ne hc1 fun h => by
    rw [h, hstop] at hin
    cases hin
  obtain ⟨a, ha0, ha1, htoucha, ha⟩ := exists_entry hs hcross he ⟨hc0, hc1⟩ ⟨le_rfl, zero_le_one⟩ hin hstart
  obtain ⟨b, hb0, hb1, htouchb, hb⟩ := exists_entry hs hcross he ⟨hc0, hc1⟩ ⟨zero_le_one, le_rfl⟩ hin hstop
  refine ⟨e, he, _, _, ?_, ?_, ?_, htoucha, htouchb, fun part hlow hhigh => ?_⟩
  · nlinarith
  · nlinarith
  · nlinarith
  · rcases le_total part c with hle | hge
    · have hin := ha (part / c) ((lt_div_iff₀ hpos).2 (by linarith)) ((div_le_one hpos).2 hle)
      rwa [sub_zero, zero_add, div_mul_cancel₀ _ hpos.ne'] at hin
    · have hrest : 0 < 1 - c := sub_pos.2 hlt
      have hin := hb ((1 - part) / (1 - c)) ((lt_div_iff₀ hrest).2 (by linarith))
        ((div_le_one hrest).2 (by linarith))
      have hback : 1 + (1 - part) / (1 - c) * (c - 1) = part := by
        field_simp
        ring
      rwa [hback] at hin

/-! ## Running along -/

/-- Two factors that make the same number positive make the same numbers positive. -/
theorem mul_pos_iff_of_common {a b c : ℚ} (ha : 0 < a * c) (hb : 0 < b * c) (x : ℚ) : 0 < a * x ↔ 0 < b * x := by
  have hneg : ∀ {d : ℚ}, d < 0 → (0 < d * x ↔ x < 0) := fun hd =>
    ⟨fun h => not_le.1 fun hx => absurd h (not_lt.2 (mul_nonpos_of_nonpos_of_nonneg hd.le hx)),
      mul_pos_of_neg_of_neg hd⟩
  rcases mul_pos_iff.1 ha with ⟨ha, hc⟩ | ⟨ha, hc⟩
  · rw [mul_pos_iff_of_pos_left ha, mul_pos_iff_of_pos_left ((mul_pos_iff_of_pos_right hc).1 hb)]
  · have hb' : b < 0 := ((mul_pos_iff.1 hb).resolve_left fun h => absurd h.2 hc.not_gt).1
    rw [hneg ha, hneg hb']

/-- Where edges that share a stretch are hit first from inside both rings, the rings have the same inside. -/
theorem runAlong_of_firstHit (hr : ringFault? r = none) (hs : ringFault? s = none) {edges : List (Segment ℚ)}
    (hfirst : FirstHit edges p z) (hre : ∀ t ∈ segments r, t ∈ edges) (hse : ∀ t ∈ segments s, t ∈ edges)
    (hpr : insideRing p r = true) (hps : insideRing p s = true) (he : e ∈ segments r) (hf : f ∈ segments s)
    (hez : e.covers z = true) (hfz : f.covers z = true) (hover : e.overlaps f = true) (hzr : z ∉ r) (hzs : z ∉ s) :
    RunAlong r s := by
  obtain ⟨side, reach, hpos, -, hside, -⟩ := exists_side hr he hez hzr one_pos
  obtain ⟨side', reach', hpos', -, hside', -⟩ := exists_side hs hf hfz hzs one_pos
  have hmin : 0 < min reach reach' := lt_min hpos hpos'
  -- the turns about both edges are proportional
  obtain ⟨ratio, hratio⟩ : ∃ ratio : ℚ, ∀ w, turn f.start f.stop w = ratio * turn e.start e.stop w := by
    have haligned := ((Segment.overlaps_iff e f).1 hover).1
    have hne := Segment.start_ne_stop_of_overlaps hover
    obtain ⟨a, ha⟩ := Segment.exists_along hne haligned.1
    obtain ⟨b, hb⟩ := Segment.exists_along hne haligned.2
    refine ⟨b - a, fun w => ?_⟩
    rw [ha, hb]
    simp only [turn_eq, Segment.along]
    ring
  -- just before the hit the ray is inside both
  obtain ⟨u, hu, hlevel, hahead, hbefore⟩ := hfirst.exists_before hmin
  have hur := (hside u (hu.mono (min_le_left _ _))).1
    (hfirst.inside hre (isClosed_of_ringFault?_eq_none hr) hpr hlevel hahead (.inl hbefore))
  have hus := (hside' u (hu.mono (min_le_right _ _))).1
    (hfirst.inside hse (isClosed_of_ringFault?_eq_none hs) hps hlevel hahead (.inl hbefore))
  refine ⟨e, he, f, hf, hover, z, hez, hfz, min reach reach', hmin, fun w hw => ?_⟩
  rw [Bool.eq_iff_iff, hside w (hw.mono (min_le_left _ _)), hside' w (hw.mono (min_le_right _ _))]
  rw [hratio, ← mul_assoc] at hus ⊢
  exact mul_pos_iff_of_common hur hus _

/-! ## Accepted holes -/

/-- Two rings that overlap do so at a height that no vertex has, and at which their edges have positions in
common only where they share a stretch. -/
theorem exists_generic_overlap (hr : IsClosed r) (hs : IsClosed s)
    (h : ∃ q, insideRing q r = true ∧ insideRing q s = true) :
    ∃ p, insideRing p r = true ∧ insideRing p s = true ∧
      (∀ t ∈ segments r ++ segments s, t.start.y ≠ p.y ∧ t.stop.y ≠ p.y) ∧
      ∀ z, z.y = p.y → (z ∉ r ∧ z ∉ s) ∧ ∀ e ∈ segments r, ∀ f ∈ segments s,
        e.covers z = true → f.covers z = true → e.overlaps f = true := by
  obtain ⟨q, hqr, hqs⟩ := h
  -- a ring is a polygon without holes
  rw [← Polygon.hasInside_shell_iff] at hqr hqs
  have hrings : ∀ {ring : Ring ℚ}, IsClosed ring → ∀ t ∈ (⟨ring, []⟩ : Polygon ℚ).rings, IsClosed t :=
    fun hclosed t ht => List.mem_singleton.1 ht ▸ hclosed
  obtain ⟨p, hpr, hps, hheight, hends⟩ := Polygon.exists_overlap_height (hrings hr) (hrings hs)
    ((Polygon.commonHeights_finite (segments r) (segments s)).union
      ((List.finite_toSet (r ++ s)).image Position.y)) hqr hqs
  rw [Polygon.hasInside_shell_iff] at hpr hps
  refine ⟨p, hpr, hps, fun t ht => ?_, fun z hz => ⟨?_, ?_⟩⟩
  · refine hends t (mem_edges.2 ?_)
    rcases List.mem_append.1 ht with ht | ht
    · exact ⟨r, by simp [Polygon.rings], ht⟩
    · exact ⟨s, by simp [Polygon.rings], ht⟩
  · rw [← not_or, ← List.mem_append]
    exact fun hmem => hheight (.inr ⟨z, hmem, hz⟩)
  · intro e he f hf hez hfz
    by_contra hover
    exact hheight (.inl ⟨e, he, f, hf, hover, z, hez, hfz, hz⟩)

/-- Rings without fault that overlap, although no edges cross and no vertex of one is inside the other, traverse
each other or run along each other. -/
theorem overlap_cases (hr : ringFault? r = none) (hs : ringFault? s = none) (hcross : ringsCross r s = false)
    (hrs : ∀ v ∈ r, insideRing v s = false) (hsr : ∀ v ∈ s, insideRing v r = false)
    (h : ∃ q, insideRing q r = true ∧ insideRing q s = true) :
    Traverses r s ∨ Traverses s r ∨ RunAlong r s := by
  have hclosedr := isClosed_of_ringFault?_eq_none hr
  have hcloseds := isClosed_of_ringFault?_eq_none hs
  obtain ⟨p, hpr, hps, hends, hgeneric⟩ := exists_generic_overlap hclosedr hcloseds h
  have hre : ∀ t ∈ segments r, t ∈ segments r ++ segments s := fun t ht => List.mem_append_left _ ht
  have hse : ∀ t ∈ segments s, t ∈ segments r ++ segments s := fun t ht => List.mem_append_right _ ht
  obtain ⟨t, ht, hray⟩ := exists_stopsRay_of_insideRing hpr
  obtain ⟨z, hfirst⟩ := exists_firstHit hends ⟨t, hre t ht, hray⟩
  obtain ⟨⟨hvertexr, hvertexs⟩, hover⟩ := hgeneric z hfirst.level
  cases hzr : onRing z r with
  | false =>
    -- the hit is on the second ring, off the first
    obtain ⟨f, hf, hfz⟩ := hfirst.hit
    have hfs : f ∈ segments s := (List.mem_append.1 hf).resolve_left fun hfr =>
      (onRing_eq_false_iff z r).1 hzr f hfr hfz
    have hzin := hfirst.inside hre hclosedr hpr hfirst.level hfirst.ahead.le (.inr ⟨rfl, hzr⟩)
    exact .inr (.inl (traverses_of_inside hclosedr hcross hfs hfz hzin hsr))
  | true =>
    obtain ⟨e, he, hez⟩ := (onRing_iff z r).1 hzr
    cases hzs : onRing z s with
    | false =>
      have hzin := hfirst.inside hse hcloseds hps hfirst.level hfirst.ahead.le (.inr ⟨rfl, hzs⟩)
      rw [ringsCross_comm] at hcross
      exact .inl (traverses_of_inside hcloseds hcross he hez hzin hrs)
    | true =>
      obtain ⟨f, hf, hfz⟩ := (onRing_iff z s).1 hzs
      exact .inr (.inr (runAlong_of_firstHit hr hs hfirst hre hse hpr hps he hf hez hfz
        (hover e he f hf hez hfz) hvertexr hvertexs))

namespace Polygon

/-- Two holes of an accepted polygon have a position strictly inside both exactly when an edge of one of them
runs through the inside of the other, from where they touch to where they touch again, or they run along each
other with the same inside. -/
theorem accepted_holes_overlap_iff {a : Polygon ℚ} (h : a.problem? = none) {i j : ℕ} (hij : i ≠ j)
    {r s : Ring ℚ} (hr : a.holes[i]? = some r) (hs : a.holes[j]? = some s) :
    (∃ q, insideRing q r = true ∧ insideRing q s = true) ↔ Traverses r s ∨ Traverses s r ∨ RunAlong r s := by
  obtain ⟨hrings, -, hcrossing, -, hnesting⟩ := (problem?_eq_none_iff a).1 h
  have hfault : ∀ {k : ℕ} {ring : Ring ℚ}, a.holes[k]? = some ring → ringFault? ring = none := fun hk =>
    (ringProblem?_eq_none_iff a).1 hrings _ (List.mem_cons_of_mem _ (List.mem_of_getElem? hk))
  have hprobe : ∀ {k l : ℕ} {ring other : Ring ℚ}, k ≠ l → a.holes[k]? = some ring → a.holes[l]? = some other →
      ∀ v ∈ ring, insideRing v other = false := by
    intro k l ring other hkl hk hl v hv
    have hreach := (nestingProblem?_eq_none_iff a).1 hnesting k l ring other hkl hk hl
    rw [reachesInto, List.any_eq_false] at hreach
    exact Bool.eq_false_iff.2 (hreach v (List.mem_append_left _ hv))
  have hcross : ringsCross r s = false := by
    have hpairs := (crossingProblem?_eq_none_iff a).1 hcrossing
    rcases Nat.lt_or_gt_of_ne hij with hlt | hgt
    · exact hpairs (i + 1) (j + 1) r s (Nat.succ_lt_succ hlt) hr hs
    · rw [ringsCross_comm]
      exact hpairs (j + 1) (i + 1) s r (Nat.succ_lt_succ hgt) hs hr
  constructor
  · exact overlap_cases (hfault hr) (hfault hs) hcross (hprobe hij hr hs) (hprobe hij.symm hs hr)
  · rintro (htraverses | htraverses | halong)
    · exact overlap_of_traverses (hfault hr) (isClosed_of_ringFault?_eq_none (hfault hs)) htraverses
    · obtain ⟨q, hqs, hqr⟩ :=
        overlap_of_traverses (hfault hs) (isClosed_of_ringFault?_eq_none (hfault hr)) htraverses
      exact ⟨q, hqr, hqs⟩
    · exact overlap_of_runAlong (hfault hr) halong

/-- A square with two holes that cross each other like the sails of a windmill. Each turns at a vertex on an edge
of the other, so no two edges cross, and no vertex lies inside. -/
def pierced : Polygon ℚ :=
  ⟨[⟨-10, -10⟩, ⟨10, -10⟩, ⟨10, 10⟩, ⟨-10, 10⟩, ⟨-10, -10⟩],
    [[⟨0, 0⟩, ⟨-2, 1⟩, ⟨1, 1⟩, ⟨3, 0⟩, ⟨0, 0⟩], [⟨1, 0⟩, ⟨0, -2⟩, ⟨0, 1⟩, ⟨1, 3⟩, ⟨1, 0⟩]]⟩

/-- The polygon is accepted and the middle of the windmill lies inside both holes. -/
theorem pierced_holes_overlap : pierced.problem? = none ∧
    ∃ r s, pierced.holes[0]? = some r ∧ pierced.holes[1]? = some s ∧
      insideRing ⟨1 / 2, 1 / 2⟩ r = true ∧ insideRing ⟨1 / 2, 1 / 2⟩ s = true :=
  ⟨by decide +kernel, _, _, rfl, rfl, by decide +kernel, by decide +kernel⟩

/-- The holes traverse each other. -/
theorem pierced_holes_traverse : pierced.problem? = none ∧
    ∃ r s, pierced.holes[0]? = some r ∧ pierced.holes[1]? = some s ∧
      (Traverses r s ∨ Traverses s r ∨ RunAlong r s) := by
  have haccepted : pierced.problem? = none := by decide +kernel
  refine ⟨haccepted, _, _, rfl, rfl, (accepted_holes_overlap_iff haccepted Nat.zero_ne_one rfl rfl).1 ?_⟩
  exact ⟨⟨1 / 2, 1 / 2⟩, by decide +kernel, by decide +kernel⟩

end Polygon

end OccurrenceQuery.Geometry
