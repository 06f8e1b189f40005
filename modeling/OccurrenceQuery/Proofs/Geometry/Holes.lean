/-
Where the holes of an accepted polygon lie. The rules reject a hole with an edge that crosses the shell, and
one whose first vertex off the shell lies outside. What is left is that a hole leaves the shell where the two
touch at a vertex of one of them: then it reaches a vertex or the midpoint of an edge outside, and otherwise
it has all of them in the shell.
-/
import OccurrenceQuery.Proofs.Geometry.Simple

namespace OccurrenceQuery.Geometry

namespace Segment

variable {s t way : Segment ℚ} {v : Position ℚ}

/-! ## Stations of a segment -/

/-- The position in the middle of a segment. -/
def midpoint (s : Segment ℚ) : Position ℚ := ⟨(s.start.x + s.stop.x) / 2, (s.start.y + s.stop.y) / 2⟩

/-- The ends of a segment and its midpoint. -/
def stations (s : Segment ℚ) : List (Position ℚ) := [s.start, s.midpoint, s.stop]

theorem start_mem_stations (s : Segment ℚ) : s.start ∈ s.stations := by simp [stations]

theorem midpoint_mem_stations (s : Segment ℚ) : s.midpoint ∈ s.stations := by simp [stations]

theorem stop_mem_stations (s : Segment ℚ) : s.stop ∈ s.stations := by simp [stations]

theorem exists_along_of_mem_stations (h : v ∈ s.stations) : ∃ part, 0 ≤ part ∧ part ≤ 1 ∧ v = s.along part := by
  simp only [stations, List.mem_cons, List.not_mem_nil, or_false] at h
  rcases h with rfl | rfl | rfl
  · exact ⟨0, le_rfl, zero_le_one, (along_zero s).symm⟩
  · refine ⟨1 / 2, by norm_num, by norm_num, Position.eq_of_xy ?_ ?_⟩ <;> simp only [midpoint, along] <;> ring
  · exact ⟨1, zero_le_one, le_rfl, (along_one s).symm⟩

/-! ## Segments on one line -/

/-- Whether both ends of a segment lie on the line of another. -/
def Aligned (s t : Segment ℚ) : Prop := turn s.start s.stop t.start = 0 ∧ turn s.start s.stop t.stop = 0

theorem Aligned.of_along {a b : ℚ} (h : Aligned s t) : Aligned ⟨s.along a, s.along b⟩ t := by
  have hscale : ∀ p, turn (s.along a) (s.along b) p = (b - a) * turn s.start s.stop p := fun p => by
    simp only [turn_eq, along]
    ring
  exact ⟨by rw [hscale, h.1, mul_zero], by rw [hscale, h.2, mul_zero]⟩

theorem aligned_of_along (a b : ℚ) : Aligned ⟨t.along a, t.along b⟩ t := by
  constructor <;> simp only [turn_eq, along] <;> ring

theorem aligned_of_common {u w : Position ℚ} (hne : u ≠ w) (hsu : s.covers u = true) (hsw : s.covers w = true)
    (htu : t.covers u = true) (htw : t.covers w = true) : Aligned s t :=
  ((overlaps_iff s t).1 (overlaps_of_common hne hsu hsw htu htw)).1

/-- Two segments cross when they meet strictly between their ends, unless they lie on one line. -/
theorem crosses_of_common_inside {c d : ℚ} (hc : 0 < c ∧ c < 1) (hd : 0 < d ∧ d < 1) (heq : s.along c = t.along d)
    (hline : ¬ Aligned s t) : s.crosses t = true := by
  have hst : (1 - d) * turn s.start s.stop t.start + d * turn s.start s.stop t.stop = 0 := by
    rw [← turn_along, ← heq, turn_self_along]
  have hts : (1 - c) * turn t.start t.stop s.start + c * turn t.start t.stop s.stop = 0 := by
    rw [← turn_along, heq, turn_self_along]
  have hne : t.start ≠ t.stop := fun h => hline <| by
    rw [← h, ← add_mul, sub_add_cancel, one_mul] at hst
    exact ⟨hst, h ▸ hst⟩
  refine (crosses_iff s t).2 ⟨mul_neg_of_mix hd.1 hd.2 hst hline, mul_neg_of_mix hc.1 hc.2 hts fun h => hline ?_⟩
  obtain ⟨a, ha⟩ := exists_along hne h.1
  obtain ⟨b, hb⟩ := exists_along hne h.2
  have hends : s = ⟨t.along a, t.along b⟩ := by rw [← ha, ← hb]
  rw [hends]
  exact aligned_of_along a b

/-! ## The last hit on a way -/

/-- Whether a way is last hit at the given part of it: one of the segments covers the position there, and none
covers one after it. The segment ends there, or runs along another line. -/
structure LastHit (edges : List (Segment ℚ)) (way : Segment ℚ) (part : ℚ) : Prop where
  nonneg : 0 ≤ part
  lt_one : part < 1
  hit : ∃ s ∈ edges, s.covers (way.along part) = true ∧
    (way.along part = s.start ∨ way.along part = s.stop ∨ ¬ Aligned way s)
  free : ∀ later, part < later → later ≤ 1 → ∀ s ∈ edges, ¬ s.covers (way.along later) = true

theorem exists_lastHit_segment (hoff : ¬ s.covers way.stop = true) :
    (∀ part, 0 ≤ part → part ≤ 1 → ¬ s.covers (way.along part) = true) ∨ ∃ part, LastHit [s] way part := by
  by_cases hmiss : ∀ part, 0 ≤ part → part ≤ 1 → ¬ s.covers (way.along part) = true
  · exact .inl hmiss
  right
  push Not at hmiss
  obtain ⟨part, h0, h1, hcovers⟩ := hmiss
  have hlt : ∀ part, part ≤ 1 → s.covers (way.along part) = true → part < 1 := fun part hle h =>
    lt_of_le_of_ne hle fun heq => by
      rw [heq, along_one] at h
      exact hoff h
  have hne : way.start ≠ way.stop := fun heq => by
    have hstop : way.along part = way.stop := by
      refine Position.eq_of_xy ?_ ?_ <;> simp only [along, heq] <;> ring
    exact hoff (hstop ▸ hcovers)
  by_cases hline : Aligned way s
  · -- on one line the segment covers what lies between its ends, and the later of them is hit last
    obtain ⟨a, ha⟩ := exists_along hne hline.1
    obtain ⟨b, hb⟩ := exists_along hne hline.2
    have hbetween := covers_along_iff hne ha hb
    obtain ⟨hlow, hhigh⟩ := (hbetween part).1 hcovers
    have hend : s.covers (way.along (max a b)) = true := (hbetween _).2 ⟨min_le_max, le_rfl⟩
    have hbefore : max a b < 1 := not_le.1 fun hle => by
      have hstop := (hbetween 1).2 ⟨hlow.trans h1, hle⟩
      rw [along_one] at hstop
      exact hoff hstop
    refine ⟨max a b, h0.trans hhigh, hbefore, ⟨s, List.mem_singleton_self s, hend, ?_⟩, ?_⟩
    · rcases max_choice a b with h | h
      · exact .inl (by rw [h, ha])
      · exact .inr (.inl (by rw [h, hb]))
    · intro later hlater _ t ht
      rw [List.mem_singleton.1 ht]
      exact fun h => absurd ((hbetween later).1 h).2 (not_le.2 hlater)
  · refine ⟨part, h0, hlt part h1 hcovers, ⟨s, List.mem_singleton_self s, hcovers, .inr (.inr hline)⟩, ?_⟩
    intro later hlater hle t ht h
    rw [List.mem_singleton.1 ht] at h
    have hdiff : way.along part ≠ way.along later := fun heq => hlater.ne (along_injective hne heq)
    exact hline (aligned_of_common hdiff (covers_along h0 h1) (covers_along (h0.trans hlater.le) hle) hcovers h)

theorem LastHit.covers {part : ℚ} (h : LastHit [s] way part) : s.covers (way.along part) = true := by
  obtain ⟨t, ht, hcovers, -⟩ := h.hit
  rwa [List.mem_singleton.1 ht] at hcovers

theorem LastHit.le_of_covers {part later : ℚ} (h : LastHit [s] way part) (hle : later ≤ 1)
    (hcovers : s.covers (way.along later) = true) : later ≤ part :=
  not_lt.1 fun hlater => h.free later hlater hle s (List.mem_singleton_self s) hcovers

/-- A way that stops off some segments misses them all, or is last hit somewhere. -/
theorem exists_lastHit {edges : List (Segment ℚ)} (hoff : ∀ s ∈ edges, ¬ s.covers way.stop = true) :
    (∀ s ∈ edges, ∀ part, 0 ≤ part → part ≤ 1 → ¬ s.covers (way.along part) = true) ∨
      ∃ part, LastHit edges way part := by
  by_cases hmiss : ∀ s ∈ edges, ∀ part, 0 ≤ part → part ≤ 1 → ¬ s.covers (way.along part) = true
  · exact .inl hmiss
  right
  push Not at hmiss
  obtain ⟨s, hs, part, h0, h1, hcovers⟩ := hmiss
  have hsegment : ∀ s ∈ edges, ∀ part, 0 ≤ part → part ≤ 1 → s.covers (way.along part) = true →
      ∃ last, LastHit [s] way last ∧ part ≤ last := by
    intro s hs part h0 h1 hcovers
    rcases exists_lastHit_segment (hoff s hs) with hmiss | ⟨last, hlast⟩
    · exact absurd hcovers (hmiss part h0 h1)
    · exact ⟨last, hlast, hlast.le_of_covers h1 hcovers⟩
  -- the segment that is hit last of all decides
  have hfinite : {part | ∃ s ∈ edges, LastHit [s] way part}.Finite := by
    refine ((List.finite_toSet edges).biUnion fun s _ => Set.Subsingleton.finite ?_).subset
      fun part ⟨s, hs, h⟩ => Set.mem_biUnion hs h
    exact fun a ha b hb => le_antisymm (hb.le_of_covers ha.lt_one.le ha.covers) (ha.le_of_covers hb.lt_one.le hb.covers)
  obtain ⟨first, hfirst, -⟩ := hsegment s hs part h0 h1 hcovers
  obtain ⟨last, ⟨t, ht, hlast⟩, hgreatest⟩ := Set.exists_max_image _ id hfinite ⟨first, s, hs, hfirst⟩
  obtain ⟨t', ht', hhit⟩ := hlast.hit
  rw [List.mem_singleton.1 ht'] at hhit
  refine ⟨last, hlast.nonneg, hlast.lt_one, ⟨t, ht, hhit⟩, fun later hlater hle u hu hcovers => ?_⟩
  obtain ⟨last', hlast', hge⟩ := hsegment u hu later (hlast.nonneg.trans hlater.le) hle hcovers
  exact absurd (hgreatest last' ⟨u, hu, hlast'⟩) (not_le.2 (hlater.trans_le hge))

end Segment

variable {hole shell : Ring ℚ} {p u v z : Position ℚ} {s : Segment ℚ}

/-! ## In a ring and out of it -/

/-- Whether a position lies in a ring: strictly inside it or on it. -/
def LiesIn (ring : Ring ℚ) (p : Position ℚ) : Prop := insideRing p ring = true ∨ onRing p ring = true

theorem not_liesIn_iff (ring : Ring ℚ) (p : Position ℚ) :
    ¬ LiesIn ring p ↔ insideRing p ring = false ∧ onRing p ring = false := by
  rw [LiesIn, not_or, Bool.not_eq_true, Bool.not_eq_true]

/-- Whether two rings touch at a position: it is a vertex of one of them and on the other. -/
def TouchAt (r s : Ring ℚ) (z : Position ℚ) : Prop := z ∈ r ∧ onRing z s = true ∨ z ∈ s ∧ onRing z r = true

/-- Whether the way from `z` to another position `v` runs outside a ring, `z` apart. -/
def RunsOutside (ring : Ring ℚ) (z v : Position ℚ) : Prop :=
  v ≠ z ∧ ∀ w, Segment.covers ⟨z, v⟩ w = true → w ≠ z → ¬ LiesIn ring w

/-- Whether a hole leaves the shell: from where the two touch, an edge of the hole runs outside the shell up to
one of its ends or its midpoint. -/
def Leaves (hole shell : Ring ℚ) : Prop :=
  ∃ s ∈ segments hole, ∃ z, ∃ v ∈ s.stations, s.covers z = true ∧ TouchAt hole shell z ∧ RunsOutside shell z v

theorem not_liesIn_of_avoids (hclosed : IsClosed shell) (havoid : Avoids ⟨u, v⟩ shell) (hv : ¬ LiesIn shell v) :
    ¬ LiesIn shell u := by
  rw [not_liesIn_iff] at hv ⊢
  exact ⟨by rw [insideRing_eq_of_avoids hclosed havoid, hv.1], havoid u (Segment.covers_start ⟨u, v⟩)⟩

theorem exists_along_of_covers_rest {way : Segment ℚ} {part : ℚ} (hle : part ≤ 1)
    (hp : Segment.covers ⟨way.along part, way.stop⟩ p = true) : ∃ later, part ≤ later ∧ later ≤ 1 ∧ p = way.along later := by
  rw [← Segment.along_one way] at hp
  obtain ⟨share, h0, h1, rfl⟩ := (Segment.covers_iff _ p).1 hp
  exact ⟨part + share * (1 - part), by nlinarith, by nlinarith, Segment.along_along way part 1 share⟩

/-- After its last hit by a ring, a way to a position outside the ring runs outside it. -/
theorem runsOutside_of_lastHit {way : Segment ℚ} {part : ℚ} (hclosed : IsClosed shell)
    (hlast : Segment.LastHit (segments shell) way part) (hstop : ¬ LiesIn shell way.stop) :
    RunsOutside shell (way.along part) way.stop := by
  refine ⟨fun heq => ?_, fun w hw hne => ?_⟩
  · obtain ⟨t, ht, hhit, -⟩ := hlast.hit
    exact hstop (heq ▸ .inr ((onRing_iff _ _).2 ⟨t, ht, hhit⟩))
  · obtain ⟨later, hge, hle, rfl⟩ := exists_along_of_covers_rest hlast.lt_one.le hw
    have hlater : part < later := lt_of_le_of_ne hge fun h => hne (by rw [h])
    refine not_liesIn_of_avoids hclosed (fun x hx => ?_) hstop
    obtain ⟨latest, hge', hle', rfl⟩ := exists_along_of_covers_rest hle hx
    exact (onRing_eq_false_iff _ _).2 (hlast.free latest (hlater.trans_le hge') hle')

theorem exists_along_inside (hz : s.covers z = true) (hstart : z ≠ s.start) (hstop : z ≠ s.stop) :
    ∃ part, (0 < part ∧ part < 1) ∧ z = s.along part := by
  obtain ⟨part, h0, h1, rfl⟩ := (Segment.covers_iff s z).1 hz
  refine ⟨part, ⟨lt_of_le_of_ne h0 fun h => hstart ?_, lt_of_le_of_ne h1 fun h => hstop ?_⟩, rfl⟩
  · rw [← h, Segment.along_zero]
  · rw [h, Segment.along_one]

/-- An edge that crosses no edge of a ring is last hit by it where the two rings touch. -/
theorem touchAt_of_lastHit (hs : s ∈ segments hole) (hcross : ringsCross shell hole = false) {a b part : ℚ}
    (hlast : Segment.LastHit (segments shell) ⟨s.along a, s.along b⟩ part)
    (hz : s.covers (Segment.along ⟨s.along a, s.along b⟩ part) = true) :
    TouchAt hole shell (Segment.along ⟨s.along a, s.along b⟩ part) := by
  obtain ⟨t, ht, hcovers, hend⟩ := hlast.hit
  generalize Segment.along ⟨s.along a, s.along b⟩ part = z at hz hcovers hend ⊢
  have hhole : onRing z hole = true := (onRing_iff z hole).2 ⟨s, hs, hz⟩
  have hshell : onRing z shell = true := (onRing_iff z shell).2 ⟨t, ht, hcovers⟩
  by_cases htstart : z = t.start
  · exact .inr ⟨htstart ▸ (mem_of_mem_segments ht).1, hhole⟩
  by_cases htstop : z = t.stop
  · exact .inr ⟨htstop ▸ (mem_of_mem_segments ht).2, hhole⟩
  by_cases hsstart : z = s.start
  · exact .inl ⟨hsstart ▸ (mem_of_mem_segments hs).1, hshell⟩
  by_cases hsstop : z = s.stop
  · exact .inl ⟨hsstop ▸ (mem_of_mem_segments hs).2, hshell⟩
  -- strictly between the ends of both, the edges would cross
  exfalso
  have hline : ¬ Segment.Aligned s t := fun h => (hend.resolve_left htstart).resolve_left htstop h.of_along
  obtain ⟨c, hc, hzc⟩ := exists_along_inside hz hsstart hsstop
  obtain ⟨d, hd, hzd⟩ := exists_along_inside hcovers htstart htstop
  have hcrosses := Segment.crosses_of_common_inside hc hd (hzc.symm.trans hzd) hline
  rw [Segment.crosses_iff, and_comm, ← Segment.crosses_iff] at hcrosses
  have hrings : ringsCross shell hole = true :=
    List.any_eq_true.2 ⟨t, ht, List.any_eq_true.2 ⟨s, hs, hcrosses⟩⟩
  rw [hcross] at hrings
  cases hrings

/-! ## Along a hole -/

/-- On an edge of a hole that does not leave the shell, all stations lie outside the shell, or none. -/
theorem not_liesIn_station (hclosed : IsClosed shell) (hcross : ringsCross shell hole = false)
    (hstay : ¬ Leaves hole shell) (hs : s ∈ segments hole) (hu : u ∈ s.stations) (hv : v ∈ s.stations)
    (hout : ¬ LiesIn shell v) : ¬ LiesIn shell u := by
  obtain ⟨a, ha0, ha1, rfl⟩ := Segment.exists_along_of_mem_stations hu
  obtain ⟨b, hb0, hb1, rfl⟩ := Segment.exists_along_of_mem_stations hv
  have hoff : ∀ t ∈ segments shell, ¬ t.covers (s.along b) = true :=
    (onRing_eq_false_iff _ _).1 ((not_liesIn_iff _ _).1 hout).2
  rcases @Segment.exists_lastHit ⟨s.along a, s.along b⟩ _ hoff with hmiss | ⟨part, hlast⟩
  · refine not_liesIn_of_avoids hclosed (fun z hz => ?_) hout
    obtain ⟨part, h0, h1, rfl⟩ := (Segment.covers_iff _ z).1 hz
    exact (onRing_eq_false_iff _ _).2 fun t ht => hmiss t ht part h0 h1
  · have hz : s.covers (Segment.along ⟨s.along a, s.along b⟩ part) = true :=
      Segment.covers_of_between (Segment.covers_along ha0 ha1) (Segment.covers_along hb0 hb1)
        (Segment.covers_along hlast.nonneg hlast.lt_one.le)
    exact absurd ⟨s, hs, _, _, hv, hz, touchAt_of_lastHit hs hcross hlast hz, runsOutside_of_lastHit hclosed hlast hout⟩
      hstay

/-- What holds of both ends of each segment or of none holds of all positions of a list or of none. -/
theorem forall_mem_of_segments {P : Position ℚ → Prop} : ∀ {ps : List (Position ℚ)},
    (∀ s ∈ segments ps, P s.start ↔ P s.stop) → ∀ u ∈ ps, ∀ v ∈ ps, P u → P v
  | [], _, u, hu, _, _, _ => by cases hu
  | [p], _, u, hu, v, hv, h => by
    rwa [List.mem_singleton.1 hv, ← List.mem_singleton.1 hu]
  | p :: q :: ps, hends, u, hu, v, hv, h => by
    have hfirst : P p ↔ P q := hends ⟨p, q⟩ List.mem_cons_self
    have ih := forall_mem_of_segments (P := P) fun s hs => hends s (List.mem_cons_of_mem _ hs)
    have hq : P q := by
      rcases List.mem_cons.1 hu with rfl | hu
      · exact hfirst.1 h
      · exact ih u hu q List.mem_cons_self h
    rcases List.mem_cons.1 hv with rfl | hv
    · exact hfirst.2 hq
    · exact ih q List.mem_cons_self v hv hq

/-- A hole that passes the rules and does not leave the shell has no vertex outside it. -/
theorem liesIn_of_mem (hclosed : IsClosed shell) (hcross : ringsCross shell hole = false)
    (hholds : Polygon.holdsHole shell hole = true) (hstay : ¬ Leaves hole shell) (hv : v ∈ hole) : LiesIn shell v := by
  by_contra hout
  have hends : ∀ s ∈ segments hole, ¬ LiesIn shell s.start ↔ ¬ LiesIn shell s.stop := fun s hs =>
    ⟨not_liesIn_station hclosed hcross hstay hs s.stop_mem_stations s.start_mem_stations,
      not_liesIn_station hclosed hcross hstay hs s.start_mem_stations s.stop_mem_stations⟩
  have hall : ∀ u ∈ hole, ¬ LiesIn shell u := fun u hu =>
    forall_mem_of_segments (P := fun p => ¬ LiesIn shell p) hends v hv u hu hout
  unfold Polygon.holdsHole at hholds
  split at hholds
  · rename_i u hu
    exact hall u (List.mem_of_find?_eq_some hu) (.inl hholds)
  · rename_i hnone
    have hon := List.find?_eq_none.1 hnone v hv
    exact hout (.inr (by simpa using hon))

/-- A hole of an accepted polygon has all its vertices and the midpoints of all its edges in the shell, exactly
when it does not leave the shell where the two touch. -/
theorem accepted_hole_iff {a : Polygon ℚ} (h : a.problem? = none) (hhole : hole ∈ a.holes) :
    ((∀ v ∈ hole, LiesIn a.shell v) ∧ ∀ s ∈ segments hole, LiesIn a.shell s.midpoint) ↔ ¬ Leaves hole a.shell := by
  obtain ⟨-, -, hcrossing, houtside, -⟩ := (Polygon.problem?_eq_none_iff a).1 h
  have hclosed : IsClosed a.shell := Polygon.isClosed_of_problem?_eq_none h _ List.mem_cons_self
  have hcross : ringsCross a.shell hole = false := by
    obtain ⟨i, hi⟩ := List.mem_iff_getElem?.1 hhole
    exact (Polygon.crossingProblem?_eq_none_iff a).1 hcrossing 0 (i + 1) _ _ i.succ_pos rfl hi
  constructor
  · rintro ⟨hvertices, hmidpoints⟩ ⟨s, hs, z, v, hv, -, -, hne, hruns⟩
    refine hruns v (Segment.covers_stop ⟨z, v⟩) hne ?_
    simp only [Segment.stations, List.mem_cons, List.not_mem_nil, or_false] at hv
    rcases hv with rfl | rfl | rfl
    · exact hvertices _ (mem_of_mem_segments hs).1
    · exact hmidpoints s hs
    · exact hvertices _ (mem_of_mem_segments hs).2
  · intro hstay
    have hvertices : ∀ v ∈ hole, LiesIn a.shell v := fun v hv =>
      liesIn_of_mem hclosed hcross ((Polygon.outsideProblem?_eq_none_iff a).1 houtside hole hhole) hstay hv
    refine ⟨hvertices, fun s hs => ?_⟩
    by_contra hout
    exact not_liesIn_station hclosed hcross hstay hs s.start_mem_stations s.midpoint_mem_stations hout
      (hvertices _ (mem_of_mem_segments hs).1)

/-- A square with a hole that sits astride its right side, with two vertices on that side. -/
def straddled : Polygon ℚ :=
  ⟨[⟨0, 0⟩, ⟨4, 0⟩, ⟨4, 4⟩, ⟨0, 4⟩, ⟨0, 0⟩], [[⟨3, 2⟩, ⟨4, 3⟩, ⟨5, 2⟩, ⟨4, 1⟩, ⟨3, 2⟩]]⟩

theorem not_liesIn_straddled : ¬ LiesIn straddled.shell ⟨5, 2⟩ := by
  rw [not_liesIn_iff]
  exact ⟨by decide +kernel, by decide +kernel⟩

/-- The polygon is accepted, and a vertex of its hole lies outside the shell. -/
theorem straddled_accepted : straddled.problem? = none ∧
    ∃ hole ∈ straddled.holes, ∃ v ∈ hole, ¬ LiesIn straddled.shell v :=
  ⟨by decide +kernel, _, List.mem_cons_self, ⟨5, 2⟩, by simp, not_liesIn_straddled⟩

/-- The hole of the straddled square leaves its shell. -/
theorem straddled_leaves : straddled.problem? = none ∧ ∃ hole ∈ straddled.holes, Leaves hole straddled.shell := by
  have haccepted : straddled.problem? = none := by decide +kernel
  refine ⟨haccepted, _, List.mem_cons_self, ?_⟩
  by_contra hstay
  exact not_liesIn_straddled (((accepted_hole_iff haccepted List.mem_cons_self).2 hstay).1 ⟨5, 2⟩ (by simp))

end OccurrenceQuery.Geometry
