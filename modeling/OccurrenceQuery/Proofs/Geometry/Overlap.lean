/-
When accepted polygons overlap. The rules reject edges that cross or share a stretch, and a shell with a
vertex inside another member. What is left is that the boundaries touch and that the border of one of the
two runs through the inside of the other; then they overlap, and otherwise they do not.
-/
import OccurrenceQuery.Proofs.Geometry.Acceptance
import OccurrenceQuery.Proofs.Geometry.Nearby

namespace OccurrenceQuery.Geometry

variable {p q z : Position ℚ} {ring outer inner : Ring ℚ}

/-! ## Rings that share no position -/

/-- Whether two rings have no position in common. -/
def AreDisjoint (r s : Ring ℚ) : Prop := ∀ z, onRing z r = true → onRing z s = false

theorem AreDisjoint.symm (h : AreDisjoint outer inner) : AreDisjoint inner outer := fun z hz =>
  Bool.eq_false_iff.2 fun hz' => by
    rw [h z hz'] at hz
    cases hz

/-- Rings that do not cross, and have no vertices on each other, have no position in common. -/
theorem areDisjoint_of_vertices (hcross : ringsCross outer inner = false)
    (houter : ∀ v ∈ outer, onRing v inner = false) (hinner : ∀ v ∈ inner, onRing v outer = false) :
    AreDisjoint outer inner := by
  intro z hz
  refine Bool.eq_false_iff.2 fun hz' => ?_
  obtain ⟨e, he, hez⟩ := (onRing_iff z outer).1 hz
  obtain ⟨f, hf, hfz⟩ := (onRing_iff z inner).1 hz'
  obtain ⟨hestart, hestop⟩ := mem_of_mem_segments he
  obtain ⟨hfstart, hfstop⟩ := mem_of_mem_segments hf
  have hoff : ∀ v ∈ outer, ¬ f.covers v = true := fun v hv => (onRing_eq_false_iff v inner).1 (houter v hv) f hf
  have hoff' : ∀ v ∈ inner, ¬ e.covers v = true := fun v hv => (onRing_eq_false_iff v outer).1 (hinner v hv) e he
  have hcrosses := Segment.crosses_of_common hez hfz (hoff' _ hfstart) (hoff' _ hfstop) (hoff _ hestart)
    (hoff _ hestop)
  have hrings : ringsCross outer inner = true :=
    List.any_eq_true.2 ⟨e, he, List.any_eq_true.2 ⟨f, hf, hcrosses⟩⟩
  rw [hcross] at hrings
  cases hrings

theorem exists_stopsRay_of_insideRing (h : insideRing p ring = true) :
    ∃ s ∈ segments ring, s.stopsRay p = true := by
  have hodd := ((insideRing_iff p ring).1 h).2
  have hpos : 0 < (segments ring).countP (·.stopsRay p) := by omega
  obtain ⟨s, hs, hray⟩ := List.countP_pos_iff.1 hpos
  exact ⟨s, hs, hray⟩

theorem lt_end_of_stopsRay {s : Segment ℚ} (h : s.stopsRay p = true) : p.x < s.start.x ∨ p.x < s.stop.x := by
  obtain ⟨hspans, hahead⟩ := (Segment.stopsRay_iff s p).1 h
  obtain ⟨-, ⟨-, hright⟩, -⟩ := (Segment.covers_iff_box s _).1 (Segment.covers_crossing hspans)
  exact lt_max_iff.1 (hahead.trans_le hright)

theorem onRing_of_mem : ∀ {ring : Ring ℚ}, segments ring ≠ [] → ∀ v ∈ ring, onRing v ring = true
  | [], h => absurd rfl h
  | [_], h => absurd rfl h
  | [p, q], _ => by
    intro v hv
    have hends : v = p ∨ v = q := by simpa using hv
    rcases hends with rfl | rfl
    · exact (onRing_iff _ _).2 ⟨_, List.mem_cons_self, Segment.covers_start ⟨v, q⟩⟩
    · exact (onRing_iff _ _).2 ⟨_, List.mem_cons_self, Segment.covers_stop ⟨p, v⟩⟩
  | p :: q :: r :: ps, _ => by
    intro v hv
    rcases List.mem_cons.1 hv with rfl | hv
    · exact (onRing_iff _ _).2 ⟨_, List.mem_cons_self, Segment.covers_start ⟨v, q⟩⟩
    · have hne : segments (q :: r :: ps) ≠ [] := List.cons_ne_nil _ _
      obtain ⟨s, hs, hcovers⟩ := (onRing_iff _ _).1 (onRing_of_mem hne v hv)
      exact (onRing_iff _ _).2 ⟨s, List.mem_cons_of_mem _ hs, hcovers⟩

theorem segments_ne_nil_of_onRing (h : onRing p ring = true) : segments ring ≠ [] := by
  intro hnil
  obtain ⟨s, hs, -⟩ := (onRing_iff p ring).1 h
  rw [hnil] at hs
  cases hs

theorem exists_vertex_of_onRing (h : onRing p ring = true) : ∃ v ∈ ring, onRing v ring = true := by
  have hne := segments_ne_nil_of_onRing h
  obtain ⟨v, hv⟩ : ∃ v, v ∈ ring := by
    refine List.exists_mem_of_ne_nil _ fun hnil => hne ?_
    rw [hnil]
    rfl
  exact ⟨v, hv, onRing_of_mem hne v hv⟩

/-- No two rings have all their vertices inside each other: the rightmost of them is inside none. -/
theorem not_inside_each_other (hne : inner ≠ []) (hinner : ∀ v ∈ inner, insideRing v outer = true)
    (houter : ∀ v ∈ outer, insideRing v inner = true) : False := by
  obtain ⟨v, hv, hmost⟩ := Set.exists_max_image {v | v ∈ inner ++ outer} Position.x
    (List.finite_toSet (inner ++ outer)) (List.exists_mem_of_ne_nil _ (by simp [hne]))
  have stuck : ∀ {ring : Ring ℚ}, (∀ u ∈ ring, u ∈ inner ++ outer) → ¬ insideRing v ring = true := by
    intro ring hsub hin
    obtain ⟨s, hs, hray⟩ := exists_stopsRay_of_insideRing hin
    obtain ⟨hstart, hstop⟩ := mem_of_mem_segments hs
    rcases lt_end_of_stopsRay hray with h | h
    · exact absurd (hmost _ (hsub _ hstart)) (not_le.2 h)
    · exact absurd (hmost _ (hsub _ hstop)) (not_le.2 h)
  rcases List.mem_append.1 hv with hv | hv
  · exact stuck (fun u hu => List.mem_append_right _ hu) (hinner v hv)
  · exact stuck (fun u hu => List.mem_append_left _ hu) (houter v hv)

/-- What is inside a ring that lies inside another is inside the other. -/
theorem insideRing_trans (hinner : IsClosed inner) (houter : IsClosed outer) (hdisjoint : AreDisjoint inner outer)
    (hheight : ∀ s ∈ segments inner ++ segments outer, s.start.y ≠ p.y ∧ s.stop.y ≠ p.y)
    (hp : onRing p outer = false) (hin : insideRing p inner = true)
    (hwithin : ∀ v, onRing v inner = true → insideRing v outer = true) : insideRing p outer = true := by
  obtain ⟨s, hs, hray⟩ := exists_stopsRay_of_insideRing hin
  obtain ⟨z, hfirst⟩ := exists_firstHit hheight ⟨s, List.mem_append_left _ hs, hray⟩
  have hoff : onRing p inner = false := ((insideRing_iff p inner).1 hin).1
  by_cases hz : onRing z outer = true
  · -- the outer ring would lie inside the inner one, too
    exfalso
    have havoid := hfirst.avoids (fun s hs => List.mem_append_left _ hs) hoff hfirst.level hfirst.ahead.le
      (.inr ⟨rfl, hdisjoint.symm z hz⟩)
    have hzin : insideRing z inner = true := by rw [← insideRing_eq_of_avoids hinner havoid, hin]
    have hne : segments inner ≠ [] := List.ne_nil_of_mem hs
    have hne' : inner ≠ [] := by
      rintro rfl
      exact hne rfl
    refine not_inside_each_other hne' (fun v hv => hwithin v (onRing_of_mem hne v hv)) ?_
    · intro v hv
      have hvon := onRing_of_mem (segments_ne_nil_of_onRing hz) v hv
      rw [insideRing_eq_of_disjoint hinner hdisjoint.symm hvon hz, hzin]
  · have hz' : onRing z outer = false := Bool.eq_false_iff.2 hz
    have havoid := hfirst.avoids (fun s hs => List.mem_append_right _ hs) hp hfirst.level hfirst.ahead.le
      (.inr ⟨rfl, hz'⟩)
    rw [insideRing_eq_of_avoids houter havoid]
    obtain ⟨t, ht, hcovers⟩ := hfirst.hit
    rcases List.mem_append.1 ht with ht | ht
    · exact hwithin z ((onRing_iff z inner).2 ⟨t, ht, hcovers⟩)
    · exact absurd ((onRing_iff z outer).2 ⟨t, ht, hcovers⟩) hz

namespace Polygon

variable {a b : Polygon ℚ}

/-! ## Touching and entering -/

/-- Whether a vertex of one of the polygons lies on a ring of the other. -/
def Touches (a b : Polygon ℚ) : Prop :=
  (∃ r ∈ a.rings, ∃ v ∈ r, ∃ s ∈ b.rings, onRing v s = true) ∨
    ∃ s ∈ b.rings, ∃ v ∈ s, ∃ r ∈ a.rings, onRing v r = true

/-- Whether a position is on the border of a polygon: on a ring, with positions inside in every box round it. -/
def Borders (a : Polygon ℚ) (z : Position ℚ) : Prop :=
  (∃ r ∈ a.rings, onRing z r = true) ∧ ∀ reach > 0, ∃ p, Near reach z p ∧ a.hasInside p = true

/-- Whether the border of a polygon runs through the inside of another. -/
def Enters (a b : Polygon ℚ) : Prop := ∃ z, a.Borders z ∧ b.hasInside z = true

theorem touches_comm (a b : Polygon ℚ) : Touches a b ↔ Touches b a := or_comm

theorem overlap_of_enters (hb : ∀ ring ∈ b.rings, IsClosed ring) (h : Enters a b) :
    ∃ p, a.hasInside p = true ∧ b.hasInside p = true := by
  obtain ⟨z, ⟨-, hborder⟩, hz⟩ := h
  obtain ⟨reach, hpos, hnear⟩ := exists_near_hasInside hb hz
  obtain ⟨p, hp, hin⟩ := hborder reach hpos
  exact ⟨p, hin, hnear p hp⟩

theorem areDisjoint_of_not_touches (hcross : ∀ r ∈ a.rings, ∀ s ∈ b.rings, ringsCross r s = false)
    (htouch : ¬ Touches a b) : ∀ r ∈ a.rings, ∀ s ∈ b.rings, AreDisjoint r s := by
  intro r hr s hs
  refine areDisjoint_of_vertices (hcross r hr s hs) (fun v hv => ?_) fun v hv => ?_
  · exact Bool.eq_false_iff.2 fun hon => htouch (.inl ⟨r, hr, v, hv, s, hs, hon⟩)
  · exact Bool.eq_false_iff.2 fun hon => htouch (.inr ⟨s, hs, v, hv, r, hr, hon⟩)

/-! ## Overlap without touching -/

/-- The heights of the ends of some segments. -/
def endHeights (edges : List (Segment ℚ)) : Set ℚ := {y | ∃ s ∈ edges, s.start.y = y ∨ s.stop.y = y}

theorem endHeights_finite (edges : List (Segment ℚ)) : (endHeights edges).Finite := by
  have hstart : ((fun s : Segment ℚ => s.start.y) '' {s | s ∈ edges}).Finite := (List.finite_toSet edges).image _
  have hstop : ((fun s : Segment ℚ => s.stop.y) '' {s | s ∈ edges}).Finite := (List.finite_toSet edges).image _
  refine (hstart.union hstop).subset ?_
  rintro y ⟨s, hs, h | h⟩
  · exact .inl ⟨s, hs, h⟩
  · exact .inr ⟨s, hs, h⟩

/-- Two polygons that overlap do so at a height that is not among finitely many, and that no end of the edges
of their rings has. -/
theorem exists_overlap_height (ha : ∀ ring ∈ a.rings, IsClosed ring) (hb : ∀ ring ∈ b.rings, IsClosed ring)
    {heights : Set ℚ} (hfinite : heights.Finite) (hpa : a.hasInside p = true) (hpb : b.hasInside p = true) :
    ∃ q, a.hasInside q = true ∧ b.hasInside q = true ∧ q.y ∉ heights ∧
      ∀ s ∈ edges (a.rings ++ b.rings), s.start.y ≠ q.y ∧ s.stop.y ≠ q.y := by
  obtain ⟨reach, hpos, hnear⟩ := exists_near_hasInside ha hpa
  obtain ⟨reach', hpos', hnear'⟩ := exists_near_hasInside hb hpb
  obtain ⟨q, hq, hy⟩ := exists_near_height (lt_min hpos hpos') p
    (hfinite.union (endHeights_finite (edges (a.rings ++ b.rings))))
  refine ⟨q, hnear q (hq.mono (min_le_left _ _)), hnear' q (hq.mono (min_le_right _ _)),
    fun h => hy (.inl h), fun s hs => ⟨fun h => hy (.inr ⟨s, hs, .inl h⟩), fun h => hy (.inr ⟨s, hs, .inr h⟩)⟩⟩

/-- From a position inside two polygons that share no position of their rings, no way reaches the shell of
the first before that of the second, unless the first has a vertex of its shell inside the second. -/
theorem not_avoids_of_overlap (ha : ∀ ring ∈ a.rings, IsClosed ring) (hb : ∀ ring ∈ b.rings, IsClosed ring)
    (hdisjoint : ∀ r ∈ a.rings, ∀ s ∈ b.rings, AreDisjoint r s) (hprobe : ∀ v ∈ a.shell, b.hasInside v = false)
    (hheight : ∀ s ∈ edges (a.rings ++ b.rings), s.start.y ≠ p.y ∧ s.stop.y ≠ p.y)
    (hpa : a.hasInside p = true) (hpb : b.hasInside p = true) (hz : onRing z a.shell = true) :
    ¬ Avoids ⟨p, z⟩ b.shell := by
  intro havoid
  have hashell : a.shell ∈ a.rings := List.mem_cons_self
  have hbshell : b.shell ∈ b.rings := List.mem_cons_self
  obtain ⟨hpshell, hpholes⟩ := (hasInside_iff b p).1 hpb
  have hzin : insideRing z b.shell = true := by
    rw [← insideRing_eq_of_avoids (hb _ hbshell) havoid, hpshell]
  obtain ⟨v, hv, hvon⟩ := exists_vertex_of_onRing hz
  have hvin : insideRing v b.shell = true := by
    rw [insideRing_eq_of_disjoint (hb _ hbshell) (hdisjoint _ hashell _ hbshell) hvon hz, hzin]
  -- the vertex is not inside the second polygon, so it lies inside one of its holes
  obtain ⟨hole, hhole, hvhole⟩ : ∃ hole ∈ b.holes, insideRing v hole = true := by
    by_contra hnone
    have hinside : b.hasInside v = true := by
      refine (hasInside_iff b v).2 ⟨hvin, fun hole hhole => ⟨?_, ?_⟩⟩
      · exact Bool.eq_false_iff.2 fun h => hnone ⟨hole, hhole, h⟩
      · exact hdisjoint _ hashell _ (List.mem_cons_of_mem _ hhole) v hvon
    rw [hprobe v hv] at hinside
    cases hinside
  have hholes : hole ∈ b.rings := List.mem_cons_of_mem _ hhole
  have hdis := hdisjoint _ hashell _ hholes
  obtain ⟨hpout, hpoff⟩ := hpholes hole hhole
  have hpin : insideRing p hole = true := by
    refine insideRing_trans (ha _ hashell) (hb _ hholes) hdis (fun s hs => hheight s ?_) hpoff
      ((hasInside_iff a p).1 hpa).1 fun u hu => ?_
    · rcases List.mem_append.1 hs with hs | hs
      · exact mem_edges.2 ⟨_, List.mem_append_left _ hashell, hs⟩
      · exact mem_edges.2 ⟨_, List.mem_append_right _ hholes, hs⟩
    · rw [insideRing_eq_of_disjoint (hb _ hholes) hdis hu hvon, hvhole]
  rw [hpout] at hpin
  cases hpin

/-- Polygons whose boundaries do not cross, and whose shells have no vertices inside each other, touch when
they overlap. -/
theorem touches_of_overlap (ha : ∀ ring ∈ a.rings, IsClosed ring) (hb : ∀ ring ∈ b.rings, IsClosed ring)
    (hcross : ∀ r ∈ a.rings, ∀ s ∈ b.rings, ringsCross r s = false)
    (hab : ∀ v ∈ a.shell, b.hasInside v = false) (hba : ∀ v ∈ b.shell, a.hasInside v = false)
    (h : ∃ p, a.hasInside p = true ∧ b.hasInside p = true) : Touches a b := by
  by_contra htouch
  have hdisjoint := areDisjoint_of_not_touches hcross htouch
  obtain ⟨p₀, hpa, hpb⟩ := h
  obtain ⟨p, hpa, hpb, -, hheight⟩ := exists_overlap_height ha hb Set.finite_empty hpa hpb
  have hashell : a.shell ∈ a.rings := List.mem_cons_self
  have hbshell : b.shell ∈ b.rings := List.mem_cons_self
  -- the first hit among both shells is on one of them, and then off the other
  obtain ⟨s, hs, hray⟩ := exists_stopsRay_of_insideRing ((hasInside_iff a p).1 hpa).1
  have hends : ∀ s ∈ segments a.shell ++ segments b.shell, s.start.y ≠ p.y ∧ s.stop.y ≠ p.y := by
    intro s hs
    refine hheight s ?_
    rcases List.mem_append.1 hs with hs | hs
    · exact mem_edges.2 ⟨_, List.mem_append_left _ hashell, hs⟩
    · exact mem_edges.2 ⟨_, List.mem_append_right _ hbshell, hs⟩
  obtain ⟨z, hfirst⟩ := exists_firstHit hends ⟨s, List.mem_append_left _ hs, hray⟩
  obtain ⟨t, ht, hcovers⟩ := hfirst.hit
  rcases List.mem_append.1 ht with ht | ht
  · have hz := (onRing_iff z a.shell).2 ⟨t, ht, hcovers⟩
    refine not_avoids_of_overlap ha hb hdisjoint hab hheight hpa hpb hz ?_
    exact hfirst.avoids (fun s hs => List.mem_append_right _ hs) (onRing_of_hasInside hpb _ hbshell) hfirst.level
      hfirst.ahead.le (.inr ⟨rfl, hdisjoint _ hashell _ hbshell z hz⟩)
  · have hz := (onRing_iff z b.shell).2 ⟨t, ht, hcovers⟩
    refine not_avoids_of_overlap hb ha (fun s hs r hr => (hdisjoint r hr s hs).symm) hba (fun s hs => ?_) hpb hpa hz ?_
    · obtain ⟨ring, hring, hs⟩ := mem_edges.1 hs
      refine hheight s (mem_edges.2 ⟨ring, ?_, hs⟩)
      exact List.mem_append.2 (List.mem_append.1 hring).symm
    · exact hfirst.avoids (fun s hs => List.mem_append_left _ hs) (onRing_of_hasInside hpa _ hashell) hfirst.level
        hfirst.ahead.le (.inr ⟨rfl, (hdisjoint _ hashell _ hbshell).symm z hz⟩)

/-! ## Overlap enters -/

/-- Edges that do not overlap have positions in common at finitely many heights only. -/
theorem commonHeights_finite (es fs : List (Segment ℚ)) :
    {y | ∃ e ∈ es, ∃ f ∈ fs, ¬ e.overlaps f = true ∧
      ∃ w, e.covers w = true ∧ f.covers w = true ∧ w.y = y}.Finite := by
  have hpair : ∀ e f : Segment ℚ, ({y | ¬ e.overlaps f = true ∧
      ∃ w, e.covers w = true ∧ f.covers w = true ∧ w.y = y} : Set ℚ).Subsingleton := by
    rintro e f _ ⟨h, u, heu, hfu, rfl⟩ _ ⟨-, w, hew, hfw, rfl⟩
    by_contra hne
    exact h (Segment.overlaps_of_common (fun huw => hne (by rw [huw])) heu hew hfu hfw)
  refine ((List.finite_toSet es).biUnion fun e _ =>
    (List.finite_toSet fs).biUnion fun f _ => (hpair e f).finite).subset ?_
  rintro y ⟨e, he, f, hf, hw⟩
  exact Set.mem_biUnion he (Set.mem_biUnion hf hw)

/-- The first hit of a ray from inside two polygons is where the border of the one that is hit runs through
the inside of the other. -/
theorem enters_of_firstHit (ha : ∀ ring ∈ a.rings, IsClosed ring) (hb : ∀ ring ∈ b.rings, IsClosed ring)
    {edges : List (Segment ℚ)} (hfirst : FirstHit edges p z) (hea : ∀ r ∈ a.rings, ∀ s ∈ segments r, s ∈ edges)
    (heb : ∀ r ∈ b.rings, ∀ s ∈ segments r, s ∈ edges) (hpa : a.hasInside p = true) (hpb : b.hasInside p = true)
    (hz : ∃ r ∈ a.rings, onRing z r = true) (hoff : ∀ s ∈ b.rings, onRing z s = false) : Enters a b := by
  refine ⟨z, ⟨hz, fun reach hpos => ?_⟩, ?_⟩
  · -- just before the hit the ray is still inside the first
    obtain ⟨w, hnear, hlevel, hahead, hbefore⟩ := hfirst.exists_before hpos
    exact ⟨w, hnear, hasInside_of_avoids ha (fun ring hring => hfirst.avoids (hea ring hring)
      (onRing_of_hasInside hpa ring hring) hlevel hahead (.inl hbefore)) hpa⟩
  · exact hasInside_of_avoids hb (fun ring hring => hfirst.avoids (heb ring hring)
      (onRing_of_hasInside hpb ring hring) hfirst.level hfirst.ahead.le (.inr ⟨rfl, hoff ring hring⟩)) hpb

theorem enters_of_overlap (ha : ∀ ring ∈ a.rings, IsClosed ring) (hb : ∀ ring ∈ b.rings, IsClosed ring)
    (hshare : ∀ r ∈ a.rings, ∀ s ∈ b.rings, ringsShareEdge r s = false)
    (h : ∃ p, a.hasInside p = true ∧ b.hasInside p = true) : Enters a b ∨ Enters b a := by
  have hoverlaps : ∀ e ∈ edges a.rings, ∀ f ∈ edges b.rings, ¬ e.overlaps f = true := by
    intro e he f hf hover
    obtain ⟨r, hr, he⟩ := mem_edges.1 he
    obtain ⟨s, hs, hf⟩ := mem_edges.1 hf
    have hrings : ringsShareEdge r s = true := List.any_eq_true.2 ⟨e, he, List.any_eq_true.2 ⟨f, hf, hover⟩⟩
    rw [hshare r hr s hs] at hrings
    cases hrings
  obtain ⟨p₀, hpa, hpb⟩ := h
  obtain ⟨p, hpa, hpb, hheight, hends⟩ :=
    exists_overlap_height ha hb (commonHeights_finite (edges a.rings) (edges b.rings)) hpa hpb
  have hea : ∀ r ∈ a.rings, ∀ s ∈ segments r, s ∈ edges (a.rings ++ b.rings) := fun r hr s hs =>
    mem_edges.2 ⟨r, List.mem_append_left _ hr, hs⟩
  have heb : ∀ r ∈ b.rings, ∀ s ∈ segments r, s ∈ edges (a.rings ++ b.rings) := fun r hr s hs =>
    mem_edges.2 ⟨r, List.mem_append_right _ hr, hs⟩
  obtain ⟨s, hs, hray⟩ := exists_stopsRay_of_insideRing ((hasInside_iff a p).1 hpa).1
  obtain ⟨z, hfirst⟩ := exists_firstHit hends ⟨s, hea _ List.mem_cons_self s hs, hray⟩
  -- no position at this height is on rings of both
  have honce : ∀ r ∈ a.rings, ∀ s ∈ b.rings, ¬ (onRing z r = true ∧ onRing z s = true) := by
    rintro r hr s hs ⟨hzr, hzs⟩
    obtain ⟨e, he, hez⟩ := (onRing_iff z r).1 hzr
    obtain ⟨f, hf, hfz⟩ := (onRing_iff z s).1 hzs
    have hea := mem_edges.2 ⟨r, hr, he⟩
    have hfb := mem_edges.2 ⟨s, hs, hf⟩
    exact hheight ⟨e, hea, f, hfb, hoverlaps e hea f hfb, z, hez, hfz, hfirst.level⟩
  obtain ⟨t, ht, hcovers⟩ := hfirst.hit
  obtain ⟨ring, hring, ht⟩ := mem_edges.1 ht
  have hz : onRing z ring = true := (onRing_iff z ring).2 ⟨t, ht, hcovers⟩
  rcases List.mem_append.1 hring with hring | hring
  · refine .inl (enters_of_firstHit ha hb hfirst hea heb hpa hpb ⟨ring, hring, hz⟩ fun s hs => ?_)
    exact Bool.eq_false_iff.2 fun hzs => honce ring hring s hs ⟨hz, hzs⟩
  · refine .inr (enters_of_firstHit hb ha hfirst heb hea hpb hpa ⟨ring, hring, hz⟩ fun r hr => ?_)
    exact Bool.eq_false_iff.2 fun hzr => honce r hr ring hring ⟨hzr, hz⟩

/-! ## Accepted polygons -/

theorem overlap_iff_of_overlaps_eq_false (ha : a.problem? = none) (hb : b.problem? = none)
    (h : a.overlaps b = false) : (∃ p, a.hasInside p = true ∧ b.hasInside p = true) ↔
      Touches a b ∧ (Enters a b ∨ Enters b a) := by
  obtain ⟨hmeet, hba, hab⟩ := (overlaps_eq_false_iff a b).1 h
  have hca := isClosed_of_problem?_eq_none ha
  have hcb := isClosed_of_problem?_eq_none hb
  have hvertex : ∀ ring : Ring ℚ, ∀ v ∈ ring, v ∈ probes ring := fun ring v hv => List.mem_append_left _ hv
  constructor
  · intro hover
    exact ⟨touches_of_overlap hca hcb (fun r hr s hs => (hmeet r hr s hs).1)
      (fun v hv => hab v (hvertex _ v hv)) (fun v hv => hba v (hvertex _ v hv)) hover,
      enters_of_overlap hca hcb (fun r hr s hs => (hmeet r hr s hs).2) hover⟩
  · rintro ⟨-, henters | henters⟩
    · exact overlap_of_enters hcb henters
    · obtain ⟨p, hpb, hpa⟩ := overlap_of_enters hca henters
      exact ⟨p, hpa, hpb⟩

/-- Two members of an accepted list of polygons have a position strictly inside both exactly when their
boundaries touch and the border of one of them runs through the inside of the other. -/
theorem accepted_overlap_iff {polygons : List (Polygon ℚ)} (h : problemOfAll? polygons = none) {i j : ℕ}
    (hij : i ≠ j) {a b : Polygon ℚ} (ha : polygons[i]? = some a) (hb : polygons[j]? = some b) :
    (∃ p, a.hasInside p = true ∧ b.hasInside p = true) ↔ Touches a b ∧ (Enters a b ∨ Enters b a) := by
  obtain ⟨hvalid, hpairs⟩ := (problemOfAll?_eq_none_iff polygons).1 h
  have hva := hvalid a (List.mem_of_getElem? ha)
  have hvb := hvalid b (List.mem_of_getElem? hb)
  rcases Nat.lt_or_gt_of_ne hij with hlt | hgt
  · exact overlap_iff_of_overlaps_eq_false hva hvb (hpairs i j a b hlt ha hb)
  · have hswap := overlap_iff_of_overlaps_eq_false hvb hva (hpairs j i b a hgt hb ha)
    rw [touches_comm, or_comm (a := Enters b a)] at hswap
    rw [← hswap]
    exact exists_congr fun p => and_comm

/-- Two strips that cross each other like the sails of a windmill. Each turns at a vertex on an edge of the
other, so no two edges cross, and no vertex lies inside. -/
def windmill : List (Polygon ℚ) :=
  [⟨[⟨0, 0⟩, ⟨3, 0⟩, ⟨1, 1⟩, ⟨-2, 1⟩, ⟨0, 0⟩], []⟩, ⟨[⟨1, 0⟩, ⟨1, 3⟩, ⟨0, 1⟩, ⟨0, -2⟩, ⟨1, 0⟩], []⟩]

/-- The strips are accepted and the middle of the windmill lies inside both. -/
theorem windmill_overlaps : problemOfAll? windmill = none ∧
    ∃ a b, windmill[0]? = some a ∧ windmill[1]? = some b ∧
      a.hasInside ⟨1 / 2, 1 / 2⟩ = true ∧ b.hasInside ⟨1 / 2, 1 / 2⟩ = true :=
  ⟨by decide +kernel, _, _, rfl, rfl, by decide +kernel, by decide +kernel⟩

/-- One strip of the windmill enters the other. -/
theorem windmill_enters : ∃ a b, windmill[0]? = some a ∧ windmill[1]? = some b ∧
    Touches a b ∧ (Enters a b ∨ Enters b a) := by
  have haccepted : problemOfAll? windmill = none := by decide +kernel
  refine ⟨_, _, rfl, rfl, (accepted_overlap_iff haccepted Nat.zero_ne_one rfl rfl).1 ⟨⟨1 / 2, 1 / 2⟩, ?_⟩⟩
  exact ⟨by decide +kernel, by decide +kernel⟩

end Polygon

end OccurrenceQuery.Geometry
