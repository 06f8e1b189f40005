/-
Repeated positions. A ring in which positions are repeated in place has, besides its segments, segments of length zero.
Dropping the repeats takes away just these, and every test of the rules takes the ring without them for the ring: they
cross and overlap nothing, stop no ray and add no area, and what they cover is a vertex anyway. So rings that agree
without repeats are interchangeable, also where the repeats are at the seam.
-/
import Mathlib.Tactic
import OccurrenceQuery.Proofs.Geometry.Change
import OccurrenceQuery.Proofs.Geometry.Reversal

namespace OccurrenceQuery.Geometry

/-! ## Segments of length zero -/

namespace Segment

variable {s t : Segment ℚ} {p z : Position ℚ}

theorem eq_start_of_covers (hsame : s.start = s.stop) (h : s.covers z = true) : z = s.start := by
  obtain ⟨part, -, -, rfl⟩ := (covers_iff s z).1 h
  refine Position.eq_of_xy ?_ ?_ <;> simp only [along, hsame] <;> ring

theorem start_ne_stop_of_crosses (h : s.crosses t = true) : s.start ≠ s.stop := by
  intro hsame
  obtain ⟨hneg, -⟩ := (crosses_iff s t).1 h
  simp only [turn_eq, hsame, sub_self, zero_mul, mul_zero, lt_irrefl] at hneg

theorem crosses_comm (s t : Segment ℚ) : s.crosses t = t.crosses s := Bool.and_comm _ _

theorem start_ne_stop_of_stopsRay (h : s.stopsRay p = true) : s.start ≠ s.stop := fun hsame =>
  ((stopsRay_iff s p).1 h).1.not_level (by rw [hsame])

theorem wedge_eq_zero (h : s.start = s.stop) : s.wedge = 0 := by
  rw [wedge, h]
  exact sub_self _

theorem start_bne_stop_iff (s : Segment ℚ) : (s.start != s.stop) = true ↔ s.start ≠ s.stop := by
  rw [bne, Bool.not_eq_true', Bool.eq_false_iff, Ne, Position.beq_iff]

end Segment

/-! ## The ring without repeats -/

variable {ring : Ring ℚ} {z : Position ℚ}

theorem dropRepeats_dropRepeats (ring : Ring ℚ) : dropRepeats (dropRepeats ring) = dropRepeats ring := by
  rw [dropRepeats_eq_destutter, dropRepeats_eq_destutter, List.destutter_idem]

theorem mem_dropRepeatsAfter (p : Position ℚ) (ps : List (Position ℚ)) :
    z ∈ p :: dropRepeatsAfter p ps ↔ z ∈ p :: ps := by
  induction ps generalizing p with
  | nil => rfl
  | cons q ps ih =>
    rw [dropRepeatsAfter]
    split
    · rename_i hpq
      obtain rfl := (Position.beq_iff p q).1 hpq
      rw [ih]
      simp
    · rw [List.mem_cons, ih, ← List.mem_cons]

theorem mem_dropRepeats : z ∈ dropRepeats ring ↔ z ∈ ring := by
  cases ring with
  | nil => rfl
  | cons p ps => exact mem_dropRepeatsAfter p ps

theorem find?_dropRepeatsAfter (f : Position ℚ → Bool) (p : Position ℚ) (ps : List (Position ℚ)) :
    (p :: dropRepeatsAfter p ps).find? f = (p :: ps).find? f := by
  induction ps generalizing p with
  | nil => rfl
  | cons q ps ih =>
    rw [dropRepeatsAfter]
    split
    · rename_i hpq
      obtain rfl := (Position.beq_iff p q).1 hpq
      rw [ih]
      -- a repeat is not found where the position before it was not
      cases hp : f p <;> simp [hp]
    · rw [List.find?_cons, ih]
      rfl

theorem find?_dropRepeats (f : Position ℚ → Bool) (ring : Ring ℚ) : (dropRepeats ring).find? f = ring.find? f := by
  cases ring with
  | nil => rfl
  | cons p ps => exact find?_dropRepeatsAfter f p ps

/-- A test that no segment of length zero passes finds as much without repeats. -/
theorem any_segments_dropRepeats {f : Segment ℚ → Bool} (h : ∀ s, f s = true → s.start ≠ s.stop) (ring : Ring ℚ) :
    (segments (dropRepeats ring)).any f = (segments ring).any f := by
  rw [segments_dropRepeats, List.any_filter]
  congr 1
  funext s
  rw [Bool.eq_iff_iff, Bool.and_eq_true, Segment.start_bne_stop_iff, and_iff_right_iff_imp]
  exact h s

theorem countP_segments_dropRepeats {f : Segment ℚ → Bool} (h : ∀ s, f s = true → s.start ≠ s.stop)
    (ring : Ring ℚ) : (segments (dropRepeats ring)).countP f = (segments ring).countP f := by
  rw [segments_dropRepeats, List.countP_filter]
  refine List.countP_congr fun s _ => ?_
  rw [Bool.and_eq_true, Segment.start_bne_stop_iff, and_iff_left_iff_imp]
  exact h s

theorem any_any_segments_dropRepeats {f : Segment ℚ → Segment ℚ → Bool}
    (h : ∀ a b, f a b = true → a.start ≠ a.stop ∧ b.start ≠ b.stop) (r s : Ring ℚ) :
    ((segments (dropRepeats r)).any fun a => (segments (dropRepeats s)).any (f a)) =
      (segments r).any fun a => (segments s).any (f a) := by
  have hinner : ∀ a, (segments (dropRepeats s)).any (f a) = (segments s).any (f a) := fun a =>
    any_segments_dropRepeats (fun b hab => (h a b hab).2) s
  simp only [hinner]
  refine any_segments_dropRepeats (fun a ha => ?_) r
  obtain ⟨b, -, hab⟩ := List.any_eq_true.1 ha
  exact (h a b hab).1

/-! ## Positions and rings -/

/-- In a list of two or more positions each is an end of a segment. -/
theorem exists_segment_of_mem : ∀ {ps : List (Position ℚ)}, 2 ≤ ps.length → z ∈ ps →
    ∃ s ∈ segments ps, z = s.start ∨ z = s.stop
  | [_], hlength, _ => absurd hlength (by simp)
  | [p, q], _, hz => by
    refine ⟨⟨p, q⟩, List.mem_cons_self, ?_⟩
    simpa using hz
  | p :: q :: r :: ps, _, hz => by
    rcases List.mem_cons.1 hz with rfl | hz
    · exact ⟨⟨z, q⟩, List.mem_cons_self, .inl rfl⟩
    · have hlength : 2 ≤ (q :: r :: ps).length := by simp
      obtain ⟨s, hs, hend⟩ := exists_segment_of_mem hlength hz
      exact ⟨s, List.mem_cons_of_mem _ hs, hend⟩

/-- What repeats add to the positions on a ring is nothing, once it has two positions that differ. -/
theorem onRing_dropRepeats (hlength : 2 ≤ (dropRepeats ring).length) (z : Position ℚ) :
    onRing z (dropRepeats ring) = onRing z ring := by
  rw [Bool.eq_iff_iff, onRing_iff, onRing_iff]
  constructor
  · rintro ⟨s, hs, hcovers⟩
    rw [segments_dropRepeats] at hs
    exact ⟨s, List.mem_of_mem_filter hs, hcovers⟩
  · rintro ⟨s, hs, hcovers⟩
    by_cases hsame : s.start = s.stop
    · obtain rfl := Segment.eq_start_of_covers hsame hcovers
      have hmem : s.start ∈ dropRepeats ring := mem_dropRepeats.2 (mem_of_mem_segments hs).1
      obtain ⟨t, ht, hend | hend⟩ := exists_segment_of_mem hlength hmem
      · exact ⟨t, ht, hend ▸ Segment.covers_start t⟩
      · exact ⟨t, ht, hend ▸ Segment.covers_stop t⟩
    · refine ⟨s, ?_, hcovers⟩
      rw [segments_dropRepeats]
      exact List.mem_filter.2 ⟨hs, (Segment.start_bne_stop_iff s).2 hsame⟩

theorem insideRing_dropRepeats (hlength : 2 ≤ (dropRepeats ring).length) (z : Position ℚ) :
    insideRing z (dropRepeats ring) = insideRing z ring := by
  rw [insideRing, insideRing, onRing_dropRepeats hlength,
    countP_segments_dropRepeats fun s => Segment.start_ne_stop_of_stopsRay]

theorem length_dropRepeats (h : ringFault? ring = none) : 2 ≤ (dropRepeats ring).length := by
  obtain ⟨-, -, hlength, -⟩ := (ringFault?_eq_none_iff ring).1 h
  rw [dropRepeats_eq_destutter]
  omega

/-! ## Area, pairs of rings and probes -/

theorem sum_wedge_dropRepeatsAfter (p q : Position ℚ) (ps : List (Position ℚ)) :
    ((segments (p :: dropRepeatsAfter p ps ++ [q])).map Segment.wedge).sum =
      ((segments (p :: ps ++ [q])).map Segment.wedge).sum := by
  induction ps generalizing p with
  | nil => rfl
  | cons r ps ih =>
    rw [dropRepeatsAfter]
    split
    · rename_i hpr
      obtain rfl := (Position.beq_iff p r).1 hpr
      rw [ih]
      simp only [List.cons_append, segments, List.map_cons, List.sum_cons]
      rw [Segment.wedge_eq_zero rfl, zero_add]
    · have ih := ih r
      simp only [List.cons_append, segments, List.map_cons, List.sum_cons] at ih ⊢
      rw [ih]

theorem signedArea_dropRepeats (ring : Ring ℚ) : signedArea (dropRepeats ring) = signedArea ring := by
  rw [signedArea_eq_sum, signedArea_eq_sum]
  cases ring with
  | nil => rfl
  | cons p ps => rw [dropRepeats, sides, sides, sum_wedge_dropRepeatsAfter]

theorem ringsCross_dropRepeats (r s : Ring ℚ) : ringsCross (dropRepeats r) (dropRepeats s) = ringsCross r s :=
  any_any_segments_dropRepeats (fun a b h => ⟨Segment.start_ne_stop_of_crosses h,
    Segment.start_ne_stop_of_crosses (Segment.crosses_comm a b ▸ h)⟩) r s

theorem ringsShareEdge_dropRepeats (r s : Ring ℚ) :
    ringsShareEdge (dropRepeats r) (dropRepeats s) = ringsShareEdge r s :=
  any_any_segments_dropRepeats (fun a b h => ⟨Segment.start_ne_stop_of_overlaps h,
    Segment.start_ne_stop_of_overlaps (Segment.overlaps_comm a b ▸ h)⟩) r s

theorem any_probes_dropRepeats (f : Position ℚ → Bool) (ring : Ring ℚ) :
    (probes (dropRepeats ring)).any f = (probes ring).any f := by
  have hvertices : (dropRepeats ring).any f = ring.any f := by
    rw [Bool.eq_iff_iff, List.any_eq_true, List.any_eq_true]
    simp only [mem_dropRepeats]
  simp only [probes, signedArea_dropRepeats, segments_dropRepeats, List.filter_filter, Bool.and_self, List.any_append,
    hvertices]

theorem ringFault?_dropRepeats (ring : Ring ℚ) : ringFault? (dropRepeats ring) = ringFault? ring := by
  rw [ringFault?, ringFault?, head?_dropRepeats, getLast?_dropRepeats, dropRepeats_dropRepeats]

/-- Dropping the repeats of a ring is noticed by no test. -/
theorem isFaithful_dropRepeats : IsFaithful (dropRepeats (α := ℚ)) id where
  fault r := by
    rw [ringFault?_dropRepeats]
    cases ringFault? r with
    | none => rfl
    | some fault => cases fault <;> rfl
  area := signedArea_dropRepeats
  crossing := ringsCross_dropRepeats
  sharing := ringsShareEdge_dropRepeats
  vertex r f := by rw [find?_dropRepeats, Function.comp_id, Option.map_id, id]
  probe r f := by rw [any_probes_dropRepeats, Function.comp_id]
  border r p h := onRing_dropRepeats (length_dropRepeats h) p
  inside r p h := insideRing_dropRepeats (length_dropRepeats h) p

/-! ## Repeats in place -/

/-- Whether the second list is the first one with each entry repeated in place any number of times, at least once. -/
inductive Stutters {β : Type} : List β → List β → Prop where
  | nil : Stutters [] []
  | cons (b : β) (n : ℕ) {bs cs : List β} (h : Stutters bs cs) : Stutters (b :: bs) (List.replicate (n + 1) b ++ cs)

theorem Stutters.refl {β : Type} : ∀ bs : List β, Stutters bs bs
  | [] => .nil
  | b :: bs => .cons b 0 (Stutters.refl bs)

/-- One occurrence of an entry can be replaced by several copies of it. -/
theorem stutters_replace {β : Type} (b : β) (n : ℕ) (after : List β) : ∀ before : List β,
    Stutters (before ++ b :: after) (before ++ (List.replicate (n + 1) b ++ after))
  | [] => .cons b n (Stutters.refl after)
  | c :: before => .cons c 0 (stutters_replace b n after before)

theorem dropRepeatsAfter_replicate (p : Position ℚ) (n : ℕ) (ps : List (Position ℚ)) :
    dropRepeatsAfter p (List.replicate n p ++ ps) = dropRepeatsAfter p ps := by
  induction n with
  | zero => rfl
  | succ n ih => rw [List.replicate_succ, List.cons_append, dropRepeatsAfter, if_pos ((Position.beq_iff p p).2 rfl), ih]

theorem dropRepeatsAfter_of_stutters {ps qs : List (Position ℚ)} (h : Stutters ps qs) (last : Position ℚ) :
    dropRepeatsAfter last qs = dropRepeatsAfter last ps := by
  induction h generalizing last with
  | nil => rfl
  | cons p n h ih =>
    rw [List.replicate_succ, List.cons_append, dropRepeatsAfter, dropRepeatsAfter]
    split
    · rename_i hlast
      obtain rfl := (Position.beq_iff last p).1 hlast
      rw [dropRepeatsAfter_replicate, ih]
    · rw [dropRepeatsAfter_replicate, ih]

theorem dropRepeats_of_stutters {r s : Ring ℚ} (h : Stutters r s) : dropRepeats s = dropRepeats r := by
  cases h with
  | nil => rfl
  | cons p n h =>
    rw [List.replicate_succ, List.cons_append, dropRepeats, dropRepeats, dropRepeatsAfter_replicate,
      dropRepeatsAfter_of_stutters h]

theorem map_eq_of_forall₂ {β γ : Type} {R : β → β → Prop} (f : β → γ) (hf : ∀ {b c}, R b c → f c = f b)
    {bs cs : List β} (h : List.Forall₂ R bs cs) : cs.map f = bs.map f := by
  induction h with
  | nil => rfl
  | cons hbc _ ih => rw [List.map_cons, List.map_cons, hf hbc, ih]

namespace Polygon

/-- Whether the second polygon is the first one with positions of its rings repeated in place. -/
structure Stutters (p q : Polygon ℚ) : Prop where
  shell : Geometry.Stutters p.shell q.shell
  holes : List.Forall₂ Geometry.Stutters p.holes q.holes

theorem changed_of_stutters {p q : Polygon ℚ} (h : p.Stutters q) : q.changed dropRepeats = p.changed dropRepeats := by
  rw [changed, changed, dropRepeats_of_stutters h.shell, map_eq_of_forall₂ dropRepeats dropRepeats_of_stutters h.holes]

/-- A polygon has the problem and the area that it has without repeats. -/
theorem problem?_dropRepeats (p : Polygon ℚ) :
    (p.changed dropRepeats).problem? = p.problem? ∧ (p.changed dropRepeats).area = p.area := by
  refine ⟨?_, isFaithful_dropRepeats.polygonArea p⟩
  rw [isFaithful_dropRepeats.problem?, Problem.moved_id, Option.map_id, id]

theorem problemOfAll?_dropRepeats (members : List (Polygon ℚ)) :
    problemOfAll? (members.map (changed dropRepeats)) = problemOfAll? members := by
  rw [isFaithful_dropRepeats.problemOfAll?, Problem.moved_id, Option.map_id, id]

end Polygon

/-- Whether the second geometry is the first one, a polygon or multipolygon, with positions of its rings repeated in
place. -/
inductive IsRepeated : Geometry ℚ → Geometry ℚ → Prop where
  | polygon {p q : Polygon ℚ} (h : p.Stutters q) : IsRepeated (.polygon p) (.polygon q)
  | multiPolygon {ps qs : List (Polygon ℚ)} (h : List.Forall₂ Polygon.Stutters ps qs) :
    IsRepeated (.multiPolygon ps) (.multiPolygon qs)

/-- Repeated positions change neither the problem of a polygon or multipolygon, with its rings, members and position,
nor its area. -/
theorem problem?_of_isRepeated {g repeated : Geometry ℚ} (h : IsRepeated g repeated) :
    problem? repeated = problem? g ∧ area repeated = area g := by
  cases h with
  | @polygon p q h =>
    obtain ⟨hproblem, harea⟩ := Polygon.problem?_dropRepeats p
    obtain ⟨hproblem', harea'⟩ := Polygon.problem?_dropRepeats q
    rw [Polygon.changed_of_stutters h] at hproblem' harea'
    exact ⟨hproblem'.symm.trans hproblem, harea'.symm.trans harea⟩
  | @multiPolygon ps qs h =>
    have hsame := map_eq_of_forall₂ (Polygon.changed dropRepeats) Polygon.changed_of_stutters h
    have hproblem := Polygon.problemOfAll?_dropRepeats qs
    have hareas := isFaithful_dropRepeats.areas qs
    rw [hsame] at hproblem hareas
    rw [Polygon.problemOfAll?_dropRepeats] at hproblem
    rw [isFaithful_dropRepeats.areas] at hareas
    exact ⟨hproblem.symm, (congrArg total hareas).symm⟩

namespace Polygon

/-- A square with a bow tie cut out. -/
def tied : Polygon ℚ :=
  ⟨[⟨0, 0⟩, ⟨4, 0⟩, ⟨4, 4⟩, ⟨0, 4⟩, ⟨0, 0⟩], [[⟨1, 1⟩, ⟨3, 2⟩, ⟨3, 1⟩, ⟨1, 2⟩, ⟨1, 1⟩]]⟩

/-- The square with repeats at its seam, and the bow tie with one where it meets itself. -/
def tiedTwice : Polygon ℚ :=
  ⟨[⟨0, 0⟩, ⟨0, 0⟩, ⟨4, 0⟩, ⟨4, 4⟩, ⟨0, 4⟩, ⟨0, 0⟩, ⟨0, 0⟩],
    [[⟨1, 1⟩, ⟨3, 2⟩, ⟨3, 1⟩, ⟨3, 1⟩, ⟨3, 1⟩, ⟨1, 2⟩, ⟨1, 1⟩]]⟩

end Polygon

theorem problem?_of_isRepeated_tied : IsRepeated (.polygon .tied) (.polygon .tiedTwice) ∧
    problem? (.polygon .tiedTwice) = some (.selfIntersection 1 (⟨3, 1⟩ : Position ℚ)) ∧
    area (.polygon .tiedTwice) = area (.polygon .tied) := by
  have hshell : Stutters Polygon.tied.shell Polygon.tiedTwice.shell :=
    .cons _ 1 (.cons _ 0 (.cons _ 0 (.cons _ 0 (.cons _ 1 .nil))))
  have hhole := stutters_replace (⟨3, 1⟩ : Position ℚ) 2 [⟨1, 2⟩, ⟨1, 1⟩] [⟨1, 1⟩, ⟨3, 2⟩]
  have hrepeated : IsRepeated (.polygon .tied) (.polygon .tiedTwice) := .polygon ⟨hshell, .cons hhole .nil⟩
  obtain ⟨hproblem, harea⟩ := problem?_of_isRepeated hrepeated
  refine ⟨hrepeated, hproblem.trans ?_, harea⟩
  cbv

end OccurrenceQuery.Geometry
