/-
When polygons that are apart are reported to overlap. Members of a multipolygon are reported for edges of their
rings that meet, and for a probe of one shell that lies inside the other member. This goes wrong for a hole that
meets the other member outside its own shell, and for a probe that lies outside its own shell, as beside the long
edges of a sliver; otherwise members that are reported have a position in common.
-/
import OccurrenceQuery.Proofs.Geometry.Holes
import OccurrenceQuery.Proofs.Geometry.Overlap
import OccurrenceQuery.Proofs.Geometry.Parts

namespace OccurrenceQuery.Geometry

variable {r s ring : Ring ℚ} {z : Position ℚ}

instance (ring : Ring ℚ) (p : Position ℚ) : Decidable (LiesIn ring p) :=
  inferInstanceAs (Decidable (_ ∨ _))

/-! ## Rings apart -/

/-- Whether two rings are apart: no edges of them cross, and no vertex of the one lies in the other. -/
def AreApart (r s : Ring ℚ) : Prop :=
  ringsCross r s = false ∧ (∀ v ∈ r, ¬ LiesIn s v) ∧ ∀ v ∈ s, ¬ LiesIn r v

instance (r s : Ring ℚ) : Decidable (AreApart r s) :=
  inferInstanceAs (Decidable (_ ∧ _ ∧ _))

theorem segments_ne_nil_of_faultless (h : ringFault? ring = none) : segments ring ≠ [] := by
  obtain ⟨-, -, hfour, -⟩ := (ringFault?_eq_none_iff ring).1 h
  have hlength := (List.destutter_sublist (· ≠ ·) ring).length_le
  rw [← List.length_pos_iff, length_segments]
  omega

/-- What is on a ring lies in no ring that is disjoint from it and that no vertex of it lies in. -/
theorem not_liesIn_of_onRing (hdisjoint : AreDisjoint r s) (hs : IsClosed s) (hout : ∀ v ∈ r, ¬ LiesIn s v)
    (hz : onRing z r = true) : ¬ LiesIn s z := by
  rintro (hin | hon)
  · obtain ⟨v, hv, hvon⟩ := exists_vertex_of_onRing hz
    refine hout v hv (.inl ?_)
    rw [insideRing_eq_of_disjoint hs hdisjoint hvon hz, hin]
  · rw [hdisjoint z hz] at hon
    cases hon

/-- Closed rings that are apart have no position in common. -/
theorem AreApart.not_common (h : AreApart r s) (hr : IsClosed r) (hs : IsClosed s) : ¬ (LiesIn r z ∧ LiesIn s z) := by
  obtain ⟨hcross, hrs, hsr⟩ := h
  have hdisjoint : AreDisjoint r s := areDisjoint_of_vertices hcross
    (fun v hv => ((not_liesIn_iff s v).1 (hrs v hv)).2) fun v hv => ((not_liesIn_iff r v).1 (hsr v hv)).2
  rintro ⟨hzr | hzr, hzs | hzs⟩
  · -- rings that overlap touch; seen as polygons without holes, these would
    have hrings : ∀ {ring t : Ring ℚ}, t ∈ (⟨ring, []⟩ : Polygon ℚ).rings → t = ring := List.mem_singleton.1
    rw [← Polygon.hasInside_shell_iff] at hzr hzs
    have htouch := Polygon.touches_of_overlap (fun t ht => hrings ht ▸ hr) (fun t ht => hrings ht ▸ hs)
      (fun t ht t' ht' => by rw [hrings ht, hrings ht', hcross])
      (fun v hv => Bool.eq_false_iff.2 fun hin => hrs v hv (.inl ((Polygon.hasInside_shell_iff s v).1 hin)))
      (fun v hv => Bool.eq_false_iff.2 fun hin => hsr v hv (.inl ((Polygon.hasInside_shell_iff r v).1 hin)))
      ⟨z, hzr, hzs⟩
    rcases htouch with ⟨t, ht, v, hv, t', ht', hon⟩ | ⟨t, ht, v, hv, t', ht', hon⟩
    · exact hrs v (hrings ht ▸ hv) (.inr (hrings ht' ▸ hon))
    · exact hsr v (hrings ht ▸ hv) (.inr (hrings ht' ▸ hon))
  · exact not_liesIn_of_onRing hdisjoint.symm hr hsr hzs (.inl hzr)
  · exact not_liesIn_of_onRing hdisjoint hs hrs hzr (.inl hzs)
  · exact not_liesIn_of_onRing hdisjoint hs hrs hzr (.inr hzs)

/-! ## Reports -/

namespace Segment

variable {e f : Segment ℚ}

/-- Whether two segments meet in more than a touch: they cross, or share a stretch. -/
def Collides (e f : Segment ℚ) : Prop := e.crosses f = true ∨ e.overlaps f = true

theorem Collides.symm (h : Collides e f) : Collides f e := by
  rcases h with h | h
  · rw [crosses_iff, and_comm, ← crosses_iff] at h
    exact .inl h
  · rw [overlaps_comm] at h
    exact .inr h

theorem Collides.exists_common (h : Collides e f) : ∃ z, e.covers z = true ∧ f.covers z = true := by
  rcases h with h | h
  · exact exists_common_of_crosses h
  · obtain ⟨u, -, -, ⟨heu, -⟩, hfu, -⟩ := (overlaps_iff_common e f).1 h
    exact ⟨u, heu, hfu⟩

end Segment

namespace Polygon

variable {a b : Polygon ℚ}

/-- Whether an edge of a hole collides with an edge of another polygon at a position outside the shell of the hole. -/
def StrayHole (a b : Polygon ℚ) : Prop :=
  ∃ hole ∈ a.holes, ∃ ring ∈ b.rings, ∃ e ∈ segments hole, ∃ f ∈ segments ring, e.Collides f ∧
    ∃ z, e.covers z = true ∧ f.covers z = true ∧ ¬ LiesIn a.shell z

/-- Whether a probe of a shell lies outside that shell, and inside another polygon. -/
def StrayProbe (a b : Polygon ℚ) : Prop := ∃ z ∈ probes a.shell, ¬ LiesIn a.shell z ∧ b.hasInside z = true

theorem overlaps_eq_true_iff (a b : Polygon ℚ) : a.overlaps b = true ↔
    (∃ r ∈ a.rings, ∃ s ∈ b.rings, ∃ e ∈ segments r, ∃ f ∈ segments s, e.Collides f) ∨
      (∃ z ∈ probes b.shell, a.hasInside z = true) ∨ ∃ z ∈ probes a.shell, b.hasInside z = true := by
  simp only [overlaps, boundariesMeet, ringsCross, ringsShareEdge, Segment.Collides, Bool.or_eq_true,
    List.any_eq_true, or_assoc, ← exists_or, ← and_or_left]

/-- Edges that collide do so in both shells, or one of them is of a hole that is astray there. -/
theorem common_or_stray_of_collides {r s : Ring ℚ} {e f : Segment ℚ} (hr : r ∈ a.rings) (hs : s ∈ b.rings)
    (he : e ∈ segments r) (hf : f ∈ segments s) (h : e.Collides f) :
    (∃ z, LiesIn a.shell z ∧ LiesIn b.shell z) ∨ StrayHole a b ∨ StrayHole b a := by
  obtain ⟨z, hez, hfz⟩ := h.exists_common
  by_cases ha : LiesIn a.shell z
  · by_cases hb : LiesIn b.shell z
    · exact .inl ⟨z, ha, hb⟩
    · rcases List.mem_cons.1 hs with rfl | hhole
      · exact absurd (.inr ((onRing_iff z _).2 ⟨f, hf, hfz⟩)) hb
      · exact .inr (.inr ⟨s, hhole, r, hr, f, hf, e, he, h.symm, z, hfz, hez, hb⟩)
  · rcases List.mem_cons.1 hr with rfl | hhole
    · exact absurd (.inr ((onRing_iff z _).2 ⟨e, he, hez⟩)) ha
    · exact .inr (.inl ⟨r, hhole, s, hs, e, he, f, hf, h, z, hez, hfz, ha⟩)

theorem common_or_stray_of_probe (hz : z ∈ probes a.shell) (hin : b.hasInside z = true) :
    (∃ z, LiesIn a.shell z ∧ LiesIn b.shell z) ∨ StrayProbe a b := by
  by_cases ha : LiesIn a.shell z
  · exact .inl ⟨z, ha, .inl ((hasInside_iff b z).1 hin).1⟩
  · exact .inr ⟨z, hz, ha, hin⟩

/-- Polygons that overlap by the rules have a position in common, or one of them is astray. -/
theorem common_or_stray_of_overlaps (h : a.overlaps b = true) : (∃ z, LiesIn a.shell z ∧ LiesIn b.shell z) ∨
    StrayHole a b ∨ StrayHole b a ∨ StrayProbe a b ∨ StrayProbe b a := by
  rcases (overlaps_eq_true_iff a b).1 h with ⟨r, hr, s, hs, e, he, f, hf, hef⟩ | ⟨z, hz, hin⟩ | ⟨z, hz, hin⟩
  · rcases common_or_stray_of_collides hr hs he hf hef with h | h | h
    · exact .inl h
    · exact .inr (.inl h)
    · exact .inr (.inr (.inl h))
  · rcases common_or_stray_of_probe hz hin with ⟨z, hb, ha⟩ | h
    · exact .inl ⟨z, ha, hb⟩
    · exact .inr (.inr (.inr (.inr h)))
  · rcases common_or_stray_of_probe hz hin with h | h
    · exact .inl h
    · exact .inr (.inr (.inr (.inl h)))

theorem areApart_of_not_common (ha : ringFault? a.shell = none) (hb : ringFault? b.shell = none)
    (h : ¬ ∃ z, LiesIn a.shell z ∧ LiesIn b.shell z) : AreApart a.shell b.shell := by
  refine ⟨Bool.eq_false_iff.2 fun hcross => ?_, fun v hv hin => ?_, fun v hv hin => ?_⟩
  · obtain ⟨e, he, hany⟩ := List.any_eq_true.1 hcross
    obtain ⟨f, hf, hef⟩ := List.any_eq_true.1 hany
    obtain ⟨z, hez, hfz⟩ := Segment.exists_common_of_crosses hef
    exact h ⟨z, .inr ((onRing_iff z _).2 ⟨e, he, hez⟩), .inr ((onRing_iff z _).2 ⟨f, hf, hfz⟩)⟩
  · exact h ⟨v, .inr (onRing_of_mem (segments_ne_nil_of_faultless ha) v hv), hin⟩
  · exact h ⟨v, hin, .inr (onRing_of_mem (segments_ne_nil_of_faultless hb) v hv)⟩

/-- The members that are reported to overlap are two of the list, and do so by the rules. -/
theorem overlaps_of_reported {members : List (Polygon ℚ)} (hvalid : ∀ p ∈ members, p.problem? = none) {i j : ℕ}
    (h : problemOfAll? members = some (.overlappingPolygons i j)) :
    ∃ a b, i < j ∧ members[i]? = some a ∧ members[j]? = some b ∧ a.overlaps b = true := by
  rw [problemOfAll?, List.findSome?_eq_none_iff.2 hvalid, Option.none_or] at h
  obtain ⟨⟨⟨a, k⟩, b, l⟩, hpair, hfound⟩ := List.exists_of_findSome?_eq_some h
  obtain ⟨hkl, hk, hl⟩ := mem_orderedPairs_zipIdx_iff.1 hpair
  dsimp only at hfound
  split at hfound
  · rename_i hover
    cases hfound
    exact ⟨a, b, hkl, hk, hl, hover⟩
  · cases hfound

/-- Of valid polygons, the two that are reported to overlap have a position in common, strictly inside or on both
shells, exactly when it is not the case that their shells are apart and a hole or a probe of one of them is astray. -/
theorem reported_common_iff {members : List (Polygon ℚ)} (hvalid : ∀ p ∈ members, p.problem? = none) {i j : ℕ}
    (h : problemOfAll? members = some (.overlappingPolygons i j)) :
    ∃ a b, i < j ∧ members[i]? = some a ∧ members[j]? = some b ∧
      ((∃ z, LiesIn a.shell z ∧ LiesIn b.shell z) ↔
        ¬ (AreApart a.shell b.shell ∧ (StrayHole a b ∨ StrayHole b a ∨ StrayProbe a b ∨ StrayProbe b a))) := by
  obtain ⟨a, b, hij, ha, hb, hover⟩ := overlaps_of_reported hvalid h
  have hfault : ∀ {k : ℕ} {p : Polygon ℚ}, members[k]? = some p → ringFault? p.shell = none := fun hk =>
    ((problem?_eq_none_iff_parts _).1 (hvalid _ (List.mem_of_getElem? hk))).1.faultless
  refine ⟨a, b, hij, ha, hb, ?_, fun hnot => ?_⟩
  · rintro ⟨z, hcommon⟩ ⟨hapart, -⟩
    exact hapart.not_common (isClosed_of_ringFault?_eq_none (hfault ha)) (isClosed_of_ringFault?_eq_none (hfault hb))
      hcommon
  · by_contra hnone
    exact hnot ⟨areApart_of_not_common (hfault ha) (hfault hb) hnone,
      (common_or_stray_of_overlaps hover).resolve_left hnone⟩

theorem problemOfAll?_pair (ha : a.problem? = none) (hb : b.problem? = none) (h : a.overlaps b = true) :
    problemOfAll? [a, b] = some (.overlappingPolygons 0 1) := by
  simp [problemOfAll?, orderedPairs, ha, hb, h]

/-- A sliver four million long and one high, and a square that hovers over the middle of its base. -/
def sliver : Polygon ℚ := ⟨[⟨0, 0⟩, ⟨4000000, 0⟩, ⟨4000000, 1⟩, ⟨0, 0⟩], []⟩

/-- The square two by two, one above the base of the sliver, over its middle. -/
def hovering : Polygon ℚ :=
  ⟨[⟨1999999, 3⟩, ⟨2000001, 3⟩, ⟨2000001, 5⟩, ⟨1999999, 5⟩, ⟨1999999, 3⟩], []⟩

theorem sliver_hovering_valid : ∀ p ∈ [sliver, hovering], p.problem? = none := by decide +kernel

theorem problemOfAll?_sliver : problemOfAll? [sliver, hovering] = some (.overlappingPolygons 0 1) :=
  problemOfAll?_pair (sliver_hovering_valid sliver (by simp)) (sliver_hovering_valid hovering (by simp))
    (by decide +kernel)

theorem sliver_not_common : ¬ ∃ z, LiesIn sliver.shell z ∧ LiesIn hovering.shell z := by
  have hclosed : ∀ p ∈ [sliver, hovering], IsClosed p.shell := fun p hp =>
    isClosed_of_problem?_eq_none (sliver_hovering_valid p hp) _ List.mem_cons_self
  have hapart : AreApart sliver.shell hovering.shell := by decide +kernel
  rintro ⟨z, hcommon⟩
  exact hapart.not_common (hclosed sliver (by simp)) (hclosed hovering (by simp)) hcommon

/-- The two are reported to overlap, because the probe beside the base of the sliver lies in the square. Yet the one
ends at the height one, the other begins at the height three, and they have no position in common. -/
theorem sliver_reported : (∀ p ∈ [sliver, hovering], p.problem? = none) ∧
    problemOfAll? [sliver, hovering] = some (.overlappingPolygons 0 1) ∧
    (∀ v ∈ sliver.shell, v.y ≤ 1) ∧ (∀ v ∈ hovering.shell, 3 ≤ v.y) ∧
    ¬ ∃ z, LiesIn sliver.shell z ∧ LiesIn hovering.shell z :=
  ⟨sliver_hovering_valid, problemOfAll?_sliver, by decide +kernel, by decide +kernel, sliver_not_common⟩

/-- The two are apart and one of them is astray. -/
theorem sliver_astray : (∀ p ∈ [sliver, hovering], p.problem? = none) ∧
    problemOfAll? [sliver, hovering] = some (.overlappingPolygons 0 1) ∧ AreApart sliver.shell hovering.shell ∧
    (StrayHole sliver hovering ∨ StrayHole hovering sliver ∨ StrayProbe sliver hovering ∨
      StrayProbe hovering sliver) := by
  obtain ⟨a, b, -, ha, hb, hiff⟩ := reported_common_iff sliver_hovering_valid problemOfAll?_sliver
  obtain rfl : sliver = a := Option.some.inj ha
  obtain rfl : hovering = b := Option.some.inj hb
  exact ⟨sliver_hovering_valid, problemOfAll?_sliver, not_not.1 (mt hiff.2 sliver_not_common)⟩

end Polygon

end OccurrenceQuery.Geometry
