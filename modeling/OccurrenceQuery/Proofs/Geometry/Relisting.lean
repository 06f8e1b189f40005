/-
Rings listed from another vertex on. The segments of such a ring are those of the ring, rotated. A test that asks for
some segment, or counts segments, or adds up what they contribute, does not see the difference; and whether a ring is
simple is said by which segments follow each other round the ring, where the seam is a place like any other. So it
matters neither to whether a polygon has a problem nor to its area where its shell starts.
-/
import Mathlib.Tactic
import OccurrenceQuery.Proofs.Geometry.Parts
import OccurrenceQuery.Proofs.Geometry.Repeats

namespace OccurrenceQuery.Geometry

open scoped List

/-! ## Rotated lists -/

theorem isRotated_filter {β : Type} (f : β → Bool) {bs cs : List β} (h : bs ~r cs) : bs.filter f ~r cs.filter f := by
  obtain ⟨n, -, rfl⟩ := List.isRotated_iff_mod.1 h
  have hcut := congrArg (List.filter f) (List.take_append_drop (n % bs.length) bs)
  rw [List.filter_append] at hcut
  rw [List.rotate_eq_drop_append_take_mod, List.filter_append, ← hcut]
  exact List.isRotated_append

/-! ## Rings listed from another vertex on -/

/-- The ring listed from its vertex with the number `n` on, and closed by that vertex. The numbers go round the ring. A
ring of a single position stays as it is. -/
def listedFrom {α : Type} (n : ℕ) (ring : Ring α) : Ring α :=
  match ring.dropLast.rotate n with
  | [] => ring
  | v :: vs => v :: vs ++ [v]

variable {r s ring : Ring ℚ}

/-- A closed ring of more than one position is closed by its first vertex. -/
theorem IsClosed.cases (h : IsClosed ring) : ring.length ≤ 1 ∨ ∃ p ps, ring = p :: ps ++ [p] := by
  match ring, h with
  | [], _ => exact .inl (Nat.zero_le 1)
  | [_], _ => exact .inl le_rfl
  | p :: q :: ps, h =>
    have hlast : (p :: q :: ps).getLast (List.cons_ne_nil _ _) = p := h.getLast_eq
    refine .inr ⟨p, (q :: ps).dropLast, ?_⟩
    have hring := List.dropLast_concat_getLast (List.cons_ne_nil p (q :: ps))
    rw [hlast, List.dropLast_cons_cons] at hring
    exact hring.symm

theorem listedFrom_of_length_le_one (h : ring.length ≤ 1) (n : ℕ) : listedFrom n ring = ring := by
  match ring, h with
  | [], _ => simp [listedFrom]
  | [_], _ => simp [listedFrom]

theorem exists_listedFrom (p : Position ℚ) (ps : List (Position ℚ)) (n : ℕ) :
    ∃ v vs, (p :: ps).rotate n = v :: vs ∧ listedFrom n (p :: ps ++ [p]) = v :: vs ++ [v] := by
  cases hrotate : (p :: ps).rotate n with
  | nil => simp at hrotate
  | cons v vs => exact ⟨v, vs, rfl, by rw [listedFrom, List.dropLast_concat, hrotate]⟩

/-- The segments of a ring listed from another vertex on are its segments, rotated. -/
theorem segments_listedFrom (h : IsClosed ring) (n : ℕ) : segments (listedFrom n ring) = (segments ring).rotate n := by
  rcases h.cases with hshort | ⟨p, ps, rfl⟩
  · have hnone : segments ring = [] := List.length_eq_zero_iff.1 (by rw [length_segments]; omega)
    rw [listedFrom_of_length_le_one hshort, hnone, List.rotate_nil]
  · obtain ⟨v, vs, hrotate, hlisted⟩ := exists_listedFrom p ps n
    rw [hlisted]
    show sides (v :: vs) = (sides (p :: ps)).rotate n
    rw [← hrotate, sides_rotate]

theorem isClosed_listedFrom (h : IsClosed ring) (n : ℕ) : IsClosed (listedFrom n ring) := by
  rcases h.cases with hshort | ⟨p, ps, rfl⟩
  · rwa [listedFrom_of_length_le_one hshort]
  · obtain ⟨v, vs, -, hlisted⟩ := exists_listedFrom p ps n
    rw [hlisted, IsClosed, List.getLast?_concat]
    rfl

theorem mem_listedFrom {z : Position ℚ} (h : IsClosed ring) (n : ℕ) : z ∈ listedFrom n ring ↔ z ∈ ring := by
  rcases h.cases with hshort | ⟨p, ps, rfl⟩
  · rw [listedFrom_of_length_le_one hshort]
  · obtain ⟨v, vs, hrotate, hlisted⟩ := exists_listedFrom p ps n
    have hclose : ∀ (v : Position ℚ) vs, z ∈ v :: vs ++ [v] ↔ z ∈ v :: vs := by
      intro v vs
      simp only [List.mem_append, List.mem_singleton, or_iff_left_iff_imp]
      exact fun hz => hz ▸ List.mem_cons_self
    rw [hlisted, hclose, hclose, ← hrotate, List.mem_rotate]

/-! ## Rings of the same segments -/

/-- The closing side of a closed ring has length zero, and the area is that of its segments. -/
theorem signedArea_of_isClosed (h : IsClosed ring) : signedArea ring = ((segments ring).map Segment.wedge).sum / 2 := by
  rw [signedArea_eq_sum]
  rcases h.cases with hshort | ⟨p, ps, rfl⟩
  · match ring, hshort with
    | [], _ => rfl
    | [p], _ => simp [sides, segments, Segment.wedge_eq_zero]
  · have hsides : sides (p :: ps ++ [p]) = segments (p :: ps ++ [p]) ++ [⟨p, p⟩] := segments_concat_concat (p :: ps) p p
    rw [hsides, List.map_append, List.sum_append, List.map_singleton, List.sum_singleton, Segment.wedge_eq_zero rfl,
      add_zero]

theorem onRing_of_perm (h : (segments r).Perm (segments s)) (p : Position ℚ) : onRing p r = onRing p s := h.any_eq

theorem insideRing_of_perm (h : (segments r).Perm (segments s)) (p : Position ℚ) :
    insideRing p r = insideRing p s := by
  rw [insideRing, insideRing, onRing_of_perm h, h.countP_eq]

/-- Of two numbers, the one follows the other round the ring wherever counting starts. -/
theorem follows_shifted_iff {n i j : ℕ} (k : ℕ) (hj : j < n) :
    Follows n ((i + k) % n) ((j + k) % n) ↔ Follows n i j := by
  have hshift : (j + k) % n = (i + 1 + k) % n ↔ j % n = (i + 1) % n :=
    ⟨Nat.ModEq.add_right_cancel' k, Nat.ModEq.add_right k⟩
  rw [Follows, Follows, Nat.mod_add_mod, Nat.add_right_comm, hshift, Nat.mod_eq_of_lt hj]

/-- A closed line is simple when one of the same segments from another one on is. -/
theorem IsSimple.of_isRotated {points relisted : List (Position ℚ)} (hsimple : IsSimple points)
    (h : segments points ~r segments relisted) : IsSimple relisted := by
  obtain ⟨k, hk⟩ := h
  have hlength : (segments relisted).length = (segments points).length := by rw [← hk, List.length_rotate]
  have hat : ∀ {i : ℕ} {s : Segment ℚ}, (segments relisted)[i]? = some s → i < (segments points).length ∧
      (segments points)[(i + k) % (segments points).length]? = some s := by
    intro i s hs
    have hi := hlength ▸ (List.getElem?_eq_some_iff.1 hs).1
    exact ⟨hi, by rw [← List.getElem?_rotate hi, hk, hs]⟩
  have hne' : ∀ {i j : ℕ}, i < (segments points).length → j < (segments points).length → i ≠ j →
      (i + k) % (segments points).length ≠ (j + k) % (segments points).length := by
    intro i j hi hj hne heq
    have hmod := Nat.ModEq.add_right_cancel' k heq
    exact hne (by rwa [Nat.ModEq, Nat.mod_eq_of_lt hi, Nat.mod_eq_of_lt hj] at hmod)
  refine ⟨fun i j s t hne hs ht hij => ?_, fun i j s t hne hs ht hij hji => ?_⟩
  all_goals
    obtain ⟨hi, hs⟩ := hat hs
    obtain ⟨hj, ht⟩ := hat ht
  · rw [hlength, ← follows_shifted_iff k hj] at hij
    exact hsimple.neighbours _ _ s t (hne' hi hj hne) hs ht hij
  · rw [hlength, ← follows_shifted_iff k hj] at hij
    rw [hlength, ← follows_shifted_iff k hi] at hji
    exact hsimple.others _ _ s t (hne' hi hj hne) hs ht hij hji

theorem ringFault?_of_isRotated (hs : IsClosed s) (h : segments r ~r segments s) (hr : ringFault? r = none) :
    ringFault? s = none := by
  rw [ringFault?_eq_none_iff, ← dropRepeats_eq_destutter] at hr ⊢
  obtain ⟨-, -, hfour, hsimple⟩ := hr
  have hrotated : segments (dropRepeats r) ~r segments (dropRepeats s) := by
    rw [segments_dropRepeats, segments_dropRepeats]
    exact isRotated_filter _ h
  have hlength := hrotated.perm.length_eq
  rw [length_segments, length_segments] at hlength
  have hfour' : 4 ≤ (dropRepeats s).length := by omega
  refine ⟨?_, hs, hfour', hsimple.of_isRotated hrotated⟩
  rintro rfl
  exact absurd hfour' (by decide)

/-! ## Rings that no test tells apart -/

/-- Whether the tests of rings have the same answer for two rings. Where a fault is found, may differ. -/
structure IsAlike (r s : Ring ℚ) : Prop where
  fault : ringFault? r = none ↔ ringFault? s = none
  area : signedArea r = signedArea s
  crossing : ∀ t, ringsCross r t = ringsCross s t
  sharing : ∀ t, ringsShareEdge r t = ringsShareEdge s t
  probe : ∀ f, (probes r).any f = (probes s).any f
  border : ∀ p, onRing p r = onRing p s
  inside : ∀ p, insideRing p r = insideRing p s

/-- Closed rings of the same vertices, and of the same segments from another one on, are alike. -/
theorem isAlike_of_isRotated (hr : IsClosed r) (hs : IsClosed s) (hsegments : segments r ~r segments s)
    (hvertices : ∀ v, v ∈ r ↔ v ∈ s) : IsAlike r s := by
  have hperm := hsegments.perm
  have harea : signedArea r = signedArea s := by
    rw [signedArea_of_isClosed hr, signedArea_of_isClosed hs, (hperm.map Segment.wedge).sum_eq]
  refine ⟨⟨ringFault?_of_isRotated hs hsegments, ringFault?_of_isRotated hr hsegments.symm⟩, harea, fun t => ?_,
    fun t => ?_, fun f => ?_, onRing_of_perm hperm, insideRing_of_perm hperm⟩
  · exact hperm.any_eq
  · exact hperm.any_eq
  · have hany : r.any f = s.any f := by
      rw [Bool.eq_iff_iff, List.any_eq_true, List.any_eq_true]
      simp only [hvertices]
    rw [probes, probes, List.any_append, List.any_append, hany, harea, ((hperm.filter _).map _).any_eq]

theorem isAlike_listedFrom (h : IsClosed ring) (n : ℕ) : IsAlike (listedFrom n ring) ring := by
  refine isAlike_of_isRotated (isClosed_listedFrom h n) h ?_ fun v => mem_listedFrom h n
  rw [segments_listedFrom h]
  exact List.IsRotated.forall _ n

/-! ## Polygons with another shell -/

namespace Polygon

variable {holes : List (Ring ℚ)}

theorem isShell_iff_of_isAlike (h : IsAlike r s) : IsShell r ↔ IsShell s :=
  ⟨fun hr => ⟨h.fault.1 hr.faultless, h.area ▸ hr.winding⟩, fun hs => ⟨h.fault.2 hs.faultless, h.area ▸ hs.winding⟩⟩

theorem holdsHole_of_isAlike (h : IsAlike r s) (hole : Ring ℚ) : holdsHole r hole = holdsHole s hole := by
  simp only [holdsHole, h.border, h.inside]

theorem fits_iff_of_isAlike (h : IsAlike r s) (hole : Ring ℚ) : Fits r hole ↔ Fits s hole := by
  have hcross := h.crossing hole
  have hheld := holdsHole_of_isAlike h hole
  exact ⟨fun hr => ⟨hr.faultless, hr.winding, hcross ▸ hr.crossing, hheld ▸ hr.held⟩,
    fun hs => ⟨hs.faultless, hs.winding, hcross ▸ hs.crossing, hheld ▸ hs.held⟩⟩

theorem problem?_iff_of_isAlike (h : IsAlike r s) :
    (⟨r, holes⟩ : Polygon ℚ).problem? = none ↔ (⟨s, holes⟩ : Polygon ℚ).problem? = none := by
  rw [problem?_eq_none_iff_parts, problem?_eq_none_iff_parts]
  simp only [isShell_iff_of_isAlike h, fits_iff_of_isAlike h]

theorem area_of_isAlike (h : IsAlike r s) : (⟨r, holes⟩ : Polygon ℚ).area = (⟨s, holes⟩ : Polygon ℚ).area := by
  simp only [area, ringArea, h.area]

theorem overlaps_of_isAlike (h : IsAlike r s) (q : Polygon ℚ) :
    overlaps ⟨r, holes⟩ q = overlaps ⟨s, holes⟩ q := by
  have hmeet : boundariesMeet ⟨r, holes⟩ q = boundariesMeet ⟨s, holes⟩ q := by
    simp only [boundariesMeet, rings, List.any_cons, h.crossing, h.sharing]
  have hinside : hasInside ⟨r, holes⟩ = hasInside ⟨s, holes⟩ := by
    funext z
    simp only [hasInside, h.inside]
  rw [overlaps, overlaps, hmeet, hinside, h.probe]

/-- A member of several polygons can have another shell instead of one that is like it. -/
theorem problemOfAll?_iff_of_isAlike (h : IsAlike r s) (before after : List (Polygon ℚ)) :
    problemOfAll? (before ++ ⟨r, holes⟩ :: after) = none ↔ problemOfAll? (before ++ ⟨s, holes⟩ :: after) = none := by
  have hover : ∀ q : Polygon ℚ, overlaps q ⟨r, holes⟩ = overlaps q ⟨s, holes⟩ := fun q => by
    rw [overlaps_comm, overlaps_of_isAlike h, overlaps_comm]
  rw [problemOfAll?_eq_none_iff_pairwise, problemOfAll?_eq_none_iff_pairwise]
  simp only [List.forall_mem_append, List.forall_mem_cons, List.pairwise_append, List.pairwise_cons,
    problem?_iff_of_isAlike h, overlaps_of_isAlike h, hover]

/-- The polygon with its shell listed from another vertex on. -/
def listedFrom (n : ℕ) (p : Polygon ℚ) : Polygon ℚ := { p with shell := Geometry.listedFrom n p.shell }

end Polygon

/-! ## Geometries -/

/-- Whether the second geometry is the first one, a polygon or multipolygon, with a closed shell of it listed from
another vertex on. -/
inductive IsRelisted : Geometry ℚ → Geometry ℚ → Prop where
  | polygon {p : Polygon ℚ} (h : IsClosed p.shell) (n : ℕ) : IsRelisted (.polygon p) (.polygon (p.listedFrom n))
  | multiPolygon {p : Polygon ℚ} (h : IsClosed p.shell) (n : ℕ) (before after : List (Polygon ℚ)) :
    IsRelisted (.multiPolygon (before ++ p :: after)) (.multiPolygon (before ++ p.listedFrom n :: after))

/-- Where a shell starts matters neither to whether a polygon or multipolygon has a problem nor to its area. -/
theorem problem?_of_isRelisted {g relisted : Geometry ℚ} (h : IsRelisted g relisted) :
    (problem? relisted = none ↔ problem? g = none) ∧ area relisted = area g := by
  cases h with
  | polygon h n =>
    have halike := isAlike_listedFrom h n
    exact ⟨Polygon.problem?_iff_of_isAlike halike, Polygon.area_of_isAlike halike⟩
  | @multiPolygon p h n before after =>
    have halike := isAlike_listedFrom h n
    refine ⟨Polygon.problemOfAll?_iff_of_isAlike halike before after, ?_⟩
    have harea : (p.listedFrom n).area = p.area := Polygon.area_of_isAlike halike
    show total ((before ++ p.listedFrom n :: after).map Polygon.area) = total ((before ++ p :: after).map Polygon.area)
    rw [List.map_append, List.map_append, List.map_cons, List.map_cons, harea]

namespace Polygon

/-- The square with a repeated position, listed from that position on: the repeat is at the seam. -/
def doubledAtSeam : Polygon ℚ := ⟨[⟨1, 0⟩, ⟨1, 1⟩, ⟨0, 1⟩, ⟨0, 0⟩, ⟨1, 0⟩, ⟨1, 0⟩], []⟩

end Polygon

theorem problem?_of_isRelisted_corner :
    IsRelisted (.multiPolygon [.doubled, .cornered]) (.multiPolygon [.doubledAtSeam, .cornered]) ∧
    problem? (.multiPolygon [.doubledAtSeam, .cornered]) = none ∧
    area (.multiPolygon [.doubledAtSeam, .cornered]) = area (.multiPolygon [.doubled, .cornered]) := by
  have hlisted : Polygon.doubled.listedFrom 2 = .doubledAtSeam := rfl
  have h : IsRelisted (.multiPolygon [.doubled, .cornered]) (.multiPolygon [.doubledAtSeam, .cornered]) :=
    hlisted ▸ .multiPolygon (p := .doubled) rfl 2 [] [.cornered]
  obtain ⟨hproblem, harea⟩ := problem?_of_isRelisted h
  exact ⟨h, hproblem.2 (by decide +kernel), harea⟩

end OccurrenceQuery.Geometry
