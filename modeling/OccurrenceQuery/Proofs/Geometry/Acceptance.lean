/-
What it means that a polygon or several polygons have no problem, rule by rule.
-/
import OccurrenceQuery.Geometry.Validity
import OccurrenceQuery.Proofs.Geometry.Parity

namespace OccurrenceQuery.Geometry

/-! ## Pairs -/

theorem mem_orderedPairs_iff {β : Type} {bs : List β} {x y : β} :
    (x, y) ∈ orderedPairs bs ↔ ∃ i j : ℕ, i < j ∧ bs[i]? = some x ∧ bs[j]? = some y := by
  induction bs with
  | nil => simp [orderedPairs]
  | cons b bs ih =>
    have hhead : (x, y) ∈ bs.map (b, ·) ↔ x = b ∧ ∃ j : ℕ, bs[j]? = some y := by
      rw [← List.mem_iff_getElem?]
      constructor
      · intro h
        obtain ⟨z, hz, heq⟩ := List.mem_map.1 h
        cases heq
        exact ⟨rfl, hz⟩
      · rintro ⟨rfl, hy⟩
        exact List.mem_map.2 ⟨y, hy, rfl⟩
    -- a pair begins with the head, or comes from the tail
    rw [orderedPairs, List.mem_append, ih, hhead]
    constructor
    · rintro (⟨rfl, j, hj⟩ | ⟨i, j, hij, hi, hj⟩)
      · exact ⟨0, j + 1, j.succ_pos, rfl, hj⟩
      · exact ⟨i + 1, j + 1, Nat.succ_lt_succ hij, hi, hj⟩
    · rintro ⟨i, j, hij, hi, hj⟩
      obtain ⟨k, rfl⟩ : ∃ k, j = k + 1 := ⟨j - 1, by omega⟩
      cases i with
      | zero => exact .inl ⟨(Option.some.inj hi).symm, k, hj⟩
      | succ i => exact .inr ⟨i, k, Nat.lt_of_succ_lt_succ hij, hi, hj⟩

theorem mem_orderedPairs_zipIdx_iff {β : Type} {bs : List β} {x y : β} {i j : ℕ} :
    ((x, i), (y, j)) ∈ orderedPairs bs.zipIdx ↔ i < j ∧ bs[i]? = some x ∧ bs[j]? = some y := by
  have hentry : ∀ (k i : ℕ) (x : β), bs.zipIdx[k]? = some (x, i) ↔ k = i ∧ bs[i]? = some x := by
    intro k i x
    simp only [List.getElem?_zipIdx, Option.map_eq_some_iff, Prod.mk.injEq, Nat.zero_add]
    constructor
    · rintro ⟨z, hz, rfl, rfl⟩
      exact ⟨rfl, hz⟩
    · rintro ⟨rfl, hx⟩
      exact ⟨x, hx, rfl, rfl⟩
  rw [mem_orderedPairs_iff]
  constructor
  · rintro ⟨k, l, hkl, hk, hl⟩
    obtain ⟨rfl, hx⟩ := (hentry k i x).1 hk
    obtain ⟨rfl, hy⟩ := (hentry l j y).1 hl
    exact ⟨hkl, hx, hy⟩
  · rintro ⟨hij, hx, hy⟩
    exact ⟨i, j, hij, (hentry i i x).2 ⟨rfl, hx⟩, (hentry j j y).2 ⟨rfl, hy⟩⟩

/-! ## Rings -/

theorem isClosed_of_ringFault?_eq_none {ring : Ring ℚ} (h : ringFault? ring = none) : IsClosed ring := by
  unfold ringFault? at h
  split at h
  · rename_i first last hfirst hlast
    split at h
    · cases h
    · rename_i hsame
      have heq : first = last := by
        rw [bne, Bool.not_eq_true', Bool.not_eq_false] at hsame
        exact (Position.beq_iff first last).1 hsame
      rw [IsClosed, hfirst, hlast, heq]
  · cases h

/-! ## Polygons -/

namespace Polygon

variable {α : Type} [Scalar α]

theorem problem?_eq_none_iff (p : Polygon α) : p.problem? = none ↔
    p.ringProblem? = none ∧ p.orientationProblem? = none ∧ p.crossingProblem? = none ∧
      p.outsideProblem? = none ∧ p.nestingProblem? = none := by
  simp only [problem?, Option.or_eq_none_iff]

theorem ringProblem?_eq_none_iff (p : Polygon α) :
    p.ringProblem? = none ↔ ∀ ring ∈ p.rings, ringFault? ring = none := by
  simp only [ringProblem?, List.findSome?_eq_none_iff, Option.map_eq_none_iff]
  constructor
  · intro h ring hring
    obtain ⟨i, hi⟩ := List.mem_iff_getElem?.1 hring
    exact h (ring, i) (List.mem_zipIdx_iff_getElem?.2 hi)
  · intro h entry hentry
    exact h entry.1 (List.mem_of_getElem? (List.mem_zipIdx_iff_getElem?.1 hentry))

theorem orientationProblem?_eq_none_iff (p : Polygon α) : p.orientationProblem? = none ↔
    ¬ signedArea p.shell < 0 ∧ ∀ hole ∈ p.holes, ¬ 0 < signedArea hole := by
  unfold orientationProblem?
  split <;> simp_all

theorem crossingProblem?_eq_none_iff (p : Polygon α) : p.crossingProblem? = none ↔
    ∀ (i j : ℕ) (r s : Ring α), i < j → p.rings[i]? = some r → p.rings[j]? = some s → ringsCross r s = false := by
  simp only [crossingProblem?, List.findSome?_eq_none_iff]
  constructor
  · intro h i j r s hij hr hs
    have hpair := h ((r, i), (s, j)) (mem_orderedPairs_zipIdx_iff.2 ⟨hij, hr, hs⟩)
    simpa using hpair
  · rintro h ⟨⟨r, i⟩, s, j⟩ hpair
    obtain ⟨hij, hr, hs⟩ := mem_orderedPairs_zipIdx_iff.1 hpair
    simp [h i j r s hij hr hs]

theorem outsideProblem?_eq_none_iff (p : Polygon α) : p.outsideProblem? = none ↔
    ∀ hole ∈ p.holes, holdsHole p.shell hole = true := by
  simp only [outsideProblem?, Option.map_eq_none_iff, List.findIdx?_eq_none_iff, Bool.not_eq_eq_eq_not,
    Bool.not_false]

theorem nestingProblem?_eq_none_iff (p : Polygon α) : p.nestingProblem? = none ↔
    ∀ (i j : ℕ) (r s : Ring α), i ≠ j → p.holes[i]? = some r → p.holes[j]? = some s → reachesInto r s = false := by
  simp only [nestingProblem?, List.findSome?_eq_none_iff, Option.map_eq_none_iff, List.find?_eq_none]
  constructor
  · intro h i j r s hij hr hs
    have hpair := h (r, i) (List.mem_zipIdx_iff_getElem?.2 hr) (s, j) (List.mem_zipIdx_iff_getElem?.2 hs)
    simpa [hij.symm] using hpair
  · rintro h ⟨r, i⟩ hr ⟨s, j⟩ hs
    have hpair := h i j r s
    simp only [List.mem_zipIdx_iff_getElem?] at hr hs
    by_cases hij : i = j
    · simp [hij]
    · simp [hpair hij hr hs]

/-- All rings of a polygon without a problem are closed. -/
theorem isClosed_of_problem?_eq_none {p : Polygon ℚ} (h : p.problem? = none) :
    ∀ ring ∈ p.rings, IsClosed ring := fun ring hring =>
  isClosed_of_ringFault?_eq_none ((ringProblem?_eq_none_iff p).1 ((problem?_eq_none_iff p).1 h).1 ring hring)

theorem overlaps_eq_false_iff (p q : Polygon α) : p.overlaps q = false ↔
    (∀ r ∈ p.rings, ∀ s ∈ q.rings, ringsCross r s = false ∧ ringsShareEdge r s = false) ∧
      (∀ z ∈ probes q.shell, p.hasInside z = false) ∧ ∀ z ∈ probes p.shell, q.hasInside z = false := by
  simp only [overlaps, boundariesMeet, Bool.or_eq_false_iff, List.any_eq_false, Bool.not_eq_true, and_assoc]

/-- Several polygons have no problem when none of them has one and no two of them overlap. -/
theorem problemOfAll?_eq_none_iff (polygons : List (Polygon α)) : problemOfAll? polygons = none ↔
    (∀ p ∈ polygons, p.problem? = none) ∧
      ∀ (i j : ℕ) (p q : Polygon α), i < j → polygons[i]? = some p → polygons[j]? = some q →
        p.overlaps q = false := by
  simp only [problemOfAll?, Option.or_eq_none_iff, List.findSome?_eq_none_iff]
  refine and_congr_right fun _ => ?_
  constructor
  · intro h i j p q hij hp hq
    have hpair := h ((p, i), (q, j)) (mem_orderedPairs_zipIdx_iff.2 ⟨hij, hp, hq⟩)
    simpa using hpair
  · rintro h ⟨⟨p, i⟩, q, j⟩ hpair
    obtain ⟨hij, hp, hq⟩ := mem_orderedPairs_zipIdx_iff.1 hpair
    simp [h i j p q hij hp hq]

end Polygon

end OccurrenceQuery.Geometry
