/-
The area of searchable polygons. Area is asked of a geometry as a whole: of the members of a
multipolygon all have to be valid, but one with an area is enough, and the holes of another may fill
its shell.
-/
import OccurrenceQuery.Geometry.Search
import OccurrenceQuery.Proofs.Number.Sum
import OccurrenceQuery.Proofs.Rejection

namespace OccurrenceQuery.Geometry

open OccurrenceQuery.Number

/-! ## Sums of areas -/

/-- Summing numbers that are not negative onto one leaves something exactly when one of them is positive. -/
theorem foldl_add_cases : ∀ {as : List Float} {start : Float}, (∀ a ∈ as, 0.0 ≤ a) → 0.0 ≤ start →
    0.0 ≤ as.foldl (· + ·) start ∧
      (0.0 < as.foldl (· + ·) start ↔ 0.0 < start ∨ ∃ a ∈ as, 0.0 < a)
  | [], start, _, hstart => by simpa using hstart
  | a :: as, start, has, hstart => by
    rw [List.forall_mem_cons] at has
    have hsum : 0.0 ≤ start + a ∧ (0.0 < start + a ↔ 0.0 < start ∨ 0.0 < a) := by
      by_cases hpos : 0.0 < start ∨ 0.0 < a
      · have hadd := add_pos hstart has.1 hpos
        exact ⟨zero_le_cases.2 (.inr hadd), iff_of_true hadd hpos⟩
      · rw [not_or] at hpos
        have hzero := add_beq_zero ((zero_le_cases.1 hstart).resolve_right hpos.1)
          ((zero_le_cases.1 has.1).resolve_right hpos.2)
        refine ⟨zero_le_cases.2 (.inl hzero), iff_of_false (fun hlt => ?_) (not_or.2 hpos)⟩
        rw [beq_zero_eq_false hlt] at hzero
        cases hzero
    obtain ⟨hnonneg, hiff⟩ := foldl_add_cases has.2 hsum.1
    refine ⟨hnonneg, ?_⟩
    rw [List.foldl_cons, hiff, hsum.2, or_assoc, List.exists_mem_cons_iff]

theorem total_cases {as : List Float} (has : ∀ a ∈ as, 0.0 ≤ a) :
    0.0 ≤ total as ∧ (0.0 < total as ↔ ∃ a ∈ as, 0.0 < a) := by
  have hstart : 0.0 ≤ (-0 : Float) ∧ ¬ 0.0 < (-0 : Float) := by decide +kernel
  obtain ⟨hnonneg, hiff⟩ := foldl_add_cases has hstart.1
  exact ⟨hnonneg, hiff.trans (or_iff_right hstart.2)⟩

/-- A number that is not negative is zero exactly when it is not positive. -/
theorem beq_zero_iff_not_pos {a : Float} (ha : 0.0 ≤ a) : (a == 0.0) = true ↔ ¬ 0.0 < a := by
  constructor
  · intro hzero hpos
    rw [beq_zero_eq_false hpos] at hzero
    cases hzero
  · exact (zero_le_cases.1 ha).resolve_right

/-! ## Polygons -/

namespace Polygon

variable {p : Polygon Float} {ps : List (Polygon Float)}

/-- A polygon has no negative area, and has an area when its holes leave some of its shell. -/
theorem area_cases (p : Polygon Float) : 0.0 ≤ p.area ∧
    (0.0 < p.area ↔ 0.0 < ringArea p.shell - total (p.holes.map ringArea)) := by
  show 0.0 ≤ greater (ringArea p.shell - total (p.holes.map ringArea)) 0.0 ∧
    (0.0 < greater (ringArea p.shell - total (p.holes.map ringArea)) 0.0 ↔ _)
  generalize ringArea p.shell - total (p.holes.map ringArea) = rest
  have hzero : 0.0 ≤ (0.0 : Float) ∧ ((0.0 : Float) == 0.0) = true ∧ ¬ 0.0 < (0.0 : Float) := by
    decide +kernel
  unfold greater
  split
  · rename_i hrest
    exact ⟨hrest, Iff.rfl⟩
  · rename_i hrest
    rw [if_pos hzero.2.1]
    exact ⟨hzero.1, iff_of_false hzero.2.2 fun hlt => hrest (zero_le_cases.2 (.inr hlt))⟩

theorem problem?_of_problemOfAll? (h : problemOfAll? ps = none) (hp : p ∈ ps) :
    p.problem? = none := by
  unfold problemOfAll? at h
  rw [Option.or_eq_none_iff, List.findSome?_eq_none_iff] at h
  exact h.1 p hp

end Polygon

/-! ## Acceptance -/

/-- The rules of polygonal geometries: no problem, and an area. -/
theorem rules_eq_ok_iff {found? : Option (Problem Float)} {a : Float} (ha : 0.0 ≤ a) :
    (match found? with
      | some found => .error (.problem found)
      | none => if a == 0.0 then .error .zeroArea else .ok () : Except Fault Unit) = .ok () ↔
      found? = none ∧ 0.0 < a := by
  cases found? with
  | some found => simp
  | none =>
    have hpos : 0.0 < a ↔ ¬ (a == 0.0) = true := by rw [beq_zero_iff_not_pos ha, not_not]
    simp [hpos]

theorem checkSearchable_polygon_iff {p : Polygon Float} :
    checkSearchable (.polygon p) = .ok () ↔ p.problem? = none ∧ 0.0 < p.area :=
  rules_eq_ok_iff p.area_cases.1

/-- Several polygons can be searched in when they have no problem and one of them can be alone. -/
theorem checkSearchable_multiPolygon_iff {ps : List (Polygon Float)} :
    checkSearchable (.multiPolygon ps) = .ok () ↔
      Polygon.problemOfAll? ps = none ∧ ∃ p ∈ ps, checkSearchable (.polygon p) = .ok () := by
  have hareas : ∀ a ∈ ps.map Polygon.area, 0.0 ≤ a := by
    intro a ha
    obtain ⟨p, -, rfl⟩ := List.mem_map.1 ha
    exact p.area_cases.1
  obtain ⟨hnonneg, hpos⟩ := total_cases hareas
  have hrules : checkSearchable (.multiPolygon ps) = .ok () ↔
      Polygon.problemOfAll? ps = none ∧ 0.0 < total (ps.map Polygon.area) :=
    rules_eq_ok_iff hnonneg
  rw [hrules, hpos]
  refine and_congr_right fun hproblem => ?_
  simp only [List.mem_map, checkSearchable_polygon_iff]
  constructor
  · rintro ⟨_, ⟨p, hp, rfl⟩, harea⟩
    exact ⟨p, hp, Polygon.problem?_of_problemOfAll? hproblem hp, harea⟩
  · rintro ⟨p, hp, -, harea⟩
    exact ⟨p.area, ⟨p, hp, rfl⟩, harea⟩

/-- The members of an accepted multipolygon are valid. Each of them is accepted alone exactly when its
holes leave some area of its shell, and one of them is. -/
theorem members_of_checkSearchable {ps : List (Polygon Float)}
    (h : checkSearchable (.multiPolygon ps) = .ok ()) :
    (∀ p ∈ ps, p.problem? = none ∧ (checkSearchable (.polygon p) = .ok () ↔
      0.0 < ringArea p.shell - total (p.holes.map ringArea))) ∧
      ∃ p ∈ ps, checkSearchable (.polygon p) = .ok () := by
  obtain ⟨hproblem, hmember⟩ := checkSearchable_multiPolygon_iff.1 h
  refine ⟨fun p hp => ?_, hmember⟩
  have hvalid := Polygon.problem?_of_problemOfAll? hproblem hp
  exact ⟨hvalid, by rw [checkSearchable_polygon_iff, and_iff_right hvalid, p.area_cases.2]⟩

namespace Polygon

/-- A triangle with a hole that fills it. -/
def filled : Polygon Float :=
  ⟨[⟨0, 0⟩, ⟨1, 0⟩, ⟨0, 1⟩, ⟨0, 0⟩], [[⟨0, 0⟩, ⟨0, 1⟩, ⟨1, 0⟩, ⟨0, 0⟩]]⟩

/-- A triangle apart from the filled one. -/
def apart : Polygon Float := ⟨[⟨2, 0⟩, ⟨3, 0⟩, ⟨2, 1⟩, ⟨2, 0⟩], []⟩

end Polygon

theorem members_of_checkSearchable_filled :
    checkSearchable (.multiPolygon [.filled, .apart]) = .ok () ∧
    (∀ p ∈ [Polygon.filled, .apart], p.problem? = none ∧ (checkSearchable (.polygon p) = .ok () ↔
      0.0 < ringArea p.shell - total (p.holes.map ringArea))) ∧
      ∃ p ∈ [Polygon.filled, .apart], checkSearchable (.polygon p) = .ok () := by
  have hcheck : checkSearchable (.multiPolygon [.filled, .apart]) = .ok () := by decide +kernel
  exact ⟨hcheck, members_of_checkSearchable hcheck⟩

/-- A member of an accepted multipolygon that is not accepted alone, because it has no area. -/
theorem filled_refused : checkSearchable (.multiPolygon [.filled, .apart]) = .ok () ∧
    (Polygon.filled.area == 0.0) = true ∧ ¬ checkSearchable (.polygon .filled) = .ok () := by
  decide +kernel

end OccurrenceQuery.Geometry
