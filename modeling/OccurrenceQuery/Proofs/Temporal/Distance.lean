/-
The distance of temporals as a signed quantity. It changes its sign when the two change places, leap
seconds and different offsets included: the second that is counted for a leap second between two times
is counted in the one direction as it is in the other. So two temporals of one kind are in order one way
round or the other, and both ways round exactly when their distance is zero.
-/
import Mathlib.Tactic
import OccurrenceQuery.Proofs.Temporal.Order

namespace OccurrenceQuery.Temporal

/-! ## Instants -/

namespace Instant

/-- Which of two instants comes first in the day settles whose leap second counts, and its sign. -/
theorem leapBetween_swap (i j : Instant) : leapBetween j i = -leapBetween i j := by
  unfold leapBetween
  rcases lt_trichotomy i.second j.second with hlt | heq | hlt
  · have hnot : ¬ j.second < i.second := by omega
    cases i.isLeap <;> simp [hlt, hnot]
  · simp [heq]
  · have hnot : ¬ i.second < j.second := by omega
    cases j.isLeap <;> simp [hlt, hnot]

theorem nanosTo_swap (i j : Instant) : nanosTo j i = -nanosTo i j := by
  unfold nanosTo
  rw [leapBetween_swap i j]
  ring

theorem secondsTo_swap (i j : Instant) : secondsTo j i = -secondsTo i j := by
  rw [secondsTo, nanosTo_swap i j, Int.neg_tdiv, secondsTo]

end Instant

/-! ## Temporals -/

theorem until?_swap (a b : Temporal) : b.until? a = (a.until? b).map fun distance => -distance := by
  cases a <;> cases b <;>
    simp only [until?, Option.map_some, Option.map_none, Option.some.injEq]
  case year.year | yearMonth.yearMonth | date.date => omega
  case localTime.localTime | offsetTime.offsetTime => exact Instant.secondsTo_swap _ _

/-- The distance of two times is that of their nanoseconds, with a second more or less for a leap second
between them; what is left of a second is dropped on either side of zero. -/
theorem until?_offsetTime (t u : DateTime) (o p : Int) :
    (offsetTime t o).until? (offsetTime u p) =
      some ((u.nanos p - t.nanos o +
        Instant.leapBetween (t.instant o) (u.instant p) * nanosPerSecond).tdiv nanosPerSecond) := by
  rw [← DateTime.nanosTo_instant]
  rfl

theorem until?_localTime (t u : DateTime) :
    (localTime t).until? (localTime u) = (offsetTime t 0).until? (offsetTime u 0) := rfl

/-! ## Order -/

theorem exists_between_iff (a b : Temporal) :
    (∃ interval, Interval.between a b = .ok interval) ↔
      ∃ distance, a.until? b = some distance ∧ 0 ≤ distance := by
  simp only [Interval.between_eq_ok_iff, inOrder_iff, exists_and_left, exists_eq, and_true]

/-- The distance of two temporals is present exactly when they are of one kind, and is turned round with
them. They make an interval in both ways round exactly when it is zero, and in one way round at least
exactly when they are of one kind. -/
theorem distance_antisymmetric :
    (∀ (t u : DateTime) (o p : Int), (offsetTime t o).until? (offsetTime u p) =
      some ((u.nanos p - t.nanos o +
        Instant.leapBetween (t.instant o) (u.instant p) * nanosPerSecond).tdiv nanosPerSecond)) ∧
    (∀ t u : DateTime, (localTime t).until? (localTime u) =
      (offsetTime t 0).until? (offsetTime u 0)) ∧
    ∀ a b : Temporal,
      ((a.until? b).isSome = true ↔ SameKind a b) ∧
      (b.until? a = (a.until? b).map fun distance => -distance) ∧
      (((∃ x, Interval.between a b = .ok x) ∧ ∃ y, Interval.between b a = .ok y) ↔
        a.until? b = some 0) ∧
      (((∃ x, Interval.between a b = .ok x) ∨ ∃ y, Interval.between b a = .ok y) ↔
        SameKind a b) := by
  refine ⟨until?_offsetTime, until?_localTime, fun a b => ?_⟩
  refine ⟨(sameKind_iff_isSome a b).symm, until?_swap a b, ?_⟩
  rw [exists_between_iff, exists_between_iff, until?_swap a b, sameKind_iff_isSome]
  cases a.until? b with
  | none => simp
  | some distance =>
    simp only [Option.map_some, Option.some.injEq, exists_eq_left', Option.isSome_some, iff_true]
    omega

end OccurrenceQuery.Temporal
