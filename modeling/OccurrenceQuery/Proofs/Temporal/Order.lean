/-
When two temporals are in order. The order is checked on the distance in whole units, so two times may
run backwards by less than a second; leap seconds count only when they lie between the two times of day.
-/
import OccurrenceQuery.Temporal.Interval

namespace OccurrenceQuery.Temporal

open OccurrenceQuery.Text

/-! ## Kinds -/

/-- Whether two temporals are of one kind; a time with an offset and one without are not. -/
def SameKind : Temporal → Temporal → Prop
  | year _, year _ => True
  | yearMonth _ _, yearMonth _ _ => True
  | date _, date _ => True
  | localTime _, localTime _ => True
  | offsetTime _ _, offsetTime _ _ => True
  | _, _ => False

theorem sameKind_iff_isSome (a b : Temporal) : SameKind a b ↔ (a.until? b).isSome = true := by
  cases a <;> cases b <;> simp [SameKind, until?]

/-- Whether two temporals can be the ends of an interval: they are of one kind, and the distance from
the first to the last is not negative. -/
def InOrder (first last : Temporal) : Prop :=
  SameKind first last ∧ ∃ distance, first.until? last = some distance ∧ 0 ≤ distance

theorem inOrder_iff (first last : Temporal) :
    InOrder first last ↔ ∃ distance, first.until? last = some distance ∧ 0 ≤ distance := by
  constructor
  · exact fun h => h.2
  · rintro ⟨distance, hd, hle⟩
    exact ⟨(sameKind_iff_isSome first last).2 (by rw [hd]; rfl), distance, hd, hle⟩

/-- The order check accepts exactly the pairs that are in order. -/
theorem checkOrder_eq_ok_iff (first last : Temporal) :
    checkOrder first last = .ok () ↔ InOrder first last := by
  rw [inOrder_iff]
  unfold checkOrder
  cases first.until? last with
  | none => simp
  | some distance =>
    by_cases hd : distance < 0
    · simp [hd, Int.not_le.2 hd]
    · simp [hd, Int.not_lt.1 hd]

/-! ## Instants -/

/-- The nanoseconds of a time from the last day before the year 1 on, in universal time. The leap
seconds before it are not counted. -/
def DateTime.nanos (t : DateTime) (offset : Int) : Int :=
  (t.date.dayNumber * 86400 + t.time.secondOfDay - offset) * nanosPerSecond + t.time.nanosecond

/-- Whether a time lies in a leap second. -/
def DateTime.IsLeap (t : DateTime) : Prop := nanosPerSecond ≤ t.time.nanosecond

theorem DateTime.isLeap_instant (t : DateTime) (offset : Int) :
    (t.instant offset).isLeap = true ↔ t.IsLeap := decide_eq_true_iff

/-- The distance of two instants is that of their nanoseconds, and a second more or less for a leap
second between them. -/
theorem DateTime.nanosTo_instant (t u : DateTime) (o p : Int) :
    (t.instant o).nanosTo (u.instant p) =
      u.nanos p - t.nanos o + Instant.leapBetween (t.instant o) (u.instant p) * nanosPerSecond := by
  have ht := Int.mul_ediv_add_emod ((t.time.secondOfDay : Int) - o) 86400
  have hu := Int.mul_ediv_add_emod ((u.time.secondOfDay : Int) - p) 86400
  simp only [Instant.nanosTo, nanos, nanosPerSecond]
  generalize Instant.leapBetween (t.instant o) (u.instant p) = leap
  simp only [instant]
  omega

theorem Instant.leapBetween_eq_zero {a b : Instant} (ha : a.isLeap = false) (hb : b.isLeap = false) :
    leapBetween a b = 0 := by
  simp [leapBetween, ha, hb]

/-- Whole seconds are not negative as long as the distance is more than a second backwards. -/
theorem Instant.secondsTo_nonneg_iff (a b : Instant) :
    0 ≤ secondsTo a b ↔ -(nanosPerSecond : Int) < nanosTo a b := by
  unfold secondsTo
  generalize nanosTo a b = n
  have h : (0 : Int) < nanosPerSecond := by decide
  by_cases hn : 0 ≤ n
  · have := Int.tdiv_nonneg hn (Int.le_of_lt h)
    omega
  · have hneg : n.tdiv nanosPerSecond = -((-n) / nanosPerSecond) := by
      rw [← Int.tdiv_eq_ediv_of_nonneg (by omega), Int.neg_tdiv, Int.neg_neg]
    rw [hneg]
    simp only [nanosPerSecond]
    omega

/-! ## Times in order -/

theorem inOrder_localTime_iff (t u : DateTime) :
    InOrder (.localTime t) (.localTime u) ↔
      -(nanosPerSecond : Int) < (t.instant 0).nanosTo (u.instant 0) := by
  simp [inOrder_iff, until?, Instant.secondsTo_nonneg_iff]

theorem inOrder_offsetTime_iff (t u : DateTime) (o p : Int) :
    InOrder (.offsetTime t o) (.offsetTime u p) ↔
      -(nanosPerSecond : Int) < (t.instant o).nanosTo (u.instant p) := by
  simp [inOrder_iff, until?, Instant.secondsTo_nonneg_iff]

/-- Outside leap seconds the distance is that of the nanoseconds. -/
theorem nanosTo_of_not_isLeap {t u : DateTime} (ht : ¬ t.IsLeap) (hu : ¬ u.IsLeap) (o p : Int) :
    (t.instant o).nanosTo (u.instant p) = u.nanos p - t.nanos o := by
  rw [DateTime.nanosTo_instant, Instant.leapBetween_eq_zero, Int.zero_mul, Int.add_zero]
  · exact Bool.eq_false_iff.2 fun h => ht ((t.isLeap_instant o).1 h)
  · exact Bool.eq_false_iff.2 fun h => hu ((u.isLeap_instant p).1 h)

theorem inOrder_self (t : Temporal) : InOrder t t := by
  have hself : ∀ i : Instant, i.secondsTo i = 0 := by
    intro i
    simp [Instant.secondsTo, Instant.nanosTo, Instant.leapBetween]
  rw [inOrder_iff]
  cases t <;> simp [until?, hself]

/-! ## Making intervals -/

namespace Interval

/-- Whether the ends of an interval, if it has both, are in order. -/
def Ordered (interval : Interval) : Prop :=
  ∀ first last, interval.first = some first → interval.last = some last → InOrder first last

theorem ordered_of_inOrder {first last : Temporal} (h : InOrder first last) :
    Ordered ⟨some first, some last⟩ := by
  rintro a b ⟨⟩ ⟨⟩
  exact h

theorem between_eq_ok_iff (first last : Temporal) (interval : Interval) :
    between first last = .ok interval ↔ InOrder first last ∧ interval = ⟨some first, some last⟩ := by
  rw [← checkOrder_eq_ok_iff]
  unfold between
  cases checkOrder first last with
  | error r => simp [bind, Except.bind]
  | ok u => simp [bind, Except.bind, pure, Except.pure, eq_comm]

theorem ofTexts_eq_ok_iff (a b : String) (interval : Interval) :
    ofTexts a b = .ok interval ↔ ∃ first last, read a = .ok first ∧ read b = .ok last ∧
      InOrder first last ∧ interval = ⟨some first, some last⟩ := by
  unfold ofTexts
  cases read a with
  | error r => simp [bind, Except.bind]
  | ok first =>
    cases read b with
    | error r => simp [bind, Except.bind]
    | ok last => simpa [bind, Except.bind] using between_eq_ok_iff first last interval

/-- A text denotes an interval when it is one temporal, or two in order with a slash between them. -/
theorem ofText_eq_ok_iff (text : String) (interval : Interval) :
    ofText text = .ok interval ↔ ∃ first last, InOrder first last ∧
      interval = ⟨some first, some last⟩ ∧ match splitFirst '/' text.toList with
        | some (a, b) => b ≠ [] ∧ read (String.ofList a) = .ok first ∧ read (String.ofList b) = .ok last
        | none => read text = .ok first ∧ read text = .ok last := by
  unfold ofText
  rcases splitFirst '/' text.toList with _ | ⟨a, b⟩
  · cases read text with
    | error r => simp [bind, Except.bind]
    | ok t =>
      have hself := inOrder_self t
      simp only [bind, Except.bind, between_eq_ok_iff]
      constructor
      · rintro ⟨-, rfl⟩
        exact ⟨t, t, hself, rfl, rfl, rfl⟩
      · rintro ⟨first, last, -, rfl, hf, hl⟩
        cases hf; cases hl
        exact ⟨hself, rfl⟩
  · cases b with
    | nil => simp
    | cons c cs =>
      simp only [ofTexts_eq_ok_iff, ne_eq, reduceCtorEq, not_false_eq_true, true_and]
      constructor
      · rintro ⟨first, last, hf, hl, ho, rfl⟩
        exact ⟨first, last, ho, rfl, hf, hl⟩
      · rintro ⟨first, last, ho, rfl, hf, hl⟩
        exact ⟨first, last, hf, hl, ho, rfl⟩

end Interval

end OccurrenceQuery.Temporal
