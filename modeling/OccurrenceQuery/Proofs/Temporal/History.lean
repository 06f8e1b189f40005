/-
The life of an interval: whatever operations it goes through, its ends stay in order, an operation that
is refused leaves both ends as they are, and an end is refused only because of the other one.
-/
import OccurrenceQuery.Proofs.Temporal.Order
import OccurrenceQuery.Temporal.Interval

namespace OccurrenceQuery.Temporal

open OccurrenceQuery.Temporal.Interval OccurrenceQuery.Text

/-! ## Work in place -/

/-- The check of a new first end: against the last one, if there is one. -/
def firstCheck (interval : Interval) (first : Temporal) : Except Rejection Unit :=
  match interval.last with
  | some last => checkOrder first last
  | none => .ok ()

/-- The check of a new last end: against the first one, if there is one. -/
def lastCheck (interval : Interval) (last : Temporal) : Except Rejection Unit :=
  match interval.first with
  | some first => checkOrder first last
  | none => .ok ()

theorem run_assign (made : Except Rejection Interval) (interval : Interval) :
    (assign made).run interval = match made with
      | .ok next => .ok () next
      | .error rejection => .error rejection interval := by
  cases made <;> rfl

theorem run_assignFirst (first : Temporal) (interval : Interval) :
    (assignFirst first).run interval = match firstCheck interval first with
      | .ok () => .ok () { interval with first := some first }
      | .error rejection => .error rejection interval := by
  obtain ⟨f, l⟩ := interval
  cases l with
  | none => rfl
  | some last =>
    show EStateM.run (do liftExcept (checkOrder first last); modify _) _ = match checkOrder first last with
      | .ok () => _
      | .error rejection => _
    cases checkOrder first last <;> rfl

theorem run_assignLast (last : Temporal) (interval : Interval) :
    (assignLast last).run interval = match lastCheck interval last with
      | .ok () => .ok () { interval with last := some last }
      | .error rejection => .error rejection interval := by
  obtain ⟨f, l⟩ := interval
  cases f with
  | none => rfl
  | some first =>
    show EStateM.run (do liftExcept (checkOrder first last); modify _) _ = match checkOrder first last with
      | .ok () => _
      | .error rejection => _
    cases checkOrder first last <;> rfl

theorem firstCheck_eq_ok_iff (interval : Interval) (first : Temporal) :
    firstCheck interval first = .ok () ↔ ∀ last, interval.last = some last → InOrder first last := by
  unfold firstCheck
  cases interval.last with
  | none => simp
  | some last => simp [checkOrder_eq_ok_iff]

theorem lastCheck_eq_ok_iff (interval : Interval) (last : Temporal) :
    lastCheck interval last = .ok () ↔ ∀ first, interval.first = some first → InOrder first last := by
  unfold lastCheck
  cases interval.first with
  | none => simp
  | some first => simp [checkOrder_eq_ok_iff]

/-! ## What an operation brings in -/

/-- Whether a temporal is an end of an interval. -/
def Interval.IsEnd (interval : Interval) (t : Temporal) : Prop :=
  interval.first = some t ∨ interval.last = some t

namespace Operation

/-- Whether a temporal is among the values that an operation is given or reads. -/
def Brings : Operation → Temporal → Prop
  | empty, _ => False
  | single value, t => t = value
  | between first last, t => t = first ∨ t = last
  | ofText text, t =>
    match splitFirst '/' text.toList with
    | some (first, last) => read (String.ofList first) = .ok t ∨ read (String.ofList last) = .ok t
    | none => read text = .ok t
  | ofTexts first last, t => read first = .ok t ∨ read last = .ok t
  | setFirst first, t => t = first
  | setLast last, t => t = last

/-! ## What a step does -/

/-- What an operation may make anew: an interval in order between values that it brings in. -/
def Makes (operation : Operation) (next : Interval) : Prop :=
  next.Ordered ∧ ∀ t, next.IsEnd t → operation.Brings t

theorem makes_pair {operation : Operation} {first last : Temporal} (h : InOrder first last)
    (hf : operation.Brings first) (hl : operation.Brings last) :
    operation.Makes ⟨some first, some last⟩ := by
  refine ⟨ordered_of_inOrder h, fun t ht => ?_⟩
  rcases ht with ht | ht
  · exact Option.some.inj ht ▸ hf
  · exact Option.some.inj ht ▸ hl

/-- An operation makes an interval anew, or replaces an end. -/
theorem edit_cases (operation : Operation) :
    (∃ made : Except Rejection Interval, operation.edit = assign made ∧
      (∀ next, made = .ok next → operation.Makes next) ∧
      (∀ t, operation ≠ setFirst t) ∧ ∀ t, operation ≠ setLast t) ∨
    (∃ first, operation = setFirst first) ∨ ∃ last, operation = setLast last := by
  cases operation with
  | empty =>
    refine .inl ⟨_, rfl, ?_, by simp, by simp⟩
    rintro _ ⟨⟩
    refine ⟨by rintro a b ⟨⟩, fun t ht => ?_⟩
    rcases ht with ht | ht <;> cases ht
  | single value =>
    refine .inl ⟨_, rfl, ?_, by simp, by simp⟩
    rintro _ ⟨⟩
    refine ⟨by rintro a b - ⟨⟩, fun t ht => ?_⟩
    rcases ht with ht | ht <;> cases ht
    rfl
  | between first last =>
    refine .inl ⟨_, rfl, fun next h => ?_, by simp, by simp⟩
    obtain ⟨ho, rfl⟩ := (between_eq_ok_iff first last next).1 h
    exact makes_pair ho (.inl rfl) (.inr rfl)
  | ofText text =>
    refine .inl ⟨_, rfl, fun next h => ?_, by simp, by simp⟩
    obtain ⟨first, last, ho, rfl, hread⟩ := (ofText_eq_ok_iff text next).1 h
    cases hs : splitFirst '/' text.toList with
    | none =>
      rw [hs] at hread
      exact makes_pair ho (by simp only [Brings, hs]; exact hread.1) (by simp only [Brings, hs]; exact hread.2)
    | some parts =>
      rw [hs] at hread
      exact makes_pair ho (by simp only [Brings, hs]; exact .inl hread.2.1)
        (by simp only [Brings, hs]; exact .inr hread.2.2)
  | ofTexts a b =>
    refine .inl ⟨_, rfl, fun next h => ?_, by simp, by simp⟩
    obtain ⟨first, last, hf, hl, ho, rfl⟩ := (ofTexts_eq_ok_iff a b next).1 h
    exact makes_pair ho (.inl hf) (.inr hl)
  | setFirst first => exact .inr (.inl ⟨first, rfl⟩)
  | setLast last => exact .inr (.inr ⟨last, rfl⟩)

/-- What an operation does to an interval: it is refused, and the interval stays as it is, or it makes
an interval in order, or it replaces an end by one that passes the check against the other end. -/
theorem step_cases (operation : Operation) (interval : Interval) :
    (∃ rejection, operation.edit.run interval = .error rejection interval ∧
      (∀ t, operation = setFirst t → firstCheck interval t = .error rejection) ∧
      ∀ t, operation = setLast t → lastCheck interval t = .error rejection) ∨
    (∃ next, operation.edit.run interval = .ok () next ∧ operation.Makes next ∧
      (∀ t, operation ≠ setFirst t) ∧ ∀ t, operation ≠ setLast t) ∨
    (∃ first, operation = setFirst first ∧ firstCheck interval first = .ok () ∧
      operation.edit.run interval = .ok () { interval with first := some first }) ∨
    (∃ last, operation = setLast last ∧ lastCheck interval last = .ok () ∧
      operation.edit.run interval = .ok () { interval with last := some last }) := by
  -- an interval is made before it is assigned, and an end is checked before
  rcases edit_cases operation with ⟨made, he, ho, hf, hl⟩ | ⟨first, rfl⟩ | ⟨last, rfl⟩
  · have hrun := run_assign made interval
    rw [← he] at hrun
    cases made with
    | error r => exact .inl ⟨r, hrun, fun t ht => absurd ht (hf t), fun t ht => absurd ht (hl t)⟩
    | ok next => exact .inr (.inl ⟨next, hrun, ho next rfl, hf, hl⟩)
  · have hrun : (setFirst first).edit.run interval = _ := run_assignFirst first interval
    cases hc : firstCheck interval first with
    | error r => rw [hc] at hrun; exact .inl ⟨r, hrun, by rintro t ⟨⟩; exact hc, by rintro t ⟨⟩⟩
    | ok u => rw [hc] at hrun; exact .inr (.inr (.inl ⟨first, rfl, hc, hrun⟩))
  · have hrun : (setLast last).edit.run interval = _ := run_assignLast last interval
    cases hc : lastCheck interval last with
    | error r => rw [hc] at hrun; exact .inl ⟨r, hrun, by rintro t ⟨⟩, by rintro t ⟨⟩; exact hc⟩
    | ok u => rw [hc] at hrun; exact .inr (.inr (.inr ⟨last, rfl, hc, hrun⟩))

/-! ## Every step -/

theorem ordered_after (operation : Operation) {interval : Interval} (h : interval.Ordered) :
    (operation.after interval).Ordered := by
  rcases step_cases operation interval with ⟨r, hr, -⟩ | ⟨next, hr, ho, -⟩ | ⟨t, -, hc, hr⟩ | ⟨t, -, hc, hr⟩
  · rw [after, hr]; exact h
  · rw [after, hr]; exact ho.1
  · rw [after, hr]
    rintro first last ⟨⟩ hl
    exact (firstCheck_eq_ok_iff interval t).1 hc last hl
  · rw [after, hr]
    rintro first last hf ⟨⟩
    exact (lastCheck_eq_ok_iff interval t).1 hc first hf

theorem ordered_afterAll (operations : List Operation) {interval : Interval} (h : interval.Ordered) :
    (afterAll operations interval).Ordered := by
  induction operations generalizing interval with
  | nil => exact h
  | cons operation operations ih => exact ih (ordered_after operation h)

theorem isEnd_after {operation : Operation} {interval : Interval} {t : Temporal}
    (h : (operation.after interval).IsEnd t) : interval.IsEnd t ∨ operation.Brings t := by
  rcases step_cases operation interval with ⟨r, hr, -⟩ | ⟨next, hr, hm, -⟩ | ⟨u, rfl, -, hr⟩ | ⟨u, rfl, -, hr⟩
  · rw [after, hr] at h; exact .inl h
  · rw [after, hr] at h; exact .inr (hm.2 t h)
  · rw [after, hr] at h
    rcases h with hf | hl
    · exact .inr (Option.some.inj hf).symm
    · exact .inl (.inr hl)
  · rw [after, hr] at h
    rcases h with hf | hl
    · exact .inl (.inl hf)
    · exact .inr (Option.some.inj hl).symm

/-- An end after a run was an end before, or one of the operations has brought it in. -/
theorem isEnd_afterAll {operations : List Operation} {interval : Interval} {t : Temporal}
    (h : (afterAll operations interval).IsEnd t) :
    interval.IsEnd t ∨ ∃ operation ∈ operations, operation.Brings t := by
  induction operations generalizing interval with
  | nil => exact .inl h
  | cons operation operations ih =>
    rcases ih h with hend | ⟨other, hmem, hb⟩
    · rcases isEnd_after hend with hend | hb
      · exact .inl hend
      · exact .inr ⟨operation, List.mem_cons_self, hb⟩
    · exact .inr ⟨other, List.mem_cons_of_mem operation hmem, hb⟩

theorem after_of_refused (operation : Operation) (interval : Interval)
    (h : (operation.refusal? interval).isSome = true) : operation.after interval = interval := by
  rcases step_cases operation interval with ⟨r, hr, -⟩ | ⟨next, hr, -⟩ | ⟨t, -, -, hr⟩ | ⟨t, -, -, hr⟩
  · rw [after, hr]
  all_goals rw [refusal?, hr] at h; cases h

theorem refused_setFirst_iff (first : Temporal) (interval : Interval) :
    ((setFirst first).refusal? interval).isSome = true ↔
      ∃ last, interval.last = some last ∧ ¬ InOrder first last := by
  have hc := firstCheck_eq_ok_iff interval first
  rcases step_cases (setFirst first) interval with
    ⟨r, hr, hf, -⟩ | ⟨_, _, _, hf, -⟩ | ⟨t, ht, hok, hr⟩ | ⟨t, ht, -⟩
  · rw [hf first rfl] at hc
    simp only [reduceCtorEq, false_iff, Classical.not_forall] at hc
    simpa [refusal?, hr] using hc
  · exact absurd rfl (hf first)
  · cases ht
    rw [hok] at hc
    simpa [refusal?, hr] using hc
  · cases ht

theorem refused_setLast_iff (last : Temporal) (interval : Interval) :
    ((setLast last).refusal? interval).isSome = true ↔
      ∃ first, interval.first = some first ∧ ¬ InOrder first last := by
  have hc := lastCheck_eq_ok_iff interval last
  rcases step_cases (setLast last) interval with
    ⟨r, hr, -, hl⟩ | ⟨_, _, _, -, hl⟩ | ⟨t, ht, -⟩ | ⟨t, ht, hok, hr⟩
  · rw [hl last rfl] at hc
    simp only [reduceCtorEq, false_iff, Classical.not_forall] at hc
    simpa [refusal?, hr] using hc
  · exact absurd rfl (hl last)
  · cases ht
  · cases ht
    rw [hok] at hc
    simpa [refusal?, hr] using hc

theorem after_setFirst (first : Temporal) (interval : Interval)
    (h : (setFirst first).refusal? interval = none) :
    (setFirst first).after interval = { interval with first := some first } := by
  rcases step_cases (setFirst first) interval with ⟨r, hr, -⟩ | ⟨_, _, _, hf, -⟩ | ⟨t, ht, -, hr⟩ | ⟨t, ht, -⟩
  · rw [refusal?, hr] at h; cases h
  · exact absurd rfl (hf first)
  · cases ht; rw [after, hr]
  · cases ht

theorem after_setLast (last : Temporal) (interval : Interval)
    (h : (setLast last).refusal? interval = none) :
    (setLast last).after interval = { interval with last := some last } := by
  rcases step_cases (setLast last) interval with ⟨r, hr, -⟩ | ⟨_, _, _, -, hl⟩ | ⟨t, ht, -⟩ | ⟨t, ht, -, hr⟩
  · rw [refusal?, hr] at h; cases h
  · exact absurd rfl (hl last)
  · cases ht
  · cases ht; rw [after, hr]

/-! ## Every history -/

/-- After any operations from the empty interval on, and after any further one: the ends are in order, a
refused operation has changed nothing, a new end is refused exactly when it is out of order with the other
end, and otherwise it is all that changes. Times outside leap seconds are in order exactly when the last is
less than a second before the first. -/
theorem history_ordered (operations : List Operation) :
    let before := afterAll operations Interval.empty
    (∀ operation : Operation, (operation.after before).Ordered ∧
      ((operation.refusal? before).isSome = true → operation.after before = before)) ∧
    (∀ first : Temporal,
      ((setFirst first).refusal? before = none →
        (setFirst first).after before = { before with first := some first }) ∧
      (((setFirst first).refusal? before).isSome = true ↔
        ∃ last, before.last = some last ∧ ¬ InOrder first last)) ∧
    (∀ last : Temporal,
      ((setLast last).refusal? before = none →
        (setLast last).after before = { before with last := some last }) ∧
      (((setLast last).refusal? before).isSome = true ↔
        ∃ first, before.first = some first ∧ ¬ InOrder first last)) ∧
    ∀ t u : DateTime, ¬ t.IsLeap → ¬ u.IsLeap → ∀ o p : Int,
      (InOrder (.localTime t) (.localTime u) ↔ -(nanosPerSecond : Int) < u.nanos 0 - t.nanos 0) ∧
      (InOrder (.offsetTime t o) (.offsetTime u p) ↔
        -(nanosPerSecond : Int) < u.nanos p - t.nanos o) := by
  intro before
  have hempty : Interval.empty.Ordered := by rintro _ _ ⟨⟩
  have hbefore : before.Ordered := ordered_afterAll operations hempty
  refine ⟨fun operation => ?_, fun first => ?_, fun last => ?_, fun t u ht hu o p => ?_⟩
  · exact ⟨ordered_after operation hbefore, after_of_refused operation before⟩
  · exact ⟨after_setFirst first before, refused_setFirst_iff first before⟩
  · exact ⟨after_setLast last before, refused_setLast_iff last before⟩
  · rw [inOrder_localTime_iff, inOrder_offsetTime_iff, nanosTo_of_not_isLeap ht hu,
      nanosTo_of_not_isLeap ht hu]
    exact ⟨Iff.rfl, Iff.rfl⟩

end Operation

end OccurrenceQuery.Temporal
