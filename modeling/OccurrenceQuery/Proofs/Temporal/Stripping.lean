/-
Dropping the offset that the ends of an interval share. Both clocks are then off universal time by the
same seconds, which cancel in the distance, and outside leap seconds nothing else of it depends on the
day or the minute in universal time. So the times on the clock are in order as the instants are, even
where universal time lies in another year.
-/
import OccurrenceQuery.Proofs.Temporal.Distance
import OccurrenceQuery.Proofs.Temporal.LeapSecond

namespace OccurrenceQuery.Temporal

open OccurrenceQuery.Calendar OccurrenceQuery.Text

/-! ## Plain values -/

/-- The plain values are those that can be read and lie in no leap second. -/
theorem isPlain_iff {t : Temporal} : t.IsPlain ↔ t.IsWritten ∧ ¬ t.IsLeap := by
  constructor
  · intro h
    refine ⟨h.isWritten, ?_⟩
    rw [← h.folded_eq]
    exact not_isLeap_folded t
  · rintro ⟨hw, hl⟩
    have hread : read t.text = .ok t := by rw [read_text hw, folded_of_not_isLeap hl]
    exact ⟨t.text, hread, fun hfield => hl ((read?_spec ((read_eq_ok_iff _ _).1 hread)).2.2 hfield)⟩

/-! ## Distances on the clock -/

theorem DateTime.nanos_eq (t : DateTime) (offset : Int) :
    t.nanos offset = t.nanos 0 - offset * nanosPerSecond := by
  simp only [nanos]
  ring

variable {t u : DateTime} {offset : Int} {mode : OffsetMode}

/-- Outside leap seconds two times are as far apart on the clock as at the offset that they share. -/
theorem until?_localTime_eq_offsetTime (ht : ¬ t.IsLeap) (hu : ¬ u.IsLeap) (offset : Int) :
    (localTime t).until? (localTime u) = (offsetTime t offset).until? (offsetTime u offset) := by
  have hnanos : (t.instant 0).nanosTo (u.instant 0) = (t.instant offset).nanosTo (u.instant offset) := by
    rw [nanosTo_of_not_isLeap ht hu, nanosTo_of_not_isLeap ht hu, t.nanos_eq offset, u.nanos_eq offset]
    ring
  simp only [until?, Instant.secondsTo, hnanos]

theorem inOrder_localTime_of_offsetTime (ht : ¬ t.IsLeap) (hu : ¬ u.IsLeap)
    (h : InOrder (.offsetTime t offset) (.offsetTime u offset)) :
    InOrder (.localTime t) (.localTime u) := by
  rw [inOrder_iff] at h ⊢
  rwa [until?_localTime_eq_offsetTime ht hu offset]

/-! ## Dropping offsets -/

theorem OffsetMode.drops_iff :
    mode.drops offset = true ↔ mode = .stripAll ∨ mode = .stripNonUtc ∧ offset ≠ 0 := by
  cases mode <;> simp [drops]

theorem adjustOffset_of_drops (h : mode.drops offset = true) (t : DateTime) :
    (offsetTime t offset).adjustOffset mode = localTime t :=
  if_pos h

theorem adjustOffset_of_not_drops (h : mode.drops offset = false) (t : DateTime) :
    (offsetTime t offset).adjustOffset mode = offsetTime t offset :=
  if_neg (by simp [h])

namespace Interval

/-- Whether the last end is written is settled before the offsets are dropped. That does not matter: two
ends at one offset are the same exactly when their times are. -/
theorem render_of_drops (h : mode.drops offset = true) (t u : DateTime) :
    render mode ⟨some (.offsetTime t offset), some (.offsetTime u offset)⟩ =
      render .keep ⟨some (.localTime t), some (.localTime u)⟩ := by
  by_cases he : u = t <;>
    simp [render, adjustOffset_of_drops h, adjustOffset_keep, he, Option.filter]

theorem render_of_not_drops (h : mode.drops offset = false) (t u : DateTime) :
    render mode ⟨some (.offsetTime t offset), some (.offsetTime u offset)⟩ =
      render .keep ⟨some (.offsetTime t offset), some (.offsetTime u offset)⟩ := by
  by_cases he : u = t <;>
    simp [render, adjustOffset_of_not_drops h, adjustOffset_keep, he, Option.filter]

/-- The text of an interval has a slash when its ends are written as two values. -/
theorem slash_mem_text_iff (first last : Temporal) :
    '/' ∈ (Interval.text ⟨some first, some last⟩).toList ↔ first ≠ last := by
  by_cases he : first = last
  · subst he
    simp [text_same, Temporal.text, slash_not_mem_letters]
  · simp [text_pair he, he]

end Interval

/-- An interval that was read with both ends at one offset and outside leap seconds is written without the
offset as a text that is read as the interval between the times on the clock. The distance of the ends is
the same, and the ends are written as one value if they were before. Where only the offsets other than
universal time are dropped, an interval in universal time is written as it is. -/
theorem stripped_interval {text : String} {t u : DateTime} {offset : Int} {x : Interval}
    (h : Interval.ofText text = .ok x)
    (hx : x = ⟨some (.offsetTime t offset), some (.offsetTime u offset)⟩)
    (ht : ¬ t.IsLeap) (hu : ¬ u.IsLeap) :
    (∀ mode : OffsetMode, mode = .stripAll ∨ mode = .stripNonUtc ∧ offset ≠ 0 →
      ∃ s y, x.render mode = some s ∧ Interval.ofText s = .ok y ∧
        y = ⟨some (.localTime t), some (.localTime u)⟩ ∧ y.text = s ∧
        (localTime t).until? (localTime u) = (offsetTime t offset).until? (offsetTime u offset) ∧
        ('/' ∉ y.text.toList ↔ '/' ∉ x.text.toList)) ∧
    (offset = 0 → x.render .stripNonUtc = x.render .keep) := by
  obtain ⟨first, last, he, ho, hf, hl⟩ := Interval.ends_of_ofText h
  subst hx
  cases he
  constructor
  · intro mode hmode
    have hfirst : IsPlain (.localTime t) := isPlain_iff.2 ⟨hf.1, ht⟩
    have hlast : IsPlain (.localTime u) := isPlain_iff.2 ⟨hl.1, hu⟩
    have hplain : ∀ v, Interval.IsEnd ⟨some (.localTime t), some (.localTime u)⟩ v → v.IsPlain := by
      rintro v (hv | hv)
      · cases hv; exact hfirst
      · cases hv; exact hlast
    have hordered := Interval.ordered_of_inOrder (inOrder_localTime_of_offsetTime ht hu ho)
    obtain ⟨s, ⟨_, _⟩, hs, hread, -, rfl, rfl⟩ :=
      Interval.ofText_render_of_isPlain hordered hplain rfl
    refine ⟨s, _, ?_, hread, rfl, Interval.text_eq_of_render hs,
      until?_localTime_eq_offsetTime ht hu offset, ?_⟩
    · rw [Interval.render_of_drops (OffsetMode.drops_iff.2 hmode), hs]
    · -- the ends are the same with the offset exactly when they are without it
      simp [Interval.slash_mem_text_iff]
  · rintro rfl
    exact Interval.render_of_not_drops rfl t u

/-- New year at five hours to the east of universal time, where the year before the year 0 is not over. -/
theorem stripped_year_zero :
    ∃ x y, Interval.ofText "0000-01-01T00:00+05:00/0000-01-01T04:59:59.5+05:00" = .ok x ∧
      x.render .stripAll = some "0000-01-01T00:00/0000-01-01T04:59:59.500" ∧
      Interval.ofText "0000-01-01T00:00/0000-01-01T04:59:59.500" = .ok y ∧
      y.text = "0000-01-01T00:00/0000-01-01T04:59:59.500" := by
  have hx : Interval.ofText "0000-01-01T00:00+05:00/0000-01-01T04:59:59.5+05:00" = .ok
      ⟨some (.offsetTime ⟨⟨0, 1, 1, by decide⟩, ⟨0, 0, 0, 0, by decide⟩⟩ 18000),
        some (.offsetTime ⟨⟨0, 1, 1, by decide⟩, ⟨4, 59, 59, 500000000, by decide⟩⟩ 18000)⟩ := rfl
  obtain ⟨hstrip, -⟩ := stripped_interval hx rfl (Nat.not_le.2 (by decide)) (Nat.not_le.2 (by decide))
  obtain ⟨s, y, hs, hy, -, htext, -⟩ := hstrip .stripAll (.inl rfl)
  obtain rfl : "0000-01-01T00:00/0000-01-01T04:59:59.500" = s := Option.some.inj hs
  exact ⟨_, y, hx, hs, hy, htext⟩

end OccurrenceQuery.Temporal
