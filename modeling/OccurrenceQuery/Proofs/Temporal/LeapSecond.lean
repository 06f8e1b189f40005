/-
What leap seconds do to an interval that is written and read again. The order check counts a leap second
and the text does not have it, so the ends that are read can be a second further backwards than those that
were accepted. Reading fails only for a leap second at the end of a day in universal time, and the text
changes only for a last end that is the leap second of the first.
-/
import OccurrenceQuery.Proofs.Temporal.RoundTrip

namespace OccurrenceQuery.Temporal

open OccurrenceQuery.Calendar OccurrenceQuery.Text

/-! ## Folding instants -/

namespace Instant

/-- The nanoseconds within the second, be it a leap second or not. -/
def fraction (i : Instant) : Nat := i.nanosecond % nanosPerSecond

/-- The instant with its leap second folded into the second before. -/
def folded (i : Instant) : Instant := { i with nanosecond := i.fraction }

/-- Whether an instant can be read: its second lies within the day, and a leap second follows the last
second of a minute. -/
def IsClock (i : Instant) : Prop :=
  0 ≤ i.second ∧ i.second < 86400 ∧ i.nanosecond < 2 * nanosPerSecond ∧ (i.isLeap = true → i.second % 60 = 59)

/-- Whether the second instant is the leap second at the end of a day, and the first one lies in the next
day: in its first second, not before that fraction of the leap second, or in the second after. -/
def Overruns (i j : Instant) : Prop :=
  j.isLeap = true ∧ j.second = 86399 ∧ i.day = j.day + 1 ∧
    (i.second = 0 ∧ j.fraction ≤ i.fraction ∨ i.second = 1)

/-- The second that a leap second counts for. -/
def leapSecond (i : Instant) : Int := if i.isLeap then 1 else 0

/-- The seconds by which the distance of two instants exceeds that of the folded ones. -/
def excess (i j : Instant) : Int := leapBetween i j + j.leapSecond - i.leapSecond

theorem nanosecond_eq {i : Instant} (h : i.nanosecond < 2 * nanosPerSecond) :
    (i.nanosecond : Int) = i.leapSecond * nanosPerSecond + i.fraction := by
  by_cases hl : i.isLeap = true
  · have hle : nanosPerSecond ≤ i.nanosecond := of_decide_eq_true hl
    rw [leapSecond, if_pos hl, fraction]
    simp only [nanosPerSecond] at h hle ⊢
    omega
  · have hlt : i.nanosecond < nanosPerSecond := Nat.not_le.1 fun hle => hl (decide_eq_true hle)
    rw [leapSecond, if_neg hl, fraction, Nat.mod_eq_of_lt hlt]
    omega

theorem isLeap_folded (i : Instant) : i.folded.isLeap = false :=
  decide_eq_false (Nat.not_le.2 (Nat.mod_lt _ (by decide)))

theorem nanosTo_folded_eq (i j : Instant) : nanosTo i.folded j.folded =
    ((j.day - i.day) * 86400 + (j.second - i.second)) * nanosPerSecond + ((j.fraction : Int) - i.fraction) := by
  rw [nanosTo, leapBetween_eq_zero i.isLeap_folded j.isLeap_folded, Int.add_zero]
  rfl

theorem nanosTo_eq_folded {i j : Instant} (hi : i.IsClock) (hj : j.IsClock) :
    nanosTo i j = nanosTo i.folded j.folded + excess i j * nanosPerSecond := by
  rw [nanosTo_folded_eq, nanosTo, nanosecond_eq hi.2.2.1, nanosecond_eq hj.2.2.1, excess]
  simp only [nanosPerSecond]
  omega

/-- There is an excess, of a second, only for a leap second that the second instant lies in, later in the
day than the first one. -/
theorem excess_le (i j : Instant) :
    excess i j ≤ 0 ∨ excess i j = 1 ∧ j.isLeap = true ∧ i.second ≤ j.second := by
  unfold excess leapBetween leapSecond
  cases hi : i.isLeap <;> cases hj : j.isLeap <;>
    simp only [Bool.false_eq_true, and_false, and_true, true_and, false_and, if_false, if_true]
  · omega
  · split <;> omega
  · split <;> omega
  · split
    · omega
    · split <;> omega

/-- Instants in order come out of order by folding exactly when the one overruns the other. -/
theorem not_lt_nanosTo_folded_iff {i j : Instant} (hi : i.IsClock) (hj : j.IsClock)
    (h : -(nanosPerSecond : Int) < nanosTo i j) :
    ¬ -(nanosPerSecond : Int) < nanosTo i.folded j.folded ↔ i.Overruns j := by
  rw [nanosTo_eq_folded hi hj, nanosTo_folded_eq] at h
  rw [nanosTo_folded_eq]
  obtain ⟨hi0, hi1, -, -⟩ := hi
  obtain ⟨hj0, hj1, -, hminute⟩ := hj
  have hfi : i.fraction < nanosPerSecond := Nat.mod_lt _ (by decide)
  have hfj : j.fraction < nanosPerSecond := Nat.mod_lt _ (by decide)
  simp only [nanosPerSecond] at h hfi hfj ⊢
  unfold Overruns
  constructor
  · intro hout
    rcases excess_le i j with hle | ⟨hone, hleap, hsecond⟩
    · omega
    · rw [hone] at h
      -- the folded distance is one or two seconds backwards, and only whole minutes end in a leap second
      have hj59 := hminute hleap
      refine ⟨hleap, ?_, ?_, ?_⟩ <;> omega
  · rintro ⟨-, hsecond, hday, hnext⟩
    rw [hsecond, hday]
    omega

end Instant

/-! ## Written values -/

theorem isClock_instant {t : DateTime} {offset : Int} (ht : t.IsWritten) (ho : IsClockOffset offset) :
    (t.instant offset).IsClock := by
  refine ⟨?_, ?_, t.time.isTime.2.2.2, fun hleap => ?_⟩
  · exact Int.emod_nonneg _ (by decide)
  · exact Int.emod_lt_of_pos _ (by decide)
  · have hs : t.time.second = 59 := ht.2 ((t.isLeap_instant offset).1 hleap)
    have hm := ho.1
    simp only [DateTime.instant, TimeOfDay.secondOfDay, hs]
    omega

theorem instant_folded (t : DateTime) (offset : Int) : t.folded.instant offset = (t.instant offset).folded := rfl

/-- Whether the last end is the leap second at the end of a day in universal time, and the first one lies
in the next day: in its first second, not before that fraction of the leap second, or in the second after. -/
def Overruns : Temporal → Temporal → Prop
  | localTime t, localTime u => (t.instant 0).Overruns (u.instant 0)
  | offsetTime t o, offsetTime u p => (t.instant o).Overruns (u.instant p)
  | _, _ => False

/-- Whether the last end is the leap second that follows the first one, at the same offset. -/
def Collapses (first last : Temporal) : Prop := last.IsLeap ∧ first = last.folded

theorem not_inOrder_folded_iff {first last : Temporal} (hf : first.IsWritten) (hl : last.IsWritten)
    (h : InOrder first last) : ¬ InOrder first.folded last.folded ↔ Overruns first last := by
  have hzero : IsClockOffset 0 := ⟨rfl, by decide⟩
  cases first with
  | localTime t =>
    cases last with
    | localTime u =>
      rw [inOrder_localTime_iff] at h
      rw [folded, folded, inOrder_localTime_iff, instant_folded, instant_folded]
      exact Instant.not_lt_nanosTo_folded_iff (isClock_instant hf hzero) (isClock_instant hl hzero) h
    | _ => exact absurd h.1 id
  | offsetTime t o =>
    cases last with
    | offsetTime u p =>
      rw [inOrder_offsetTime_iff] at h
      rw [folded, folded, inOrder_offsetTime_iff, instant_folded, instant_folded]
      exact Instant.not_lt_nanosTo_folded_iff (isClock_instant hf.1 hf.2) (isClock_instant hl.1 hl.2) h
    | _ => exact absurd h.1 id
  | _ => cases last <;> first | exact absurd h.1 id | simpa [folded, Overruns] using h

/-! ## Ends that become the same -/

theorem not_isLeap_folded (t : Temporal) : ¬ t.folded.IsLeap := by
  cases t with
  | localTime t => exact t.not_isLeap_folded
  | offsetTime t offset => exact t.not_isLeap_folded
  | _ => exact id

theorem folded_folded (t : Temporal) : t.folded.folded = t.folded :=
  folded_of_not_isLeap t.not_isLeap_folded

theorem DateTime.eq_of_folded {t u : DateTime} (ht : t.IsLeap) (hu : u.IsLeap) (h : t.folded = u.folded) :
    t = u := by
  obtain ⟨d, hour, minute, second, nanosecond, hn⟩ := t
  obtain ⟨d', hour', minute', second', nanosecond', hn'⟩ := u
  simp only [DateTime.folded, TimeOfDay.folded, DateTime.mk.injEq, TimeOfDay.mk.injEq] at h
  obtain ⟨rfl, rfl, rfl, rfl, hmod⟩ := h
  have hrange := hn.2.2.2
  have hrange' := hn'.2.2.2
  simp only [DateTime.IsLeap, nanosPerSecond] at ht hu hmod hrange hrange'
  obtain rfl : nanosecond = nanosecond' := by omega
  rfl

theorem not_inOrder_folded_self {t : Temporal} (h : t.IsLeap) : ¬ InOrder t t.folded := by
  have back : ∀ (t : DateTime) (offset : Int), t.IsLeap →
      (t.instant offset).nanosTo ((t.instant offset).folded) = -(nanosPerSecond : Int) := by
    intro t offset hleap
    have hrange := t.time.isTime.2.2.2
    simp only [DateTime.IsLeap, nanosPerSecond] at hleap hrange
    simp only [Instant.nanosTo, Instant.leapBetween, Instant.folded, Instant.fraction, DateTime.instant,
      Int.lt_irrefl, false_and, if_false, nanosPerSecond]
    omega
  cases t with
  | localTime t =>
    rw [folded, inOrder_localTime_iff, instant_folded, back t 0 h]
    exact Int.lt_irrefl _
  | offsetTime t offset =>
    rw [folded, inOrder_offsetTime_iff, instant_folded, back t offset h]
    exact Int.lt_irrefl _
  | _ => cases h

/-- Two different ends in order are folded to the same value exactly when the last is the leap second
that follows the first. -/
theorem folded_eq_iff {first last : Temporal} (hne : first ≠ last) (h : InOrder first last) :
    first.folded = last.folded ↔ Collapses first last := by
  constructor
  · intro he
    have hl : last.IsLeap := by
      refine Classical.byContradiction fun hl => ?_
      rw [folded_of_not_isLeap hl] at he
      by_cases hf : first.IsLeap
      · exact not_inOrder_folded_self hf (he ▸ h)
      · exact hne (by rw [← he, folded_of_not_isLeap hf])
    refine ⟨hl, ?_⟩
    by_cases hf : first.IsLeap
    · -- folding is injective on leap seconds
      refine absurd ?_ hne
      cases first with
      | localTime t =>
        cases last with
        | localTime u => rw [DateTime.eq_of_folded hf hl (localTime.inj he)]
        | _ => cases he
      | offsetTime t o =>
        cases last with
        | offsetTime u p =>
          obtain ⟨ht, rfl⟩ := offsetTime.inj he
          rw [DateTime.eq_of_folded hf hl ht]
        | _ => cases he
      | _ => cases hf
    · rw [← he, folded_of_not_isLeap hf]
  · rintro ⟨-, rfl⟩
    exact folded_folded last

/-! ## Reading what was accepted again -/

namespace Interval

/-- The ends of an interval that is read from a text are in order, and both are written values. -/
theorem ends_of_ofText {text : String} {interval : Interval} (h : ofText text = .ok interval) :
    ∃ first last, interval = ⟨some first, some last⟩ ∧ InOrder first last ∧
      first.IsWritten ∧ last.IsWritten := by
  have written : ∀ text t, read text = .ok t → t.IsWritten := fun text t ht =>
    (read?_spec ((read_eq_ok_iff text t).1 ht)).1
  obtain ⟨first, last, ho, rfl, hread⟩ := (ofText_eq_ok_iff text interval).1 h
  refine ⟨first, last, rfl, ho, ?_⟩
  rcases hs : splitFirst '/' text.toList with _ | ⟨a, b⟩
  · rw [hs] at hread
    exact ⟨written _ _ hread.1, written _ _ hread.2⟩
  · rw [hs] at hread
    exact ⟨written _ _ hread.2.1, written _ _ hread.2.2⟩

theorem text_same (t : Temporal) : Interval.text ⟨some t, some t⟩ = t.text :=
  text_eq_of_render (render_keep_same t (some t) (by simp))

theorem text_pair {first last : Temporal} (h : first ≠ last) :
    Interval.text ⟨some first, some last⟩ = first.text ++ "/" ++ last.text :=
  text_eq_of_render (render_keep_pair (Ne.symm h))

/-- The text of two different ends is read as the folded ends unless the first overruns the last, and then
it stays the same unless they collapse. -/
theorem ofText_text_pair {first last : Temporal} (hne : first ≠ last) (h : InOrder first last)
    (hf : first.IsWritten) (hl : last.IsWritten) :
    ((∃ y, ofText (Interval.text ⟨some first, some last⟩) = .ok y) ↔ ¬ Overruns first last) ∧
      ∀ y, ofText (Interval.text ⟨some first, some last⟩) = .ok y →
        (y.text = Interval.text ⟨some first, some last⟩ ↔ ¬ Collapses first last) := by
  rw [text_pair hne, ← not_inOrder_folded_iff hf hl h, ← folded_eq_iff hne h, Classical.not_not]
  constructor
  · constructor
    · rintro ⟨y, hy⟩
      exact ((ofText_pair_eq_ok_iff hf hl y).1 hy).1
    · exact fun ho => ⟨_, (ofText_pair_eq_ok_iff hf hl _).2 ⟨ho, rfl⟩⟩
  · intro y hy
    obtain ⟨-, rfl⟩ := (ofText_pair_eq_ok_iff hf hl y).1 hy
    constructor
    · intro ht he
      -- one value has no slash in its text, and two have one
      rw [he, text_same] at ht
      have hmem : '/' ∈ last.folded.text.toList := by
        rw [ht, toList_pair]
        exact List.mem_append_right _ List.mem_cons_self
      rw [Temporal.text, String.toList_ofList] at hmem
      exact slash_not_mem_letters _ hmem
    · intro hfold
      rw [text_pair hfold, text_folded, text_folded]

end Interval

/-- An interval that was read from a text is read again from its own text, and so from its JSON form,
exactly when its first end does not overrun its last one; and its text is then the same exactly when the
last end is not the leap second after the first. -/
theorem reread_iff {text : String} {x : Interval} (h : Interval.ofText text = .ok x) :
    ∃ first last, x = ⟨some first, some last⟩ ∧
      ((∃ y, Interval.ofText x.text = .ok y) ↔ ¬ Overruns first last) ∧
      ((∃ y, Interval.ofJson x.toJson = .ok y) ↔ ¬ Overruns first last) ∧
      ((∃ y, Interval.ofText x.text = .ok y ∧ y.text = x.text) ↔
        ¬ Overruns first last ∧ ¬ Collapses first last) := by
  obtain ⟨first, last, rfl, ho, hf, hl⟩ := Interval.ends_of_ofText h
  have hread : ((∃ y, Interval.ofText (Interval.text ⟨some first, some last⟩) = .ok y) ↔
      ¬ Overruns first last) ∧
      ∀ y, Interval.ofText (Interval.text ⟨some first, some last⟩) = .ok y →
        (y.text = Interval.text ⟨some first, some last⟩ ↔ ¬ Collapses first last) := by
    by_cases hne : first = last
    · -- two equal ends are written as one, and then in order with themselves
      subst hne
      have hover : ¬ Overruns first first := fun hover =>
        (not_inOrder_folded_iff hf hf ho).2 hover (inOrder_self _)
      have hcollapse : ¬ Collapses first first := fun hc => not_isLeap_folded first (hc.2 ▸ hc.1)
      simp only [Interval.text_same, Interval.ofText_text hf, hover, hcollapse]
      refine ⟨by simp, ?_⟩
      rintro y ⟨⟩
      simp [Interval.text_same, text_folded]
    · exact Interval.ofText_text_pair hne ho hf hl
  refine ⟨first, last, rfl, hread.1, ?_, ?_⟩
  · obtain ⟨s, hs⟩ : ∃ s, Interval.render .keep ⟨some first, some last⟩ = some s := ⟨_, rfl⟩
    rw [Interval.ofJson_toJson hs, ← Interval.text_eq_of_render hs, ← hread.1]
    cases Interval.ofText (Interval.text ⟨some first, some last⟩) <;> simp [Except.mapError]
  · constructor
    · rintro ⟨y, hy, hsame⟩
      exact ⟨hread.1.1 ⟨y, hy⟩, (hread.2 y hy).1 hsame⟩
    · rintro ⟨hover, hcollapse⟩
      obtain ⟨y, hy⟩ := hread.1.2 hover
      exact ⟨y, hy, (hread.2 y hy).2 hcollapse⟩

/-- A leap second at noon is read again as the second before it. -/
theorem reread_noon : ∃ x y, Interval.ofText "2016-12-31T11:00/2016-12-31T11:59:60" = .ok x ∧
    Interval.ofText x.text = .ok y ∧ y.text = x.text := by
  have hx : Interval.ofText "2016-12-31T11:00/2016-12-31T11:59:60" = .ok
      ⟨some (.localTime ⟨⟨2016, 12, 31, by decide⟩, ⟨11, 0, 0, 0, by decide⟩⟩),
        some (.localTime ⟨⟨2016, 12, 31, by decide⟩, ⟨11, 59, 59, 1000000000, by decide⟩⟩)⟩ := rfl
  obtain ⟨first, last, he, -, -, hiff⟩ := reread_iff hx
  cases he
  obtain ⟨y, hy, hsame⟩ := hiff.2
    ⟨fun hover => absurd hover.2.1 (by decide), fun hcollapse => absurd hcollapse.2 (by decide)⟩
  exact ⟨_, y, hx, hy, hsame⟩

/-- The first second of a year is accepted after the leap second before it, and is not when both are
written and read again. -/
theorem not_reread_new_year : ∃ x, Interval.ofText "2017-01-01T00:00:00/2016-12-31T23:59:60" = .ok x ∧
    ¬ ∃ y, Interval.ofText x.text = .ok y := by
  refine ⟨_, rfl, ?_⟩
  rintro ⟨y, hy⟩
  have hrefused : ∃ rejection, Interval.ofText "2017-01-01T00:00/2016-12-31T23:59:59" = .error rejection :=
    ⟨_, rfl⟩
  obtain ⟨rejection, hr⟩ := hrefused
  have htext : Interval.ofText "2017-01-01T00:00/2016-12-31T23:59:59" = .ok y := hy
  rw [hr] at htext
  cases htext

end OccurrenceQuery.Temporal
