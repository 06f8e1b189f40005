/-
Temporals that are years, months or days, and the periods of the calendar. A text is read as such a
temporal exactly when it is the text of the period with all fields in full width, and two of them with a
slash between them are an interval exactly when they are a range of dates with a comma between them.
-/
import OccurrenceQuery.Proofs.Calendar.DayNumber
import OccurrenceQuery.Proofs.Calendar.Span
import OccurrenceQuery.Proofs.Temporal.RoundTrip
import OccurrenceQuery.Proofs.WhiteSpace

namespace OccurrenceQuery.Temporal

open OccurrenceQuery.Calendar OccurrenceQuery.Text

/-! ## Fields -/

/-- A field of a known width: its digits, and the number they denote. -/
def IsField (width : Nat) (cs : List Char) (n : Nat) : Prop :=
  cs.length = width ∧ isNumeral cs = true ∧ numeralValue cs = n

theorem takeNumeral_eq_some_iff_field {width n : Nat} {cs rest : List Char} (hw : 0 < width) :
    takeNumeral width cs = some (n, rest) ↔ ∃ field, IsField width field n ∧ cs = field ++ rest := by
  simp only [takeNumeral, IsField]
  constructor
  · intro h
    split at h
    · rename_i hd
      simp only [Bool.and_eq_true, decide_eq_true_eq] at hd
      obtain ⟨rfl, rfl⟩ := Prod.mk.inj (Option.some.inj h)
      have hne : cs.take width ≠ [] := List.ne_nil_of_length_pos (by omega)
      exact ⟨cs.take width, ⟨hd.1, by simp [isNumeral, hne, hd.2], rfl⟩,
        (List.take_append_drop width cs).symm⟩
    · cases h
  · rintro ⟨field, ⟨hl, hd, rfl⟩, rfl⟩
    rw [isNumeral, Bool.and_eq_true] at hd
    simp [List.take_left' hl, List.drop_left' hl, hl, hd.2]

theorem isField_four_iff {cs : List Char} {n : Nat} : IsField 4 cs n ↔ IsYear cs n := by
  simp [IsField, IsYear]

theorem isField_two_iff {cs : List Char} {n : Nat} :
    IsField 2 cs n ↔ IsShort cs n ∧ cs.length = 2 := by
  unfold IsField IsShort
  constructor
  · rintro ⟨hl, hd, hn⟩
    exact ⟨⟨hl.le, hd, hn⟩, hl⟩
  · rintro ⟨⟨-, hd, hn⟩, hl⟩
    exact ⟨hl, hd, hn⟩

/-! ## Texts of dates -/

/-- The text of a year, a month or a day, with all fields in full width. -/
inductive IsDateText : Temporal → List Char → Prop where
  | year {ys : List Char} {y : Nat} (hy : IsField 4 ys y) : IsDateText (.year y) ys
  | month {ys ms : List Char} {y m : Nat} (hy : IsField 4 ys y) (hm : IsField 2 ms m)
    (hmonth : 1 ≤ m ∧ m ≤ 12) : IsDateText (.yearMonth y m) (ys ++ '-' :: ms)
  | day {ys ms ds : List Char} {y m d : Nat} {date : Date} (hy : IsField 4 ys y)
    (hm : IsField 2 ms m) (hd : IsField 2 ds d) (hdate : Date.of? y m d = some date) :
    IsDateText (.date date) (ys ++ '-' :: (ms ++ '-' :: ds))

theorem readOnDay?_eq_some_iff {date : Date} {cs : List Char} {t : Temporal}
    (ht : t.precision ≠ .second) : readOnDay? date cs = some t ↔ cs = [] ∧ t = .date date := by
  unfold readOnDay?
  split
  · simp [eq_comm]
  · -- a time of day is finer than a day
    simp only [reduceCtorEq, false_and, iff_false]
    intro h
    obtain ⟨⟨time, rest⟩, -, h⟩ := Option.bind_eq_some_iff.1 h
    dsimp only at h
    split at h
    · cases h; exact ht rfl
    · obtain ⟨offset, -, h⟩ := Option.bind_eq_some_iff.1 h
      cases h; exact ht rfl
  · rename_i hnil _
    simpa using fun h => absurd h hnil

theorem isDateText_of_readInMonth? {ys ms cs : List Char} {y m : Nat} {t : Temporal}
    (ht : t.precision ≠ .second) (hy : IsField 4 ys y) (hm : IsField 2 ms m)
    (h : readInMonth? y m cs = some t) : IsDateText t (ys ++ '-' :: (ms ++ cs)) := by
  unfold readInMonth? at h
  split at h
  · split at h
    · rename_i hmonth
      cases h
      rw [List.append_nil]
      exact .month hy hm hmonth
    · cases h
  · obtain ⟨⟨d, rest⟩, hday, hread⟩ := Option.bind_eq_some_iff.1 h
    obtain ⟨date, hdate, hrest⟩ := Option.bind_eq_some_iff.1 hread
    obtain ⟨ds, hd, rfl⟩ := (takeNumeral_eq_some_iff_field (by decide)).1 hday
    obtain ⟨rfl, rfl⟩ := (readOnDay?_eq_some_iff ht).1 hrest
    rw [List.append_nil]
    exact .day hy hm hd hdate
  · cases h

theorem isDateText_of_read? {t : Temporal} {cs : List Char} (ht : t.precision ≠ .second)
    (h : read? cs = some t) : IsDateText t cs := by
  obtain ⟨⟨y, rest⟩, hyear, hread⟩ := Option.bind_eq_some_iff.1 h
  obtain ⟨ys, hy, rfl⟩ := (takeNumeral_eq_some_iff_field (by decide)).1 hyear
  dsimp only at hread
  unfold readInYear? at hread
  split at hread
  · cases hread
    rw [List.append_nil]
    exact .year hy
  · obtain ⟨⟨m, rest⟩, hmonth, hrest⟩ := Option.bind_eq_some_iff.1 hread
    obtain ⟨ms, hm, rfl⟩ := (takeNumeral_eq_some_iff_field (by decide)).1 hmonth
    exact isDateText_of_readInMonth? ht hy hm hrest
  · cases hread

theorem read?_of_isDateText {t : Temporal} {cs : List Char} (h : IsDateText t cs) :
    read? cs = some t := by
  have hfield : ∀ {width n : Nat} {field : List Char} (rest : List Char), 0 < width →
      IsField width field n → takeNumeral width (field ++ rest) = some (n, rest) :=
    fun rest hw hf => (takeNumeral_eq_some_iff_field hw).2 ⟨_, hf, rfl⟩
  cases h with
  | year hy =>
    have hread := hfield [] (by decide) hy
    rw [List.append_nil] at hread
    simp [read?, hread, readInYear?]
  | month hy hm hmonth =>
    have hread := hfield [] (by decide) hm
    rw [List.append_nil] at hread
    simp [read?, hfield _ _ hy, readInYear?, hread, readInMonth?, hmonth]
  | day hy hm hd hdate =>
    have hread := hfield [] (by decide) hd
    rw [List.append_nil] at hread
    simp [read?, hfield _ _ hy, readInYear?, hfield _ _ hm, readInMonth?, hread, hdate, readOnDay?]

/-- A temporal without a time of day is read from its text in full width only. -/
theorem read_eq_ok_iff_isDateText {t : Temporal} {text : String} (ht : t.precision ≠ .second) :
    read text = .ok t ↔ IsDateText t text.toList := by
  rw [read_eq_ok_iff]
  exact ⟨isDateText_of_read? ht, read?_of_isDateText⟩

/-! ## Periods -/

/-- The number of letters of a period with all its fields in full width. -/
def fullLength : Calendar.Precision → Nat
  | .year => 4
  | .month => 7
  | .day => 10

/-- A temporal stands for the period of the same precision that begins on its first day. -/
inductive StandsFor : Temporal → Period → Prop where
  | year {y : Int} {first : Date} (h : Date.of? y 1 1 = some first) :
    StandsFor (.year y) ⟨.year, first⟩
  | month {y : Int} {m : Nat} {first : Date} (h : Date.of? y m 1 = some first) :
    StandsFor (.yearMonth y m) ⟨.month, first⟩
  | day (date : Date) : StandsFor (.date date) ⟨.day, date⟩

/-- The text of a temporal is the text in full width of a period that it stands for. -/
theorem exists_period_of_isDateText {t : Temporal} {cs : List Char} (h : IsDateText t cs) :
    ∃ p, t.StandsFor p ∧ p.IsWritten cs ∧ cs.length = fullLength p.precision := by
  cases h with
  | @year _ y hy =>
    have hfirst : Date.of? y 1 1 = some ⟨y, 1, 1, by decide, by decide, by decide,
      daysInMonth_pos _ _⟩ := Date.of?_eq_some_iff.2 ⟨rfl, rfl, rfl⟩
    exact ⟨_, .year hfirst, ⟨isField_four_iff.1 hy, rfl, rfl⟩, hy.1⟩
  | @month ys ms y m hy hm hmonth =>
    have hfirst : Date.of? y m 1 = some ⟨y, m, 1, hmonth.1, hmonth.2, by decide,
      daysInMonth_pos _ _⟩ := Date.of?_eq_some_iff.2 ⟨rfl, rfl, rfl⟩
    exact ⟨_, .month hfirst, ⟨ys, ms, rfl, isField_four_iff.1 hy, (isField_two_iff.1 hm).1, rfl⟩,
      by simp [fullLength, hy.1, hm.1]⟩
  | @day ys ms ds y m d date hy hm hd hdate =>
    obtain ⟨hyear, rfl, rfl⟩ := Date.of?_eq_some_iff.1 hdate
    exact ⟨_, .day date, ⟨ys, ms, ds, rfl, hyear ▸ isField_four_iff.1 hy, (isField_two_iff.1 hm).1,
      (isField_two_iff.1 hd).1⟩, by simp [fullLength, hy.1, hm.1, hd.1]⟩

/-- The text of a period in full width is that of every temporal that stands for it. -/
theorem isDateText_of_isWritten {t : Temporal} {p : Period} {cs : List Char} (h : t.StandsFor p)
    (hp : p.IsWritten cs) (hl : cs.length = fullLength p.precision) : IsDateText t cs := by
  cases h with
  | year hfirst =>
    obtain ⟨rfl, -, -⟩ := Date.of?_eq_some_iff.1 hfirst
    obtain ⟨n, hn, -⟩ := hp.1.exists_field
    have hy : IsYear cs n := hn ▸ hp.1
    rw [← hn]
    exact .year (isField_four_iff.2 hy)
  | month hfirst =>
    obtain ⟨rfl, rfl, -⟩ := Date.of?_eq_some_iff.1 hfirst
    obtain ⟨ys, ms, rfl, hy, hm, -⟩ := hp
    obtain ⟨n, hn, -⟩ := hy.exists_field
    have hlm : ms.length = 2 := by
      simp only [List.length_append, List.length_cons, hy.1, fullLength] at hl
      omega
    rw [← hn] at hy ⊢
    exact .month (isField_four_iff.2 hy) (isField_two_iff.2 ⟨hm, hlm⟩)
      ⟨(Date.isDate _).1, (Date.isDate _).2.1⟩
  | day date =>
    obtain ⟨ys, ms, ds, rfl, hy, hm, hd⟩ := hp
    obtain ⟨n, hn, -⟩ := hy.exists_field
    have hlm : ms.length = 2 ∧ ds.length = 2 := by
      have := hm.1
      have := hd.1
      simp only [List.length_append, List.length_cons, hy.1, fullLength] at hl
      omega
    have hdate : Date.of? n date.month date.day = some date :=
      Date.of?_eq_some_iff.2 ⟨hn.symm, rfl, rfl⟩
    exact .day (isField_four_iff.2 (hn ▸ hy)) (isField_two_iff.2 ⟨hm, hlm.1⟩)
      (isField_two_iff.2 ⟨hd, hlm.2⟩) hdate

/-- A temporal without a time of day is read from the text in full width of its period. -/
theorem read_eq_ok_iff_standsFor {t : Temporal} {text : String} (ht : t.precision ≠ .second) :
    read text = .ok t ↔
      ∃ p, t.StandsFor p ∧ p.IsWritten text.toList ∧ text.length = fullLength p.precision := by
  rw [read_eq_ok_iff_isDateText ht, ← String.length_toList]
  constructor
  · exact exists_period_of_isDateText
  · rintro ⟨p, hp, hwritten, hlength⟩
    exact isDateText_of_isWritten hp hwritten hlength

/-! ## Order -/

/-- Two temporals of one precision are in order exactly when the first period does not begin after
the last day of the second. -/
theorem inOrder_iff_first_le_last {t u : Temporal} {p q : Period} (hp : t.StandsFor p)
    (hq : u.StandsFor q) (hprecision : t.precision = u.precision) :
    InOrder t u ↔ p.first ≤ q.last := by
  rw [inOrder_iff, Date.le_iff]
  cases hp with
  | year hfirst =>
    cases hq with
    | year hfirst' =>
      obtain ⟨rfl, hm, hd⟩ := Date.of?_eq_some_iff.1 hfirst
      obtain ⟨rfl, -, -⟩ := Date.of?_eq_some_iff.1 hfirst'
      simp only [until?, Option.some.injEq, exists_eq_left', Period.last, Precision.lastDay,
        Date.yearEnd]
      omega
    | month => cases hprecision
    | day => cases hprecision
  | @month _ _ first hfirst =>
    cases hq with
    | year => cases hprecision
    | @month _ _ first' hfirst' =>
      obtain ⟨rfl, rfl, hd⟩ := Date.of?_eq_some_iff.1 hfirst
      obtain ⟨rfl, rfl, -⟩ := Date.of?_eq_some_iff.1 hfirst'
      have hm := first.isDate
      have hm' := first'.isDate
      have hlast := daysInMonth_pos first'.year first'.month
      simp only [until?, Option.some.injEq, exists_eq_left', Period.last, Precision.lastDay,
        Date.monthEnd]
      unfold IsDate at hm hm'
      omega
    | day => cases hprecision
  | day d =>
    cases hq with
    | year => cases hprecision
    | month => cases hprecision
    | day d' =>
      rw [← Date.le_iff]
      simp only [until?, Option.some.injEq, exists_eq_left', sub_nonneg, Date.dayNumber_le_iff,
        Period.last, Precision.lastDay]

/-! ## Intervals and ranges -/

theorem exists_ofText_iff {a b : String} {t u : Temporal} {p : Period} (hp : p.IsWritten a.toList)
    (hb : b.toList ≠ []) (ht : read a = .ok t) (hu : read b = .ok u) :
    (∃ interval, Interval.ofText (a ++ "/" ++ b) = .ok interval) ↔ InOrder t u := by
  have hcut : splitFirst '/' (a ++ "/" ++ b).toList = some (a.toList, b.toList) := by
    rw [String.toList_append, String.toList_append, List.append_assoc]
    exact splitFirst_append (Period.not_mem_of_isWritten hp (by decide)) _
  simp only [Interval.ofText_eq_ok_iff, hcut, String.ofList_toList, ht, hu]
  constructor
  · rintro ⟨-, first, last, horder, -, -, hfirst, hlast⟩
    cases hfirst
    cases hlast
    exact horder
  · intro horder
    exact ⟨_, t, u, horder, rfl, hb, rfl, rfl⟩

theorem exists_readSpan_iff {a b : String} {p q : Period} (hp : p.IsWritten a.toList)
    (hq : q.IsWritten b.toList) :
    (∃ r, readSpan (a ++ "," ++ b) = .ok r) ↔ p.first ≤ q.last := by
  have hcut : IsCut (a ++ "," ++ b) a.toList b.toList := by
    refine ⟨?_, Period.not_mem_of_isWritten hp (by decide),
      Period.not_mem_of_isWritten hq (by decide)⟩
    rw [String.toList_append, String.toList_append, List.append_assoc]
    rfl
  have hnames : Names (trim a.toList) (some p) := by rw [Period.trim_of_isWritten hp]; exact hp
  have hnames' : Names (trim b.toList) (some q) := by rw [Period.trim_of_isWritten hq]; exact hq
  have hbetween : Range.between? (some p.first) (some q.last) = none ↔ ¬ p.first ≤ q.last := by
    rw [Range.between?_eq_none_iff, Date.le_iff]
    simp only [Option.some.injEq, Date.lt_iff]
    constructor
    · rintro ⟨first, last, rfl, rfl, hlt⟩
      omega
    · intro hnot
      exact ⟨_, _, rfl, rfl, by omega⟩
  rw [← not_iff_comm.1 hbetween.symm, ← ne_eq, Option.ne_none_iff_exists']
  simp only [readSpan_eq_ok_iff]
  constructor
  · rintro ⟨r, before, after, x, y, hcut', hx, hy, hr⟩
    obtain ⟨rfl, rfl⟩ := hcut.unique hcut'
    obtain rfl := hnames.unique hx
    obtain rfl := hnames'.unique hy
    exact ⟨r, hr⟩
  · rintro ⟨r, hr⟩
    exact ⟨r, _, _, _, _, hcut, hnames, hnames', hr⟩

/-- A text is read as a year, a month or a day exactly when it names that period in full width, and
two such texts of one precision make an interval exactly when they make a range of dates. -/
theorem read_agrees_with_periods :
    (∀ text y, read text = .ok (.year y) ↔
      ∃ first, Calendar.Precision.year.read text = .ok first ∧ Date.of? y 1 1 = some first) ∧
    (∀ text y m, read text = .ok (.yearMonth y m) ↔
      (∃ first, Calendar.Precision.month.read text = .ok first ∧ Date.of? y m 1 = some first) ∧
        text.length = 7) ∧
    (∀ text d, read text = .ok (.date d) ↔
      Calendar.Precision.day.read text = .ok d ∧ text.length = 10) ∧
    ∀ a b t u, read a = .ok t → read b = .ok u → t.precision = u.precision →
      t.precision ≠ .second →
      ((∃ interval, Interval.ofText (a ++ "/" ++ b) = .ok interval) ↔
        ∃ r, readSpan (a ++ "," ++ b) = .ok r) := by
  simp only [Period.read_eq_ok_iff]
  refine ⟨fun text y => ?_, fun text y m => ?_, fun text d => ?_, ?_⟩
  · rw [read_eq_ok_iff_standsFor (by simp [precision])]
    constructor
    · rintro ⟨_, hfirst | _, hwritten, -⟩
      exact ⟨_, hwritten, hfirst⟩
    · rintro ⟨first, hwritten, hfirst⟩
      -- a year always has four digits
      exact ⟨_, .year hfirst, hwritten, by
        rw [← String.length_toList]
        exact hwritten.1.1⟩
  · rw [read_eq_ok_iff_standsFor (by simp [precision])]
    constructor
    · rintro ⟨_, _ | hfirst, hwritten, hlength⟩
      exact ⟨⟨_, hwritten, hfirst⟩, hlength⟩
    · rintro ⟨⟨first, hwritten, hfirst⟩, hlength⟩
      exact ⟨_, .month hfirst, hwritten, hlength⟩
  · rw [read_eq_ok_iff_standsFor (by simp [precision])]
    constructor
    · rintro ⟨_, ⟨⟩, hwritten, hlength⟩
      exact ⟨hwritten, hlength⟩
    · rintro ⟨hwritten, hlength⟩
      exact ⟨_, .day d, hwritten, hlength⟩
  · intro a b t u ht hu hprecision hsecond
    obtain ⟨p, hp, hpText, -⟩ := (read_eq_ok_iff_standsFor hsecond).1 ht
    obtain ⟨q, hq, hqText, -⟩ := (read_eq_ok_iff_standsFor (hprecision ▸ hsecond)).1 hu
    rw [exists_ofText_iff hpText (Period.ne_nil_of_isWritten hqText) ht hu,
      exists_readSpan_iff hpText hqText, inOrder_iff_first_le_last hp hq hprecision]

/-- February of a leap year runs from itself to itself, as an interval and as a range. -/
theorem february_agrees_with_itself :
    read "2016-02" = .ok (.yearMonth 2016 2) ∧
    ((∃ interval, Interval.ofText ("2016-02" ++ "/" ++ "2016-02") = .ok interval) ↔
      ∃ r, readSpan ("2016-02" ++ "," ++ "2016-02") = .ok r) := by
  have hread : read "2016-02" = .ok (.yearMonth 2016 2) := by rfl
  exact ⟨hread, read_agrees_with_periods.2.2.2 _ _ _ _ hread hread rfl (by decide)⟩

end OccurrenceQuery.Temporal
