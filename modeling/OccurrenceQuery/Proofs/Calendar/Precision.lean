/-
Dates as they are written at a precision. What is written of a date in a year of four digits is read
at that precision and at no other, as the first day of its period; the dates that are written alike
are the days of the period, and the last of them, which is the day before the first of the next
period, is followed by a day that is written otherwise. Since no text is a date at two precisions,
it does not matter in which order they are tried.
-/
import OccurrenceQuery.Proofs.Calendar.DayNumber

namespace OccurrenceQuery.Calendar

open OccurrenceQuery.Text

/-! ## The next day -/

namespace Date

/-- The day after a day. -/
def next (d : Date) : Date :=
  if hday : d.day < daysInMonth d.year d.month then
    ⟨d.year, d.month, d.day + 1, d.isDate.1, d.isDate.2.1, Nat.le_add_left .., hday⟩
  else if hmonth : d.month < 12 then
    ⟨d.year, d.month + 1, 1, Nat.le_add_left .., hmonth, le_rfl, daysInMonth_pos ..⟩
  else ⟨d.year + 1, 1, 1, le_rfl, by decide, le_rfl, daysInMonth_pos ..⟩

theorem dayNumber_next (d : Date) : d.next.dayNumber = d.dayNumber + 1 := by
  have hlast : d.day ≤ daysInMonth d.year d.month := d.isDate.2.2.2
  unfold next
  split
  · rw [dayNumber, dayNumber]
    push_cast
    ring
  rename_i hday
  have hend : d.day = daysInMonth d.year d.month := by omega
  split
  · simp only [dayNumber, daysBeforeMonth_succ d.year d.isDate.1, hend]
    push_cast
    ring
  · rename_i hmonth
    have hdecember : d.month = 12 := by
      have := d.isDate.2.1
      omega
    have hyear : daysBeforeMonth d.year 12 + daysInMonth d.year 12 = daysInYear d.year :=
      (daysBeforeMonth_succ d.year (by decide)).symm.trans (daysBeforeMonth_thirteen d.year)
    have hnext : daysBeforeMonth (d.year + 1) 1 = 0 := rfl
    simp only [dayNumber, daysBeforeYear_succ, hend, hdecember, ← hyear, hnext]
    push_cast
    ring

theorem not_next_le (d : Date) : ¬ d.next ≤ d := by
  rw [← dayNumber_le_iff, dayNumber_next]
  omega

theorem next_injective : Function.Injective next := by
  intro d e h
  have hnumber : d.dayNumber + 1 = e.dayNumber + 1 := by rw [← dayNumber_next, ← dayNumber_next, h]
  exact le_antisymm (dayNumber_le_iff.1 (by omega)) (dayNumber_le_iff.1 (by omega))

end Date

/-! ## The last day -/

namespace Precision

/-- The first day of the day, month or year after that of a date. -/
def nextFirst (precision : Precision) (d : Date) : Date :=
  match precision with
  | .day => d.next
  | .month =>
    if hmonth : d.month < 12 then
      ⟨d.year, d.month + 1, 1, Nat.le_add_left .., hmonth, le_rfl, daysInMonth_pos ..⟩
    else ⟨d.year + 1, 1, 1, le_rfl, by decide, le_rfl, daysInMonth_pos ..⟩
  | .year => ⟨d.year + 1, 1, 1, le_rfl, by decide, le_rfl, daysInMonth_pos ..⟩

theorem next_lastDay (precision : Precision) (d : Date) :
    (precision.lastDay d).next = precision.nextFirst d := by
  cases precision with
  | day => rfl
  | month =>
    have hend : ¬ d.monthEnd.day < daysInMonth d.monthEnd.year d.monthEnd.month := lt_irrefl _
    exact dif_neg hend
  | year =>
    have hend : ¬ d.yearEnd.day < daysInMonth d.yearEnd.year d.yearEnd.month :=
      not_lt_of_ge (daysInMonth_december d.year).le
    have hdecember : ¬ d.yearEnd.month < 12 := lt_irrefl _
    exact (dif_neg hend).trans (dif_neg hdecember)

/-- The last day of a day, month or year is the one day before the first day of the next. -/
theorem next_eq_nextFirst_iff {precision : Precision} {d e : Date} :
    e.next = precision.nextFirst d ↔ e = precision.lastDay d := by
  rw [← next_lastDay, Date.next_injective.eq_iff]

end Precision

/-! ## Fields -/

/-- A year is one of those that are written in four digits, without a sign. -/
def IsPlainYear (year : Int) : Prop := 0 ≤ year ∧ year ≤ 9999

instance (year : Int) : Decidable (IsPlainYear year) :=
  inferInstanceAs (Decidable (0 ≤ year ∧ year ≤ 9999))

theorem padded_injective {width m n : ℕ} (h : padded width m = padded width n) : m = n := by
  rw [← numeralValue_padded width m, h, numeralValue_padded]

theorem isNumeral_padded {width n : ℕ} (hw : 0 < width) (hn : n < 10 ^ width) :
    isNumeral (padded width n) = true := by
  have hne : padded width n ≠ [] := List.ne_nil_of_length_pos (by rw [length_padded hw hn]; exact hw)
  simpa [isNumeral, hne] using fun c hc => isDigit_of_mem_padded hc

section

variable {year year' : Int}

theorem yearText_of_isPlainYear (h : IsPlainYear year) : yearText year = padded 4 year.toNat :=
  if_pos h

theorem length_yearText (h : IsPlainYear year) : (yearText year).length = 4 := by
  rw [yearText_of_isPlainYear h]
  exact length_padded (by decide) (by have := h.2; omega)

theorem isYear_yearText (h : IsPlainYear year) : IsYear (yearText year) year := by
  refine ⟨length_yearText h, ?_, ?_⟩
  · rw [yearText_of_isPlainYear h]
    exact isNumeral_padded (by decide) (by have := h.2; omega)
  · rw [yearText_of_isPlainYear h, numeralValue_padded]
    exact Int.toNat_of_nonneg h.1

/-- Other years have a sign in front. -/
theorem exists_sign_of_not_isPlainYear (h : ¬ IsPlainYear year) :
    ∃ c digits, yearText year = c :: digits ∧ c.isDigit = false := by
  have hsign : ¬ (0 ≤ year ∧ year ≤ 9999) := h
  rw [yearText, if_neg hsign]
  refine ⟨_, _, rfl, ?_⟩
  split <;> rfl

/-- A year of four digits can be told from every other year, whatever is written behind it. -/
theorem yearText_append_inj (h : IsPlainYear year) {rest rest' : List Char} :
    yearText year' ++ rest' = yearText year ++ rest ↔ year' = year ∧ rest' = rest := by
  refine ⟨fun heq => ?_, fun ⟨hyear, hrest⟩ => by rw [hyear, hrest]⟩
  by_cases h' : IsPlainYear year'
  · obtain ⟨hyear, hrest⟩ := List.append_inj heq ((length_yearText h').trans (length_yearText h).symm)
    rw [yearText_of_isPlainYear h, yearText_of_isPlainYear h'] at hyear
    have hnat := padded_injective hyear
    have hpos := h.1
    have hpos' := h'.1
    exact ⟨by omega, hrest⟩
  · obtain ⟨c, digits, hsign, hc⟩ := exists_sign_of_not_isPlainYear h'
    obtain ⟨c', digits', hhead⟩ := List.exists_cons_of_length_eq_add_one (length_yearText h)
    have hdigit : c'.isDigit = true :=
      isDigit_of_isNumeral (isYear_yearText h).2.1 (hhead ▸ List.mem_cons_self)
    rw [hsign, hhead] at heq
    obtain ⟨rfl, -⟩ := List.cons.inj heq
    rw [hc] at hdigit
    cases hdigit

theorem yearText_inj (h : IsPlainYear year) : yearText year' = yearText year ↔ year' = year := by
  have hyears : yearText year' ++ [] = yearText year ++ [] ↔ year' = year ∧ [] = [] :=
    yearText_append_inj h
  simpa using hyears

end

theorem isShort_padded {n : ℕ} (hn : n < 100) : IsShort (padded 2 n) n :=
  ⟨(length_padded (by decide) hn).le, isNumeral_padded (by decide) hn, numeralValue_padded 2 n⟩

theorem Date.eq_of_fields {d e : Date} (hyear : e.year = d.year) (hmonth : e.month = d.month)
    (hday : e.day = d.day) : e = d := by
  cases d
  cases e
  simp_all

theorem Date.month_lt (d : Date) : d.month < 100 := by
  have := d.isDate.2.1
  omega

theorem Date.day_lt (d : Date) : d.day < 100 := by
  have hday := d.isDate.2.2.2
  have hmonth : daysInMonth d.year d.month ≤ 31 := by
    unfold daysInMonth
    split <;> split <;> omega
  omega

/-! ## Writing -/

namespace Precision

variable {precision : Precision} {d : Date}

/-- The first day of the day, month or year of a date. -/
def firstDay (precision : Precision) (d : Date) : Date :=
  match precision with
  | .day => d
  | .month => ⟨d.year, d.month, 1, d.isDate.1, d.isDate.2.1, le_rfl, daysInMonth_pos ..⟩
  | .year => ⟨d.year, 1, 1, le_rfl, by decide, le_rfl, daysInMonth_pos ..⟩

theorem days_firstDay (precision : Precision) (d : Date) :
    (⟨precision, precision.firstDay d⟩ : Period).days = (⟨precision, d⟩ : Period).days := by
  cases precision <;> rfl

theorem isWritten_write (h : IsPlainYear d.year) :
    (⟨precision, precision.firstDay d⟩ : Period).IsWritten (precision.write d).toList := by
  cases precision with
  | day =>
    refine ⟨yearText d.year, padded 2 d.month, padded 2 d.day, ?_, isYear_yearText h,
      isShort_padded d.month_lt, isShort_padded d.day_lt⟩
    simp [write, Date.text, Date.letters, monthText]
  | month =>
    exact ⟨yearText d.year, padded 2 d.month, String.toList_ofList, isYear_yearText h,
      isShort_padded d.month_lt, rfl⟩
  | year =>
    refine ⟨?_, rfl, rfl⟩
    rw [write, String.toList_ofList]
    exact isYear_yearText h

/-- The dates that are written as a date is are the days of its period. -/
theorem write_eq_iff (h : IsPlainYear d.year) {e : Date} :
    precision.write e = precision.write d ↔ e ∈ (⟨precision, d⟩ : Period).days := by
  have hmonth : monthText e = monthText d ↔ e.year = d.year ∧ e.month = d.month := by
    rw [monthText, monthText, yearText_append_inj h, List.cons_inj_right]
    exact and_congr_right fun _ => ⟨padded_injective, fun heq => by rw [heq]⟩
  cases precision with
  | year => exact String.ofList_inj.trans (yearText_inj h)
  | month => exact String.ofList_inj.trans hmonth
  | day =>
    refine String.ofList_inj.trans ⟨fun heq => ?_, fun heq => congrArg Date.letters heq⟩
    simp only [Date.letters, monthText, List.append_assoc, List.cons_append,
      yearText_append_inj h, List.cons_inj_right] at heq
    obtain ⟨hyear, hrest⟩ := heq
    have hsame : (padded 2 e.month).length = (padded 2 d.month).length := by
      rw [length_padded (by decide) e.month_lt, length_padded (by decide) d.month_lt]
    obtain ⟨hmonths, hdays⟩ := List.append_inj hrest hsame
    exact Date.eq_of_fields hyear (padded_injective hmonths)
      (padded_injective (List.cons.inj hdays).2)

theorem isGreatest_lastDay (h : IsPlainYear d.year) :
    IsGreatest {e | precision.write e = precision.write d} (precision.lastDay d) := by
  have hdays : {e | precision.write e = precision.write d} = (⟨precision, d⟩ : Period).days :=
    Set.ext fun e => write_eq_iff h
  rw [hdays]
  exact Period.isGreatest_last ⟨precision, d⟩

/-! ## Reading -/

/-- No text is a date at two precisions. -/
theorem eq_of_read {precision' : Precision} {text : String} {first first' : Date}
    (h : precision.read text = .ok first) (h' : precision'.read text = .ok first') :
    precision = precision' := by
  rw [Period.read_eq_ok_iff] at h h'
  exact congrArg Period.precision (Period.eq_of_isWritten h h')

end Precision

/-! ## The order of the precisions -/

variable {order : List Precision} {text : String}

/-- The first precision of a list at which a text is a date. -/
def precisionAmong (order : List Precision) (text : String) : Except Rejection Precision :=
  match order.find? fun precision => (precision.read? text.toList).isSome with
  | some precision => .ok precision
  | none => .error (.value (.notValid "date" text))

/-- `readPeriod` with the precisions tried in a given order. -/
def readPeriodIn (order : List Precision) (text : String) : Except Rejection (Option Period) :=
  if text.isEmpty then .error (.value (.empty "date parameter"))
  else if text.toList = Range.wildcard then .ok none
  else do
    let precision ← precisionAmong order text
    let first ← precision.read text
    return some ⟨precision, first⟩

theorem readPeriodIn_all (text : String) : readPeriodIn Precision.all text = readPeriod text := rfl

theorem find?_eq_of_mem {precision : Precision} {first : Date} (hmem : precision ∈ order)
    (h : precision.read? text.toList = some first) :
    (order.find? fun precision => (precision.read? text.toList).isSome) = some precision := by
  cases hfind : order.find? fun precision => (precision.read? text.toList).isSome with
  | none =>
    have hnone := List.find?_eq_none.1 hfind precision hmem
    rw [h] at hnone
    exact absurd rfl hnone
  | some found =>
    have hsome : (found.read? text.toList).isSome = true := by simpa using List.find?_some hfind
    obtain ⟨first', hfound⟩ := Option.isSome_iff_exists.1 hsome
    rw [Period.read?_eq_some_iff] at h hfound
    exact congrArg (some ∘ Period.precision) (Period.eq_of_isWritten hfound h)

/-- The order in which the precisions are tried does not matter, if none is left out. -/
theorem readPeriodIn_eq (horder : ∀ precision, precision ∈ order) (text : String) :
    readPeriodIn order text = readPeriod text := by
  have hfind : (order.find? fun precision => (precision.read? text.toList).isSome) =
      Precision.all.find? fun precision => (precision.read? text.toList).isSome := by
    cases hall : Precision.all.find? fun precision => (precision.read? text.toList).isSome with
    | some precision =>
      have hsome : (precision.read? text.toList).isSome = true := by simpa using List.find?_some hall
      obtain ⟨first, hread⟩ := Option.isSome_iff_exists.1 hsome
      exact find?_eq_of_mem (horder precision) hread
    | none =>
      refine List.find?_eq_none.2 fun precision _ => List.find?_eq_none.1 hall precision ?_
      cases precision <;> decide
  rw [← readPeriodIn_all, readPeriodIn, readPeriodIn, precisionAmong, precisionAmong, hfind]

/-! ## Dates -/

/-- A date in a year of four digits is written so at a precision that the text is read at it, as the
first day of its period, and at no other precision. The last day of the period is the greatest date
that is written so: it is not before the date, it is its own last day, and the day after it is written
otherwise. No text at all is a date at two precisions, and so the order in which they are tried never
changes what is read. -/
theorem read_write :
    (∀ (d : Date) (precision : Precision), IsPlainYear d.year →
      (∃ first, IsLeast (⟨precision, d⟩ : Period).days first ∧
        precision.read (precision.write d) = .ok first ∧
        readPeriod (precision.write d) = .ok (some ⟨precision, first⟩)) ∧
      (∀ precision' first, precision'.read (precision.write d) = .ok first →
        precision' = precision) ∧
      IsGreatest {e | precision.write e = precision.write d} (precision.lastDay d) ∧
      d ≤ precision.lastDay d ∧
      precision.lastDay (precision.lastDay d) = precision.lastDay d ∧
      precision.write (precision.lastDay d).next ≠ precision.write d) ∧
    (∀ text (precision precision' : Precision) first first', precision.read text = .ok first →
      precision'.read text = .ok first' → precision = precision') ∧
    ∀ order : List Precision, order.Perm Precision.all →
      ∀ text, readPeriodIn order text = readPeriod text := by
  refine ⟨fun d precision h => ?_, fun _ _ _ _ _ => Precision.eq_of_read, fun order horder => ?_⟩
  · have hwritten : (⟨precision, precision.firstDay d⟩ : Period).IsWritten (precision.write d).toList :=
      Precision.isWritten_write h
    have hread := Period.read_eq_ok_iff.2 hwritten
    have hgreatest : IsGreatest {e | precision.write e = precision.write d} (precision.lastDay d) :=
      Precision.isGreatest_lastDay h
    refine ⟨⟨precision.firstDay d, ?_, hread, Period.readPeriod_eq_ok_some_iff.2 hwritten⟩,
      fun precision' first h' => Precision.eq_of_read h' hread, hgreatest, hgreatest.2 rfl, ?_, ?_⟩
    · rw [← Precision.days_firstDay]
      exact Period.isLeast_first hwritten
    · cases precision <;> rfl
    · exact fun hnext => Date.not_next_le _ (hgreatest.2 hnext)
  · exact readPeriodIn_eq fun precision => horder.mem_iff.2 (by cases precision <;> decide)

/-- The last February with 29 days in a year of four digits, the last month of these years, and the
coarsest precision tried first. -/
theorem read_write_february : IsPlainYear 9996 ∧
    IsGreatest {e | Precision.month.write e = "9996-02"} ⟨9996, 2, 29, by decide⟩ ∧
    (∃ first, IsLeast (⟨.month, ⟨9996, 2, 10, by decide⟩⟩ : Period).days first ∧
      Precision.month.read "9996-02" = .ok first ∧
      readPeriod "9996-02" = .ok (some ⟨.month, first⟩)) ∧
    (∀ (precision : Precision) first, precision.read "9996-2" = .ok first → precision = .month) ∧
    Precision.month.write (Precision.month.lastDay ⟨9999, 12, 5, by decide⟩).next ≠ "9999-12" ∧
    readPeriodIn [.year, .month, .day] "9996-02" = readPeriod "9996-02" := by
  obtain ⟨hwrite, hunique, horder⟩ := read_write
  have hfebruary := hwrite ⟨9996, 2, 10, by decide⟩ .month (by decide)
  have hdecember := hwrite ⟨9999, 12, 5, by decide⟩ .month (by decide)
  have hshort : Precision.month.read "9996-2" = .ok ⟨9996, 2, 1, by decide⟩ := by rfl
  exact ⟨by decide, hfebruary.2.2.1, hfebruary.1,
    fun precision first h => hunique "9996-2" precision .month first _ h hshort,
    hdecember.2.2.2.2.2, horder [.year, .month, .day] (by decide) "9996-02"⟩

end OccurrenceQuery.Calendar
