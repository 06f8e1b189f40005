/-
Recognised ranges of dates. Every range of dates that is read is recognised as a range, and as a range of
dates unless white space stands at one of its ends; a text without a comma is recognised exactly when it
names a month or a year.
-/
import OccurrenceQuery.Proofs.Calendar.Span
import OccurrenceQuery.Proofs.Range.Form

namespace OccurrenceQuery.Calendar

open OccurrenceQuery.Text

/-! ## The form of dates -/

section

variable {cs : List Char}

theorem IsShort.isDigits {n : Nat} (h : IsShort cs n) : Range.isDigits cs = true :=
  Range.isDigits_iff.2 (Range.areDigits_of_isNumeral h.2.1)

/-- The text of a period has the form of a date. -/
theorem isDateForm_of_isWritten {p : Period} (h : p.IsWritten cs) : isDateForm cs = true := by
  have hyear : ∀ {y : List Char}, IsYear y p.first.year →
      y.length = 4 ∧ y.all isDecimalDigit = true := fun hy =>
    ⟨hy.1, List.all_eq_true.2 (Range.areDigits_of_isNumeral hy.2.1).2⟩
  obtain ⟨precision, first⟩ := p
  cases precision with
  | day =>
    obtain ⟨y, m, d, rfl, hy, hm, hd⟩ := h
    rw [isDateForm, splitAll_append hy.free, splitAll_append hm.free, splitAll_eq_singleton hd.free]
    simp [hyear hy, hm.1, hm.isDigits, hd.1, hd.isDigits]
  | month =>
    obtain ⟨y, m, rfl, hy, hm, -⟩ := h
    rw [isDateForm, splitAll_append hy.free, splitAll_eq_singleton hm.free]
    simp [hyear hy, hm.1, hm.isDigits]
  | year =>
    obtain ⟨hy, -⟩ := h
    rw [isDateForm, splitAll_eq_singleton hy.free]
    simp [hyear hy]

theorem mem_of_isDateForm (h : isDateForm cs = true) {c : Char} (hc : c ∈ cs) :
    isDecimalDigit c = true ∨ c = '-' := by
  unfold isDateForm at h
  split at h
  · cases h
  · rename_i y rest hparts
    simp only [Bool.and_eq_true, List.all_eq_true, Range.isDigits] at h
    rcases eq_or_mem_splitAll '-' hc with hdash | ⟨part, hpart, hmem⟩
    · exact .inr hdash
    rw [hparts] at hpart
    rcases List.mem_cons.1 hpart with rfl | hrest
    · exact .inl (h.1.1.2 c hmem)
    · exact .inl ((h.2 part hrest).2.2 c hmem)

end

/-! ## The form of ranges of dates -/

section

variable {cs : List Char}

theorem isDateSide_of_names {a : Option Period} (h : Names cs a) : isDateSide cs = true := by
  cases a with
  | none => simp [isDateSide, show cs = Range.wildcard from h]
  | some p => simp [isDateSide, isDateForm_of_isWritten h]

theorem mem_of_isDateSide (h : isDateSide cs = true) {c : Char} (hc : c ∈ cs) :
    isDecimalDigit c = true ∨ c = '-' ∨ c = '*' := by
  rcases Bool.or_eq_true_iff.1 h with hform | hwildcard
  · exact (mem_of_isDateForm hform hc).imp_right .inl
  · rw [eq_of_beq hwildcard] at hc
    exact .inr (.inr (List.mem_singleton.1 hc))

theorem ne_nil_of_isDateSide (h : isDateSide cs = true) : cs ≠ [] := by
  rintro rfl
  cases h

/-- There is no white space in a side. -/
theorem isWhiteSpace_of_isDateSide (h : isDateSide cs = true) {c : Char} (hc : c ∈ cs) :
    isWhiteSpace c = false := by
  rcases mem_of_isDateSide h hc with hdigit | rfl | rfl
  · exact isWhiteSpace_of_isDecimalDigit hdigit
  all_goals decide

end

/-! ## White space at the ends -/

/-- A text neither begins nor ends with white space. -/
def IsTrimmed (cs : List Char) : Prop :=
  (∀ c ∈ cs.head?, isWhiteSpace c = false) ∧ ∀ c ∈ cs.getLast?, isWhiteSpace c = false

section

variable {before after : List Char}

/-- The ends of a text around a comma are the outer ends of its parts. -/
theorem isTrimmed_append_iff : IsTrimmed (before ++ ',' :: after) ↔
    (∀ c ∈ before.head?, isWhiteSpace c = false) ∧ ∀ c ∈ after.getLast?, isWhiteSpace c = false := by
  have hcomma : isWhiteSpace ',' = false := by decide
  refine and_congr ?_ ?_
  · cases before with
    | nil => simp [hcomma]
    | cons c rest => simp
  · by_cases hafter : after = []
    · simp [hafter, hcomma]
    · rw [List.append_cons, List.getLast?_append_of_ne_nil _ hafter]

theorem hasSpanForm_append (h : ',' ∉ before) :
    hasSpanForm (before ++ ',' :: after) =
      (isDateSide (trimEnd before) && isDateSide (trimStart after)) := by
  rw [hasSpanForm, splitFirst_append h]

/-- Two sides around a comma have the form of a range of dates exactly when no white space is left at
the ends of the text, because white space may stand around the comma only. -/
theorem hasSpanForm_iff_isTrimmed {a b : Option Period} (h : ',' ∉ before)
    (ha : Names (trim before) a) (hb : Names (trim after) b) :
    hasSpanForm (before ++ ',' :: after) = true ↔ IsTrimmed (before ++ ',' :: after) := by
  rw [hasSpanForm_append h, isTrimmed_append_iff, Bool.and_eq_true]
  constructor
  · rintro ⟨hbefore, hafter⟩
    obtain ⟨left, hleft, -⟩ := exists_trimEnd before
    obtain ⟨right, hright, -⟩ := exists_trimStart after
    constructor
    · intro c hc
      rw [hleft, List.head?_append_of_ne_nil _ (ne_nil_of_isDateSide hbefore)] at hc
      exact isWhiteSpace_of_isDateSide hbefore (List.mem_of_mem_head? hc)
    · intro c hc
      rw [hright, List.getLast?_append_of_ne_nil _ (ne_nil_of_isDateSide hafter)] at hc
      exact isWhiteSpace_of_isDateSide hafter (List.mem_of_mem_getLast? hc)
  · rintro ⟨hfirst, hlast⟩
    rw [← trim_of_head? hfirst, ← trim_of_getLast? hlast]
    exact ⟨isDateSide_of_names ha, isDateSide_of_names hb⟩

end

/-! ## Recognition -/

variable {text : String}

theorem precisionOf_of_readPeriod {p : Period} (h : readPeriod text = .ok (some p)) :
    precisionOf text = .ok p.precision :=
  Period.precisionOf_eq_ok_iff.2 ⟨p.first, Period.readPeriod_eq_ok_some_iff.1 h⟩

theorem isSpan_iff : isSpan text = true ↔ hasSpanForm text.toList = true ∨
    ∃ p, readPeriod text = .ok (some p) ∧ (p.precision = .month ∨ p.precision = .year) := by
  rw [isSpan, Bool.or_eq_true]
  refine or_congr Iff.rfl ⟨fun h => ?_, ?_⟩
  · cases hprecision : precisionOf text with
    | error rejection => rw [hprecision] at h; cases h
    | ok precision =>
      obtain ⟨first, hwritten⟩ := Period.precisionOf_eq_ok_iff.1 hprecision
      refine ⟨⟨precision, first⟩, Period.readPeriod_eq_ok_some_iff.2 hwritten, ?_⟩
      rw [hprecision] at h
      cases precision with
      | day => cases h
      | month => exact .inl rfl
      | year => exact .inr rfl
  · rintro ⟨p, hp, hmonth | hyear⟩
    · rw [precisionOf_of_readPeriod hp, hmonth]
    · rw [precisionOf_of_readPeriod hp, hyear]

theorem comma_not_mem_of_readPeriod {p : Period} (h : readPeriod text = .ok (some p)) :
    ',' ∉ text.toList :=
  Period.not_mem_of_isWritten (Period.readPeriod_eq_ok_some_iff.1 h) (by decide)

theorem isSpan_iff_isTrimmed {r : Range Date} (h : readSpan text = .ok r) :
    isSpan text = true ↔ IsTrimmed text.toList := by
  obtain ⟨before, after, a, b, ⟨htext, hfree, -⟩, ha, hb, -⟩ := readSpan_eq_ok_iff.1 h
  rw [isSpan_iff, or_iff_left, htext, hasSpanForm_iff_isTrimmed hfree ha hb]
  -- a single month or year has no comma
  rintro ⟨p, hp, -⟩
  exact comma_not_mem_of_readPeriod hp (by simp [htext])

theorem isSpan_iff_of_comma_not_mem (h : ',' ∉ text.toList) : isSpan text = true ↔
    ∃ p, readPeriod text = .ok (some p) ∧ (p.precision = .month ∨ p.precision = .year) := by
  rw [isSpan_iff, or_iff_right]
  rw [hasSpanForm, splitFirst_eq_none h]
  exact Bool.false_ne_true

/-- A text that is read as a range of dates is recognised as a range, and as a range of dates exactly
when it neither begins nor ends with white space. A text without a comma is recognised as a range of
dates exactly when it is read as a month or a year. -/
theorem recognised_of_readSpan (text : String) :
    (∀ r, readSpan text = .ok r → isRange text = true ∧
      (isSpan text = true ↔ IsTrimmed text.toList)) ∧
    (',' ∉ text.toList → (isSpan text = true ↔
      ∃ p, readPeriod text = .ok (some p) ∧ (p.precision = .month ∨ p.precision = .year))) := by
  refine ⟨fun r h => ⟨?_, isSpan_iff_isTrimmed h⟩, isSpan_iff_of_comma_not_mem⟩
  rw [isRange, h]
  exact Bool.or_true _

/-- The range from a month on is recognised, and so is a single year. -/
theorem open_months_recognised :
    readSpan "2000-10 , *" = .ok ⟨some ⟨2000, 10, 1, by decide⟩, none⟩ ∧
    isRange "2000-10 , *" = true ∧ isSpan "2000-10 , *" = true ∧
    (isSpan "1991" = true ↔ ∃ p, readPeriod "1991" = .ok (some p) ∧
      (p.precision = .month ∨ p.precision = .year)) := by
  have hread : readSpan "2000-10 , *" = .ok ⟨some ⟨2000, 10, 1, by decide⟩, none⟩ := by rfl
  obtain ⟨hrange, hspan⟩ := (recognised_of_readSpan "2000-10 , *").1 _ hread
  refine ⟨hread, hrange, hspan.2 ⟨?_, ?_⟩, (recognised_of_readSpan "1991").2 (by decide)⟩
  · rintro c ⟨⟩
    decide
  · rintro c ⟨⟩
    decide

example : (readSpan " 2000,2001").toBool = true ∧ isSpan " 2000,2001" = false := by decide

end OccurrenceQuery.Calendar
