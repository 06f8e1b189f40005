/-
Periods as sets of days, and as they are written. A text names at most one period, because the
number of its hyphens decides the precision; the period runs from the least to the greatest of its
days.
-/
import Mathlib.Order.Bounds.Basic
import OccurrenceQuery.Calendar.Period
import OccurrenceQuery.Proofs.Rejection
import OccurrenceQuery.Proofs.Text
import OccurrenceQuery.Proofs.WhiteSpace

namespace OccurrenceQuery.Calendar

open OccurrenceQuery.Text

instance : PartialOrder Date where
  le_refl a := (Date.le_iff a a).2 (by omega)
  le_trans a b c hab hbc := by rw [Date.le_iff] at *; omega
  lt_iff_le_not_ge a b := by rw [Date.lt_iff, Date.le_iff, Date.le_iff]; omega
  le_antisymm a b hab hba := by
    rw [Date.le_iff] at hab hba
    rw [Date.mk.injEq]
    omega

theorem Date.of?_eq_some_iff {year : Int} {month day : Nat} {d : Date} :
    Date.of? year month day = some d ↔ d.year = year ∧ d.month = month ∧ d.day = day := by
  obtain ⟨y, m, n, h⟩ := d
  unfold Date.of?
  split
  · simp [Date.mk.injEq, eq_comm]
  · rename_i hnot
    simp only [reduceCtorEq, false_iff]
    rintro ⟨rfl, rfl, rfl⟩
    exact hnot h

/-! ## Fields -/

/-- Four digits that stand for a year. -/
def IsYear (cs : List Char) (year : Int) : Prop :=
  cs.length = 4 ∧ isNumeral cs = true ∧ (numeralValue cs : Int) = year

/-- One or two digits that stand for a month or a day. -/
def IsShort (cs : List Char) (n : Nat) : Prop :=
  cs.length ≤ 2 ∧ isNumeral cs = true ∧ numeralValue cs = n

theorem yearField?_eq_some_iff {cs : List Char} {n : Nat} :
    Precision.yearField? cs = some n ↔ IsYear cs n := by
  simp [Precision.yearField?, IsYear, and_assoc]

theorem shortField?_eq_some_iff {cs : List Char} {n : Nat} :
    Precision.shortField? cs = some n ↔ IsShort cs n := by
  simp [Precision.shortField?, IsShort, and_assoc]

theorem IsYear.free {cs : List Char} {year : Int} (h : IsYear cs year) : '-' ∉ cs :=
  not_mem_of_isNumeral h.2.1 (by decide)

theorem IsShort.free {cs : List Char} {n : Nat} (h : IsShort cs n) : '-' ∉ cs :=
  not_mem_of_isNumeral h.2.1 (by decide)

theorem IsYear.exists_field {cs : List Char} {year : Int} (h : IsYear cs year) :
    ∃ n : Nat, (n : Int) = year ∧ Precision.yearField? cs = some n :=
  ⟨numeralValue cs, h.2.2, yearField?_eq_some_iff.2 ⟨h.1, h.2.1, rfl⟩⟩

namespace Period

/-! ## Written periods -/

/-- The text of a period has the fields of its first day, from the year up to its precision; the
fields that are not written are those of the first day of a month or year. -/
def IsWritten (p : Period) (cs : List Char) : Prop :=
  match p.precision with
  | .day => ∃ y m d, cs = y ++ '-' :: (m ++ '-' :: d) ∧
    IsYear y p.first.year ∧ IsShort m p.first.month ∧ IsShort d p.first.day
  | .month => ∃ y m, cs = y ++ '-' :: m ∧
    IsYear y p.first.year ∧ IsShort m p.first.month ∧ p.first.day = 1
  | .year => IsYear cs p.first.year ∧ p.first.month = 1 ∧ p.first.day = 1

variable {precision : Precision} {cs : List Char} {first : Date}

theorem isWritten_of_read? (h : precision.read? cs = some first) :
    IsWritten ⟨precision, first⟩ cs := by
  unfold Precision.read? at h
  split at h
  · rename_i y m d hparts
    simp only [Option.bind_eq_bind, Option.bind_eq_some_iff, yearField?_eq_some_iff,
      shortField?_eq_some_iff, Date.of?_eq_some_iff] at h
    obtain ⟨_, hy, _, hm, _, hd, hyear, hmonth, hday⟩ := h
    obtain ⟨-, after, hcs, -, hafter, -⟩ : '-' ∉ y ∧ ∃ after, cs = y ++ '-' :: after ∧ '-' ∉ m ∧
        after = m ++ '-' :: d ∧ '-' ∉ d := by
      simpa [splitAll_eq_cons_iff, splitAll_ne_nil] using hparts
    exact ⟨y, m, d, hafter ▸ hcs, hyear ▸ hy, hmonth ▸ hm, hday ▸ hd⟩
  · rename_i y m hparts
    simp only [Option.bind_eq_bind, Option.bind_eq_some_iff, yearField?_eq_some_iff,
      shortField?_eq_some_iff, Date.of?_eq_some_iff] at h
    obtain ⟨_, hy, _, hm, hyear, hmonth, hday⟩ := h
    obtain ⟨-, hcs, -⟩ : '-' ∉ y ∧ cs = y ++ '-' :: m ∧ '-' ∉ m := by
      simpa [splitAll_eq_cons_iff, splitAll_ne_nil] using hparts
    exact ⟨y, m, hcs, hyear ▸ hy, hmonth ▸ hm, hday⟩
  · rename_i y hparts
    simp only [Option.bind_eq_bind, Option.bind_eq_some_iff, yearField?_eq_some_iff,
      Date.of?_eq_some_iff] at h
    obtain ⟨_, hy, hyear, hmonth, hday⟩ := h
    obtain ⟨-, rfl⟩ : '-' ∉ y ∧ cs = y := by
      simpa [splitAll_eq_cons_iff, splitAll_ne_nil] using hparts
    exact ⟨hyear ▸ hy, hmonth, hday⟩
  · cases h

theorem read?_of_isWritten (h : IsWritten ⟨precision, first⟩ cs) :
    precision.read? cs = some first := by
  cases precision with
  | day =>
    obtain ⟨y, m, d, rfl, hy, hm, hd⟩ := h
    obtain ⟨n, hn, hfield⟩ := hy.exists_field
    have hparts : splitAll '-' (y ++ '-' :: (m ++ '-' :: d)) = [y, m, d] := by
      rw [splitAll_append hy.free, splitAll_append hm.free, splitAll_eq_singleton hd.free]
    simp [Precision.read?, hparts, hfield, shortField?_eq_some_iff.2 hm,
      shortField?_eq_some_iff.2 hd, Date.of?_eq_some_iff, hn]
  | month =>
    obtain ⟨y, m, rfl, hy, hm, hday⟩ := h
    obtain ⟨n, hn, hfield⟩ := hy.exists_field
    have hparts : splitAll '-' (y ++ '-' :: m) = [y, m] := by
      rw [splitAll_append hy.free, splitAll_eq_singleton hm.free]
    simpa [Precision.read?, hparts, hfield, shortField?_eq_some_iff.2 hm, Date.of?_eq_some_iff, hn]
      using hday
  | year =>
    obtain ⟨hy, hfirst⟩ := h
    obtain ⟨n, hn, hfield⟩ := hy.exists_field
    simpa [Precision.read?, splitAll_eq_singleton hy.free, hfield, Date.of?_eq_some_iff, hn]
      using hfirst

theorem read?_eq_some_iff : precision.read? cs = some first ↔ IsWritten ⟨precision, first⟩ cs :=
  ⟨isWritten_of_read?, read?_of_isWritten⟩

/-- The number of hyphens in the text of a period, which decides its precision. -/
theorem count_hyphens_of_isWritten {p : Period} (h : p.IsWritten cs) :
    cs.count '-' = match p.precision with
      | .day => 2
      | .month => 1
      | .year => 0 := by
  obtain ⟨precision, first⟩ := p
  cases precision with
  | day =>
    obtain ⟨y, m, d, rfl, hy, hm, hd⟩ := h
    simp [List.count_eq_zero.2 hy.free, List.count_eq_zero.2 hm.free, List.count_eq_zero.2 hd.free]
  | month =>
    obtain ⟨y, m, rfl, hy, hm, -⟩ := h
    simp [List.count_eq_zero.2 hy.free, List.count_eq_zero.2 hm.free]
  | year => exact List.count_eq_zero.2 h.1.free

/-- A text names at most one period. -/
theorem eq_of_isWritten {p q : Period} (hp : p.IsWritten cs) (hq : q.IsWritten cs) : p = q := by
  have hprecision : p.precision = q.precision := by
    have hp' := count_hyphens_of_isWritten hp
    have hq' := count_hyphens_of_isWritten hq
    cases h : p.precision <;> cases h' : q.precision <;> simp_all
  obtain ⟨precision, first⟩ := p
  obtain ⟨precision', first'⟩ := q
  obtain rfl : precision = precision' := hprecision
  rw [← read?_eq_some_iff] at hp hq
  rw [Option.some.inj (hp.symm.trans hq)]

theorem ne_nil_of_isWritten {p : Period} (h : p.IsWritten cs) : cs ≠ [] := by
  obtain ⟨precision, first⟩ := p
  cases precision with
  | day => obtain ⟨y, m, d, rfl, -⟩ := h; simp
  | month => obtain ⟨y, m, rfl, -⟩ := h; simp
  | year => rintro rfl; simp [IsWritten, IsYear] at h

theorem not_isWritten_wildcard (p : Period) : ¬ p.IsWritten Range.wildcard := by
  obtain ⟨precision, first⟩ := p
  rw [← read?_eq_some_iff]
  cases precision <;> simp [Precision.read?, Range.wildcard, splitAll, Precision.yearField?]

/-! ## Characters -/

theorem isDigit_or_eq_of_mem {p : Period} {c : Char} (h : p.IsWritten cs)
    (hc : c ∈ cs) : c.isDigit = true ∨ c = '-' := by
  obtain ⟨precision, first⟩ := p
  cases precision with
  | year => exact .inl (isDigit_of_isNumeral h.1.2.1 hc)
  | month =>
    obtain ⟨ys, ms, rfl, hy, hm, -⟩ := h
    simp only [List.mem_append, List.mem_cons] at hc
    rcases hc with hc | rfl | hc
    · exact .inl (isDigit_of_isNumeral hy.2.1 hc)
    · exact .inr rfl
    · exact .inl (isDigit_of_isNumeral hm.2.1 hc)
  | day =>
    obtain ⟨ys, ms, ds, rfl, hy, hm, hd⟩ := h
    simp only [List.mem_append, List.mem_cons] at hc
    rcases hc with hc | rfl | hc | rfl | hc
    · exact .inl (isDigit_of_isNumeral hy.2.1 hc)
    · exact .inr rfl
    · exact .inl (isDigit_of_isNumeral hm.2.1 hc)
    · exact .inr rfl
    · exact .inl (isDigit_of_isNumeral hd.2.1 hc)

/-- The text of a period holds nothing that separates it from another, and no white space. -/
theorem not_mem_of_isWritten {p : Period} (h : p.IsWritten cs) {c : Char}
    (hc : c.isDigit = false ∧ c ≠ '-') : c ∉ cs := by
  intro hmem
  rcases isDigit_or_eq_of_mem h hmem with hdigit | hdash
  · rw [hc.1] at hdigit
    cases hdigit
  · exact hc.2 hdash

theorem trim_of_isWritten {p : Period} (h : p.IsWritten cs) : trim cs = cs := by
  refine trim_of_solid fun c hc => ?_
  rcases isDigit_or_eq_of_mem h hc with hdigit | rfl
  · exact isWhiteSpace_of_isDecimalDigit (by simp [isDecimalDigit, hdigit])
  · decide

/-! ## Reading -/

theorem precisionOf_eq_ok_iff {text : String} :
    precisionOf text = .ok precision ↔ ∃ first, IsWritten ⟨precision, first⟩ text.toList := by
  unfold precisionOf
  cases hfind : Precision.all.find? fun precision => (precision.read? text.toList).isSome with
  | none =>
    simp only [reduceCtorEq, false_iff, not_exists]
    intro first h
    have hnone := List.find?_eq_none.1 hfind precision (by cases precision <;> decide)
    rw [read?_of_isWritten h] at hnone
    exact hnone rfl
  | some found =>
    have hsome : (found.read? text.toList).isSome := by simpa using List.find?_some hfind
    obtain ⟨first', hread⟩ := Option.isSome_iff_exists.1 hsome
    have hfound := isWritten_of_read? hread
    constructor
    · intro h
      exact Except.ok.inj h ▸ ⟨first', hfound⟩
    · rintro ⟨first, h⟩
      exact congrArg (Except.ok ∘ Period.precision) (eq_of_isWritten hfound h)

theorem read_eq_ok_iff {text : String} :
    precision.read text = .ok first ↔ IsWritten ⟨precision, first⟩ text.toList := by
  rw [← read?_eq_some_iff, Precision.read]
  cases precision.read? text.toList <;> simp

theorem readPeriod_eq_ok_some_iff {text : String} {p : Period} :
    readPeriod text = .ok (some p) ↔ p.IsWritten text.toList := by
  unfold readPeriod
  split
  · rename_i hempty
    rw [String.isEmpty_iff] at hempty
    simp only [reduceCtorEq, false_iff]
    exact fun h => ne_nil_of_isWritten h (String.toList_eq_nil_iff.2 hempty)
  · split
    · rename_i hwildcard
      simpa [hwildcard] using not_isWritten_wildcard p
    · simp only [bind_eq_ok_iff, precisionOf_eq_ok_iff, read_eq_ok_iff]
      constructor
      · rintro ⟨precision, -, first, h, heq⟩
        exact Option.some.inj (Except.ok.inj heq) ▸ h
      · intro h
        exact ⟨p.precision, ⟨p.first, h⟩, p.first, h, rfl⟩

theorem readPeriod_eq_ok_none_iff {text : String} :
    readPeriod text = .ok none ↔ text.toList = Range.wildcard := by
  unfold readPeriod
  split
  · rename_i hempty
    rw [String.isEmpty_iff] at hempty
    simp [hempty, Range.wildcard]
  · split
    · rename_i hwildcard
      simp [hwildcard]
    · rename_i hwildcard
      simp only [hwildcard, iff_false, bind_eq_ok_iff]
      rintro ⟨precision, -, first, -, heq⟩
      cases heq

/-! ## Days -/

/-- The days that agree with the first day of a period in all that its precision writes. -/
def days (p : Period) : Set Date :=
  match p.precision with
  | .day => {d | d = p.first}
  | .month => {d | d.year = p.first.year ∧ d.month = p.first.month}
  | .year => {d | d.year = p.first.year}

theorem isGreatest_last (p : Period) : IsGreatest p.days p.last := by
  obtain ⟨precision, first⟩ := p
  cases precision with
  | day => exact ⟨rfl, fun d hd => hd ▸ le_refl d⟩
  | month =>
    refine ⟨⟨rfl, rfl⟩, fun d ⟨hy, hm⟩ => (Date.le_iff _ _).2 ?_⟩
    have hd : d.day ≤ daysInMonth first.year first.month := hy ▸ hm ▸ d.isDate.2.2.2
    exact .inr ⟨hy, .inr ⟨hm, hd⟩⟩
  | year =>
    refine ⟨rfl, fun d hy => (Date.le_iff _ _).2 (.inr ⟨hy, ?_⟩)⟩
    have hm : d.month ≤ 12 := d.isDate.2.1
    rcases Nat.lt_or_eq_of_le hm with hlt | heq
    · exact .inl hlt
    · have hd : d.day ≤ daysInMonth d.year 12 := heq ▸ d.isDate.2.2.2
      exact .inr ⟨heq, by rwa [daysInMonth_december] at hd⟩

/-- The day that is read for a period is its first one, because the fields that are not written
are 1. -/
theorem isLeast_first {p : Period} (h : p.IsWritten cs) : IsLeast p.days p.first := by
  obtain ⟨precision, first⟩ := p
  cases precision with
  | day => exact ⟨rfl, fun d hd => hd ▸ le_refl d⟩
  | month =>
    obtain ⟨-, -, -, -, -, hday⟩ := h
    refine ⟨⟨rfl, rfl⟩, fun d ⟨hy, hm⟩ => (Date.le_iff _ _).2 (.inr ⟨hy.symm, .inr ⟨hm.symm, ?_⟩⟩)⟩
    rw [show first.day = 1 from hday]
    exact d.isDate.2.2.1
  | year =>
    obtain ⟨-, hmonth, hday⟩ := h
    refine ⟨rfl, fun d hy => (Date.le_iff _ _).2 (.inr ⟨hy.symm, ?_⟩)⟩
    have hm : 1 ≤ d.month := d.isDate.1
    have hd : 1 ≤ d.day := d.isDate.2.2.1
    rw [show first.month = 1 from hmonth, show first.day = 1 from hday]
    omega

end Period

end OccurrenceQuery.Calendar
