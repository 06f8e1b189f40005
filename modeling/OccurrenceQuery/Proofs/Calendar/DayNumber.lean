/-
The numbers of days. Days are numbered in their order, because a year has as many days as its months
and is followed by the next one.
-/
import Mathlib.Order.Monotone.Basic
import OccurrenceQuery.Proofs.Calendar.Period

namespace OccurrenceQuery.Calendar.Date

/-- The number of days in a year. -/
def daysInYear (year : Int) : Nat := if isLeapYear year then 366 else 365

/-! ## Years -/

theorem daysBeforeYear_succ (year : Int) :
    daysBeforeYear (year + 1) = daysBeforeYear year + daysInYear year := by
  have hleap : isLeapYear year = true ↔ year % 4 = 0 ∧ (year % 100 ≠ 0 ∨ year % 400 = 0) := by
    simp [isLeapYear]
  unfold daysBeforeYear daysInYear
  split
  · rename_i h
    have := hleap.1 h
    omega
  · rename_i h
    have := mt hleap.2 h
    omega

theorem monotone_daysBeforeYear : Monotone daysBeforeYear := by
  refine monotone_int_of_le_succ fun year => ?_
  rw [daysBeforeYear_succ]
  omega

theorem daysBeforeYear_le {a b : Int} (h : a < b) :
    daysBeforeYear a + daysInYear a ≤ daysBeforeYear b := by
  rw [← daysBeforeYear_succ]
  exact monotone_daysBeforeYear h

/-! ## Months -/

theorem daysBeforeMonth_succ (year : Int) {month : Nat} (h : 1 ≤ month) :
    daysBeforeMonth year (month + 1) = daysBeforeMonth year month + daysInMonth year month := by
  obtain ⟨m, rfl⟩ := Nat.exists_eq_add_of_le' h
  rfl

theorem monotone_daysBeforeMonth (year : Int) : Monotone (daysBeforeMonth year) := by
  refine monotone_nat_of_le_succ fun month => ?_
  cases month with
  | zero => exact Nat.le_refl 0
  | succ m =>
    rw [daysBeforeMonth_succ year (Nat.succ_pos m)]
    exact Nat.le_add_right ..

theorem daysBeforeMonth_le (year : Int) {m n : Nat} (hm : 1 ≤ m) (h : m < n) :
    daysBeforeMonth year m + daysInMonth year m ≤ daysBeforeMonth year n := by
  rw [← daysBeforeMonth_succ year hm]
  exact monotone_daysBeforeMonth year h

/-- The twelve months of a year are the year. -/
theorem daysBeforeMonth_thirteen (year : Int) : daysBeforeMonth year 13 = daysInYear year := by
  unfold daysInYear
  cases h : isLeapYear year <;> simp [daysBeforeMonth, daysInMonth, h]

/-! ## Days -/

/-- The number of a day in its year. -/
def dayOfYear (d : Date) : Nat := daysBeforeMonth d.year d.month + d.day

theorem dayOfYear_pos (d : Date) : 1 ≤ d.dayOfYear :=
  Nat.le_add_left_of_le d.isDate.2.2.1

theorem dayOfYear_le (d : Date) : d.dayOfYear ≤ daysInYear d.year := by
  have hmonth := daysBeforeMonth_le d.year d.isDate.1 (Nat.lt_succ_of_le d.isDate.2.1)
  have hday := d.isDate.2.2.2
  rw [daysBeforeMonth_thirteen] at hmonth
  unfold dayOfYear
  omega

theorem dayNumber_eq (d : Date) : d.dayNumber = daysBeforeYear d.year + d.dayOfYear := by
  simp [dayNumber, dayOfYear, add_assoc]

theorem dayNumber_lt {a b : Date} (h : a < b) : a.dayNumber < b.dayNumber := by
  rw [dayNumber_eq, dayNumber_eq]
  rcases (lt_iff a b).1 h with hyear | ⟨hyear, hrest⟩
  · have hyears := daysBeforeYear_le hyear
    have hb := b.dayOfYear_pos
    have ha := a.dayOfYear_le
    omega
  · have hdays : a.dayOfYear < b.dayOfYear := by
      unfold dayOfYear
      rw [← hyear]
      rcases hrest with hmonth | ⟨hmonth, hday⟩
      · have hmonths := daysBeforeMonth_le a.year a.isDate.1 hmonth
        have ha := a.isDate.2.2.2
        have hb := b.isDate.2.2.1
        omega
      · rw [hmonth]
        omega
    rw [hyear]
    omega

/-- Days are numbered in their order. -/
theorem dayNumber_le_iff {a b : Date} : a.dayNumber ≤ b.dayNumber ↔ a ≤ b := by
  constructor
  · intro hle
    by_contra hnot
    have hlt : b < a := by
      rw [lt_iff]
      rw [le_iff] at hnot
      omega
    exact absurd (dayNumber_lt hlt) (not_lt.2 hle)
  · intro hle
    rcases lt_or_eq_of_le hle with hlt | rfl
    · exact (dayNumber_lt hlt).le
    · exact le_refl _

end OccurrenceQuery.Calendar.Date
