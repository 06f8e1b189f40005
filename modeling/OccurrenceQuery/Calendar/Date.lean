/-
Days of the proleptic Gregorian calendar, their order, and their distance in days.
-/

namespace OccurrenceQuery.Calendar

/-! ## Years and months -/

/-- Whether a year has a leap day: every fourth year, except centuries not divisible by 400. -/
def isLeapYear (year : Int) : Bool := year % 4 == 0 && (year % 100 != 0 || year % 400 == 0)

/-- The number of days in a month of a year; the month is a number from 1 to 12. -/
def daysInMonth (year : Int) (month : Nat) : Nat :=
  if month = 2 then if isLeapYear year then 29 else 28
  else if month = 4 ∨ month = 6 ∨ month = 9 ∨ month = 11 then 30
  else 31

theorem daysInMonth_pos (year : Int) (month : Nat) : 1 ≤ daysInMonth year month := by
  unfold daysInMonth; split <;> split <;> omega

theorem daysInMonth_december (year : Int) : daysInMonth year 12 = 31 := by simp [daysInMonth]

/-! ## Dates -/

/-- Whether a year, month and day name a day of the calendar. -/
def IsDate (year : Int) (month day : Nat) : Prop :=
  1 ≤ month ∧ month ≤ 12 ∧ 1 ≤ day ∧ day ≤ daysInMonth year month

instance (year : Int) (month day : Nat) : Decidable (IsDate year month day) := by
  unfold IsDate; infer_instance

/-- A day of the calendar. -/
structure Date where
  year : Int
  month : Nat
  day : Nat
  isDate : IsDate year month day
deriving DecidableEq

namespace Date

/-- The day with the given year, month and day of the month, if there is one. -/
def of? (year : Int) (month day : Nat) : Option Date :=
  if h : IsDate year month day then some ⟨year, month, day, h⟩ else none

/-! ## Order -/

/-- A date is earlier than another when its year is, or its month in the same year, or its day in
the same month. -/
instance : LT Date where
  lt a b := a.year < b.year ∨
    a.year = b.year ∧ (a.month < b.month ∨ a.month = b.month ∧ a.day < b.day)

instance : LE Date where
  le a b := a.year < b.year ∨
    a.year = b.year ∧ (a.month < b.month ∨ a.month = b.month ∧ a.day ≤ b.day)

instance : DecidableLT Date := fun a b => inferInstanceAs (Decidable (a.year < b.year ∨
  a.year = b.year ∧ (a.month < b.month ∨ a.month = b.month ∧ a.day < b.day)))

instance : DecidableLE Date := fun a b => inferInstanceAs (Decidable (a.year < b.year ∨
  a.year = b.year ∧ (a.month < b.month ∨ a.month = b.month ∧ a.day ≤ b.day)))

theorem lt_iff (a b : Date) : a < b ↔ a.year < b.year ∨
    a.year = b.year ∧ (a.month < b.month ∨ a.month = b.month ∧ a.day < b.day) := Iff.rfl

theorem le_iff (a b : Date) : a ≤ b ↔ a.year < b.year ∨
    a.year = b.year ∧ (a.month < b.month ∨ a.month = b.month ∧ a.day ≤ b.day) := Iff.rfl

/-! ## Ends of periods -/

/-- The last day of the month of a date. -/
def monthEnd (d : Date) : Date :=
  ⟨d.year, d.month, daysInMonth d.year d.month,
    d.isDate.1, d.isDate.2.1, daysInMonth_pos _ _, Nat.le_refl _⟩

/-- The last day of the year of a date. -/
def yearEnd (d : Date) : Date :=
  ⟨d.year, 12, 31, by decide, by decide, by decide,
    Nat.le_of_eq (daysInMonth_december d.year).symm⟩

/-! ## Distance -/

/-- The days of the years before a year, counted from the first day of the year 1. -/
def daysBeforeYear (year : Int) : Int :=
  365 * (year - 1) + (year - 1) / 4 - (year - 1) / 100 + (year - 1) / 400

/-- The days of the months before a month of a year. -/
def daysBeforeMonth (year : Int) : Nat → Nat
  | 0 | 1 => 0
  | month + 2 => daysBeforeMonth year (month + 1) + daysInMonth year (month + 1)

/-- The number of a day, counted from the last day before the year 1. -/
def dayNumber (d : Date) : Int :=
  daysBeforeYear d.year + daysBeforeMonth d.year d.month + d.day

end Date

end OccurrenceQuery.Calendar
