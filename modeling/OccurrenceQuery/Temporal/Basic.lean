/-
Points in time as they are written, at one of five precisions: a year, a month, a day, and a time of
day without or with its offset from universal time. The distance from one temporal to another is in
whole units of their precision. Times are taken to universal time first, and a leap second takes one
second more when it lies inside the distance.
-/
import OccurrenceQuery.Calendar.Date

namespace OccurrenceQuery

open OccurrenceQuery.Calendar

namespace Temporal

/-! ## Times of day -/

/-- The number of nanoseconds in a second. -/
def nanosPerSecond : Nat := 1000000000

/-- Whether the numbers name a time of day. In a leap second the nanoseconds run on past the end of
the second. -/
def IsTime (hour minute second nanosecond : Nat) : Prop :=
  hour ≤ 23 ∧ minute ≤ 59 ∧ second ≤ 59 ∧ nanosecond < 2 * nanosPerSecond

instance (hour minute second nanosecond : Nat) :
    Decidable (IsTime hour minute second nanosecond) := by
  unfold IsTime; infer_instance

/-- A time of day. -/
structure TimeOfDay where
  hour : Nat
  minute : Nat
  second : Nat
  nanosecond : Nat
  isTime : IsTime hour minute second nanosecond
deriving DecidableEq

/-- The time of day with the given fields, if there is one. -/
def TimeOfDay.of? (hour minute second nanosecond : Nat) : Option TimeOfDay :=
  if h : IsTime hour minute second nanosecond then some ⟨hour, minute, second, nanosecond, h⟩
  else none

/-- The seconds of a time of day since midnight. -/
def TimeOfDay.secondOfDay (t : TimeOfDay) : Nat := t.hour * 3600 + t.minute * 60 + t.second

/-- A time on a day. -/
structure DateTime where
  date : Date
  time : TimeOfDay
deriving DecidableEq

end Temporal

/-! ## Temporals -/

/-- A point in time at the precision it is written at. An offset is in seconds east of universal
time; two times with different offsets are different even when they name the same instant. -/
inductive Temporal where
  | year (year : Int)
  | yearMonth (year : Int) (month : Nat)
  | date (date : Date)
  | localTime (time : Temporal.DateTime)
  | offsetTime (time : Temporal.DateTime) (offset : Int)
deriving DecidableEq

namespace Temporal

/-- How finely a temporal is given. -/
inductive Precision where
  | year
  | yearMonth
  | day
  | second
deriving DecidableEq, Repr

/-- The rank of a precision; the finer it is, the higher. -/
def Precision.rank : Precision → Nat
  | year => 0
  | yearMonth => 1
  | day => 2
  | second => 3

/-- Whether a precision is coarser than another. -/
def Precision.coarser (a b : Precision) : Bool := decide (a.rank < b.rank)

/-- The name of a precision in data. -/
def Precision.name : Precision → String
  | year => "Year"
  | yearMonth => "YearMonth"
  | day => "Day"
  | second => "Second"

/-- The precision of a temporal; all times are given to the second. -/
def precision : Temporal → Precision
  | year _ => .year
  | yearMonth _ _ => .yearMonth
  | date _ => .day
  | localTime _ => .second
  | offsetTime _ _ => .second

/-- What becomes of offsets. -/
inductive OffsetMode where
  | keep
  | stripNonUtc
  | stripAll
deriving DecidableEq, Repr

/-- Whether an offset, in seconds, is dropped. -/
def OffsetMode.drops : OffsetMode → Int → Bool
  | keep, _ => false
  | stripNonUtc, offset => offset != 0
  | stripAll, _ => true

/-- Drops the offset as told and keeps the time on the clock. -/
def adjustOffset (mode : OffsetMode) : Temporal → Temporal
  | offsetTime time offset => if mode.drops offset then localTime time else offsetTime time offset
  | t => t

/-! ## Instants -/

/-- An instant: the number of its day, the second of the day, and the nanoseconds, which reach past
the end of the second in a leap second. -/
structure Instant where
  day : Int
  second : Int
  nanosecond : Nat
deriving DecidableEq, Repr

/-- The instant of a time with the given offset, in seconds. -/
def DateTime.instant (t : DateTime) (offset : Int) : Instant :=
  let second := (t.time.secondOfDay : Int) - offset
  ⟨t.date.dayNumber + second / 86400, second % 86400, t.time.nanosecond⟩

namespace Instant

/-- Whether an instant lies in a leap second. -/
def isLeap (i : Instant) : Bool := decide (nanosPerSecond ≤ i.nanosecond)

/-- The leap second between two instants of day: one when the earlier of them lies in it. -/
def leapBetween (a b : Instant) : Int :=
  if a.second < b.second ∧ a.isLeap then 1
  else if b.second < a.second ∧ b.isLeap then -1
  else 0

/-- The nanoseconds from `a` to `b`. -/
def nanosTo (a b : Instant) : Int :=
  ((b.day - a.day) * 86400 + (b.second - a.second) + leapBetween a b) * nanosPerSecond +
    ((b.nanosecond : Int) - a.nanosecond)

/-- The whole seconds from `a` to `b`; a fraction is dropped on either side of zero. -/
def secondsTo (a b : Instant) : Int := (nanosTo a b).tdiv nanosPerSecond

end Instant

/-! ## Distances -/

/-- The whole units of precision from `a` to `b`, when they are of one kind. -/
def until? : Temporal → Temporal → Option Int
  | year a, year b => some (b - a)
  | yearMonth a m, yearMonth b n => some ((b * 12 + n) - (a * 12 + m))
  | date a, date b => some (b.dayNumber - a.dayNumber)
  | localTime a, localTime b => some ((a.instant 0).secondsTo (b.instant 0))
  | offsetTime a o, offsetTime b p => some ((a.instant o).secondsTo (b.instant p))
  | _, _ => none

end Temporal

end OccurrenceQuery
