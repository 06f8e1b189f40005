/-
The texts of temporals: 1991, 1991-02, 1991-02-03 and 1991-02-03T04:05:06.789+01:00, where the
seconds, the fraction and the offset can be absent. All fields that are read have a fixed width, in
ASCII digits. Seconds are written when they or the fraction are not zero, and the fraction in three,
six or nine digits, as few as it needs. A leap second is written as the second before it.
-/
import OccurrenceQuery.Calendar.Period
import OccurrenceQuery.Rejection
import OccurrenceQuery.Temporal.Basic
import OccurrenceQuery.Text.Basic

namespace OccurrenceQuery.Temporal

open OccurrenceQuery.Calendar OccurrenceQuery.Text

/-! ## Reading times of day -/

/-- Takes a fraction of a second off the front, in nanoseconds; it has up to nine digits. -/
def takeFraction : List Char → Option (Nat × List Char)
  | '.' :: cs =>
    let digits := cs.takeWhile Char.isDigit
    if 1 ≤ digits.length ∧ digits.length ≤ 9 then
      some (numeralValue digits * Nat.pow 10 (9 - digits.length), cs.dropWhile Char.isDigit)
    else none
  | cs => some (0, cs)

/-- Takes the seconds and nanoseconds off the front; without them the minute is full. -/
def takeSeconds : List Char → Option ((Nat × Nat) × List Char)
  | ':' :: cs => do
    let (second, cs) ← takeNumeral 2 cs
    let (nanosecond, cs) ← takeFraction cs
    return ((second, nanosecond), cs)
  | cs => some ((0, 0), cs)

/-- The time of day with the fields as they are written: second 60 is a leap second, which runs on
after second 59. -/
def writtenTime? (hour minute second nanosecond : Nat) : Option TimeOfDay :=
  if nanosPerSecond ≤ nanosecond then none
  else if second = 60 then TimeOfDay.of? hour minute 59 (nanosPerSecond + nanosecond)
  else TimeOfDay.of? hour minute second nanosecond

/-- Takes a time of day off the front. -/
def takeTime (cs : List Char) : Option (TimeOfDay × List Char) := do
  let (hour, ':' :: cs) ← takeNumeral 2 cs | none
  let (minute, cs) ← takeNumeral 2 cs
  let ((second, nanosecond), cs) ← takeSeconds cs
  return (← writtenTime? hour minute second nanosecond, cs)

/-! ## Reading offsets -/

/-- The seconds of an offset of hours and minutes, at most 18:59. -/
def readHours? (cs : List Char) : Option Nat := do
  let (hours, ':' :: cs) ← takeNumeral 2 cs | none
  let (minutes, []) ← takeNumeral 2 cs | none
  if hours ≤ 18 ∧ minutes ≤ 59 then some (hours * 3600 + minutes * 60) else none

/-- The offset that a text denotes, in seconds. -/
def readOffset? : List Char → Option Int
  | ['Z'] => some 0
  | '+' :: cs => (readHours? cs).map fun seconds => (seconds : Int)
  | '-' :: cs => (readHours? cs).map fun seconds => -(seconds : Int)
  | _ => none

/-! ## Reading temporals -/

/-- What follows the day: nothing, or a time of day, or one with an offset. -/
def readOnDay? (day : Date) : List Char → Option Temporal
  | [] => some (.date day)
  | 'T' :: cs => do
    let (time, cs) ← takeTime cs
    if cs.isEmpty then return .localTime ⟨day, time⟩
    else return .offsetTime ⟨day, time⟩ (← readOffset? cs)
  | _ => none

/-- What follows the month: nothing or the day. -/
def readInMonth? (year : Int) (month : Nat) : List Char → Option Temporal
  | [] => if 1 ≤ month ∧ month ≤ 12 then some (.yearMonth year month) else none
  | '-' :: cs => do
    let (day, cs) ← takeNumeral 2 cs
    readOnDay? (← Date.of? year month day) cs
  | _ => none

/-- What follows the year: nothing or the month. -/
def readInYear? (year : Int) : List Char → Option Temporal
  | [] => some (.year year)
  | '-' :: cs => do
    let (month, cs) ← takeNumeral 2 cs
    readInMonth? year month cs
  | _ => none

/-- The temporal that the whole text denotes. -/
def read? (cs : List Char) : Option Temporal := do
  let (y, cs) ← takeNumeral 4 cs
  readInYear? y cs

/-- `read?` with the complaint that the text is no temporal. -/
def read (text : String) : Except Rejection Temporal :=
  match read? text.toList with
  | some t => .ok t
  | none => .error (.value (.notTemporal text))

/-! ## Writing times of day -/

/-- A fraction of a second, given in nanoseconds, in as many groups of three digits as it needs. -/
def fractionText (nanosecond : Nat) : List Char :=
  if nanosecond = 0 then []
  else if nanosecond % 1000000 = 0 then '.' :: padded 3 (nanosecond / 1000000)
  else if nanosecond % 1000 = 0 then '.' :: padded 6 (nanosecond / 1000)
  else '.' :: padded 9 nanosecond

/-- The seconds and their fraction, unless both are zero. -/
def secondsText (second nanosecond : Nat) : List Char :=
  if second = 0 ∧ nanosecond = 0 then []
  else ':' :: padded 2 second ++ fractionText nanosecond

/-- A time on a day, without an offset. -/
def DateTime.letters (t : DateTime) : List Char :=
  t.date.letters ++ 'T' :: padded 2 t.time.hour ++ ':' :: padded 2 t.time.minute ++
    secondsText t.time.second (t.time.nanosecond % nanosPerSecond)

/-- An offset of hours and minutes; the offset zero is universal time. -/
def offsetText (offset : Int) : List Char :=
  if offset = 0 then ['Z']
  else
    (if offset < 0 then '-' else '+') ::
      padded 2 (offset.natAbs / 3600) ++ ':' :: padded 2 (offset.natAbs % 3600 / 60)

/-! ## Writing temporals -/

/-- A year in at least four characters, of which a minus sign is one. -/
def plainYear (year : Int) : List Char :=
  if year < 0 then '-' :: padded 3 year.natAbs else padded 4 year.natAbs

/-- The text of a temporal as a list of characters. -/
def letters : Temporal → List Char
  | year y => plainYear y
  | yearMonth y month => plainYear y ++ '-' :: padded 2 month
  | date d => d.letters
  | localTime t => t.letters
  | offsetTime t offset => t.letters ++ offsetText offset

/-- The text of a temporal. -/
def text (t : Temporal) : String := String.ofList t.letters

end OccurrenceQuery.Temporal
