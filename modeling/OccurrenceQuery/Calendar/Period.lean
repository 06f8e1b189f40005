/-
Days, months and years as they are written: 1991-02-03, 1991-02 and 1991. Each text names a period,
from its first day to its last. In a range of dates the lower side stands for the first day of the
period it names, the upper side for the last one.
-/
import OccurrenceQuery.Calendar.Date
import OccurrenceQuery.Range.Basic
import OccurrenceQuery.Range.Numeric
import OccurrenceQuery.Rejection
import OccurrenceQuery.Text.Basic

namespace OccurrenceQuery.Calendar

open OccurrenceQuery.Text

/-! ## Writing -/

/-- A year in four digits; a year outside 0 to 9999 has a sign. -/
def yearText (year : Int) : List Char :=
  if 0 ≤ year ∧ year ≤ 9999 then padded 4 year.toNat
  else (if year < 0 then '-' else '+') :: padded 4 year.natAbs

/-- The year and month of a date, as in 1991-02. -/
def monthText (d : Date) : List Char := yearText d.year ++ '-' :: padded 2 d.month

/-- A date in full, as in 1991-02-03. -/
def Date.letters (d : Date) : List Char := monthText d ++ '-' :: padded 2 d.day

/-- A date in full, as a string. -/
def Date.text (d : Date) : String := String.ofList d.letters

/-! ## Precisions -/

/-- How much of a date is written. -/
inductive Precision where
  | day
  | month
  | year
deriving DecidableEq, Repr

namespace Precision

/-- The precisions, the finest first. -/
def all : List Precision := [.day, .month, .year]

/-- The pattern of the texts at a precision, by which complaints name it. -/
def pattern : Precision → String
  | day => "yyyy-MM-dd"
  | month => "yyyy-MM"
  | year => "yyyy"

/-- The text of a date at a precision; what is finer is left out. -/
def write (precision : Precision) (d : Date) : String :=
  match precision with
  | day => d.text
  | month => String.ofList (monthText d)
  | year => String.ofList (yearText d.year)

/-- The last day of the day, month or year of a date. -/
def lastDay (precision : Precision) (d : Date) : Date :=
  match precision with
  | day => d
  | month => d.monthEnd
  | year => d.yearEnd

/-! ## Reading -/

/-- A year of exactly four digits, without a sign. -/
def yearField? (cs : List Char) : Option Nat :=
  if cs.length = 4 && isNumeral cs then some (numeralValue cs) else none

/-- A month or day of one or two digits. -/
def shortField? (cs : List Char) : Option Nat :=
  if cs.length ≤ 2 && isNumeral cs then some (numeralValue cs) else none

/-- The first day of the period that the whole text names at a precision. -/
def read? (precision : Precision) (cs : List Char) : Option Date :=
  match precision, splitAll '-' cs with
  | .day, [y, m, d] => do Date.of? (← yearField? y) (← shortField? m) (← shortField? d)
  | .month, [y, m] => do Date.of? (← yearField? y) (← shortField? m) 1
  | .year, [y] => do Date.of? (← yearField? y) 1 1
  | _, _ => none

/-- `read?` with the complaint that the text is no date of the precision. -/
def read (precision : Precision) (text : String) : Except Rejection Date :=
  match precision.read? text.toList with
  | some d => .ok d
  | none => .error (.value (.notValid (precision.pattern ++ " date") text))

end Precision

/-- The finest precision at which a text is a date. -/
def precisionOf (text : String) : Except Rejection Precision :=
  match Precision.all.find? fun precision => (precision.read? text.toList).isSome with
  | some precision => .ok precision
  | none => .error (.value (.notValid "date" text))

/-! ## Periods -/

/-- The period that a date stands for at the precision it is written at. -/
structure Period where
  precision : Precision
  first : Date
deriving DecidableEq

/-- The last day of a period. -/
def Period.last (p : Period) : Date := p.precision.lastDay p.first

/-- The period that a text names; the wildcard names none. -/
def readPeriod (text : String) : Except Rejection (Option Period) :=
  if text.isEmpty then .error (.value (.empty "date parameter"))
  else if text.toList = Range.wildcard then .ok none
  else do
    let precision ← precisionOf text
    let first ← precision.read text
    return some ⟨precision, first⟩

/-! ## Ranges of dates -/

/-- The two sides of a range, cut at its only comma. -/
def readSides (text : String) : Except Rejection (List Char × List Char) :=
  if text.isEmpty then .error (.value (.empty "date parameter"))
  else match splitFirst ',' text.toList with
    | none => .error (.range (.notDateRange text))
    | some (lower, upper) =>
      if upper.contains ',' then .error (.range (.tooManyDates text)) else .ok (lower, upper)

/-- The range of dates that a text denotes. White space may stand around each side, and a wildcard
leaves its side open. -/
def readSpan (text : String) : Except Rejection (Range Date) := do
  let (lower, upper) ← readSides text
  let first ← readPeriod (String.ofList (trim lower))
  let last ← readPeriod (String.ofList (trim upper))
  match Range.between? (first.map Period.first) (last.map Period.last) with
  | some r => return r
  | none => throw (.range (.exceeds "date" text))

/-! ## Recognition of ranges -/

/-- Whether a text has the form of a date, at any precision and in digits of any script. -/
def isDateForm (cs : List Char) : Bool :=
  match splitAll '-' cs with
  | [] => false
  | y :: rest =>
    y.length == 4 && y.all isDecimalDigit && decide (rest.length ≤ 2) &&
      rest.all fun field => decide (field.length ≤ 2) && Range.isDigits field

/-- Whether a side of a range has the form of a date, or is the wildcard. -/
def isDateSide (cs : List Char) : Bool := isDateForm cs || cs == Range.wildcard

/-- Whether a text has the form of two dates with a comma between them. -/
def hasSpanForm (cs : List Char) : Bool :=
  match splitFirst ',' cs with
  | some (before, after) => isDateSide (trimEnd before) && isDateSide (trimStart after)
  | none => false

/-- Whether a text is a range of dates, be it because it has that form or because it is a single
month or year. -/
def isSpan (text : String) : Bool :=
  hasSpanForm text.toList || match precisionOf text with
    | .ok .month | .ok .year => true
    | _ => false

/-- Whether a text is a range of numbers or of dates. -/
def isRange (text : String) : Bool := Range.isNumeric text || (readSpan text).toBool

end OccurrenceQuery.Calendar
