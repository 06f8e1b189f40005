/-
Numbers and ranges of numbers. A range is written as two sides with a comma between them; each side
is a decimal or the wildcard, and white space may stand around the comma only.
-/
import OccurrenceQuery.Number.Layout
import OccurrenceQuery.Number.Reader
import OccurrenceQuery.Range.Basic
import OccurrenceQuery.Rejection
import OccurrenceQuery.Text.Basic
import OccurrenceQuery.Text.CharacterClass

namespace OccurrenceQuery.Range

open OccurrenceQuery.Text OccurrenceQuery.Number

/-! ## Ranges from their bounds -/

/-- The range between two bounds; a lower bound that is greater than the upper one is rejected. -/
def between {α : Type} [LT α] [DecidableLT α] (lower upper : Option α) :
    Except Rejection (Range α) :=
  match between? lower upper with
  | some r => .ok r
  | none => .error (.range .reversed)

/-- `between` with both bounds. -/
def closed {α : Type} [LT α] [DecidableLT α] (lower upper : α) : Except Rejection (Range α) :=
  between (some lower) (some upper)

/-! ## The grammar of ranges -/

/-- One or more digits, of any script. -/
def isDigits (cs : List Char) : Bool := !cs.isEmpty && cs.all isDecimalDigit

/-- A decimal: an optional minus, digits, and an optional fraction. -/
def isDecimal (cs : List Char) : Bool :=
  let unsigned := (dropLeading? ['-'] cs).getD cs
  match splitFirst '.' unsigned with
  | some (whole, fraction) => isDigits whole && isDigits fraction
  | none => isDigits unsigned

/-- One side of a range: a decimal or the wildcard. -/
def isSide (cs : List Char) : Bool := isDecimal cs || cs == wildcard

/-- The two sides of a text that has the form of a range. -/
def sides? (cs : List Char) : Option (List Char × List Char) :=
  (splitFirst ',' cs).bind fun (before, after) =>
    let lower := trimEnd before
    let upper := trimStart after
    if isSide lower && isSide upper then some (lower, upper) else none

/-- Whether a text has the form of a range of numbers. -/
def isNumeric (text : String) : Bool := (sides? text.toList).isSome

/-! ## Reading ranges -/

/-- The bound that a side denotes; the wildcard denotes none. -/
def readBound? {α : Type} (element? : List Char → Option α) (side : List Char) :
    Option (Option α) :=
  if side = wildcard then some none else (element? side).map some

/-- The range that a text denotes, given how its bounds are read. -/
def readRange {α : Type} [LT α] [DecidableLT α] (what : String)
    (element? : List Char → Option α) (text : String) : Except Rejection (Range α) :=
  let bounds? := do
    let (lower, upper) ← sides? text.toList
    return (← readBound? element? lower, ← readBound? element? upper)
  match bounds? with
  | none => .error (.value (.malformedRange what text))
  | some (lower, upper) =>
    match between? lower upper with
    | none => .error (.range (.exceeds "bound" text))
    | some r => .ok r

/-- The range of floating-point numbers that a text denotes. -/
def readDecimals (text : String) : Except Rejection (Range Float) :=
  readRange "decimal" readFloat? text

/-- The range of integers of 32 bits that a text denotes. -/
def readIntegers (text : String) : Except Rejection (Range Int) :=
  readRange "integer" readInt32? text

/-! ## Checking decimals -/

/-- The latitudes on the globe, in degrees. -/
def latitudes : Range Float := ⟨some (-90.0), some 90.0⟩

/-- The longitudes on the globe, in degrees. -/
def longitudes : Range Float := ⟨some (-180.0), some 180.0⟩

/-- Accepts a finite number or a range of numbers. -/
def checkDecimals (text : String) : Except Rejection Unit :=
  if text.isEmpty then .error (.value (.empty "decimal value"))
  else if (readFinite? text.toList).isSome then .ok ()
  else discard (readDecimals text)

/-- Whether the number or range that a text denotes lies within bounds. -/
def liesWithin (bounds : Range Float) (text : String) : Except Rejection Bool :=
  match readFinite? text.toList with
  | some x => .ok (bounds.contains x)
  | none =>
    if isNumeric text then bounds.encloses <$> readDecimals text
    else .error (.value (.notValid "number" text))

/-- Accepts a finite number within bounds or a range that they enclose. -/
def checkWithin (bounds : Range Float) (what text : String) : Except Rejection Unit :=
  if text.isEmpty then .error (.value (.empty what))
  else do
    if ← liesWithin bounds text then return ()
    else throw (.value (.outside what text (bounds.text Number.text)))

/-! ## Checking integers -/

/-- The integers in a text: a single one, or the bounds of a range that are present. -/
def integers (text : String) : Except Rejection (List Int) :=
  if text.isEmpty then .error (.value (.empty "integer value"))
  else match readInt32? text.toList with
    | some n => .ok [n]
    | none => do
      let r ← readIntegers text
      return r.lower.toList ++ r.upper.toList

/-- Accepts integers that all lie between two others. -/
def checkBetween (least greatest : Int) (what : String) (values : List Int) :
    Except Rejection Unit :=
  match values.find? fun n => !(decide (least ≤ n) && decide (n ≤ greatest)) with
  | some n => .error (.value (.notBetween what n least greatest))
  | none => .ok ()

end OccurrenceQuery.Range
