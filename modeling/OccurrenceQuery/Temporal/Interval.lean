/-
Intervals between two temporals of one kind, the first of them not after the last. Either end can be
absent; an interval without a last end stands for a single point. An interval goes through
operations, one after the other: an operation makes the interval anew or replaces one of its ends,
and one that is refused has a complaint.
-/
import OccurrenceQuery.Json
import OccurrenceQuery.Temporal.Basic
import OccurrenceQuery.Temporal.Text
import OccurrenceQuery.Text.Basic

namespace OccurrenceQuery.Temporal

open OccurrenceQuery.Text

/-- An interval; its ends are in order as long as it is made by the operations below. -/
structure Interval where
  first : Option Temporal
  last : Option Temporal
deriving DecidableEq

/-- Accepts two ends of one kind that do not run backwards. -/
def checkOrder (first last : Temporal) : Except Rejection Unit :=
  match first.until? last with
  | none => .error (.range (.mixedPrecisions first.text last.text))
  | some distance =>
    if distance < 0 then .error (.range (.backwards first.text last.text)) else .ok ()

namespace Interval

/-! ## Making intervals -/

/-- The interval without ends. -/
def empty : Interval := ⟨none, none⟩

/-- The interval that stands for a single point. -/
def single (t : Temporal) : Interval := ⟨some t, none⟩

/-- The interval between two ends that are in order. -/
def between (first last : Temporal) : Except Rejection Interval := do
  checkOrder first last
  return ⟨some first, some last⟩

/-! ## Work in place -/

/-- Work on an interval in place. When it is refused, what was assigned before stays. -/
abbrev Edit := EStateM Rejection Interval

/-- Assigns an interval made by a computation that can be refused. -/
def assign (made : Except Rejection Interval) : Edit Unit := do set (← liftExcept made)

/-- Assigns the first end, which has to be in order with the last one. -/
def assignFirst (first : Temporal) : Edit Unit := do
  if let some last := (← get).last then liftExcept (checkOrder first last)
  modify fun interval => { interval with first := some first }

/-- Assigns the last end, which has to be in order with the first one. -/
def assignLast (last : Temporal) : Edit Unit := do
  if let some first := (← get).first then liftExcept (checkOrder first last)
  modify fun interval => { interval with last := some last }

/-- The interval that an edit makes of another, unless it is refused. -/
def Edit.apply (edit : Edit Unit) (interval : Interval) : Except Rejection Interval :=
  match edit.run interval with
  | .ok () next => .ok next
  | .error rejection _ => .error rejection

/-- The interval with another first end, which has to be in order with the last one. -/
def setFirst (interval : Interval) (first : Temporal) : Except Rejection Interval :=
  Edit.apply (assignFirst first) interval

/-- The interval with another last end, which has to be in order with the first one. -/
def setLast (interval : Interval) (last : Temporal) : Except Rejection Interval :=
  Edit.apply (assignLast last) interval

/-! ## Reading -/

/-- The interval between two ends that are texts. -/
def ofTexts (first last : String) : Except Rejection Interval := do
  between (← read first) (← read last)

/-- The interval that a text denotes: two ends with a slash between them, or one temporal that is
both ends. -/
def ofText (text : String) : Except Rejection Interval :=
  match splitFirst '/' text.toList with
  | some (_, []) => .error (.value (.openInterval text))
  | some (first, last) => ofTexts (String.ofList first) (String.ofList last)
  | none => do
    let t ← read text
    between t t

/-! ## Writing -/

/-- The text of an interval with its offsets treated as told; the last end is left out when it is
the same as the first. An interval without a first end has no text. -/
def render (mode : OffsetMode) (interval : Interval) : Option String :=
  interval.first.map fun first =>
    match interval.last.filter (· ≠ first) with
    | some last => (first.adjustOffset mode).text ++ "/" ++ (last.adjustOffset mode).text
    | none => (first.adjustOffset mode).text

/-- The text of an interval; that of an interval without a first end is empty. -/
def text (interval : Interval) : String := (interval.render .keep).getD ""

/-! ## JSON -/

/-- The text of an interval as a string, or null. -/
def toJson (interval : Interval) : Json :=
  match interval.render .keep with
  | some text => .string text
  | none => .null

/-- Why a JSON value is no interval: it is no string, or the string denotes none. -/
inductive JsonFault where
  | shape
  | text (rejection : Rejection)

/-- The interval that a JSON value denotes. -/
def ofJson : Json → Except JsonFault Interval
  | .string text => (ofText text).mapError .text
  | _ => .error .shape

end Interval

/-! ## Operations -/

/-- What can be done with an interval. -/
inductive Operation where
  | empty
  | single (value : Temporal)
  | between (first last : Temporal)
  | ofText (text : String)
  | ofTexts (first last : String)
  | setFirst (first : Temporal)
  | setLast (last : Temporal)

namespace Operation

/-- The operation as work on the interval in place. -/
def edit : Operation → Interval.Edit Unit
  | empty => Interval.assign (.ok .empty)
  | single value => Interval.assign (.ok (.single value))
  | between first last => Interval.assign (Interval.between first last)
  | ofText text => Interval.assign (Interval.ofText text)
  | ofTexts first last => Interval.assign (Interval.ofTexts first last)
  | setFirst first => Interval.assignFirst first
  | setLast last => Interval.assignLast last

/-- Why the operation is refused, if it is. -/
def refusal? (operation : Operation) (interval : Interval) : Option Rejection :=
  match operation.edit.run interval with
  | .ok () _ => none
  | .error rejection _ => some rejection

/-- The interval after the operation, be it refused or not. -/
def after (operation : Operation) (interval : Interval) : Interval :=
  match operation.edit.run interval with
  | .ok () next => next
  | .error _ next => next

/-- The interval after a list of operations, from the first on. -/
def afterAll (operations : List Operation) (interval : Interval) : Interval :=
  operations.foldl (fun interval operation => operation.after interval) interval

end Operation

end OccurrenceQuery.Temporal
