/-
Ranges that are written with comparison operators: one of gt and gte for the lower side, one of lt
and lte for the upper side.
-/
import OccurrenceQuery.Json
import OccurrenceQuery.Rejection

namespace OccurrenceQuery

/-- One side of a comparison: its bound belongs to the range or does not. -/
inductive Endpoint where
  | included (value : String)
  | excluded (value : String)
deriving DecidableEq, Repr

/-- The value of a bound, whether it belongs to the range or not. -/
def Endpoint.value : Endpoint → String
  | included value => value
  | excluded value => value

/-- A range with one endpoint on each side. -/
structure Comparison where
  lower : Endpoint
  upper : Endpoint
deriving DecidableEq, Repr

namespace Comparison

/-! ## From operators -/

/-- The endpoint that one of two operators gives, when exactly one of them is used. -/
def endpoint? : Option String → Option String → Option Endpoint
  | some value, none => some (.excluded value)
  | none, some value => some (.included value)
  | _, _ => none

/-- The comparison with the given operators. The complaint is about the lower side first. -/
def ofOperators (gt gte lt lte : Option String) : Except RangeFault Comparison :=
  match endpoint? gt gte with
  | none => .error (.notOneOf "gt" "gte")
  | some lower =>
    match endpoint? lt lte with
    | none => .error (.notOneOf "lt" "lte")
    | some upper => .ok ⟨lower, upper⟩

/-! ## Operators -/

/-- The value of the operator that excludes the bound. -/
def strict? : Endpoint → Option String
  | .excluded value => some value
  | .included _ => none

/-- The value of the operator that includes the bound. -/
def inclusive? : Endpoint → Option String
  | .excluded _ => none
  | .included value => some value

/-- The four operators in their order, with the values of those that are used. -/
def operators (c : Comparison) : List (String × Option String) :=
  [("gt", strict? c.lower), ("gte", inclusive? c.lower), ("lt", strict? c.upper),
   ("lte", inclusive? c.upper)]

/-! ## JSON -/

/-- Why a JSON value is no comparison: it has the wrong shape, or its operators do not fit. -/
inductive JsonFault where
  | shape
  | operators (fault : RangeFault)
deriving DecidableEq, Repr

/-- An operator that is given as a string, or is absent or null. -/
def operand : Option Json → Except JsonFault (Option String)
  | none | some .null => .ok none
  | some (.string value) => .ok (some value)
  | some _ => .error .shape

/-- The comparison with the given operators, each of them a string, absent or null. -/
def ofOperands (gt gte lt lte : Option Json) : Except JsonFault Comparison := do
  let gt ← operand gt
  let gte ← operand gte
  let lt ← operand lt
  let lte ← operand lte
  (ofOperators gt gte lt lte).mapError .operators

/-- Reads an object, in which other fields do not matter, or an array of the four operators. -/
def ofJson : Json → Except JsonFault Comparison
  | .object fields =>
    ofOperands (Json.field? "gt" fields) (Json.field? "gte" fields) (Json.field? "lt" fields)
      (Json.field? "lte" fields)
  | .array [gt, gte, lt, lte] => ofOperands (some gt) (some gte) (some lt) (some lte)
  | _ => .error .shape

/-- The object with the operators that are used. -/
def toJson (c : Comparison) : Json :=
  .object (c.operators.filterMap fun (name, value) =>
    value.map fun value => (name, Json.string value))

end Comparison

end OccurrenceQuery
