/-
Why a value is rejected. A rejection is of one of four kinds: the text is no value of the declared
type, it is a range with its bounds in the wrong order or with the wrong number of parts, it is a
geometry that cannot be searched in, or the parameter is not known.
-/
import OccurrenceQuery.Geometry.Fault
import OccurrenceQuery.Vocabulary.Basic

namespace OccurrenceQuery

/-! ## Values -/

/-- Why a text is no value. -/
inductive ValueFault where
  | empty (what : String)
  | notValid (what text : String)
  | outside (what text bounds : String)
  | malformedRange (what text : String)
  | notBetween (what : String) (value least greatest : Int)
  | notBoolean (text : String)
  | notTemporal (text : String)
  | openInterval (text : String)
  | notCircle (text : String)
  | notPositive (distance : String)
  | vocabulary (fault : Vocabulary.Fault)
deriving DecidableEq, Repr

/-- The message of a fault of a value. -/
def ValueFault.message : ValueFault → String
  | empty what => s!"{what} cannot be empty"
  | notValid what text => s!"{text} is not a valid {what}"
  | outside what text bounds => s!"{text} is not a valid {what}, it must lie within {bounds}"
  | malformedRange what text => s!"invalid {what} range: {text}"
  | notBetween what value least greatest =>
    s!"{what} {value} must be between {least} and {greatest}"
  | notBoolean text => s!"{text} is not a boolean"
  | notTemporal text => s!"{text} is not an ISO 8601 date or date-time"
  | openInterval text => "missing 'to' end of interval in " ++ text
  | notCircle text => s!"{text} must follow the format lat,lng,distance"
  | notPositive distance => s!"distance must be greater than zero, got {distance}"
  | vocabulary fault => fault.message

/-! ## Ranges -/

/-- Why two bounds make no range. -/
inductive RangeFault where
  | reversed
  | exceeds (what text : String)
  | notOneOf (strict inclusive : String)
  | notDateRange (text : String)
  | tooManyDates (text : String)
  | mixedPrecisions (first last : String)
  | backwards (first last : String)
deriving DecidableEq, Repr

/-- The message of a fault of a range. -/
def RangeFault.message : RangeFault → String
  | reversed => "lower bound is greater than upper bound"
  | exceeds what text => s!"lower {what} exceeds upper {what} in {text}"
  | notOneOf strict inclusive => s!"exactly one of {strict} and {inclusive} must be given"
  | notDateRange text => s!"{text} is not a date range"
  | tooManyDates text => s!"{text} has more than two comma separated parts"
  | mixedPrecisions first last => s!"interval ends must share a precision, got {first} and {last}"
  | backwards first last => s!"invalid interval: ({first}, {last})"

/-! ## Rejections -/

/-- Why a value is rejected. -/
inductive Rejection where
  | value (fault : ValueFault)
  | range (fault : RangeFault)
  | geometry (fault : Geometry.Fault)
  | unknownParameter (name : String)

namespace Rejection

/-- The kinds of rejection. -/
inductive Kind where
  | invalidValue
  | invalidRange
  | invalidGeometry
  | unknownParameter
deriving DecidableEq, Repr

/-- The kind of a rejection. -/
def kind : Rejection → Kind
  | value _ => .invalidValue
  | range _ => .invalidRange
  | geometry _ => .invalidGeometry
  | unknownParameter _ => .unknownParameter

/-- The word for a kind of rejection in data. -/
def Kind.word : Kind → String
  | invalidValue => "invalid-value"
  | invalidRange => "invalid-range"
  | invalidGeometry => "invalid-geometry"
  | unknownParameter => "unknown-parameter"

/-- The message of a rejection. -/
def message : Rejection → String
  | value fault => fault.message
  | range fault => fault.message
  | geometry fault => fault.message
  | unknownParameter name => s!"unknown search parameter '{name}'"

end Rejection

end OccurrenceQuery
