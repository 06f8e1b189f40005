/-
Carrying out tasks: the lines that they print, and the status they end with.
-/
import OccurrenceQuery.Command.Arguments
import OccurrenceQuery.Command.Settings
import OccurrenceQuery.Json
import OccurrenceQuery.Temporal.Interval
import OccurrenceQuery.Validation

namespace OccurrenceQuery.Command

open OccurrenceQuery.Text

/-- How a run ends: lines on standard output, the exit status, and a report of the failure, if there
is one. When `logged`, lines of the log stand before the report. -/
structure Outcome where
  lines : List String
  status : Nat
  report : Option Report
  logged : Bool
deriving DecidableEq, Repr

/-- What is printed on standard output: each line with a line feed. -/
def Outcome.output (o : Outcome) : String := String.join (o.lines.map fun line => line ++ "\n")

/-! ## Checking values -/

/-- The line about a value, as text. -/
def verdictText (value : String) : Except InvalidValue Unit → String
  | .ok _ => "ok       " ++ value
  | .error invalid => "invalid  " ++ value ++ ": " ++ invalid.cause.message

/-- The line about a value, as JSON. -/
def verdictJson (parameter value : String) : Except InvalidValue Unit → Json
  | .ok _ =>
    .object [("parameter", .string parameter), ("valid", .bool true), ("value", .string value)]
  | .error invalid =>
    .object [("error", .string invalid.cause.message), ("kind", .string invalid.cause.kind.word),
      ("parameter", .string parameter), ("valid", .bool false), ("value", .string value)]

/-- The line about a value, as JSON or as text. -/
def verdictLine (json : Bool) (parameter value : String) (verdict : Except InvalidValue Unit) :
    String :=
  if json then (verdictJson parameter value verdict).compact else verdictText value verdict

/-- Checks values of a parameter: a line for each, and whether all are accepted. -/
def validateValues (r : Registry) (json : Bool) (parameter : String) (values : List String) :
    List String × Bool :=
  let verdicts := values.map fun value => (value, validateNamed r parameter value)
  (verdicts.map fun (value, verdict) => verdictLine json parameter value verdict,
    verdicts.all fun (_, verdict) => verdict.toBool)

/-! ## Ranges -/

/-- A bound as JSON; an open side is null. -/
def boundJson {α : Type} (element : α → Json) (bound : Option α) : Json :=
  (bound.map element).getD .null

/-- The line about a range, given the text and the JSON of its elements. -/
def rangeLine {α : Type} (json : Bool) (text : α → String) (element : α → Json) (r : Range α) :
    String :=
  if json then
    (Json.object [("from", boundJson element r.lower), ("to", boundJson element r.upper)]).compact
  else r.text text

/-- A floating-point number as JSON; those that are not finite are null. -/
def decimalJson (x : Float) : Json := ((Number.dataText? x).map Json.number).getD .null

/-- An integer as JSON. -/
def integerJson (n : Int) : Json := .number (toString n)

/-- The word by which complaints name a kind of bounds. -/
def BoundKind.word : BoundKind → String
  | decimal => "decimal"
  | integer => "integer"
  | date => "date"

/-- The range that a text denotes, as a line. -/
def rangeText (json : Bool) (kind : BoundKind) (text : String) : Except Rejection String :=
  match kind with
  | .decimal => rangeLine json Number.text decimalJson <$> Range.readDecimals text
  | .integer => rangeLine json toString integerJson <$> Range.readIntegers text
  | .date =>
    rangeLine json Calendar.Date.text (fun d => .string d.text) <$> Calendar.readSpan text

/-- `rangeText` with the complaint about the range in lower case throughout. -/
def rangeResult (json : Bool) (kind : BoundKind) (text : String) : Except Report String :=
  let what := kind.word
  withContext (lowered s!"Invalid {what} range '{text}'") Rejection.message
    (rangeText json kind text)

/-! ## Intervals -/

/-- The line about an interval with its offsets treated as told. In JSON the precision is that of
its first end. -/
def intervalLine (json : Bool) (mode : Temporal.OffsetMode) (i : Temporal.Interval) : String :=
  let rendered := (i.render mode).getD ""
  if json then
    let precision := i.first.map fun first => Json.string first.precision.name
    (Json.object [("interval", .string rendered), ("precision", precision.getD .null)]).compact
  else rendered

/-- The interval that a text denotes, as a line. -/
def intervalResult (json : Bool) (mode : Temporal.OffsetMode) (text : String) :
    Except Report String :=
  withContext s!"Invalid interval '{text}'" Rejection.message
    (intervalLine json mode <$> Temporal.Interval.ofText text)

/-! ## Parameters -/

/-- A text with blanks behind it up to a width. A longer text stays as it is. -/
def paddedRight (width : Nat) (text : String) : String :=
  text ++ String.ofList (List.replicate (width - text.length) ' ')

/-- The line about a parameter: its name and the word for its type. -/
def parameterLine (json : Bool) (p : Parameter) : String :=
  if json then (Json.object [("name", .string p.name), ("type", .string p.type.word)]).compact
  else paddedRight 36 p.name ++ " " ++ p.type.word

/-! ## Tasks -/

/-- The lines of a task and whether it succeeds. -/
def execute (s : Settings) (json : Bool) : Task → Except Report (List String × Bool)
  | .validate parameter value others => do
    return validateValues (← s.registry) json parameter (value :: others)
  | .range text kind => do return ([← rangeResult json kind text], true)
  | .interval text mode => do return ([← intervalResult json mode text], true)
  | .params => do return ((← s.registry).parameters.map (parameterLine json), true)

/-- The settings that a run works with. Configuration files are not
read: one that is asked for counts as missing. -/
def loadSettings (config : Option String) (environment : List (String × String)) :
    Except Report Settings := do
  if let some path := config then
    throw ⟨"Failed to build configuration", some s!"configuration file \"{path}\" not found"⟩
  let s := Settings.ofEnvironment environment
  s.check
  return s

/-- How a task ends under settings that have been accepted. A failure is reported with status 1, and
so are values of which one is not accepted. -/
def runUnder (s : Settings) (invocation : Invocation) : Outcome :=
  match execute s invocation.json invocation.task with
  | .ok (lines, succeeds) => ⟨lines, if succeeds then 0 else 1, none, s.logsStart⟩
  | .error report => ⟨[], 1, some report, s.logsStart⟩

/-- What is printed when the version is asked for. -/
def versionLine : String := "lichen 0.1.10"

/-- How a run without a task ends; misuse has a status of its own. -/
def stopped : Stop → Outcome
  | .help => ⟨[], 0, none, false⟩
  | .version => ⟨[versionLine], 0, none, false⟩
  | .misuse => ⟨[], 2, none, false⟩

/-- Runs the program with the given arguments in the given environment. -/
def run (arguments : List String) (environment : List (String × String)) : Outcome :=
  match readArguments arguments with
  | .error stop => stopped stop
  | .ok invocation =>
    match loadSettings invocation.config environment with
    | .error report => ⟨[], 1, some report, false⟩
    | .ok s => runUnder s invocation

end OccurrenceQuery.Command
