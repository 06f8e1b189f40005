/-
The arguments of the command line. Two options, for the configuration file and for JSON output, can
stand before the command or after it; the others belong to their command. Arguments are read from
left to right, and the first one that asks for help or is wrong decides.
-/
import OccurrenceQuery.Temporal.Basic
import OccurrenceQuery.Text.Basic

namespace OccurrenceQuery.Command

open OccurrenceQuery.Text

/-! ## Requests -/

/-- What the bounds of a range are read as. -/
inductive BoundKind where
  | decimal
  | integer
  | date
deriving DecidableEq, Repr

/-- What is to be done. -/
inductive Task where
  | validate (parameter value : String) (others : List String)
  | range (text : String) (kind : BoundKind)
  | interval (text : String) (mode : Temporal.OffsetMode)
  | params
deriving DecidableEq, Repr

/-- A task with the options that every command has. -/
structure Invocation where
  task : Task
  config : Option String
  json : Bool
deriving DecidableEq, Repr

/-- How reading the arguments can end without a task. -/
inductive Stop where
  | help
  | version
  | misuse
deriving DecidableEq, Repr

/-! ## Words with a meaning -/

/-- The words for the kinds of bounds. -/
def boundKinds : List (String × BoundKind) :=
  [("decimal", .decimal), ("integer", .integer), ("date", .date)]

/-- The words for the ways to drop offsets; without one of them offsets are kept. -/
def offsetModes : List (String × Temporal.OffsetMode) :=
  [("non-utc", .stripNonUtc), ("all", .stripAll)]

/-! ## Options -/

/-- An option: its name and, if it takes a value, which values it takes. -/
structure OptionSpec where
  name : String
  accepts : Option (String → Bool)

/-- The options that can stand before a command and after it. The name of the configuration file is
not empty. -/
def commonOptions : List OptionSpec :=
  [⟨"config", some fun value => !value.isEmpty⟩, ⟨"json", none⟩]

/-- What may stand at one level of the command line. -/
structure Level where
  options : List OptionSpec
  /-- Whether the first plain argument ends the level, as the name of a command. -/
  isOuter : Bool
  /-- How many plain arguments there may be, if that is limited. -/
  capacity : Option Nat

/-- What was found at a level: options with their values, and plain arguments. -/
structure Found where
  options : List (String × String)
  plain : List String

namespace Found

/-- No options and no plain arguments. -/
def nothing : Found := ⟨[], []⟩

/-- Adds an option, which must not have been given before. -/
def addOption (found : Found) (name value : String) : Except Stop Found :=
  if (found.options.lookup name).isSome then .error .misuse
  else .ok { found with options := found.options ++ [(name, value)] }

/-- Adds a plain argument if there is room for it. -/
def addPlain (found : Found) (level : Level) (argument : String) : Except Stop Found :=
  if level.capacity.all fun n => decide (found.plain.length < n) then
    .ok { found with plain := found.plain ++ [argument] }
  else .error .misuse

end Found

/-! ## Reading one level -/

/-- The forms of an argument. -/
inductive Form where
  | terminator
  | long (name : String) (value : Option String)
  | short (letter : Char)
  | plain

/-- The form of an argument. A single hyphen is a plain argument. -/
def form (argument : String) : Form :=
  match argument.toList with
  | ['-', '-'] => .terminator
  | '-' :: '-' :: cs =>
    match splitFirst '=' cs with
    | some (name, value) => .long (String.ofList name) (some (String.ofList value))
    | none => .long (String.ofList cs) none
  | '-' :: letter :: _ => .short letter
  | _ => .plain

/-- Whether an argument can be the value of the option before it. -/
def Form.isPlain : Form → Bool
  | plain => true
  | _ => false

/-- The value of an option, if the option takes it. -/
def acceptedValue (spec : OptionSpec) (value : String) : Except Stop String :=
  if (spec.accepts.map fun accepts => accepts value).getD false then .ok value
  else .error .misuse

/-- Where a short option leads: no level has any of its own. -/
def shortStop (level : Level) (letter : Char) : Stop :=
  if letter = 'h' then .help
  else if letter = 'V' && level.isOuter then .version
  else .misuse

/-- Where a long option that is not one of the level leads. -/
def longStop (level : Level) (name : String) (value : Option String) : Stop :=
  if value.isSome then .misuse
  else if name = "help" then .help
  else if name = "version" && level.isOuter then .version
  else .misuse

/-- Reads a level; what is left over begins with the name of a command. -/
def scan (level : Level) (found : Found) : List String → Except Stop (Found × List String)
  | [] => .ok (found, [])
  | argument :: rest =>
    match form argument with
    | .terminator => do
      let found ← rest.foldlM (fun found plain => found.addPlain level plain) found
      return (found, [])
    | .short letter => .error (shortStop level letter)
    | .plain =>
      if level.isOuter then .ok (found, argument :: rest)
      else do scan level (← found.addPlain level argument) rest
    | .long name attached =>
      match level.options.find? fun spec => spec.name == name with
      | none => .error (longStop level name attached)
      | some spec =>
        match spec.accepts, attached, rest with
        | none, none, rest => do scan level (← found.addOption name "") rest
        | none, some _, _ => .error .misuse
        | some _, some value, rest => do
          scan level (← found.addOption name (← acceptedValue spec value)) rest
        | some _, none, [] => .error .misuse
        | some _, none, value :: rest =>
          if (form value).isPlain then do
            scan level (← found.addOption name (← acceptedValue spec value)) rest
          else .error .misuse

/-! ## Reading all arguments -/

/-- What may stand before the command, whose name ends it. -/
def outerLevel : Level := ⟨commonOptions, true, some 0⟩

/-- What may stand after the name of a command with its own options. -/
def commandLevel (options : List OptionSpec) (capacity : Option Nat) : Level :=
  ⟨commonOptions ++ options, false, capacity⟩

/-- The level of the command with the given name. -/
def levelOf? (name : String) : Option Level :=
  if name = "validate" then some (commandLevel [] none)
  else if name = "range" then
    some (commandLevel [⟨"as", some fun value => (boundKinds.lookup value).isSome⟩] (some 1))
  else if name = "interval" then
    some (commandLevel [⟨"strip-offset", some fun value => (offsetModes.lookup value).isSome⟩]
      (some 1))
  else if name = "params" then some (commandLevel [] (some 0))
  else none

/-- The task that the arguments found make up for the command with the given name. -/
def taskOf? (name : String) (found : Found) : Option Task :=
  match name, found.plain with
  | "validate", parameter :: value :: others => some (.validate parameter value others)
  | "range", [text] =>
    let kind := (found.options.lookup "as").bind fun word => boundKinds.lookup word
    some (.range text (kind.getD .decimal))
  | "interval", [text] =>
    let mode := (found.options.lookup "strip-offset").bind fun word => offsetModes.lookup word
    some (.interval text (mode.getD .keep))
  | "params", [] => some .params
  | _, _ => none

/-- Where asking for help by name leads: the name of one command may follow. -/
def helpStop : List String → Stop
  | [] => .help
  | [name] => if (levelOf? name).isSome || name == "help" then .help else .misuse
  | _ => .misuse

/-- Reads the arguments that follow the name of a command. -/
def readCommand (outer : Found) (name : String) (arguments : List String) :
    Except Stop Invocation := do
  let some level := levelOf? name | throw .misuse
  let (inner, _) ← scan level .nothing arguments
  let some task := taskOf? name inner | throw .misuse
  return {
    task
    config := (inner.options.lookup "config").or (outer.options.lookup "config")
    json := (inner.options.lookup "json").isSome || (outer.options.lookup "json").isSome }

/-- Reads the arguments. An option after the command wins over the same one before it. -/
def readArguments (arguments : List String) : Except Stop Invocation := do
  match ← scan outerLevel .nothing arguments with
  | (_, []) => throw .misuse
  | (outer, name :: rest) =>
    if name = "help" then throw (helpStop rest) else readCommand outer name rest

end OccurrenceQuery.Command
