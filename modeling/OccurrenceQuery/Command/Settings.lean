/-
Settings of the command: the level and the rotation of the log, and parameters beyond those of the
catalogue. They come from variables of the environment such as LICHEN__LOGGING__LEVEL and
LICHEN__PARAMETERS__HABITAT, whose names are read in lower case. What is wrong with them is
reported: what was being done and, if known, the cause.
-/
import OccurrenceQuery.Number.Layout
import OccurrenceQuery.Number.Reader
import OccurrenceQuery.Parameter.Registry
import OccurrenceQuery.Text.Basic
import OccurrenceQuery.Text.Case

namespace OccurrenceQuery.Command

open OccurrenceQuery.Number OccurrenceQuery.Text

/-! ## Reports -/

/-- Why a command could not be carried out. -/
structure Report where
  context : String
  cause : Option String
deriving DecidableEq, Repr

/-- A text with each of its lines indented by four blanks. -/
def indented (text : String) : String :=
  "\n".intercalate ((splitAll '\n' text.toList).map fun line => "    " ++ String.ofList line)

/-- The text of a report, with its cause, if there is one, indented below it. -/
def Report.text (r : Report) : String :=
  match r.cause with
  | none => "Error: " ++ r.context
  | some cause => "Error: " ++ r.context ++ "\n\nCaused by:\n" ++ indented cause

/-- A failure as the cause of a report about what was being done. -/
def withContext {ε α : Type} (context : String) (cause : ε → String) (x : Except ε α) :
    Except Report α :=
  x.mapError fun e => ⟨context, some (cause e)⟩

/-! ## Settings -/

/-- The settings; parameters are pairs of a name and a declaration of the type, by name. -/
structure Settings where
  level : String
  rotation : String
  parameters : List (String × String)
deriving DecidableEq, Repr

namespace Settings

/-- The settings of an environment that sets nothing. -/
def standard : Settings := ⟨"warn", "daily", []⟩

/-! ## Reading the environment -/

/-- What the values of variables begin as. Truth values and numbers are read and written anew; all
other values stay as they are. -/
def plainValue (value : String) : String :=
  let cs := value.toList
  let lowerCase := asciiLower cs
  if lowerCase = "true".toList ∨ lowerCase = "false".toList then String.ofList lowerCase
  else match readInt64? cs with
    | some n => toString n
    | none => ((readFloat? cs).map Number.text).getD value

/-- The parts of a text between the occurrences of two low lines, taken from the left. -/
def splitAtLowLines : List Char → List (List Char)
  | [] => [[]]
  | '_' :: '_' :: cs => [] :: splitAtLowLines cs
  | c :: cs =>
    match splitAtLowLines cs with
    | [] => [[c]]
    | part :: parts => (c :: part) :: parts

/-- Whether a part of a variable's name can name a setting. -/
def isSettingName (cs : List Char) : Bool :=
  !cs.isEmpty && cs.all fun c => c.isAlphanum || c == '_' || c == '-' || c == ' '

/-- The section and the name of the setting that a variable is for, if it is for any. -/
def settingOf? (key : String) : Option (String × String) :=
  match (dropLeading? "lichen__".toList (lowered key).toList).map splitAtLowLines with
  | some [part, name] =>
    if isSettingName part && isSettingName name then some (String.ofList part, String.ofList name)
    else none
  | _ => none

/-- The settings with one more declaration, in the place of the one with the same name if there is
one. -/
def declare (s : Settings) (name declaration : String) : Settings :=
  { s with parameters := Registry.place name declaration s.parameters }

/-- The settings after a variable. Variables that set nothing of interest change nothing. -/
def assign (s : Settings) (key value : String) : Settings :=
  match settingOf? key with
  | some ("logging", "level") => { s with level := plainValue value }
  | some ("logging", "file_rotation") => { s with rotation := plainValue value }
  | some ("parameters", name) => s.declare name (plainValue value)
  | _ => s

/-- The settings that an environment makes; it is a list of variables with their values. -/
def ofEnvironment (environment : List (String × String)) : Settings :=
  environment.foldl (fun s (key, value) => s.assign key value) standard

/-! ## Checking -/

/-- The levels of the log, the most talkative first. -/
def levels : List String := ["trace", "debug", "info", "warn", "error"]

/-- The intervals at which the log is begun anew. -/
def rotations : List String := ["daily", "hourly", "minutely", "never"]

/-- The level in lower case, as it is compared. -/
def effectiveLevel (s : Settings) : String := String.ofList (asciiLower s.level.toList)

/-- The complaint about a setting that is not one of a list. -/
def notOneOf (setting : String) (allowed : List String) (value : String) : Report :=
  ⟨setting ++ " must be one of " ++ ", ".intercalate allowed ++ s!", got '{value}'", none⟩

/-- The parameter that a name and a declaration make. -/
def parameterOf (name declaration : String) : Except Report Parameter := do
  let type ← withContext s!"Invalid type for parameter '{name}'" id (ValueType.read declaration)
  return ⟨name, type⟩

/-- Accepts settings with a level and a rotation that exist and with types that can be read. -/
def check (s : Settings) : Except Report Unit := do
  if !levels.contains s.effectiveLevel then throw (notOneOf "logging.level" levels s.level)
  if !rotations.contains s.rotation then
    throw (notOneOf "logging.file_rotation" rotations s.rotation)
  s.parameters.forM fun (name, declaration) => discard (parameterOf name declaration)

/-- The catalogue with the parameters of the settings over it. -/
def registry (s : Settings) : Except Report Registry := do
  let parameters ← s.parameters.mapM fun (name, declaration) => parameterOf name declaration
  return Registry.ofCatalogue.insertAll parameters

/-- Whether the log begins with a line about itself. -/
def logsStart (s : Settings) : Bool := s.effectiveLevel == "trace" || s.effectiveLevel == "debug"

end Settings

end OccurrenceQuery.Command
