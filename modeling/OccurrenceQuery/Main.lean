/-
The program: it takes its arguments and environment, runs the command, and prints what it says.
-/
import OccurrenceQuery.Command.Run

namespace OccurrenceQuery.Command

open OccurrenceQuery.Text

/-- The variables in a block of entries, each of them a name, an equals sign and a value, and ended
by a null character. -/
def readVariables (block : String) : List (String × String) :=
  (splitAll '\x00' block.toList).filterMap fun entry =>
    (splitFirst '=' entry).map fun (name, value) => (String.ofList name, String.ofList value)

/-- The variables of the environment; none when they cannot be read. -/
def readEnvironment : IO (List (String × String)) := do
  try return readVariables (← IO.FS.readFile "/proc/self/environ")
  catch _ => return []

end OccurrenceQuery.Command

/-- Runs the program with its arguments, prints its lines and its report, and ends with its status.
-/
def main (arguments : List String) : IO UInt32 := do
  let outcome := OccurrenceQuery.Command.run arguments (← OccurrenceQuery.Command.readEnvironment)
  IO.print outcome.output
  if let some report := outcome.report then IO.eprintln report.text
  return UInt32.ofNat outcome.status
