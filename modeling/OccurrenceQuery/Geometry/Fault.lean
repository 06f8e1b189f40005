/-
Why a geometry is refused.
-/
import OccurrenceQuery.Geometry.Validity
import OccurrenceQuery.Number.Layout

namespace OccurrenceQuery.Geometry

/-! ## Faults of the text form -/

/-- The coordinates a position is written with, in their order. -/
inductive Axis where
  | x
  | y
  | z
  | m
deriving DecidableEq, Repr

/-- The letter by which complaints name a coordinate. -/
def Axis.letter : Axis → String
  | x => "X"
  | y => "Y"
  | z => "Z"
  | m => "M"

/-- What is wrong with a geometry text. -/
inductive TextFault where
  | notWellKnownText
  | nonAsciiWord
  | unknownKeyword
  | endOfText
  | unexpectedWord
  | missingOpening
  | missingClosing
  | badNumber
  | missingNumber (axis : Axis)
  | missingKeyword
  | unsupportedShape (text : String)
deriving DecidableEq, Repr

/-- The message of a fault of a geometry text. -/
def TextFault.message : TextFault → String
  | notWellKnownText => "Invalid WKT format"
  | nonAsciiWord => "Encountered non-ascii word"
  | unknownKeyword => "Invalid type encountered"
  | endOfText => "End of stream"
  | unexpectedWord => "Unexpected word before open paren"
  | missingOpening => "Missing open parenthesis for type"
  | missingClosing => "Missing closing parenthesis for type"
  | badNumber => "Unable to parse input number as the desired output type"
  | missingNumber axis => "Expected a number for the " ++ axis.letter ++ " coordinate"
  | missingKeyword => "Expected a word in GEOMETRYCOLLECTION"
  | unsupportedShape text => "unsupported or malformed WKT: " ++ text

/-! ## Faults of geometries -/

/-- Why a geometry is refused. -/
inductive Fault where
  | empty
  | unreadable (fault : TextFault)
  | unsupported (kind : Kind)
  | outOfBounds (position : Position Float)
  | problem (found : Problem Float)
  | zeroArea
  | openRing

/-- The message of a refusal. Numbers in it are written as in all messages. -/
def Fault.message : Fault → String
  | empty => "empty geometry"
  | unreadable fault => "cannot parse WKT: " ++ fault.message
  | unsupported kind => "unsupported geometry type " ++ kind.keyword
  | outOfBounds p =>
    "coordinate (" ++ Number.text p.x ++ " " ++ Number.text p.y
      ++ ") has a latitude outside [-90, 90]"
  | problem found => "invalid geometry: " ++ found.message Number.text
  | zeroArea => "invalid geometry: polygon with zero area"
  | openRing => "invalid geometry: linear ring must be closed with at least four points"

end OccurrenceQuery.Geometry
