/-
The outline grammar of well-known text: the shapes that a search accepts, in their plain
two-dimensional notation, with white space wherever it can do no harm. Keywords are read under
case folding and digits may be those of any script; the numbers are kept as they are written.
-/
import OccurrenceQuery.Geometry.Fault
import OccurrenceQuery.Text.Basic
import OccurrenceQuery.Text.CharacterClass

namespace OccurrenceQuery.Geometry

open OccurrenceQuery.Text

/-- The text of a position: those of its two numbers. -/
structure PositionText where
  x : List Char
  y : List Char
deriving DecidableEq, Repr

/-- A geometry text taken apart, its numbers unread. -/
inductive Outline where
  | point (position : PositionText)
  | lineString (positions : List PositionText)
  | linearRing (positions : List PositionText)
  | polygon (rings : List (List PositionText))
  | multiPolygon (polygons : List (List (List PositionText)))
deriving DecidableEq, Repr

namespace Outline

/-- A step of the grammar: what it takes off the front of a text, and the rest. -/
abbrev Step (β : Type) := List Char → Option (β × List Char)

/-! ## Marks and repetition -/

/-- Takes white space and then the character `c`. -/
def mark (c : Char) (cs : List Char) : Option (List Char) :=
  match trimStart cs with
  | d :: rest => if d = c then some rest else none
  | [] => none

/-- Takes one or more items with commas between them. The limit bounds their number. -/
def separated {β : Type} (item : Step β) : Nat → Step (List β)
  | 0, _ => none
  | limit + 1, cs => do
    let (first, rest) ← item (trimStart cs)
    match mark ',' rest with
    | some rest => do
      let (others, rest) ← separated item limit rest
      return (first :: others, rest)
    | none => return ([first], rest)

/-- Takes one or more items with commas between them and parentheses around them. -/
def group {β : Type} (item : Step β) (cs : List Char) : Option (List β × List Char) := do
  let rest ← mark '(' cs
  let (items, rest) ← separated item rest.length rest
  let rest ← mark ')' rest
  return (items, rest)

/-! ## Positions -/

/-- Takes a number: an optional minus, digits, and optionally a point and digits. -/
def number (cs : List Char) : Option (List Char × List Char) :=
  let (sign, unsigned) := match cs with
    | '-' :: rest => (['-'], rest)
    | rest => ([], rest)
  let whole := unsigned.takeWhile isDecimalDigit
  if whole.isEmpty then none
  else match unsigned.dropWhile isDecimalDigit with
    | '.' :: rest =>
      let fraction := rest.takeWhile isDecimalDigit
      if fraction.isEmpty then none
      else some (sign ++ whole ++ '.' :: fraction, rest.dropWhile isDecimalDigit)
    | rest => some (sign ++ whole, rest)

/-- Takes a position: two numbers with white space between them. -/
def position (cs : List Char) : Option (PositionText × List Char) := do
  let (x, rest) ← number cs
  guard ((rest.head?.map isWhiteSpace).getD false)
  let (y, rest) ← number (trimStart rest)
  return (⟨x, y⟩, rest)

/-! ## Shapes -/

/-- Takes the body of a point: one position between parentheses. -/
def pointBody (cs : List Char) : Option (PositionText × List Char) := do
  let rest ← mark '(' cs
  let (p, rest) ← position (trimStart rest)
  let rest ← mark ')' rest
  return (p, rest)

/-- Takes a shape: a keyword in any case, and the body of its kind. -/
def shapeAfter (cs : List Char) : Option (Outline × List Char) :=
  if let some rest := takeWord "point".toList cs then
    (pointBody rest).map fun (p, rest) => (point p, rest)
  else if let some rest := takeWord "linestring".toList cs then
    (group position rest).map fun (ps, rest) => (lineString ps, rest)
  else if let some rest := takeWord "linearring".toList cs then
    (group position rest).map fun (ps, rest) => (linearRing ps, rest)
  else if let some rest := takeWord "polygon".toList cs then
    (group (group position) rest).map fun (rings, rest) => (polygon rings, rest)
  else if let some rest := takeWord "multipolygon".toList cs then
    (group (group (group position)) rest).map fun (polygons, rest) => (multiPolygon polygons, rest)
  else none

/-- The outline of the whole text, white space at its ends aside. -/
def read? (cs : List Char) : Option Outline := do
  let (outline, rest) ← shapeAfter (trimStart cs)
  guard (trimStart rest).isEmpty
  return outline

end Outline

/-- Refuses a text that is not in the outline grammar. -/
def checkOutline (text : String) : Except Fault Unit :=
  if (trim text.toList).isEmpty then .error .empty
  else if (Outline.read? text.toList).isSome then .ok ()
  else .error (.unreadable (.unsupportedShape text))

end OccurrenceQuery.Geometry
