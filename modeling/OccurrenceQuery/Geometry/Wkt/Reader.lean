/-
Reading well-known text. Its lexemes are parentheses, commas, words and numbers, with blanks between
them. A shape is a keyword, an optional mark of its dimension, and a body: its content between
parentheses, or the word EMPTY. A fault at the closing parenthesis hides a fault of the content
before it.
-/
import OccurrenceQuery.Geometry.Fault
import OccurrenceQuery.Number.Reader
import OccurrenceQuery.Text.Basic

namespace OccurrenceQuery.Geometry.Wkt

open OccurrenceQuery.Text

/-! ## Lexemes -/

/-- A lexeme. A null character in front of a lexeme is one of its own, at which a reader finds
nothing; a number that cannot be read is one, too. -/
inductive Lexeme where
  | opening
  | closing
  | comma
  | word (letters : List Char)
  | number (value : Float)
  | badNumber
  | nothing

/-- The four blanks that separate lexemes. -/
def isBlank (c : Char) : Bool := c == ' ' || c == '\n' || c == '\r' || c == '\t'

/-- Whether a lexeme that starts with `c` is a number. -/
def startsNumber (c : Char) : Bool := c == '.' || c == '-' || c == '+' || c.isDigit

/-- Whether `c` stands for itself: a parenthesis, a comma or the null character. -/
def isMark (c : Char) : Bool := c == '(' || c == ')' || c == ',' || c == '\x00'

/-- The lexeme of a word or number, which begins with `c` and goes on with `cs`. The sign in front
of a number is left out when it is a plus. -/
def Lexeme.ofText (c : Char) (cs : List Char) : Lexeme :=
  if startsNumber c then
    match Number.readFloat? (if c = '+' then cs else c :: cs) with
    | some value => number value
    | none => badNumber
  else word (c :: cs)

/-- Whether a word or number goes on with `c`. -/
def continues (c : Char) : Bool := !isMark c && !isBlank c

/-- The lexeme of the letters gathered so far, given in reverse. -/
def gathered (letters : List Char) : List Lexeme :=
  match letters.reverse with
  | [] => []
  | c :: cs => [Lexeme.ofText c cs]

/-- The lexeme of a character that no word or number goes on with; blanks have none. -/
def markLexeme (c : Char) : List Lexeme :=
  if c = '(' then [.opening]
  else if c = ')' then [.closing]
  else if c = ',' then [.comma]
  else if c = '\x00' then [.nothing]
  else []

/-- The lexemes of a text in front of which the given letters, in reverse, have been gathered. -/
def lexemesAfter (letters : List Char) : List Char → List Lexeme
  | [] => gathered letters
  | c :: cs =>
    if continues c then lexemesAfter (c :: letters) cs
    else gathered letters ++ markLexeme c ++ lexemesAfter [] cs

/-- The lexemes of a text. -/
def lexemes (cs : List Char) : List Lexeme := lexemesAfter [] cs

/-! ## Shapes -/

/-- A geometry as it is read: a point can be empty, and a polygon is any list of rings. -/
inductive Shape where
  | point (position : Option (Position Float))
  | lineString (positions : List (Position Float))
  | polygon (rings : List (Ring Float))
  | multiPoint (positions : List (Position Float))
  | multiLineString (lines : List (List (Position Float)))
  | multiPolygon (polygons : List (List (Ring Float)))
  | collection (members : List Shape)

/-- The coordinates that each position has. -/
inductive Dimension where
  | xy
  | xyz
  | xym
  | xyzm
deriving DecidableEq, Repr

/-- The coordinates of a position after the first two. -/
def Dimension.furtherAxes : Dimension → List Axis
  | xy => []
  | xyz => [.z]
  | xym => [.m]
  | xyzm => [.z, .m]

/-! ## Readers -/

/-- A reader takes lexemes off the front; those it leaves are known even when it fails. -/
abbrev Reader (β : Type) := ExceptT TextFault (StateM (List Lexeme)) β

/-- The next lexeme without taking it. A null character counts as none. -/
def peek : Reader (Option Lexeme) := do
  match ← get with
  | [] | .nothing :: _ => return none
  | lexeme :: _ => return some lexeme

/-- Takes the next lexeme, which must not be a bad number. -/
def next : Reader (Option Lexeme) := do
  match ← get with
  | [] => return none
  | .nothing :: rest => set rest; return none
  | .badNumber :: rest => set rest; throw .badNumber
  | lexeme :: rest => set rest; return some lexeme

/-- Reads a comma or else leaves everything as it is. -/
def nextComma : Reader Bool := do
  match ← peek with
  | some .comma => let _ ← next; return true
  | _ => return false

/-- Reads one or more items with commas between them. There can be at most as many items as
lexemes, which bounds the recursion. -/
def commaSeparated {β : Type} (item : Reader β) : Reader (List β) := do
  go (← get).length
where
  /-- Reads up to `limit + 1` items. -/
  go : Nat → Reader (List β)
    | 0 => return [← item]
    | limit + 1 => do
      let first ← item
      if ← nextComma then return first :: (← go limit) else return [first]

/-! ## Bodies -/

/-- Whether a word is the given one (in upper case), in any case. -/
def isWord (name : String) (letters : List Char) : Bool := sameLetters name.toList letters

/-- Reads the content that follows an opening parenthesis, and the closing one. -/
def enclosed {β : Type} (content : Reader β) : Reader β := do
  let result ← tryCatch (Except.ok <$> content) fun fault => return Except.error fault
  match ← next with
  | some .closing => ofExcept result
  | _ => throw .missingClosing

/-- Reads a body: the content between parentheses, or the value `empty` for the word EMPTY. -/
def body {β : Type} (empty : β) (content : Reader β) : Reader β := do
  match ← next with
  | some .opening => enclosed content
  | some (.word letters) => if isWord "EMPTY" letters then return empty else throw .missingOpening
  | _ => throw .missingOpening

/-! ## Positions -/

/-- Reads a number; the axis is named in the complaint that there is none. -/
def coordinate (axis : Axis) : Reader Float := do
  match ← next with
  | some (.number value) => return value
  | _ => throw (.missingNumber axis)

/-- Reads a position; only its first two coordinates are kept. -/
def position (dimension : Dimension) : Reader (Position Float) := do
  let x ← coordinate .x
  let y ← coordinate .y
  dimension.furtherAxes.forM fun axis => discard (coordinate axis)
  return ⟨x, y⟩

/-- Reads a position, which may stand between parentheses of its own. -/
def loosePosition (dimension : Dimension) : Reader (Position Float) := do
  match ← peek with
  | some .opening => do
    let _ ← next
    enclosed (position dimension)
  | _ => position dimension

/-- Reads the positions of a line or ring. -/
def line (dimension : Dimension) : Reader (List (Position Float)) :=
  commaSeparated (position dimension)

/-- Reads lines, each of them with a body of its own. -/
def lines (dimension : Dimension) : Reader (List (List (Position Float))) :=
  commaSeparated (body [] (line dimension))

/-- Reads polygons, each of them with a body of its own. -/
def polygons (dimension : Dimension) : Reader (List (List (Ring Float))) :=
  commaSeparated (body [] (lines dimension))

/-! ## Keywords -/

/-- The kinds that have a keyword of their own here. A linear ring reads as a line string. -/
def keywordKinds : List Kind :=
  [.point, .lineString, .polygon, .multiPoint, .multiLineString, .multiPolygon, .collection]

/-- The marks of the dimension, as they are attached to a keyword or follow it. -/
def dimensionMarks : List (String × Dimension) := [("Z", .xyz), ("M", .xym), ("ZM", .xyzm)]

/-- The dimension that a word is the mark of. -/
def markedDimension? (letters : List Char) : Option Dimension :=
  dimensionMarks.findSome? fun (mark, dimension) =>
    if isWord mark letters then some dimension else none

/-- The kind that a word stands for, and the dimension attached to it. -/
def keyword? (letters : List Char) : Option (Kind × Option Dimension) :=
  if isWord Kind.linearRing.keyword letters then some (.lineString, none)
  else keywordKinds.findSome? fun kind =>
    if isWord kind.keyword letters then some (kind, none)
    else dimensionMarks.findSome? fun (mark, dimension) =>
      if isWord (kind.keyword ++ mark) letters then some (kind, some dimension) else none

/-- Reads the mark of the dimension, if there is one. -/
def dimension : Reader Dimension := do
  match ← peek with
  | none | some .badNumber => throw .endOfText
  | some (.word letters) =>
    match markedDimension? letters with
    | some marked => do
      let _ ← next
      return marked
    | none => if isWord "EMPTY" letters then return .xy else throw .unexpectedWord
  | some _ => return .xy

/-! ## Reading shapes -/

/-- Reads the shape with the given keyword. The limit bounds how deep collections are nested. -/
def shape : Nat → List Char → Reader Shape
  | 0, _ => throw .unknownKeyword
  | limit + 1, letters => do
    let some (kind, attached) := keyword? letters | throw .unknownKeyword
    let d ← match attached with
      | some d => pure d
      | none => dimension
    match kind with
    | .point => .point <$> body none (some <$> position d)
    | .lineString | .linearRing => .lineString <$> body [] (line d)
    | .polygon => .polygon <$> body [] (lines d)
    | .multiPoint => .multiPoint <$> body [] (commaSeparated (loosePosition d))
    | .multiLineString => .multiLineString <$> body [] (lines d)
    | .multiPolygon => .multiPolygon <$> body [] (polygons d)
    | .collection => .collection <$> body [] (commaSeparated do
        match ← next with
        | some (.word letters) => shape limit letters
        | _ => throw .missingKeyword)

/-- Reads the shape at the front; what follows it is ignored. Each nested collection takes up a
lexeme, so their number bounds the nesting. -/
def firstShape : Reader Shape := do
  match ← next with
  | some (.word letters) =>
    if letters.all fun c => decide (c.toNat < 0x80) then shape ((← get).length + 1) letters
    else throw .nonAsciiWord
  | _ => throw .notWellKnownText

/-- The shape that a text denotes. -/
def read (cs : List Char) : Except TextFault Shape := (firstShape.run (lexemes cs)).1

/-! ## Geometries -/

mutual

/-- The geometry of a shape; there is none when a point in it is empty. -/
def Shape.geometry? : Shape → Option (Geometry Float)
  | .point p => p.map .point
  | .lineString ps => some (.lineString ps)
  | .polygon rings => some (.polygon (Polygon.ofRings rings))
  | .multiPoint ps => some (.multiPoint ps)
  | .multiLineString lines => some (.multiLineString lines)
  | .multiPolygon polygons => some (.multiPolygon (polygons.map Polygon.ofRings))
  | .collection members => (geometries? members).map .collection

/-- The geometries of a list of shapes, if all of them have one. -/
def geometries? : List Shape → Option (List (Geometry Float))
  | [] => some []
  | member :: members => do
    let g ← member.geometry?
    let gs ← geometries? members
    return g :: gs

end

end OccurrenceQuery.Geometry.Wkt
