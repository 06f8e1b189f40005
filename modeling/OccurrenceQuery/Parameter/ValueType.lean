/-
The types that the values of a search parameter can have, and the words that declare them.
-/
import OccurrenceQuery.Text.Basic
import OccurrenceQuery.Text.CharacterClass
import OccurrenceQuery.Vocabulary.Basic

namespace OccurrenceQuery

open OccurrenceQuery.Text

/-- The type of the values of a search parameter. Numbers, dates and distances can also be given as
ranges. -/
inductive ValueType where
  | decimal
  | latitude
  | longitude
  | integer
  | month
  | day
  | boolean
  | uuid
  | country
  | language
  | variant (vocabulary : Vocabulary)
  | date
  | geometry
  | distance
  | circle
  | text
deriving DecidableEq, Repr

namespace ValueType

/-- Whether the wildcard is a value of the type. Geometries and distances have to be given. -/
def acceptsWildcard : ValueType → Bool
  | geometry => false
  | distance => false
  | _ => true

/-! ## Words -/

/-- The word for a type, which also declares it. -/
def word : ValueType → String
  | decimal => "double"
  | latitude => "latitude"
  | longitude => "longitude"
  | integer => "integer"
  | month => "month"
  | day => "day"
  | boolean => "boolean"
  | uuid => "uuid"
  | country => "country"
  | language => "language"
  | variant vocabulary => "enum:" ++ vocabulary.name
  | date => "date"
  | geometry => "geometry"
  | distance => "distance"
  | circle => "geo_distance"
  | text => "string"

/-- The types that one word declares; variants take the name of a vocabulary besides. -/
def simple : List ValueType :=
  [.decimal, .latitude, .longitude, .integer, .month, .day, .boolean, .uuid, .country, .language,
   .date, .geometry, .distance, .circle, .text]

/-- The other words that declare types. -/
def aliases : List (String × ValueType) :=
  [("decimal", .decimal), ("numeric", .decimal), ("int", .integer), ("bool", .boolean),
   ("wkt", .geometry), ("geodistance", .circle), ("text", .text)]

/-- The words that declare types, with their types. -/
def words : List (String × ValueType) := (simple.map fun t => (t.word, t)) ++ aliases

/-- The type that a declaration between white space stands for, in any case of ASCII letters. -/
def read? (declaration : String) : Option ValueType :=
  let spec := trim declaration.toList
  match splitFirst ':' spec with
  | some (first, rest) =>
    if sameLetters first "enum".toList then
      (Vocabulary.byName (String.ofList (trim rest))).toOption.map .variant
    else none
  | none => words.lookup (String.ofList (asciiLower spec))

/-- The complaint about a declaration that stands for no type. -/
def unknownMessage (declaration : String) : String := s!"unknown parameter type '{declaration}'"

/-- `read?` with the complaint that there is no such type. -/
def read (declaration : String) : Except String ValueType :=
  match read? declaration with
  | some t => .ok t
  | none => .error (unknownMessage declaration)

end ValueType

end OccurrenceQuery
