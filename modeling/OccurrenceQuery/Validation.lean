/-
Checking the values of search parameters against their types.
-/
import OccurrenceQuery.Calendar.Period
import OccurrenceQuery.Distance.Basic
import OccurrenceQuery.Geometry.Search
import OccurrenceQuery.Geometry.Wkt.Outline
import OccurrenceQuery.Parameter.Registry
import OccurrenceQuery.Vocabulary.CodeTable

namespace OccurrenceQuery

open OccurrenceQuery.Text

/-! ## Single types -/

/-- Whether a text is true or false, in any case. -/
def isBoolean (cs : List Char) : Bool :=
  takeWord "true".toList cs == some [] || takeWord "false".toList cs == some []

/-- Whether `c` is a hexadecimal digit, in either case. -/
def isHexDigit (c : Char) : Bool :=
  c.isDigit || ('a' ≤ c && c ≤ 'f') || ('A' ≤ c && c ≤ 'F')

/-- The numbers of digits between the hyphens of a UUID. -/
def uuidGroups : List Nat := [8, 4, 4, 4, 12]

/-- Whether a text is a UUID in its form with hyphens. -/
def isUuid (cs : List Char) : Bool :=
  let groups := splitAll '-' cs
  groups.map List.length == uuidGroups && groups.all fun group => group.all isHexDigit

/-- Accepts a date or, when there is a comma, a range of dates. -/
def checkDates (text : String) : Except Rejection Unit :=
  if text.toList.contains ',' then discard (Calendar.readSpan text)
  else discard (Calendar.readPeriod text)

/-- Accepts a geometry that can be searched in, after its outline. -/
def checkGeometry (bounded : Bool) (text : String) : Except Rejection Unit := do
  (Geometry.checkOutline text).mapError .geometry
  discard ((Geometry.readSearchable bounded text).mapError .geometry)

/-- Accepts a text that a vocabulary has an answer for. -/
def checkVariant {α : Type} (answer : Except Vocabulary.Fault α) : Except Rejection Unit :=
  discard (answer.mapError fun fault => .value (.vocabulary fault))

/-! ## All types -/

/-- Accepts a text that is a value of the type, the wildcard aside. -/
def checkValue (bounded : Bool) (type : ValueType) (text : String) : Except Rejection Unit :=
  match type with
  | .decimal => Range.checkDecimals text
  | .latitude => Range.checkWithin Range.latitudes "latitude" text
  | .longitude => Range.checkWithin Range.longitudes "longitude" text
  | .integer => discard (Range.integers text)
  | .month => Range.integers text >>= Range.checkBetween 1 12 "month"
  | .day => Range.integers text >>= Range.checkBetween 1 31 "day"
  | .boolean =>
    if isBoolean text.toList then .ok () else .error (.value (.notBoolean text))
  | .uuid => if isUuid text.toList then .ok () else .error (.value (.notValid "UUID" text))
  | .country => checkVariant (Vocabulary.countries.lookup text)
  | .language => checkVariant (Vocabulary.languages.lookup text)
  | .variant vocabulary => checkVariant (vocabulary.parse text)
  | .date => checkDates text
  | .geometry => checkGeometry bounded text
  | .distance => Distance.check text
  | .circle => discard (Circle.readOnGlobe text)
  | .text => .ok ()

/-- Accepts a text that is a value of the type, or the wildcard if the type has it. When `bounded`,
the latitudes of a geometry have to lie on the globe. -/
def check (bounded : Bool) (type : ValueType) (text : String) : Except Rejection Unit :=
  if type.acceptsWildcard && Range.isWildcard text then .ok () else checkValue bounded type text

/-! ## Parameters -/

/-- A rejected value with the parameter it was given for. -/
structure InvalidValue where
  parameter : String
  value : String
  cause : Rejection

/-- The message about a rejected value. -/
def InvalidValue.message (invalid : InvalidValue) : String :=
  "value '" ++ invalid.value ++ "' invalid for search parameter " ++ invalid.parameter ++ ": " ++
    invalid.cause.message

/-- Accepts a value of a parameter. Latitudes in a geometry have to lie on the globe. -/
def validate (p : Parameter) (value : String) : Except InvalidValue Unit :=
  (check true p.type value).mapError fun cause => ⟨p.name, value, cause⟩

/-- Accepts a value of the parameter that a registry has under a name. -/
def validateNamed (r : Registry) (name value : String) : Except InvalidValue Unit :=
  match r.resolve? name with
  | some type => validate ⟨name, type⟩ value
  | none => .error ⟨name, value, .unknownParameter name⟩

end OccurrenceQuery
