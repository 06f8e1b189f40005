/-
Distances: a number with a unit of length. Distances in different units are compared after one of
them is converted, and which of them decides what rounding does. A circle on the globe has a
latitude and a longitude, those of its centre, and a distance, its radius.
-/
import OccurrenceQuery.Distance.Unit
import OccurrenceQuery.Number.Layout
import OccurrenceQuery.Number.Reader
import OccurrenceQuery.Range.Basic
import OccurrenceQuery.Range.Numeric
import OccurrenceQuery.Rejection
import OccurrenceQuery.Text.Basic

namespace OccurrenceQuery

open OccurrenceQuery.Text OccurrenceQuery.Number

/-- A distance. -/
structure Distance where
  value : Float
  unit : LengthUnit

namespace Distance

/-! ## Comparison -/

/-- The number of a distance after it is converted to the unit `u`. -/
def inUnit (d : Distance) (u : LengthUnit) : Float := LengthUnit.convert d.value d.unit u

/-- Whether `a`, converted to the unit of `b`, is `b`. -/
def same (a b : Distance) : Bool := a.inUnit b.unit == b.value

/-- The order of two numbers, if both are numbers. -/
def order? (x y : Float) : Option Ordering :=
  if x < y then some .lt else if x == y then some .eq else if y < x then some .gt else none

/-- The order of `a` and `b` after `b` is converted to the unit of `a`. -/
def compare? (a b : Distance) : Option Ordering := order? a.value (b.inUnit a.unit)

/-! ## Text -/

/-- The number, and the symbol of the unit right after it. -/
def text (d : Distance) : String := Number.text d.value ++ d.unit.symbol

/-- The names of all units with their units, in the order in which they are tried. -/
def unitNames : List (String × LengthUnit) :=
  LengthUnit.all.flatMap fun u => u.names.map fun name => (name, u)

/-- What stands before the name of a unit, and the unit; without a name it is the meter. -/
def splitUnit (cs : List Char) : List Char × LengthUnit :=
  (unitNames.findSome? fun (name, u) =>
    (dropSuffix? name.toList cs).map fun number => (number, u)).getD (cs, .meters)

/-- The distance that a list of characters denotes. -/
def read? (cs : List Char) : Option Distance :=
  let (number, unit) := splitUnit (trim cs)
  (readFinite? number).map fun value => ⟨value, unit⟩

/-- `read?` with the complaint that the text is no distance. -/
def read (text : String) : Except Rejection Distance :=
  match read? text.toList with
  | some d => .ok d
  | none => .error (.value (.notValid "distance" (trimmed text)))

/-! ## Positive distances -/

/-- The distance greater than zero that a text denotes. -/
def readPositive (text : String) : Except Rejection Distance :=
  if text.isEmpty then .error (.value (.empty "distance"))
  else do
    let d ← read text
    if d.value ≤ 0.0 then throw (.value (.notPositive text))
    return d

/-- One side of a range of distances; the wildcard leaves it open. -/
def readSide (cs : List Char) : Except Rejection (Option Distance) :=
  if trim cs = Range.wildcard then .ok none
  else some <$> readPositive (String.ofList (trim cs))

/-- Accepts a positive distance, or two of them with a comma between that are in order. -/
def check (text : String) : Except Rejection Unit :=
  match splitFirst ',' text.toList with
  | none => discard (readPositive text)
  | some (before, after) => do
    match ← readSide before, ← readSide after with
    | some lower, some upper =>
      if lower.compare? upper = some .gt then throw (.range (.exceeds "distance" text))
    | _, _ => return ()

end Distance

/-! ## Circles -/

/-- A circle around a point. -/
structure Circle where
  latitude : Float
  longitude : Float
  radius : Distance

namespace Circle

/-- A circle as it is written: the three parts with commas between them. -/
def text (c : Circle) : String :=
  Number.text c.latitude ++ ", " ++ Number.text c.longitude ++ ", " ++ c.radius.text

/-- The coordinate that a text denotes, with no bounds yet. -/
def readCoordinate (cs : List Char) : Except Rejection Float :=
  match readFinite? cs with
  | some x => .ok x
  | none => .error (.value (.notValid "coordinate" (String.ofList cs)))

/-- The circle that a text denotes, wherever its centre and whatever its radius. -/
def read (text : String) : Except Rejection Circle :=
  if (trim text.toList).isEmpty then .error (.value (.empty "geo distance"))
  else match (splitAll ',' text.toList).map trim with
    | [latitude, longitude, radius] => do
      let latitude ← readCoordinate latitude
      let longitude ← readCoordinate longitude
      let radius ← Distance.read (String.ofList radius)
      return ⟨latitude, longitude, radius⟩
    | _ => .error (.value (.notCircle text))

/-- Accepts a coordinate within bounds. -/
def checkCoordinate (bounds : Range Float) (what : String) (x : Float) : Except Rejection Unit :=
  if bounds.contains x then .ok ()
  else .error (.value (.outside what (Number.text x) (bounds.text Number.text)))

/-- The circle that a text denotes, with its centre on the globe and a positive radius. -/
def readOnGlobe (text : String) : Except Rejection Circle := do
  let c ← read text
  checkCoordinate Range.latitudes "latitude" c.latitude
  checkCoordinate Range.longitudes "longitude" c.longitude
  if c.radius.value ≤ 0.0 then throw (.value (.notPositive c.radius.text))
  return c

end Circle

end OccurrenceQuery
