/-
Units of length: their length in meters and the names they are written with.
-/

namespace OccurrenceQuery

/-- A unit of length. -/
inductive LengthUnit where
  | inch
  | yard
  | feet
  | kilometers
  | nauticalMiles
  | millimeters
  | centimeters
  | miles
  | meters
deriving DecidableEq, Repr

namespace LengthUnit

/-- The units in the order in which their names are tried at the end of a text. Other names end in
the one of the meter, which therefore comes last. -/
def all : List LengthUnit :=
  [.inch, .yard, .feet, .kilometers, .nauticalMiles, .millimeters, .centimeters, .miles, .meters]

/-- The length of a unit in meters. -/
def inMeters : LengthUnit → Float
  | inch => 0.0254
  | yard => 0.9144
  | feet => 0.3048
  | kilometers => 1000.0
  | nauticalMiles => 1852.0
  | millimeters => 0.001
  | centimeters => 0.01
  | miles => 1609.344
  | meters => 1.0

/-- The symbol of a unit, which is written after a number. -/
def symbol : LengthUnit → String
  | inch => "in"
  | yard => "yd"
  | feet => "ft"
  | kilometers => "km"
  | nauticalMiles => "NM"
  | millimeters => "mm"
  | centimeters => "cm"
  | miles => "mi"
  | meters => "m"

/-- The other names that a unit can be written with. -/
def longNames : LengthUnit → List String
  | inch => ["inch"]
  | yard => ["yards"]
  | feet => ["feet"]
  | kilometers => ["kilometers"]
  | nauticalMiles => ["nmi", "nauticalmiles"]
  | millimeters => ["millimeters"]
  | centimeters => ["centimeters"]
  | miles => ["miles"]
  | meters => ["meters"]

/-- The names of a unit, the symbol first. -/
def names (u : LengthUnit) : List String := u.symbol :: u.longNames

/-- The constant by which a unit is known in data. -/
def constant : LengthUnit → String
  | inch => "INCH"
  | yard => "YARD"
  | feet => "FEET"
  | kilometers => "KILOMETERS"
  | nauticalMiles => "NAUTICAL_MILES"
  | millimeters => "MILLIMETERS"
  | centimeters => "CENTIMETERS"
  | miles => "MILES"
  | meters => "METERS"

/-- The unit that data knows by a constant. -/
def ofConstant? (text : String) : Option LengthUnit := all.find? fun u => u.constant == text

/-- A length in the unit `u`, given in the unit `v`. -/
def convert (value : Float) (u v : LengthUnit) : Float :=
  if u = v then value else value * u.inMeters / v.inMeters

end LengthUnit

end OccurrenceQuery
