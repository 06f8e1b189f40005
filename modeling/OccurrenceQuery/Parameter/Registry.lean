/-
Search parameters, the catalogue of those by which occurrences are searched, and registries of them.
In a registry a parameter is found under every spelling of its name, and a later one replaces an
earlier one of the same name.
-/
import OccurrenceQuery.Parameter.ValueType
import OccurrenceQuery.Rejection

namespace OccurrenceQuery

open OccurrenceQuery.Vocabulary

/-! ## Parameters -/

/-- A search parameter: its name and the type of its values. -/
structure Parameter where
  name : String
  type : ValueType
deriving DecidableEq, Repr

namespace Parameter

/-- The parameters by which occurrences are searched. -/
def catalogue : List Parameter :=
  [⟨"DATASET_KEY", .uuid⟩, ⟨"YEAR", .integer⟩, ⟨"MONTH", .month⟩, ⟨"DAY", .day⟩,
   ⟨"EVENT_DATE", .date⟩, ⟨"LAST_INTERPRETED", .date⟩, ⟨"DECIMAL_LATITUDE", .latitude⟩,
   ⟨"DECIMAL_LONGITUDE", .longitude⟩, ⟨"COUNTRY", .country⟩,
   ⟨"CONTINENT", .variant Vocabulary.continent⟩, ⟨"PUBLISHING_COUNTRY", .country⟩,
   ⟨"ELEVATION", .decimal⟩, ⟨"DEPTH", .decimal⟩, ⟨"COORDINATE_UNCERTAINTY_IN_METERS", .decimal⟩,
   ⟨"DISTANCE_FROM_CENTROID_IN_METERS", .decimal⟩, ⟨"INSTITUTION_CODE", .text⟩,
   ⟨"COLLECTION_CODE", .text⟩, ⟨"CATALOG_NUMBER", .text⟩, ⟨"RECORDED_BY", .text⟩,
   ⟨"RECORD_NUMBER", .text⟩, ⟨"BASIS_OF_RECORD", .variant Vocabulary.basisOfRecord⟩,
   ⟨"TAXON_KEY", .integer⟩, ⟨"KINGDOM_KEY", .integer⟩, ⟨"PHYLUM_KEY", .integer⟩,
   ⟨"CLASS_KEY", .integer⟩, ⟨"ORDER_KEY", .integer⟩, ⟨"FAMILY_KEY", .integer⟩,
   ⟨"GENUS_KEY", .integer⟩, ⟨"SUBGENUS_KEY", .integer⟩, ⟨"SPECIES_KEY", .integer⟩,
   ⟨"SCIENTIFIC_NAME", .text⟩, ⟨"HAS_COORDINATE", .boolean⟩, ⟨"HAS_GEOSPATIAL_ISSUE", .boolean⟩,
   ⟨"IS_EXTINCT", .boolean⟩, ⟨"REPATRIATED", .boolean⟩, ⟨"GEOMETRY", .geometry⟩,
   ⟨"GEO_DISTANCE", .circle⟩, ⟨"DISTANCE", .distance⟩,
   ⟨"TYPE_STATUS", .variant Vocabulary.typeStatus⟩, ⟨"MEDIA_TYPE", .variant Vocabulary.mediaType⟩,
   ⟨"ESTABLISHMENT_MEANS", .variant Vocabulary.establishmentMeans⟩,
   ⟨"PROTOCOL", .variant Vocabulary.endpointType⟩, ⟨"LICENSE", .variant Vocabulary.license⟩,
   ⟨"OCCURRENCE_ID", .text⟩, ⟨"ORGANISM_ID", .text⟩, ⟨"STATE_PROVINCE", .text⟩,
   ⟨"WATER_BODY", .text⟩, ⟨"LOCALITY", .text⟩, ⟨"PUBLISHING_ORG", .uuid⟩, ⟨"CRAWL_ID", .uuid⟩]

/-- The parameter of the catalogue that a text is a spelling of. -/
def ofName (text : String) : Except Rejection Parameter :=
  match findByName? name catalogue text with
  | some p => .ok p
  | none => .error (.unknownParameter text)

end Parameter

/-! ## Registries -/

/-- A registry: parameters under the normal form of their names, in the order of these. -/
structure Registry where
  entries : List (String × Parameter)
deriving DecidableEq, Repr

namespace Registry

/-- Puts a value under a key in its place, or in the place of the one with that key. -/
def place {α : Type} (key : String) (a : α) : List (String × α) → List (String × α)
  | [] => [(key, a)]
  | entry :: entries =>
    if key = entry.1 then (key, a) :: entries
    else if key < entry.1 then (key, a) :: entry :: entries
    else entry :: place key a entries

/-! ## Making registries -/

/-- The registry without parameters. -/
def empty : Registry := ⟨[]⟩

/-- The registry with one more parameter, or with another one of the same name in the place of the
old one. -/
def insert (r : Registry) (p : Parameter) : Registry := ⟨place (normalForm p.name) p r.entries⟩

/-- The registry with more parameters, one after the other. -/
def insertAll (r : Registry) (parameters : List Parameter) : Registry := parameters.foldl insert r

/-- The registry of the parameters of the catalogue. -/
def ofCatalogue : Registry := empty.insertAll Parameter.catalogue

/-! ## Queries -/

/-- The parameter under a name, with the spelling it was inserted with. -/
def get? (r : Registry) (name : String) : Option Parameter := r.entries.lookup (normalForm name)

/-- The type of the parameter under a name. -/
def resolve? (r : Registry) (name : String) : Option ValueType := (r.get? name).map Parameter.type

/-- The parameters, in the order of their normal forms. -/
def parameters (r : Registry) : List Parameter := r.entries.map Prod.snd

/-- The number of parameters. -/
def size (r : Registry) : Nat := r.entries.length

end Registry

end OccurrenceQuery
