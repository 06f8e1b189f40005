/-
Closed vocabularies: a name and a fixed list of variants, each found under any of its spellings. Two
spellings of a name are the same name when they agree after the separators are dropped and the
letters are in upper case: dark-red, DARK_RED and Dark Red are one name. Some vocabularies are built
in.
-/
import OccurrenceQuery.Text.Case

namespace OccurrenceQuery

open OccurrenceQuery.Text

/-- A named, closed set of variants. -/
structure Vocabulary where
  name : String
  variants : List String
deriving DecidableEq, Repr

namespace Vocabulary

/-! ## Loose names -/

/-- The characters that a name may have between its words. -/
def isSeparator (c : Char) : Bool := c == '.' || c == ' ' || c == '_' || c == '-'

/-- The normal form of a name as a list of characters. -/
def normalLetters (cs : List Char) : List Char :=
  (cs.filter fun c => !isSeparator c).flatMap upper

/-- The normal form of a name, by which names are compared. -/
def normalForm (name : String) : String := String.ofList (normalLetters name.toList)

/-- Whether two texts are spellings of one name. -/
def sameName (a b : String) : Bool := normalForm a == normalForm b

/-- The first of `entries` whose name is a spelling of `text`. -/
def findByName? {α : Type} (name : α → String) (entries : List α) (text : String) : Option α :=
  let wanted := normalForm text
  entries.find? fun entry => normalForm (name entry) == wanted

/-! ## Variants -/

/-- Why a vocabulary gives no answer. -/
inductive Fault where
  /-- The text names nothing in the vocabulary. -/
  | unknownVariant (vocabulary text : String)
  /-- There is no vocabulary of this name. -/
  | unknownVocabulary (name : String)
deriving DecidableEq, Repr

/-- The message of a vocabulary that gives no answer. -/
def Fault.message : Fault → String
  | unknownVariant vocabulary text => s!"cannot parse '{text}' into a known {vocabulary}"
  | unknownVocabulary name => s!"unknown vocabulary '{name}'"

/-- The variant that a text is a spelling of. The empty text names nothing. -/
def lookup? (v : Vocabulary) (text : String) : Option String :=
  if text.isEmpty then none else findByName? id v.variants text

/-- The variant that a text is a spelling of, or the complaint that there is none. -/
def parse (v : Vocabulary) (text : String) : Except Fault String :=
  match v.lookup? text with
  | some variant => .ok variant
  | none => .error (.unknownVariant v.name text)

/-! ## Built-in vocabularies -/

/-- What the record of an occurrence rests on. -/
def basisOfRecord : Vocabulary where
  name := "BasisOfRecord"
  variants :=
    ["PRESERVED_SPECIMEN", "FOSSIL_SPECIMEN", "LIVING_SPECIMEN", "OBSERVATION",
     "HUMAN_OBSERVATION", "MACHINE_OBSERVATION", "MATERIAL_SAMPLE", "LITERATURE",
     "MATERIAL_CITATION", "OCCURRENCE", "UNKNOWN"]

/-- The continents that an occurrence can lie on. -/
def continent : Vocabulary where
  name := "Continent"
  variants :=
    ["AFRICA", "ANTARCTICA", "ASIA", "OCEANIA", "EUROPE", "NORTH_AMERICA", "SOUTH_AMERICA"]

/-- The kinds of endpoint that a dataset is served at. -/
def endpointType : Vocabulary where
  name := "EndpointType"
  variants :=
    ["EML", "FEED", "WFS", "WMS", "TCS_RDF", "TCS_XML", "DWC_ARCHIVE", "DIGIR", "DIGIR_MANIS",
     "TAPIR", "BIOCASE", "BIOCASE_XML_ARCHIVE", "OAI_PMH", "CAMTRAP_DP", "COLDP", "ACEF",
     "TEXT_TREE", "OTHER"]

/-- How an organism came to be where it was found. -/
def establishmentMeans : Vocabulary where
  name := "EstablishmentMeans"
  variants :=
    ["NATIVE", "INTRODUCED", "NATURALISED", "INVASIVE", "MANAGED", "UNCERTAIN"]

/-- The licenses that a dataset can be published under. -/
def license : Vocabulary where
  name := "License"
  variants :=
    ["CC0_1_0", "CC_BY_4_0", "CC_BY_NC_4_0", "UNSPECIFIED", "UNSUPPORTED"]

/-- The kinds of media attached to an occurrence. -/
def mediaType : Vocabulary where
  name := "MediaType"
  variants :=
    ["StillImage", "MovingImage", "Sound"]

/-- The roles that a specimen has for the name of a taxon. -/
def typeStatus : Vocabulary where
  name := "TypeStatus"
  variants :=
    ["TYPE", "TYPE_SPECIES", "TYPE_GENUS", "ALLOLECTOTYPE", "ALLONEOTYPE", "ALLOTYPE", "COTYPE",
     "EPITYPE", "EXEPITYPE", "EXHOLOTYPE", "EXISOTYPE", "EXLECTOTYPE", "EXNEOTYPE", "EXPARATYPE",
     "EXSYNTYPE", "EXTYPE", "HAPANTOTYPE", "HOLOTYPE", "ICONOTYPE", "ISOLECTOTYPE", "ISONEOTYPE",
     "ISOSYNTYPE", "ISOTYPE", "LECTOTYPE", "NEOTYPE", "NOTATYPE", "ORIGINALMATERIAL",
     "PARALECTOTYPE", "PARANEOTYPE", "PARATYPE", "PLASTOHOLOTYPE", "PLASTOISOTYPE",
     "PLASTOLECTOTYPE", "PLASTONEOTYPE", "PLASTOPARATYPE", "PLASTOSYNTYPE", "PLASTOTYPE",
     "SECONDARYTYPE", "SUPPLEMENTARYTYPE", "SYNTYPE", "TOPOTYPE"]

/-- The built-in vocabularies. -/
def builtin : List Vocabulary :=
  [basisOfRecord, continent, endpointType, establishmentMeans, license, mediaType, typeStatus]

/-- The built-in vocabulary with the given name, in any spelling. -/
def byName (text : String) : Except Fault Vocabulary :=
  match findByName? name builtin text with
  | some v => .ok v
  | none => .error (.unknownVocabulary text)

end Vocabulary

end OccurrenceQuery
