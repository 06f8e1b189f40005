/-
Vocabularies whose variants have codes: a text is first tried as a code of two or three letters,
then as a name. Two of them are built in: the countries of ISO 3166-1, with the codes assigned by
users for Kosovo, international waters and an unknown country, and the languages of ISO 639.
-/
import OccurrenceQuery.Text.Basic
import OccurrenceQuery.Text.CharacterClass
import OccurrenceQuery.Vocabulary.Basic

namespace OccurrenceQuery.Vocabulary

open OccurrenceQuery.Text

/-! ## Looking up -/

/-- A variant with its two codes. -/
structure CodedName where
  alpha2 : String
  alpha3 : String
  name : String
deriving DecidableEq, Repr

/-- A vocabulary of names with codes; `writeCode` brings the ASCII letters of a code to the case in
which the table has them, and `isNameless` tells the texts that are not looked up as names. -/
structure CodeTable where
  vocabulary : String
  writeCode : List Char → List Char
  isNameless : String → Bool
  entries : List CodedName

namespace CodeTable

/-- The entry with the given code, in any case, between white space. Whether a code is one of two or
of three letters is told by its length in bytes. -/
def byCode? (table : CodeTable) (text : String) : Option CodedName :=
  let code := String.ofList (table.writeCode (trim text.toList))
  match code.utf8ByteSize with
  | 2 => table.entries.find? fun entry => entry.alpha2 == code
  | 3 => table.entries.find? fun entry => entry.alpha3 == code
  | _ => none

/-- The entry whose name the text is a spelling of. -/
def byName? (table : CodeTable) (text : String) : Option CodedName :=
  if table.isNameless text then none else findByName? CodedName.name table.entries text

/-- The entry that a text stands for, as a code or as a name. -/
def lookup (table : CodeTable) (text : String) : Except Fault CodedName :=
  match (table.byCode? text).or (table.byName? text) with
  | some entry => .ok entry
  | none => .error (.unknownVariant table.vocabulary text)

end CodeTable

/-! ## Countries -/

/-- The countries. Their codes are in upper case. -/
def countries : CodeTable where
  vocabulary := "Country"
  writeCode := asciiUpper
  isNameless := String.isEmpty
  entries :=
    [⟨"AD", "AND", "ANDORRA"⟩, ⟨"AE", "ARE", "UNITED_ARAB_EMIRATES"⟩,
     ⟨"AF", "AFG", "AFGHANISTAN"⟩, ⟨"AG", "ATG", "ANTIGUA_BARBUDA"⟩, ⟨"AI", "AIA", "ANGUILLA"⟩,
     ⟨"AL", "ALB", "ALBANIA"⟩, ⟨"AM", "ARM", "ARMENIA"⟩, ⟨"AO", "AGO", "ANGOLA"⟩,
     ⟨"AQ", "ATA", "ANTARCTICA"⟩, ⟨"AR", "ARG", "ARGENTINA"⟩, ⟨"AS", "ASM", "AMERICAN_SAMOA"⟩,
     ⟨"AT", "AUT", "AUSTRIA"⟩, ⟨"AU", "AUS", "AUSTRALIA"⟩, ⟨"AW", "ABW", "ARUBA"⟩,
     ⟨"AX", "ALA", "ALAND_ISLANDS"⟩, ⟨"AZ", "AZE", "AZERBAIJAN"⟩,
     ⟨"BA", "BIH", "BOSNIA_HERZEGOVINA"⟩, ⟨"BB", "BRB", "BARBADOS"⟩, ⟨"BD", "BGD", "BANGLADESH"⟩,
     ⟨"BE", "BEL", "BELGIUM"⟩, ⟨"BF", "BFA", "BURKINA_FASO"⟩, ⟨"BG", "BGR", "BULGARIA"⟩,
     ⟨"BH", "BHR", "BAHRAIN"⟩, ⟨"BI", "BDI", "BURUNDI"⟩, ⟨"BJ", "BEN", "BENIN"⟩,
     ⟨"BL", "BLM", "SAINT_BARTHELEMY"⟩, ⟨"BM", "BMU", "BERMUDA"⟩,
     ⟨"BN", "BRN", "BRUNEI_DARUSSALAM"⟩, ⟨"BO", "BOL", "BOLIVIA"⟩,
     ⟨"BQ", "BES", "BONAIRE_SINT_EUSTATIUS_SABA"⟩, ⟨"BR", "BRA", "BRAZIL"⟩,
     ⟨"BS", "BHS", "BAHAMAS"⟩, ⟨"BT", "BTN", "BHUTAN"⟩, ⟨"BV", "BVT", "BOUVET_ISLAND"⟩,
     ⟨"BW", "BWA", "BOTSWANA"⟩, ⟨"BY", "BLR", "BELARUS"⟩, ⟨"BZ", "BLZ", "BELIZE"⟩,
     ⟨"CA", "CAN", "CANADA"⟩, ⟨"CC", "CCK", "COCOS_ISLANDS"⟩,
     ⟨"CD", "COD", "CONGO_DEMOCRATIC_REPUBLIC"⟩, ⟨"CF", "CAF", "CENTRAL_AFRICAN_REPUBLIC"⟩,
     ⟨"CG", "COG", "CONGO"⟩, ⟨"CH", "CHE", "SWITZERLAND"⟩, ⟨"CI", "CIV", "COTE_DIVOIRE"⟩,
     ⟨"CK", "COK", "COOK_ISLANDS"⟩, ⟨"CL", "CHL", "CHILE"⟩, ⟨"CM", "CMR", "CAMEROON"⟩,
     ⟨"CN", "CHN", "CHINA"⟩, ⟨"CO", "COL", "COLOMBIA"⟩, ⟨"CR", "CRI", "COSTA_RICA"⟩,
     ⟨"CU", "CUB", "CUBA"⟩, ⟨"CV", "CPV", "CAPE_VERDE"⟩, ⟨"CW", "CUW", "CURACAO"⟩,
     ⟨"CX", "CXR", "CHRISTMAS_ISLAND"⟩, ⟨"CY", "CYP", "CYPRUS"⟩, ⟨"CZ", "CZE", "CZECH_REPUBLIC"⟩,
     ⟨"DE", "DEU", "GERMANY"⟩, ⟨"DJ", "DJI", "DJIBOUTI"⟩, ⟨"DK", "DNK", "DENMARK"⟩,
     ⟨"DM", "DMA", "DOMINICA"⟩, ⟨"DO", "DOM", "DOMINICAN_REPUBLIC"⟩, ⟨"DZ", "DZA", "ALGERIA"⟩,
     ⟨"EC", "ECU", "ECUADOR"⟩, ⟨"EE", "EST", "ESTONIA"⟩, ⟨"EG", "EGY", "EGYPT"⟩,
     ⟨"EH", "ESH", "WESTERN_SAHARA"⟩, ⟨"ER", "ERI", "ERITREA"⟩, ⟨"ES", "ESP", "SPAIN"⟩,
     ⟨"ET", "ETH", "ETHIOPIA"⟩, ⟨"FI", "FIN", "FINLAND"⟩, ⟨"FJ", "FJI", "FIJI"⟩,
     ⟨"FK", "FLK", "FALKLAND_ISLANDS"⟩, ⟨"FM", "FSM", "MICRONESIA"⟩,
     ⟨"FO", "FRO", "FAROE_ISLANDS"⟩, ⟨"FR", "FRA", "FRANCE"⟩, ⟨"GA", "GAB", "GABON"⟩,
     ⟨"GB", "GBR", "UNITED_KINGDOM"⟩, ⟨"GD", "GRD", "GRENADA"⟩, ⟨"GE", "GEO", "GEORGIA"⟩,
     ⟨"GF", "GUF", "FRENCH_GUIANA"⟩, ⟨"GG", "GGY", "GUERNSEY"⟩, ⟨"GH", "GHA", "GHANA"⟩,
     ⟨"GI", "GIB", "GIBRALTAR"⟩, ⟨"GL", "GRL", "GREENLAND"⟩, ⟨"GM", "GMB", "GAMBIA"⟩,
     ⟨"GN", "GIN", "GUINEA"⟩, ⟨"GP", "GLP", "GUADELOUPE"⟩, ⟨"GQ", "GNQ", "EQUATORIAL_GUINEA"⟩,
     ⟨"GR", "GRC", "GREECE"⟩, ⟨"GS", "SGS", "SOUTH_GEORGIA_SANDWICH_ISLANDS"⟩,
     ⟨"GT", "GTM", "GUATEMALA"⟩, ⟨"GU", "GUM", "GUAM"⟩, ⟨"GW", "GNB", "GUINEA_BISSAU"⟩,
     ⟨"GY", "GUY", "GUYANA"⟩, ⟨"HK", "HKG", "HONG_KONG"⟩, ⟨"HM", "HMD", "HEARD_MCDONALD_ISLANDS"⟩,
     ⟨"HN", "HND", "HONDURAS"⟩, ⟨"HR", "HRV", "CROATIA"⟩, ⟨"HT", "HTI", "HAITI"⟩,
     ⟨"HU", "HUN", "HUNGARY"⟩, ⟨"ID", "IDN", "INDONESIA"⟩, ⟨"IE", "IRL", "IRELAND"⟩,
     ⟨"IL", "ISR", "ISRAEL"⟩, ⟨"IM", "IMN", "ISLE_OF_MAN"⟩, ⟨"IN", "IND", "INDIA"⟩,
     ⟨"IO", "IOT", "BRITISH_INDIAN_OCEAN_TERRITORY"⟩, ⟨"IQ", "IRQ", "IRAQ"⟩,
     ⟨"IR", "IRN", "IRAN"⟩, ⟨"IS", "ISL", "ICELAND"⟩, ⟨"IT", "ITA", "ITALY"⟩,
     ⟨"JE", "JEY", "JERSEY"⟩, ⟨"JM", "JAM", "JAMAICA"⟩, ⟨"JO", "JOR", "JORDAN"⟩,
     ⟨"JP", "JPN", "JAPAN"⟩, ⟨"KE", "KEN", "KENYA"⟩, ⟨"KG", "KGZ", "KYRGYZSTAN"⟩,
     ⟨"KH", "KHM", "CAMBODIA"⟩, ⟨"KI", "KIR", "KIRIBATI"⟩, ⟨"KM", "COM", "COMOROS"⟩,
     ⟨"KN", "KNA", "SAINT_KITTS_NEVIS"⟩, ⟨"KP", "PRK", "KOREA_NORTH"⟩,
     ⟨"KR", "KOR", "KOREA_SOUTH"⟩, ⟨"KW", "KWT", "KUWAIT"⟩, ⟨"KY", "CYM", "CAYMAN_ISLANDS"⟩,
     ⟨"KZ", "KAZ", "KAZAKHSTAN"⟩, ⟨"LA", "LAO", "LAO"⟩, ⟨"LB", "LBN", "LEBANON"⟩,
     ⟨"LC", "LCA", "SAINT_LUCIA"⟩, ⟨"LI", "LIE", "LIECHTENSTEIN"⟩, ⟨"LK", "LKA", "SRI_LANKA"⟩,
     ⟨"LR", "LBR", "LIBERIA"⟩, ⟨"LS", "LSO", "LESOTHO"⟩, ⟨"LT", "LTU", "LITHUANIA"⟩,
     ⟨"LU", "LUX", "LUXEMBOURG"⟩, ⟨"LV", "LVA", "LATVIA"⟩, ⟨"LY", "LBY", "LIBYA"⟩,
     ⟨"MA", "MAR", "MOROCCO"⟩, ⟨"MC", "MCO", "MONACO"⟩, ⟨"MD", "MDA", "MOLDOVA"⟩,
     ⟨"ME", "MNE", "MONTENEGRO"⟩, ⟨"MF", "MAF", "SAINT_MARTIN_FRENCH"⟩,
     ⟨"MG", "MDG", "MADAGASCAR"⟩, ⟨"MH", "MHL", "MARSHALL_ISLANDS"⟩, ⟨"MK", "MKD", "MACEDONIA"⟩,
     ⟨"ML", "MLI", "MALI"⟩, ⟨"MM", "MMR", "MYANMAR"⟩, ⟨"MN", "MNG", "MONGOLIA"⟩,
     ⟨"MO", "MAC", "MACAO"⟩, ⟨"MP", "MNP", "NORTHERN_MARIANA_ISLANDS"⟩,
     ⟨"MQ", "MTQ", "MARTINIQUE"⟩, ⟨"MR", "MRT", "MAURITANIA"⟩, ⟨"MS", "MSR", "MONTSERRAT"⟩,
     ⟨"MT", "MLT", "MALTA"⟩, ⟨"MU", "MUS", "MAURITIUS"⟩, ⟨"MV", "MDV", "MALDIVES"⟩,
     ⟨"MW", "MWI", "MALAWI"⟩, ⟨"MX", "MEX", "MEXICO"⟩, ⟨"MY", "MYS", "MALAYSIA"⟩,
     ⟨"MZ", "MOZ", "MOZAMBIQUE"⟩, ⟨"NA", "NAM", "NAMIBIA"⟩, ⟨"NC", "NCL", "NEW_CALEDONIA"⟩,
     ⟨"NE", "NER", "NIGER"⟩, ⟨"NF", "NFK", "NORFOLK_ISLAND"⟩, ⟨"NG", "NGA", "NIGERIA"⟩,
     ⟨"NI", "NIC", "NICARAGUA"⟩, ⟨"NL", "NLD", "NETHERLANDS"⟩, ⟨"NO", "NOR", "NORWAY"⟩,
     ⟨"NP", "NPL", "NEPAL"⟩, ⟨"NR", "NRU", "NAURU"⟩, ⟨"NU", "NIU", "NIUE"⟩,
     ⟨"NZ", "NZL", "NEW_ZEALAND"⟩, ⟨"OM", "OMN", "OMAN"⟩, ⟨"PA", "PAN", "PANAMA"⟩,
     ⟨"PE", "PER", "PERU"⟩, ⟨"PF", "PYF", "FRENCH_POLYNESIA"⟩, ⟨"PG", "PNG", "PAPUA_NEW_GUINEA"⟩,
     ⟨"PH", "PHL", "PHILIPPINES"⟩, ⟨"PK", "PAK", "PAKISTAN"⟩, ⟨"PL", "POL", "POLAND"⟩,
     ⟨"PM", "SPM", "SAINT_PIERRE_MIQUELON"⟩, ⟨"PN", "PCN", "PITCAIRN"⟩,
     ⟨"PR", "PRI", "PUERTO_RICO"⟩, ⟨"PS", "PSE", "PALESTINIAN_TERRITORY"⟩,
     ⟨"PT", "PRT", "PORTUGAL"⟩, ⟨"PW", "PLW", "PALAU"⟩, ⟨"PY", "PRY", "PARAGUAY"⟩,
     ⟨"QA", "QAT", "QATAR"⟩, ⟨"RE", "REU", "REUNION"⟩, ⟨"RO", "ROU", "ROMANIA"⟩,
     ⟨"RS", "SRB", "SERBIA"⟩, ⟨"RU", "RUS", "RUSSIAN_FEDERATION"⟩, ⟨"RW", "RWA", "RWANDA"⟩,
     ⟨"SA", "SAU", "SAUDI_ARABIA"⟩, ⟨"SB", "SLB", "SOLOMON_ISLANDS"⟩, ⟨"SC", "SYC", "SEYCHELLES"⟩,
     ⟨"SD", "SDN", "SUDAN"⟩, ⟨"SE", "SWE", "SWEDEN"⟩, ⟨"SG", "SGP", "SINGAPORE"⟩,
     ⟨"SH", "SHN", "SAINT_HELENA_ASCENSION_TRISTAN_DA_CUNHA"⟩, ⟨"SI", "SVN", "SLOVENIA"⟩,
     ⟨"SJ", "SJM", "SVALBARD_JAN_MAYEN"⟩, ⟨"SK", "SVK", "SLOVAKIA"⟩,
     ⟨"SL", "SLE", "SIERRA_LEONE"⟩, ⟨"SM", "SMR", "SAN_MARINO"⟩, ⟨"SN", "SEN", "SENEGAL"⟩,
     ⟨"SO", "SOM", "SOMALIA"⟩, ⟨"SR", "SUR", "SURINAME"⟩, ⟨"SS", "SSD", "SOUTH_SUDAN"⟩,
     ⟨"ST", "STP", "SAO_TOME_PRINCIPE"⟩, ⟨"SV", "SLV", "EL_SALVADOR"⟩,
     ⟨"SX", "SXM", "SINT_MAARTEN"⟩, ⟨"SY", "SYR", "SYRIA"⟩, ⟨"SZ", "SWZ", "SWAZILAND"⟩,
     ⟨"TC", "TCA", "TURKS_CAICOS_ISLANDS"⟩, ⟨"TD", "TCD", "CHAD"⟩,
     ⟨"TF", "ATF", "FRENCH_SOUTHERN_TERRITORIES"⟩, ⟨"TG", "TGO", "TOGO"⟩,
     ⟨"TH", "THA", "THAILAND"⟩, ⟨"TJ", "TJK", "TAJIKISTAN"⟩, ⟨"TK", "TKL", "TOKELAU"⟩,
     ⟨"TL", "TLS", "TIMOR_LESTE"⟩, ⟨"TM", "TKM", "TURKMENISTAN"⟩, ⟨"TN", "TUN", "TUNISIA"⟩,
     ⟨"TO", "TON", "TONGA"⟩, ⟨"TR", "TUR", "TURKEY"⟩, ⟨"TT", "TTO", "TRINIDAD_TOBAGO"⟩,
     ⟨"TV", "TUV", "TUVALU"⟩, ⟨"TW", "TWN", "TAIWAN"⟩, ⟨"TZ", "TZA", "TANZANIA"⟩,
     ⟨"UA", "UKR", "UKRAINE"⟩, ⟨"UG", "UGA", "UGANDA"⟩,
     ⟨"UM", "UMI", "UNITED_STATES_OUTLYING_ISLANDS"⟩, ⟨"US", "USA", "UNITED_STATES"⟩,
     ⟨"UY", "URY", "URUGUAY"⟩, ⟨"UZ", "UZB", "UZBEKISTAN"⟩, ⟨"VA", "VAT", "VATICAN"⟩,
     ⟨"VC", "VCT", "SAINT_VINCENT_GRENADINES"⟩, ⟨"VE", "VEN", "VENEZUELA"⟩,
     ⟨"VG", "VGB", "VIRGIN_ISLANDS_BRITISH"⟩, ⟨"VI", "VIR", "VIRGIN_ISLANDS"⟩,
     ⟨"VN", "VNM", "VIETNAM"⟩, ⟨"VU", "VUT", "VANUATU"⟩, ⟨"WF", "WLF", "WALLIS_FUTUNA"⟩,
     ⟨"WS", "WSM", "SAMOA"⟩, ⟨"XK", "XKX", "KOSOVO"⟩, ⟨"XZ", "XZZ", "INTERNATIONAL_WATERS"⟩,
     ⟨"YE", "YEM", "YEMEN"⟩, ⟨"YT", "MYT", "MAYOTTE"⟩, ⟨"ZA", "ZAF", "SOUTH_AFRICA"⟩,
     ⟨"ZM", "ZMB", "ZAMBIA"⟩, ⟨"ZW", "ZWE", "ZIMBABWE"⟩, ⟨"ZZ", "ZZZ", "UNKNOWN"⟩]

/-! ## Languages -/

/-- The languages. Their codes are in lower case, and a text of nothing but separators is not looked
up as a name. -/
def languages : CodeTable where
  vocabulary := "Language"
  writeCode := asciiLower
  isNameless text := (normalForm text).isEmpty
  entries :=
    [⟨"aa", "aar", "AFAR"⟩, ⟨"ab", "abk", "ABKHAZIAN"⟩, ⟨"ae", "ave", "AVESTAN"⟩,
     ⟨"af", "afr", "AFRIKAANS"⟩, ⟨"ak", "aka", "AKAN"⟩, ⟨"am", "amh", "AMHARIC"⟩,
     ⟨"an", "arg", "ARAGONESE"⟩, ⟨"ar", "ara", "ARABIC"⟩, ⟨"as", "asm", "ASSAMESE"⟩,
     ⟨"av", "ava", "AVARIC"⟩, ⟨"ay", "aym", "AYMARA"⟩, ⟨"az", "aze", "AZERBAIJANI"⟩,
     ⟨"ba", "bak", "BASHKIR"⟩, ⟨"be", "bel", "BELARUSIAN"⟩, ⟨"bg", "bul", "BULGARIAN"⟩,
     ⟨"bh", "bih", "BIHARI"⟩, ⟨"bi", "bis", "BISLAMA"⟩, ⟨"bm", "bam", "BAMBARA"⟩,
     ⟨"bn", "ben", "BENGALI"⟩, ⟨"bo", "bod", "TIBETAN"⟩, ⟨"br", "bre", "BRETON"⟩,
     ⟨"bs", "bos", "BOSNIAN"⟩, ⟨"ca", "cat", "CATALAN"⟩, ⟨"ce", "che", "CHECHEN"⟩,
     ⟨"ch", "cha", "CHAMORRO"⟩, ⟨"co", "cos", "CORSICAN"⟩, ⟨"cr", "cre", "CREE"⟩,
     ⟨"cs", "ces", "CZECH"⟩, ⟨"cu", "chu", "CHURCH_SLAVIC"⟩, ⟨"cv", "chv", "CHUVASH"⟩,
     ⟨"cy", "cym", "WELSH"⟩, ⟨"da", "dan", "DANISH"⟩, ⟨"de", "deu", "GERMAN"⟩,
     ⟨"dv", "div", "DIVEHI"⟩, ⟨"dz", "dzo", "DZONGKHA"⟩, ⟨"ee", "ewe", "EWE"⟩,
     ⟨"el", "ell", "GREEK"⟩, ⟨"en", "eng", "ENGLISH"⟩, ⟨"eo", "epo", "ESPERANTO"⟩,
     ⟨"es", "spa", "SPANISH"⟩, ⟨"et", "est", "ESTONIAN"⟩, ⟨"eu", "eus", "BASQUE"⟩,
     ⟨"fa", "fas", "PERSIAN"⟩, ⟨"ff", "ful", "FULAH"⟩, ⟨"fi", "fin", "FINNISH"⟩,
     ⟨"fj", "fij", "FIJIAN"⟩, ⟨"fo", "fao", "FAROESE"⟩, ⟨"fr", "fra", "FRENCH"⟩,
     ⟨"fy", "fry", "WESTERN_FRISIAN"⟩, ⟨"ga", "gle", "IRISH"⟩, ⟨"gd", "gla", "SCOTTISH_GAELIC"⟩,
     ⟨"gl", "glg", "GALICIAN"⟩, ⟨"gn", "grn", "GUARANI"⟩, ⟨"gu", "guj", "GUJARATI"⟩,
     ⟨"gv", "glv", "MANX"⟩, ⟨"ha", "hau", "HAUSA"⟩, ⟨"he", "heb", "HEBREW"⟩,
     ⟨"hi", "hin", "HINDI"⟩, ⟨"ho", "hmo", "HIRI_MOTU"⟩, ⟨"hr", "hrv", "CROATIAN"⟩,
     ⟨"ht", "hat", "HAITIAN"⟩, ⟨"hu", "hun", "HUNGARIAN"⟩, ⟨"hy", "hye", "ARMENIAN"⟩,
     ⟨"hz", "her", "HERERO"⟩, ⟨"ia", "ina", "INTERLINGUA"⟩, ⟨"id", "ind", "INDONESIAN"⟩,
     ⟨"ie", "ile", "INTERLINGUE"⟩, ⟨"ig", "ibo", "IGBO"⟩, ⟨"ii", "iii", "SICHUAN_YI"⟩,
     ⟨"ik", "ipk", "INUPIAQ"⟩, ⟨"io", "ido", "IDO"⟩, ⟨"is", "isl", "ICELANDIC"⟩,
     ⟨"it", "ita", "ITALIAN"⟩, ⟨"iu", "iku", "INUKTITUT"⟩, ⟨"ja", "jpn", "JAPANESE"⟩,
     ⟨"jv", "jav", "JAVANESE"⟩, ⟨"ka", "kat", "GEORGIAN"⟩, ⟨"kg", "kon", "KONGO"⟩,
     ⟨"ki", "kik", "KIKUYU"⟩, ⟨"kj", "kua", "KUANYAMA"⟩, ⟨"kk", "kaz", "KAZAKH"⟩,
     ⟨"kl", "kal", "KALAALLISUT"⟩, ⟨"km", "khm", "KHMER"⟩, ⟨"kn", "kan", "KANNADA"⟩,
     ⟨"ko", "kor", "KOREAN"⟩, ⟨"kr", "kau", "KANURI"⟩, ⟨"ks", "kas", "KASHMIRI"⟩,
     ⟨"ku", "kur", "KURDISH"⟩, ⟨"kv", "kom", "KOMI"⟩, ⟨"kw", "cor", "CORNISH"⟩,
     ⟨"ky", "kir", "KIRGHIZ"⟩, ⟨"la", "lat", "LATIN"⟩, ⟨"lb", "ltz", "LUXEMBOURGISH"⟩,
     ⟨"lg", "lug", "GANDA"⟩, ⟨"li", "lim", "LIMBURGISH"⟩, ⟨"ln", "lin", "LINGALA"⟩,
     ⟨"lo", "lao", "LAO"⟩, ⟨"lt", "lit", "LITHUANIAN"⟩, ⟨"lu", "lub", "LUBA_KATANGA"⟩,
     ⟨"lv", "lav", "LATVIAN"⟩, ⟨"mg", "mlg", "MALAGASY"⟩, ⟨"mh", "mah", "MARSHALLESE"⟩,
     ⟨"mi", "mri", "MAORI"⟩, ⟨"mk", "mkd", "MACEDONIAN"⟩, ⟨"ml", "mal", "MALAYALAM"⟩,
     ⟨"mn", "mon", "MONGOLIAN"⟩, ⟨"mr", "mar", "MARATHI"⟩, ⟨"ms", "msa", "MALAY"⟩,
     ⟨"mt", "mlt", "MALTESE"⟩, ⟨"my", "mya", "BURMESE"⟩, ⟨"na", "nau", "NAURU"⟩,
     ⟨"nb", "nob", "NORWEGIAN_BOKMAL"⟩, ⟨"nd", "nde", "NORTH_NDEBELE"⟩, ⟨"ne", "nep", "NEPALI"⟩,
     ⟨"ng", "ndo", "NDONGA"⟩, ⟨"nl", "nld", "DUTCH"⟩, ⟨"nn", "nno", "NORWEGIAN_NYNORSK"⟩,
     ⟨"no", "nor", "NORWEGIAN"⟩, ⟨"nr", "nbl", "SOUTH_NDEBELE"⟩, ⟨"nv", "nav", "NAVAJO"⟩,
     ⟨"ny", "nya", "CHICHEWA"⟩, ⟨"oc", "oci", "OCCITAN"⟩, ⟨"oj", "oji", "OJIBWA"⟩,
     ⟨"om", "orm", "OROMO"⟩, ⟨"or", "ori", "ORIYA"⟩, ⟨"os", "oss", "OSSETIAN"⟩,
     ⟨"pa", "pan", "PUNJABI"⟩, ⟨"pi", "pli", "PALI"⟩, ⟨"pl", "pol", "POLISH"⟩,
     ⟨"ps", "pus", "PASHTO"⟩, ⟨"pt", "por", "PORTUGUESE"⟩, ⟨"qu", "que", "QUECHUA"⟩,
     ⟨"rm", "roh", "ROMANSH"⟩, ⟨"rn", "run", "RUNDI"⟩, ⟨"ro", "ron", "ROMANIAN"⟩,
     ⟨"ru", "rus", "RUSSIAN"⟩, ⟨"rw", "kin", "KINYARWANDA"⟩, ⟨"sa", "san", "SANSKRIT"⟩,
     ⟨"sc", "srd", "SARDINIAN"⟩, ⟨"sd", "snd", "SINDHI"⟩, ⟨"se", "sme", "NORTHERN_SAMI"⟩,
     ⟨"sg", "sag", "SANGO"⟩, ⟨"si", "sin", "SINHALA"⟩, ⟨"sk", "slk", "SLOVAK"⟩,
     ⟨"sl", "slv", "SLOVENIAN"⟩, ⟨"sm", "smo", "SAMOAN"⟩, ⟨"sn", "sna", "SHONA"⟩,
     ⟨"so", "som", "SOMALI"⟩, ⟨"sq", "sqi", "ALBANIAN"⟩, ⟨"sr", "srp", "SERBIAN"⟩,
     ⟨"ss", "ssw", "SWATI"⟩, ⟨"st", "sot", "SOUTHERN_SOTHO"⟩, ⟨"su", "sun", "SUNDANESE"⟩,
     ⟨"sv", "swe", "SWEDISH"⟩, ⟨"sw", "swa", "SWAHILI"⟩, ⟨"ta", "tam", "TAMIL"⟩,
     ⟨"te", "tel", "TELUGU"⟩, ⟨"tg", "tgk", "TAJIK"⟩, ⟨"th", "tha", "THAI"⟩,
     ⟨"ti", "tir", "TIGRINYA"⟩, ⟨"tk", "tuk", "TURKMEN"⟩, ⟨"tl", "tgl", "TAGALOG"⟩,
     ⟨"tn", "tsn", "TSWANA"⟩, ⟨"to", "ton", "TONGA"⟩, ⟨"tr", "tur", "TURKISH"⟩,
     ⟨"ts", "tso", "TSONGA"⟩, ⟨"tt", "tat", "TATAR"⟩, ⟨"tw", "twi", "TWI"⟩,
     ⟨"ty", "tah", "TAHITIAN"⟩, ⟨"ug", "uig", "UIGHUR"⟩, ⟨"uk", "ukr", "UKRAINIAN"⟩,
     ⟨"ur", "urd", "URDU"⟩, ⟨"uz", "uzb", "UZBEK"⟩, ⟨"ve", "ven", "VENDA"⟩,
     ⟨"vi", "vie", "VIETNAMESE"⟩, ⟨"vo", "vol", "VOLAPUK"⟩, ⟨"wa", "wln", "WALLOON"⟩,
     ⟨"wo", "wol", "WOLOF"⟩, ⟨"xh", "xho", "XHOSA"⟩, ⟨"yi", "yid", "YIDDISH"⟩,
     ⟨"yo", "yor", "YORUBA"⟩, ⟨"za", "zha", "ZHUANG"⟩, ⟨"zh", "zho", "CHINESE"⟩,
     ⟨"zu", "zul", "ZULU"⟩]

end OccurrenceQuery.Vocabulary
