/-
Values of the JSON data format and their compact text.
-/
import OccurrenceQuery.Text.Basic

namespace OccurrenceQuery

open OccurrenceQuery.Text

/-- A JSON value. A number is kept as its numeral, an object as its fields in order. -/
inductive Json where
  | null
  | bool (value : Bool)
  | number (numeral : String)
  | string (value : String)
  | array (elements : List Json)
  | object (fields : List (String × Json))
deriving Inhabited

namespace Json

/-- The value of the first field with the given name. -/
def field? (name : String) (fields : List (String × Json)) : Option Json := fields.lookup name

/-! ## Compact text -/

/-- The two hexadecimal digits of a number below 256, in lower case. -/
def hexByte (n : Nat) : List Char := [Nat.digitChar (n / 16), Nat.digitChar (n % 16)]

/-- A character inside a quoted string: quotation mark, backslash and control characters are
escaped, all others stand for themselves. -/
def escape (c : Char) : List Char :=
  if c = '"' then ['\\', '"']
  else if c = '\\' then ['\\', '\\']
  else if c = '\n' then ['\\', 'n']
  else if c = '\r' then ['\\', 'r']
  else if c = '\t' then ['\\', 't']
  else if c = '\x08' then ['\\', 'b']
  else if c = '\x0c' then ['\\', 'f']
  else if c.toNat < 0x20 then ['\\', 'u', '0', '0'] ++ hexByte c.toNat
  else [c]

/-- A text as a JSON string in quotation marks. -/
def quote (s : String) : String := String.ofList ('"' :: s.toList.flatMap escape ++ ['"'])

mutual

/-- A JSON value as text without blanks, the fields of an object in their order. -/
def compact : Json → String
  | null => "null"
  | bool true => "true"
  | bool false => "false"
  | number numeral => numeral
  | string value => quote value
  | array elements => "[" ++ ",".intercalate (compactAll elements) ++ "]"
  | object fields => "\x7b" ++ ",".intercalate (compactFields fields) ++ "\x7d"

/-- The texts of the elements of an array. -/
def compactAll : List Json → List String
  | [] => []
  | element :: elements => element.compact :: compactAll elements

/-- The texts of the fields of an object, each with its name. -/
def compactFields : List (String × Json) → List String
  | [] => []
  | (name, value) :: fields => (quote name ++ ":" ++ value.compact) :: compactFields fields

end

end Json

end OccurrenceQuery
