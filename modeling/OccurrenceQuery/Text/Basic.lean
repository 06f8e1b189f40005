/-
Texts as lists of characters: cutting them at a separator or a known end, decimal numerals in ASCII
digits, and comparison without regard to the case of ASCII letters.
-/

namespace OccurrenceQuery.Text

/-! ## Cutting -/

/-- The parts before and after the first occurrence of `sep`. -/
def splitFirst (sep : Char) : List Char → Option (List Char × List Char)
  | [] => none
  | c :: cs =>
    if c = sep then some ([], cs)
    else (splitFirst sep cs).map fun (before, after) => (c :: before, after)

/-- The parts between the occurrences of `sep`; there is always at least one. -/
def splitAll (sep : Char) : List Char → List (List Char)
  | [] => [[]]
  | c :: cs =>
    if c = sep then [] :: splitAll sep cs
    else match splitAll sep cs with
      | [] => [[c]]
      | part :: parts => (c :: part) :: parts

/-- What follows `first`, when the text begins with it. -/
def dropLeading? (first cs : List Char) : Option (List Char) :=
  if first.isPrefixOf cs then some (cs.drop first.length) else none

/-- What stands before `suffix`, when the text ends with it. -/
def dropSuffix? (suffix cs : List Char) : Option (List Char) :=
  if suffix.isSuffixOf cs then some (cs.take (cs.length - suffix.length)) else none

/-! ## Numerals -/

/-- The value of an ASCII digit. -/
def digitValue (c : Char) : Nat := c.toNat - '0'.toNat

/-- The number that a sequence of ASCII digits denotes; zero for the empty sequence. -/
def numeralValue (digits : List Char) : Nat :=
  digits.foldl (fun n c => 10 * n + digitValue c) 0

/-- A sequence of ASCII digits that is not empty. -/
def isNumeral (cs : List Char) : Bool := !cs.isEmpty && cs.all Char.isDigit

/-- The decimal numeral of `n`. -/
def numeral (n : Nat) : List Char := Nat.toDigits 10 n

/-- The numeral of `n`, with zeros in front up to `width` digits. -/
def padded (width n : Nat) : List Char :=
  List.replicate (width - (numeral n).length) '0' ++ numeral n

/-- Takes exactly `width` ASCII digits off the front and gives the number they denote. -/
def takeNumeral (width : Nat) (cs : List Char) : Option (Nat × List Char) :=
  let digits := cs.take width
  if digits.length = width && digits.all Char.isDigit then
    some (numeralValue digits, cs.drop width)
  else none

/-! ## ASCII letters -/

/-- The text with its ASCII letters in lower case. -/
def asciiLower (cs : List Char) : List Char := cs.map Char.toLower

/-- The text with its ASCII letters in upper case. -/
def asciiUpper (cs : List Char) : List Char := cs.map Char.toUpper

/-- Whether two texts agree up to the case of ASCII letters. -/
def sameLetters (a b : List Char) : Bool := asciiLower a == asciiLower b

/-- Whether `c` stands for the ASCII letter `letter` (given in lower case) under case folding:
the letter in either case, and for `s` also the long s. -/
def foldsTo (letter c : Char) : Bool := c.toLower == letter || (letter == 's' && c == 'ſ')

/-- Takes the word `word` (given in lower case) off the front, under case folding. -/
def takeWord (word : List Char) (cs : List Char) : Option (List Char) :=
  match word, cs with
  | [], rest => some rest
  | _ :: _, [] => none
  | letter :: word, c :: cs => if foldsTo letter c then takeWord word cs else none

end OccurrenceQuery.Text
