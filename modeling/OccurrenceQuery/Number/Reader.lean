/-
Reading numbers: floating-point numbers with correct rounding, and integers of 32 and 64 bits.
-/
import OccurrenceQuery.Number.Decimal
import OccurrenceQuery.Text.Basic
import OccurrenceQuery.Text.CharacterClass

namespace OccurrenceQuery.Number

open OccurrenceQuery.Text

/-! ## Signs -/

/-- Takes an optional sign off the front and says whether it is a minus. -/
def takeSign : List Char → Bool × List Char
  | '-' :: cs => (true, cs)
  | '+' :: cs => (false, cs)
  | cs => (false, cs)

/-! ## Decimals -/

/-- The exponent after the digits: nothing, or `e` with an optional sign and digits. -/
def readExponent? : List Char → Option Int
  | [] => some 0
  | mark :: cs =>
    let (negative, digits) := takeSign cs
    if (mark == 'e' || mark == 'E') && isNumeral digits then
      some (if negative then -(numeralValue digits : Int) else numeralValue digits)
    else none

/-- The digits, the point among or beside them, and the exponent of a decimal. There has to be a
digit on one side of the point. -/
def readDecimal? (cs : List Char) : Option Decimal :=
  let whole := cs.takeWhile Char.isDigit
  let (fraction, rest) := match cs.dropWhile Char.isDigit with
    | '.' :: rest => (rest.takeWhile Char.isDigit, rest.dropWhile Char.isDigit)
    | rest => ([], rest)
  if whole.isEmpty && fraction.isEmpty then none
  else (readExponent? rest).map fun e => ⟨numeralValue (whole ++ fraction), e - fraction.length⟩

/-! ## Floating-point numbers -/

/-- The infinity above all numbers. -/
def infinity : Float := 1.0 / 0.0

/-- The floating-point number nearest to a decimal. What is beyond ten to the 310 is infinite and
what is below ten to the minus 400 is zero, so that no power of ten is formed that cannot
matter. -/
def Decimal.toFloat (d : Decimal) : Float :=
  if d.digits = 0 then 0.0
  else
    let place := (numeral d.digits).length + d.exponent
    if 310 < place then infinity
    else if place < -400 then 0.0
    else Float.ofScientific d.digits (decide (d.exponent < 0)) d.exponent.natAbs

/-- The words for numbers that no digits denote, in lower case. -/
def specialNumber? (cs : List Char) : Option Float :=
  if cs = ['i', 'n', 'f'] ∨ cs = ['i', 'n', 'f', 'i', 'n', 'i', 't', 'y'] then some infinity
  else if cs = ['n', 'a', 'n'] then some (0.0 / 0.0)
  else none

/-- The floating-point number that the whole text denotes. -/
def readFloat? (cs : List Char) : Option Float :=
  let (negative, unsigned) := takeSign cs
  let magnitude := (specialNumber? (asciiLower unsigned)).or
    ((readDecimal? unsigned).map Decimal.toFloat)
  magnitude.map fun x => if negative then -x else x

/-- The finite number that the text denotes between white space. -/
def readFinite? (cs : List Char) : Option Float := (readFloat? (trim cs)).filter Float.isFinite

/-! ## Integers -/

/-- The integer that the whole text denotes, with an optional sign. -/
def readInteger? (cs : List Char) : Option Int :=
  let (negative, digits) := takeSign cs
  if isNumeral digits then
    some (if negative then -(numeralValue digits : Int) else numeralValue digits)
  else none

/-- Whether `n` is an integer of 32 bits. -/
def fitsInt32 (n : Int) : Bool := decide (-2147483648 ≤ n) && decide (n ≤ 2147483647)

/-- Whether `n` is an integer of 64 bits. -/
def fitsInt64 (n : Int) : Bool :=
  decide (-9223372036854775808 ≤ n) && decide (n ≤ 9223372036854775807)

/-- The integer of 32 bits that the whole text denotes. -/
def readInt32? (cs : List Char) : Option Int := (readInteger? cs).filter fitsInt32

/-- The integer of 64 bits that the whole text denotes. -/
def readInt64? (cs : List Char) : Option Int := (readInteger? cs).filter fitsInt64

end OccurrenceQuery.Number
