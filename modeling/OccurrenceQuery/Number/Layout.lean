/-
How the digits of a floating-point number are laid out: positionally in messages, and in the form
of a data language in its own right, with an exponent for the very large and the very small.
-/
import OccurrenceQuery.Number.Decimal
import OccurrenceQuery.Text.Basic

namespace OccurrenceQuery.Number

open OccurrenceQuery.Text

/-- The significant digits of a positive decimal, without zeros at the end, and the place of the
decimal point counted from the front of them. -/
def Decimal.significant (d : Decimal) : List Char × Int :=
  let all := numeral d.digits
  ((all.reverse.dropWhile (· == '0')).reverse, all.length + d.exponent)

/-- What a number format decides. -/
structure Layout where
  /-- Which places of the decimal point are written without an exponent. -/
  positional : Int → Bool
  /-- What follows a whole number. -/
  wholeMark : List Char
  /-- Which of two equally near choices of the digits is taken. -/
  tie : TieRule

/-- The digits with the decimal point at `place`. -/
def Layout.fixed (l : Layout) (digits : List Char) (place : Int) : List Char :=
  if place ≤ 0 then ['0', '.'] ++ List.replicate (-place).toNat '0' ++ digits
  else if (digits.length : Int) ≤ place then
    digits ++ List.replicate (place.toNat - digits.length) '0' ++ l.wholeMark
  else digits.take place.toNat ++ '.' :: digits.drop place.toNat

/-- The digits with the point after the first of them and a signed exponent. -/
def scientific (digits : List Char) (place : Int) : List Char :=
  let fraction := match digits.drop 1 with
    | [] => []
    | rest => '.' :: rest
  let exponent := if place ≤ 0 then '-' :: numeral (1 - place).toNat
    else '+' :: numeral (place - 1).toNat
  digits.take 1 ++ fraction ++ 'e' :: exponent

/-- The magnitude of a finite number under the format. -/
def Layout.magnitude (l : Layout) (x : Float) : List Char :=
  let b := Binary.ofFloat x
  if b.mantissa = 0 then '0' :: l.wholeMark
  else
    let (digits, place) := (b.shortest l.tie).significant
    if l.positional place then l.fixed digits place else scientific digits place

/-- A finite number under the format, negative zero with its sign. -/
def Layout.finite (l : Layout) (x : Float) : List Char :=
  if x.toBits >>> 63 = 1 then '-' :: l.magnitude x else l.magnitude x

/-! ## The two formats -/

/-- Numbers in messages never have an exponent, and whole numbers no point. -/
def plain : Layout where
  positional _ := true
  wholeMark := []
  tie := .upper

/-- Numbers in data lines are positional from one hundred-thousandth up to below ten to the
sixteenth, and whole numbers end in `.0`. -/
def data : Layout where
  positional place := decide (-5 < place) && decide (place ≤ 16)
  wholeMark := ['.', '0']
  tie := .even

/-- A number in messages. -/
def text (x : Float) : String :=
  if x.isNaN then "NaN"
  else if x.isFinite then String.ofList (plain.finite x)
  else if x < 0 then "-inf" else "inf"

/-- A number in a data line; there is no data form for the infinities and for NaN. -/
def dataText? (x : Float) : Option String :=
  if x.isFinite then some (String.ofList (data.finite x)) else none

end OccurrenceQuery.Number
