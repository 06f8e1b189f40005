/-
Exact decimal numbers and the choice of the digits of a floating-point number: the fewest digits
that read back to it, and of those the nearest to it. All arithmetic is exact.
-/

namespace OccurrenceQuery.Number

/-! ## Decimal and binary numbers -/

/-- The number `digits * 10 ^ exponent`. -/
structure Decimal where
  digits : Nat
  exponent : Int
deriving DecidableEq, Repr

/-- The magnitude `mantissa * 2 ^ exponent` of a finite floating-point number. -/
structure Binary where
  mantissa : Nat
  exponent : Int
  /-- Whether the neighbour below is half as far away as the neighbour above. -/
  tightBelow : Bool
deriving DecidableEq, Repr

/-- The magnitude of `x`, which has to be finite. -/
def Binary.ofFloat (x : Float) : Binary :=
  let field := ((x.toBits >>> 52) &&& 0x7FF).toNat
  let fraction := (x.toBits &&& 0xFFFFFFFFFFFFF).toNat
  if field = 0 then ⟨fraction, -1074, false⟩
  else ⟨Nat.pow 2 52 + fraction, (field : Int) - 1075, fraction == 0 && decide (1 < field)⟩

/-- The order of `d` and `n * 2 ^ e`. -/
def Decimal.compareBinary (d : Decimal) (n : Nat) (e : Int) : Ordering :=
  compare (d.digits * Nat.pow 10 d.exponent.toNat * Nat.pow 2 (-e).toNat)
    (n * Nat.pow 2 e.toNat * Nat.pow 10 (-d.exponent).toNat)

/-! ## The numbers that read back -/

/-- Whether `d` lies among the numbers that are rounded to `b`: between the midpoints to its two
neighbours, the midpoints themselves included when the mantissa is even. The midpoints are
counted in quarters of the last place. -/
def Binary.attracts (b : Binary) (d : Decimal) : Bool :=
  let below := if b.tightBelow then 4 * b.mantissa - 1 else 4 * b.mantissa - 2
  let above := 4 * b.mantissa + 2
  let even := b.mantissa % 2 == 0
  let low := d.compareBinary below (b.exponent - 2)
  let high := d.compareBinary above (b.exponent - 2)
  (low == .gt || (even && low == .eq)) && (high == .lt || (even && high == .eq))

/-! ## The choice of the digits -/

/-- The least `k` with `b < 10 ^ k`, from an estimate by the binary logarithm that is short by at
most two. -/
def Binary.places (b : Binary) : Int :=
  let estimate := ((b.mantissa.log2 : Int) + b.exponent) * 30103 / 100000
  let exceeds (k : Int) : Bool := (Decimal.mk 1 k).compareBinary b.mantissa b.exponent == .gt
  if exceeds estimate then estimate
  else if exceeds (estimate + 1) then estimate + 1
  else estimate + 2

/-- Which of two decimals is taken that are equally near to a number. -/
inductive TieRule where
  | upper
  | even
deriving DecidableEq, Repr

/-- Whether the lower of two neighbours is taken at a tie, given its digits. -/
def TieRule.takesLower : TieRule → Nat → Bool
  | upper, _ => false
  | even, digits => digits % 2 == 0

/-- The decimal with the last place `10 ^ exponent` that is nearest to `b` among those that read
back to it. -/
def Binary.nearest? (b : Binary) (tie : TieRule) (exponent : Int) : Option Decimal :=
  let numerator := b.mantissa * Nat.pow 2 b.exponent.toNat * Nat.pow 10 (-exponent).toNat
  let denominator := Nat.pow 2 (-b.exponent).toNat * Nat.pow 10 exponent.toNat
  let lower : Decimal := ⟨numerator / denominator, exponent⟩
  let upper : Decimal := ⟨numerator / denominator + 1, exponent⟩
  let nearLower := match compare (2 * (numerator % denominator)) denominator with
    | .lt => true
    | .eq => tie.takesLower lower.digits
    | .gt => false
  match b.attracts lower, b.attracts upper with
  | true, true => some (if nearLower then lower else upper)
  | true, false => some lower
  | false, true => some upper
  | false, false => none

/-- The exact decimal value of `b`. -/
def Binary.exact (b : Binary) : Decimal :=
  if 0 ≤ b.exponent then ⟨b.mantissa * Nat.pow 2 b.exponent.toNat, 0⟩
  else ⟨b.mantissa * Nat.pow 5 (-b.exponent).toNat, b.exponent⟩

/-- The decimal with the fewest digits that reads back to `b`. Seventeen digits always do; the
exact value stands behind them. -/
def Binary.shortest (b : Binary) (tie : TieRule) : Decimal :=
  let k := b.places
  ((List.range 17).findSome? fun (n : Nat) => b.nearest? tie (k - 1 - n)).getD b.exact

end OccurrenceQuery.Number
