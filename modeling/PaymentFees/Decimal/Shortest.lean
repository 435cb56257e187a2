import PaymentFees.Decimal.Basic
import PaymentFees.Decimal.Rounding

namespace PaymentFees.Decimal

def gridFraction (mantissa : Nat) (exponent grid : Int) : Nat × Nat :=
  (mantissa * Nat.pow 2 exponent.toNat * Nat.pow 10 (-grid).toNat,
    Nat.pow 2 (-exponent).toNat * Nat.pow 10 grid.toNat)

def leastMantissa : Nat := 4503599627370496

/-- Quarters of a last place between a binary number and the reals below it that round elsewhere:
half of them where the next smaller number is twice as close. -/
def quartersBelow (mantissa : Nat) (exponent : Int) : Nat :=
  if mantissa = leastMantissa ∧ -1074 < exponent then 1 else 2

/-- The nearest of the two neighbours on a grid that round to the binary number, if one does.
The ends of the interval of such reals belong to it exactly when the mantissa is even. -/
def gridHit (tie : Rounding) (mantissa : Nat) (exponent grid : Int) : Option Nat :=
  let (numerator, denominator) := gridFraction mantissa exponent grid
  let unit := numerator / mantissa
  let low := numerator / denominator
  let slack := if mantissa % 2 = 0 then 1 else 0
  let lowHits := 4 * (numerator % denominator) < quartersBelow mantissa exponent * unit + slack
  let highHits := 4 * (denominator - numerator % denominator) < 2 * unit + slack
  if lowHits then
    if highHits then some (tie.quotient numerator denominator) else some low
  else if highHits then some (low + 1) else none

def scanGrids (tie : Rounding) (mantissa : Nat) (exponent : Int) : Nat → Int → Decimal
  | 0, grid => ⟨0, grid⟩
  | tries + 1, grid =>
    match gridHit tie mantissa exponent grid with
    | some coefficient => ⟨coefficient, grid⟩
    | none => scanGrids tie mantissa exponent tries (grid - 1)

/-- Of the decimals that round to `mantissa · 2^exponent`, the nearest one on the coarsest grid
that holds any. The first grid is no finer than the number itself, and seventeen digits always
suffice. -/
def shortest (tie : Rounding) (mantissa : Nat) (exponent : Int) : Decimal :=
  scanGrids tie mantissa exponent 20
    (((mantissa.log2 + 1 : Nat) + exponent) * 30103 / 100000 + 1)

end PaymentFees.Decimal
