import PaymentFees.Decimal.Shortest

namespace PaymentFees

open Float.Model.UnpackedFloat (Sign)

structure Money where
  sign : Sign
  coefficient : Nat
  places : Nat

namespace Money

/-- The coefficient has at most 96 bits. -/
def coefficientLimit : Nat := 79228162514264337593543950336

def maxPlaces : Nat := 28

/-- A number as its shortest digits write it; none if its whole part is too large or it is not
finite. Digits after the last place are rounded away. -/
def ofFloat? (value : Float) : Option Money :=
  match value.toModel.unpack with
  | .notANumber | .infinity _ => none
  | .zero sign => some ⟨sign, 0, 0⟩
  | .finite sign mantissa exponent _ =>
    match Decimal.shortest .halfUp mantissa exponent with
    | ⟨coefficient, .ofNat zeros⟩ =>
      let whole := coefficient * Nat.pow 10 zeros
      if whole < coefficientLimit then some ⟨sign, whole, 0⟩ else none
    | ⟨coefficient, .negSucc k⟩ =>
      if k + 1 ≤ maxPlaces then some ⟨sign, coefficient, k + 1⟩
      else
        let excess := k + 1 - maxPlaces
        some ⟨sign, Rounding.halfUp.quotient coefficient (Nat.pow 10 excess), maxPlaces⟩

def toCents (round : Nat → Nat → Nat) (m : Money) : Money :=
  if m.places ≤ 2 then m
  else ⟨m.sign, round m.coefficient (Nat.pow 10 (m.places - 2)), 2⟩

/-- The whole part and the fraction are converted apart, and the sum is rounded to its places. -/
def toFloat (m : Money) : Float :=
  let unit := Nat.pow 10 m.places
  let whole := Float.ofNat (m.coefficient / unit)
  let fraction := Float.ofNat (m.coefficient % unit) / Float.ofNat unit
  signed m.sign <|
    if fraction == 0.0 then whole
    else nearestWhole ((whole + fraction) * Float.ofNat unit) / Float.ofNat unit

end Money

def roundCents (rounding : Rounding) (value : Float) : Float :=
  match Money.ofFloat? value with
  | some m => (m.toCents rounding.quotient).toFloat
  | none => nearestWhole (value * 100.0) / 100.0

def truncateCents (value : Float) : Float :=
  match Money.ofFloat? value with
  | some m => (m.toCents (· / ·)).toFloat
  | none => wholePart (value * 100.0) / 100.0

/-- What is left of an amount after a fee: an expense grows, an income shrinks. -/
def amountAfterFee (rounding : Rounding) (amount fee : Float) : Float :=
  roundCents rounding (amount - fee)

end PaymentFees
