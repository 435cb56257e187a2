import PaymentFees.Decimal.Shortest

namespace PaymentFees

open Float.Model.UnpackedFloat (Sign)

def signText : Sign → String
  | .positive => ""
  | .negative => "-"

def Decimal.text (d : Decimal) : String :=
  match d.positional with
  | (whole, []) => String.ofList whole
  | (whole, fraction) => String.ofList (whole ++ '.' :: fraction)

def plainText (value : Float) : String :=
  match value.toModel.unpack with
  | .notANumber => "NaN"
  | .infinity sign => signText sign ++ "inf"
  | .zero sign => signText sign ++ "0"
  | .finite sign mantissa exponent _ =>
    signText sign ++ (Decimal.shortest .halfUp mantissa exponent).text

def fixedText (places : Nat) (value : Float) : String :=
  match value.toModel.unpack with
  | .notANumber => "NaN"
  | .infinity sign => signText sign ++ "inf"
  | .zero sign => signText sign ++ Decimal.text ⟨0, -places⟩
  | .finite sign mantissa exponent _ =>
    let (numerator, denominator) := Decimal.gridFraction mantissa exponent (-places)
    signText sign ++ Decimal.text ⟨Rounding.halfEven.quotient numerator denominator, -places⟩

/-- The nearest binary number, ties to even. Far outside the range the answer is known from the
position of the point alone. -/
def Decimal.nearest (d : Decimal) : Float :=
  if d.coefficient = 0 ∨ d.pointPosition < -330 then 0.0
  else if 310 < d.pointPosition then 1.0 / 0.0
  else Float.ofScientific d.coefficient (d.exponent < 0) d.exponent.natAbs

end PaymentFees
