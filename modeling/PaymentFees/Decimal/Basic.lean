namespace PaymentFees

structure Decimal where
  coefficient : Nat
  exponent : Int
  deriving DecidableEq, Repr

def wordLimit : Nat := 18446744073709551616

def signedLimit : Nat := 9223372036854775808

def numberOf (digits : List Char) : Nat := Nat.ofDigitChars 10 digits 0

namespace Decimal

def digits (d : Decimal) : List Char := Nat.toDigits 10 d.coefficient

/-- The digits before and after the point, when no exponent is written. -/
def positional (d : Decimal) : List Char × List Char :=
  match d.exponent with
  | .ofNat zeros => (d.digits ++ List.replicate zeros '0', [])
  | .negSucc places =>
    let padded := List.replicate (places + 2 - d.digits.length) '0' ++ d.digits
    padded.splitAt (padded.length - (places + 1))

def pointPosition (d : Decimal) : Int := d.digits.length + d.exponent

end Decimal

structure Numeral where
  whole : List Char
  fraction : List Char
  exponent : Option Int
  deriving DecidableEq, Repr

namespace Numeral

def decimal (n : Numeral) : Decimal :=
  ⟨numberOf (n.whole ++ n.fraction), n.exponent.getD 0 - n.fraction.length⟩

def readExponent (cs : List Char) : Option (Int × List Char) :=
  let (negative, body) := match cs with
    | '-' :: r => (true, r)
    | '+' :: r => (false, r)
    | r => (false, r)
  match body.span Char.isDigit with
  | ([], _) => none
  | (ds, r) => some (if negative then -(numberOf ds : Int) else numberOf ds, r)

end Numeral

end PaymentFees
