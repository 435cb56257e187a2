import PaymentFees.Json.Basic

/-!
The values of JSON numbers. A number with a point or a power of ten is gathered into 64 bits and
scaled once, so it is not always the nearest one: of seventeen digits the last bit may be lost.
-/

namespace PaymentFees

/-- Takes digits into the significand while it stays below `2^64`; the rest is left over. -/
def gatherDigits : Nat → List Char → Nat × List Char
  | significand, [] => (significand, [])
  | significand, digit :: digits =>
    let next := 10 * significand + (digit.toNat - '0'.toNat)
    if next < wordLimit then gatherDigits next digits else (significand, digit :: digits)

def powerOfTen (exponent : Nat) : Float := Float.ofScientific 1 false exponent

def scaleDown (value : Float) (places : Nat) : Float :=
  if places ≤ 308 then value / powerOfTen places
  else if value == 0.0 then value
  else scaleDown (value / powerOfTen 308) (places - 308)
termination_by places

def scaleUp? (value : Float) (places : Nat) : Option Float :=
  if places ≤ 308 then
    let scaled := value * powerOfTen places
    if scaled.isInf then none else some scaled
  else if value == 0.0 then some value
  else none

/-- Whole digits that no longer fit count as zeros, fraction digits are dropped. -/
def Numeral.gathered? (n : Numeral) : Option Float :=
  let (significand, zeros) := gatherDigits 0 n.whole
  let (significand, dropped) := gatherDigits significand n.fraction
  let exponent := zeros.length - (n.fraction.length - dropped.length : Int) + n.exponent.getD 0
  if exponent < 0 then some (scaleDown (Float.ofNat significand) exponent.natAbs)
  else scaleUp? (Float.ofNat significand) exponent.toNat

namespace Json

def float? : Json → Option Float
  | number negative numeral =>
    numeral.gathered?.map fun value => if negative then -value else value
  | _ => none

def int? : Json → Option Int
  | number negative ⟨whole, [], none⟩ =>
    let n := numberOf whole
    if negative then if 0 < n ∧ n ≤ signedLimit then some (-n) else none
    else if n < wordLimit then some n else none
  | _ => none

def int64? (value : Json) : Option Int := value.int?.filter (· < signedLimit)

def nat64? (value : Json) : Option Nat := (value.int?.filter (0 ≤ ·)).map Int.toNat

end Json

end PaymentFees
