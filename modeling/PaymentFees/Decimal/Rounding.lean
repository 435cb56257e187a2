namespace PaymentFees

open Float.Model.UnpackedFloat (Sign)

/-- Where a number halfway between two neighbours goes: away from zero or to the even one. -/
inductive Rounding where
  | halfUp
  | halfEven
  deriving DecidableEq, Repr

namespace Rounding

def midpoint : Rounding → Nat → Nat
  | halfUp, low => low + 1
  | halfEven, low => if low % 2 = 0 then low else low + 1

def quotient (rounding : Rounding) (numerator denominator : Nat) : Nat :=
  let low := numerator / denominator
  let rest := numerator % denominator
  if 2 * rest < denominator then low
  else if denominator < 2 * rest then low + 1
  else rounding.midpoint low

end Rounding

def signed : Sign → Float → Float
  | .positive, magnitude => magnitude
  | .negative, magnitude => -magnitude

def onWhole (round : Nat → Nat → Nat) (value : Float) : Float :=
  match value.toModel.unpack with
  | .finite sign mantissa (.negSucc k) _ =>
    signed sign (Float.ofNat (round mantissa (Nat.pow 2 (k + 1))))
  | _ => value

def nearestWhole : Float → Float := onWhole Rounding.halfUp.quotient

def wholePart : Float → Float := onWhole (· / ·)

end PaymentFees
