namespace PaymentFees

structure ControlPoint where
  frequency : Float
  fee : Float
  deriving DecidableEq, Repr

namespace Curve

def powerTimes (factor base : Float) (exponent : Nat) : Float :=
  let factor := if exponent % 2 = 1 then factor * base else factor
  if exponent < 2 then factor else powerTimes factor (base * base) (exponent / 2)
termination_by exponent

def power (base : Float) (exponent : Nat) : Float := powerTimes 1.0 base exponent

def sum (terms : List Float) : Float := terms.foldl (· + ·) 0.0

def dot (a b : List Float) : Float := sum (List.zipWith (· * ·) a b)

def norm (v : List Float) : Float := (dot v v).sqrt

/-- The value at `x` of the polynomial with these coefficients, the constant one first. -/
def evaluate (coefficients : List Float) (x : Float) : Float :=
  sum (coefficients.zipIdx.map fun (c, i) => c * power x i)

def powerColumn (points : List ControlPoint) (exponent : Nat) : List Float :=
  points.map fun p => power p.frequency exponent

end Curve

end PaymentFees
