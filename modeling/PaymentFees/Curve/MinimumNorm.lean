import PaymentFees.Curve.LeastSquares
import PaymentFees.Decimal.Basic

/-!
Of all polynomials with the least squared error, the one whose coefficients, each weighted by the
norm of its column of powers, have the smallest norm.
-/

namespace PaymentFees.Curve

/-- Places every number in one ascending order: `-0` before `0`, and what is no number last. -/
def orderKey (value : Float) : Int :=
  let bits := value.toBits.toNat
  if bits < signedLimit then bits else signedLimit - 1 - bits

/-- Drops the values within the tolerance of the last one kept. -/
def mergeNear (tolerance kept : Float) : List Float → List Float
  | [] => []
  | value :: values =>
    if (value - kept).abs ≤ tolerance then mergeNear tolerance kept values
    else value :: mergeNear tolerance value values

def larger (a b : Float) : Float := if b > a then b else a

def frequencyTolerance (points : List ControlPoint) : Float :=
  1e-12 * (points.map (·.frequency.abs)).foldl larger 1.0

def distinctFrequencies (points : List ControlPoint) : List Float :=
  match (points.map (·.frequency)).mergeSort (fun a b => orderKey a ≤ orderKey b) with
  | [] => []
  | first :: others => first :: mergeNear (frequencyTolerance points) first others

def timesRoot (root carry : Float) : List Float → List Float
  | [] => [carry]
  | c :: cs => (carry - root * c) :: timesRoot root c cs

def vanishing (roots : List Float) : List Float :=
  roots.foldl (fun polynomial root => timesRoot root 0.0 polynomial) [1.0]

def reject (basis : List (List Float)) (v : List Float) : List Float :=
  basis.foldl (fun v u =>
    let along := dot v u
    List.zipWith (fun a b => a - along * b) v u) v

def orthonormal (vectors : List (List Float)) : List (List Float) :=
  vectors.foldl (fun basis v =>
    let initial := norm v
    if initial == 0.0 then basis
    else
      let rest := reject basis v
      let length := norm rest
      if length > 1e-12 * initial then basis ++ [rest.map (· / length)] else basis) []

def columnWeights (points : List ControlPoint) (degree : Nat) : List Float :=
  (List.range (degree + 1)).map fun exponent => norm (powerColumn points exponent)

def vanishingMultiples (roots weights : List Float) (degree : Nat) : List (List Float) :=
  (List.range (degree + 1 - roots.length)).map fun shift =>
    List.replicate shift 0.0 ++ List.zipWith (· * ·) (vanishing roots) (weights.drop shift)
      ++ List.replicate (degree - roots.length - shift) 0.0

/-- A polynomial of some lower degree that already has the least squared error, padded. -/
def lowDegreeFit (points : List ControlPoint) (start degree : Nat) : List Float :=
  let coefficients :=
    ((List.range (start + 1)).reverse.findSome? (leastSquares points)).getD []
  coefficients ++ List.replicate (degree + 1 - coefficients.length) 0.0

def minimumNorm (points : List ControlPoint) (degree : Nat) : List Float :=
  let roots := distinctFrequencies points
  let weights := columnWeights points degree
  let basis := orthonormal (vanishingMultiples roots weights degree)
  let start := min (roots.length - 1) degree
  let weighted := List.zipWith (· * ·) (lowDegreeFit points start degree) weights
  List.zipWith (fun c weight => if weight == 0.0 then 0.0 else c / weight)
    (reject basis weighted) weights

end PaymentFees.Curve
