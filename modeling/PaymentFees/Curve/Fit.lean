import PaymentFees.Curve.MinimumNorm

namespace PaymentFees.Curve

def defaultMaxDegree : Nat := 5

/-- Up to two points give a line through the origin: with the slope of the one point or between
the two, or else of `maxFee`. More points give the least squared error of degree
`min (n - 1) maxDegree`, at least one. -/
def fit (points : List ControlPoint) (maxFee : Float) (maxDegree : Nat) : List Float :=
  match points with
  | [] => [0.0, maxFee]
  | [p] => [0.0, if p.frequency == 0.0 then maxFee else p.fee / p.frequency]
  | [p, q] =>
    [0.0, if q.frequency == p.frequency then maxFee
      else (q.fee - p.fee) / (q.frequency - p.frequency)]
  | points =>
    let degree := min (points.length - 1) (max maxDegree 1)
    (leastSquares points degree).getD (minimumNorm points degree)

end PaymentFees.Curve
