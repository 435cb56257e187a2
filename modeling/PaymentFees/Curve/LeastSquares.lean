import PaymentFees.Curve.Basic

namespace PaymentFees.Curve

/-- One equation of a triangular system: `diagonal` times its own unknown and `later` times those
after it give `target`. -/
structure TriangularRow where
  diagonal : Float
  later : List Float
  target : Float

def reflect (axis column : List Float) : List Float :=
  let factor := 2.0 * dot axis column / dot axis axis
  List.zipWith (fun entry a => entry - factor * a) column axis

def reflectionAxis : List Float → List Float
  | [] => []
  | head :: tail =>
    let length := norm (head :: tail)
    (head - (if head > 0.0 then -length else length)) :: tail

/-- Reduces a system to triangular rows. Each column comes with the norm it started with; none if
little of it is left when its turn comes, for then it depends on the columns before it. -/
def triangulate (columns : List (Float × List Float)) (target : List Float) :
    Option (List TriangularRow) :=
  match columns with
  | [] => some []
  | (_, []) :: _ => none
  | (startNorm, column) :: columns =>
    if startNorm == 0.0 || norm column ≤ 1e-10 * startNorm then none
    else do
      let axis := reflectionAxis column
      let turn := if dot axis axis == 0.0 then id else reflect axis
      let turned := columns.map fun (startNorm, column) => (startNorm, turn column)
      let row := ⟨(turn column).headD 0.0, turned.map (·.2.headD 0.0), (turn target).headD 0.0⟩
      let rows ← triangulate (turned.map fun (startNorm, column) => (startNorm, column.tail))
        (turn target).tail
      return row :: rows
termination_by columns.length

def solve : List TriangularRow → List Float
  | [] => []
  | row :: rows =>
    let later := solve rows
    (row.target - dot row.later later) / row.diagonal :: later

/-- The polynomial of that degree with the least squared error at the points; none if the points
do not determine it or a coefficient is not finite. -/
def leastSquares (points : List ControlPoint) (degree : Nat) : Option (List Float) := do
  let columns := (List.range (degree + 1)).map (powerColumn points)
  let rows ← triangulate (columns.map fun column => (norm column, column)) (points.map (·.fee))
  let coefficients := solve rows
  if coefficients.all Float.isFinite then some coefficients else none

end PaymentFees.Curve
