import PaymentFees.Curve.Fit
import PaymentFees.Proofs.Indexed.Elimination
import PaymentFees.Proofs.Indexed.Multiples

namespace PaymentFees.Curve

namespace Indexed

def overwrite? (v numbers : List Float) : Option (List Float) :=
  if numbers.length ≤ v.length then some (numbers ++ v.drop numbers.length) else none

def firstFit? (points : List ControlPoint) (v : List Float) : List Nat → Option (List Float)
  | [] => some v
  | degree :: degrees => do
    match ← leastSquares? points degree with
    | some coefficients => overwrite? v coefficients
    | none => firstFit? points v degrees

/-- What leaves the fit unchanged at every point: nothing if the frequencies determine it. -/
def freedom? (roots weights : List Float) (degree : Nat) : Option (List (List Float)) := do
  if roots.length ≤ degree then
    let vanishing ← roots.foldlM (fun polynomial root => timesRoot? root polynomial) [1.0]
    let vectors ← (between 0 ((← minus? degree roots.length) + 1)).mapM
      (multiple? vanishing weights (degree + 1))
    return orthonormal vectors
  else return []

def minimumNorm? (points : List ControlPoint) (degree : Nat) : Option (List Float) := do
  let roots := distinctFrequencies points
  let start := min (← minus? (max roots.length 1) 1) degree
  let particular ←
    firstFit? points (List.replicate (degree + 1) 0.0) (between 0 (start + 1)).reverse
  let weights := columnWeights points degree
  let basis ← freedom? roots weights degree
  let weighted := List.zipWith (· * ·) particular weights
  return List.zipWith (fun c weight => if weight == 0.0 then 0.0 else c / weight)
    (reject basis weighted) weights

def fit? (points : List ControlPoint) (maxFee : Float) (maxDegree : Nat) : Option (List Float) :=
  match points with
  | [] => some [0.0, maxFee]
  | [p] => some [0.0, if p.frequency == 0.0 then maxFee else p.fee / p.frequency]
  | [p, q] =>
    some [0.0, if q.frequency == p.frequency then maxFee
      else (q.fee - p.fee) / (q.frequency - p.frequency)]
  | points => do
    let degree := min (← minus? points.length 1) (max maxDegree 1)
    match ← leastSquares? points degree with
    | some coefficients => return coefficients
    | none => minimumNorm? points degree

theorem length_triangulate {columns : List (Float × List Float)} {target : List Float}
    {rows : List TriangularRow} (found : triangulate columns target = some rows) :
    rows.length = columns.length := by
  generalize count : columns.length = n
  induction n generalizing columns target rows with
  | zero =>
    rw [List.length_eq_zero_iff.mp count, triangulate] at found
    rw [← Option.some.inj found, List.length_nil]
  | succ n ih =>
    obtain ⟨⟨startNorm, column⟩, columns, rfl⟩ := List.exists_cons_of_length_eq_add_one count
    by_cases empty : column = []
    · rw [empty, triangulate] at found
      cases found
    · rw [triangulate_cons empty] at found
      split_ifs at found
      obtain ⟨later, foundLater, rfl⟩ := Option.map_eq_some_iff.mp found
      rw [List.length_cons, ih foundLater (by simpa using count)]

theorem leastSquares_some {points : List ControlPoint} {degree : Nat} {coefficients : List Float}
    (found : leastSquares points degree = some coefficients) :
    coefficients.length = degree + 1 ∧ ∀ c ∈ coefficients, c.isFinite := by
  unfold leastSquares at found
  obtain ⟨rows, triangular, solved⟩ := Option.bind_eq_some_iff.mp found
  obtain ⟨finite, same⟩ := Option.ite_none_right_eq_some.mp solved
  cases Option.some.inj same
  refine ⟨?_, List.all_eq_true.mp finite⟩
  rw [length_solve, length_triangulate triangular]
  simp

theorem length_reject {basis : List (List Float)} {v : List Float}
    (same : ∀ u ∈ basis, u.length = v.length) : (reject basis v).length = v.length := by
  unfold reject
  induction basis generalizing v with
  | nil => rfl
  | cons u basis ih =>
    obtain ⟨first, rest⟩ := List.forall_mem_cons.mp same
    have kept : (List.zipWith (fun a b => a - dot v u * b) v u).length = v.length := by
      rw [List.length_zipWith, first, Nat.min_self]
    rw [List.foldl_cons, ih fun u present => (rest u present).trans kept.symm, kept]

theorem length_orthonormal {n : Nat} {vectors : List (List Float)}
    (same : ∀ v ∈ vectors, v.length = n) : ∀ u ∈ orthonormal vectors, u.length = n := by
  unfold orthonormal
  apply List.foldlRecOn (motive := fun basis => ∀ u ∈ basis, List.length u = n)
  · nofun
  · intro basis ih v present
    have own := same v present
    dsimp only
    split_ifs
    · exact ih
    · intro u member
      rcases List.mem_append.mp member with old | new
      · exact ih u old
      · rw [List.mem_singleton.mp new, List.length_map,
          length_reject fun u old => (ih u old).trans own.symm, own]
    · exact ih

theorem firstFit?_eq (points : List ControlPoint) {cols : Nat} {degrees : List Nat}
    (low : ∀ degree ∈ degrees, degree < cols) :
    firstFit? points (List.replicate cols 0.0) degrees =
      let coefficients := (degrees.findSome? (leastSquares points)).getD []
      some (coefficients ++ List.replicate (cols - coefficients.length) 0.0) := by
  induction degrees with
  | nil => rfl
  | cons degree degrees ih =>
    obtain ⟨first, rest⟩ := List.forall_mem_cons.mp low
    rw [firstFit?, leastSquares?_eq, Option.bind_eq_bind, Option.bind_some, List.findSome?_cons]
    cases found : leastSquares points degree with
    | none => exact ih rest
    | some coefficients =>
      have length := (leastSquares_some found).1
      have short : coefficients.length ≤ (List.replicate cols 0.0).length := by simp; omega
      dsimp only [Option.getD_some]
      rw [overwrite?, if_pos short, List.drop_replicate]

theorem firstFit?_lowDegreeFit (points : List ControlPoint) {start degree : Nat}
    (low : start ≤ degree) :
    firstFit? points (List.replicate (degree + 1) 0.0) (between 0 (start + 1)).reverse =
      some (lowDegreeFit points start degree) := by
  rw [between_zero]
  apply firstFit?_eq
  intro lower present
  have := List.mem_range.mp (List.mem_reverse.mp present)
  omega

theorem length_lowDegreeFit (points : List ControlPoint) {start degree : Nat}
    (low : start ≤ degree) : (lowDegreeFit points start degree).length = degree + 1 := by
  unfold lowDegreeFit
  cases found : (List.range (start + 1)).reverse.findSome? (leastSquares points) with
  | none => simp
  | some coefficients =>
    obtain ⟨lower, present, fitted⟩ := List.exists_of_findSome?_eq_some found
    have least := List.mem_range.mp (List.mem_reverse.mp present)
    have length := (leastSquares_some fitted).1
    rw [Option.getD_some, List.length_append, List.length_replicate]
    omega

theorem length_vanishingMultiples (roots : List Float) {weights : List Float} {degree : Nat}
    (length : weights.length = degree + 1) :
    ∀ v ∈ vanishingMultiples roots weights degree, v.length = degree + 1 := by
  intro v present
  obtain ⟨shift, inside, rfl⟩ := List.mem_map.mp present
  have low := List.mem_range.mp inside
  have terms := length_vanishing roots
  simp only [List.length_append, List.length_replicate, List.length_zipWith, List.length_drop]
  omega

theorem length_columnWeights (points : List ControlPoint) (degree : Nat) :
    (columnWeights points degree).length = degree + 1 := by simp [columnWeights]

theorem length_minimumNorm (points : List ControlPoint) (degree : Nat) :
    (minimumNorm points degree).length = degree + 1 := by
  have weights := length_columnWeights points degree
  have low : min ((distinctFrequencies points).length - 1) degree ≤ degree := Nat.min_le_right ..
  have weighted : (List.zipWith (· * ·)
      (lowDegreeFit points (min ((distinctFrequencies points).length - 1) degree) degree)
      (columnWeights points degree)).length = degree + 1 := by
    rw [List.length_zipWith, length_lowDegreeFit points low, weights, Nat.min_self]
  have basis := length_orthonormal
    (length_vanishingMultiples (distinctFrequencies points) weights)
  unfold minimumNorm
  rw [List.length_zipWith, length_reject fun u present => (basis u present).trans weighted.symm,
    weighted, weights, Nat.min_self]

theorem freedom?_eq (roots : List Float) {weights : List Float} {degree : Nat}
    (length : weights.length = degree + 1) :
    freedom? roots weights degree =
      some (orthonormal (vanishingMultiples roots weights degree)) := by
  unfold freedom? vanishingMultiples
  split_ifs with few
  · have count : degree + 1 - roots.length = degree - roots.length + 1 := by omega
    have multiples : (between 0 (degree - roots.length + 1)).mapM
        (multiple? (vanishing roots) weights (degree + 1)) = some (segment 0 _ _) :=
      mapM_between fun shift _ inside => multiple?_eq few (by omega) length
    rw [foldlM_timesRoot? roots unmarked_one, Option.bind_eq_bind, Option.bind_some,
      minus?_of_le few, Option.bind_eq_bind, Option.bind_some, ← vanishing, multiples, segment,
      between_zero, count]
    rfl
  · have none : degree + 1 - roots.length = 0 := by omega
    rw [none]
    rfl

theorem minimumNorm?_eq (points : List ControlPoint) (degree : Nat) :
    minimumNorm? points degree = some (minimumNorm points degree) := by
  have least : 1 ≤ max (distinctFrequencies points).length 1 := Nat.le_max_right ..
  have start : max (distinctFrequencies points).length 1 - 1 =
      (distinctFrequencies points).length - 1 := by omega
  unfold minimumNorm?
  dsimp only
  rw [minus?_of_le least, Option.bind_eq_bind, Option.bind_some, start,
    firstFit?_lowDegreeFit points (Nat.min_le_right ..), Option.bind_eq_bind, Option.bind_some,
    freedom?_eq _ (length_columnWeights points degree)]
  rfl

theorem fit?_eq (maxFee : Float) (maxDegree : Nat) : (points : List ControlPoint) →
    fit? points maxFee maxDegree = some (fit points maxFee maxDegree)
  | [] => rfl
  | [_] => rfl
  | [_, _] => rfl
  | p :: q :: r :: others => by
    have least : 1 ≤ (p :: q :: r :: others).length := by simp
    unfold fit? fit
    dsimp only
    rw [minus?_of_le least, Option.bind_eq_bind, Option.bind_some, leastSquares?_eq,
      Option.bind_eq_bind, Option.bind_some]
    cases leastSquares (p :: q :: r :: others)
        (min ((p :: q :: r :: others).length - 1) (max maxDegree 1)) with
    | none => exact minimumNorm?_eq ..
    | some coefficients => rfl

end Indexed

theorem fit_of_more {points : List ControlPoint} (more : 2 < points.length) (maxFee : Float)
    (maxDegree : Nat) :
    fit points maxFee maxDegree =
      let degree := min (points.length - 1) (max maxDegree 1)
      (leastSquares points degree).getD (minimumNorm points degree) := by
  match points, more with
  | _ :: _ :: _ :: _, _ => rfl

/-- Fitting by indices is never stuck. Up to two points give a line through the origin; more points
give a coefficient for every power up to the degree, whichever way they are found, and what has the
least squared error at that degree is the result, with finite coefficients. -/
theorem fit_shape (points : List ControlPoint) (maxFee : Float) (maxDegree : Nat) :
    ∃ curve, Indexed.fit? points maxFee maxDegree = some curve ∧
      fit points maxFee maxDegree = curve ∧
      (points.length ≤ 2 → ∃ slope, curve = [0.0, slope]) ∧
      (2 < points.length →
        let degree := min (points.length - 1) (max maxDegree 1)
        curve.length = degree + 1 ∧
          (Indexed.leastSquares? points degree = some (some curve) ∧ (∀ c ∈ curve, c.isFinite) ∨
            Indexed.leastSquares? points degree = some none ∧
              Indexed.minimumNorm? points degree = some curve)) := by
  refine ⟨_, Indexed.fit?_eq maxFee maxDegree points, rfl, fun few => ?_, fun more => ?_⟩
  · match points, few with
    | [], _ => exact ⟨_, rfl⟩
    | [_], _ => exact ⟨_, rfl⟩
    | [_, _], _ => exact ⟨_, rfl⟩
  · intro degree
    have solved : fit points maxFee maxDegree =
        (leastSquares points degree).getD (minimumNorm points degree) :=
      fit_of_more more maxFee maxDegree
    rw [Indexed.leastSquares?_eq, Indexed.minimumNorm?_eq, solved]
    cases found : leastSquares points degree with
    | none => exact ⟨Indexed.length_minimumNorm points degree, .inr ⟨rfl, rfl⟩⟩
    | some coefficients =>
      obtain ⟨length, finite⟩ := Indexed.leastSquares_some found
      exact ⟨length, .inl ⟨rfl, finite⟩⟩

theorem fit_shape_repeated_frequencies :
    let points : List ControlPoint := [⟨0.5, 0.1⟩, ⟨0.5, 0.0 / 0.0⟩, ⟨0.0 / 0.0, 1.0 / 0.0⟩]
    (fit points 0.1 0).length = 2 ∧ (fit points 0.1 18446744073709551615).length = 3 ∧
      ∃ slope, fit (points.take 2) 0.1 5 = [0.0, slope] := by
  intro points
  have more : 2 < points.length := by decide
  have few : (points.take 2).length ≤ 2 := by decide
  obtain ⟨_, -, rfl, -, line⟩ := fit_shape points 0.1 0
  obtain ⟨_, -, rfl, -, parabola⟩ := fit_shape points 0.1 18446744073709551615
  obtain ⟨_, -, rfl, slope, -⟩ := fit_shape (points.take 2) 0.1 5
  exact ⟨(line more).1, (parabola more).1, slope few⟩

end PaymentFees.Curve
