import PaymentFees.Curve.LeastSquares
import PaymentFees.Proofs.Indexed.Cells

/-!
The least squared error by reflections in place: a matrix in rows is turned column by column and
solved from its last row up, all by indices. No index is out of range, and what is found is what the
columns give that are taken off one by one.
-/

namespace PaymentFees.Curve.Indexed

def part? (column : List Float) (k i : Nat) : Option Float := do column[← minus? i k]?

def turn? {α : Type} (read : α → Nat → Option Float) (write : α → Nat → Float → Option α)
    (axis : List Float) (k rows : Nat) (state : α) : Option α := do
  let terms ← (between k rows).mapM fun i => do
    return (← part? axis k i) * (← read state i)
  let factor := 2.0 * sum terms / dot axis axis
  (between k rows).foldlM (fun state i => do
    write state i ((← read state i) - factor * (← part? axis k i))) state

def turned (axis : Nat → Float) (k rows : Nat) (g : Nat → Float) (i : Nat) : Float :=
  let factor := 2.0 * dot (segment k rows axis) (segment k rows g) /
    dot (segment k rows axis) (segment k rows axis)
  if k ≤ i ∧ i < rows then g i - factor * axis i else g i

def turnedBefore (axis : Nat → Float) (k rows : Nat) (g : Nat → Float) (n i : Nat) : Float :=
  if i < n then turned axis k rows g i else g i

section

variable (axis g : Nat → Float) {k rows : Nat}

theorem part?_segment {i : Nat} (low : k ≤ i) (high : i < rows) :
    part? (segment k rows axis) k i = some (axis i) := by
  rw [part?, minus?_of_le low, Option.bind_eq_bind, Option.bind_some,
    getElem?_segment (by omega), Nat.add_sub_cancel' low]

theorem dot_segment :
    dot (segment k rows axis) (segment k rows g) = sum (segment k rows fun i => axis i * g i) := by
  rw [dot, zipWith_segment]

theorem segment_turned :
    segment k rows (turned axis k rows g) = reflect (segment k rows axis) (segment k rows g) := by
  rw [reflect, zipWith_segment]
  exact segment_congr fun i low high => if_pos ⟨low, high⟩

theorem turned_of_lt {i : Nat} (above : i < k) : turned axis k rows g i = g i :=
  if_neg fun inside => absurd inside.1 (Nat.not_le.mpr above)

theorem turnedBefore_first : turnedBefore axis k rows g k = g := by
  funext i
  unfold turnedBefore
  split_ifs with above
  · exact turned_of_lt axis g above
  · rfl

theorem turnedBefore_last : turnedBefore axis k rows g rows = turned axis k rows g := by
  funext i
  unfold turnedBefore
  split_ifs with inside
  · rfl
  · exact (if_neg fun range => inside range.2).symm

theorem turnedBefore_succ {n : Nat} (low : k ≤ n) (high : n < rows) :
    Function.update (turnedBefore axis k rows g n) n (turned axis k rows g n) =
      turnedBefore axis k rows g (n + 1) := by
  funext i
  unfold turnedBefore
  rcases Nat.lt_trichotomy i n with before | rfl | after
  · rw [Function.update_of_ne (Nat.ne_of_lt before), if_pos before, if_pos (by omega)]
  · rw [Function.update_self, if_pos (Nat.lt_succ_self i)]
  · rw [Function.update_of_ne (Nat.ne_of_gt after), if_neg (by omega), if_neg (by omega)]

theorem turn?_eq {α : Type} {read : α → Nat → Option Float} {write : α → Nat → Float → Option α}
    (cells : (Nat → Float) → α) (least : k ≤ rows)
    (reads : ∀ g i, i < rows → read (cells g) i = some (g i))
    (writes : ∀ g i x, i < rows → write (cells g) i x = some (cells (Function.update g i x))) :
    turn? read write (segment k rows axis) k rows (cells g) =
      some (cells (turned axis k rows g)) := by
  -- Only the entries from index `k` on are changed, each after it was read.
  have terms : ((between k rows).mapM fun i => do
      return (← part? (segment k rows axis) k i) * (← read (cells g) i)) =
      some (segment k rows fun i => axis i * g i) := by
    apply mapM_between
    intro i low high
    rw [part?_segment axis low high, reads g i high]
    rfl
  unfold turn?
  rw [terms, Option.bind_eq_bind, Option.bind_some, ← dot_segment, ← turnedBefore_last]
  nth_rewrite 2 [← turnedBefore_first axis g]
  apply foldlM_between (fun n => cells (turnedBefore axis k rows g n)) least
  intro i low high
  have entry : turnedBefore axis k rows g i i = g i := if_neg (Nat.lt_irrefl i)
  have next : turned axis k rows g i = g i - _ := if_pos ⟨low, high⟩
  simp only [reads _ i high, entry, part?_segment axis low high, Option.bind_eq_bind,
    Option.bind_some]
  rw [writes _ i _ high, ← next, turnedBefore_succ axis g low high]

end

def axis? (column : List Float) (corner : Float) : Option (List Float) := do
  let length := norm column
  set? column 0 ((← column[0]?) - (if corner > 0.0 then -length else length))

/-- Turns the columns from `k` on, and the target, so that column `k` ends at its diagonal. The
answer is none if little is left of the column. -/
def step? (norms : List Float) (rows cols k : Nat) (a : List (List Float)) (b : List Float) :
    Option (Option (List (List Float) × List Float)) := do
  let column ← (between k rows).mapM (cell? a · k)
  let start ← norms[k]?
  if start == 0.0 || norm column ≤ 1e-10 * start then return none
  let axis ← axis? column (← cell? a k k)
  if dot axis axis == 0.0 then return some (a, b)
  let a ← (between k cols).foldlM (fun a j =>
    turn? (fun a i => cell? a i j) (fun a i => setCell? a i j) axis k rows a) a
  let b ← turn? (fun b i => b[i]?) set? axis k rows b
  return some (a, b)

def eliminate? (norms : List Float) (rows cols : Nat) :
    List Nat → List (List Float) → List Float → Option (Option (List (List Float) × List Float))
  | [], a, b => some (some (a, b))
  | k :: ks, a, b => do
    match ← step? norms rows cols k a b with
    | none => return none
    | some (a, b) => eliminate? norms rows cols ks a b

/-- A matrix whose columns from `k` on are reflected in its rows from `k` on. -/
def turnedColumns (axis : Nat → Float) (k rows : Nat) (f : Nat → Nat → Float) (n i j : Nat) :
    Float :=
  if k ≤ j ∧ j < n then turned axis k rows (f · j) i else f i j

section

variable {rows cols k : Nat} (axis : Nat → Float) (f : Nat → Nat → Float)

theorem turn?_column {j : Nat} (least : k ≤ rows) (inside : j < cols) :
    turn? (fun a i => cell? a i j) (fun a i => setCell? a i j) (segment k rows axis) k rows
        (grid rows cols f) =
      some (grid rows cols fun i j' =>
        if j' = j then turned axis k rows (f · j) i else f i j') := by
  let cells (g : Nat → Float) : List (List Float) :=
    grid rows cols fun i j' => if j' = j then g i else f i j'
  have start : grid rows cols f = cells (f · j) := by
    congr 1
    funext i j'
    split_ifs with same
    · rw [same]
    · rfl
  rw [start]
  apply turn?_eq axis _ cells least
  · intro g i high
    rw [cell?_grid high inside, if_pos rfl]
  · intro g i x high
    rw [setCell?_grid high inside]
    congr 2
    funext i' j'
    by_cases row : i' = i <;> by_cases column : j' = j <;> simp [Function.update, row, column]

theorem turn?_target (g : Nat → Float) (least : k ≤ rows) :
    turn? (fun b i => b[i]?) set? (segment k rows axis) k rows (segment 0 rows g) =
      some (segment 0 rows (turned axis k rows g)) := by
  apply turn?_eq axis g (segment 0 rows) least
  · intro g i high
    rw [getElem?_segment (by omega), Nat.zero_add]
  · exact fun g i x high => set?_segment high x

theorem turn?_columns (least : k ≤ rows) (first : k ≤ cols) :
    (between k cols).foldlM (fun a j =>
        turn? (fun a i => cell? a i j) (fun a i => setCell? a i j) (segment k rows axis) k rows a)
        (grid rows cols f) =
      some (grid rows cols (turnedColumns axis k rows f cols)) := by
  have start : f = turnedColumns axis k rows f k := by
    funext i j
    exact (if_neg fun range => Nat.not_lt.mpr range.1 range.2).symm
  nth_rewrite 1 [start]
  apply foldlM_between (fun n => grid rows cols (turnedColumns axis k rows f n)) first
  intro n low high
  rw [turn?_column axis _ least high]
  congr 2
  funext i j
  have own : (fun i => turnedColumns axis k rows f n i n) = (f · n) := by
    funext i
    exact if_neg fun range => Nat.lt_irrefl n range.2
  rw [own]
  unfold turnedColumns
  split_ifs with same range range range
  · rw [same]
  · exact absurd ⟨same ▸ low, same ▸ Nat.lt_succ_self j⟩ range
  · rfl
  · omega
  · omega
  · rfl

end

def reflector (column : List Float) : List Float → List Float :=
  let axis := reflectionAxis column
  if dot axis axis == 0.0 then id else reflect axis

/-- A matrix and a target after column `k` was turned: what is below row `k` is turned, and what is
above it is as before. -/
structure Turned (k rows cols : Nat) (f f' : Nat → Nat → Float) (g g' : Nat → Float) : Prop where
  column : ∀ j, k ≤ j → j < cols →
    segment k rows (f' · j) = reflector (segment k rows (f · k)) (segment k rows (f · j))
  target : segment k rows g' = reflector (segment k rows (f · k)) (segment k rows g)
  above : ∀ i < k, f' i = f i ∧ g' i = g i

section

variable {rows cols k : Nat} (f : Nat → Nat → Float) (g start : Nat → Float)
  (row : k < rows) (column : k < cols)

theorem axis?_eq (row : k < rows) :
    axis? (segment k rows (f · k)) (f k k) = some (reflectionAxis (segment k rows (f · k))) := by
  rw [segment_succ row]
  rfl

theorem exists_axis (row : k < rows) :
    ∃ axis, reflectionAxis (segment k rows (f · k)) = segment k rows axis := by
  refine ⟨_, eq_segment ?_⟩
  rw [segment_succ row]
  simp [reflectionAxis]
  omega

include row column

theorem step?_eq :
    let negligible :=
      start k == 0.0 || norm (segment k rows (f · k)) ≤ 1e-10 * start k
    let answer := step? (segment 0 cols start) rows cols k (grid rows cols f) (segment 0 rows g)
    (negligible = true ∧ answer = some none) ∨
      negligible = false ∧ ∃ f' g', Turned k rows cols f f' g g' ∧
        answer = some (some (grid rows cols f', segment 0 rows g')) := by
  intro negligible answer
  have entries : (between k rows).mapM (cell? (grid rows cols f) · k) =
      some (segment k rows (f · k)) :=
    mapM_between fun i low high => cell?_grid high column
  have norms : (segment 0 cols start)[k]? = some (start k) := by
    rw [getElem?_segment (by omega), Nat.zero_add]
  have corner : cell? (grid rows cols f) k k = some (f k k) := cell?_grid row column
  obtain ⟨axis, axisEq⟩ := exists_axis f row
  have reflected : reflector (segment k rows (f · k)) =
      if dot (segment k rows axis) (segment k rows axis) == 0.0 then id
      else reflect (segment k rows axis) := by rw [reflector, axisEq]
  unfold answer step?
  rw [entries, Option.bind_eq_bind, Option.bind_some, norms, Option.bind_eq_bind, Option.bind_some]
  split_ifs with deficient
  · exact .inl ⟨deficient, rfl⟩
  refine .inr ⟨Bool.eq_false_iff.mpr deficient, ?_⟩
  rw [corner, Option.bind_eq_bind, Option.bind_some, axis?_eq f row, Option.bind_some, axisEq]
  split_ifs at reflected ⊢ with aligned
  · refine ⟨f, g, ⟨fun j _ _ => ?_, ?_, fun i _ => ⟨rfl, rfl⟩⟩, rfl⟩ <;> rw [reflected, id]
  · rw [turn?_columns axis f (Nat.le_of_lt row) (Nat.le_of_lt column), Option.bind_some,
      turn?_target axis g (Nat.le_of_lt row)]
    refine ⟨_, _, ⟨fun j low high => ?_, ?_, fun i above => ⟨?_, ?_⟩⟩, rfl⟩
    · rw [reflected, ← segment_turned]
      exact segment_congr fun i _ _ => if_pos ⟨low, high⟩
    · rw [reflected, segment_turned]
    · funext j
      unfold turnedColumns
      rw [turned_of_lt axis (f · j) above, ite_self]
    · exact turned_of_lt axis g above

end

def triangle (f : Nat → Nat → Float) (g : Nat → Float) (k cols : Nat) : List TriangularRow :=
  segment k cols fun i => ⟨f i i, segment (i + 1) cols (f i), g i⟩

theorem triangle_succ {f : Nat → Nat → Float} {g : Nat → Float} {k cols : Nat} (more : k < cols) :
    triangle f g k cols =
      ⟨f k k, segment (k + 1) cols (f k), g k⟩ :: triangle f g (k + 1) cols := segment_succ more

def columnsFrom (f : Nat → Nat → Float) (start : Nat → Float) (k rows cols : Nat) :
    List (Float × List Float) :=
  segment k cols fun j => (start j, segment k rows (f · j))

theorem triangulate_cons {column : List Float} (nonempty : column ≠ []) (startNorm : Float)
    (columns : List (Float × List Float)) (target : List Float) :
    triangulate ((startNorm, column) :: columns) target =
      if startNorm == 0.0 || norm column ≤ 1e-10 * startNorm then none
      else
        (triangulate (columns.map fun c => (c.1, (reflector column c.2).tail))
            (reflector column target).tail).map
          (⟨(reflector column column).headD 0.0,
            columns.map fun c => (reflector column c.2).headD 0.0,
            (reflector column target).headD 0.0⟩ :: ·) := by
  rw [triangulate.eq_3 _ _ _ _ nonempty]
  split_ifs
  · rfl
  · simp only [List.map_map, Option.bind_eq_bind, Option.map_eq_bind]
    rfl

section

variable {rows cols k : Nat} {f f' : Nat → Nat → Float} {g g' : Nat → Float} (start : Nat → Float)
  (row : k < rows) (column : k < cols)
include row column

theorem triangulate_negligible
    (negligible : (start k == 0.0 || norm (segment k rows (f · k)) ≤ 1e-10 * start k) = true) :
    triangulate (columnsFrom f start k rows cols) (segment k rows g) = none := by
  have nonempty : segment k rows (f · k) ≠ [] := by
    rw [segment_succ row]
    exact List.cons_ne_nil _ _
  rw [columnsFrom, segment_succ column, triangulate_cons nonempty, if_pos negligible]

/-- Taking one column off is the same as turning the matrix and leaving its row and column `k`. -/
theorem triangulate_turned
    (more : (start k == 0.0 || norm (segment k rows (f · k)) ≤ 1e-10 * start k) = false)
    (turned : Turned k rows cols f f' g g') :
    triangulate (columnsFrom f start k rows cols) (segment k rows g) =
      (triangulate (columnsFrom f' start (k + 1) rows cols) (segment (k + 1) rows g')).map
        (⟨f' k k, segment (k + 1) cols (f' k), g' k⟩ :: ·) := by
  have nonempty : segment k rows (f · k) ≠ [] := by
    rw [segment_succ row]
    exact List.cons_ne_nil _ _
  have own := turned.column k (Nat.le_refl k) column
  have columns : columnsFrom f' start (k + 1) rows cols =
      segment (k + 1) cols fun j =>
        (start j, (reflector (segment k rows (f · k)) (segment k rows (f · j))).tail) := by
    apply segment_congr
    intro j low high
    rw [← turned.column j (by omega) high, segment_succ row, List.tail_cons]
  have later : segment (k + 1) cols (f' k) =
      segment (k + 1) cols fun j =>
        (reflector (segment k rows (f · k)) (segment k rows (f · j))).headD 0.0 := by
    apply segment_congr
    intro j low high
    rw [← turned.column j (by omega) high, segment_succ row, List.headD_cons]
  rw [columns, later, columnsFrom, segment_succ column,
    triangulate_cons nonempty, if_neg (by simp [more]), map_segment, map_segment, ← own,
    ← turned.target, segment_succ row (f := g'), segment_succ row (f := (f' · k))]
  rfl

end

theorem eliminate?_eq (start : Nat → Float) {rows cols k : Nat} (tall : cols ≤ rows)
    (inside : k ≤ cols) (f : Nat → Nat → Float) (g : Nat → Float) :
    let found := triangulate (columnsFrom f start k rows cols) (segment k rows g)
    let answer := eliminate? (segment 0 cols start) rows cols (between k cols) (grid rows cols f)
      (segment 0 rows g)
    (found = none ∧ answer = some none) ∨
      ∃ f' g', found = some (triangle f' g' k cols) ∧
        answer = some (some (grid rows cols f', segment 0 rows g')) ∧
        ∀ i < k, f' i = f i ∧ g' i = g i := by
  obtain ⟨count, rfl⟩ := Nat.exists_eq_add_of_le inside
  induction count generalizing k f g with
  | zero =>
    refine .inr ⟨f, g, ?_, ?_, fun i _ => ⟨rfl, rfl⟩⟩
    · rw [columnsFrom, triangle, Nat.add_zero, segment_self, segment_self, triangulate]
    · rw [Nat.add_zero, between_self, eliminate?]
  | succ count ih =>
    have column : k < k + (count + 1) := by omega
    have row : k < rows := by omega
    have step := step?_eq f g start row column
    dsimp only at step ⊢
    rw [between_succ column]
    unfold eliminate?
    rcases step with ⟨negligible, stopped⟩ | ⟨more, f₁, g₁, turned, stepped⟩
    · left
      rw [triangulate_negligible start row column negligible, stopped]
      exact ⟨rfl, rfl⟩
    have same : k + (count + 1) = k + 1 + count := by omega
    rw [triangulate_turned start row column more turned, stepped]
    rw [same] at tall ⊢
    rcases ih f₁ g₁ tall (Nat.le_add_right ..) with ⟨none, stopped⟩ | ⟨f', g', found, ended, above⟩
    · left
      rw [none]
      exact ⟨rfl, stopped⟩
    · obtain ⟨ownRow, ownTarget⟩ := above k (Nat.lt_succ_self k)
      refine .inr ⟨f', g', ?_, ended, fun i higher => ?_⟩
      · rw [found, Option.map_some, ← ownRow, ← ownTarget, @triangle_succ f' g' k _ (by omega)]
      · obtain ⟨rowAbove, targetAbove⟩ := above i (by omega)
        obtain ⟨rowBefore, targetBefore⟩ := turned.above i higher
        exact ⟨rowAbove.trans rowBefore, targetAbove.trans targetBefore⟩

def substitute? (a : List (List Float)) (b : List Float) (cols : Nat) : Option (List Float) :=
  (between 0 cols).reverse.foldlM (fun solution k => do
    let terms ← (between (k + 1) cols).mapM fun j => do
      return (← cell? a k j) * (← solution[j]?)
    set? solution k (((← b[k]?) - sum terms) / (← cell? a k k)))
    (List.replicate cols 0.0)

theorem length_solve (system : List TriangularRow) : (solve system).length = system.length := by
  induction system with
  | nil => rfl
  | cons row system ih => simp [solve, ih]

theorem length_triangle (f : Nat → Nat → Float) (g : Nat → Float) (k cols : Nat) :
    (triangle f g k cols).length = cols - k := length_segment ..

def solvedFrom (f : Nat → Nat → Float) (g : Nat → Float) (cols k : Nat) : List Float :=
  List.replicate k 0.0 ++ solve (triangle f g k cols)

section

variable {cols k : Nat} {f : Nat → Nat → Float} {g : Nat → Float}

theorem set?_solvedFrom (x : Float) :
    set? (solvedFrom f g cols (k + 1)) k x =
      some (List.replicate k 0.0 ++ x :: solve (triangle f g (k + 1) cols)) := by
  rw [solvedFrom, set?_of_lt (by simp; omega), List.replicate_succ', List.append_assoc,
    List.set_append_right _ _ (by simp)]
  simp

variable (inside : k < cols)
include inside

theorem getElem?_solvedFrom {j : Nat} (low : k < j) (high : j < cols) :
    (solvedFrom f g cols (k + 1))[j]? =
      some ((solve (triangle f g (k + 1) cols)).getD (j - (k + 1)) 0.0) := by
  have length : (solve (triangle f g (k + 1) cols)).length = cols - (k + 1) := by
    rw [length_solve, length_triangle]
  rw [solvedFrom, List.getElem?_append_right (by simp; omega), List.length_replicate,
    List.getD_eq_getElem?_getD, List.getElem?_eq_getElem (by omega), Option.getD_some]

theorem solvedFrom_eq :
    solvedFrom f g cols k =
      List.replicate k 0.0 ++
        (g k - dot (segment (k + 1) cols (f k)) (solve (triangle f g (k + 1) cols))) / f k k ::
          solve (triangle f g (k + 1) cols) := by
  rw [solvedFrom, triangle_succ inside, solve]

end

theorem substitute?_eq {rows cols : Nat} (tall : cols ≤ rows) (f : Nat → Nat → Float)
    (g : Nat → Float) :
    substitute? (grid rows cols f) (segment 0 rows g) cols =
      some (solve (triangle f g 0 cols)) := by
  have first : List.replicate cols 0.0 = solvedFrom f g cols cols := by
    rw [solvedFrom, triangle, segment_self, solve, List.append_nil]
  have last : solve (triangle f g 0 cols) = solvedFrom f g cols 0 := by
    rw [solvedFrom, List.replicate_zero, List.nil_append]
  rw [substitute?, first, last]
  apply foldlM_downward
  intro k inside
  have terms : ((between (k + 1) cols).mapM fun j => do
      return (← cell? (grid rows cols f) k j) * (← (solvedFrom f g cols (k + 1))[j]?)) =
      some (segment (k + 1) cols fun j =>
        f k j * (solve (triangle f g (k + 1) cols)).getD (j - (k + 1)) 0.0) := by
    apply mapM_between
    intro j low high
    rw [cell?_grid (by omega) high, getElem?_solvedFrom inside low high]
    rfl
  have length : (solve (triangle f g (k + 1) cols)).length = cols - (k + 1) := by
    rw [length_solve, length_triangle]
  rw [terms, Option.bind_eq_bind, Option.bind_some, getElem?_segment (by omega),
    cell?_grid (by omega) inside, Nat.zero_add, Option.bind_eq_bind, Option.bind_some,
    Option.bind_some, set?_solvedFrom, solvedFrom_eq inside, ← dot_segment, ← eq_segment length]

/-- The polynomial of that degree with the least squared error, by indices. The answer is none if
the points do not determine it or a coefficient is not finite. -/
def leastSquares? (points : List ControlPoint) (degree : Nat) : Option (Option (List Float)) := do
  let rows := points.length
  let cols := degree + 1
  if rows < cols then return none
  let a := points.map fun p => (between 0 cols).map (power p.frequency)
  let b := points.map (·.fee)
  let norms ← (between 0 cols).mapM fun k => do return norm (← a.mapM (·[k]?))
  match ← eliminate? norms rows cols (between 0 cols) a b with
  | none => return none
  | some (a, b) =>
    let solution ← substitute? a b cols
    return if solution.all Float.isFinite then some solution else none

theorem length_reflector_le (column entries : List Float) :
    (reflector column entries).length ≤ entries.length := by
  unfold reflector
  split_ifs
  · exact Nat.le_refl _
  · rw [reflect, List.length_zipWith]
    exact Nat.min_le_left ..

theorem triangulate_eq_none {n : Nat} {columns : List (Float × List Float)}
    (short : ∀ c ∈ columns, c.2.length ≤ n) (more : n < columns.length) (target : List Float) :
    triangulate columns target = none := by
  induction n generalizing columns target with
  | zero =>
    cases columns with
    | nil => cases more
    | cons c columns =>
      obtain ⟨startNorm, column⟩ := c
      have none := Nat.le_zero.mp (short (startNorm, column) List.mem_cons_self)
      have empty : column = [] := List.length_eq_zero_iff.mp none
      rw [empty, triangulate]
  | succ n ih =>
    cases columns with
    | nil => cases more
    | cons c columns =>
      obtain ⟨startNorm, column⟩ := c
      obtain ⟨-, others⟩ := List.forall_mem_cons.mp short
      by_cases empty : column = []
      · rw [empty, triangulate]
      · rw [triangulate_cons empty]
        split_ifs
        · rfl
        · rw [ih _ (by simpa using more), Option.map_none]
          intro c present
          obtain ⟨other, member, rfl⟩ := List.mem_map.mp present
          have shorter := length_reflector_le column other.2
          have bound := others other member
          simp only [List.length_tail]
          omega

section

variable (points : List ControlPoint)

def frequencyAt (i : Nat) : Float := (points.map (·.frequency)).getD i 0.0

theorem map_frequency {α : Type} (h : Float → α) :
    points.map (fun p => h p.frequency) =
      segment 0 points.length fun i => h (frequencyAt points i) := by
  have frequencies : points.map (·.frequency) = segment 0 points.length (frequencyAt points) :=
    eq_segment (by simp)
  rw [← map_segment, ← frequencies, List.map_map]
  rfl

theorem powerColumn_eq (k : Nat) :
    powerColumn points k = segment 0 points.length fun i => power (frequencyAt points i) k :=
  map_frequency points (power · k)

def powers (cols : Nat) : List (List Float) :=
  grid points.length cols fun i => power (frequencyAt points i)

theorem norms_eq (cols : Nat) :
    ((between 0 cols).mapM fun k => do return norm (← (powers points cols).mapM (·[k]?))) =
      some (segment 0 cols fun k => norm (powerColumn points k)) := by
  apply mapM_between
  intro k low high
  have column : (powers points cols).mapM (·[k]?) = some (powerColumn points k) := by
    rw [powerColumn_eq, powers, grid, segment, List.mapM_map]
    apply mapM_between
    intro i _ _
    rw [Function.comp_apply, getElem?_segment (by omega), Nat.zero_add]
  rw [column]
  rfl

theorem columns_eq (cols : Nat) :
    ((List.range cols).map (powerColumn points)).map (fun column => (norm column, column)) =
      columnsFrom (fun i => power (frequencyAt points i)) (fun k => norm (powerColumn points k)) 0
        points.length cols := by
  rw [List.map_map, columnsFrom, segment, between_zero]
  apply List.map_congr_left
  intro k _
  rw [Function.comp_apply, powerColumn_eq]

theorem leastSquares?_eq (degree : Nat) :
    leastSquares? points degree = some (leastSquares points degree) := by
  have matrix : points.map (fun p => (between 0 (degree + 1)).map (power p.frequency)) =
      powers points (degree + 1) :=
    map_frequency points fun x => segment 0 (degree + 1) (power x)
  have target : points.map (·.fee) =
      segment 0 points.length fun i => (points.map (·.fee)).getD i 0.0 := eq_segment (by simp)
  unfold leastSquares? leastSquares
  dsimp only
  rw [columns_eq, target]
  split_ifs with wide
  · have short : ∀ c ∈ columnsFrom (fun i => power (frequencyAt points i))
        (fun k => norm (powerColumn points k)) 0 points.length (degree + 1),
        c.2.length ≤ points.length := by
      intro c present
      obtain ⟨j, -, rfl⟩ := List.mem_map.mp present
      simp
    rw [triangulate_eq_none short (by rw [columnsFrom, length_segment]; exact wide)]
    rfl
  rw [matrix, norms_eq, Option.bind_eq_bind, Option.bind_some, powers]
  have answer := eliminate?_eq (fun k => norm (powerColumn points k)) (Nat.not_lt.mp wide)
    (Nat.zero_le _) (fun i => power (frequencyAt points i))
    (fun i => (points.map (·.fee)).getD i 0.0)
  rcases answer with ⟨none, stopped⟩ | ⟨f, g, found, ended, -⟩
  · rw [none, stopped]
    rfl
  · rw [found, ended, Option.bind_eq_bind, Option.bind_some]
    dsimp only
    rw [substitute?_eq (Nat.not_lt.mp wide)]
    rfl

end

end PaymentFees.Curve.Indexed
