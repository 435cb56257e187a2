import Mathlib.Logic.Function.Basic
import Mathlib.Tactic.Common
import PaymentFees.Curve.Basic

namespace PaymentFees.Curve.Indexed

variable {α β : Type}

def minus? (m n : Nat) : Option Nat := if n ≤ m then some (m - n) else none

def between (first last : Nat) : List Nat := List.range' first (last - first)

def set? (v : List Float) (i : Nat) (x : Float) : Option (List Float) :=
  if i < v.length then some (v.set i x) else none

def cell? (a : List (List Float)) (i j : Nat) : Option Float := do (← a[i]?)[j]?

def setCell? (a : List (List Float)) (i j : Nat) (x : Float) : Option (List (List Float)) := do
  let row ← set? (← a[i]?) j x
  return a.set i row

theorem minus?_of_le {m n : Nat} (least : n ≤ m) : minus? m n = some (m - n) := if_pos least

theorem set?_of_lt {v : List Float} {i : Nat} (inside : i < v.length) (x : Float) :
    set? v i x = some (v.set i x) := if_pos inside

theorem between_succ {k n : Nat} (more : k < n) : between k n = k :: between (k + 1) n := by
  have count : n - k = n - (k + 1) + 1 := by omega
  rw [between, count, List.range'_succ, between]

theorem between_zero (n : Nat) : between 0 n = List.range n := by
  rw [between, Nat.sub_zero, ← List.range_eq_range']

theorem between_self (n : Nat) : between n n = [] := by simp [between]

def segment (first last : Nat) (f : Nat → α) : List α := (between first last).map f

section

variable (k n : Nat) (f g : Nat → α)

@[simp] theorem length_segment : (segment k n f).length = n - k := by
  simp [segment, between]

variable {k n f g}

theorem getElem?_segment {i : Nat} (inside : i < n - k) :
    (segment k n f)[i]? = some (f (k + i)) := by
  simp [segment, between, inside]

theorem segment_congr (same : ∀ i, k ≤ i → i < n → f i = g i) :
    segment k n f = segment k n g := by
  apply List.map_congr_left
  intro i present
  obtain ⟨least, most⟩ := List.mem_range'_1.mp present
  exact same i least (by omega)

theorem segment_succ (more : k < n) : segment k n f = f k :: segment (k + 1) n f := by
  rw [segment, between_succ more, List.map_cons, segment]

theorem segment_self : segment n n f = [] := by rw [segment, between_self, List.map_nil]

theorem map_segment (h : α → β) : (segment k n f).map h = segment k n fun i => h (f i) :=
  List.map_map ..

theorem zipWith_segment (h : α → α → β) :
    List.zipWith h (segment k n f) (segment k n g) = segment k n fun i => h (f i) (g i) := by
  rw [segment, segment, List.zipWith_map, List.zipWith_self]
  rfl

end

theorem eq_segment {v : List Float} {k n : Nat} (length : v.length = n - k) :
    v = segment k n fun i => v.getD (i - k) 0.0 := by
  apply List.ext_getElem?
  intro i
  by_cases inside : i < n - k
  · rw [getElem?_segment inside, Nat.add_sub_cancel_left, List.getD_eq_getElem?_getD,
      List.getElem?_eq_getElem (length ▸ inside), Option.getD_some]
  · rw [List.getElem?_eq_none (by omega), List.getElem?_eq_none (by simpa using inside)]

theorem set_segment {n i : Nat} {f : Nat → α} (inside : i < n) (x : α) :
    (segment 0 n f).set i x = segment 0 n (Function.update f i x) := by
  apply List.ext_getElem?
  intro j
  rw [List.getElem?_set]
  by_cases more : j < n
  · rw [getElem?_segment (by omega), Nat.zero_add, getElem?_segment (by omega), Nat.zero_add]
    split_ifs with same beyond
    · rw [same, Function.update_self]
    · exact absurd (length_segment 0 n f ▸ inside) beyond
    · rw [Function.update_of_ne (Ne.symm same)]
  · rw [if_neg (by omega), List.getElem?_eq_none (by simpa using more),
      List.getElem?_eq_none (by simpa using more)]

theorem set?_segment {n i : Nat} {f : Nat → Float} (inside : i < n) (x : Float) :
    set? (segment 0 n f) i x = some (segment 0 n (Function.update f i x)) := by
  rw [set?_of_lt (by simpa using inside), set_segment inside]

def grid (rows cols : Nat) (f : Nat → Nat → Float) : List (List Float) :=
  segment 0 rows fun i => segment 0 cols (f i)

section

variable {rows cols i j : Nat} {f : Nat → Nat → Float} (row : i < rows) (column : j < cols)
include row column

theorem cell?_grid : cell? (grid rows cols f) i j = some (f i j) := by
  simp only [cell?, grid]
  rw [getElem?_segment (by omega), Option.bind_eq_bind, Option.bind_some,
    getElem?_segment (by omega), Nat.zero_add, Nat.zero_add]

theorem setCell?_grid (x : Float) :
    setCell? (grid rows cols f) i j x =
      some (grid rows cols (Function.update f i (Function.update (f i) j x))) := by
  have written : grid rows cols (Function.update f i (Function.update (f i) j x)) =
      (grid rows cols f).set i (segment 0 cols (Function.update (f i) j x)) := by
    rw [grid, grid, set_segment row]
    congr 1
    funext i'
    exact Function.apply_update (fun _ => segment 0 cols) f i _ i'
  rw [written]
  simp only [setCell?, grid]
  rw [getElem?_segment (by omega), Nat.zero_add, Option.bind_eq_bind, Option.bind_some,
    set?_segment column]
  rfl

end

theorem mapM_between {k n : Nat} {f : Nat → Option α} {g : Nat → α}
    (each : ∀ i, k ≤ i → i < n → f i = some (g i)) :
    (between k n).mapM f = some (segment k n g) := by
  have all : ∀ i ∈ between k n, f i = some (g i) := by
    intro i present
    obtain ⟨least, most⟩ := List.mem_range'_1.mp present
    exact each i least (by omega)
  unfold segment
  generalize between k n = indices at all
  induction indices with
  | nil => rfl
  | cons i indices ih =>
    obtain ⟨first, rest⟩ := List.forall_mem_cons.mp all
    simp [first, ih rest]

/-- Each step goes from one state to the next, so the loop goes from the first to the last. -/
theorem foldlM_between {k n : Nat} {step : α → Nat → Option α} (state : Nat → α) (least : k ≤ n)
    (each : ∀ i, k ≤ i → i < n → step (state i) i = some (state (i + 1))) :
    (between k n).foldlM step (state k) = some (state n) := by
  obtain ⟨count, rfl⟩ := Nat.exists_eq_add_of_le least
  unfold between
  rw [Nat.add_sub_cancel_left]
  induction count generalizing k with
  | zero => rfl
  | succ count ih =>
    rw [List.range'_succ, List.foldlM_cons, each k (Nat.le_refl k) (by omega), Option.bind_eq_bind,
      Option.bind_some]
    have rest := ih (Nat.le_add_right (k + 1) count) fun i low high =>
      each i (by omega) (by omega)
    rw [rest]
    congr 2
    omega

theorem foldlM_downward {n : Nat} {step : α → Nat → Option α} (state : Nat → α)
    (each : ∀ i, i < n → step (state (i + 1)) i = some (state i)) :
    (between 0 n).reverse.foldlM step (state n) = some (state 0) := by
  rw [between_zero]
  induction n with
  | zero => rfl
  | succ n ih =>
    rw [List.range_succ, List.reverse_append, List.reverse_singleton, List.singleton_append,
      List.foldlM_cons, each n (Nat.lt_succ_self n), Option.bind_eq_bind, Option.bind_some]
    exact ih fun i inside => each i (by omega)

end PaymentFees.Curve.Indexed
