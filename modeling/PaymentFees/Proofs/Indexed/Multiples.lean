import PaymentFees.Proofs.Binary.Signed
import PaymentFees.Proofs.Indexed.Cells
import PaymentFees.Curve.MinimumNorm

/-!
The polynomial that vanishes at given roots, and its weighted multiples, by indices. The products
start from zeros and every term is added to one, so a zero must not get a sign by that.
-/

namespace PaymentFees.Curve.Indexed

open Binary

def addTerm? (root : Float) (product : List Float) (c : Float) (i : ℕ) : Option (List Float) := do
  let product ← set? product i ((← product[i]?) - root * c)
  set? product (i + 1) ((← product[i + 1]?) + c)

def timesRoot? (root : Float) (polynomial : List Float) : Option (List Float) :=
  polynomial.zipIdx.foldlM (fun product term => addTerm? root product term.1 term.2)
    (List.replicate (polynomial.length + 1) 0.0)

def moveTerm? (weights : List Float) (shift : ℕ) (v : List Float) (c : Float) (i : ℕ) :
    Option (List Float) := do
  set? v (i + shift) (c * (← weights[i + shift]?))

def multiple? (polynomial weights : List Float) (cols shift : ℕ) : Option (List Float) :=
  polynomial.zipIdx.foldlM (fun v term => moveTerm? weights shift v term.1 term.2)
    (List.replicate cols 0.0)

/-- No coefficient is a zero with a sign. -/
def Unmarked (polynomial : List Float) : Prop :=
  ∀ c ∈ polynomial, c.toModel.unpack ≠ .zero .negative

theorem timesRoot_unmarked (root : Float) {carry : Float} {polynomial : List Float}
    (first : carry.toModel.unpack ≠ .zero .negative) (unmarked : Unmarked polynomial) :
    Unmarked (timesRoot root carry polynomial) := by
  induction polynomial generalizing carry with
  | nil => exact List.forall_mem_singleton.mpr first
  | cons c cs ih =>
    obtain ⟨next, rest⟩ := List.forall_mem_cons.mp unmarked
    exact List.forall_mem_cons.mpr ⟨sub_ne_negative_zero first _, ih next rest⟩

theorem length_timesRoot (root carry : Float) (polynomial : List Float) :
    (timesRoot root carry polynomial).length = polynomial.length + 1 := by
  induction polynomial generalizing carry with
  | nil => rfl
  | cons c cs ih => rw [timesRoot, List.length_cons, ih, List.length_cons]

theorem getElem?_front (front : List Float) (x : Float) (rest : List Float) :
    (front ++ x :: rest)[front.length]? = some x := by
  rw [List.getElem?_append_right (Nat.le_refl _), Nat.sub_self, List.getElem?_cons_zero]

theorem set?_front (front : List Float) (x y : Float) (rest : List Float) :
    set? (front ++ x :: rest) front.length y = some (front ++ y :: rest) := by
  rw [set?_of_lt (by simp), List.set_append_right _ _ (Nat.le_refl _), Nat.sub_self,
    List.set_cons_zero]

theorem addTerm?_eq (root : Float) (front rest : List Float) (carry : Float) {c : Float}
    (other : c.toModel.unpack ≠ .zero .negative) :
    addTerm? root (front ++ carry :: 0.0 :: rest) c front.length =
      some (front ++ (carry - root * c) :: c :: rest) := by
  have place : front.length + 1 = (front ++ [carry - root * c]).length := by simp
  unfold addTerm?
  rw [getElem?_front, Option.bind_eq_bind, Option.bind_some, set?_front, Option.bind_eq_bind,
    Option.bind_some, List.append_cons, place, getElem?_front, Option.bind_some, set?_front,
    zero_add_of_ne other, ← List.append_cons]

/-- Between the coefficients that are done and zeros stands what is carried on. -/
theorem foldlM_addTerm? (root : Float) {polynomial : List Float} (unmarked : Unmarked polynomial)
    (front : List Float) (carry : Float) :
    (polynomial.zipIdx front.length).foldlM
        (fun product term => addTerm? root product term.1 term.2)
        (front ++ carry :: List.replicate polynomial.length 0.0) =
      some (front ++ timesRoot root carry polynomial) := by
  induction polynomial generalizing front carry with
  | nil => rfl
  | cons c cs ih =>
    obtain ⟨other, rest⟩ := List.forall_mem_cons.mp unmarked
    have next := ih rest (front ++ [carry - root * c]) c
    rw [List.length_append, List.length_singleton, ← List.append_cons, ← List.append_cons] at next
    rw [List.length_cons, List.replicate_succ, List.zipIdx_cons, List.foldlM_cons,
      addTerm?_eq root front _ carry other, Option.bind_eq_bind, Option.bind_some, next, timesRoot]

theorem timesRoot?_eq (root : Float) {polynomial : List Float} (unmarked : Unmarked polynomial) :
    timesRoot? root polynomial = some (timesRoot root 0.0 polynomial) :=
  foldlM_addTerm? root unmarked [] 0.0

theorem unmarked_one : Unmarked [1.0] := by
  intro c present
  rw [List.mem_singleton.mp present]
  nofun

theorem foldlM_timesRoot? (roots : List Float) {polynomial : List Float}
    (unmarked : Unmarked polynomial) :
    roots.foldlM (fun polynomial root => timesRoot? root polynomial) polynomial =
      some (roots.foldl (fun polynomial root => timesRoot root 0.0 polynomial) polynomial) := by
  induction roots generalizing polynomial with
  | nil => rfl
  | cons root roots ih =>
    have zero : (0.0 : Float).toModel.unpack ≠ .zero .negative := by nofun
    rw [List.foldlM_cons, timesRoot?_eq root unmarked, Option.bind_eq_bind, Option.bind_some,
      ih (timesRoot_unmarked root zero unmarked), List.foldl_cons]

theorem length_vanishing (roots : List Float) : (vanishing roots).length = roots.length + 1 := by
  have each (polynomial : List Float) :
      (roots.foldl (fun polynomial root => timesRoot root 0.0 polynomial) polynomial).length =
        polynomial.length + roots.length := by
    induction roots generalizing polynomial with
    | nil => rfl
    | cons root roots ih =>
      rw [List.foldl_cons, ih, length_timesRoot, List.length_cons]
      omega
  rw [vanishing, each, List.length_singleton, Nat.add_comm]

theorem foldlM_moveTerm? (weights : List Float) {shift i : ℕ} (polynomial front : List Float)
    (rest : ℕ) (place : front.length = i + shift)
    (enough : i + shift + polynomial.length ≤ weights.length) :
    (polynomial.zipIdx i).foldlM (fun v term => moveTerm? weights shift v term.1 term.2)
        (front ++ List.replicate (polynomial.length + rest) 0.0) =
      some (front ++ List.zipWith (· * ·) polynomial (weights.drop (i + shift)) ++
        List.replicate rest 0.0) := by
  induction polynomial generalizing front i with
  | nil => simp
  | cons c cs ih =>
    rw [List.length_cons] at enough
    have inside : i + shift < weights.length := by omega
    have later : i + 1 + shift = i + shift + 1 := by omega
    have next := ih (front ++ [c * weights[i + shift]]) (i := i + 1) (by simp; omega) (by omega)
    have count : cs.length + 1 + rest = cs.length + rest + 1 := by omega
    have written (x : Float) (tail : List Float) :
        set? (front ++ 0.0 :: tail) (i + shift) x = some (front ++ x :: tail) := by
      rw [← place, set?_front]
    rw [later, ← List.append_cons, ← List.append_cons] at next
    rw [List.length_cons, List.zipIdx_cons, List.foldlM_cons, count, List.replicate_succ, moveTerm?,
      List.getElem?_eq_getElem inside, Option.bind_eq_bind, Option.bind_eq_bind, Option.bind_some,
      written, List.drop_eq_getElem_cons inside, List.zipWith_cons_cons, Option.bind_some, next]

theorem multiple?_eq {roots weights : List Float} {degree shift : ℕ} (few : roots.length ≤ degree)
    (inside : shift ≤ degree - roots.length) (length : weights.length = degree + 1) :
    multiple? (vanishing roots) weights (degree + 1) shift =
      some (List.replicate shift 0.0 ++
        List.zipWith (· * ·) (vanishing roots) (weights.drop shift) ++
          List.replicate (degree - roots.length - shift) 0.0) := by
  have terms := length_vanishing roots
  have zeros : degree + 1 =
      shift + ((vanishing roots).length + (degree - roots.length - shift)) := by omega
  have run := @foldlM_moveTerm? weights shift 0 (vanishing roots) (List.replicate shift 0.0)
    (degree - roots.length - shift) (by simp) (by omega)
  rw [List.replicate_append_replicate, ← zeros, Nat.zero_add] at run
  exact run

end PaymentFees.Curve.Indexed
