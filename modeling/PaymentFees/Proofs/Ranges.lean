import PaymentFees.Proofs.Binary.Numbers
import PaymentFees.Proofs.Faults

namespace PaymentFees

open Binary

theorem sized_of_isMagnitude {x : Float} (magnitude : isMagnitude x = true) :
    ∃ q : ℚ, Sized x q := by
  simp only [isMagnitude, Bool.and_eq_true, Bool.not_eq_true', decide_eq_false_iff_not] at magnitude
  obtain ⟨finite, nonnegative⟩ := magnitude
  obtain ⟨q, size⟩ := extent_abs finite
  exact ⟨q, size, nonnegative⟩

namespace AmountRange

theorem upper_mem {bounds : List Float} {range : AmountRange} {upper : Float}
    (present : range ∈ ofBounds bounds) (closed : range.upper = some upper) : upper ∈ bounds := by
  induction bounds using ofBounds.induct with
  | case1 => simp [ofBounds] at present
  | case2 lower =>
    simp only [ofBounds, List.mem_singleton] at present
    simp [present] at closed
  | case3 lower next bounds ih =>
    rcases List.mem_cons.mp present with rfl | later
    · simp only [Option.some.injEq] at closed
      simp [closed]
    · exact List.mem_cons_of_mem _ (ih later)

theorem countP_contains {lower : Float} {bounds : List Float}
    (ascending : Ascending (lower :: bounds)) {v : Float} {a : WithTop ℚ} (number : Sized v a) :
    (ofBounds (lower :: bounds)).countP (·.contains v) = if lower ≤ v then 1 else 0 := by
  induction bounds generalizing lower with
  | nil => by_cases reached : lower ≤ v <;> simp [ofBounds, contains, reached]
  | cons upper bounds ih =>
    obtain ⟨⟨p, least⟩, ⟨q, greater⟩⟩ :
        (∃ p : ℚ, Sized lower p) ∧ ∃ q : ℚ, Sized upper q := by
      constructor <;> exact sized_of_isMagnitude (ascending.magnitudes _ (by simp))
    have ordered : lower < upper :=
      (greater.not_le_iff least).mp (List.isChain_cons_cons.mp ascending.above).1
    rw [ofBounds, List.countP_cons, ih ascending.tail]
    by_cases beyond : upper ≤ v
    · have reached : lower ≤ v := by
        rw [least.le_iff number]
        exact ((least.lt_iff greater).mp ordered).le.trans ((greater.le_iff number).mp beyond)
      have outside : ¬ v < upper := by
        rw [number.lt_iff greater, not_lt]
        exact (greater.le_iff number).mp beyond
      simp [contains, beyond, reached, outside]
    · have inside : v < upper := (greater.not_le_iff number).mp beyond
      by_cases reached : lower ≤ v <;> simp [contains, beyond, inside, reached]

end AmountRange

theorem find?_eq_of_countP {α : Type} {holds : α → Bool} {values : List α} {value : α}
    (single : values.countP holds ≤ 1) (present : value ∈ values) (here : holds value = true) :
    values.find? holds = some value := by
  induction values with
  | nil => cases present
  | cons head rest ih =>
    rw [List.countP_cons] at single
    cases first : holds head with
    | true =>
      have others : rest.countP holds = 0 := by simpa [first] using single
      rcases List.mem_cons.mp present with rfl | later
      · exact List.find?_cons_of_pos here
      · exact absurd here (List.countP_eq_zero.mp others value later)
    | false =>
      rw [List.find?_cons_of_neg (by simp [first])]
      rcases List.mem_cons.mp present with rfl | later
      · simp [first] at here
      · exact ih (by simpa [first] using single) later

theorem StoredPlan.locate?_eq_some_iff {stored : StoredPlan}
    (ascending : Ascending stored.amountTable) {v : Float} {a : WithTop ℚ} (number : Sized v a)
    {range : AmountRange}
    (present : range ∈ AmountRange.ofBounds stored.amountTable) :
    stored.locate? v = some range ↔ range.contains v = true := by
  constructor
  · intro found
    have inside := List.find?_some found
    exact inside
  · intro inside
    apply find?_eq_of_countP _ present inside
    cases table : stored.amountTable with
    | nil => simp [AmountRange.ofBounds]
    | cons lower bounds =>
      rw [table] at ascending
      rw [AmountRange.countP_contains ascending number]
      split <;> simp

end PaymentFees
