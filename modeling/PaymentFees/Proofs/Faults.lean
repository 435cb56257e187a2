import Mathlib.Data.List.Chain
import PaymentFees.Plan.Fault

namespace PaymentFees

theorem of_forM_ok {α ε : Type} {check : α → Except ε Unit} {values : List α}
    (accepted : values.forM check = .ok ()) : ∀ value ∈ values, check value = .ok () := by
  induction values with
  | nil =>
    intro value present
    cases present
  | cons value values ih =>
    change (check value >>= fun _ => values.forM check) = .ok () at accepted
    cases first : check value with
    | error =>
      rw [first] at accepted
      cases accepted
    | ok done =>
      rw [first] at accepted
      exact List.forall_mem_cons.mpr ⟨first, ih accepted⟩

structure Ascending (bounds : List Float) : Prop where
  magnitudes : ∀ bound ∈ bounds, isMagnitude bound = true
  above : bounds.IsChain fun lower upper => ¬ upper ≤ lower

theorem Ascending.tail {bound : Float} {bounds : List Float}
    (ascending : Ascending (bound :: bounds)) : Ascending bounds :=
  ⟨(List.forall_mem_cons.mp ascending.magnitudes).2, ascending.above.tail⟩

namespace FeePlan

theorem ascending_of_checkBounds {bounds : List Float} {index : Nat} {previous : Option Float}
    (accepted : checkBounds index previous bounds = .ok ()) :
    Ascending bounds ∧ ∀ lower ∈ previous, ∀ upper ∈ bounds.head?, ¬ upper ≤ lower := by
  induction bounds generalizing index previous with
  | nil => exact ⟨⟨by simp, .nil⟩, by simp⟩
  | cons bound bounds ih =>
    unfold checkBounds at accepted
    split at accepted
    · cases accepted
    · next magnitude =>
      split at accepted
      · cases accepted
      · next above =>
        obtain ⟨⟨magnitudes, chain⟩, first⟩ := ih accepted
        refine ⟨⟨List.forall_mem_cons.mpr ⟨by simpa using magnitude, magnitudes⟩, ?_⟩, ?_⟩
        · exact List.isChain_cons.mpr ⟨first bound rfl, chain⟩
        · rintro lower rfl upper ⟨⟩
          simpa using above

theorem check_ok {plan : FeePlan} (accepted : plan.check = .ok ()) :
    plan.amountTable ≠ [] ∧ Ascending plan.amountTable ∧
      ∀ entry ∈ plan.ranges.entries, checkRange entry.1 entry.2 = .ok () := by
  unfold check at accepted
  split at accepted
  · cases accepted
  · next filled =>
    cases bounds : checkBounds 0 none plan.amountTable with
    | error fault =>
      rw [bounds] at accepted
      cases accepted
    | ok done =>
      rw [bounds] at accepted
      exact ⟨by simpa using filled, (ascending_of_checkBounds bounds).1, of_forM_ok accepted⟩

end FeePlan

end PaymentFees
