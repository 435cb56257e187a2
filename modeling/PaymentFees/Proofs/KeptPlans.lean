import PaymentFees.Proofs.Operations
import PaymentFees.Proofs.Writes

namespace PaymentFees

def KeepsPlans {α : Type} (action : Action α) : Prop :=
  ∀ store : Store, (action.run store).2.book.plans = store.book.plans

section

variable {saves : UserId → Prop} {before after : Book}

theorem Write.plans_or (write : Write saves before after) :
    after.plans = before.plans ∨ ∃ row, saves row.user ∧ after = before.savePlan row := by
  cases write with
  | enter stored =>
    rw [Book.insertPayment_ok stored]
    exact .inl rfl
  | amend changed =>
    rw [(Book.setAmount_ok _ changed).1]
    exact .inl rfl
  | savePlan allowed => exact .inr ⟨_, allowed, rfl⟩
  | @saveRecord row after saved =>
    obtain ⟨records, same⟩ := before.putRecord_records row
    rw [(Book.saveRecord_ok _ saved).1, same]
    exact .inl rfl
  | makeTables | leave | removeRecord | append => exact .inl rfl

theorem Writings.plans_eq (writings : Writings (fun _ => False) before after) :
    after.plans = before.plans := by
  induction writings with
  | refl => rfl
  | tail _ write ih =>
    obtain same | ⟨row, allowed, -⟩ := write.plans_or
    · exact same.trans ih
    · exact allowed.elim

theorem Writings.findPlan?_eq (writings : Writings saves before after) {user : UserId}
    (other : ¬ saves user) : after.findPlan? user = before.findPlan? user := by
  induction writings with
  | refl => rfl
  | @tail mid last _ write ih =>
    rw [← ih]
    obtain same | ⟨row, allowed, rfl⟩ := write.plans_or
    · exact congrArg (List.find? (·.user == user)) same
    · rw [Book.findPlan?_savePlan, if_neg]
      rintro rfl
      exact other allowed

end

def Request.SavesPlanOf (user : UserId) : Request → Prop
  | .savePlan named _ | .savePlanText named _ => named = user
  | _ => False

theorem Request.keepsPlans {request : Request} (operation : request.IsOperation)
    (other : ∀ user, ¬ request.SavesPlanOf user) (config : Config) (now : Instant) :
    KeepsPlans (request.perform config now) := by
  intro store
  have nobody : ∀ user, request.WritesPlanOf user → False := by
    intro user writes
    cases request with
    | storePlan => exact operation
    | _ => exact other user writes
  exact (Request.writes nobody config now store).2.plans_eq

end PaymentFees
