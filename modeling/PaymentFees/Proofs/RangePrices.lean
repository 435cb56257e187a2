import PaymentFees.Proofs.Binary.Numbers
import PaymentFees.Proofs.Questions

namespace PaymentFees.Quote

open Binary

variable {m : Type → Type} [Monad m]

/-- The fee in a range with this ceiling and this curve, for a payment of this size. The frequency
is asked for only if there is a curve. -/
def feeInRange (config : Config) (size : Float) (maxFee : Option Float)
    (coefficients : Option (List Float)) (frequency : m Float) : m Float :=
  match coefficients with
  | none => pure 0.0
  | some coefficients => do
    let share := Curve.evaluate coefficients (← frequency)
    return settle config size (size * clampShare (maxFee.getD config.defaultMaxFee) share)

/-- The user's plan is a table that somebody has filled in, and these are the range of the payment
and the entry under its key. -/
structure Matched (sources : Sources m) (user : UserId) (amount : Float) (plan : StoredPlan)
    (range : AmountRange) (fees : RangeFees) : Prop where
  finite : amount.isFinite = true
  found : sources.plan user = pure (some plan)
  mode : plan.mode = .table
  filled : plan.isUnconfigured = false
  located : plan.locate? amount.abs = some range
  priced : plan.feesFor? range = some fees

variable {config : Config} {sources : Sources m} {user : UserId} {amount : Float}
  {plan : StoredPlan} {range : AmountRange} {fees : RangeFees}

theorem Matched.neg (matched : Matched sources user amount plan range fees) :
    Matched sources user (-amount) plan range fees := by
  have finite : (-amount).isFinite = amount.isFinite := by
    rw [← isFinite_abs, abs_neg, isFinite_abs]
  exact { matched with
    finite := finite.trans matched.finite
    located := by rw [abs_neg]; exact matched.located }

variable [LawfulMonad m]

theorem Matched.fee_eq (matched : Matched sources user amount plan range fees) :
    fee config sources user amount =
      feeInRange config amount.abs fees.maxFee fees.coefficients
        (sources.frequency plan.user range) := by
  obtain ⟨finite, found, mode, filled, located, priced⟩ := matched
  obtain ⟨maxFee, coefficients, points⟩ := fees
  rw [fee_eq_settle config sources user finite, found, pure_bind]
  cases coefficients with
  | none =>
    have unpriced : rawFee config sources plan amount.abs = pure 0.0 := by
      simp [rawFee, mode, tableFee, filled, located, priced]
    simp [feeInRange, unpriced, settle_zero config finite]
  | some coefficients =>
    have needs : Needs plan amount.abs range := .table mode filled located priced rfl
    simp [feeInRange, rawFee_of_needs needs, rawAt_table mode filled located priced]

/-- Two payments of the same size cost the same, or fail with the same failure, if one range is
found for both, with the same ceiling and the same curve, and the frequency in it is the same. All
else may differ: the signs, the users, the bounds of the other ranges and their fees, the control
points and the texts of formulas. -/
theorem fee_eq_of_matched (config : Config) {sources' : Sources m} {user' : UserId}
    {amount' : Float} {plan' : StoredPlan} {fees' : RangeFees}
    (first : Matched sources user amount plan range fees)
    (second : Matched sources' user' amount' plan' range fees')
    (size : amount.abs = amount'.abs) (ceiling : fees.maxFee = fees'.maxFee)
    (curve : fees.coefficients = fees'.coefficients)
    (answer : sources.frequency plan.user range = sources'.frequency plan'.user range) :
    fee config sources user amount = fee config sources' user' amount' ∧
      fee config sources user (-amount) = fee config sources user amount ∧
      fee config sources user amount =
        feeInRange config amount.abs fees.maxFee fees.coefficients
          (sources.frequency plan.user range) := by
  have alike : fee config sources user amount = fee config sources' user' amount' := by
    rw [first.fee_eq, second.fee_eq, size, ceiling, curve, answer]
  have unsigned : fee config sources user (-amount) = fee config sources user amount := by
    rw [first.neg.fee_eq, first.fee_eq, abs_neg]
  exact ⟨alike, unsigned, first.fee_eq⟩

def pointedPlan : StoredPlan where
  user := 1
  mode := .table
  formulaText := none
  amountTable := [0.0, 100.0, 1000.0]
  ranges := ByKey.ofEntries [("100", ⟨some 0.5, some [0.0, 0.25], some [⟨1.0, 0.25⟩]⟩)]
  createdAt := ⟨0, 0⟩
  updatedAt := ⟨0, 0⟩

def barePlan : StoredPlan where
  user := 2
  mode := .table
  formulaText := some "x"
  amountTable := [100.0, 1000.0, 5000.0]
  ranges := ByKey.ofEntries
    [("100", ⟨some 0.5, some [0.0, 0.25], none⟩), ("5000", ⟨none, none, none⟩)]
  createdAt := ⟨1, 0⟩
  updatedAt := ⟨2, 0⟩

def sourcesOf (plan : StoredPlan) : Sources (Except Failure) :=
  ⟨fun _ => .ok (some plan), fun _ _ => .ok 0.5⟩

theorem fee_eq_of_matched_signs :
    fee .standard (sourcesOf pointedPlan) 1 200.0 = fee .standard (sourcesOf barePlan) 7 (-200.0) ∧
      fee .standard (sourcesOf pointedPlan) 1 200.0 = .ok 25.0 := by
  have first : Matched (sourcesOf pointedPlan) 1 200.0 pointedPlan ⟨100.0, some 1000.0⟩
      ⟨some 0.5, some [0.0, 0.25], some [⟨1.0, 0.25⟩]⟩ :=
    ⟨by decide +kernel, rfl, rfl, by decide +kernel, by decide +kernel, by decide +kernel⟩
  have second : Matched (sourcesOf barePlan) 7 (-200.0) barePlan ⟨100.0, some 1000.0⟩
      ⟨some 0.5, some [0.0, 0.25], none⟩ :=
    ⟨by decide +kernel, rfl, rfl, by decide +kernel, by decide +kernel, by decide +kernel⟩
  obtain ⟨alike, -, value⟩ :=
    fee_eq_of_matched .standard first second (by decide +kernel) rfl rfl rfl
  refine ⟨alike, value.trans ?_⟩
  decide +kernel

end PaymentFees.Quote
