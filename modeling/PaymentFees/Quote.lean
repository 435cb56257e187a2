import PaymentFees.Config
import PaymentFees.Curve.Basic
import PaymentFees.Failure
import PaymentFees.Formula.Basic
import PaymentFees.Money

/-!
The fee of a payment. Where the plan says nothing usable the fee is zero; only the sources that
are asked for plans and frequencies can fail.
-/

namespace PaymentFees

/-- Where a quote finds a user's plan, and which share of the user's payments lies in a range. -/
structure Sources (m : Type → Type) where
  plan : UserId → m (Option StoredPlan)
  frequency : UserId → AmountRange → m Float

namespace Quote

variable {m : Type → Type} [Monad m]

def formulaFee (sources : Sources m) (plan : StoredPlan) (size : Float) : m Float :=
  match plan.formulaText with
  | none => pure 0.0
  | some text =>
    if text.isEmpty then pure 0.0
    else do
      let frequency ← sources.frequency plan.user .all
      return ((Formula.valueOf? text size frequency).map Float.abs).getD 0.0

def clampShare (limit share : Float) : Float :=
  let limit := if 0.0 < limit then limit else 0.0
  if share < 0.0 then 0.0 else if limit < share then limit else share

def tableFee (config : Config) (sources : Sources m) (plan : StoredPlan) (size : Float) :
    m Float :=
  if plan.isUnconfigured then pure 0.0
  else
    match plan.locate? size with
    | none => pure 0.0
    | some range =>
      match plan.feesFor? range with
      | some ⟨maxFee, some coefficients, _⟩ => do
        let frequency ← sources.frequency plan.user range
        let share := Curve.evaluate coefficients frequency
        return size * clampShare (maxFee.getD config.defaultMaxFee) share
      | _ => pure 0.0

/-- At most the size, in whole cents, and zero below the minimum charge. -/
def settle (config : Config) (size raw : Float) : Float :=
  if !raw.isFinite then 0.0
  else
    let rounded := roundCents config.rounding (if raw < size then raw else size)
    -- A size of less than a cent may be rounded up beyond itself.
    let fee := if size < rounded then truncateCents size else rounded
    if fee < config.minimumCharge then 0.0 else fee

def fee (config : Config) (sources : Sources m) (user : UserId) (amount : Float) : m Float :=
  if !amount.isFinite then pure 0.0
  else do
    match ← sources.plan user with
    | none => return 0.0
    | some plan =>
      let size := amount.abs
      let raw ← match plan.mode with
        | .formula => formulaFee sources plan size
        | .table => tableFee config sources plan size
      return settle config size raw

inductive Question where
  | plan (user : UserId)
  | frequency (user : UserId) (range : AmountRange)
  deriving DecidableEq, Repr

abbrev Asking := ExceptT Failure (StateM (List Question))

def ask {α : Type} (question : Question) (answer : Except Failure α) : Asking α := do
  modify (· ++ [question])
  ExceptT.mk (pure answer)

def noting (sources : Sources (Except Failure)) : Sources Asking where
  plan user := ask (.plan user) (sources.plan user)
  frequency user range := ask (.frequency user range) (sources.frequency user range)

def feeAndQuestions (config : Config) (sources : Sources (Except Failure)) (user : UserId)
    (amount : Float) : Except Failure Float × List Question :=
  (fee config (noting sources) user amount).run.run []

end Quote

end PaymentFees
