import PaymentFees.Ledger

namespace PaymentFees

structure Receipt where
  payment : PaymentId
  fee : Float
  amount : Float
  grossAmount : Float
  deriving DecidableEq, Repr

def RangeFees.fitted (config : Config) (points : List ControlPoint) (maxFee : Float) :
    RangeFees where
  maxFee := some maxFee
  coefficients := some (Curve.fit points maxFee config.maxDegree)
  points := if points.isEmpty then none else some points

namespace Service

variable {m : Type → Type} [Session m] [Monad m] [MonadExcept Failure m] (config : Config)
  (now : Instant)

def plan (user : UserId) : m FeePlan := do
  return ((← Store.plan? user).map StoredPlan.plan).getD .unconfigured

/-- Saves a plan that has no fault and gives it as it is kept. A formula without a value is saved
too: its fees are zero. -/
def savePlan (user : UserId) (plan : FeePlan) : m StoredPlan := do
  match plan.check with
  | .error fault => throw (.invalidPlan fault)
  | .ok () =>
    let stored := StoredPlan.ofPlan user plan now
    Store.transaction do
      Store.savePlan stored
      Store.recordEvent now (.planSaved user stored.mode)
    return (← Store.plan? user).getD stored

def quote (user : UserId) (amount : Float) : m Float :=
  Quote.fee config Store.sources user amount

def recordPayment (user : UserId) (amount : Float) (description : Option String) :
    m Receipt :=
  if !amount.isFinite then throw (.invalidAmount amount)
  else Store.transaction do
    let id ← Store.insertPayment now user amount description
    let outcome ← Store.chargeFee config now id
    return ⟨id, outcome.fee, outcome.netAmount, amount⟩

def updatePayment (id : PaymentId) (gross : Float) : m FeeOutcome :=
  Store.recomputeFee config now id gross

def deletePayment (id : PaymentId) : m Float :=
  Store.transaction do
    if (← Store.payment? id).isNone then throw (.paymentNotFound id)
    let refunded ← Store.refundFee now id
    let _ ← Store.deletePayment id
    return refunded

end Service

end PaymentFees
