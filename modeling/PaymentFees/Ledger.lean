import PaymentFees.Event
import PaymentFees.Quote
import PaymentFees.Store.Basic

namespace PaymentFees

structure FeeOutcome where
  fee : Float
  netAmount : Float
  deriving DecidableEq, Repr

namespace Store

variable {m : Type → Type} [Session m]

def sources : Sources m := ⟨plan?, frequency⟩

def recordEvent (now : Instant) (event : FeeEvent) : m Unit :=
  appendEntry now event.user event.payment? event.typeName event.payload

variable [Monad m] [MonadExcept Failure m]

def requirePayment (id : PaymentId) : m (Payment Instant) := do
  match ← payment? id with
  | some payment => return payment
  | none => throw (.paymentNotFound id)

def chargeFee (config : Config) (now : Instant) (id : PaymentId) : m FeeOutcome :=
  transaction do
    let payment ← requirePayment id
    if (← record? id).isSome then throw (.alreadyCharged id)
    let gross := payment.amount
    let fee ← Quote.fee config sources payment.user gross
    if fee ≤ 0.0 then return ⟨0.0, gross⟩
    let net := amountAfterFee config.rounding gross fee
    setAmount id net
    saveRecord ⟨id, payment.user, fee, gross, now, now⟩
    recordEvent now (.charged id payment.user fee gross net)
    return ⟨fee, net⟩

/-- Removes a payment's fee record and gives its fee, zero if there is no record. The amount of
the payment stays. -/
def refundFee (now : Instant) (id : PaymentId) : m Float :=
  transaction do
    match ← record? id with
    | none => return 0.0
    | some record =>
      removeRecord id
      recordEvent now (.refunded id record.user record.fee)
      return record.fee

/-- Computes the fee again for a new amount before fees, whatever was charged so far. -/
def recomputeFee (config : Config) (now : Instant) (id : PaymentId) (gross : Float) :
    m FeeOutcome :=
  if !gross.isFinite then throw (.invalidAmount gross)
  else transaction do
    let payment ← requirePayment id
    let user := payment.user
    let existing ← record? id
    let fee ← Quote.fee config sources user gross
    let net := if fee > 0.0 then amountAfterFee config.rounding gross fee else gross
    if fee > 0.0 then
      match existing with
      | some record => saveRecord { record with fee := fee, grossAmount := gross, updatedAt := now }
      | none => saveRecord ⟨id, user, fee, gross, now, now⟩
      recordEvent now (.recomputed id user (existing.map (·.fee)) fee gross net)
    else
      match existing with
      | some record =>
        removeRecord id
        recordEvent now (.cleared id user record.fee gross)
      | none => pure ()
    setAmount id net
    return ⟨fee, net⟩

end Store

end PaymentFees
