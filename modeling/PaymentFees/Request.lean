import PaymentFees.Service

namespace PaymentFees

inductive Request where
  -- The service.
  | getPlan (user : UserId)
  | savePlan (user : UserId) (plan : FeePlan)
  | savePlanText (user : UserId) (text : String)
  | checkFormula (text : String)
  | fitRange (points : List ControlPoint) (maxFee : Float)
  | quote (user : UserId) (amount : Float)
  | recordPayment (user : UserId) (amount : Float) (description : Option String)
  | updatePayment (id : PaymentId) (gross : Float)
  | deletePayment (id : PaymentId)
  | listPayments (user : UserId)
  | listRecords (user : UserId)
  | listEntries (user : UserId)
  -- The fee of one payment.
  | chargeFee (id : PaymentId)
  | refundFee (id : PaymentId)
  | recomputeFee (id : PaymentId) (gross : Float)
  -- Single statements.
  | makeTables
  | getStoredPlan (user : UserId)
  | storePlan (plan : StoredPlan)
  | insertPayment (user : UserId) (amount : Float) (description : Option String)
  | getPayment (id : PaymentId)
  | setAmount (id : PaymentId) (amount : Float)
  | dropPayment (id : PaymentId)
  | getPayments (user : UserId)
  | getRecord (id : PaymentId)
  | saveRecord (record : FeeRecord Instant)
  | removeRecord (id : PaymentId)
  | countRecords
  | getFrequency (user : UserId) (range : AmountRange)
  | appendEntry (time : Instant) (user : UserId) (payment : Option PaymentId)
      (typeName payload : String)
  deriving Repr

inductive Answer where
  | done
  | flag (value : Bool)
  | number (value : Float)
  | count (value : Nat)
  | id (value : PaymentId)
  | plan (plan : FeePlan)
  | storedPlan (plan : Option StoredPlan)
  | rangeFees (fees : RangeFees)
  | receipt (receipt : Receipt)
  | outcome (outcome : FeeOutcome)
  | paymentsWithFees (payments : List (Payment Instant × Option Float))
  | payments (payments : List (Payment Instant))
  | payment (payment : Option (Payment Instant))
  | records (records : List (FeeRecord Instant))
  | record (record : Option (FeeRecord Instant))
  | entries (entries : List (LogEntry Instant))
  deriving Repr

namespace Request

def perform {m : Type → Type} [Session m] [Monad m] [MonadExcept Failure m] (config : Config)
    (now : Instant) : Request → m Answer
  | getPlan user => .plan <$> Service.plan user
  | savePlan user plan => do return .storedPlan (some (← Service.savePlan now user plan))
  | savePlanText user text =>
    match FeePlan.read? text with
    | some plan => do return .storedPlan (some (← Service.savePlan now user plan))
    | none => throw .undecodable
  | checkFormula text => return .flag (Formula.isUsable text)
  | fitRange points maxFee => return .rangeFees (.fitted config points maxFee)
  | quote user amount => .number <$> Service.quote config user amount
  | recordPayment user amount description =>
    .receipt <$> Service.recordPayment config now user amount description
  | updatePayment id gross => .outcome <$> Service.updatePayment config now id gross
  | deletePayment id => .number <$> Service.deletePayment now id
  | listPayments user => .paymentsWithFees <$> Store.paymentsWithFees user
  | listRecords user => .records <$> Store.records user
  | listEntries user => .entries <$> Store.entries user
  | chargeFee id => .outcome <$> Store.chargeFee config now id
  | refundFee id => .number <$> Store.refundFee now id
  | recomputeFee id gross => .outcome <$> Store.recomputeFee config now id gross
  | makeTables => do Store.makeTables; return .done
  | getStoredPlan user => .storedPlan <$> Store.plan? user
  | storePlan plan => do Store.savePlan plan; return .done
  | insertPayment user amount description =>
    .id <$> Store.insertPayment now user amount description
  | getPayment id => .payment <$> Store.payment? id
  | setAmount id amount => do Store.setAmount id amount; return .done
  | dropPayment id => .flag <$> Store.deletePayment id
  | getPayments user => .payments <$> Store.payments user
  | getRecord id => .record <$> Store.record? id
  | saveRecord record => do Store.saveRecord record; return .done
  | removeRecord id => do Store.removeRecord id; return .done
  | countRecords => .count <$> Store.recordCount
  | getFrequency user range => .number <$> Store.frequency user range
  | appendEntry time user payment typeName payload => do
    Store.appendEntry time user payment typeName payload
    return .done

end Request

/-- How a transaction ends: it commits, fails on purpose after its last step, or fails with its
first failing step. -/
inductive Ending where
  | commit
  | fail (failure : Failure)
  | firstFailure
  deriving Repr

inductive Script where
  | request (request : Request)
  | transaction (steps : List Script) (ending : Ending)
  deriving Repr

/-- A transaction answers for each step that ran, and for its end. -/
inductive Reply where
  | answer (answer : Except Failure Answer)
  | transaction (steps : List Reply) (ending : Except Failure Unit)

def Reply.failure? : Reply → Option Failure
  | answer (.error failure) => some failure
  | _ => none

namespace Script

mutual

def run (config : Config) (now : Instant) : Script → StateM Store Reply
  | request r => .answer <$> (r.perform config now).run
  | transaction steps ending => do
    let (replies, result) ← Store.bracket (fun (_, result) => Store.isFailure result)
      (runSteps config now ending steps)
    return .transaction replies result

def runSteps (config : Config) (now : Instant) (ending : Ending) :
    List Script → StateM Store (List Reply × Except Failure Unit)
  | [] =>
    match ending with
    | .fail failure => return ([], .error failure)
    | _ => return ([], .ok ())
  | step :: steps => do
    let reply ← step.run config now
    match ending, reply.failure? with
    | .firstFailure, some failure => return ([reply], .error failure)
    | _, _ => do
      let (replies, result) ← runSteps config now ending steps
      return (reply :: replies, result)

end

end Script

end PaymentFees
