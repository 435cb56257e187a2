import PaymentFees.Service

namespace PaymentFees.CommandLine

inductive Command where
  | getPlan (user : UserId)
  | savePlan (user : UserId) (plan : FeePlan)
  | checkFormula (text : String)
  | fitRange (points : List ControlPoint) (maxFee : Float)
  | quote (user : UserId) (amount : Float)
  | recordPayment (user : UserId) (amount : Float) (description : Option String)
  | updatePayment (id : PaymentId) (amount : Float)
  | deletePayment (id : PaymentId)
  | listPayments (user : UserId)
  | listRecords (user : UserId)
  | quit
  deriving DecidableEq, Repr

namespace Command

open Json

def ofTagged? (tag : String) (rest : Json) : Option Command :=
  match tag with
  | "get_plan" => do
    let fields ← rest.fields? ["user_id"]
    return getPlan (← fields.required "user_id" int64?)
  | "put_plan" => do
    let fields ← rest.fields? ["user_id", "plan"]
    return savePlan (← fields.required "user_id" int64?)
      (← fields.required "plan" (FeePlan.ofJson? true))
  | "validate_formula" => do
    let fields ← rest.fields? ["formula_text"]
    return checkFormula (← fields.required "formula_text" text?)
  | "fit_interval" => do
    let fields ← rest.fields? ["points", "max_fee"]
    return fitRange (← fields.withDefault "points" [] (list? ControlPoint.ofJson?))
      (← fields.required "max_fee" float?)
  | "compute_fee" => do
    let fields ← rest.fields? ["user_id", "amount"]
    return quote (← fields.required "user_id" int64?) (← fields.required "amount" float?)
  | "record_payment" => do
    let fields ← rest.fields? ["user_id", "amount", "description"]
    return recordPayment (← fields.required "user_id" int64?) (← fields.required "amount" float?)
      (← fields.withDefault "description" none (optional? text?))
  | "update_payment" => do
    let fields ← rest.fields? ["payment_id", "amount"]
    return updatePayment (← fields.required "payment_id" int64?)
      (← fields.required "amount" float?)
  | "delete_payment" => do
    let fields ← rest.fields? ["payment_id"]
    return deletePayment (← fields.required "payment_id" int64?)
  | "list_payments" => do
    let fields ← rest.fields? ["user_id"]
    return listPayments (← fields.required "user_id" int64?)
  | "list_fee_records" => do
    let fields ← rest.fields? ["user_id"]
    return listRecords (← fields.required "user_id" int64?)
  | "quit" =>
    -- Members are skipped, but a short form has room for none.
    match rest with
    | array (_ :: _) => none
    | _ => some quit
  | _ => none

def read? (line : String) : Option Command := do
  let (tag, rest) ← (← Json.read line).tagged?
  ofTagged? tag rest

def timeToJson (t : Instant) : Json := .text t.text

def paymentToJson (entry : Payment Instant × Option Float) : Json :=
  let (payment, fee) := entry
  record [("id", ofInt payment.id), ("user_id", ofInt payment.user),
    ("amount", ofFloat payment.amount), ("description", ofOption .text payment.description),
    ("created_at", timeToJson payment.createdAt), ("transaction_fee", ofOption ofFloat fee)]

def recordToJson (r : FeeRecord Instant) : Json :=
  record [("payment_id", ofInt r.payment), ("user_id", ofInt r.user),
    ("fee_amount", ofFloat r.fee), ("original_amount", ofFloat r.grossAmount),
    ("created_at", timeToJson r.createdAt), ("updated_at", timeToJson r.updatedAt)]

def respond (config : Config) (now : Instant) : Command → Action Json
  | getPlan user => return (← Service.plan user).toJson
  | savePlan user plan => return (← Service.savePlan now user plan).plan.toJson
  | checkFormula text => return record [("valid", .bool (Formula.isUsable text))]
  | fitRange points maxFee => return (RangeFees.fitted config points maxFee).toJson
  | quote user amount => return record [("fee", ofFloat (← Service.quote config user amount))]
  | recordPayment user amount description => do
    let receipt ← Service.recordPayment config now user amount description
    return record [("payment_id", ofInt receipt.payment), ("fee", ofFloat receipt.fee),
      ("amount", ofFloat receipt.amount), ("original_amount", ofFloat receipt.grossAmount)]
  | updatePayment id amount => do
    let outcome ← Service.updatePayment config now id amount
    return record [("fee", ofFloat outcome.fee), ("adjusted_amount", ofFloat outcome.netAmount)]
  | deletePayment id =>
    return record [("refunded_fee", ofFloat (← Service.deletePayment now id))]
  | listPayments user => return .ofList paymentToJson (← Store.paymentsWithFees user)
  | listRecords user => return .ofList recordToJson (← Store.records user)
  | quit => return .null

end Command

end PaymentFees.CommandLine
