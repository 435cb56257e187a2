import PaymentFees.Plan.Encoding

namespace PaymentFees

/-- `grossAmount` is what a payment was before its fee and `netAmount` what it is after it. -/
inductive FeeEvent where
  | charged (payment : PaymentId) (user : UserId) (fee grossAmount netAmount : Float)
  | refunded (payment : PaymentId) (user : UserId) (fee : Float)
  | recomputed (payment : PaymentId) (user : UserId) (previousFee : Option Float)
      (fee grossAmount netAmount : Float)
  | cleared (payment : PaymentId) (user : UserId) (previousFee grossAmount : Float)
  | planSaved (user : UserId) (mode : FeeMode)
  deriving DecidableEq, Repr

namespace FeeEvent

open Json

def typeName : FeeEvent → String
  | charged .. => "fee_charged"
  | refunded .. => "fee_refunded"
  | recomputed .. => "fee_recomputed"
  | cleared .. => "fee_cleared"
  | planSaved .. => "plan_saved"

def user : FeeEvent → UserId
  | charged _ user .. | refunded _ user _ | recomputed _ user .. | cleared _ user ..
  | planSaved user _ => user

def payment? : FeeEvent → Option PaymentId
  | charged payment .. | refunded payment .. | recomputed payment .. | cleared payment .. =>
    some payment
  | planSaved .. => none

def fieldsWith (encode : Float → Json) : FeeEvent → List (String × Json)
  | charged payment user fee grossAmount netAmount =>
    [("payment_id", ofInt payment), ("user_id", ofInt user), ("fee", encode fee),
      ("original_amount", encode grossAmount), ("adjusted_amount", encode netAmount)]
  | refunded payment user fee =>
    [("payment_id", ofInt payment), ("user_id", ofInt user), ("fee", encode fee)]
  | recomputed payment user previousFee fee grossAmount netAmount =>
    [("payment_id", ofInt payment), ("user_id", ofInt user),
      ("previous_fee", ofOption encode previousFee), ("fee", encode fee),
      ("original_amount", encode grossAmount), ("adjusted_amount", encode netAmount)]
  | cleared payment user previousFee grossAmount =>
    [("payment_id", ofInt payment), ("user_id", ofInt user), ("previous_fee", encode previousFee),
      ("original_amount", encode grossAmount)]
  | planSaved user mode => [("user_id", ofInt user), ("mode", .text mode.name)]

def toJsonWith (encode : Float → Json) (event : FeeEvent) : Json :=
  record (("type", .text event.typeName) :: event.fieldsWith encode)

def toJson : FeeEvent → Json := toJsonWith ofFloat

def payload (event : FeeEvent) : String := event.toJson.render

def ofTagged? (tag : String) (rest : Json) : Option FeeEvent :=
  match tag with
  | "fee_charged" => do
    let fields ← rest.fields?
      ["payment_id", "user_id", "fee", "original_amount", "adjusted_amount"]
    return charged (← fields.required "payment_id" int64?) (← fields.required "user_id" int64?)
      (← fields.required "fee" float?) (← fields.required "original_amount" float?)
      (← fields.required "adjusted_amount" float?)
  | "fee_refunded" => do
    let fields ← rest.fields? ["payment_id", "user_id", "fee"]
    return refunded (← fields.required "payment_id" int64?) (← fields.required "user_id" int64?)
      (← fields.required "fee" float?)
  | "fee_recomputed" => do
    let fields ← rest.fields?
      ["payment_id", "user_id", "previous_fee", "fee", "original_amount", "adjusted_amount"]
    return recomputed (← fields.required "payment_id" int64?)
      (← fields.required "user_id" int64?) (← fields.nullable "previous_fee" float?)
      (← fields.required "fee" float?) (← fields.required "original_amount" float?)
      (← fields.required "adjusted_amount" float?)
  | "fee_cleared" => do
    let fields ← rest.fields? ["payment_id", "user_id", "previous_fee", "original_amount"]
    return cleared (← fields.required "payment_id" int64?) (← fields.required "user_id" int64?)
      (← fields.required "previous_fee" float?) (← fields.required "original_amount" float?)
  | "plan_saved" => do
    let fields ← rest.fields? ["user_id", "mode"]
    return planSaved (← fields.required "user_id" int64?)
      (← fields.required "mode" (FeeMode.ofJson? true))
  | _ => none

def read? (text : String) : Option FeeEvent := do
  let (tag, rest) ← (← Json.read text).tagged?
  ofTagged? tag rest

end FeeEvent

end PaymentFees
