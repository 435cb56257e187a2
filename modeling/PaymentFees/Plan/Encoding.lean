import PaymentFees.Json.Decode
import PaymentFees.Json.Reader
import PaymentFees.Json.Writer
import PaymentFees.Plan.Basic

namespace PaymentFees

open Json

namespace ControlPoint

def toJson (p : ControlPoint) : Json :=
  record [("freq", ofFloat p.frequency), ("fee", ofFloat p.fee)]

def ofJson? (value : Json) : Option ControlPoint := do
  let fields ← value.fields? ["freq", "fee"]
  return ⟨← fields.required "freq" float?, ← fields.required "fee" float?⟩

end ControlPoint

namespace RangeFees

def toJson (fees : RangeFees) : Json :=
  record <|
    (fees.maxFee.toList.map fun maxFee => ("maxFee", ofFloat maxFee))
      ++ (fees.coefficients.toList.map fun cs => ("coefficients", Json.ofList ofFloat cs))
      ++ fees.points.toList.map fun ps => ("points", Json.ofList ControlPoint.toJson ps)

def ofJson? (value : Json) : Option RangeFees := do
  let fields ← value.fields? ["maxFee", "coefficients", "points"]
  return {
    maxFee := ← fields.withDefault "maxFee" none (optional? float?)
    coefficients := ← fields.withDefault "coefficients" none (optional? (list? float?))
    points := ← fields.withDefault "points" none (optional? (list? ControlPoint.ofJson?)) }

end RangeFees

def boundsToJson (bounds : List Float) : Json := Json.ofList ofFloat bounds

def boundsOfJson? : Json → Option (List Float) := list? float?

def rangesToJson (ranges : ByKey RangeFees) : Json :=
  record (ranges.entries.map fun (key, fees) => (key, fees.toJson))

def rangesOfJson? (value : Json) : Option (ByKey RangeFees) :=
  (value.entries? RangeFees.ofJson?).map ByKey.ofEntries

/-- `kept` tells whether the value was kept until the tag of what it belongs to was known. -/
def FeeMode.ofJson? (kept : Bool) (value : Json) : Option FeeMode :=
  value.choice? kept >>= FeeMode.ofName?

namespace FeePlan

def toJson (plan : FeePlan) : Json :=
  record [("mode", .text plan.mode.name), ("formula_text", .text plan.formulaText),
    ("amount_table", boundsToJson plan.amountTable),
    ("interval_data", rangesToJson plan.ranges)]

def ofJson? (kept : Bool) (value : Json) : Option FeePlan := do
  let fields ← value.fields? ["mode", "formula_text", "amount_table", "interval_data"]
  return {
    mode := ← fields.withDefault "mode" unconfigured.mode (FeeMode.ofJson? kept)
    formulaText := (← fields.withDefault "formula_text" none (optional? text?)).getD ""
    amountTable := ← fields.withDefault "amount_table" unconfigured.amountTable boundsOfJson?
    ranges := ← fields.withDefault "interval_data" unconfigured.ranges rangesOfJson? }

def read? (text : String) : Option FeePlan := Json.read text >>= ofJson? false

end FeePlan

end PaymentFees
