import PaymentFees.Curve.Fit
import PaymentFees.Json.Decode
import PaymentFees.Json.Reader
import PaymentFees.Plan.Fault

namespace PaymentFees

def Rounding.name : Rounding → String
  | halfUp => "half_up"
  | halfEven => "half_even"

def Rounding.ofName? (text : String) : Option Rounding :=
  if text = "half_up" then some halfUp
  else if text = "half_even" then some halfEven
  else none

/-- Fees below `minimumCharge` are not charged; `defaultMaxFee` is the largest share of an amount
where a range sets none. -/
structure Config where
  minimumCharge : Float
  defaultMaxFee : Float
  maxDegree : Nat
  rounding : Rounding
  deriving DecidableEq, Repr

inductive ConfigFault where
  | minimumCharge
  | defaultMaxFee
  | maxDegree
  deriving DecidableEq, Repr

def ConfigFault.message : ConfigFault → String
  | minimumCharge => "minimum_charge must be a non-negative number"
  | defaultMaxFee => "default_max_fee_fraction must be a non-negative number"
  | maxDegree => "max_regression_degree must be at least 1"

namespace Config

def standard : Config := ⟨0.01, 0.1, Curve.defaultMaxDegree, .halfUp⟩

def check (config : Config) : Except ConfigFault Unit :=
  if !isMagnitude config.minimumCharge then .error .minimumCharge
  else if !isMagnitude config.defaultMaxFee then .error .defaultMaxFee
  else if config.maxDegree = 0 then .error .maxDegree
  else .ok ()

/-- Missing fields have their standard values. -/
def ofJson? (value : Json) : Option Config := do
  let fields ← value.fields?
    ["minimum_charge", "default_max_fee_fraction", "max_regression_degree", "rounding"]
  return {
    minimumCharge := ← fields.withDefault "minimum_charge" standard.minimumCharge Json.float?
    defaultMaxFee :=
      ← fields.withDefault "default_max_fee_fraction" standard.defaultMaxFee Json.float?
    maxDegree := ← fields.withDefault "max_regression_degree" standard.maxDegree Json.nat64?
    rounding := ← fields.withDefault "rounding" standard.rounding
      fun value => value.choice? false >>= Rounding.ofName? }

end Config

inductive LoadFault where
  | unreadable
  | undecodable
  | refused (fault : ConfigFault)
  deriving DecidableEq, Repr

def Config.load (text : Option String) : Except LoadFault Config :=
  match text with
  | none => .error .unreadable
  | some text =>
    match Json.read text >>= ofJson? with
    | none => .error .undecodable
    | some config =>
      match config.check with
      | .ok () => .ok config
      | .error fault => .error (.refused fault)

end PaymentFees
