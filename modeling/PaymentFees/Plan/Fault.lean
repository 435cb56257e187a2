import PaymentFees.Plan.Basic

namespace PaymentFees

inductive PlanFault where
  | emptyTable
  | badBound (index : Nat) (bound : Float)
  | notAscending (index : Nat)
  | badMaxFee (key : String)
  | badCoefficients (key : String)
  | unknownMode (name : String)
  deriving DecidableEq, Repr

def PlanFault.message : PlanFault → String
  | emptyTable => "amount_table must not be empty"
  | badBound index bound =>
    s!"amount_table[{index}] = " ++ plainText bound ++ " is not a non-negative number"
  | notAscending index => s!"amount_table must be strictly ascending at index {index}"
  | badMaxFee key => "interval " ++ key ++ ": maxFee must be a non-negative number"
  | badCoefficients key => "interval " ++ key ++ ": coefficients must be finite"
  | unknownMode name => "unknown fee mode '" ++ name ++ "'"

def isMagnitude (value : Float) : Bool := value.isFinite && !(value < 0.0)

namespace FeePlan

def checkBounds (index : Nat) (previous : Option Float) : List Float → Except PlanFault Unit
  | [] => .ok ()
  | bound :: bounds =>
    if !isMagnitude bound then .error (.badBound index bound)
    else if previous.any (bound ≤ ·) then .error (.notAscending index)
    else checkBounds (index + 1) (some bound) bounds

def checkRange (key : String) (fees : RangeFees) : Except PlanFault Unit :=
  if fees.maxFee.any (!isMagnitude ·) then .error (.badMaxFee key)
  else if fees.coefficients.any (·.any (!·.isFinite)) then .error (.badCoefficients key)
  else .ok ()

/-- The first fault: of the table, then of the ranges in the order of their keys. -/
def check (plan : FeePlan) : Except PlanFault Unit := do
  if plan.amountTable.isEmpty then throw .emptyTable
  checkBounds 0 none plan.amountTable
  plan.ranges.entries.forM fun (key, fees) => checkRange key fees

end FeePlan

end PaymentFees
