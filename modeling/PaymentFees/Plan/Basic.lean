import PaymentFees.ByKey
import PaymentFees.Curve.Basic
import PaymentFees.Instant
import PaymentFees.Plan.Range

namespace PaymentFees

abbrev UserId := Int

abbrev PaymentId := Int

inductive FeeMode where
  | table
  | formula
  deriving DecidableEq, Repr

namespace FeeMode

def name : FeeMode → String
  | table => "table"
  | formula => "formula"

def ofName? (text : String) : Option FeeMode :=
  if text = "table" then some table
  else if text = "formula" then some formula
  else none

end FeeMode

/-- How fees are charged in one range of amounts: the most that may be charged as a share of the
amount, the fee curve, and the control points it was fitted from. -/
structure RangeFees where
  maxFee : Option Float
  coefficients : Option (List Float)
  points : Option (List ControlPoint)
  deriving DecidableEq, Repr

def RangeFees.isEmpty (fees : RangeFees) : Bool :=
  fees.maxFee.isNone && fees.coefficients.isNone && fees.points.isNone

structure FeePlan where
  mode : FeeMode
  formulaText : String
  amountTable : List Float
  ranges : ByKey RangeFees
  deriving DecidableEq, Repr

def FeePlan.unconfigured : FeePlan := ⟨.table, "", [0.0], .empty⟩

/-- A plan as it is kept. An empty formula is kept as none. -/
structure StoredPlan where
  user : UserId
  mode : FeeMode
  formulaText : Option String
  amountTable : List Float
  ranges : ByKey RangeFees
  createdAt : Instant
  updatedAt : Instant
  deriving DecidableEq, Repr

namespace StoredPlan

def ofPlan (user : UserId) (plan : FeePlan) (now : Instant) : StoredPlan where
  user := user
  mode := plan.mode
  formulaText := if plan.formulaText.isEmpty then none else some plan.formulaText
  amountTable := plan.amountTable
  ranges := plan.ranges
  createdAt := now
  updatedAt := now

def plan (stored : StoredPlan) : FeePlan :=
  ⟨stored.mode, stored.formulaText.getD "", stored.amountTable, stored.ranges⟩

def isUnconfigured (stored : StoredPlan) : Bool :=
  stored.amountTable.length ≤ 1 && stored.ranges.isEmpty

def locate? (stored : StoredPlan) (magnitude : Float) : Option AmountRange :=
  (AmountRange.ofBounds stored.amountTable).find? (·.contains magnitude)

def feesFor? (stored : StoredPlan) (range : AmountRange) : Option RangeFees :=
  stored.ranges.find? (rangeKey range.lower)

end StoredPlan

end PaymentFees
