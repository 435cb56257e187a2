import PaymentFees.Decimal.Text

namespace PaymentFees

structure AmountRange where
  lower : Float
  upper : Option Float
  deriving DecidableEq, Repr

namespace AmountRange

def all : AmountRange := ⟨0.0, none⟩

def contains (range : AmountRange) (value : Float) : Bool :=
  range.lower ≤ value && range.upper.all (value < ·)

def ofBounds : List Float → List AmountRange
  | [] => []
  | [lower] => [⟨lower, none⟩]
  | lower :: upper :: bounds => ⟨lower, some upper⟩ :: ofBounds (upper :: bounds)

end AmountRange

/-- The key of the range with this lower bound: its shortest digits, without the sign of zero. -/
def rangeKey (lower : Float) : String := if lower == 0.0 then "0" else plainText lower

end PaymentFees
