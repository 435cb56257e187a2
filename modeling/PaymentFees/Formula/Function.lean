namespace PaymentFees

inductive Function where
  | abs | cos | log | max | min | sin | sqrt
  deriving DecidableEq, Repr

inductive Arity where
  | exactly (count : Nat)
  | between (least most : Nat)
  | atLeast (least : Nat)
  deriving DecidableEq, Repr

namespace Arity

def accepts : Arity → Nat → Bool
  | exactly count, n => n == count
  | between least most, n => least ≤ n && n ≤ most
  | atLeast least, n => least ≤ n

def text : Arity → String
  | exactly count => s!"{count}"
  | between least most => s!"{least} to {most}"
  | atLeast least => s!"at least {least}"

end Arity

namespace Function

def all : List Function := [abs, cos, log, max, min, sin, sqrt]

def name : Function → String
  | abs => "abs"
  | cos => "cos"
  | log => "log"
  | max => "max"
  | min => "min"
  | sin => "sin"
  | sqrt => "sqrt"

def ofName? (text : String) : Option Function := all.find? (·.name == text)

def arity : Function → Arity
  | min | max => .atLeast 2
  | log => .between 1 2
  | abs | cos | sin | sqrt => .exactly 1

end Function

end PaymentFees
