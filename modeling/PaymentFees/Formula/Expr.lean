import PaymentFees.Formula.Token

namespace PaymentFees

inductive Variable where
  | x | y
  deriving DecidableEq, Repr

inductive BinaryOp where
  | add | sub | mul | div | pow
  deriving DecidableEq, Repr

inductive UnaryOp where
  | plus | minus
  deriving DecidableEq, Repr

inductive Expr where
  | literal (value : Float)
  | var (name : Variable)
  | binary (op : BinaryOp) (left right : Expr)
  | unary (op : UnaryOp) (operand : Expr)
  | call (function : Function) (arguments : List Expr)
  deriving Repr

/-- Division by zero gives zero. A power of finite numbers that is infinite, zero to a negative
power among them, overflows. -/
def BinaryOp.apply : BinaryOp → Float → Float → Except FormulaError Float
  | add, a, b => .ok (a + b)
  | sub, a, b => .ok (a - b)
  | mul, a, b => .ok (a * b)
  | div, a, b => .ok (if b == 0.0 then 0.0 else a / b)
  | pow, a, b =>
    let value := a.pow b
    if value.isInf && a.isFinite && b.isFinite then .error .overflow else .ok value

def UnaryOp.apply : UnaryOp → Float → Float
  | plus, value => value
  | minus, value => -value

/-- The first value that none after it beats. -/
def pick (better : Float → Float → Bool) (first : Float) (others : List Float) : Float :=
  others.foldl (fun best value => if better value best then value else best) first

def Function.apply : Function → List Float → Except FormulaError Float
  | abs, [v] => .ok v.abs
  | min, first :: others => .ok (pick (· < ·) first others)
  | max, first :: others => .ok (pick (· > ·) first others)
  | sqrt, [v] => if v < 0.0 then .error (.outsideDomain sqrt) else .ok v.sqrt
  | log, [v] => if v ≤ 0.0 then .error (.outsideDomain log) else .ok v.log
  | log, [v, base] =>
    if v ≤ 0.0 || base ≤ 0.0 || base == 1.0 then .error (.outsideDomain log)
    else .ok (v.log / base.log)
  | sin, [v] => if v.isInf then .error (.outsideDomain sin) else .ok v.sin
  | cos, [v] => if v.isInf then .error (.outsideDomain cos) else .ok v.cos
  | function, values => .error (.wrongArity function values.length)

namespace Expr

mutual

def eval (x y : Float) : Expr → Except FormulaError Float
  | literal value => .ok value
  | var .x => .ok x
  | var .y => .ok y
  | binary op left right => do op.apply (← left.eval x y) (← right.eval x y)
  | unary op operand => return op.apply (← operand.eval x y)
  | call function arguments => do function.apply (← evalAll x y arguments)

def evalAll (x y : Float) : List Expr → Except FormulaError (List Float)
  | [] => .ok []
  | e :: es => do
    let value ← e.eval x y
    return value :: (← evalAll x y es)

end

/-- One step of an evaluation that keeps its intermediate values on a stack. -/
inductive Step where
  | literal (value : Float)
  | var (name : Variable)
  | binary (op : BinaryOp)
  | unary (op : UnaryOp)
  | call (function : Function) (count : Nat)
  deriving DecidableEq, Repr

mutual

def steps : Expr → List Step
  | literal value => [.literal value]
  | var name => [.var name]
  | binary op left right => left.steps ++ right.steps ++ [.binary op]
  | unary op operand => operand.steps ++ [.unary op]
  | call function arguments => stepsAll arguments ++ [.call function arguments.length]

def stepsAll : List Expr → List Step
  | [] => []
  | e :: es => e.steps ++ stepsAll es

end

end Expr

end PaymentFees
