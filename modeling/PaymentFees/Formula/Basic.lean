import PaymentFees.Formula.Lexer
import PaymentFees.Formula.Parser

namespace PaymentFees

structure Formula where
  source : String
  root : Expr
  deriving Repr

namespace Formula

def parse (text : String) : Except FormulaError Formula := do
  if maxFormulaBytes < text.utf8ByteSize then
    throw (.malformed maxFormulaBytes .tooLong)
  let lexemes ← scan 0 text.toList
  return ⟨text, ← readTree text.utf8ByteSize lexemes⟩

def eval (formula : Formula) (x y : Float) : Except FormulaError Float := formula.root.eval x y

def valueOf? (text : String) (x y : Float) : Option Float :=
  match parse text >>= (·.eval x y) with
  | .ok value => some value
  | .error _ => none

def isUsable (text : String) : Bool := (valueOf? text 1.0 0.5).any Float.isFinite

end Formula

end PaymentFees
