import PaymentFees.Decimal.Text
import PaymentFees.Formula.Function

namespace PaymentFees

inductive Token where
  | number (value : Float)
  | name (text : String)
  | plus | minus | star | slash | caret
  | openParen | closeParen | comma
  deriving DecidableEq, Repr

/-- A token and the bytes of the text, from `start` up to `stop`, that it covers. -/
structure Lexeme where
  start : Nat
  stop : Nat
  token : Token
  deriving DecidableEq, Repr

def Token.text : Token → String
  | number value => "number " ++ plainText value
  | name text => "'" ++ text ++ "'"
  | plus => "'+'"
  | minus => "'-'"
  | star => "'*'"
  | slash => "'/'"
  | caret => "'^'"
  | openParen => "'('"
  | closeParen => "')'"
  | comma => "','"

def foundText : Option Token → String
  | some token => token.text
  | none => "end of input"

inductive SyntaxFault where
  | tooLong
  | strayCharacter (c : Char)
  | malformedExponent
  | malformedNumber
  | unexpected (found : Option Token)
  | expected (wanted : Token) (found : Option Token)
  | tooDeep
  deriving DecidableEq, Repr

inductive FormulaError where
  | malformed (offset : Nat) (fault : SyntaxFault)
  | unknownVariable (name : String)
  | unknownFunction (name : String)
  | wrongArity (function : Function) (count : Nat)
  | outsideDomain (function : Function)
  | overflow
  deriving DecidableEq, Repr

/-- Longer formulas are refused before they are read. -/
def maxFormulaBytes : Nat := 4096

def SyntaxFault.message : SyntaxFault → String
  | tooLong => s!"formula longer than {maxFormulaBytes} bytes"
  | strayCharacter c => "unexpected character '" ++ c.toString ++ "'"
  | malformedExponent => "malformed exponent"
  | malformedNumber => "invalid numeric literal"
  | unexpected found => "unexpected " ++ foundText found
  | expected wanted found => "expected " ++ wanted.text ++ ", found " ++ foundText found
  | tooDeep => "expression nested too deeply"

def FormulaError.message : FormulaError → String
  | malformed offset fault => s!"syntax error at offset {offset}: " ++ fault.message
  | unknownVariable name => "unknown variable '" ++ name ++ "'"
  | unknownFunction name => "function '" ++ name ++ "' is not allowed"
  | wrongArity function count =>
    function.name ++ "() takes " ++ function.arity.text ++ s!" argument(s), got {count}"
  | outsideDomain function => "math domain error in " ++ function.name ++ "()"
  | overflow => "numeric overflow"

end PaymentFees
