import PaymentFees.Formula.Expr

/-!
Reads a formula tree from lexemes, by

    sum      product (('+' | '-') product)*
    product  signed (('*' | '/') signed)*
    signed   ('+' | '-') signed | power
    power    atom ('^' signed)?
    atom     number | 'x' | 'y' | function '(' sum (',' sum)* ')' | '(' sum ')'

where a sign, an exponent, a parenthesis and a call each go one level deeper.
-/

namespace PaymentFees.Formula

abbrev Reads (α : Type) := List Lexeme → Except FormulaError (α × List Lexeme)

structure Level where
  signed : Reads Expr
  sum : Reads Expr

def maxDepth : Nat := 64

def sumOperator : Token → Option BinaryOp
  | .plus => some .add
  | .minus => some .sub
  | _ => none

def productOperator : Token → Option BinaryOp
  | .star => some .mul
  | .slash => some .div
  | _ => none

def unaryOperator : Token → Option UnaryOp
  | .plus => some .plus
  | .minus => some .minus
  | _ => none

def readOperators (operator : Token → Option BinaryOp) (operand : Reads Expr) :
    Nat → Expr → Reads Expr
  | 0, left, lexemes => .ok (left, lexemes)
  | turns + 1, left, lexemes =>
    match lexemes.head?.bind (operator ·.token) with
    | none => .ok (left, lexemes)
    | some op => do
      let (right, rest) ← operand lexemes.tail
      readOperators operator operand turns (.binary op left right) rest

/-- Operands joined by operators that associate to the left. Each operator is a lexeme, so their
number bounds the turns. -/
def readChain (operator : Token → Option BinaryOp) (operand : Reads Expr) : Reads Expr :=
  fun lexemes => do
    let (first, rest) ← operand lexemes
    readOperators operator operand rest.length first rest

def nextToken (lexemes : List Lexeme) : Option Token := lexemes.head?.map (·.token)

def readOperands (operand : Reads Expr) : Nat → Reads (List Expr)
  | 0, lexemes => do
    let (only, rest) ← operand lexemes
    return ([only], rest)
  | turns + 1, lexemes => do
    let (first, rest) ← operand lexemes
    if nextToken rest = some .comma then
      let (others, rest) ← readOperands operand turns rest.tail
      return (first :: others, rest)
    else return ([first], rest)

section

-- The byte at which the text ends.
variable (finish : Nat)

def offsetOf : List Lexeme → Nat
  | [] => finish
  | lexeme :: _ => lexeme.start

def readClosing (lexemes : List Lexeme) : Except FormulaError (List Lexeme) :=
  if nextToken lexemes = some .closeParen then .ok lexemes.tail
  else .error (.malformed (offsetOf finish lexemes)
    (.expected .closeParen (nextToken lexemes)))

def enter (inner : Option Level) (lexemes : List Lexeme) : Except FormulaError Level :=
  match inner with
  | some level => .ok level
  | none => .error (.malformed (offsetOf finish lexemes) .tooDeep)

def readCall (inner : Option Level) (name : String) (lexemes : List Lexeme) :
    Except FormulaError (Expr × List Lexeme) :=
  match Function.ofName? name with
  | none => .error (.unknownFunction name)
  | some function => do
    let level ← enter finish inner lexemes
    let (arguments, rest) ←
      if nextToken lexemes = some .closeParen then pure ([], lexemes)
      else readOperands level.sum lexemes.length lexemes
    let rest ← readClosing finish rest
    if function.arity.accepts arguments.length then return (.call function arguments, rest)
    else throw (.wrongArity function arguments.length)

def variableNamed (name : String) : Except FormulaError Expr :=
  if name = "x" then .ok (.var .x)
  else if name = "y" then .ok (.var .y)
  else .error (.unknownVariable name)

def readAtom (inner : Option Level) : Reads Expr
  | ⟨_, _, .number value⟩ :: rest => .ok (.literal value, rest)
  | ⟨_, _, .name name⟩ :: ⟨_, _, .openParen⟩ :: rest => readCall finish inner name rest
  | ⟨_, _, .name name⟩ :: rest => do return (← variableNamed name, rest)
  | ⟨_, _, .openParen⟩ :: rest => do
    let level ← enter finish inner rest
    let (value, rest) ← level.sum rest
    return (value, ← readClosing finish rest)
  | lexemes => .error (.malformed (offsetOf finish lexemes) (.unexpected (nextToken lexemes)))

def readPower (inner : Option Level) : Reads Expr := fun lexemes => do
  let (base, rest) ← readAtom finish inner lexemes
  if nextToken rest = some .caret then
    let level ← enter finish inner rest.tail
    let (exponent, rest) ← level.signed rest.tail
    return (.binary .pow base exponent, rest)
  else return (base, rest)

def readSigned (inner : Option Level) : Reads Expr := fun lexemes =>
  match (nextToken lexemes).bind unaryOperator with
  | none => readPower finish inner lexemes
  | some op => do
    let level ← enter finish inner lexemes.tail
    let (operand, rest) ← level.signed lexemes.tail
    return (.unary op operand, rest)

/-- The readers at a level, given those one level deeper. -/
def levelAround (inner : Option Level) : Level where
  signed := readSigned finish inner
  sum := readChain sumOperator (readChain productOperator (readSigned finish inner))

def levels : Nat → Option Level
  | 0 => none
  | left + 1 => some (levelAround finish (levels left))

def readTree (lexemes : List Lexeme) : Except FormulaError Expr := do
  let (tree, rest) ← (levelAround finish (levels finish maxDepth)).sum lexemes
  if rest.isEmpty then return tree
  else throw (.malformed (offsetOf finish rest) (.unexpected (nextToken rest)))

end

end PaymentFees.Formula
