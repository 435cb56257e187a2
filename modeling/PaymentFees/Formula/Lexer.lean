import PaymentFees.Formula.Token
import PaymentFees.Text.Blank

namespace PaymentFees.Formula

def startsName (c : Char) : Bool := c.isAlpha || c == '_'

def continuesName (c : Char) : Bool := c.isAlphanum || c == '_'

def startsScale (c : Char) : Bool := c == 'e' || c == 'E'

def readFraction (text : List Char) : List Char × List Char :=
  match text with
  | '.' :: rest => rest.span Char.isDigit
  | rest => ([], rest)

def readScale (offset : Nat) (text : List Char) : Except FormulaError (Option Int × List Char) :=
  match text with
  | [] => .ok (none, [])
  | c :: rest =>
    if startsScale c then
      match Numeral.readExponent rest with
      | some (exponent, rest) => .ok (some exponent, rest)
      | none => .error (.malformed offset .malformedExponent)
    else .ok (none, c :: rest)

/-- A number at the head of the text, and how many characters it takes: digits, at least one of
them on either side of an optional point, then an optional power of ten. It must not run into a
letter, a digit, `_` or a point. -/
def readNumber (offset : Nat) (text : List Char) : Except FormulaError (Numeral × Nat) := do
  let (whole, afterWhole) := text.span Char.isDigit
  let (fraction, afterFraction) := readFraction afterWhole
  if whole.isEmpty && fraction.isEmpty then
    throw (.malformed offset (.strayCharacter '.'))
  let (exponent, rest) ←
    readScale (offset + (text.length - afterFraction.length)) afterFraction
  let taken := text.length - rest.length
  if rest.head?.any (fun c => continuesName c || c == '.') then
    throw (.malformed (offset + taken) .malformedNumber)
  return (⟨whole, fraction, exponent⟩, taken)

def readToken (offset : Nat) (c : Char) (rest : List Char) : Except FormulaError (Token × Nat) :=
  match c with
  | '+' => .ok (.plus, 0)
  | '-' => .ok (.minus, 0)
  | '*' => .ok (if rest.head? = some '*' then (.caret, 1) else (.star, 0))
  | '/' => .ok (.slash, 0)
  | '^' => .ok (.caret, 0)
  | '(' => .ok (.openParen, 0)
  | ')' => .ok (.closeParen, 0)
  | ',' => .ok (.comma, 0)
  | _ =>
    if c.isDigit || c == '.' then do
      let (numeral, taken) ← readNumber offset (c :: rest)
      return (.number numeral.decimal.nearest, taken - 1)
    else if startsName c then
      let more := rest.takeWhile continuesName
      .ok (.name (String.ofList (c :: more)), more.length)
    else
      .error (.malformed offset (.strayCharacter c))

/-- The lexemes of a text that starts at the given byte. All but the characters inside an error
are of one byte, so characters count as bytes. -/
def scan (offset : Nat) (text : List Char) : Except FormulaError (List Lexeme) :=
  match text with
  | [] => .ok []
  | c :: rest =>
    if isBlank c then scan (offset + 1) rest
    else do
      let (token, more) ← readToken offset c rest
      let stop := offset + 1 + more
      return ⟨offset, stop, token⟩ :: (← scan stop (rest.drop more))
termination_by text.length
decreasing_by all_goals simp; try omega

end PaymentFees.Formula
