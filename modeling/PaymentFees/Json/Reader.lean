import PaymentFees.Json.Basic
import PaymentFees.Text.Blank
import PaymentFees.Text.Hexadecimal

namespace PaymentFees.Json

inductive Glyph where
  | plain (c : Char)
  | codeUnit (code : Nat)
  deriving DecidableEq, Repr

def hexNumber? (a b c d : Char) : Option Nat := do
  return (((← hexValue? a) * 16 + (← hexValue? b)) * 16 + (← hexValue? c)) * 16 + (← hexValue? d)

def escaped? : Char → Option Char
  | '"' => some '"'
  | '\\' => some '\\'
  | '/' => some '/'
  | 'b' => some '\x08'
  | 'f' => some '\x0c'
  | 'n' => some '\n'
  | 'r' => some '\r'
  | 't' => some '\t'
  | _ => none

def readGlyphs : List Char → Option (List Glyph × List Char)
  | '"' :: rest => some ([], rest)
  | '\\' :: 'u' :: a :: b :: c :: d :: rest => do
    let code ← hexNumber? a b c d
    let (glyphs, rest) ← readGlyphs rest
    return (.codeUnit code :: glyphs, rest)
  | '\\' :: c :: rest => do
    let c ← escaped? c
    let (glyphs, rest) ← readGlyphs rest
    return (.plain c :: glyphs, rest)
  | c :: rest =>
    if c.toNat < 0x20 then none
    else do
      let (glyphs, rest) ← readGlyphs rest
      return (.plain c :: glyphs, rest)
  | [] => none

def isHighSurrogate (code : Nat) : Bool := 0xD800 ≤ code && code < 0xDC00

def isLowSurrogate (code : Nat) : Bool := 0xDC00 ≤ code && code < 0xE000

def joinGlyphs : List Glyph → Option (List Char)
  | [] => some []
  | .plain c :: glyphs => do return c :: (← joinGlyphs glyphs)
  | .codeUnit high :: .codeUnit low :: glyphs =>
    if isHighSurrogate high && isLowSurrogate low then do
      let c := Char.ofNat (0x10000 + (high - 0xD800) * 0x400 + (low - 0xDC00))
      return c :: (← joinGlyphs glyphs)
    else if isHighSurrogate high || isLowSurrogate high then none
    else do return Char.ofNat high :: (← joinGlyphs (.codeUnit low :: glyphs))
  | .codeUnit code :: glyphs =>
    if isHighSurrogate code || isLowSurrogate code then none
    else do return Char.ofNat code :: (← joinGlyphs glyphs)

def readString (cs : List Char) : Option (Option String × List Char) := do
  let (glyphs, rest) ← readGlyphs cs
  return ((joinGlyphs glyphs).map String.ofList, rest)

def readNumeral (cs : List Char) : Option (Numeral × List Char) := do
  let (whole, rest) := cs.span Char.isDigit
  if whole.isEmpty || (whole.head? = some '0' && whole.length ≠ 1) then none
  let (fraction, rest) ← match rest with
    | '.' :: rest =>
      match rest.span Char.isDigit with
      | ([], _) => none
      | parts => some parts
    | rest => some ([], rest)
  let (exponent, rest) ← match rest with
    | c :: afterLetter =>
      if c == 'e' || c == 'E' then do
        let (exponent, rest) ← Numeral.readExponent afterLetter
        some (some exponent, rest)
      else some (none, rest)
    | [] => some (none, [])
  return (⟨whole, fraction, exponent⟩, rest)

def skipBlanks (cs : List Char) : List Char := cs.dropWhile isBlank

mutual

def readValue : Nat → List Char → Option (Json × List Char)
  | 0, _ => none
  | steps + 1, cs =>
    match skipBlanks cs with
    | 'n' :: 'u' :: 'l' :: 'l' :: rest => some (.null, rest)
    | 't' :: 'r' :: 'u' :: 'e' :: rest => some (.bool true, rest)
    | 'f' :: 'a' :: 'l' :: 's' :: 'e' :: rest => some (.bool false, rest)
    | '"' :: rest => do
      let (text, rest) ← readString rest
      return (.string text, rest)
    | '[' :: rest =>
      match skipBlanks rest with
      | ']' :: rest => some (.array [], rest)
      | rest => do
        let (items, rest) ← readItems steps rest
        return (.array items, rest)
    | '\x7b' :: rest =>
      match skipBlanks rest with
      | '\x7d' :: rest => some (.object [], rest)
      | rest => do
        let (members, rest) ← readMembers steps rest
        return (.object members, rest)
    | '-' :: rest => do
      let (numeral, rest) ← readNumeral rest
      return (.number true numeral, rest)
    | rest => do
      let (numeral, rest) ← readNumeral rest
      return (.number false numeral, rest)

def readItems : Nat → List Char → Option (List Json × List Char)
  | 0, _ => none
  | steps + 1, cs => do
    let (item, rest) ← readValue steps cs
    match skipBlanks rest with
    | ',' :: rest => do
      let (items, rest) ← readItems steps rest
      return (item :: items, rest)
    | ']' :: rest => return ([item], rest)
    | _ => none

def readMembers : Nat → List Char → Option (List (Option String × Json) × List Char)
  | 0, _ => none
  | steps + 1, cs => do
    let '"' :: rest := skipBlanks cs | none
    let (key, rest) ← readString rest
    let ':' :: rest := skipBlanks rest | none
    let (value, rest) ← readValue steps rest
    match skipBlanks rest with
    | ',' :: rest => do
      let (members, rest) ← readMembers steps rest
      return ((key, value) :: members, rest)
    | '\x7d' :: rest => return ([(key, value)], rest)
    | _ => none

end

/-- Every bracket, comma and brace costs at most two steps. -/
def read (text : String) : Option Json := do
  let cs := text.toList
  let (value, rest) ← readValue (2 * cs.length + 2) cs
  if (skipBlanks rest).isEmpty then some value else none

end PaymentFees.Json
