import PaymentFees.Json.Basic

namespace PaymentFees.Json

def hexDigits (width code : Nat) : List Char :=
  let digits := Nat.toDigits 16 code
  List.replicate (width - digits.length) '0' ++ digits

def escape (c : Char) : List Char :=
  match c with
  | '"' => ['\\', '"']
  | '\\' => ['\\', '\\']
  | '\n' => ['\\', 'n']
  | '\r' => ['\\', 'r']
  | '\t' => ['\\', 't']
  | c =>
    if c = '\x08' then ['\\', 'b']
    else if c = '\x0c' then ['\\', 'f']
    else if c.toNat < 0x20 then '\\' :: 'u' :: hexDigits 4 c.toNat
    else [c]

def writeString (cs : List Char) : List Char := '"' :: cs.flatMap escape ++ ['"']

def writeNumeral (n : Numeral) : List Char :=
  n.whole
    ++ (if n.fraction.isEmpty then [] else '.' :: n.fraction)
    ++ match n.exponent with
      | none => []
      | some e => 'e' :: (if e < 0 then '-' else '+') :: Nat.toDigits 10 e.natAbs

mutual

def write : Json → List Char
  | null => ['n', 'u', 'l', 'l']
  | bool true => ['t', 'r', 'u', 'e']
  | bool false => ['f', 'a', 'l', 's', 'e']
  | number negative numeral => (if negative then ['-'] else []) ++ writeNumeral numeral
  | string text => writeString (text.getD "").toList
  | array items => '[' :: writeItems items ++ [']']
  | object members => '\x7b' :: writeMembers members ++ ['\x7d']

def writeItems : List Json → List Char
  | [] => []
  | [item] => item.write
  | item :: items => item.write ++ ',' :: writeItems items

def writeMembers : List (Option String × Json) → List Char
  | [] => []
  | [(key, value)] => writeString (key.getD "").toList ++ ':' :: value.write
  | (key, value) :: members =>
    writeString (key.getD "").toList ++ ':' :: value.write ++ ',' :: writeMembers members

end

def render (value : Json) : String := String.ofList value.write

end PaymentFees.Json
