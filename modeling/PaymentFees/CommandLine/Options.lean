import PaymentFees.CommandLine.Database

namespace PaymentFees.CommandLine

structure Options where
  seed : Nat
  payments : Nat
  user : UserId
  dialogue : Bool
  database : String
  planFile : Option String
  configFile : Option String
  deriving DecidableEq, Repr

namespace Options

def valueOf? (flag : String) : List String → Option String
  | argument :: value :: rest =>
    if argument = flag then some value else valueOf? flag (value :: rest)
  | _ => none

def digits? (cs : List Char) : Option Nat :=
  if !cs.isEmpty && cs.all Char.isDigit then some (numberOf cs) else none

/-- Digits after an optional plus sign, below `2^64`. -/
def nat64? (text : String) : Option Nat := do
  let n ← match text.toList with
    | '+' :: rest => digits? rest
    | rest => digits? rest
  if n < wordLimit then some n else none

def int64? (text : String) : Option Int := do
  let n : Int ← match text.toList with
    | '+' :: rest => (digits? rest).map Int.ofNat
    | '-' :: rest => (digits? rest).map (-Int.ofNat ·)
    | rest => (digits? rest).map Int.ofNat
  if -signedLimit ≤ n ∧ n < signedLimit then some n else none

/-- A number that cannot be read counts as not given. -/
def ofArguments (arguments : List String) : Options where
  seed := (valueOf? "--seed" arguments >>= nat64?).getD 42
  payments := (valueOf? "--payments" arguments >>= nat64?).getD 200
  user := (valueOf? "--user" arguments >>= int64?).getD 1
  dialogue := arguments.contains "--ipc-mode"
  database := (valueOf? "--db" arguments).getD Database.memoryName
  planFile := valueOf? "--plan" arguments
  configFile := valueOf? "--config" arguments

end Options

end PaymentFees.CommandLine
