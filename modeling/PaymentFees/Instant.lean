import PaymentFees.Decimal.Basic

namespace PaymentFees

/-- Seconds since the start of 1970 and nanoseconds after them. A leap second is the second before
it with a thousand million nanoseconds more. -/
structure Instant where
  seconds : Int
  nanoseconds : Nat
  deriving DecidableEq, Repr

namespace Instant

def isLeapYear (year : Int) : Bool := year % 4 = 0 && (year % 100 ≠ 0 || year % 400 = 0)

def daysInMonth (year : Int) (month : Nat) : Nat :=
  if month = 2 then if isLeapYear year then 29 else 28
  else if month = 4 ∨ month = 6 ∨ month = 9 ∨ month = 11 then 30
  else 31

/-- Days from the start of 1970. Years count from March, so that a leap day ends one. -/
def dayNumber (year : Int) (month day : Nat) : Int :=
  let year := if month ≤ 2 then year - 1 else year
  let century := year / 400
  let yearOfCentury := year - century * 400
  let dayOfYear : Int := (153 * ((month + 9) % 12) + 2) / 5 + day - 1
  century * 146097 + yearOfCentury * 365 + yearOfCentury / 4 - yearOfCentury / 100 + dayOfYear
    - 719468

def dateOf (dayNumber : Int) : Int × Nat × Nat :=
  let day := dayNumber + 719468
  let century := day / 146097
  let rest := day - century * 146097
  let year := (rest - rest / 1460 + rest / 36524 - rest / 146096) / 365
  let dayOfYear := rest - (365 * year + year / 4 - year / 100)
  let march := (5 * dayOfYear + 2) / 153
  let month := (march + 2) % 12 + 1
  (century * 400 + year + if month ≤ 2 then 1 else 0, month.toNat,
    (dayOfYear - (153 * march + 2) / 5 + 1).toNat)

def year (t : Instant) : Int := (dateOf (t.seconds / 86400)).1

def padded (width n : Nat) : String :=
  let digits := Nat.toDigits 10 n
  String.ofList (List.replicate (width - digits.length) '0' ++ digits)

def fractionText (nanoseconds : Nat) : String :=
  if nanoseconds = 0 then ""
  else if nanoseconds % 1000000 = 0 then "." ++ padded 3 (nanoseconds / 1000000)
  else if nanoseconds % 1000 = 0 then "." ++ padded 6 (nanoseconds / 1000)
  else "." ++ padded 9 nanoseconds

def yearText (year : Int) : String :=
  if 0 ≤ year ∧ year ≤ 9999 then padded 4 year.toNat
  else (if year < 0 then "-" else "+") ++ padded 4 year.natAbs

def text (t : Instant) : String :=
  let (year, month, day) := dateOf (t.seconds / 86400)
  let second := (t.seconds % 86400).toNat
  let leap := t.nanoseconds / 1000000000
  yearText year ++ "-" ++ padded 2 month ++ "-" ++ padded 2 day ++ "T"
    ++ padded 2 (second / 3600) ++ ":" ++ padded 2 (second / 60 % 60) ++ ":"
    ++ padded 2 (second % 60 + leap) ++ fractionText (t.nanoseconds % 1000000000) ++ "+00:00"

def twoDigits : List Char → Option (Nat × List Char)
  | a :: b :: rest => if a.isDigit && b.isDigit then some (numberOf [a, b], rest) else none
  | _ => none

def skip (c : Char) : List Char → Option (List Char)
  | head :: rest => if head = c then some rest else none
  | [] => none

def readFraction : List Char → Option (Nat × List Char)
  | '.' :: rest =>
    match rest.span Char.isDigit with
    | ([], _) => none
    | (digits, rest) => some (numberOf ((digits ++ List.replicate 9 '0').take 9), rest)
  | rest => some (0, rest)

/-- Seconds east of Greenwich: `Z`, or a sign, hours and minutes. -/
def readOffset : List Char → Option Int
  | ['Z'] | ['z'] => some 0
  | sign :: rest => do
    let negative ← if sign = '+' then some false
      else if sign = '-' ∨ sign = '\u2212' then some true else none
    let (hours, rest) ← twoDigits rest
    let (minutes, rest) ← twoDigits (← skip ':' rest)
    if rest.isEmpty ∧ hours < 24 ∧ minutes < 60 then
      let seconds : Int := hours * 3600 + minutes * 60
      some (if negative then -seconds else seconds)
    else none
  | [] => none

def read? (text : String) : Option Instant := do
  let (century, rest) ← twoDigits text.toList
  let (yearOfCentury, rest) ← twoDigits rest
  let year := century * 100 + yearOfCentury
  let (month, rest) ← twoDigits (← skip '-' rest)
  let (day, rest) ← twoDigits (← skip '-' rest)
  let separator :: rest := rest | none
  let (hour, rest) ← twoDigits rest
  let (minute, rest) ← twoDigits (← skip ':' rest)
  let (second, rest) ← twoDigits (← skip ':' rest)
  let (nanoseconds, rest) ← readFraction rest
  let offset ← readOffset rest
  if (separator = 'T' ∨ separator = 't' ∨ separator = ' ') ∧ 1 ≤ month ∧ month ≤ 12 ∧ 1 ≤ day
      ∧ day ≤ daysInMonth year month ∧ hour < 24 ∧ minute < 60 ∧ second ≤ 60 then
    let seconds := dayNumber year month day * 86400
      + (hour * 3600 + minute * 60 + min second 59 : Nat) - offset
    some ⟨seconds, if second = 60 then nanoseconds + 1000000000 else nanoseconds⟩
  else none

end Instant

end PaymentFees
