import PaymentFees.Decimal.Text

namespace PaymentFees

/-- A JSON value. A string that names half of a surrogate pair alone denotes no text: it is kept
as `none`. Members keep their order, and a key may occur again. -/
inductive Json where
  | null
  | bool (value : Bool)
  | number (negative : Bool) (numeral : Numeral)
  | string (text : Option String)
  | array (items : List Json)
  | object (members : List (Option String × Json))
  deriving Repr

/-- A number in the usual form: from `0.00001` up to below `1e16` in positional digits with at
least one after the point, elsewhere as one digit before the point and a power of ten. -/
def Numeral.ofDecimal (d : Decimal) : Numeral :=
  if -4 ≤ d.pointPosition ∧ d.pointPosition ≤ 16 then
    match d.positional with
    | (whole, []) => ⟨whole, ['0'], none⟩
    | (whole, fraction) => ⟨whole, fraction, none⟩
  else ⟨d.digits.take 1, d.digits.drop 1, some (d.pointPosition - 1)⟩

namespace Json

def text (value : String) : Json := .string (some value)

def ofInt (value : Int) : Json :=
  .number (value < 0) ⟨Nat.toDigits 10 value.natAbs, [], none⟩

def ofFloat (value : Float) : Json :=
  match value.toModel.unpack with
  | .notANumber | .infinity _ => .null
  | .zero sign => .number (sign == .negative) ⟨['0'], ['0'], none⟩
  | .finite sign mantissa exponent _ =>
    .number (sign == .negative) (.ofDecimal (.shortest .halfEven mantissa exponent))

def ofOption {α : Type} (encode : α → Json) : Option α → Json
  | some value => encode value
  | none => .null

def ofList {α : Type} (encode : α → Json) (values : List α) : Json := .array (values.map encode)

def record (members : List (String × Json)) : Json :=
  .object (members.map fun (key, value) => (some key, value))

mutual

def depth : Json → Nat
  | array items => depthOfItems items + 1
  | object members => depthOfMembers members + 1
  | _ => 0

def depthOfItems : List Json → Nat
  | [] => 0
  | item :: items => max item.depth (depthOfItems items)

def depthOfMembers : List (Option String × Json) → Nat
  | [] => 0
  | (_, value) :: members => max value.depth (depthOfMembers members)

end

end Json

end PaymentFees
