import PaymentFees.Json.Number

namespace PaymentFees.Json

def text? : Json → Option String
  | string text => text
  | _ => none

def optional? {α : Type} (decode : Json → Option α) : Json → Option (Option α)
  | null => some none
  | value => (decode value).map some

def list? {α : Type} (decode : Json → Option α) : Json → Option (List α)
  | array items => items.mapM decode
  | _ => none

def entries? {α : Type} (decode : Json → Option α) : Json → Option (List (String × α))
  | object members => members.mapM fun (key, value) => return (← key, ← decode value)
  | _ => none

structure Fields where
  given : List (String × Json)
  short : Bool
  deriving Repr

/-- Members with other keys are skipped; a field given again is refused, and so is a short form
that is too long. -/
def fields? (names : List String) : Json → Option Fields
  | object members => do
    let keyed ← members.mapM fun (key, value) => return (← key, value)
    let given := keyed.filter fun (key, _) => names.contains key
    if (given.map Prod.fst).Nodup then some ⟨given, false⟩ else none
  | array items => if items.length ≤ names.length then some ⟨names.zip items, true⟩ else none
  | _ => none

namespace Fields

variable {α : Type}

def find? (fields : Fields) (name : String) : Option Json := fields.given.lookup name

def required (fields : Fields) (name : String) (decode : Json → Option α) : Option α :=
  fields.find? name >>= decode

def withDefault (fields : Fields) (name : String) (absent : α) (decode : Json → Option α) :
    Option α :=
  match fields.find? name with
  | some value => decode value
  | none => some absent

/-- A field that may be missing from an object, but not from the short form. -/
def nullable (fields : Fields) (name : String) (decode : Json → Option α) : Option (Option α) :=
  match fields.find? name with
  | some value => optional? decode value
  | none => if fields.short then none else some none

end Fields

/-- A name, or an object whose only member has that name and the value `null`. A value that was
kept until its tag was known may also have an empty object there. -/
def choice? (kept : Bool) : Json → Option String
  | string text => text
  | object [(key, null)] => key
  | object [(key, object [])] => if kept then key else none
  | _ => none

mutual

def isSound : Json → Bool
  | number negative numeral => (number negative numeral).float?.isSome
  | string text => text.isSome
  | array items => areSound items
  | object members => areSoundMembers members
  | _ => true

def areSound : List Json → Bool
  | [] => true
  | item :: items => item.isSound && areSound items

def areSoundMembers : List (Option String × Json) → Bool
  | [] => true
  | (key, value) :: members => key.isSome && value.isSound && areSoundMembers members

end

/-- Tagged values may nest so deep, their own level included. -/
def maxTaggedDepth : Nat := 127

/-- A tagged value as its tag and the rest. The tag is the one member named `type` of an object,
or the first item of an array. All of the value is read before the tag is looked at. -/
def tagged? (value : Json) : Option (String × Json) :=
  if value.isSound && value.depth ≤ maxTaggedDepth then
    match value with
    | object members =>
      match members.partition (·.1 == some "type") with
      | ([(_, string tag)], rest) => tag.map (·, .object rest)
      | _ => none
    | array (string tag :: rest) => tag.map (·, .array rest)
    | _ => none
  else none

end PaymentFees.Json
