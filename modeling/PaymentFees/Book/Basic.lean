import PaymentFees.Failure
import PaymentFees.Plan.Encoding

namespace PaymentFees

abbrev Stamp := Option Instant

/-- Only a year of four digits can be read back. -/
def stamp (time : Instant) : Stamp :=
  if 0 ≤ time.year ∧ time.year ≤ 9999 then some time else none

/-- Incomes are above zero and expenses below. -/
structure Payment (Time : Type) where
  id : PaymentId
  user : UserId
  amount : Float
  description : Option String
  createdAt : Time
  deriving DecidableEq, Repr

structure FeeRecord (Time : Type) where
  payment : PaymentId
  user : UserId
  fee : Float
  grossAmount : Float
  createdAt : Time
  updatedAt : Time
  deriving DecidableEq, Repr

structure LogEntry (Time : Type) where
  id : Int
  user : UserId
  payment : Option PaymentId
  typeName : String
  payload : String
  createdAt : Time
  deriving DecidableEq, Repr

structure PlanRow where
  user : UserId
  modeName : String
  formulaText : Option String
  boundsText : String
  rangesText : String
  createdAt : Stamp
  updatedAt : Stamp
  deriving DecidableEq, Repr

/-- Payments and log entries stand in the order of their ids, records in that of their payments.
The two counters are the ids that come next. -/
structure Book where
  hasTables : Bool
  payments : List (Payment Stamp)
  plans : List PlanRow
  records : List (FeeRecord Stamp)
  log : List (LogEntry Stamp)
  nextPayment : PaymentId
  nextEntry : Int
  deriving DecidableEq, Repr

namespace Book

def blank : Book := ⟨false, [], [], [], [], 1, 1⟩

end Book

def readTime (column : Nat) : Stamp → Except StorageFault Instant
  | some time => .ok time
  | none => .error (.badTime column)

def Payment.read (p : Payment Stamp) : Except StorageFault (Payment Instant) :=
  return ⟨p.id, p.user, p.amount, p.description, ← readTime 4 p.createdAt⟩

def FeeRecord.read (r : FeeRecord Stamp) : Except StorageFault (FeeRecord Instant) :=
  return ⟨r.payment, r.user, r.fee, r.grossAmount, ← readTime 4 r.createdAt,
    ← readTime 5 r.updatedAt⟩

def LogEntry.read (e : LogEntry Stamp) : Except StorageFault (LogEntry Instant) :=
  return ⟨e.id, e.user, e.payment, e.typeName, e.payload, ← readTime 5 e.createdAt⟩

def decoded {α : Type} : Option α → Except Failure α
  | some value => .ok value
  | none => .error .undecodable

namespace PlanRow

def ofStored (plan : StoredPlan) : PlanRow where
  user := plan.user
  modeName := plan.mode.name
  formulaText := plan.formulaText
  boundsText := (boundsToJson plan.amountTable).render
  rangesText := (rangesToJson plan.ranges).render
  createdAt := stamp plan.createdAt
  updatedAt := stamp plan.updatedAt

def read (row : PlanRow) : Except Failure StoredPlan := do
  let createdAt ← (readTime 5 row.createdAt).mapError .storage
  let updatedAt ← (readTime 6 row.updatedAt).mapError .storage
  let mode ← match FeeMode.ofName? row.modeName with
    | some mode => pure mode
    | none => throw (.invalidPlan (.unknownMode row.modeName))
  let bounds ← decoded (Json.read row.boundsText >>= boundsOfJson?)
  let ranges ← decoded (Json.read row.rangesText >>= rangesOfJson?)
  return ⟨row.user, mode, row.formulaText, bounds, ranges, createdAt, updatedAt⟩

end PlanRow

/-- A number as it is kept: zero has no sign. -/
def keptNumber (value : Float) : Float := if value == 0.0 then 0.0 else value

end PaymentFees
