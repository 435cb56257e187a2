import PaymentFees.Plan.Fault

namespace PaymentFees

/-- A rule of the book that a statement would break, a value in it that cannot be read, or what
keeps the engine from running a statement. -/
inductive StorageFault where
  | missingValue (column : String)
  | negativeFee
  | unknownPayment
  | noTable (name : String)
  | badTime (column : Nat)
  | engine (message : String)
  deriving DecidableEq, Repr

def StorageFault.message : StorageFault → String
  | missingValue column => "NOT NULL constraint failed: " ++ column
  | negativeFee => "CHECK constraint failed: fee_amount >= 0"
  | unknownPayment => "FOREIGN KEY constraint failed"
  | noTable name => "no such table: " ++ name
  | badTime column => s!"bad value in column {column}"
  | engine message => message

inductive Failure where
  | storage (fault : StorageFault)
  | undecodable
  | paymentNotFound (payment : PaymentId)
  | alreadyCharged (payment : PaymentId)
  | invalidPlan (fault : PlanFault)
  | invalidAmount (amount : Float)
  deriving DecidableEq, Repr

def Failure.message : Failure → String
  | storage fault => "Database error: " ++ fault.message
  | undecodable => "Serialization error: the text does not decode"
  | paymentNotFound payment => s!"Payment {payment} not found"
  | alreadyCharged payment => s!"Payment {payment} already has a fee record"
  | invalidPlan fault => "Invalid fee plan: " ++ fault.message
  | invalidAmount amount => "Invalid amount: " ++ plainText amount

end PaymentFees
