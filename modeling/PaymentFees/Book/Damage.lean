import PaymentFees.Book.Basic

/-! Books with texts in them that no statement has written. -/

namespace PaymentFees

inductive TextPlace where
  | planMode (user : UserId)
  | planFormula (user : UserId)
  | planBounds (user : UserId)
  | planRanges (user : UserId)
  | planCreatedAt (user : UserId)
  | planUpdatedAt (user : UserId)
  | paymentDescription (id : PaymentId)
  | paymentCreatedAt (id : PaymentId)
  | recordCreatedAt (payment : PaymentId)
  | recordUpdatedAt (payment : PaymentId)
  | entryType (id : Int)
  | entryPayload (id : Int)
  | entryCreatedAt (id : Int)
  deriving DecidableEq, Repr

namespace Book

def changePlan (book : Book) (user : UserId) (change : PlanRow → PlanRow) : Book × Nat :=
  ({ book with plans := book.plans.map fun row => if row.user = user then change row else row },
    book.plans.countP (·.user == user))

def changePayment (book : Book) (id : PaymentId) (change : Payment Stamp → Payment Stamp) :
    Book × Nat :=
  ({ book with payments := book.payments.map fun p => if p.id = id then change p else p },
    book.payments.countP (·.id == id))

def changeRecord (book : Book) (payment : PaymentId)
    (change : FeeRecord Stamp → FeeRecord Stamp) : Book × Nat :=
  ({ book with records := book.records.map fun r => if r.payment = payment then change r else r },
    book.records.countP (·.payment == payment))

def changeEntry (book : Book) (id : Int) (change : LogEntry Stamp → LogEntry Stamp) :
    Book × Nat :=
  ({ book with log := book.log.map fun e => if e.id = id then change e else e },
    book.log.countP (·.id == id))

def tableOf : TextPlace → String
  | .planMode _ | .planFormula _ | .planBounds _ | .planRanges _ | .planCreatedAt _
  | .planUpdatedAt _ => "fee_plan"
  | .paymentDescription _ | .paymentCreatedAt _ => "payment"
  | .recordCreatedAt _ | .recordUpdatedAt _ => "fee_record"
  | .entryType _ | .entryPayload _ | .entryCreatedAt _ => "fee_event_log"

def requiredColumn? : TextPlace → Option String
  | .planFormula _ | .paymentDescription _ => none
  | .planMode _ => some "fee_plan.mode"
  | .planBounds _ => some "fee_plan.amount_table_json"
  | .planRanges _ => some "fee_plan.interval_data_json"
  | .planCreatedAt _ => some "fee_plan.created_at"
  | .planUpdatedAt _ => some "fee_plan.updated_at"
  | .paymentCreatedAt _ => some "payment.created_at"
  | .recordCreatedAt _ => some "fee_record.created_at"
  | .recordUpdatedAt _ => some "fee_record.updated_at"
  | .entryType _ => some "fee_event_log.event_type"
  | .entryPayload _ => some "fee_event_log.payload"
  | .entryCreatedAt _ => some "fee_event_log.created_at"

def overwrite (book : Book) (place : TextPlace) (text : Option String) : Book × Nat :=
  let present := text.getD ""
  let time := Instant.read? present
  match place with
  | .planMode user => book.changePlan user ({ · with modeName := present })
  | .planFormula user => book.changePlan user ({ · with formulaText := text })
  | .planBounds user => book.changePlan user ({ · with boundsText := present })
  | .planRanges user => book.changePlan user ({ · with rangesText := present })
  | .planCreatedAt user => book.changePlan user ({ · with createdAt := time })
  | .planUpdatedAt user => book.changePlan user ({ · with updatedAt := time })
  | .paymentDescription id => book.changePayment id ({ · with description := text })
  | .paymentCreatedAt id => book.changePayment id ({ · with createdAt := time })
  | .recordCreatedAt payment => book.changeRecord payment ({ · with createdAt := time })
  | .recordUpdatedAt payment => book.changeRecord payment ({ · with updatedAt := time })
  | .entryType id => book.changeEntry id ({ · with typeName := present })
  | .entryPayload id => book.changeEntry id ({ · with payload := present })
  | .entryCreatedAt id => book.changeEntry id ({ · with createdAt := time })

/-- As `overwrite`, unless there is no table or a row would lose a text that it must have. -/
def damage (book : Book) (place : TextPlace) (text : Option String) :
    Except StorageFault (Book × Nat) :=
  if !book.hasTables then .error (.noTable (tableOf place))
  else
    let (damaged, rows) := book.overwrite place text
    match requiredColumn? place, text with
    | some column, none => if rows = 0 then .ok (book, 0) else .error (.missingValue column)
    | _, _ => .ok (damaged, rows)

end Book

end PaymentFees
