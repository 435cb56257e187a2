import PaymentFees.Book.Basic

namespace PaymentFees.Book

def findPayment? (book : Book) (id : PaymentId) : Option (Payment Stamp) :=
  book.payments.find? (·.id == id)

def paymentsOf (book : Book) (user : UserId) : List (Payment Stamp) :=
  book.payments.filter (·.user == user)

def insertPayment (book : Book) (now : Instant) (user : UserId) (amount : Float)
    (description : Option String) : Except StorageFault (PaymentId × Book) :=
  if amount.isNaN then .error (.missingValue "payment.amount")
  else
    let id := book.nextPayment
    .ok (id, { book with
      payments := book.payments ++ [⟨id, user, keptNumber amount, description, stamp now⟩]
      nextPayment := id + 1 })

/-- Nothing happens if there is no such payment. -/
def setAmount (book : Book) (id : PaymentId) (amount : Float) : Except StorageFault Book :=
  if amount.isNaN && (book.findPayment? id).isSome then
    .error (.missingValue "payment.amount")
  else .ok { book with payments := book.payments.map fun p =>
    if p.id = id then { p with amount := keptNumber amount } else p }

/-- Takes the payment's fee record with it. -/
def deletePayment (book : Book) (id : PaymentId) : Book :=
  { book with
    payments := book.payments.filter (·.id != id)
    records := book.records.filter (·.payment != id) }

/-- Whether a stored amount counts for a range. What is no number is no lower bound at all, and
as an upper bound it is none. -/
def countsFor (range : AmountRange) (amount : Float) : Bool :=
  range.lower ≤ amount.abs && range.upper.all fun upper => upper.isNaN || amount.abs < upper

def frequency (book : Book) (user : UserId) (range : AmountRange) : Float :=
  let amounts := (book.paymentsOf user).map (·.amount)
  if amounts.isEmpty then 0.0
  else Float.ofNat (amounts.countP (countsFor range)) / Float.ofNat amounts.length

def findPlan? (book : Book) (user : UserId) : Option PlanRow := book.plans.find? (·.user == user)

/-- A user's plan is replaced, but for its time of creation. -/
def savePlan (book : Book) (row : PlanRow) : Book :=
  if (book.findPlan? row.user).isSome then
    { book with plans := book.plans.map fun old =>
        if old.user = row.user then { row with createdAt := old.createdAt } else old }
  else { book with plans := book.plans ++ [row] }

def findRecord? (book : Book) (payment : PaymentId) : Option (FeeRecord Stamp) :=
  book.records.find? (·.payment == payment)

def recordsOf (book : Book) (user : UserId) : List (FeeRecord Stamp) :=
  book.records.filter (·.user == user)

def insertRecord (record : FeeRecord Stamp) : List (FeeRecord Stamp) → List (FeeRecord Stamp)
  | [] => [record]
  | r :: rs => if record.payment < r.payment then record :: r :: rs else r :: insertRecord record rs

/-- The record of a payment that has one keeps its user and its time of creation. -/
def saveRecord (book : Book) (record : FeeRecord Stamp) : Except StorageFault Book :=
  if record.fee.isNaN then .error (.missingValue "fee_record.fee_amount")
  else if record.grossAmount.isNaN then .error (.missingValue "fee_record.original_amount")
  else if record.fee < 0.0 then .error .negativeFee
  else
    let fee := keptNumber record.fee
    let grossAmount := keptNumber record.grossAmount
    if (book.findRecord? record.payment).isSome then
      .ok { book with records := book.records.map fun old =>
        if old.payment = record.payment then
          { old with fee, grossAmount, updatedAt := record.updatedAt }
        else old }
    else if (book.findPayment? record.payment).isSome then
      .ok { book with records := insertRecord { record with fee, grossAmount } book.records }
    else .error .unknownPayment

def removeRecord (book : Book) (payment : PaymentId) : Book :=
  { book with records := book.records.filter (·.payment != payment) }

def entriesOf (book : Book) (user : UserId) : List (LogEntry Stamp) :=
  book.log.filter (·.user == user)

def appendEntry (book : Book) (now : Instant) (user : UserId) (payment : Option PaymentId)
    (typeName payload : String) : Book :=
  { book with
    log := book.log ++ [⟨book.nextEntry, user, payment, typeName, payload, stamp now⟩]
    nextEntry := book.nextEntry + 1 }

end PaymentFees.Book
