import PaymentFees.Book.Tables

/-! Statements on a book, and transactions that undo them. -/

namespace PaymentFees

structure Store where
  book : Book
  isOpen : Bool
  deriving DecidableEq, Repr

/-- What changes a store and may fail. A failure undoes nothing by itself. -/
abbrev Action := ExceptT Failure (StateM Store)

/-- How operations reach a book. A statement changes it or fails and changes nothing; a transaction
undoes what its body did if that fails. -/
class Session (m : Type → Type) where
  execute {α : Type} (run : Book → Except Failure (α × Book)) : m α
  transaction {α : Type} (body : m α) : m α

namespace Store

export Session (transaction)

variable {α : Type}

def onBook (book : Book) : Store := ⟨book, false⟩

/-- Runs a body between opening and closing a transaction. If its result counts as failed, the
store is again what it was. In an open transaction the body just runs. -/
def bracket (failed : α → Bool) (body : StateM Store α) : StateM Store α := fun store =>
  if store.isOpen then body store
  else
    let (result, after) := body { store with isOpen := true }
    if failed result then (result, store) else (result, { after with isOpen := false })

def isFailure : Except Failure α → Bool
  | .ok _ => false
  | .error _ => true

@[default_instance] instance : Session Action where
  execute run store :=
    match run store.book with
    | .ok (value, book) => (.ok value, { store with book := book })
    | .error failure => (.error failure, store)
  transaction body := ExceptT.mk (bracket isFailure body.run)

variable {m : Type → Type} [Session m]

/-- The first table that a statement names has to be there. -/
def statement (table : String) (run : Book → Except Failure (α × Book)) : m α :=
  Session.execute fun book =>
    if book.hasTables then run book else .error (.storage (.noTable table))

def query (table : String) (run : Book → Except Failure α) : m α :=
  statement table fun book => return (← run book, book)

def makeTables : m Unit := Session.execute fun book => .ok ((), { book with hasTables := true })

def insertPayment (now : Instant) (user : UserId) (amount : Float)
    (description : Option String) : m PaymentId :=
  statement "payment" fun book =>
    (book.insertPayment now user amount description).mapError .storage

def payment? (id : PaymentId) : m (Option (Payment Instant)) :=
  query "payment" fun book => ((book.findPayment? id).mapM Payment.read).mapError .storage

def setAmount (id : PaymentId) (amount : Float) : m Unit :=
  statement "payment" fun book =>
    return ((), ← (book.setAmount id amount).mapError .storage)

/-- Whether there was such a payment. -/
def deletePayment (id : PaymentId) : m Bool :=
  statement "payment" fun book => .ok ((book.findPayment? id).isSome, book.deletePayment id)

def payments (user : UserId) : m (List (Payment Instant)) :=
  query "payment" fun book => ((book.paymentsOf user).mapM Payment.read).mapError .storage

def paymentsWithFees (user : UserId) : m (List (Payment Instant × Option Float)) :=
  query "payment" fun book =>
    (book.paymentsOf user).mapM fun p =>
      return (← p.read.mapError .storage, (book.findRecord? p.id).map (·.fee))

def frequency (user : UserId) (range : AmountRange) : m Float :=
  query "payment" fun book => .ok (book.frequency user range)

def plan? (user : UserId) : m (Option StoredPlan) :=
  query "fee_plan" fun book => (book.findPlan? user).mapM PlanRow.read

def savePlan (plan : StoredPlan) : m Unit :=
  statement "fee_plan" fun book => .ok ((), book.savePlan (.ofStored plan))

def record? (payment : PaymentId) : m (Option (FeeRecord Instant)) :=
  query "fee_record" fun book => ((book.findRecord? payment).mapM FeeRecord.read).mapError .storage

def saveRecord (record : FeeRecord Instant) : m Unit :=
  statement "fee_record" fun book => do
    let row := ⟨record.payment, record.user, record.fee, record.grossAmount,
      stamp record.createdAt, stamp record.updatedAt⟩
    return ((), ← (book.saveRecord row).mapError .storage)

def removeRecord (payment : PaymentId) : m Unit :=
  statement "fee_record" fun book => .ok ((), book.removeRecord payment)

def records (user : UserId) : m (List (FeeRecord Instant)) :=
  query "fee_record" fun book => ((book.recordsOf user).mapM FeeRecord.read).mapError .storage

def recordCount : m Nat := query "fee_record" fun book => .ok book.records.length

def appendEntry (now : Instant) (user : UserId) (payment : Option PaymentId)
    (typeName payload : String) : m Unit :=
  statement "fee_event_log" fun book =>
    .ok ((), book.appendEntry now user payment typeName payload)

def entries (user : UserId) : m (List (LogEntry Instant)) :=
  query "fee_event_log" fun book => ((book.entriesOf user).mapM LogEntry.read).mapError .storage

end Store

end PaymentFees
