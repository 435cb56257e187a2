import PaymentFees.Proofs.Moves

namespace PaymentFees.Store

variable {store : Store} (tables : store.book.hasTables = true)
include tables

theorem run_frequency (user : UserId) (range : AmountRange) :
    (frequency user range).run store = (.ok (store.book.frequency user range), store) := by
  unfold frequency
  rw [run_query, if_pos tables]

theorem run_payment? {id : PaymentId} {p : Payment Stamp}
    (stands : store.book.findPayment? id = some p) :
    (payment? id).run store = (some <$> p.read.mapError .storage, store) := by
  have one : (some p).mapM Payment.read = some <$> p.read := rfl
  unfold payment?
  rw [run_query, if_pos tables, stands, one]
  cases p.read <;> rfl

theorem run_requirePayment {id : PaymentId} {p : Payment Stamp}
    (stands : store.book.findPayment? id = some p) :
    (requirePayment id).run store = (p.read.mapError .storage, store) := by
  unfold requirePayment
  rw [Action.run_bind, run_payment? tables stands]
  cases p.read <;> rfl

theorem run_record? (id : PaymentId) :
    (record? id).run store =
      (((store.book.findRecord? id).mapM FeeRecord.read).mapError .storage, store) := by
  unfold record?
  rw [run_query, if_pos tables]

theorem run_record?_of_found {id : PaymentId} {record : FeeRecord Stamp}
    (found : store.book.findRecord? id = some record) :
    (record? id).run store = (some <$> record.read.mapError .storage, store) := by
  have one : (some record).mapM FeeRecord.read = some <$> record.read := rfl
  rw [run_record? tables, found, one]
  cases record.read <;> rfl

theorem run_setAmount (id : PaymentId) {amount : Float} (number : amount.isNaN = false) :
    (setAmount id amount).run store =
      (.ok (), { store with book := store.book.withAmount id amount }) := by
  have accepted : store.book.setAmount id amount = .ok (store.book.withAmount id amount) := by
    unfold Book.setAmount
    rw [number]
    rfl
  unfold setAmount
  rw [run_statement, if_pos tables, accepted]
  rfl

theorem run_saveRecord {record : FeeRecord Instant} (number : record.fee.isNaN = false)
    (gross : record.grossAmount.isNaN = false) (nonnegative : ¬ record.fee < 0.0)
    (stands : (store.book.findPayment? record.payment).isSome = true) :
    (saveRecord record).run store =
      (.ok (), { store with book := store.book.putRecord ⟨record.payment, record.user, record.fee,
        record.grossAmount, stamp record.createdAt, stamp record.updatedAt⟩ }) := by
  generalize kept : (⟨record.payment, record.user, record.fee, record.grossAmount,
    stamp record.createdAt, stamp record.updatedAt⟩ : FeeRecord Stamp) = row
  have accepted : store.book.saveRecord row = .ok (store.book.putRecord row) := by
    subst kept
    simp only [Book.saveRecord_eq, number, gross, nonnegative, stands, Bool.or_true,
      Bool.false_eq_true, if_false, if_true]
  unfold saveRecord
  rw [run_statement, if_pos tables]
  dsimp only
  rw [kept, accepted]
  rfl

theorem run_removeRecord (id : PaymentId) :
    (removeRecord id).run store =
      (.ok (), { store with book := store.book.removeRecord id }) := by
  unfold removeRecord
  rw [run_statement, if_pos tables]

theorem run_recordEvent (now : Instant) (event : FeeEvent) :
    (recordEvent now event).run store =
      (.ok (), { store with book := store.book.note now event }) := by
  unfold recordEvent appendEntry
  rw [run_statement, if_pos tables]
  rfl

end PaymentFees.Store
