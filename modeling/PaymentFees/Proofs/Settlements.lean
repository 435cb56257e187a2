import PaymentFees.Proofs.Moves

/-!
What an operation on a payment does when it succeeds: what it found, what it answers, and the book
that it leaves, in terms of moves. Whatever else is said of a success is read off here.
-/

namespace PaymentFees

open Binary

/-- The fee of a payment that has none is computed: nothing is taken, or a fee above zero. -/
inductive FirstCharge (rounding : Rounding) (now : Instant) (before : Book) (p : Payment Stamp) :
    FeeOutcome → Book → Prop
  | nothing : FirstCharge rounding now before p ⟨0.0, p.amount⟩ before
  | charged {fee : Float} (positive : 0.0 < fee) (nonzero : (p.amount == 0.0) = false)
      (number : (amountAfterFee rounding p.amount fee).isNaN = false) :
    FirstCharge rounding now before p ⟨fee, amountAfterFee rounding p.amount fee⟩
      (before.charge now p.id p.user fee p.amount (amountAfterFee rounding p.amount fee)
        (.charged p.id p.user fee p.amount (amountAfterFee rounding p.amount fee)))

/-- The fee of a payment is computed for an amount before fees: a fee above zero takes the place of
any that stood, and otherwise the one that stood is cleared. -/
inductive Resettled (rounding : Rounding) (now : Instant) (before : Book) (p : Payment Stamp)
    (gross : Float) : FeeOutcome → Book → Prop
  | charged {fee : Float} (positive : 0.0 < fee) (nonzero : (gross == 0.0) = false)
      (number : (amountAfterFee rounding gross fee).isNaN = false) :
    Resettled rounding now before p gross ⟨fee, amountAfterFee rounding gross fee⟩
      (before.charge now p.id p.user fee gross (amountAfterFee rounding gross fee)
        (.recomputed p.id p.user ((before.findRecord? p.id).map (·.fee)) fee gross
          (amountAfterFee rounding gross fee)))
  | cleared {fee : Float} {record : FeeRecord Stamp} (small : ¬ 0.0 < fee)
      (charged : before.findRecord? p.id = some record) (number : gross.isNaN = false) :
    Resettled rounding now before p gross ⟨fee, gross⟩
      (((before.removeRecord p.id).note now
        (.cleared p.id p.user record.fee gross)).withAmount p.id gross)
  | free {fee : Float} (small : ¬ 0.0 < fee) (uncharged : before.findRecord? p.id = none)
      (number : gross.isNaN = false) :
    Resettled rounding now before p gross ⟨fee, gross⟩ (before.withAmount p.id gross)

/-- The fee that stands on a payment is given back. -/
inductive Refunded (now : Instant) (id : PaymentId) (before : Book) : Float → Book → Prop
  | nothing (uncharged : before.findRecord? id = none) : Refunded now id before 0.0 before
  | fee {record : FeeRecord Stamp} (charged : before.findRecord? id = some record) :
    Refunded now id before record.fee
      ((before.removeRecord id).note now (.refunded id record.user record.fee))

theorem Refunded.findRecord? {now : Instant} {id : PaymentId} {before after : Book} {fee : Float}
    (refunded : Refunded now id before fee after) : after.findRecord? id = none := by
  cases refunded with
  | nothing uncharged => exact uncharged
  | fee charged => exact before.findRecord?_removeRecord_self id

namespace Store

variable {config : Config} {now : Instant} {store after : Store}

theorem transaction_book {α : Type} {body : Action α} {value : α}
    (returned : (transaction body).run store = (.ok value, after)) :
    ∃ mid, body.run { store with isOpen := true } = (.ok value, mid) ∧ after.book = mid.book := by
  cases opened : store.isOpen with
  | true =>
    rw [transaction_open opened] at returned
    refine ⟨after, ?_, rfl⟩
    rw [← opened]
    exact returned
  | false =>
    obtain ⟨mid, ran, rfl⟩ := transaction_ok opened returned
    exact ⟨mid, ran, rfl⟩

theorem setAmount_return_ok {id : PaymentId} {net : Float} {result outcome : FeeOutcome}
    (returned : (do setAmount id net; return result : Action FeeOutcome).run store =
      (.ok outcome, after)) :
    outcome = result ∧ after.book = store.book.withAmount id net ∧
      ∀ payment, store.book.findPayment? id = some payment → net.isNaN = false := by
  obtain ⟨⟨⟩, mid, set, rest⟩ := Action.run_bind_ok returned
  obtain ⟨rfl, number⟩ := setAmount_ok set
  cases rest
  exact ⟨rfl, rfl, number⟩

theorem recordEvent_setAmount_ok {event : FeeEvent} {id : PaymentId} {net : Float}
    {result outcome : FeeOutcome}
    (returned : (do recordEvent now event; setAmount id net; return result :
      Action FeeOutcome).run store = (.ok outcome, after)) :
    outcome = result ∧ after.book = (store.book.note now event).withAmount id net ∧
      ∀ payment, store.book.findPayment? id = some payment → net.isNaN = false := by
  obtain ⟨⟨⟩, mid, logged, rest⟩ := Action.run_bind_ok returned
  cases recordEvent_ok logged
  exact setAmount_return_ok rest

theorem chargeFee_outcome {id : PaymentId} {outcome : FeeOutcome}
    (returned : (chargeFee config now id).run store = (.ok outcome, after)) :
    ∃ p, store.book.findPayment? id = some p ∧ p.id = id ∧ p.createdAt.isSome = true ∧
      store.book.findRecord? id = none ∧
      FirstCharge config.rounding now store.book p outcome after.book := by
  obtain ⟨last, ran, same⟩ := transaction_book returned
  clear returned
  rw [same]
  obtain ⟨payment, mid, required, ran⟩ := Action.run_bind_ok ran
  obtain ⟨rfl, row, time, found, rfl, rfl⟩ := requirePayment_ok required
  have dated := requirePayment_dated required found
  obtain ⟨existing, mid, looked, ran⟩ := Action.run_bind_ok ran
  obtain ⟨rfl, ⟨uncharged, rfl⟩ | ⟨record, created, updated, -, -, rfl⟩⟩ := record?_ok looked
  · refine ⟨row, found, rfl, dated, uncharged, ?_⟩
    dsimp only [Option.isSome_none, Bool.false_eq_true, if_false] at ran
    obtain ⟨fee, mid, quoted, ran⟩ := Action.run_bind_ok ran
    obtain ⟨rfl, nonzero⟩ := quote_ok quoted
    split at ran
    · cases ran
      exact .nothing
    · next notBelow =>
      obtain ⟨⟨⟩, mid, set, ran⟩ := Action.run_bind_ok ran
      obtain ⟨rfl, number⟩ := setAmount_ok set
      obtain ⟨⟨⟩, mid, saved, ran⟩ := Action.run_bind_ok ran
      obtain ⟨rfl, feeNumber, -⟩ := saveRecord_ok saved
      obtain ⟨⟨⟩, mid, logged, ran⟩ := Action.run_bind_ok ran
      cases recordEvent_ok logged
      cases ran
      dsimp only
      -- Here the amount comes before the record, in a recomputation after it.
      rw [Book.putRecord_withAmount]
      have positive := lt_of_not_le feeNumber notBelow
      exact .charged positive (nonzero positive) (number row found)
  · cases ran

theorem refundFee_outcome {id : PaymentId} {fee : Float}
    (returned : (refundFee now id).run store = (.ok fee, after)) :
    Refunded now id store.book fee after.book := by
  obtain ⟨last, ran, same⟩ := transaction_book returned
  clear returned
  rw [same]
  obtain ⟨existing, mid, looked, ran⟩ := Action.run_bind_ok ran
  obtain ⟨rfl, ⟨uncharged, rfl⟩ | ⟨record, created, updated, charged, rfl, rfl⟩⟩ :=
    record?_ok looked
  · cases ran
    exact .nothing uncharged
  · dsimp only at ran
    obtain ⟨⟨⟩, mid, removed, ran⟩ := Action.run_bind_ok ran
    cases removeRecord_ok removed
    obtain ⟨⟨⟩, mid, logged, ran⟩ := Action.run_bind_ok ran
    cases recordEvent_ok logged
    cases ran
    exact .fee charged

theorem recomputeFee_outcome {id : PaymentId} {gross : Float} {outcome : FeeOutcome}
    (returned : (recomputeFee config now id gross).run store = (.ok outcome, after)) :
    ∃ p, store.book.findPayment? id = some p ∧ p.id = id ∧
      Resettled config.rounding now store.book p gross outcome after.book := by
  unfold recomputeFee at returned
  split at returned
  · cases returned
  obtain ⟨last, ran, same⟩ := transaction_book returned
  clear returned
  rw [same]
  obtain ⟨payment, mid, required, ran⟩ := Action.run_bind_ok ran
  obtain ⟨rfl, row, time, found, rfl, rfl⟩ := requirePayment_ok required
  refine ⟨row, found, rfl, ?_⟩
  obtain ⟨existing, mid, looked, ran⟩ := Action.run_bind_ok ran
  -- The record that may stand decides what is written, before the fee is known to be positive.
  obtain ⟨rfl, ⟨uncharged, rfl⟩ | ⟨record, created, updated, charged, place, rfl⟩⟩ :=
    record?_ok looked
  · obtain ⟨fee, mid, quoted, ran⟩ := Action.run_bind_ok ran
    obtain ⟨rfl, nonzero⟩ := quote_ok quoted
    by_cases positive : fee > 0.0
    · simp only [if_pos positive] at ran
      obtain ⟨⟨⟩, mid, saved, ran⟩ := Action.run_bind_ok ran
      obtain ⟨rfl, -⟩ := saveRecord_ok saved
      obtain ⟨rfl, written, number⟩ := recordEvent_setAmount_ok ran
      rw [written]
      have charge : Resettled config.rounding now store.book row gross _ _ :=
        .charged positive (nonzero positive)
          (number row ((Book.findPayment?_putRecord _ _ _).trans found))
      rw [uncharged] at charge
      exact charge
    · simp only [if_neg positive] at ran
      obtain ⟨rfl, written, number⟩ := setAmount_return_ok ran
      rw [written]
      exact .free positive uncharged (number row found)
  · obtain ⟨fee, mid, quoted, ran⟩ := Action.run_bind_ok ran
    obtain ⟨rfl, nonzero⟩ := quote_ok quoted
    by_cases positive : fee > 0.0
    · simp only [if_pos positive] at ran
      obtain ⟨⟨⟩, mid, saved, ran⟩ := Action.run_bind_ok ran
      obtain ⟨rfl, -⟩ := saveRecord_ok saved
      obtain ⟨rfl, written, number⟩ := recordEvent_setAmount_ok ran
      have renewal : store.book.putRecord
          ⟨record.payment, record.user, fee, gross, stamp created, stamp now⟩ =
          store.book.putRecord ⟨row.id, row.user, fee, gross, stamp now, stamp now⟩ :=
        Book.putRecord_eq _ (by rw [place, charged]; rfl) place rfl rfl rfl
      rw [written]
      dsimp only
      -- A standing record keeps its own user and time, so it may be saved as a new one.
      rw [renewal]
      have charge : Resettled config.rounding now store.book row gross _ _ :=
        .charged positive (nonzero positive)
          (number row ((Book.findPayment?_putRecord _ _ _).trans found))
      rw [charged] at charge
      exact charge
    · simp only [if_neg positive] at ran
      obtain ⟨⟨⟩, mid, removed, ran⟩ := Action.run_bind_ok ran
      cases removeRecord_ok removed
      obtain ⟨rfl, written, number⟩ := recordEvent_setAmount_ok ran
      rw [written]
      exact .cleared positive charged (number row found)

end Store

namespace Service

variable {config : Config} {now : Instant} {store after : Store}

theorem recordPayment_outcome {user : UserId} {amount : Float} {description : Option String}
    {receipt : Receipt}
    (returned : (recordPayment config now user amount description).run store =
      (.ok receipt, after)) :
    receipt.grossAmount = amount ∧ ∃ mid,
      store.book.insertPayment now user amount description = .ok (receipt.payment, mid) ∧
        ∃ p, mid.findPayment? receipt.payment = some p ∧ p.id = receipt.payment ∧
          p.createdAt.isSome = true ∧ mid.findRecord? receipt.payment = none ∧
          FirstCharge config.rounding now mid p ⟨receipt.fee, receipt.amount⟩ after.book := by
  unfold recordPayment at returned
  split at returned
  · cases returned
  obtain ⟨last, ran, same⟩ := Store.transaction_book returned
  rw [same]
  obtain ⟨id, mid, inserted, ran⟩ := Action.run_bind_ok ran
  obtain ⟨book, stored, rfl⟩ := Store.insertPayment_ok inserted
  obtain ⟨outcome, mid, charged, ran⟩ := Action.run_bind_ok ran
  cases ran
  have settled := Store.chargeFee_outcome charged
  exact ⟨rfl, book, stored, settled⟩

theorem deletePayment_outcome {id : PaymentId} {fee : Float}
    (returned : (deletePayment now id).run store = (.ok fee, after)) :
    (store.book.findPayment? id).isSome = true ∧
      ∃ mid, Refunded now id store.book fee mid ∧ after.book = mid.deletePayment id := by
  obtain ⟨last, ran, same⟩ := Store.transaction_book returned
  obtain ⟨found, mid, looked, ran⟩ := Action.run_bind_ok ran
  obtain ⟨rfl, ⟨-, rfl⟩ | ⟨row, time, stands, -, rfl⟩⟩ := Store.payment?_ok looked
  · cases ran
  dsimp only [Option.isNone_some, Bool.false_eq_true, if_false] at ran
  obtain ⟨refunded, mid, repaid, ran⟩ := Action.run_bind_ok ran
  obtain ⟨existed, last, deleted, ran⟩ := Action.run_bind_ok ran
  cases Store.deletePayment_ok deleted
  cases ran
  have settled := Store.refundFee_outcome repaid
  exact ⟨Option.isSome_of_eq_some stands, mid.book, settled, same⟩

end Service

end PaymentFees
