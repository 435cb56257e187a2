import PaymentFees.Proofs.Questions
import PaymentFees.Proofs.Tables
import PaymentFees.Proofs.Transactions

/-!
What the operations of the service do to a book. Each of them comes down to a few moves: a payment
enters or leaves, a fee is charged, cleared or given back, an amount is amended, a plan is saved. At
most one move of an operation is logged.
-/

namespace PaymentFees

open Binary

namespace Book

def note (book : Book) (now : Instant) (event : FeeEvent) : Book :=
  book.appendEntry now event.user event.payment? event.typeName event.payload

def charge (book : Book) (now : Instant) (id : PaymentId) (user : UserId) (fee gross net : Float)
    (event : FeeEvent) : Book :=
  ((book.putRecord ⟨id, user, fee, gross, stamp now, stamp now⟩).note now event).withAmount id net

theorem charge_eq_note (book : Book) (now : Instant) (id : PaymentId) (user : UserId)
    (fee gross net : Float) (event : FeeEvent) :
    ∃ payments records, book.charge now id user fee gross net event =
      { book.note now event with payments, records } := by
  obtain ⟨records, same⟩ := book.putRecord_records ⟨id, user, fee, gross, stamp now, stamp now⟩
  unfold charge
  rw [same]
  exact ⟨_, records, rfl⟩

end Book

/-- One step of an operation with the event that it logs. -/
inductive Move (rounding : Rounding) (now : Instant) (before : Book) :
    Option FeeEvent → Book → Prop
  | enter {user : UserId} {amount : Float} {description : Option String} {id : PaymentId}
      {after : Book} (stored : before.insertPayment now user amount description = .ok (id, after)) :
    Move rounding now before none after
  | savePlan (user : UserId) (plan : FeePlan) :
    Move rounding now before (some (.planSaved user plan.mode))
      ((before.savePlan (.ofStored (.ofPlan user plan now))).note now (.planSaved user plan.mode))
  | charge {payment : Payment Stamp} {fee gross : Float} {event : FeeEvent}
      (found : before.findPayment? payment.id = some payment) (positive : 0.0 < fee)
      (nonzero : (gross == 0.0) = false)
      (number : (amountAfterFee rounding gross fee).isNaN = false)
      (first : event = .charged payment.id payment.user fee gross
          (amountAfterFee rounding gross fee) ∧ before.findRecord? payment.id = none ∨
        event = .recomputed payment.id payment.user
          ((before.findRecord? payment.id).map (·.fee)) fee gross
          (amountAfterFee rounding gross fee)) :
    Move rounding now before (some event)
      (before.charge now payment.id payment.user fee gross (amountAfterFee rounding gross fee)
        event)
  | clear {payment : Payment Stamp} {record : FeeRecord Stamp} {gross : Float}
      (found : before.findPayment? payment.id = some payment)
      (charged : before.findRecord? payment.id = some record) (number : gross.isNaN = false) :
    Move rounding now before (some (.cleared payment.id payment.user record.fee gross))
      (((before.removeRecord payment.id).note now
        (.cleared payment.id payment.user record.fee gross)).withAmount payment.id gross)
  | amend {payment : Payment Stamp} {gross : Float}
      (found : before.findPayment? payment.id = some payment)
      (uncharged : before.findRecord? payment.id = none) (number : gross.isNaN = false) :
    Move rounding now before none (before.withAmount payment.id gross)
  | refund {id : PaymentId} {record : FeeRecord Stamp}
      (charged : before.findRecord? id = some record) :
    Move rounding now before (some (.refunded id record.user record.fee))
      ((before.removeRecord id).note now (.refunded id record.user record.fee))
  | leave {id : PaymentId} (uncharged : before.findRecord? id = none) :
    Move rounding now before none (before.deletePayment id)

/-- What an operation does: nothing, or moves of which at most one is logged. -/
inductive Effect (rounding : Rounding) (now : Instant) (before : Book) :
    Option FeeEvent → Book → Prop
  | nothing : Effect rounding now before none before
  | then_move {event : Option FeeEvent} {mid after : Book}
      (effect : Effect rounding now before none mid) (move : Move rounding now mid event after) :
    Effect rounding now before event after
  | then_silent {event : Option FeeEvent} {mid after : Book}
      (effect : Effect rounding now before event mid) (move : Move rounding now mid none after) :
    Effect rounding now before event after

theorem Move.effect {rounding : Rounding} {now : Instant} {before after : Book}
    {event : Option FeeEvent} (move : Move rounding now before event after) :
    Effect rounding now before event after :=
  .then_move .nothing move

theorem Effect.trans {rounding : Rounding} {now : Instant} {first mid last : Book}
    {event : Option FeeEvent} (effect : Effect rounding now first none mid)
    (rest : Effect rounding now mid event last) : Effect rounding now first event last := by
  induction rest with
  | nothing => exact effect
  | then_move _ move ih => exact .then_move ih move
  | then_silent _ move ih => exact .then_silent ih move

theorem Move.hasTables {rounding : Rounding} {now : Instant} {before after : Book}
    {event : Option FeeEvent} (move : Move rounding now before event after) :
    after.hasTables = before.hasTables := by
  cases move with
  | enter stored => rw [Book.insertPayment_ok stored]
  | savePlan user plan =>
    obtain ⟨plans, same⟩ := before.savePlan_plans (.ofStored (.ofPlan user plan now))
    rw [same]
    rfl
  | charge =>
    obtain ⟨payments, records, same⟩ := before.charge_eq_note now _ _ _ _ _ _
    rw [same]
    rfl
  | clear | amend | refund | leave => rfl

theorem Effect.hasTables {rounding : Rounding} {now : Instant} {before after : Book}
    {event : Option FeeEvent} (effect : Effect rounding now before event after) :
    after.hasTables = before.hasTables := by
  induction effect with
  | nothing => rfl
  | then_move _ move ih | then_silent _ move ih => exact move.hasTables.trans ih

theorem of_yields_action {α : Type} {property : α → Prop} {x : Action α} {store after : Store}
    {value : α} (yields : Yields property x) (returned : x.run store = (.ok value, after)) :
    property value := by
  obtain ⟨y, rfl⟩ := yields
  rw [Action.run_map] at returned
  rcases ran : y.run store with ⟨failure | found, mid⟩
  · rw [ran] at returned
    cases returned
  · rw [ran] at returned
    cases returned
    exact found.2

namespace Store

theorem readOnly_plan (user : UserId) : ReadOnly (sources.plan user) := by
  change ReadOnly (plan? user)
  exact readOnly_query _ _

theorem readOnly_frequency (user : UserId) (range : AmountRange) :
    ReadOnly (sources.frequency user range) := by
  change ReadOnly (frequency user range)
  exact readOnly_query _ _

theorem readOnly_rawFee (config : Config) (plan : StoredPlan) (size : Float) :
    ReadOnly (Quote.rawFee config sources plan size) := by
  rcases Quote.rawFee_cases config sources plan size with ⟨range, asked⟩ | free
  · rw [asked]
    exact (readOnly_frequency plan.user range).map _
  · rw [free]
    exact readOnly_pure _

theorem readOnly_quote (config : Config) (user : UserId) (amount : Float) :
    ReadOnly (Quote.fee config sources user amount) := by
  cases finite : amount.isFinite with
  | false =>
    unfold Quote.fee
    rw [finite]
    exact readOnly_pure _
  | true =>
    rw [Quote.fee_eq_settle config sources user finite]
    apply (readOnly_plan user).bind
    intro found
    cases found with
    | none => exact readOnly_pure _
    | some plan =>
      apply (readOnly_rawFee config plan amount.abs).bind
      exact fun _ => readOnly_pure _

variable {now : Instant} {store after : Store}

theorem quote_ok {config : Config} {user : UserId} {amount fee : Float}
    (returned : (Quote.fee config sources user amount).run store = (.ok fee, after)) :
    after = store ∧ (0.0 < fee → (amount == 0.0) = false) := by
  refine ⟨?_, fun positive => ?_⟩
  · have same := (readOnly_quote config user amount).after_eq store
    rwa [returned] at same
  rw [← Bool.not_eq_true]
  intro zero
  obtain ⟨s, form⟩ := unpack_of_beq_zero zero
  have finite : amount.isFinite = true := by
    change amount.toModel.unpack.isFinite = true
    rw [form]
    rfl
  have size : Extent amount.abs (0 : ℚ) := by
    simp only [Extent]
    rw [unpack_abs, form]
    exact .zero
  obtain ⟨a, read, above⟩ := extent_of_lt positive
  rcases (of_yields_action (Quote.fee_fits config sources user finite) returned).2 with
    ⟨-, below⟩ | ⟨cut, -⟩
  · exact absurd above (not_lt.mpr ((read.le_iff size).mp below))
  · exact not_lt_truncateCents size (by norm_num) cut

theorem payment?_ok {id : PaymentId} {found : Option (Payment Instant)}
    (returned : (payment? id).run store = (.ok found, after)) :
    after = store ∧ (store.book.findPayment? id = none ∧ found = none ∨
      ∃ row time, store.book.findPayment? id = some row ∧ row.id = id ∧
        found = some ⟨row.id, row.user, row.amount, row.description, time⟩) := by
  obtain ⟨-, read, rfl⟩ := query_ok returned
  refine ⟨rfl, ?_⟩
  rcases optionMapM_ok (mapError_ok read) with ⟨absent, rfl⟩ | ⟨row, payment, present, done, rfl⟩
  · exact .inl ⟨absent, rfl⟩
  · obtain ⟨time, -, rfl⟩ := Payment.read_ok done
    have place := (mem_of_find? (fun p : Payment Stamp => p.id) present).2
    exact .inr ⟨row, time, present, place, rfl⟩

theorem requirePayment_ok {id : PaymentId} {payment : Payment Instant}
    (returned : (requirePayment id).run store = (.ok payment, after)) :
    after = store ∧ ∃ row time, store.book.findPayment? id = some row ∧ row.id = id ∧
      payment = ⟨row.id, row.user, row.amount, row.description, time⟩ := by
  obtain ⟨found, mid, read, rest⟩ := Action.run_bind_ok returned
  obtain ⟨rfl, ⟨-, rfl⟩ | ⟨row, time, present, place, rfl⟩⟩ := payment?_ok read
  · cases rest
  · cases rest
    exact ⟨rfl, row, time, present, place, rfl⟩

theorem requirePayment_dated {id : PaymentId} {payment : Payment Instant}
    (returned : (requirePayment id).run store = (.ok payment, after)) {row : Payment Stamp}
    (stands : store.book.findPayment? id = some row) : row.createdAt.isSome = true := by
  obtain ⟨found, mid, read, -⟩ := Action.run_bind_ok returned
  obtain ⟨-, read, -⟩ := query_ok read
  rw [stands] at read
  rcases optionMapM_ok (mapError_ok read) with ⟨absent, -⟩ | ⟨row, value, present, done, -⟩
  · cases absent
  · obtain ⟨time, created, -⟩ := Payment.read_ok done
    cases present
    exact Option.isSome_of_eq_some created

theorem record?_ok {id : PaymentId} {found : Option (FeeRecord Instant)}
    (returned : (record? id).run store = (.ok found, after)) :
    after = store ∧ (store.book.findRecord? id = none ∧ found = none ∨
      ∃ row created updated, store.book.findRecord? id = some row ∧ row.payment = id ∧
        found = some ⟨row.payment, row.user, row.fee, row.grossAmount, created, updated⟩) := by
  obtain ⟨-, read, rfl⟩ := query_ok returned
  refine ⟨rfl, ?_⟩
  rcases optionMapM_ok (mapError_ok read) with ⟨absent, rfl⟩ | ⟨row, record, present, done, rfl⟩
  · exact .inl ⟨absent, rfl⟩
  · obtain ⟨created, updated, -, -, rfl⟩ := FeeRecord.read_ok done
    have place := (mem_of_find? (fun r : FeeRecord Stamp => r.payment) present).2
    exact .inr ⟨row, created, updated, present, place, rfl⟩

theorem setAmount_ok {id : PaymentId} {amount : Float}
    (returned : (setAmount id amount).run store = (.ok (), after)) :
    after = { store with book := store.book.withAmount id amount } ∧
      (∀ payment, store.book.findPayment? id = some payment → amount.isNaN = false) := by
  obtain ⟨-, book, changed, rfl⟩ := statement_ok returned
  obtain ⟨rfl, number⟩ := Book.setAmount_ok _ (return_mapError_ok changed)
  exact ⟨rfl, number⟩

theorem saveRecord_ok {record : FeeRecord Instant}
    (returned : (saveRecord record).run store = (.ok (), after)) :
    after = { store with book := store.book.putRecord ⟨record.payment, record.user, record.fee,
        record.grossAmount, stamp record.createdAt, stamp record.updatedAt⟩ } ∧
      record.fee.isNaN = false ∧ record.grossAmount.isNaN = false ∧ ¬ record.fee < 0.0 := by
  obtain ⟨-, book, changed, rfl⟩ := statement_ok returned
  obtain ⟨rfl, fee, gross, nonnegative⟩ := Book.saveRecord_ok _ (return_mapError_ok changed)
  exact ⟨rfl, fee, gross, nonnegative⟩

theorem removeRecord_ok {id : PaymentId}
    (returned : (removeRecord id).run store = (.ok (), after)) :
    after = { store with book := store.book.removeRecord id } := by
  obtain ⟨-, book, changed, rfl⟩ := statement_ok returned
  cases changed
  rfl

theorem insertPayment_ok {user : UserId} {amount : Float} {description : Option String}
    {id : PaymentId}
    (returned : (insertPayment now user amount description).run store = (.ok id, after)) :
    ∃ book, store.book.insertPayment now user amount description = .ok (id, book) ∧
      after = { store with book := book } := by
  obtain ⟨-, book, changed, rfl⟩ := statement_ok returned
  exact ⟨book, mapError_ok changed, rfl⟩

theorem savePlan_ok {plan : StoredPlan}
    (returned : (savePlan plan).run store = (.ok (), after)) :
    after = { store with book := store.book.savePlan (.ofStored plan) } := by
  obtain ⟨-, book, changed, rfl⟩ := statement_ok returned
  cases changed
  rfl

theorem deletePayment_ok {id : PaymentId} {existed : Bool}
    (returned : (deletePayment id).run store = (.ok existed, after)) :
    after = { store with book := store.book.deletePayment id } := by
  obtain ⟨-, book, changed, rfl⟩ := statement_ok returned
  cases changed
  rfl

theorem recordEvent_ok {event : FeeEvent}
    (returned : (recordEvent now event).run store = (.ok (), after)) :
    after = { store with book := store.book.note now event } := by
  unfold recordEvent appendEntry at returned
  obtain ⟨-, book, changed, rfl⟩ := statement_ok returned
  cases changed
  rfl

end Store

end PaymentFees
