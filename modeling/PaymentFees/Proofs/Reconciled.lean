import PaymentFees.Proofs.Operations

namespace PaymentFees

open Binary

/-- The record accounts for the amount of the payment. -/
structure Settled (rounding : Rounding) (payment : Payment Stamp) (record : FeeRecord Stamp) :
    Prop where
  user : payment.user = record.user
  positive : 0.0 < record.fee
  net : (payment.amount == amountAfterFee rounding record.grossAmount record.fee) = true

structure Ordered (book : Book) : Prop where
  payments : book.payments.Pairwise (·.id < ·.id)
  records : book.records.Pairwise (·.payment < ·.payment)
  next : ∀ p ∈ book.payments, p.id < book.nextPayment

structure Reconciled (rounding : Rounding) (book : Book) : Prop extends Ordered book where
  settled : ∀ id record, book.findRecord? id = some record →
    ∃ payment, book.findPayment? id = some payment ∧ Settled rounding payment record

namespace Ordered

variable {book : Book}

theorem findPayment?_next (ordered : Ordered book) :
    book.findPayment? book.nextPayment = none := by
  apply List.find?_eq_none.mpr
  intro p present
  simpa using (ordered.next p present).ne

theorem note (ordered : Ordered book) (now : Instant) (event : FeeEvent) :
    Ordered (book.note now event) :=
  ⟨ordered.payments, ordered.records, ordered.next⟩

theorem savePlan (ordered : Ordered book) (row : PlanRow) : Ordered (book.savePlan row) := by
  obtain ⟨plans, same⟩ := book.savePlan_plans row
  rw [same]
  exact ⟨ordered.payments, ordered.records, ordered.next⟩

theorem enter {now : Instant} {user : UserId} {amount : Float} {description : Option String}
    {id : PaymentId} {after : Book} (ordered : Ordered book)
    (stored : book.insertPayment now user amount description = .ok (id, after)) :
    Ordered after := by
  rw [Book.insertPayment_ok stored]
  refine ⟨?_, ordered.records, ?_⟩
  · refine List.pairwise_append.mpr ⟨ordered.payments, List.pairwise_singleton _ _, ?_⟩
    intro p present q last
    rw [List.mem_singleton] at last
    subst last
    exact ordered.next p present
  · intro p present
    rcases List.mem_append.mp present with old | last
    · exact (ordered.next p old).trans (Int.lt_succ _)
    · rw [List.mem_singleton] at last
      subst last
      exact Int.lt_succ _

theorem withAmount (ordered : Ordered book) (id : PaymentId) (amount : Float) :
    Ordered (book.withAmount id amount) := by
  have keeps : ∀ p : Payment Stamp,
      (if p.id = id then { p with amount := keptNumber amount } else p).id = p.id := by
    intro p
    split <;> rfl
  refine ⟨?_, ordered.records, ?_⟩
  · apply List.pairwise_map.mpr
    apply ordered.payments.imp
    intro p q before
    rw [keeps, keeps]
    exact before
  · intro p present
    obtain ⟨old, member, rfl⟩ := List.mem_map.mp present
    rw [keeps]
    exact ordered.next old member

theorem putRecord (ordered : Ordered book) (row : FeeRecord Stamp) :
    Ordered (book.putRecord row) := by
  unfold Book.putRecord
  split
  · refine ⟨ordered.payments, ?_, ordered.next⟩
    have keeps : ∀ old : FeeRecord Stamp,
        (if old.payment = row.payment then Book.renewed row old else old).payment =
          old.payment := by
      intro old
      split <;> rfl
    apply List.pairwise_map.mpr
    apply ordered.records.imp
    intro first second before
    rw [keeps, keeps]
    exact before
  · next absent =>
    refine ⟨ordered.payments, ?_, ordered.next⟩
    have missing := Option.not_isSome_iff_eq_none.mp absent
    exact Book.pairwise_insertRecord
      (fun r present => key_ne_of_find? (fun r : FeeRecord Stamp => r.payment) missing present)
      ordered.records

theorem removeRecord (ordered : Ordered book) (id : PaymentId) :
    Ordered (book.removeRecord id) :=
  ⟨ordered.payments, ordered.records.filter _, ordered.next⟩

theorem deletePayment (ordered : Ordered book) (id : PaymentId) :
    Ordered (book.deletePayment id) :=
  ⟨ordered.payments.filter _, ordered.records.filter _,
    fun p present => ordered.next p (List.mem_filter.mp present).1⟩

end Ordered

section

variable {rounding : Rounding} {book : Book}

/-- A change of one payment and its record keeps the others settled. -/
theorem Reconciled.of_others {after : Book} (reconciled : Reconciled rounding book)
    (ordered : Ordered after) (id : PaymentId)
    (records : ∀ k, k ≠ id → after.findRecord? k = book.findRecord? k)
    (payments : ∀ k, k ≠ id → after.findPayment? k = book.findPayment? k)
    (here : ∀ record, after.findRecord? id = some record →
      ∃ payment, after.findPayment? id = some payment ∧ Settled rounding payment record) :
    Reconciled rounding after := by
  refine ⟨ordered, fun k record found => ?_⟩
  by_cases same : k = id
  · subst same
    exact here record found
  · rw [records k same] at found
    rw [payments k same]
    exact reconciled.settled k record found

theorem Reconciled.of_uncharged {after : Book} (reconciled : Reconciled rounding book)
    (ordered : Ordered after) (id : PaymentId) (uncharged : after.findRecord? id = none)
    (records : ∀ k, k ≠ id → after.findRecord? k = book.findRecord? k)
    (payments : ∀ k, k ≠ id → after.findPayment? k = book.findPayment? k) :
    Reconciled rounding after := by
  apply reconciled.of_others ordered id records payments
  intro record charged
  cases uncharged.symm.trans charged

theorem Reconciled.stands (reconciled : Reconciled rounding book) {payment : Payment Stamp}
    (found : book.findPayment? payment.id = some payment) :
    (book.findRecord? payment.id).map (fun r => (r.user, r.fee)) =
      ((book.findRecord? payment.id).map (·.fee)).map fun fee => (payment.user, fee) := by
  cases charged : book.findRecord? payment.id with
  | none => rfl
  | some record =>
    obtain ⟨same, present, settled⟩ := reconciled.settled _ record charged
    cases found.symm.trans present
    rw [Option.map_some, Option.map_some, Option.map_some, settled.user]

section

variable (now : Instant) (net : Float) (event : FeeEvent)

theorem findRecord?_charge_ne {id k : PaymentId} (user : UserId) (fee gross : Float)
    (other : k ≠ id) :
    (book.charge now id user fee gross net event).findRecord? k = book.findRecord? k :=
  Book.findRecord?_putRecord_ne _ other

theorem findPayment?_charge {payment : Payment Stamp} (user : UserId) (fee gross : Float)
    (found : book.findPayment? payment.id = some payment) :
    (book.charge now payment.id user fee gross net event).findPayment? payment.id =
      some { payment with amount := keptNumber net } :=
  Book.findPayment?_withAmount_self _ ((Book.findPayment?_putRecord _ _ _).trans found)

theorem Reconciled.findRecord?_charge (reconciled : Reconciled rounding book)
    {payment : Payment Stamp} {fee gross : Float}
    (found : book.findPayment? payment.id = some payment)
    (positive : 0.0 < fee) (nonzero : (gross == 0.0) = false) :
    ∃ row, (book.charge now payment.id payment.user fee gross net event).findRecord? payment.id =
        some row ∧
      row.user = payment.user ∧ row.fee = fee ∧ row.grossAmount = gross ∧
      row.updatedAt = stamp now := by
  have fees : keptNumber fee = fee := keptNumber_of_ne (beq_zero_of_lt positive)
  have grosses : keptNumber gross = gross := keptNumber_of_ne nonzero
  refine ⟨_, (Book.findRecord?_putRecord _ _ _).trans (if_pos rfl), ?_⟩
  unfold Book.putRow
  cases charged : book.findRecord? payment.id with
  | none => exact ⟨rfl, fees, grosses, rfl⟩
  | some old =>
    -- The record that stands keeps its user, which is that of the payment.
    obtain ⟨same, present, settled⟩ := reconciled.settled _ old charged
    cases found.symm.trans present
    exact ⟨settled.user.symm, fees, grosses, rfl⟩

end

theorem Reconciled.charge (reconciled : Reconciled rounding book) (now : Instant)
    (event : FeeEvent) {payment : Payment Stamp} {fee gross : Float}
    (found : book.findPayment? payment.id = some payment) (positive : 0.0 < fee)
    (nonzero : (gross == 0.0) = false)
    (number : (amountAfterFee rounding gross fee).isNaN = false) :
    Reconciled rounding (book.charge now payment.id payment.user fee gross
      (amountAfterFee rounding gross fee) event) := by
  apply reconciled.of_others (((reconciled.putRecord _).note _ _).withAmount _ _) payment.id
  · intro k other
    exact findRecord?_charge_ne now _ event _ _ _ other
  · intro k other
    exact (Book.findPayment?_withAmount_ne _ _ other).trans (Book.findPayment?_putRecord _ _ k)
  · intro record put
    obtain ⟨row, here, user, fees, grosses, -⟩ := reconciled.findRecord?_charge now
      (amountAfterFee rounding gross fee) event found positive nonzero
    cases here.symm.trans put
    refine ⟨_, findPayment?_charge now _ event _ _ _ found, user.symm, ?_, ?_⟩
    · rw [fees]
      exact positive
    · rw [fees, grosses]
      exact keptNumber_beq number

theorem Move.reconciled {now : Instant} {after : Book} {event : Option FeeEvent}
    (move : Move rounding now book event after) (reconciled : Reconciled rounding book) :
    Reconciled rounding after := by
  have ordered := reconciled.toOrdered
  cases move with
  | enter stored =>
    refine ⟨ordered.enter stored, fun id record found => ?_⟩
    rw [Book.insertPayment_ok stored] at found
    obtain ⟨payment, present, settled⟩ := reconciled.settled id record found
    exact ⟨payment, Book.findPayment?_insertPayment stored present, settled⟩
  | savePlan user plan =>
    refine ⟨(ordered.savePlan _).note _ _, ?_⟩
    obtain ⟨plans, same⟩ := book.savePlan_plans (.ofStored (.ofPlan user plan now))
    rw [same]
    exact reconciled.settled
  | charge found positive nonzero number =>
    exact reconciled.charge now _ found positive nonzero number
  | @clear payment record gross found charged number =>
    apply reconciled.of_uncharged (((ordered.removeRecord _).note _ _).withAmount _ _) payment.id
      (Book.findRecord?_removeRecord_self _ _)
    · intro k other
      exact Book.findRecord?_removeRecord_ne _ other
    · intro k other
      exact Book.findPayment?_withAmount_ne _ _ other
  | @amend payment gross found uncharged number =>
    apply reconciled.of_uncharged (ordered.withAmount _ _) payment.id uncharged
    · intro k other
      rfl
    · intro k other
      exact Book.findPayment?_withAmount_ne _ _ other
  | @refund id record charged =>
    apply reconciled.of_uncharged ((ordered.removeRecord _).note _ _) id
      (Book.findRecord?_removeRecord_self _ _)
    · intro k other
      exact Book.findRecord?_removeRecord_ne _ other
    · intro k other
      rfl
  | @leave id uncharged =>
    apply reconciled.of_uncharged (ordered.deletePayment _) id
      ((Book.findRecord?_deletePayment _ _ _).trans (if_pos rfl))
    · intro k other
      exact (Book.findRecord?_deletePayment _ _ k).trans (if_neg other)
    · intro k other
      exact (Book.findPayment?_deletePayment _ _ k).trans (if_neg other)

theorem Effect.reconciled {now : Instant} {after : Book} {event : Option FeeEvent}
    (effect : Effect rounding now book event after) (reconciled : Reconciled rounding book) :
    Reconciled rounding after := by
  induction effect with
  | nothing => exact reconciled
  | then_move _ move ih => exact move.reconciled ih
  | then_silent _ move ih => exact move.reconciled ih

end

theorem fresh_reconciled (rounding : Rounding) : Reconciled rounding Store.fresh.book :=
  ⟨⟨.nil, .nil, fun _ present => (nomatch present)⟩, fun _ _ found => nomatch found⟩

end PaymentFees
