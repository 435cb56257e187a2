import PaymentFees.Proofs.Batches
import PaymentFees.Proofs.Confined

namespace PaymentFees

open Binary

section

variable {config : Config} {now : Instant} {store after : Store} {user : UserId} {amount : Float}
  {description : Option String} {receipt : Receipt}

theorem keptNumber_of_kept_ne (nonzero : (keptNumber amount == 0.0) = false) :
    keptNumber amount = amount := by
  unfold keptNumber at nonzero ⊢
  split
  · next zero =>
    rw [if_pos zero] at nonzero
    cases nonzero
  · rfl

theorem Service.recordPayment_book (integrity : Integrity store.book)
    (returned : (recordPayment config now user amount description).run store =
      (.ok receipt, after)) :
    stamp now = some now ∧ receipt.grossAmount = amount ∧ ∃ mid,
      store.book.insertPayment now user amount description = .ok (receipt.payment, mid) ∧
      mid.findRecord? receipt.payment = none ∧
      (receipt.fee = 0.0 ∧ receipt.amount = keptNumber amount ∧ after.book = mid ∨
        0.0 < receipt.fee ∧ keptNumber amount = amount ∧ receipt.amount.isNaN = false ∧
          after.book = mid.charge now receipt.payment user receipt.fee amount receipt.amount
            (.charged receipt.payment user receipt.fee amount receipt.amount)) := by
  obtain ⟨gross, mid, stored, p, found, -, dated, uncharged, charge⟩ :=
    recordPayment_outcome returned
  cases (Book.findPayment?_entered integrity.toOrdered stored).symm.trans found
  refine ⟨Store.stamp_eq dated, gross, mid, stored, uncharged, ?_⟩
  clear returned gross found
  obtain ⟨id, fee, net, gross⟩ := receipt
  dsimp only at charge ⊢
  generalize after.book = last at charge ⊢
  cases charge with
  | nothing => exact .inl ⟨rfl, rfl, rfl⟩
  | charged positive nonzero number =>
    have kept := keptNumber_of_kept_ne nonzero
    rw [kept] at number
    refine .inr ⟨positive, kept, ?_⟩
    rw [kept]
    exact ⟨number, rfl⟩

end

namespace Store

/-- What a receipt tells is what is stored and shown: one new payment, with its fee if there is
one. -/
structure Recorded (now : Instant) (user : UserId) (amount : Float) (description : Option String)
    (store : Store) (receipt : Receipt) (after : Store) : Prop where
  gross : receipt.grossAmount = amount
  new : store.book.findPayment? receipt.payment = none
  shown : ((paymentsWithFees user).run after).1 =
    ((paymentsWithFees user).run store).1.map (· ++ [receipt.line now user description])
  stored : (keptNumber receipt.amount == receipt.amount) = true
  charged : 0.0 < receipt.fee → after.book.findRecord? receipt.payment =
    some ⟨receipt.payment, user, receipt.fee, amount, some now, some now⟩
  free : ¬ 0.0 < receipt.fee → after.book.findRecord? receipt.payment = none ∧
    receipt.fee = 0.0 ∧ (receipt.amount == amount) = true

variable {config : Config} {now : Instant} {store after : Store}

theorem paymentsWithFees_append (tables : store.book.hasTables = true)
    (tables' : after.book.hasTables = true) {user : UserId}
    {line : Payment Instant × Option Float}
    (adds : after.book.shown user = store.book.shown user ++ [(line.1.retimed some, line.2)]) :
    ((paymentsWithFees user).run after).1 =
      ((paymentsWithFees user).run store).1.map (· ++ [line]) := by
  have listed (store : Store) (tables : store.book.hasTables = true) :
      ((paymentsWithFees user).run store).1 = (store.book.shown user).mapM fun row =>
        (return (← row.1.read.mapError .storage, row.2) :
          Except Failure (Payment Instant × Option Float)) := by
    rw [run_paymentsWithFees tables]
    unfold Book.shown
    rw [List.mapM_map]
    rfl
  have last : [(line.1.retimed some, line.2)].mapM (fun row =>
      (return (← row.1.read.mapError .storage, row.2) :
        Except Failure (Payment Instant × Option Float))) = .ok [line] := rfl
  rw [listed after tables', listed store tables, adds, List.mapM_append, last]
  cases (store.book.shown user).mapM fun row =>
    (return (← row.1.read.mapError .storage, row.2) :
      Except Failure (Payment Instant × Option Float)) <;> rfl

theorem recorded (tables : store.book.hasTables = true) (integrity : Integrity store.book)
    {user : UserId} {amount : Float} {description : Option String} {receipt : Receipt}
    (returned : (Service.recordPayment config now user amount description).run store =
      (.ok receipt, after)) : Recorded now user amount description store receipt after := by
  obtain ⟨gross, adds⟩ := Service.recordPayment_adds integrity returned
  obtain ⟨readable, -, mid, stored, uncharged, settled⟩ :=
    Service.recordPayment_book integrity returned
  obtain ⟨number, place⟩ := Book.insertPayment_number stored
  have written := (@Service.writes_recordPayment (fun _ => False) config now user amount
    description store).2
  rw [returned] at written
  have made : after.book.hasTables = true := written.continues.tables tables
  have new : store.book.findPayment? receipt.payment = none := by
    rw [place]
    exact integrity.toOrdered.findPayment?_next
  rw [readable] at adds
  have shown := @paymentsWithFees_append store after tables made user
    (receipt.line now user description) adds.shown
  obtain ⟨fee, net, left⟩ | ⟨positive, kept, number, left⟩ := settled
  · have free : ¬ 0.0 < receipt.fee := by
      rw [fee]
      decide
    refine ⟨gross, new, shown, ?_, fun above => absurd above free, fun _ => ⟨?_, fee, ?_⟩⟩
    · rw [net]
      exact keptNumber_beq (isNaN_keptNumber number)
    · rw [left]
      exact uncharged
    · rw [net]
      exact keptNumber_beq number
  · refine ⟨gross, new, shown, keptNumber_beq number, fun _ => ?_, absurd positive⟩
    rw [left, Book.charge_eq]
    have put := mid.findRecord?_putRecord
      ⟨receipt.payment, user, receipt.fee, amount, stamp now, stamp now⟩ receipt.payment
    rw [if_pos rfl] at put
    refine put.trans ?_
    unfold Book.putRow
    rw [uncharged, readable]
    unfold Book.kept
    rw [kept, keptNumber_of_ne (beq_zero_of_lt positive)]

end Store

/-- What a change of an amount answers is what is stored of the payment, and nothing else is
changed. -/
structure Updated (id : PaymentId) (gross : Float) (before : Book) (outcome : FeeOutcome)
    (after : Book) : Prop where
  found : (before.findPayment? id).isSome = true
  payments : after.payments = before.payments.map fun p =>
    if p.id = id then { p with amount := keptNumber outcome.netAmount } else p
  stored : (keptNumber outcome.netAmount == outcome.netAmount) = true
  charged : 0.0 < outcome.fee → ∃ record, after.findRecord? id = some record ∧
    record.fee = outcome.fee ∧ record.grossAmount = gross
  free : ¬ 0.0 < outcome.fee → after.findRecord? id = none ∧ outcome.netAmount = gross
  records : after.recordsBut id = before.recordsBut id

theorem Book.putRow_numbers (book : Book) (row : FeeRecord Stamp) :
    (book.putRow row).fee = keptNumber row.fee ∧
      (book.putRow row).grossAmount = keptNumber row.grossAmount := by
  unfold putRow
  split <;> exact ⟨rfl, rfl⟩

theorem Resettled.updated {rounding : Rounding} {now : Instant} {before after : Book}
    {p : Payment Stamp} {gross : Float} {outcome : FeeOutcome}
    (resettled : Resettled rounding now before p gross outcome after)
    (found : before.findPayment? p.id = some p) : Updated p.id gross before outcome after := by
  have records := resettled.confined.records
  have paid := Option.isSome_of_eq_some found
  cases resettled with
  | @charged fee positive nonzero number =>
    refine ⟨paid, ?_, keptNumber_beq number, fun _ => ?_, absurd positive, records⟩
    · rw [Book.charge_eq]
      rfl
    · rw [Book.charge_eq]
      have put := before.findRecord?_putRecord
        ⟨p.id, p.user, fee, gross, stamp now, stamp now⟩ p.id
      rw [if_pos rfl] at put
      obtain ⟨kept, keptGross⟩ := before.putRow_numbers
        ⟨p.id, p.user, fee, gross, stamp now, stamp now⟩
      refine ⟨_, put, ?_, ?_⟩
      · rw [kept]
        exact keptNumber_of_ne (beq_zero_of_lt positive)
      · rw [keptGross]
        exact keptNumber_of_ne nonzero
  | cleared small _ number =>
    refine ⟨paid, rfl, keptNumber_beq number, fun above => absurd above small,
      fun _ => ⟨?_, rfl⟩, records⟩
    exact before.findRecord?_removeRecord_self p.id
  | free small uncharged number =>
    exact ⟨paid, rfl, keptNumber_beq number, fun above => absurd above small,
      fun _ => ⟨uncharged, rfl⟩, records⟩

/-- What an operation reports is what the book holds, after any history. A recorded payment comes
last in what its user is shown, with the amount, the description and the fee of the receipt, and has
a record of the amount before it exactly if the fee is above zero. A payment whose amount is changed
has the amount that is answered, and the fee that is answered if that is above zero and none
otherwise; its user, description and time, and all other payments and records, are as before. -/
theorem Store.reports_hold (config : Config) {store : Store} (scripted : store.Scripted) :
    (∀ now user amount description receipt after,
      (Service.recordPayment config now user amount description).run store = (.ok receipt, after) →
        Recorded now user amount description store receipt after) ∧
      ∀ now id gross outcome after,
        (Service.updatePayment config now id gross).run store = (.ok outcome, after) →
          Updated id gross store.book outcome after.book := by
  obtain ⟨-, tables, integrity⟩ := scripted.sound
  constructor
  · intro now user amount description receipt after returned
    exact recorded tables integrity returned
  · intro now id gross outcome after returned
    obtain ⟨p, found, rfl, resettled⟩ := recomputeFee_outcome returned
    exact resettled.updated found

theorem Store.reports_hold_tithe :
    let store := afterScripts .standard fresh (tithe.map fun step => (step.1, .request step.2))
    let recorded := (Service.recordPayment .standard ⟨1, 0⟩ 1 20.0 (some "rent")).run store
    let updated := (Service.updatePayment .standard ⟨1, 0⟩ 1 0.0).run store
    store.Scripted ∧ recorded.1 = .ok ⟨2, 2.0, 18.0, 20.0⟩ ∧ updated.1 = .ok ⟨0.0, 0.0⟩ ∧
      Recorded ⟨1, 0⟩ 1 20.0 (some "rent") store ⟨2, 2.0, 18.0, 20.0⟩ recorded.2 ∧
      Updated 1 0.0 store.book ⟨0.0, 0.0⟩ updated.2.book := by
  intro store recorded updated
  have scripted : store.Scripted := ⟨_, _, rfl⟩
  have answered : recorded.1 = .ok ⟨2, 2.0, 18.0, 20.0⟩ := by decide +kernel
  have changed : updated.1 = .ok ⟨0.0, 0.0⟩ := by decide +kernel
  obtain ⟨holds, others⟩ := reports_hold .standard scripted
  exact ⟨scripted, answered, changed, holds _ _ _ _ _ _ (Prod.ext answered rfl),
    others _ _ _ _ _ (Prod.ext changed rfl)⟩

end PaymentFees
