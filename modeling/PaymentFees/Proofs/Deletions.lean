import PaymentFees.Proofs.Receipts

namespace PaymentFees

open Binary

namespace Receipt

def charge? (user : UserId) (receipt : Receipt) : Option FeeEvent :=
  receipt.fee?.map fun fee =>
    .charged receipt.payment user fee receipt.grossAmount receipt.amount

def refund? (user : UserId) (receipt : Receipt) : Option FeeEvent :=
  receipt.fee?.map fun fee => .refunded receipt.payment user fee

end Receipt

def Book.logWith (book : Book) (now : Instant) (event : Option FeeEvent) : List (LogEntry Stamp) :=
  book.log ++ event.toList.map (·.entry book.nextEntry now)

/-- A recording adds a payment, and the record and the entry of its fee if there is one. -/
structure Entered (now : Instant) (user : UserId) (description : Option String) (receipt : Receipt)
    (before after : Book) : Prop where
  payments : after.payments =
    before.payments ++ [(receipt.line (some now) user description).1]
  records : after.records = before.records ++ (receipt.record? (some now) user).toList
  plans : after.plans = before.plans
  log : after.log = before.logWith now (receipt.charge? user)
  number : receipt.payment = before.nextPayment
  next : after.nextPayment = before.nextPayment + 1

section

variable {config : Config} {now : Instant} {store after : Store} {user : UserId} {amount : Float}
  {description : Option String} {receipt : Receipt}

theorem Service.recordPayment_entered (integrity : Integrity store.book)
    (returned : (recordPayment config now user amount description).run store =
      (.ok receipt, after)) : Entered now user description receipt store.book after.book := by
  obtain ⟨readable, gross, mid, stored, -, settled⟩ := recordPayment_book integrity returned
  have place := (Book.insertPayment_number stored).2
  have entered := Book.insertPayment_ok stored
  obtain ⟨fee, net, left⟩ | ⟨positive, kept, -, left⟩ := settled
  · have free : receipt.fee? = none := by
      unfold Receipt.fee?
      rw [fee]
      exact if_neg (by decide)
    have line : (receipt.line (some now) user description).1 =
        ⟨store.book.nextPayment, user, keptNumber amount, description, stamp now⟩ := by
      unfold Receipt.line
      rw [net, keptNumber_keptNumber, place, readable]
    have record : receipt.record? (some now) user = none := congrArg (Option.map _) free
    have event : receipt.charge? user = none := congrArg (Option.map _) free
    rw [left, entered]
    refine ⟨?_, ?_, rfl, ?_, place, rfl⟩
    · rw [line]
    · rw [record]
      exact (List.append_nil _).symm
    · rw [event]
      exact (List.append_nil _).symm
  · have charged : receipt.fee? = some receipt.fee := if_pos positive
    have put := putRecord_entered integrity stored positive amount
    have amended := withAmount_entered integrity stored receipt.amount
    have record : receipt.record? (some now) user =
        some ⟨receipt.payment, user, receipt.fee, keptNumber amount, stamp now, stamp now⟩ := by
      unfold Receipt.record?
      rw [charged, gross, readable]
      rfl
    have event : receipt.charge? user =
        some (.charged receipt.payment user receipt.fee amount receipt.amount) := by
      unfold Receipt.charge?
      rw [charged, gross]
      rfl
    rw [left, Book.charge_eq]
    refine ⟨?_, ?_, ?_, ?_, place, ?_⟩
    · rw [← readable]
      exact amended
    · rw [put, record]
      rfl
    · rw [entered]
      rfl
    · rw [event, entered]
      rfl
    · rw [entered]
      rfl

end

section

variable {now : Instant} {user : UserId} {description : Option String} {receipt : Receipt}
  {before after : Book} (entered : Entered now user description receipt before after)
include entered

theorem Entered.below : receipt.payment < after.nextPayment := by
  rw [entered.number, entered.next]
  exact Int.lt_succ _

theorem Entered.findPayment? (ordered : Ordered before) :
    after.findPayment? receipt.payment = some (receipt.line (some now) user description).1 := by
  have unused := ordered.findPayment?_next
  unfold Book.findPayment? at unused ⊢
  rw [entered.payments, List.find?_append, entered.number, unused, Option.none_or,
    ← entered.number]
  exact List.find?_cons_of_pos (beq_self_eq_true receipt.payment)

theorem Entered.others (integrity : Integrity before) :
    after.paymentsBut receipt.payment = before.payments ∧
      after.recordsBut receipt.payment = before.records := by
  have older : ∀ p ∈ before.payments, (p.id != receipt.payment) = true := by
    intro p present
    rw [entered.number]
    exact bne_iff_ne.mpr (integrity.next p present).ne
  have charged : ∀ r ∈ before.records, (r.payment != receipt.payment) = true := by
    intro r present
    rw [entered.number]
    exact bne_iff_ne.mpr (integrity.records_below r present).ne
  have own : ∀ r ∈ (receipt.record? (some now) user).toList,
      ¬ (r.payment != receipt.payment) = true := by
    intro r added
    obtain ⟨fee, -, rfl⟩ := Option.map_eq_some_iff.mp (Option.mem_toList.mp added)
    simp
  unfold Book.paymentsBut Book.recordsBut
  constructor
  · rw [entered.payments, List.filter_append, List.filter_eq_self.mpr older]
    simp [Receipt.line]
  · rw [entered.records, List.filter_append, List.filter_eq_self.mpr charged,
      List.filter_eq_nil_iff.mpr own, List.append_nil]

end

theorem Refunded.deleted {now : Instant} {id : PaymentId} {before mid : Book} {fee : Float}
    (refunded : Refunded now id before fee mid) :
    (mid.deletePayment id).payments = before.paymentsBut id ∧
      (mid.deletePayment id).records = before.recordsBut id ∧
      (mid.deletePayment id).plans = before.plans ∧
      (mid.deletePayment id).nextPayment = before.nextPayment := by
  cases refunded with
  | nothing => exact ⟨rfl, rfl, rfl, rfl⟩
  | fee =>
    exact ⟨rfl, Book.removed_others (fun r : FeeRecord Stamp => r.payment) before.records id, rfl,
      rfl⟩

namespace Store

section

variable {now : Instant} {store : Store} (tables : store.book.hasTables = true) {id : PaymentId}
  (readable : ∀ record, store.book.findRecord? id = some record →
    record.createdAt.isSome = true ∧ record.updatedAt.isSome = true)
include tables readable

theorem exists_refundFee : ∃ fee, ((refundFee now id).run store).1 = .ok fee := by
  unfold refundFee
  rw [transaction_fst]
  generalize opening : ({ store with isOpen := true } : Store) = opened
  have book : opened.book = store.book := by rw [← opening]
  rw [← book] at tables readable
  cases found : opened.book.findRecord? id with
  | none =>
    have looked := run_record? tables id
    rw [found] at looked
    rw [Action.run_bind_of_ok looked]
    exact ⟨0.0, rfl⟩
  | some row =>
    obtain ⟨created, updated⟩ := readable row found
    obtain ⟨record, read⟩ := FeeRecord.exists_read created updated
    have looked := run_record?_of_found tables found
    rw [read] at looked
    have logged := @run_recordEvent { opened with book := opened.book.removeRecord id } tables now
      (.refunded id record.user record.fee)
    rw [Action.run_bind_of_ok looked]
    dsimp only
    rw [Action.run_bind_of_ok (run_removeRecord tables id), Action.run_bind_of_ok logged]
    exact ⟨record.fee, rfl⟩

theorem exists_deletePayment {p : Payment Stamp} (stands : store.book.findPayment? id = some p)
    (dated : p.createdAt.isSome = true) :
    ∃ fee, ((Service.deletePayment now id).run store).1 = .ok fee := by
  unfold Service.deletePayment
  rw [transaction_fst]
  generalize opening : ({ store with isOpen := true } : Store) = opened
  have book : opened.book = store.book := by rw [← opening]
  rw [← book] at tables readable stands
  obtain ⟨payment, read⟩ := Payment.exists_read dated
  have looked := run_payment? tables stands
  rw [read] at looked
  obtain ⟨fee, refunded⟩ := @exists_refundFee now opened tables id readable
  rcases ran : (refundFee now id : Action _).run opened with ⟨result, mid⟩
  rw [ran] at refunded
  cases refunded
  have made : mid.book.hasTables = true :=
    (refundFee_outcome ran).confined.hasTables.trans tables
  rw [Action.run_bind_of_ok looked, Option.isNone_some, if_neg Bool.false_ne_true,
    Action.run_bind_of_ok ran, Action.run_bind]
  unfold deletePayment
  rw [run_statement, if_pos made]
  exact ⟨fee, rfl⟩

end

/-- What a deletion takes back of a recording. Nothing but the rows of the payment is dropped from
the book before the deletion, the charge and its return are the only entries about the payment, and
the number is not given away again. -/
structure Undone (now later : Instant) (user : UserId) (receipt : Receipt)
    (store paid before last : Store) : Prop where
  payments : last.book.payments = before.book.paymentsBut receipt.payment
  records : last.book.records = before.book.recordsBut receipt.payment
  plans : last.book.plans = before.book.plans
  charged : paid.book.log = store.book.logWith now (receipt.charge? user)
  between : before.book.entriesOn receipt.payment = paid.book.entriesOn receipt.payment
  refunded : last.book.log = before.book.logWith later (receipt.refund? user)
  stored : ∀ config steps, ∀ p ∈ (afterScripts config last steps).book.payments,
    p.id ≠ receipt.payment
  entered : ∀ config steps time (script : Script),
    receipt.payment ∉ ((script.run config time).run (afterScripts config last steps)).1.entered

theorem not_given_again {store : Store} {id : PaymentId}
    (absent : ∀ p ∈ store.book.payments, p.id ≠ id) (below : id < store.book.nextPayment)
    (config : Config) (steps : List (Instant × Script)) :
    (∀ p ∈ (afterScripts config store steps).book.payments, p.id ≠ id) ∧
      ∀ time (script : Script),
        id ∉ ((script.run config time).run (afterScripts config store steps)).1.entered := by
  have continues := afterScripts_continues config store steps
  refine ⟨fun p present => ?_, fun time script given => ?_⟩
  · rcases continues.payments p present with ⟨q, stood, same⟩ | later
    · rw [← same]
      exact absent q stood
    · exact (below.trans_le later).ne'
  · have next := script.entersNext config time _ id given
    exact absurd (below.trans_le (continues.next.trans next)) (lt_irrefl id)

section

variable {now : Instant} {user : UserId} {amount : Float} {description : Option String}
  {receipt : Receipt} {store paid : Store}
  (told : Recorded now user amount description store receipt paid) {before : Book}
  (kept : before.findRecord? receipt.payment = paid.book.findRecord? receipt.payment)
include told kept

/-- The record that still stands is the one that the receipt tells, at the time of the clock. -/
theorem Recorded.readable {record : FeeRecord Stamp}
    (found : before.findRecord? receipt.payment = some record) :
    record.createdAt.isSome = true ∧ record.updatedAt.isSome = true := by
  rw [kept] at found
  by_cases positive : 0.0 < receipt.fee
  · cases (told.charged positive).symm.trans found
    exact ⟨rfl, rfl⟩
  · cases (told.free positive).1.symm.trans found

theorem Recorded.refunded {later : Instant} {fee : Float} {mid : Book}
    (refunded : Refunded later receipt.payment before fee mid) :
    fee = receipt.fee ∧ mid.log = before.logWith later (receipt.refund? user) := by
  by_cases positive : 0.0 < receipt.fee
  · have standing := kept.trans (told.charged positive)
    have event : receipt.refund? user = some (.refunded receipt.payment user receipt.fee) :=
      congrArg (Option.map _) (if_pos positive)
    rw [event]
    cases refunded with
    | nothing uncharged => cases standing.symm.trans uncharged
    | fee charged =>
      cases standing.symm.trans charged
      exact ⟨rfl, rfl⟩
  · obtain ⟨absent, zero, -⟩ := told.free positive
    have event : receipt.refund? user = none := congrArg (Option.map _) (if_neg positive)
    rw [event, zero]
    cases refunded with
    | nothing => exact ⟨rfl, (List.append_nil _).symm⟩
    | fee charged => cases (kept.trans absent).symm.trans charged

end

/-- Deleting undoes recording, after any history and whatever is done to other payments and to plans
in between. The deletion succeeds and gives back exactly the fee of the receipt; of the book before
it only the rows of the payment are dropped, so that right after the recording the payments, records
and plans are again those before it. The charge and its return are all that is logged about the
payment, if its fee was above zero. -/
theorem deletion_undoes (config : Config) {store : Store} (scripted : store.Scripted)
    {now : Instant} {user : UserId} {amount : Float} {description : Option String}
    {receipt : Receipt} {paid : Store}
    (returned : (Service.recordPayment config now user amount description).run store =
      (.ok receipt, paid)) {steps : List (Instant × Request)}
    (others : ∀ step ∈ steps, ¬ step.2.Concerns receipt.payment) (later : Instant) :
    let before := afterAll config paid steps
    let deleted := (Service.deletePayment later receipt.payment).run before
    deleted.1 = .ok receipt.fee ∧
      Undone now later user receipt store paid before deleted.2 ∧
      (steps = [] → deleted.2.book.payments = store.book.payments ∧
        deleted.2.book.records = store.book.records ∧
        deleted.2.book.plans = store.book.plans) := by
  intro before deleted
  obtain ⟨closed, tables, integrity⟩ := scripted.sound
  have entered := Service.recordPayment_entered integrity returned
  have told := recorded tables integrity returned
  obtain ⟨same, written⟩ := @Service.writes_recordPayment (fun _ => False) config now user amount
    description store
  rw [returned] at same written
  have made : paid.book.hasTables = true := written.continues.tables tables
  have shut : paid.isOpen = false := same.trans closed
  obtain ⟨-, there, spares⟩ := afterAll_spares config others shut made entered.below
  have stands := spares.payment.trans (entered.findPayment? integrity.toOrdered)
  obtain ⟨fee, answered⟩ := @exists_deletePayment later before there receipt.payment
    (fun _ found => told.readable spares.record found) _ stands rfl
  obtain ⟨-, mid, refunded, left⟩ := Service.deletePayment_outcome (Prod.ext answered rfl)
  obtain ⟨rfl, log⟩ := told.refunded spares.record refunded
  obtain ⟨payments, records, plans, next⟩ := refunded.deleted
  rw [← left] at payments records plans next
  have absent : ∀ p ∈ deleted.2.book.payments, p.id ≠ receipt.payment := by
    intro p present
    rw [payments] at present
    exact bne_iff_ne.mp (List.mem_filter.mp present).2
  have below : receipt.payment < deleted.2.book.nextPayment := by
    rw [next]
    exact entered.below.trans_le spares.next
  have never := not_given_again absent below
  refine ⟨answered, ⟨payments, records, plans, entered.log, spares.entries, ?_,
    fun config steps => (never config steps).1, fun config steps => (never config steps).2⟩, ?_⟩
  · rw [← log, left]
    rfl
  · rintro rfl
    obtain ⟨others, charges⟩ := entered.others integrity
    exact ⟨payments.trans others, records.trans charges, plans.trans entered.plans⟩

theorem deletion_undoes_tithe :
    let store := afterScripts .standard fresh
      [(⟨0, 0⟩, .request (.savePlan 1 ⟨.formula, "x * 0.1", [0.0], .empty⟩))]
    let recorded := (Service.recordPayment .standard ⟨1, 0⟩ 1 10.0 none).run store
    let steps : List (Instant × Request) := [(⟨2, 0⟩, .recordPayment 1 20.0 none),
      (⟨3, 0⟩, .savePlan 1 .unconfigured), (⟨4, 0⟩, .updatePayment 2 30.0)]
    let before := afterAll .standard recorded.2 steps
    let deleted := (Service.deletePayment ⟨5, 0⟩ 1).run before
    store.Scripted ∧ recorded.1 = .ok ⟨1, 1.0, 9.0, 10.0⟩ ∧
      (∀ step ∈ steps, ¬ step.2.Concerns 1) ∧ deleted.1 = .ok 1.0 ∧
      before.book.payments.map (·.amount) = [9.0, 30.0] ∧
      Undone ⟨1, 0⟩ ⟨5, 0⟩ 1 ⟨1, 1.0, 9.0, 10.0⟩ store recorded.2 before deleted.2 := by
  intro store recorded steps before deleted
  have scripted : store.Scripted := ⟨_, _, rfl⟩
  have answered : recorded.1 = .ok ⟨1, 1.0, 9.0, 10.0⟩ := by decide +kernel
  have others : ∀ step ∈ steps, ¬ step.2.Concerns 1 := by
    simp [steps, Request.Concerns]
  obtain ⟨refunded, undone, -⟩ := deletion_undoes .standard scripted (Prod.ext answered rfl) others
    ⟨5, 0⟩
  exact ⟨scripted, answered, others, refunded, by decide +kernel, undone⟩

end Store

end PaymentFees
