import PaymentFees.Proofs.Honoured
import PaymentFees.Proofs.Recomputation

/-!
Two ways to charge a payment that has no fee yet. One refuses a payment with a record and stops
early if there is no fee; the other replaces whatever stood and writes the amount in any case. On a
payment without a record, at its stored amount, they do the same.
-/

namespace PaymentFees

open Binary

namespace Store

theorem run_transaction_of {α : Type} {store : Store} {body : Action α} {result : Except Failure α}
    {book : Book} (ran : body.run { store with isOpen := true } = (result, ⟨book, true⟩))
    (unchanged : isFailure result = true → book = store.book) :
    (transaction body).run store = (result, { store with book := book }) := by
  cases opened : store.isOpen with
  | true =>
    have same : ({ store with isOpen := true } : Store) = store := by rw [← opened]
    rw [transaction_open opened, ← same, ran]
  | false =>
    rw [run_transaction_closed body opened, ran]
    cases result with
    | ok value => rfl
    | error failure =>
      rw [unchanged rfl, ← opened]

section

variable (now : Instant) {store : Store} (tables : store.book.hasTables = true) {id : PaymentId}
  (stands : (store.book.findPayment? id).isSome = true) (user : UserId) {fee gross net : Float}
  (positive : 0.0 < fee) (finite : gross.isFinite = true) (number : net.isNaN = false)
  (event : FeeEvent)
include tables stands positive finite number

theorem run_setAmount_saveRecord :
    (do
      setAmount id net
      saveRecord ⟨id, user, fee, gross, now, now⟩
      recordEvent now event
      return ⟨fee, net⟩ : Action FeeOutcome).run store =
      (.ok ⟨fee, net⟩, { store with book := store.book.charge now id user fee gross net event }) := by
  obtain ⟨a, read, -⟩ := extent_of_lt positive
  have unsigned : Unsigned fee := ⟨a, read⟩
  have paid : ((store.book.withAmount id net).findPayment? id).isSome = true := by
    rw [Book.findPayment?_withAmount, Option.isSome_map]
    exact stands
  have saved := @run_saveRecord { store with book := store.book.withAmount id net } tables
    ⟨id, user, fee, gross, now, now⟩ unsigned.isNaN (isNaN_of_isFinite finite) unsigned.not_lt paid
  have made := (Book.hasTables_putRecord (store.book.withAmount id net)
    ⟨id, user, fee, gross, stamp now, stamp now⟩).trans tables
  rw [Action.run_bind_of_ok (run_setAmount tables id number), Action.run_bind_of_ok saved,
    Action.run_bind_of_ok (run_recordEvent made now event)]
  dsimp only
  rw [Book.putRecord_withAmount]
  rfl

theorem run_saveRecord_setAmount :
    (do
      saveRecord ⟨id, user, fee, gross, now, now⟩
      recordEvent now event
      setAmount id net
      return ⟨fee, net⟩ : Action FeeOutcome).run store =
      (.ok ⟨fee, net⟩, { store with book := store.book.charge now id user fee gross net event }) := by
  obtain ⟨a, read, -⟩ := extent_of_lt positive
  have unsigned : Unsigned fee := ⟨a, read⟩
  have saved := @run_saveRecord store tables ⟨id, user, fee, gross, now, now⟩ unsigned.isNaN
    (isNaN_of_isFinite finite) unsigned.not_lt stands
  have made := (store.book.hasTables_putRecord
    ⟨id, user, fee, gross, stamp now, stamp now⟩).trans tables
  have amended := @run_setAmount ⟨(store.book.putRecord
    ⟨id, user, fee, gross, stamp now, stamp now⟩).note now event, store.isOpen⟩ made id net number
  rw [Action.run_bind_of_ok saved, Action.run_bind_of_ok (run_recordEvent made now event),
    Action.run_bind_of_ok amended]
  rfl

end

end Store

theorem ReadOnly.run_cases {α : Type} {action : Action α} (reads : ReadOnly action)
    (store : Store) :
    (∃ failure, action.run store = (.error failure, store)) ∨
      ∃ value, action.run store = (.ok value, store) := by
  have same := reads.after_eq store
  rcases ran : action.run store with ⟨failure | value, after⟩
  · rw [ran] at same
    cases same
    exact .inl ⟨failure, rfl⟩
  · rw [ran] at same
    cases same
    exact .inr ⟨value, rfl⟩

open Store

/-- How a first charge goes, and how a recomputation of the stored amount does. -/
inductive FirstCharges (rounding : Rounding) (now now' : Instant) (store : Store)
    (p : Payment Stamp) :
    Except Failure FeeOutcome × Store → Except Failure FeeOutcome × Store → Prop
  | failed (failure : Failure) :
    FirstCharges rounding now now' store p (.error failure, store) (.error failure, store)
  | free {fee : Float} (zero : (0.0 == fee) = true) :
    FirstCharges rounding now now' store p (.ok ⟨0.0, p.amount⟩, store)
      (.ok ⟨fee, p.amount⟩, { store with book := store.book.withAmount p.id p.amount })
  | charged {fee net : Float} (positive : 0.0 < fee)
      (left : net = amountAfterFee rounding p.amount fee) :
    FirstCharges rounding now now' store p
      (.ok ⟨fee, net⟩, ⟨store.book.charge now p.id p.user fee p.amount net
        (.charged p.id p.user fee p.amount net), store.isOpen⟩)
      (.ok ⟨fee, net⟩, ⟨store.book.charge now' p.id p.user fee p.amount net
        (.recomputed p.id p.user none fee p.amount net), store.isOpen⟩)

theorem FirstCharges.transaction {rounding : Rounding} {now now' : Instant} {store : Store}
    {p : Payment Stamp} {body body' : Action FeeOutcome}
    (runs : FirstCharges rounding now now' { store with isOpen := true } p
      (body.run { store with isOpen := true }) (body'.run { store with isOpen := true })) :
    FirstCharges rounding now now' store p ((Store.transaction body).run store)
      ((Store.transaction body').run store) := by
  generalize ran : body.run { store with isOpen := true } = first at runs
  generalize ran' : body'.run { store with isOpen := true } = second at runs
  cases runs with
  | failed failure =>
    rw [run_transaction_of ran fun _ => rfl, run_transaction_of ran' fun _ => rfl]
    exact .failed failure
  | free zero =>
    rw [run_transaction_of ran nofun, run_transaction_of ran' nofun]
    exact .free zero
  | charged positive left =>
    rw [run_transaction_of ran nofun, run_transaction_of ran' nofun]
    exact .charged positive left

theorem firstCharges (config : Config) (now now' : Instant) {store : Store} {p : Payment Stamp}
    (stands : store.book.findPayment? p.id = some p)
    (uncharged : store.book.findRecord? p.id = none) (finite : p.amount.isFinite = true) :
    FirstCharges config.rounding now now' store p ((chargeFee config now p.id).run store)
      ((recomputeFee config now' p.id p.amount).run store) := by
  rw [recomputeFee_eq config now' p.id finite]
  apply FirstCharges.transaction
  generalize opening : ({ store with isOpen := true } : Store) = opened
  have book : opened.book = store.book := by rw [← opening]
  rw [← book] at stands uncharged
  obtain ⟨failure, required⟩ | ⟨payment, required⟩ :=
    (readOnly_requirePayment p.id).run_cases opened
  · rw [Action.run_bind, Action.run_bind, required]
    exact .failed failure
  obtain ⟨-, row, time, found, -, rfl⟩ := requirePayment_ok required
  cases stands.symm.trans found
  have tables := requirePayment_tables required
  have looked := run_record? tables p.id
  rw [uncharged] at looked
  rw [Action.run_bind_of_ok required, Action.run_bind_of_ok required, Action.run_bind_of_ok looked,
    Action.run_bind_of_ok looked, Option.isSome_none, if_neg Bool.false_ne_true]
  obtain ⟨failure, quoted⟩ | ⟨fee, quoted⟩ :=
    (readOnly_quote config p.user p.amount).run_cases opened
  · rw [Action.run_bind, Action.run_bind, quoted]
    exact .failed failure
  rw [Action.run_bind_of_ok quoted, Action.run_bind_of_ok quoted]
  have nonnegative := (of_yields_action (Quote.fee_fits config sources p.user finite) quoted).1
  have paid := Option.isSome_of_eq_some stands
  unfold settleFee
  -- One body asks whether the fee is at most zero, the other whether it is above.
  obtain ⟨positive, above⟩ | ⟨small, below, zero⟩ := lt_or_beq_of_zero_le nonnegative
  · have unsigned : Unsigned fee := by
      obtain ⟨a, read, -⟩ := extent_of_lt positive
      exact ⟨a, read⟩
    have number := isNaN_amountAfterFee finite unsigned.isNaN config.rounding
    simp only [if_neg above, if_pos positive]
    rw [run_setAmount_saveRecord now tables paid p.user positive finite number,
      run_saveRecord_setAmount now' tables paid p.user positive finite number]
    exact .charged positive rfl
  · simp only [if_pos below, if_neg small]
    rw [run_setAmount_return opened tables paid]
    unfold ending
    rw [isNaN_of_isFinite finite, if_neg Bool.false_ne_true]
    exact .free zero

/-- A payment as it is kept: an amount of zero has no sign. -/
def Payment.kept {Time : Type} (p : Payment Time) : Payment Time :=
  { p with amount := keptNumber p.amount }

namespace Book

theorem insertRecord_map_congr {α : Type} {f : FeeRecord Stamp → α} {row row' : FeeRecord Stamp}
    (place : row.payment = row'.payment) (same : f row = f row') (rows : List (FeeRecord Stamp)) :
    (insertRecord row rows).map f = (insertRecord row' rows).map f := by
  induction rows with
  | nil => exact congrArg (fun value => [value]) same
  | cons r rows ih =>
    unfold insertRecord
    rw [place]
    split
    · simp only [List.map_cons, same]
    · rw [List.map_cons, List.map_cons, ih]

section

variable {book : Book} (keyed : book.payments.Pairwise (·.id < ·.id)) {p : Payment Stamp}
  (stored : p ∈ book.payments)
include keyed stored

theorem eq_of_id {q : Payment Stamp} (present : q ∈ book.payments) (same : q.id = p.id) :
    q = p := by
  have found := find?_of_mem (fun p : Payment Stamp => p.id) keyed present
  rw [same, find?_of_mem (fun p : Payment Stamp => p.id) keyed stored] at found
  exact (Option.some.inj found).symm

theorem kept_withAmount_own :
    (book.withAmount p.id p.amount).payments.map Payment.kept =
      book.payments.map Payment.kept := by
  unfold withAmount
  rw [List.map_map]
  apply List.map_congr_left
  intro q present
  dsimp only [Function.comp_apply]
  split
  · next same =>
    rw [eq_of_id keyed stored present same]
    unfold Payment.kept
    rw [keptNumber_keptNumber]
  · rfl

theorem withAmount_own (kept : keptNumber p.amount = p.amount) :
    (book.withAmount p.id p.amount).payments = book.payments := by
  have each : ∀ q ∈ book.payments,
      (if q.id = p.id then { q with amount := keptNumber p.amount } else q) = q := by
    intro q present
    split
    · next same =>
      rw [eq_of_id keyed stored present same, kept]
    · rfl
  exact (List.map_congr_left each).trans (List.map_id' _)

end

theorem records_charge_retimed {book : Book} {id : PaymentId} (uncharged : book.findRecord? id = none)
    (now now' : Instant) (user : UserId) (fee gross net : Float) (event event' : FeeEvent) :
    (book.charge now id user fee gross net event).records.map (·.retimed fun _ => ()) =
      (book.charge now' id user fee gross net event').records.map (·.retimed fun _ => ()) := by
  have added (time : Instant) (event : FeeEvent) :
      (book.charge time id user fee gross net event).records =
        insertRecord (kept ⟨id, user, fee, gross, stamp time, stamp time⟩) book.records := by
    unfold charge putRecord
    rw [uncharged, Option.isSome_none, if_neg Bool.false_ne_true]
    rfl
  rw [added now event, added now' event']
  apply insertRecord_map_congr <;> rfl

end Book

/-- Two runs on a payment without a fee fail alike and change nothing, or give the same outcome and
leave the same payments, plans and records, the times of the new record apart. Both log nothing, or
one entry each, which tell the same of the fee and differ in kind. -/
structure ChargedAlike (now now' : Instant) (store : Store) (p : Payment Stamp)
    (first second : Except Failure FeeOutcome × Store) : Prop where
  answer : Outcomes (fun o o' => (o.fee == o'.fee) = true ∧ o.netAmount = o'.netAmount)
    first.1 second.1
  failed : ∀ failure, first.1 = .error failure → first.2 = store ∧ second.2 = store
  isOpen : first.2.isOpen = store.isOpen ∧ second.2.isOpen = store.isOpen
  numbers : first.2.book.nextPayment = store.book.nextPayment ∧
    second.2.book.nextPayment = store.book.nextPayment
  payments : first.2.book.payments.map Payment.kept = second.2.book.payments.map Payment.kept
  exactly : keptNumber p.amount = p.amount → first.2.book.payments = second.2.book.payments
  plans : first.2.book.plans = second.2.book.plans
  records : first.2.book.records.map (·.retimed fun _ => ()) =
    second.2.book.records.map (·.retimed fun _ => ())
  log : first.2.book.log = store.book.log ∧ second.2.book.log = store.book.log ∨
    ∃ fee net, first.1 = .ok ⟨fee, net⟩ ∧ second.1 = .ok ⟨fee, net⟩ ∧ 0.0 < fee ∧
      first.2.book.log = store.book.log ++
        [(FeeEvent.charged p.id p.user fee p.amount net).entry store.book.nextEntry now] ∧
      second.2.book.log = store.book.log ++
        [(FeeEvent.recomputed p.id p.user none fee p.amount net).entry store.book.nextEntry now']

namespace Store

/-- Charging a payment for the first time and computing its fee again for its stored amount are the
same. It does not matter what the plan is, what else was paid, whether there is a fee, whether the
tables were made or a transaction is open, and which times the clock shows. Of the table of payments
it is only used that it has one row a number, in their order. A fee of zero may have a sign in one
of the answers. -/
theorem charged_alike (config : Config) (now now' : Instant) {store : Store}
    (keyed : store.book.payments.Pairwise (·.id < ·.id)) {p : Payment Stamp}
    (stored : p ∈ store.book.payments) (uncharged : store.book.findRecord? p.id = none)
    (finite : p.amount.isFinite = true) :
    ChargedAlike now now' store p ((chargeFee config now p.id).run store)
      ((recomputeFee config now' p.id p.amount).run store) := by
  have stands := find?_of_mem (fun p : Payment Stamp => p.id) keyed stored
  have runs := firstCharges config now now' stands uncharged finite
  generalize (chargeFee config now p.id).run store = first at runs ⊢
  generalize (recomputeFee config now' p.id p.amount).run store = second at runs ⊢
  cases runs with
  | failed failure =>
    exact ⟨.error failure, fun _ _ => ⟨rfl, rfl⟩, ⟨rfl, rfl⟩, ⟨rfl, rfl⟩, rfl, fun _ => rfl, rfl, rfl,
      .inl ⟨rfl, rfl⟩⟩
  | free zero =>
    refine ⟨.ok ⟨zero, rfl⟩, nofun, ⟨rfl, rfl⟩, ⟨rfl, rfl⟩, ?_, fun kept => ?_, rfl, rfl,
      .inl ⟨rfl, rfl⟩⟩
    · exact (Book.kept_withAmount_own keyed stored).symm
    · exact (Book.withAmount_own keyed stored kept).symm
  | @charged fee net positive left =>
    obtain ⟨a, read, -⟩ := extent_of_lt positive
    have same : (fee == fee) = true := beq_self (Unsigned.isNaN ⟨a, read⟩)
    have records := Book.records_charge_retimed uncharged now now' p.user fee p.amount net
      (.charged p.id p.user fee p.amount net) (.recomputed p.id p.user none fee p.amount net)
    rw [Book.charge_eq, Book.charge_eq] at records ⊢
    exact ⟨.ok ⟨same, rfl⟩, nofun, ⟨rfl, rfl⟩, ⟨rfl, rfl⟩, rfl, fun _ => rfl, rfl, records,
      .inr ⟨fee, net, rfl, rfl, positive, rfl, rfl⟩⟩

theorem charged_alike_tithe :
    let store := afterAll .standard fresh
      [(⟨0, 0⟩, .savePlan 1 ⟨.formula, "x * 0.1", [0.0], .empty⟩),
        (⟨0, 0⟩, .insertPayment 1 10.0 none)]
    let p : Payment Stamp := ⟨1, 1, 10.0, none, some ⟨0, 0⟩⟩
    let charged := (chargeFee .standard ⟨1, 0⟩ 1).run store
    let recomputed := (recomputeFee .standard ⟨2, 0⟩ 1 10.0).run store
    store.book.payments.Pairwise (·.id < ·.id) ∧ p ∈ store.book.payments ∧
      store.book.findRecord? 1 = none ∧ p.amount.isFinite = true ∧
      charged.1 = .ok ⟨1.0, 9.0⟩ ∧ charged.2.book.log.length = store.book.log.length + 1 ∧
      ChargedAlike ⟨1, 0⟩ ⟨2, 0⟩ store p charged recomputed := by
  intro store p charged recomputed
  have payments : store.book.payments = [p] := by decide +kernel
  have keyed : store.book.payments.Pairwise (·.id < ·.id) := by
    rw [payments]
    exact List.pairwise_singleton _ _
  have stored : p ∈ store.book.payments := by
    rw [payments]
    exact List.mem_singleton_self p
  have uncharged : store.book.findRecord? 1 = none := by decide +kernel
  have finite : p.amount.isFinite = true := by decide
  exact ⟨keyed, stored, uncharged, finite, by decide +kernel, by decide +kernel,
    charged_alike .standard ⟨1, 0⟩ ⟨2, 0⟩ keyed stored uncharged finite⟩

end Store

end PaymentFees
