import PaymentFees.Proofs.Abreast
import PaymentFees.Proofs.Chronicle
import PaymentFees.Proofs.Integrity
import PaymentFees.Proofs.Statements

/-!
A recomputation forgets what was charged before: what it answers and leaves depends on the payments
and the plans alone, not on the record that stood or on the log.
-/

namespace PaymentFees

open Binary

namespace Book

def recordsBut (book : Book) (id : PaymentId) : List (FeeRecord Stamp) :=
  book.records.filter (·.payment != id)

theorem insertRecord_others (row : FeeRecord Stamp) (rows : List (FeeRecord Stamp)) :
    (insertRecord row rows).filter (·.payment != row.payment) =
      rows.filter (·.payment != row.payment) := by
  induction rows with
  | nil => simp [insertRecord]
  | cons r rows ih =>
    unfold insertRecord
    split
    · simp
    · rw [List.filter_cons, List.filter_cons, ih]

theorem putRecord_others (book : Book) (row : FeeRecord Stamp) :
    (book.putRecord row).recordsBut row.payment = book.recordsBut row.payment := by
  unfold putRecord recordsBut
  split
  · have apart : ∀ r ∈ book.records.filter (·.payment != row.payment),
        (if r.payment = row.payment then renewed row r else r) = r := by
      intro r there
      exact if_neg (by simpa using (List.mem_filter.mp there).2)
    have places : ((fun r : FeeRecord Stamp => r.payment != row.payment) ∘ fun r =>
        if r.payment = row.payment then renewed row r else r) = (·.payment != row.payment) := by
      funext r
      dsimp only [Function.comp_apply]
      split <;> rfl
    rw [List.filter_map, places, List.map_congr_left apart, List.map_id']
  · exact insertRecord_others (kept row) book.records

theorem removeRecord_others (book : Book) (id : PaymentId) :
    (book.removeRecord id).recordsBut id = book.recordsBut id := by
  unfold removeRecord recordsBut
  rw [List.filter_filter]
  simp only [Bool.and_self]

theorem charges_putRecord (book : Book) {row : FeeRecord Stamp}
    (mine : ∀ r, book.findRecord? row.payment = some r → r.user = row.user) :
    (book.putRecord row).account.charges row.payment =
      some ⟨row.user, keptNumber row.fee, keptNumber row.grossAmount⟩ := by
  simp only [account, findRecord?_putRecord, if_true, Option.map_some, putRow]
  cases found : book.findRecord? row.payment with
  | none => rfl
  | some old => simp [renewed, mine old found]

end Book

/-- The books hold the same but for the record of one payment and the log. -/
structure SameBut (id : PaymentId) (first second : Book) : Prop where
  hasTables : first.hasTables = second.hasTables
  payments : first.payments = second.payments
  nextPayment : first.nextPayment = second.nextPayment
  plans : first.plans = second.plans
  others : first.recordsBut id = second.recordsBut id

namespace SameBut

variable {id : PaymentId} {first second third : Book}

theorem symm (same : SameBut id first second) : SameBut id second first :=
  ⟨same.hasTables.symm, same.payments.symm, same.nextPayment.symm, same.plans.symm,
    same.others.symm⟩

theorem trans (same : SameBut id first second) (next : SameBut id second third) :
    SameBut id first third :=
  ⟨same.hasTables.trans next.hasTables, same.payments.trans next.payments,
    same.nextPayment.trans next.nextPayment, same.plans.trans next.plans,
    same.others.trans next.others⟩

theorem withAmount (same : SameBut id first second) (k : PaymentId) (amount : Float) :
    SameBut id (first.withAmount k amount) (second.withAmount k amount) := by
  refine ⟨same.hasTables, ?_, same.nextPayment, same.plans, same.others⟩
  unfold Book.withAmount
  rw [same.payments]

theorem note (book : Book) (id : PaymentId) (now : Instant) (event : FeeEvent) :
    SameBut id book (book.note now event) :=
  ⟨rfl, rfl, rfl, rfl, rfl⟩

theorem putRecord (book : Book) (row : FeeRecord Stamp) :
    SameBut row.payment book (book.putRecord row) := by
  have others := (book.putRecord_others row).symm
  obtain ⟨records, same⟩ := book.putRecord_records row
  rw [same] at others ⊢
  exact ⟨rfl, rfl, rfl, rfl, others⟩

theorem removeRecord (book : Book) (id : PaymentId) : SameBut id book (book.removeRecord id) :=
  ⟨rfl, rfl, rfl, rfl, (book.removeRecord_others id).symm⟩

theorem findPayment? (same : SameBut id first second) (k : PaymentId) :
    first.findPayment? k = second.findPayment? k := by
  unfold Book.findPayment?
  rw [same.payments]

end SameBut

/-- If the payment has a record, it is its user's and its times can be read. -/
def Ready (id : PaymentId) (book : Book) : Prop :=
  ∀ record, book.findRecord? id = some record →
    record.createdAt.isSome = true ∧ record.updatedAt.isSome = true ∧
      ∀ payment, book.findPayment? id = some payment → record.user = payment.user

namespace Store

def settleFee (config : Config) (now : Instant) (id : PaymentId) (user : UserId) (gross : Float)
    (existing : Option (FeeRecord Instant)) (fee : Float) : Action FeeOutcome := do
  let net := if fee > 0.0 then amountAfterFee config.rounding gross fee else gross
  if fee > 0.0 then
    match existing with
    | some record => saveRecord { record with fee := fee, grossAmount := gross, updatedAt := now }
    | none => saveRecord ⟨id, user, fee, gross, now, now⟩
    recordEvent now (.recomputed id user (existing.map (·.fee)) fee gross net)
  else
    match existing with
    | some record =>
      removeRecord id
      recordEvent now (.cleared id user record.fee gross)
    | none => pure ()
  setAmount id net
  return ⟨fee, net⟩

theorem recomputeFee_eq (config : Config) (now : Instant) (id : PaymentId) {gross : Float}
    (finite : gross.isFinite = true) :
    recomputeFee config now id gross = transaction (do
      let payment ← requirePayment id
      let existing ← record? id
      let fee ← Quote.fee config sources payment.user gross
      settleFee config now id payment.user gross existing fee) := by
  unfold recomputeFee
  rw [finite, Bool.not_true, if_neg Bool.false_ne_true]
  rfl

def ending (id : PaymentId) (fee net : Float) (store : Store) :
    Except Failure FeeOutcome × Store :=
  if net.isNaN then (.error (.storage (.missingValue "payment.amount")), store)
  else (.ok ⟨fee, net⟩, { store with book := store.book.withAmount id net })

section

variable (store : Store) (tables : store.book.hasTables = true)
include tables

variable {id : PaymentId} (stands : (store.book.findPayment? id).isSome = true)
include stands

theorem run_setAmount_return (fee net : Float) :
    (do setAmount id net; return ⟨fee, net⟩ : Action FeeOutcome).run store =
      ending id fee net store := by
  unfold setAmount ending
  rw [Action.run_bind, run_statement, if_pos tables]
  unfold Book.setAmount
  rw [stands, Bool.and_true]
  cases net.isNaN <;> rfl

theorem run_recordEvent_setAmount (now : Instant) (event : FeeEvent) (fee net : Float) :
    (do recordEvent now event; setAmount id net; return ⟨fee, net⟩ : Action FeeOutcome).run store =
      ending id fee net { store with book := store.book.note now event } := by
  rw [Action.run_bind_of_ok (run_recordEvent tables now event)]
  exact run_setAmount_return { store with book := store.book.note now event } tables stands fee net

theorem exists_run_saveRecord_settled (now : Instant) (record : FeeRecord Instant)
    (place : record.payment = id) (unsigned : Unsigned record.fee)
    (gross : record.grossAmount.isNaN = false)
    (mine : ∀ r, store.book.findRecord? id = some r → r.user = record.user) (event : FeeEvent)
    (fee net : Float) :
    ∃ mid, SameBut id store.book mid ∧
      mid.account.charges id =
        some ⟨record.user, keptNumber record.fee, keptNumber record.grossAmount⟩ ∧
      (do saveRecord record; recordEvent now event; setAmount id net; return ⟨fee, net⟩ :
        Action FeeOutcome).run store = ending id fee net { store with book := mid } := by
  subst place
  have saved := run_saveRecord tables unsigned.isNaN gross unsigned.not_lt stands
  refine ⟨(store.book.putRecord (record.retimed stamp)).note now event,
    (SameBut.putRecord store.book (record.retimed stamp)).trans (.note _ _ now event), ?_, ?_⟩
  · exact @Book.charges_putRecord store.book (record.retimed stamp) mine
  · have kept := SameBut.putRecord store.book (record.retimed stamp)
    rw [Action.run_bind_of_ok saved]
    apply run_recordEvent_setAmount { store with
      book := store.book.putRecord (record.retimed stamp) }
    · exact kept.hasTables.symm.trans tables
    · rw [Book.findPayment?_putRecord]
      exact stands

theorem exists_run_settleFee (config : Config) (now : Instant) {payment : Payment Stamp}
    (found : store.book.findPayment? id = some payment) (ready : Ready id store.book)
    {existing : Option (FeeRecord Instant)} (known : (record? id).run store = (.ok existing, store))
    {gross : Float} (finite : gross.isFinite = true) (fee : Float) :
    ∃ mid, SameBut id store.book mid ∧
      mid.account.charges id =
        (if fee > 0.0 then some ⟨payment.user, keptNumber fee, keptNumber gross⟩ else none) ∧
      (settleFee config now id payment.user gross existing fee).run store =
        ending id fee (if fee > 0.0 then amountAfterFee config.rounding gross fee else gross)
          { store with book := mid } := by
  -- The record that stands decides which statements are run, but not what is charged after them.
  have size := isNaN_of_isFinite finite
  obtain ⟨-, there⟩ := record?_ok known
  unfold settleFee
  by_cases positive : fee > 0.0
  · have unsigned : Unsigned fee := by
      obtain ⟨a, read, -⟩ := extent_of_lt positive
      exact ⟨a, read⟩
    simp only [if_pos positive]
    obtain ⟨uncharged, rfl⟩ | ⟨record, created, updated, charged, place, rfl⟩ := there
    · have absent (r : FeeRecord Stamp) (standing : store.book.findRecord? id = some r) :
          r.user = payment.user := by
        rw [uncharged] at standing
        cases standing
      exact exists_run_saveRecord_settled store tables stands now
        ⟨id, payment.user, fee, gross, now, now⟩ rfl unsigned size absent _ fee _
    · obtain ⟨-, -, users⟩ := ready record charged
      have same (r : FeeRecord Stamp) (standing : store.book.findRecord? id = some r) :
          r.user = record.user := by
        rw [charged] at standing
        cases standing
        rfl
      rw [← users payment found]
      exact exists_run_saveRecord_settled store tables stands now
        ⟨record.payment, record.user, fee, gross, created, now⟩ place unsigned size same _ fee _
  · simp only [if_neg positive]
    obtain ⟨uncharged, rfl⟩ | ⟨record, created, updated, charged, place, rfl⟩ := there
    · refine ⟨store.book, ⟨rfl, rfl, rfl, rfl, rfl⟩, ?_, ?_⟩
      · simp only [Book.account, uncharged, Option.map_none]
      · exact run_setAmount_return store tables stands fee gross
    · refine ⟨(store.book.removeRecord id).note now (.cleared id payment.user record.fee gross),
        (SameBut.removeRecord store.book id).trans (.note _ id now _), ?_, ?_⟩
      · have gone := store.book.findRecord?_removeRecord_self id
        exact congrArg (Option.map _) gone
      · dsimp only
        rw [Action.run_bind_of_ok (run_removeRecord tables id)]
        exact run_recordEvent_setAmount { store with book := store.book.removeRecord id } tables
          stands now _ fee gross

end

theorem exists_run_record? {store : Store} (tables : store.book.hasTables = true) {id : PaymentId}
    (ready : Ready id store.book) :
    ∃ existing, (record? id).run store = (.ok existing, store) := by
  cases found : store.book.findRecord? id with
  | none =>
    rw [run_record? tables, found]
    exact ⟨none, rfl⟩
  | some record =>
    obtain ⟨created, updated, -⟩ := ready record found
    obtain ⟨kept, read⟩ := FeeRecord.exists_read created updated
    rw [run_record?_of_found tables found, read]
    exact ⟨some kept, rfl⟩

end Store

open Store

/-- Both runs fail alike, or give the same outcome and leave books that hold the same but for the
log and the times of the payment's record. -/
structure Alongside (id : PaymentId) (result result' : Except Failure FeeOutcome × Store) :
    Prop where
  answer : result.1 = result'.1
  same : ∀ outcome, result.1 = .ok outcome → SameBut id result.2.book result'.2.book
  charges : ∀ outcome, result.1 = .ok outcome →
    result.2.book.account.charges id = result'.2.book.account.charges id

section

variable {id : PaymentId} {first second : Store}

theorem Alongside.failure (failure : Failure) :
    Alongside id (.error failure, first) (.error failure, second) :=
  ⟨rfl, nofun, nofun⟩

theorem Alongside.transaction {body body' : Action FeeOutcome}
    (alongside : Alongside id (body.run { first with isOpen := true })
      (body'.run { second with isOpen := true })) :
    Alongside id ((Store.transaction body).run first) ((Store.transaction body').run second) := by
  have answer :
      ((Store.transaction body).run first).1 = ((Store.transaction body').run second).1 := by
    rw [transaction_fst, transaction_fst, alongside.answer]
  have books (outcome : FeeOutcome)
      (returned : ((Store.transaction body).run first).1 = .ok outcome) :
      ((Store.transaction body).run first).2.book =
          (body.run { first with isOpen := true }).2.book ∧
        ((Store.transaction body').run second).2.book =
          (body'.run { second with isOpen := true }).2.book := by
    obtain ⟨mid, ran, book⟩ := transaction_book (Prod.ext returned rfl)
    obtain ⟨mid', ran', book'⟩ := transaction_book (Prod.ext (answer.symm.trans returned) rfl)
    rw [ran, ran']
    exact ⟨book, book'⟩
  refine ⟨answer, fun outcome returned => ?_, fun outcome returned => ?_⟩
  · obtain ⟨book, book'⟩ := books outcome returned
    rw [book, book']
    exact alongside.same outcome ((transaction_fst body first).symm.trans returned)
  · obtain ⟨book, book'⟩ := books outcome returned
    rw [book, book']
    exact alongside.charges outcome ((transaction_fst body first).symm.trans returned)

theorem Alongside.read_bind {α : Type} {x y : Action α} {next next' : α → Action FeeOutcome}
    (reads : ReadOnly x) (reads' : ReadOnly y) (same : (x.run first).1 = (y.run second).1)
    (rest : ∀ value, x.run first = (.ok value, first) →
      Alongside id ((next value).run first) ((next' value).run second)) :
    Alongside id ((x >>= next).run first) ((y >>= next').run second) := by
  have kept := reads.after_eq first
  have kept' := reads'.after_eq second
  rw [Action.run_bind, Action.run_bind]
  rcases ran : x.run first with ⟨failure | value, mid⟩ <;>
    rcases ran' : y.run second with ⟨failure' | value', mid'⟩ <;>
    rw [ran] at same kept <;> rw [ran'] at same kept' <;> cases same <;> cases kept <;> cases kept'
  · exact .failure failure
  · exact rest value ran

theorem requirePayment_fst (same : SameBut id first.book second.book) (k : PaymentId) :
    ((requirePayment k).run first).1 = ((requirePayment k).run second).1 := by
  unfold requirePayment payment?
  rw [Action.run_bind, Action.run_bind, run_query, run_query, same.hasTables, same.findPayment?]
  cases second.book.hasTables with
  | false => rfl
  | true =>
    rcases ((second.book.findPayment? k).mapM Payment.read).mapError Failure.storage with
      failure | none | payment <;> rfl

theorem requirePayment_tables {payment : Payment Instant} {k : PaymentId} {after : Store}
    (returned : (requirePayment k).run first = (.ok payment, after)) :
    first.book.hasTables = true := by
  obtain ⟨found, mid, read, -⟩ := Action.run_bind_ok returned
  exact (query_ok read).1

theorem quote_fst (same : SameBut id first.book second.book)
    (tables : first.book.hasTables = true) (config : Config) (user : UserId) (amount : Float) :
    ((Quote.fee config sources user amount).run first).1 =
      ((Quote.fee config sources user amount).run second).1 := by
  apply @quote_congr config first second tables (same.hasTables.symm.trans tables)
    (fun time => time)
  · unfold Book.findPlan?
    rw [same.plans]
  · unfold Book.paymentsOf
    rw [same.payments]

theorem Alongside.ending (same : SameBut id first.book second.book)
    (charges : first.book.account.charges id = second.book.account.charges id) (fee net : Float) :
    Alongside id (Store.ending id fee net first) (Store.ending id fee net second) := by
  unfold Store.ending
  split
  · exact .failure _
  · exact ⟨rfl, fun _ _ => same.withAmount id net, fun _ _ => charges⟩

end

/-- Recomputing forgets the past. On two books that hold the same but for the record of a payment
and the log, at whatever times, it gives the same outcome or the same failure, and after a success
the books again hold the same but for the log and the times of the record: the same payments, and
for the payment the same fee of the same user and the same amount before it, or none. -/
theorem Store.recomputeFee_forgets (config : Config) (now now' : Instant) {id : PaymentId}
    {first second : Store} (same : SameBut id first.book second.book)
    (ready : Ready id first.book) (ready' : Ready id second.book) (gross : Float) :
    Alongside id ((recomputeFee config now id gross).run first)
      ((recomputeFee config now' id gross).run second) := by
  cases finite : gross.isFinite with
  | false =>
    unfold recomputeFee
    rw [finite]
    exact .failure _
  | true =>
    rw [recomputeFee_eq config now id finite, recomputeFee_eq config now' id finite]
    apply Alongside.transaction
    generalize opening : ({ first with isOpen := true } : Store) = opened
    generalize opening' : ({ second with isOpen := true } : Store) = opened'
    have book : opened.book = first.book := by rw [← opening]
    have book' : opened'.book = second.book := by rw [← opening']
    rw [← book, ← book'] at same
    rw [← book] at ready
    rw [← book'] at ready'
    have requires := readOnly_requirePayment id
    apply Alongside.read_bind requires requires (requirePayment_fst same id)
    intro payment required
    obtain ⟨-, row, time, found, -, rfl⟩ := requirePayment_ok required
    have found' : opened'.book.findPayment? id = some row := (same.findPayment? id).symm.trans found
    have tables := requirePayment_tables required
    have tables' : opened'.book.hasTables = true := same.hasTables.symm.trans tables
    obtain ⟨existing, known⟩ := exists_run_record? tables ready
    obtain ⟨existing', known'⟩ := exists_run_record? tables' ready'
    rw [Action.run_bind_of_ok known, Action.run_bind_of_ok known']
    have quotes := readOnly_quote config row.user gross
    apply Alongside.read_bind quotes quotes (quote_fst same tables config row.user gross)
    intro fee quoted
    obtain ⟨mid, kept, charges, ran⟩ := exists_run_settleFee opened tables
      (Option.isSome_of_eq_some found) config now found ready known finite fee
    obtain ⟨mid', kept', charges', ran'⟩ := exists_run_settleFee opened' tables'
      (Option.isSome_of_eq_some found') config now' found' ready' known' finite fee
    dsimp only
    rw [ran, ran']
    exact .ending (kept.symm.trans (same.trans kept')) (charges.trans charges'.symm) _ _

theorem Store.recomputeFee_forgets_tithe :
    let first := afterAll .standard fresh tithe
    let second := onBook { first.book with records := [], log := [] }
    let run (now : Instant) := (recomputeFee .standard now 1 20.0).run
    SameBut 1 first.book second.book ∧ Ready 1 first.book ∧ Ready 1 second.book ∧
      first.book.account.charges 1 = some ⟨1, 1.0, 10.0⟩ ∧ second.book.account.charges 1 = none ∧
      (run ⟨1, 0⟩ second).1 = .ok ⟨2.0, 18.0⟩ ∧
      (run ⟨1, 0⟩ second).2.book.account.charges 1 = some ⟨1, 2.0, 20.0⟩ := by
  intro first second run
  have same : SameBut 1 first.book second.book := ⟨rfl, rfl, rfl, rfl, by decide +kernel⟩
  have ready : Ready 1 first.book := by
    intro record found
    have standing : first.book.findRecord? 1 =
        some ⟨1, 1, 1.0, 10.0, some ⟨0, 0⟩, some ⟨0, 0⟩⟩ := by
      decide +kernel
    rw [standing] at found
    cases found
    refine ⟨rfl, rfl, fun payment stands => ?_⟩
    have paid : first.book.findPayment? 1 = some ⟨1, 1, 9.0, none, some ⟨0, 0⟩⟩ := by
      decide +kernel
    rw [paid] at stands
    cases stands
    rfl
  have ready' : Ready 1 second.book := nofun
  have answered : (run ⟨0, 0⟩ first).1 = .ok ⟨2.0, 18.0⟩ := by decide +kernel
  have charged : (run ⟨0, 0⟩ first).2.book.account.charges 1 = some ⟨1, 2.0, 20.0⟩ := by
    decide +kernel
  have alongside := recomputeFee_forgets .standard ⟨0, 0⟩ ⟨1, 0⟩ same ready ready' 20.0
  exact ⟨same, ready, ready', by decide +kernel, rfl, alongside.answer.symm.trans answered,
    (alongside.charges _ answered).symm.trans charged⟩

end PaymentFees
