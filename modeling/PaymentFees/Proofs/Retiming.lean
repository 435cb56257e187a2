import PaymentFees.CommandLine.Command
import PaymentFees.Proofs.Isolation

/-!
Times are written down and shown, and nothing else depends on them. An operation on a store whose
times have gone through a clock does what it does on the store, and only its times have gone through
the clock as well.
-/

namespace PaymentFees

variable {α β γ : Type} {clock : Instant → Instant}

/-- A clock shows times that can be read back as such times, and the others as others. -/
def Faithful (clock : Instant → Instant) : Prop :=
  ∀ time, stamp (clock time) = (stamp time).map clock

def LogEntry.retimed {S T : Type} (clock : S → T) (e : LogEntry S) : LogEntry T :=
  ⟨e.id, e.user, e.payment, e.typeName, e.payload, clock e.createdAt⟩

namespace Book

def retimed (clock : Instant → Instant) (book : Book) : Book :=
  { book with
    payments := book.payments.map (·.retimed (Option.map clock))
    plans := book.plans.map (·.retimed clock)
    records := book.records.map (·.retimed (Option.map clock))
    log := book.log.map (·.retimed (Option.map clock)) }

variable (clock) (book : Book)

theorem findPayment?_retimed (id : PaymentId) :
    (book.retimed clock).findPayment? id =
      (book.findPayment? id).map (·.retimed (Option.map clock)) := by
  unfold findPayment? retimed
  rw [List.find?_map]
  rfl

theorem findPlan?_retimed (user : UserId) :
    (book.retimed clock).findPlan? user = (book.findPlan? user).map (·.retimed clock) := by
  unfold findPlan? retimed
  rw [List.find?_map]
  rfl

theorem findRecord?_retimed (id : PaymentId) :
    (book.retimed clock).findRecord? id =
      (book.findRecord? id).map (·.retimed (Option.map clock)) := by
  unfold findRecord? retimed
  rw [List.find?_map]
  rfl

theorem paymentsOf_retimed (user : UserId) :
    (book.retimed clock).paymentsOf user =
      (book.paymentsOf user).map (·.retimed (Option.map clock)) := by
  unfold paymentsOf retimed
  rw [List.filter_map]
  rfl

theorem recordsOf_retimed (user : UserId) :
    (book.retimed clock).recordsOf user =
      (book.recordsOf user).map (·.retimed (Option.map clock)) := by
  unfold recordsOf retimed
  rw [List.filter_map]
  rfl

theorem frequency_retimed (user : UserId) (range : AmountRange) :
    (book.retimed clock).frequency user range = book.frequency user range := by
  unfold frequency
  rw [paymentsOf_retimed, List.map_map]
  rfl

variable {clock}

theorem insertPayment_retimed (faithful : Faithful clock) (now : Instant) (user : UserId)
    (amount : Float) (description : Option String) :
    (book.retimed clock).insertPayment (clock now) user amount description =
      (book.insertPayment now user amount description).map (Prod.map id (retimed clock)) := by
  unfold insertPayment
  split
  · rfl
  · simp only [retimed, faithful now, Except.map, Prod.map, List.map_append, List.map_cons,
      List.map_nil, Payment.retimed, id]

theorem setAmount_retimed (id : PaymentId) (amount : Float) :
    (book.retimed clock).setAmount id amount =
      (book.setAmount id amount).map (retimed clock) := by
  unfold setAmount
  rw [findPayment?_retimed, Option.isSome_map]
  split
  · rfl
  · simp only [retimed, Except.map, List.map_map]
    congr 2
    apply List.map_congr_left
    intro p _
    by_cases here : p.id = id <;> simp [Payment.retimed, here]

theorem deletePayment_retimed (id : PaymentId) :
    (book.retimed clock).deletePayment id = (book.deletePayment id).retimed clock := by
  simp only [deletePayment, retimed, List.filter_map]
  rfl

theorem savePlan_retimed (row : PlanRow) :
    (book.retimed clock).savePlan (row.retimed clock) = (book.savePlan row).retimed clock := by
  have owner : (row.retimed clock).user = row.user := rfl
  unfold savePlan
  rw [owner, findPlan?_retimed, Option.isSome_map]
  split
  · simp only [retimed, List.map_map]
    congr 1
    apply List.map_congr_left
    intro old _
    by_cases here : old.user = row.user <;> simp [PlanRow.retimed, here]
  · simp [retimed]

theorem saveRecord_retimed (row : FeeRecord Stamp) :
    (book.retimed clock).saveRecord (row.retimed (Option.map clock)) =
      (book.saveRecord row).map (retimed clock) := by
  have put : (book.retimed clock).putRecord (row.retimed (Option.map clock)) =
      (book.putRecord row).retimed clock := by
    rw [putRecord_eq_putAmong, putRecord_eq_putAmong]
    simp only [retimed, map_putAmong]
  have place : (row.retimed (Option.map clock)).payment = row.payment := rfl
  rw [saveRecord_eq, saveRecord_eq, put, place, findRecord?_retimed, findPayment?_retimed,
    Option.isSome_map, Option.isSome_map]
  unfold FeeRecord.retimed
  split_ifs <;> rfl

theorem removeRecord_retimed (id : PaymentId) :
    (book.retimed clock).removeRecord id = (book.removeRecord id).retimed clock := by
  simp only [removeRecord, retimed, List.filter_map]
  rfl

theorem appendEntry_retimed (faithful : Faithful clock) (now : Instant) (user : UserId)
    (payment : Option PaymentId) (typeName payload : String) :
    (book.retimed clock).appendEntry (clock now) user payment typeName payload =
      (book.appendEntry now user payment typeName payload).retimed clock := by
  simp [appendEntry, retimed, LogEntry.retimed, faithful now]

end Book

def Store.retimed (clock : Instant → Instant) (store : Store) : Store :=
  { store with book := store.book.retimed clock }

/-- On stores with their times seen through the clock, the second action does what the first one
does, and its result is seen in a way of its own. -/
structure Retimes (clock : Instant → Instant) (shown : α → β) (x : Action α) (y : Action β) :
    Prop where
  run_eq : ∀ store, y.run (store.retimed clock) =
    ((x.run store).1.map shown, (x.run store).2.retimed clock)

namespace Retimes

variable {shown : α → β} {x : Action α} {y : Action β}

theorem pure (value : α) : Retimes clock shown (pure value) (pure (shown value)) := ⟨fun _ => rfl⟩

theorem throw (failure : Failure) : Retimes clock shown (throw failure) (throw failure) :=
  ⟨fun _ => rfl⟩

theorem bind {δ : Type} {after : γ → δ} {next : α → Action γ} {next' : β → Action δ}
    (start : Retimes clock shown x y)
    (rest : ∀ value, Retimes clock after (next value) (next' (shown value))) :
    Retimes clock after (x >>= next) (y >>= next') := by
  constructor
  intro store
  rw [Action.run_bind, Action.run_bind, start.run_eq]
  rcases x.run store with ⟨failure | value, mid⟩
  · rfl
  · exact (rest value).run_eq mid

theorem encoded {encode encode' : α → γ} {seen : γ → γ} {shown : α → α} {x y : Action α}
    (retimes : Retimes clock shown x y)
    (same : ∀ value, seen (encode' (shown value)) = seen (encode value)) :
    Retimes clock seen (do return encode (← x)) (seen <$> do return encode' (← y)) := by
  constructor
  intro store
  simp only [bind_pure_comp, Action.run_map, retimes.run_eq]
  cases (x.run store).1 with
  | error => rfl
  | ok value => exact congrArg (fun value => (Except.ok value, _)) (same value)

theorem transaction {body : Action α} {body' : Action β} (inside : Retimes clock shown body body') :
    Retimes clock shown (Store.transaction body) (Store.transaction body') := by
  constructor
  intro store
  cases opened : store.isOpen with
  | true =>
    have opened' : (store.retimed clock).isOpen = true := opened
    rw [Store.transaction_open opened, Store.transaction_open opened', inside.run_eq]
  | false =>
    have opened' : (store.retimed clock).isOpen = false := opened
    have entered : { store.retimed clock with isOpen := true } =
        ({ store with isOpen := true } : Store).retimed clock := rfl
    rw [run_transaction_closed body opened, run_transaction_closed body' opened', entered,
      inside.run_eq]
    rcases body.run { store with isOpen := true } with ⟨failure | value, after⟩ <;> rfl

theorem statement {table : String} {change : Book → Except Failure (α × Book)}
    {change' : Book → Except Failure (β × Book)}
    (same : ∀ book, change' (book.retimed clock) =
      (change book).map (Prod.map shown (Book.retimed clock))) :
    Retimes clock shown (Store.statement table change) (Store.statement table change') := by
  constructor
  intro store
  have tables : (store.retimed clock).book.hasTables = store.book.hasTables := rfl
  have changed : change' (store.retimed clock).book = _ := same store.book
  rw [Store.run_statement, Store.run_statement, tables, changed]
  split
  · rcases change store.book with failure | ⟨value, book⟩ <;> rfl
  · rfl

theorem query {table : String} {read : Book → Except Failure α} {read' : Book → Except Failure β}
    (same : ∀ book, read' (book.retimed clock) = (read book).map shown) :
    Retimes clock shown (Store.query table read) (Store.query table read') := by
  constructor
  intro store
  have tables : (store.retimed clock).book.hasTables = store.book.hasTables := rfl
  have found : read' (store.retimed clock).book = _ := same store.book
  rw [Store.run_query, Store.run_query, tables, found]
  split <;> rfl

end Retimes

namespace Store

theorem retimes_payment? (id : PaymentId) :
    Retimes clock (Option.map (·.retimed clock)) (payment? id) (payment? id) := by
  apply Retimes.query
  intro book
  rw [map_mapError, map_option_mapM (Payment.read_retimed clock), book.findPayment?_retimed]

theorem retimes_plan? (user : UserId) :
    Retimes clock (Option.map (·.retimed clock)) (plan? user) (plan? user) := by
  apply Retimes.query
  intro book
  rw [map_option_mapM (PlanRow.read_retimed clock), book.findPlan?_retimed]

theorem retimes_record? (id : PaymentId) :
    Retimes clock (Option.map (·.retimed clock)) (record? id) (record? id) := by
  apply Retimes.query
  intro book
  rw [map_mapError, map_option_mapM (FeeRecord.read_retimed clock), book.findRecord?_retimed]

theorem retimes_records (user : UserId) :
    Retimes clock (List.map (·.retimed clock)) (records user) (records user) := by
  apply Retimes.query
  intro book
  rw [map_mapError, map_list_mapM (FeeRecord.read_retimed clock), book.recordsOf_retimed]

theorem retimes_paymentsWithFees (user : UserId) :
    Retimes clock (List.map fun (p, fee) => (p.retimed clock, fee)) (paymentsWithFees user)
      (paymentsWithFees user) := by
  apply Retimes.query
  intro book
  change ((book.retimed clock).paymentsOf user).mapM (withFee (book.retimed clock).records) =
    ((book.paymentsOf user).mapM (withFee book.records)).map _
  rw [map_list_mapM (withFee_retimed book.records), book.paymentsOf_retimed]
  congr 1
  exact funext (withFee_records book.records)

theorem retimes_frequency (user : UserId) (range : AmountRange) :
    Retimes clock id (frequency user range) (frequency user range) := by
  apply Retimes.query
  intro book
  rw [book.frequency_retimed]
  rfl

theorem retimes_insertPayment (faithful : Faithful clock) (now : Instant) (user : UserId)
    (amount : Float) (description : Option String) :
    Retimes clock id (insertPayment now user amount description)
      (insertPayment (clock now) user amount description) := by
  apply Retimes.statement
  intro book
  rw [map_mapError, book.insertPayment_retimed faithful]

theorem retimes_setAmount (payment : PaymentId) (amount : Float) :
    Retimes clock id (setAmount payment amount) (setAmount payment amount) := by
  apply Retimes.statement
  intro book
  rw [book.setAmount_retimed]
  cases book.setAmount payment amount <;> rfl

theorem retimes_deletePayment (payment : PaymentId) :
    Retimes clock id (deletePayment payment) (deletePayment payment) := by
  apply Retimes.statement
  intro book
  rw [book.deletePayment_retimed, book.findPayment?_retimed, Option.isSome_map]
  rfl

theorem retimes_savePlan (faithful : Faithful clock) (plan : StoredPlan) :
    Retimes clock id (savePlan plan) (savePlan (plan.retimed clock)) := by
  have row : PlanRow.ofStored (plan.retimed clock) = (PlanRow.ofStored plan).retimed clock := by
    simp [PlanRow.ofStored, StoredPlan.retimed, PlanRow.retimed, faithful plan.createdAt,
      faithful plan.updatedAt]
  apply Retimes.statement
  intro book
  rw [row, book.savePlan_retimed]
  rfl

theorem retimes_saveRecord (faithful : Faithful clock) (record : FeeRecord Instant) :
    Retimes clock id (saveRecord record) (saveRecord (record.retimed clock)) := by
  have row : (record.retimed clock).retimed stamp =
      (record.retimed stamp).retimed (Option.map clock) := by
    simp [FeeRecord.retimed, faithful record.createdAt, faithful record.updatedAt]
  apply Retimes.statement
  intro book
  let saved (book : Book) (row : FeeRecord Stamp) : Except Failure (Unit × Book) := do
    return ((), ← (book.saveRecord row).mapError .storage)
  change saved (book.retimed clock) ((record.retimed clock).retimed stamp) =
    (saved book (record.retimed stamp)).map _
  dsimp only [saved]
  rw [row, book.saveRecord_retimed]
  cases book.saveRecord (record.retimed stamp) <;> rfl

theorem retimes_removeRecord (payment : PaymentId) :
    Retimes clock id (removeRecord payment) (removeRecord payment) := by
  apply Retimes.statement
  intro book
  rw [book.removeRecord_retimed]
  rfl

theorem retimes_recordEvent (faithful : Faithful clock) (now : Instant) (event : FeeEvent) :
    Retimes clock id (recordEvent now event) (recordEvent (clock now) event) := by
  unfold recordEvent appendEntry
  apply Retimes.statement
  intro book
  rw [book.appendEntry_retimed faithful]
  rfl

variable (config : Config)

theorem retimes_rawFee (plan : StoredPlan) (size : Float) :
    Retimes clock id (Quote.rawFee config sources plan size)
      (Quote.rawFee config sources plan size) := by
  rcases Quote.rawFee_cases config sources plan size with ⟨range, asked⟩ | free
  · rw [asked, ← bind_pure_comp]
    apply Retimes.bind (retimes_frequency plan.user range)
    exact fun _ => .pure _
  · rw [free]
    exact .pure _

theorem retimes_quote (user : UserId) (amount : Float) :
    Retimes clock id (Quote.fee config sources user amount)
      (Quote.fee config sources user amount) := by
  cases finite : amount.isFinite with
  | false =>
    unfold Quote.fee
    rw [finite]
    exact .pure _
  | true =>
    rw [Quote.fee_eq_settle config sources user finite]
    apply Retimes.bind (retimes_plan? user)
    intro found
    cases found with
    | none => exact .pure _
    | some plan =>
      -- The times of the plan are not looked at.
      apply Retimes.bind (retimes_rawFee config plan amount.abs)
      exact fun _ => .pure _

theorem retimes_requirePayment (id : PaymentId) :
    Retimes clock (·.retimed clock) (requirePayment id) (requirePayment id) := by
  apply Retimes.bind (retimes_payment? id)
  intro found
  cases found with
  | none => exact .throw _
  | some payment => exact .pure payment

variable (faithful : Faithful clock) (now : Instant)
include faithful

theorem retimes_chargeFee (payment : PaymentId) :
    Retimes clock id (chargeFee config now payment) (chargeFee config (clock now) payment) := by
  apply Retimes.transaction
  apply Retimes.bind (retimes_requirePayment payment)
  intro paid
  apply Retimes.bind (retimes_record? payment)
  intro found
  rw [Option.isSome_map]
  split
  · exact .throw _
  · apply Retimes.bind (retimes_quote config paid.user paid.amount)
    intro fee
    dsimp only [id]
    split
    · exact .pure _
    · apply Retimes.bind (retimes_setAmount payment _)
      intro _
      apply Retimes.bind (retimes_saveRecord faithful
        ⟨payment, paid.user, fee, paid.amount, now, now⟩)
      intro _
      apply Retimes.bind (retimes_recordEvent faithful now _)
      exact fun _ => .pure _

theorem retimes_refundFee (payment : PaymentId) :
    Retimes clock id (refundFee now payment) (refundFee (clock now) payment) := by
  apply Retimes.transaction
  apply Retimes.bind (retimes_record? payment)
  intro found
  cases found with
  | none => exact .pure _
  | some record =>
    apply Retimes.bind (retimes_removeRecord payment)
    intro _
    apply Retimes.bind (retimes_recordEvent faithful now _)
    exact fun _ => .pure _

theorem retimes_recomputeFee (payment : PaymentId) (gross : Float) :
    Retimes clock id (recomputeFee config now payment gross)
      (recomputeFee config (clock now) payment gross) := by
  unfold recomputeFee
  split
  · exact .throw _
  apply Retimes.transaction
  apply Retimes.bind (retimes_requirePayment payment)
  intro paid
  apply Retimes.bind (retimes_record? payment)
  intro existing
  apply Retimes.bind (retimes_quote config paid.user gross)
  intro fee
  have ending (net : Float) :
      Retimes clock id (do setAmount payment net; return ⟨fee, net⟩ : Action FeeOutcome)
        (do setAmount payment net; return ⟨fee, net⟩) :=
    .bind (retimes_setAmount payment net) fun _ => .pure _
  have logged (event : FeeEvent) (net : Float) : Retimes clock id
      (do recordEvent now event; setAmount payment net; return ⟨fee, net⟩ : Action FeeOutcome)
      (do recordEvent (clock now) event; setAmount payment net; return ⟨fee, net⟩) :=
    .bind (retimes_recordEvent faithful now event) fun _ => ending net
  dsimp only [id]
  by_cases positive : fee > 0.0
  · simp only [if_pos positive]
    cases existing with
    | none =>
      exact .bind (retimes_saveRecord faithful ⟨payment, paid.user, fee, gross, now, now⟩)
        fun _ => logged _ _
    | some record =>
      exact .bind (retimes_saveRecord faithful
        { record with fee := fee, grossAmount := gross, updatedAt := now }) fun _ => logged _ _
  · simp only [if_neg positive]
    cases existing with
    | none => exact ending gross
    | some record => exact .bind (retimes_removeRecord payment) fun _ => logged _ _

end Store

namespace Service

theorem retimes_plan (user : UserId) : Retimes clock id (plan user) (plan user) := by
  apply Retimes.bind (Store.retimes_plan? user)
  intro found
  cases found <;> exact .pure _

variable (faithful : Faithful clock) (config : Config) (now : Instant)
include faithful

theorem retimes_savePlan (user : UserId) (plan : FeePlan) :
    Retimes clock (·.retimed clock) (savePlan now user plan) (savePlan (clock now) user plan) := by
  unfold savePlan
  split
  · exact .throw _
  · -- The stored plan is read back, or given as it was saved at the time on the clock.
    refine @Retimes.bind _ _ _ _ id _ _ _ _ _ _ (.transaction ?_) fun _ => ?_
    · apply Retimes.bind (Store.retimes_savePlan faithful (.ofPlan user plan now))
      exact fun _ => Store.retimes_recordEvent faithful now _
    · apply Retimes.bind (Store.retimes_plan? user)
      intro found
      cases found <;> exact .pure _

theorem retimes_recordPayment (user : UserId) (amount : Float) (description : Option String) :
    Retimes clock id (recordPayment config now user amount description)
      (recordPayment config (clock now) user amount description) := by
  unfold recordPayment
  split
  · exact .throw _
  apply Retimes.transaction
  apply Retimes.bind (Store.retimes_insertPayment faithful now user amount description)
  intro payment
  apply Retimes.bind (Store.retimes_chargeFee config faithful now payment)
  exact fun _ => .pure _

theorem retimes_deletePayment (payment : PaymentId) :
    Retimes clock id (deletePayment now payment) (deletePayment (clock now) payment) := by
  apply Retimes.transaction
  apply Retimes.bind (Store.retimes_payment? payment)
  intro found
  rw [Option.isNone_map]
  split
  · exact .throw _
  · apply Retimes.bind (Store.retimes_refundFee faithful now payment)
    intro refunded
    apply Retimes.bind (Store.retimes_deletePayment payment)
    exact fun _ => .pure _

end Service

namespace Json

def untimedMember (member : Option String × Json) : Option String × Json :=
  if member.1 = some "created_at" ∨ member.1 = some "updated_at" then (member.1, null) else member

def untimedItem : Json → Json
  | object members => object (members.map untimedMember)
  | item => item

def untimed : Json → Json
  | array items => array (items.map untimedItem)
  | value => value

theorem untimed_ofList_map (encode : α → Json) (turn : α → α)
    (same : ∀ value, untimedItem (encode (turn value)) = untimedItem (encode value))
    (values : List α) :
    untimed (ofList encode (values.map turn)) = untimed (ofList encode values) := by
  simp only [ofList, untimed, List.map_map]
  congr 1
  exact List.map_congr_left fun value _ => same value

end Json

namespace CommandLine.Command

variable (clock) in
theorem untimedItem_paymentToJson (entry : Payment Instant × Option Float) :
    Json.untimedItem (paymentToJson (entry.1.retimed clock, entry.2)) =
      Json.untimedItem (paymentToJson entry) := by
  simp [paymentToJson, Json.record, Json.untimedItem, Json.untimedMember, Payment.retimed]

variable (clock) in
theorem untimedItem_recordToJson (r : FeeRecord Instant) :
    Json.untimedItem (recordToJson (r.retimed clock)) = Json.untimedItem (recordToJson r) := by
  simp [recordToJson, Json.record, Json.untimedItem, Json.untimedMember, FeeRecord.retimed]

theorem retimes_respond (faithful : Faithful clock) (config : Config) (now : Instant)
    (command : Command) : Retimes clock Json.untimed (command.respond config now)
      (Json.untimed <$> command.respond config (clock now)) := by
  cases command with
  | getPlan user => exact (Service.retimes_plan user).encoded fun _ => rfl
  | savePlan user plan =>
    exact (Service.retimes_savePlan faithful now user plan).encoded fun _ => rfl
  | checkFormula | fitRange | quit => exact .pure _
  | quote user amount => exact (Store.retimes_quote config user amount).encoded fun _ => rfl
  | recordPayment user amount description =>
    exact (Service.retimes_recordPayment faithful config now user amount description).encoded
      fun _ => rfl
  | updatePayment payment amount =>
    exact (Store.retimes_recomputeFee config faithful now payment amount).encoded fun _ => rfl
  | deletePayment payment =>
    exact (Service.retimes_deletePayment faithful now payment).encoded fun _ => rfl
  | listPayments user =>
    exact (Store.retimes_paymentsWithFees user).encoded
      (Json.untimed_ofList_map paymentToJson _ (untimedItem_paymentToJson clock))
  | listRecords user =>
    exact (Store.retimes_records user).encoded
      (Json.untimed_ofList_map recordToJson _ (untimedItem_recordToJson clock))

end CommandLine.Command

/-- All times that can be read back are the first one, and all others are the start of the year
10000. -/
def still (time : Instant) : Instant := if (stamp time).isSome then ⟨0, 0⟩ else ⟨253402300800, 0⟩

theorem faithful_still : Faithful still := by
  intro time
  unfold still
  cases kept : stamp time with
  | none => decide
  | some time' =>
    have same : time' = time := by
      unfold stamp at kept
      split at kept
      · exact (Option.some.inj kept).symm
      · cases kept
    rw [Option.map_some, same, kept]
    change stamp ⟨0, 0⟩ = some ⟨0, 0⟩
    decide

def Store.untimed (store : Store) : Store := store.retimed still

theorem CommandLine.Command.respond_untimed (config : Config) (command : Command)
    {now later : Instant} (alike : (stamp now).isSome = (stamp later).isSome)
    {store store' : Store} (same : store.untimed = store'.untimed) :
    ((command.respond config now).run store).1.map Json.untimed =
        ((command.respond config later).run store').1.map Json.untimed ∧
      ((command.respond config now).run store).2.untimed =
        ((command.respond config later).run store').2.untimed := by
  have first := (retimes_respond faithful_still config now command).run_eq store
  have second := (retimes_respond faithful_still config later command).run_eq store'
  have moment : still now = still later := by
    unfold still
    rw [alike]
  unfold Store.untimed at same ⊢
  rw [moment, same, second] at first
  exact (Prod.mk.inj first).imp Eq.symm Eq.symm

end PaymentFees
