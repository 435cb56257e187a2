import PaymentFees.Proofs.Recomputation

namespace PaymentFees

namespace Book

def paymentsBut (book : Book) (id : PaymentId) : List (Payment Stamp) :=
  book.payments.filter (·.id != id)

def entriesOn (book : Book) (id : PaymentId) : List (LogEntry Stamp) :=
  book.log.filter (·.payment == some id)

theorem withAmount_others (book : Book) (id : PaymentId) (amount : Float) :
    (book.withAmount id amount).paymentsBut id = book.paymentsBut id := by
  unfold withAmount paymentsBut
  induction book.payments with
  | nil => rfl
  | cons p rows ih =>
    rw [List.map_cons, List.filter_cons, List.filter_cons, ih]
    by_cases here : p.id = id <;> simp [here]

theorem removed_others {Row : Type} (key : Row → PaymentId) (rows : List Row) (id : PaymentId) :
    (rows.filter (key · != id)).filter (key · != id) = rows.filter (key · != id) := by
  rw [List.filter_filter]
  simp only [Bool.and_self]

theorem entriesOn_appendEntry (book : Book) (now : Instant) (user : UserId)
    (payment : Option PaymentId) (typeName payload : String) (id : PaymentId) :
    (book.appendEntry now user payment typeName payload).entriesOn id = book.entriesOn id ++
      if payment = some id then
        [⟨book.nextEntry, user, payment, typeName, payload, stamp now⟩]
      else [] := by
  unfold appendEntry entriesOn
  rw [List.filter_append]
  by_cases about : payment = some id <;> simp [about]

theorem entriesOn_note (book : Book) (now : Instant) (event : FeeEvent) (id : PaymentId) :
    (book.note now event).entriesOn id = book.entriesOn id ++
      if event.payment? = some id then [event.entry book.nextEntry now] else [] :=
  book.entriesOn_appendEntry now event.user event.payment? event.typeName event.payload id

end Book

/-- The change is confined to one payment, its record and the entries about it. -/
structure Confined (id : PaymentId) (before after : Book) : Prop where
  hasTables : after.hasTables = before.hasTables
  nextPayment : after.nextPayment = before.nextPayment
  plans : after.plans = before.plans
  payments : after.paymentsBut id = before.paymentsBut id
  records : after.recordsBut id = before.recordsBut id
  entries : ∀ k, k ≠ id → after.entriesOn k = before.entriesOn k

namespace Confined

variable {id : PaymentId}

theorem refl (id : PaymentId) (book : Book) : Confined id book book :=
  ⟨rfl, rfl, rfl, rfl, rfl, fun _ _ => rfl⟩

theorem trans {first mid last : Book} (start : Confined id first mid)
    (rest : Confined id mid last) : Confined id first last :=
  ⟨rest.hasTables.trans start.hasTables, rest.nextPayment.trans start.nextPayment,
    rest.plans.trans start.plans, rest.payments.trans start.payments,
    rest.records.trans start.records,
    fun k other => (rest.entries k other).trans (start.entries k other)⟩

variable (book : Book)

theorem withAmount (id : PaymentId) (amount : Float) :
    Confined id book (book.withAmount id amount) :=
  ⟨rfl, rfl, rfl, book.withAmount_others id amount, rfl, fun _ _ => rfl⟩

theorem note (now : Instant) {event : FeeEvent} (about : event.payment? = some id) :
    Confined id book (book.note now event) := by
  refine ⟨rfl, rfl, rfl, rfl, rfl, fun k other => ?_⟩
  rw [Book.entriesOn_note, about, if_neg (fun same => other (Option.some.inj same).symm),
    List.append_nil]

theorem putRecord (row : FeeRecord Stamp) : Confined row.payment book (book.putRecord row) := by
  have others := book.putRecord_others row
  obtain ⟨records, same⟩ := book.putRecord_records row
  rw [same] at others ⊢
  exact ⟨rfl, rfl, rfl, rfl, others, fun _ _ => rfl⟩

theorem removeRecord (id : PaymentId) : Confined id book (book.removeRecord id) :=
  ⟨rfl, rfl, rfl, rfl, book.removeRecord_others id, fun _ _ => rfl⟩

theorem deletePayment (id : PaymentId) : Confined id book (book.deletePayment id) :=
  ⟨rfl, rfl, rfl, Book.removed_others (fun p : Payment Stamp => p.id) book.payments id,
    Book.removed_others (fun r : FeeRecord Stamp => r.payment) book.records id, fun _ _ => rfl⟩

theorem charge (now : Instant) (user : UserId) (fee gross net : Float) {event : FeeEvent}
    (about : event.payment? = some id) :
    Confined id book (book.charge now id user fee gross net event) :=
  ((putRecord book ⟨id, user, fee, gross, stamp now, stamp now⟩).trans
    (note _ now about)).trans (withAmount _ id net)

end Confined

section

variable {rounding : Rounding} {now : Instant} {before after : Book} {p : Payment Stamp}

theorem FirstCharge.confined {outcome : FeeOutcome}
    (charge : FirstCharge rounding now before p outcome after) : Confined p.id before after := by
  cases charge with
  | nothing => exact .refl p.id before
  | charged => exact .charge before now _ _ _ _ rfl

theorem Resettled.confined {gross : Float} {outcome : FeeOutcome}
    (resettled : Resettled rounding now before p gross outcome after) :
    Confined p.id before after := by
  cases resettled with
  | charged => exact .charge before now _ _ _ _ rfl
  | cleared =>
    exact ((Confined.removeRecord before p.id).trans (.note _ now rfl)).trans (.withAmount _ _ _)
  | free => exact .withAmount before p.id gross

theorem Refunded.confined {id : PaymentId} {fee : Float}
    (refunded : Refunded now id before fee after) : Confined id before after := by
  cases refunded with
  | nothing => exact .refl id before
  | fee => exact (Confined.removeRecord before id).trans (.note _ now rfl)

end

/-- A payment, its record and what is logged about it stay as they are, and its number is not given
away again. -/
structure Spares (id : PaymentId) (before after : Book) : Prop where
  payment : after.findPayment? id = before.findPayment? id
  record : after.findRecord? id = before.findRecord? id
  entries : after.entriesOn id = before.entriesOn id
  next : before.nextPayment ≤ after.nextPayment

namespace Spares

variable {id : PaymentId}

theorem refl (id : PaymentId) (book : Book) : Spares id book book := ⟨rfl, rfl, rfl, le_rfl⟩

theorem trans {first mid last : Book} (start : Spares id first mid) (rest : Spares id mid last) :
    Spares id first last :=
  ⟨rest.payment.trans start.payment, rest.record.trans start.record,
    rest.entries.trans start.entries, start.next.trans rest.next⟩

end Spares

section

variable {id k : PaymentId} {before after : Book}

theorem Confined.spares (confined : Confined k before after) (other : k ≠ id) :
    Spares id before after := by
  have apart : id ≠ k := Ne.symm other
  have payment (book : Book) : (book.paymentsBut k).find? (·.id == id) = book.findPayment? id := by
    have kept := find?_remove (fun p : Payment Stamp => p.id) book.payments k id
    rwa [if_neg apart] at kept
  have record (book : Book) :
      (book.recordsBut k).find? (·.payment == id) = book.findRecord? id := by
    have kept := find?_remove (fun r : FeeRecord Stamp => r.payment) book.records k id
    rwa [if_neg apart] at kept
  refine ⟨?_, ?_, confined.entries id apart, confined.nextPayment.ge⟩
  · rw [← payment after, confined.payments, payment before]
  · rw [← record after, confined.records, record before]

theorem Spares.insertPayment {now : Instant} {user : UserId} {amount : Float}
    {description : Option String}
    (stored : before.insertPayment now user amount description = .ok (k, after))
    (other : k ≠ id) : Spares id before after := by
  have number := (Book.insertPayment_number stored).2
  rw [Book.insertPayment_ok stored]
  refine ⟨?_, rfl, rfl, (Int.lt_succ _).le⟩
  unfold Book.findPayment?
  rw [List.find?_append]
  simp [← number, other]

theorem Spares.savePlan (id : PaymentId) (book : Book) (row : PlanRow) :
    Spares id book (book.savePlan row) := by
  obtain ⟨plans, same⟩ := book.savePlan_plans row
  rw [same]
  exact ⟨rfl, rfl, rfl, le_rfl⟩

theorem Spares.appendEntry (book : Book) (now : Instant) (user : UserId)
    {payment : Option PaymentId} (typeName payload : String) (other : payment ≠ some id) :
    Spares id book (book.appendEntry now user payment typeName payload) := by
  refine ⟨rfl, rfl, ?_, le_rfl⟩
  rw [Book.entriesOn_appendEntry, if_neg other, List.append_nil]

end

def Request.Concerns (id : PaymentId) : Request → Prop
  | .updatePayment named _ | .deletePayment named => named = id
  | .chargeFee named | .refundFee named | .recomputeFee named _ => named = id
  | .setAmount named _ | .dropPayment named | .removeRecord named => named = id
  | .saveRecord record => record.payment = id
  | .appendEntry _ _ about _ _ => about = some id
  | _ => False

def SparesStored (id : PaymentId) (before after : Book) : Prop :=
  id < before.nextPayment → Spares id before after

section

variable {id : PaymentId} {config : Config} {now : Instant}

theorem sparesStored_refl (id : PaymentId) (book : Book) : SparesStored id book book :=
  fun _ => .refl id book

theorem spares_statement {α : Type} {table : String}
    {change : Book → Except Failure (α × Book)}
    (succeeds : ∀ {store after : Store} {value : α},
      (Store.statement table change).run store = (.ok value, after) →
        SparesStored id store.book after.book) :
    Leaves (SparesStored id) (Store.statement table change) :=
  atomic_statement.leaves (sparesStored_refl id) succeeds

theorem spares_savePlan (user : UserId) (plan : FeePlan) :
    Leaves (SparesStored id) (Service.savePlan now user plan) := by
  apply leaves_savePlan (sparesStored_refl id)
  intro book _
  exact (Spares.savePlan id book _).trans (.appendEntry _ now _ _ _ nofun)

theorem spares_recordPayment (user : UserId) (amount : Float) (description : Option String) :
    Leaves (SparesStored id) (Service.recordPayment config now user amount description) := by
  apply (atomic_recordPayment config now user amount description).leaves (sparesStored_refl id)
  intro store after receipt returned stored
  obtain ⟨-, mid, entered, p, found, place, -, -, charge⟩ := Service.recordPayment_outcome returned
  have apart : receipt.payment ≠ id := by
    rw [(Book.insertPayment_number entered).2]
    exact stored.ne'
  have charged := charge.confined.spares (fun same => apart (place.symm.trans same))
  exact (Spares.insertPayment entered apart).trans charged

variable {named : PaymentId} (other : named ≠ id)
include other

theorem spares_chargeFee : Leaves (SparesStored id) (Store.chargeFee config now named) := by
  apply (atomic_chargeFee config now named).leaves (sparesStored_refl id)
  intro store after outcome returned _
  obtain ⟨p, -, rfl, -, -, charge⟩ := Store.chargeFee_outcome returned
  exact charge.confined.spares other

theorem spares_refundFee : Leaves (SparesStored id) (Store.refundFee now named) := by
  apply (atomic_refundFee now named).leaves (sparesStored_refl id)
  intro store after fee returned _
  exact (Store.refundFee_outcome returned).confined.spares other

theorem spares_recomputeFee (gross : Float) :
    Leaves (SparesStored id) (Store.recomputeFee config now named gross) := by
  apply (atomic_recomputeFee config now named gross).leaves (sparesStored_refl id)
  intro store after outcome returned _
  obtain ⟨p, -, rfl, resettled⟩ := Store.recomputeFee_outcome returned
  exact resettled.confined.spares other

theorem spares_deletePayment : Leaves (SparesStored id) (Service.deletePayment now named) := by
  apply (atomic_deletePayment now named).leaves (sparesStored_refl id)
  intro store after fee returned _
  obtain ⟨-, mid, refunded, left⟩ := Service.deletePayment_outcome returned
  rw [left]
  exact (refunded.confined.trans (.deletePayment mid named)).spares other

end

/-- A request about other payments leaves a payment alone, whether it succeeds or not. -/
theorem Request.spares {request : Request} {id : PaymentId} (other : ¬ request.Concerns id)
    (config : Config) (now : Instant) :
    Leaves (SparesStored id) (request.perform config now) := by
  have refl := sparesStored_refl id
  cases request with
  | getPlan user => exact ((Service.readOnly_plan user).leaves refl).map _
  | savePlan user plan => exact (spares_savePlan user plan).bind fun _ => readOnly_pure _
  | savePlanText user text =>
    simp only [perform]
    split
    · exact (spares_savePlan user _).bind fun _ => readOnly_pure _
    · exact (readOnly_throw _).leaves refl
  | checkFormula | fitRange => exact (readOnly_pure _).leaves refl
  | quote user amount => exact ((Store.readOnly_quote config user amount).leaves refl).map _
  | recordPayment user amount description =>
    exact (spares_recordPayment user amount description).map _
  | updatePayment named gross => exact (spares_recomputeFee other gross).map _
  | deletePayment named => exact (spares_deletePayment other).map _
  | chargeFee named => exact (spares_chargeFee other).map _
  | refundFee named => exact (spares_refundFee other).map _
  | recomputeFee named gross => exact (spares_recomputeFee other gross).map _
  | makeTables => exact (leaves_makeTables refl).bind fun _ => readOnly_pure _
  | storePlan plan =>
    refine Leaves.bind (spares_statement ?_) fun _ => readOnly_pure _
    intro store after _ returned _
    rw [Store.savePlan_ok returned]
    exact .savePlan id _ _
  | insertPayment user amount description =>
    apply Leaves.map
    apply spares_statement
    intro store after number returned stored
    obtain ⟨book, entered, rfl⟩ := Store.insertPayment_ok returned
    exact .insertPayment entered ((Book.insertPayment_number entered).2 ▸ stored.ne')
  | setAmount named amount =>
    refine Leaves.bind (spares_statement ?_) fun _ => readOnly_pure _
    intro store after _ returned _
    rw [(Store.setAmount_ok returned).1]
    exact (Confined.withAmount _ named amount).spares other
  | dropPayment named =>
    apply Leaves.map
    apply spares_statement
    intro store after existed returned _
    rw [Store.deletePayment_ok returned]
    exact (Confined.deletePayment _ named).spares other
  | saveRecord record =>
    refine Leaves.bind (spares_statement ?_) fun _ => readOnly_pure _
    intro store after _ returned _
    rw [(Store.saveRecord_ok returned).1]
    exact (Confined.putRecord _ _).spares other
  | removeRecord named =>
    refine Leaves.bind (spares_statement ?_) fun _ => readOnly_pure _
    intro store after _ returned _
    rw [Store.removeRecord_ok returned]
    exact (Confined.removeRecord _ named).spares other
  | appendEntry time user about typeName payload =>
    refine Leaves.bind (spares_statement ?_) fun _ => readOnly_pure _
    intro store after _ returned _
    obtain ⟨-, book, changed, rfl⟩ := Store.statement_ok returned
    cases changed
    exact .appendEntry _ time user typeName payload other
  | _ => exact ((Store.readOnly_query _ _).leaves refl).map _

namespace Store

variable (config : Config) {store : Store}

theorem hasTables_after (step : Instant × Request) (tables : store.book.hasTables = true) :
    (after config store step).book.hasTables = true := by
  have writes : Writes (fun _ => True) (step.2.perform config step.1).run :=
    Request.writes (fun _ _ => trivial) config step.1
  exact (writes store).2.continues.tables tables

theorem afterAll_leaves {holds : Book → Prop} {steps : List (Instant × Request)}
    (each : ∀ step ∈ steps,
      Leaves (fun before after => holds before → holds after) (step.2.perform config step.1))
    (closed : store.isOpen = false) (tables : store.book.hasTables = true)
    (initial : holds store.book) :
    (afterAll config store steps).isOpen = false ∧
      (afterAll config store steps).book.hasTables = true ∧
      holds (afterAll config store steps).book := by
  induction steps generalizing store with
  | nil => exact ⟨closed, tables, initial⟩
  | cons step steps ih =>
    obtain ⟨here, later⟩ := List.forall_mem_cons.mp each
    obtain ⟨shut, keeps⟩ := here store closed tables
    exact ih later shut (hasTables_after config step tables) (keeps initial)

theorem afterAll_spares {id : PaymentId} {steps : List (Instant × Request)}
    (others : ∀ step ∈ steps, ¬ step.2.Concerns id) (closed : store.isOpen = false)
    (tables : store.book.hasTables = true) (stored : id < store.book.nextPayment) :
    (afterAll config store steps).isOpen = false ∧
      (afterAll config store steps).book.hasTables = true ∧
      Spares id store.book (afterAll config store steps).book := by
  apply afterAll_leaves config _ closed tables (.refl id store.book)
  intro step taken
  apply (Request.spares (others step taken) config step.1).mono
  intro before after spares early
  exact early.trans (spares (stored.trans_le early.next))

end Store

end PaymentFees
