import PaymentFees.Proofs.Questions
import PaymentFees.Request

/-!
Operations are written with statements, failures and transactions, in whatever session they run. So
two sessions that agree on these agree on all operations.
-/

namespace PaymentFees

inductive Statement : Type → Type
  | makeTables : Statement Unit
  | insertPayment (now : Instant) (user : UserId) (amount : Float) (description : Option String) :
    Statement PaymentId
  | payment? (id : PaymentId) : Statement (Option (Payment Instant))
  | setAmount (id : PaymentId) (amount : Float) : Statement Unit
  | deletePayment (id : PaymentId) : Statement Bool
  | payments (user : UserId) : Statement (List (Payment Instant))
  | paymentsWithFees (user : UserId) : Statement (List (Payment Instant × Option Float))
  | frequency (user : UserId) (range : AmountRange) : Statement Float
  | plan? (user : UserId) : Statement (Option StoredPlan)
  | savePlan (plan : StoredPlan) : Statement Unit
  | record? (id : PaymentId) : Statement (Option (FeeRecord Instant))
  | saveRecord (record : FeeRecord Instant) : Statement Unit
  | removeRecord (id : PaymentId) : Statement Unit
  | records (user : UserId) : Statement (List (FeeRecord Instant))
  | recordCount : Statement Nat
  | appendEntry (now : Instant) (user : UserId) (payment : Option PaymentId)
      (typeName payload : String) : Statement Unit
  | entries (user : UserId) : Statement (List (LogEntry Instant))

def Statement.perform {m : Type → Type} [Session m] : {α : Type} → Statement α → m α
  | _, makeTables => Store.makeTables
  | _, insertPayment now user amount description => Store.insertPayment now user amount description
  | _, payment? id => Store.payment? id
  | _, setAmount id amount => Store.setAmount id amount
  | _, deletePayment id => Store.deletePayment id
  | _, payments user => Store.payments user
  | _, paymentsWithFees user => Store.paymentsWithFees user
  | _, frequency user range => Store.frequency user range
  | _, plan? user => Store.plan? user
  | _, savePlan plan => Store.savePlan plan
  | _, record? id => Store.record? id
  | _, saveRecord record => Store.saveRecord record
  | _, removeRecord id => Store.removeRecord id
  | _, records user => Store.records user
  | _, recordCount => Store.recordCount
  | _, appendEntry now user payment typeName payload =>
    Store.appendEntry now user payment typeName payload
  | _, entries user => Store.entries user

/-- How what runs in one session stands to the same in another. -/
structure Simulation {m n : Type → Type} [Session m] [Monad m] [MonadExcept Failure m]
    [Session n] [Monad n] [MonadExcept Failure n]
    (related : {α : Type} → m α → n α → Prop) : Prop where
  value {α : Type} (value : α) : related (pure value : m α) (pure value : n α)
  failure {α : Type} (failure : Failure) : related (throw failure : m α) (throw failure : n α)
  statement {α : Type} (statement : Statement α) :
    related (statement.perform : m α) (statement.perform : n α)
  andThen {α β : Type} {x : m α} {y : n α} {next : α → m β} {next' : α → n β} :
    related x y → (∀ value, related (next value) (next' value)) →
      related (x >>= next) (y >>= next')
  transaction {α : Type} {x : m α} {y : n α} :
    related x y → related (Session.transaction x) (Session.transaction y)

namespace Simulation

variable {m n : Type → Type} [Session m] [Monad m] [MonadExcept Failure m] [Session n] [Monad n]
  [MonadExcept Failure n] {related : {α : Type} → m α → n α → Prop}
  (simulation : Simulation @related) (config : Config) (now : Instant)
include simulation

theorem guarded {α : Type} {x : Unit → m α} {y : Unit → n α} (condition : Bool) (failure : Failure)
    (rest : related (x ()) (y ())) :
    related (if condition then throw failure >>= x else x ())
      (if condition then throw failure >>= y else y ()) := by
  split_ifs
  · exact simulation.andThen (simulation.failure failure) fun _ => rest
  · exact rest

theorem recordEvent (event : FeeEvent) :
    related (Store.recordEvent now event : m Unit) (Store.recordEvent now event) :=
  simulation.statement
    (.appendEntry now event.user event.payment? event.typeName event.payload)

theorem requirePayment (id : PaymentId) :
    related (Store.requirePayment id : m (Payment Instant)) (Store.requirePayment id) := by
  apply simulation.andThen (simulation.statement (.payment? id))
  intro found
  cases found with
  | none => exact simulation.failure _
  | some payment => exact simulation.value payment

theorem refundFee (id : PaymentId) :
    related (Store.refundFee now id : m Float) (Store.refundFee now id) := by
  apply simulation.transaction
  apply simulation.andThen (simulation.statement (.record? id))
  intro found
  cases found with
  | none => exact simulation.value 0.0
  | some record =>
    apply simulation.andThen (simulation.statement (.removeRecord id))
    intro _
    exact simulation.andThen (simulation.recordEvent now _) fun _ => simulation.value record.fee

theorem plan (user : UserId) :
    related (Service.plan user : m FeePlan) (Service.plan user) :=
  simulation.andThen (simulation.statement (.plan? user)) fun _ => simulation.value _

theorem savePlan (user : UserId) (plan : FeePlan) :
    related (Service.savePlan now user plan : m StoredPlan) (Service.savePlan now user plan) := by
  unfold Service.savePlan
  cases plan.check with
  | error fault => exact simulation.failure _
  | ok =>
    refine simulation.andThen (simulation.transaction ?_) fun _ => ?_
    · apply simulation.andThen (simulation.statement (.savePlan (.ofPlan user plan now)))
      exact fun _ => simulation.recordEvent now _
    · exact simulation.andThen (simulation.statement (.plan? user)) fun _ => simulation.value _

theorem deletePayment (id : PaymentId) :
    related (Service.deletePayment now id : m Float) (Service.deletePayment now id) := by
  apply simulation.transaction
  apply simulation.andThen (simulation.statement (.payment? id))
  intro found
  apply simulation.guarded
  apply simulation.andThen (simulation.refundFee now id)
  intro refunded
  exact simulation.andThen (simulation.statement (.deletePayment id)) fun _ =>
    simulation.value refunded

variable [LawfulMonad m] [LawfulMonad n]

theorem map {α β : Type} {x : m α} {y : n α} (f : α → β) (first : related x y) :
    related (f <$> x) (f <$> y) := by
  rw [← bind_pure_comp, ← bind_pure_comp]
  exact simulation.andThen first fun value => simulation.value (f value)

theorem rawFee (plan : StoredPlan) (size : Float) :
    related (Quote.rawFee config Store.sources plan size : m Float)
      (Quote.rawFee config Store.sources plan size) := by
  by_cases needs : ∃ range, Quote.Needs plan size range
  · obtain ⟨range, needs⟩ := needs
    rw [Quote.rawFee_of_needs needs, Quote.rawFee_of_needs needs]
    exact simulation.map _ (simulation.statement (.frequency plan.user range))
  · have unneeded := not_exists.mp needs
    rw [Quote.rawFee_of_not_needs unneeded, Quote.rawFee_of_not_needs unneeded]
    exact simulation.value 0.0

theorem quote (user : UserId) (amount : Float) :
    related (Quote.fee config Store.sources user amount : m Float)
      (Quote.fee config Store.sources user amount) := by
  cases finite : amount.isFinite with
  | false =>
    unfold Quote.fee
    rw [finite]
    exact simulation.value 0.0
  | true =>
    rw [Quote.fee_eq_settle config Store.sources user finite,
      Quote.fee_eq_settle config Store.sources user finite]
    apply simulation.andThen (simulation.statement (.plan? user))
    intro found
    cases found with
    | none => exact simulation.value 0.0
    | some plan =>
      exact simulation.andThen (simulation.rawFee config plan amount.abs) fun _ =>
        simulation.value _

theorem chargeFee (id : PaymentId) :
    related (Store.chargeFee config now id : m FeeOutcome) (Store.chargeFee config now id) := by
  apply simulation.transaction
  apply simulation.andThen (simulation.requirePayment id)
  intro payment
  apply simulation.andThen (simulation.statement (.record? id))
  intro found
  apply simulation.guarded
  apply simulation.andThen (simulation.quote config payment.user payment.amount)
  intro fee
  split_ifs
  · exact simulation.value _
  · let net := amountAfterFee config.rounding payment.amount fee
    apply simulation.andThen (simulation.statement (.setAmount id net))
    intro _
    apply simulation.andThen
      (simulation.statement (.saveRecord ⟨id, payment.user, fee, payment.amount, now, now⟩))
    intro _
    exact simulation.andThen (simulation.recordEvent now _) fun _ => simulation.value _

theorem recomputeFee (id : PaymentId) (gross : Float) :
    related (Store.recomputeFee config now id gross : m FeeOutcome)
      (Store.recomputeFee config now id gross) := by
  unfold Store.recomputeFee
  split_ifs
  · exact simulation.failure _
  apply simulation.transaction
  apply simulation.andThen (simulation.requirePayment id)
  intro payment
  apply simulation.andThen (simulation.statement (.record? id))
  intro existing
  apply simulation.andThen (simulation.quote config payment.user gross)
  intro fee
  have ending (net : Float) :
      related (do Store.setAmount id net; return ⟨fee, net⟩ : m FeeOutcome)
        (do Store.setAmount id net; return ⟨fee, net⟩) :=
    simulation.andThen (simulation.statement (.setAmount id net)) fun _ => simulation.value _
  have logged (event : FeeEvent) (net : Float) :
      related (do Store.recordEvent now event; Store.setAmount id net; return ⟨fee, net⟩ :
          m FeeOutcome)
        (do Store.recordEvent now event; Store.setAmount id net; return ⟨fee, net⟩) :=
    simulation.andThen (simulation.recordEvent now event) fun _ => ending net
  dsimp only
  split_ifs
  · cases existing with
    | none =>
      exact simulation.andThen
        (simulation.statement (.saveRecord ⟨id, payment.user, fee, gross, now, now⟩))
        fun _ => logged _ _
    | some record =>
      exact simulation.andThen
        (simulation.statement
          (.saveRecord { record with fee := fee, grossAmount := gross, updatedAt := now }))
        fun _ => logged _ _
  · cases existing with
    | none => exact ending gross
    | some record =>
      exact simulation.andThen (simulation.statement (.removeRecord id)) fun _ => logged _ _

theorem recordPayment (user : UserId) (amount : Float) (description : Option String) :
    related (Service.recordPayment config now user amount description : m Receipt)
      (Service.recordPayment config now user amount description) := by
  unfold Service.recordPayment
  split_ifs
  · exact simulation.failure _
  apply simulation.transaction
  apply simulation.andThen (simulation.statement (.insertPayment now user amount description))
  intro id
  exact simulation.andThen (simulation.chargeFee config now id) fun _ => simulation.value _

theorem request (request : Request) :
    related (request.perform config now : m Answer) (request.perform config now) := by
  have single {α : Type} (statement : Statement α) (answer : Answer) :
      related (do let _ ← statement.perform; return answer : m Answer)
        (do let _ ← statement.perform; return answer) :=
    simulation.andThen (simulation.statement statement) fun _ => simulation.value answer
  have saved (user : UserId) (plan : FeePlan) :
      related (do return .storedPlan (some (← Service.savePlan now user plan)) : m Answer)
        (do return .storedPlan (some (← Service.savePlan now user plan))) :=
    simulation.andThen (simulation.savePlan now user plan) fun _ => simulation.value _
  cases request with
  | getPlan user => exact simulation.map _ (simulation.plan user)
  | savePlan user plan => exact saved user plan
  | savePlanText user text =>
    simp only [Request.perform]
    cases FeePlan.read? text with
    | none => exact simulation.failure _
    | some plan => exact saved user plan
  | checkFormula | fitRange => exact simulation.value _
  | quote => exact simulation.map _ (simulation.quote config _ _)
  | recordPayment => exact simulation.map _ (simulation.recordPayment config now _ _ _)
  | updatePayment | recomputeFee =>
    exact simulation.map _ (simulation.recomputeFee config now _ _)
  | deletePayment => exact simulation.map _ (simulation.deletePayment now _)
  | chargeFee => exact simulation.map _ (simulation.chargeFee config now _)
  | refundFee => exact simulation.map _ (simulation.refundFee now _)
  | makeTables => exact single .makeTables _
  | storePlan plan => exact single (.savePlan plan) _
  | setAmount id amount => exact single (.setAmount id amount) _
  | saveRecord record => exact single (.saveRecord record) _
  | removeRecord id => exact single (.removeRecord id) _
  | appendEntry time user payment typeName payload =>
    exact single (.appendEntry time user payment typeName payload) _
  | insertPayment user amount description =>
    exact simulation.map _ (simulation.statement (.insertPayment now user amount description))
  | dropPayment id => exact simulation.map _ (simulation.statement (.deletePayment id))
  | getPayment id => exact simulation.map _ (simulation.statement (.payment? id))
  | getPayments user => exact simulation.map _ (simulation.statement (.payments user))
  | listPayments user => exact simulation.map _ (simulation.statement (.paymentsWithFees user))
  | getStoredPlan user => exact simulation.map _ (simulation.statement (.plan? user))
  | getRecord id => exact simulation.map _ (simulation.statement (.record? id))
  | listRecords user => exact simulation.map _ (simulation.statement (.records user))
  | countRecords => exact simulation.map _ (simulation.statement .recordCount)
  | listEntries user => exact simulation.map _ (simulation.statement (.entries user))
  | getFrequency user range =>
    exact simulation.map _ (simulation.statement (.frequency user range))

end Simulation

end PaymentFees
