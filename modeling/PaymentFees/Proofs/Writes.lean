import PaymentFees.Proofs.Moves
import Mathlib.Logic.Relation

/-!
What an action may write. Whatever a request or a script of requests does, in a transaction or not,
comes down to single writes to the tables, and plans are saved only for the users it names.
-/

namespace PaymentFees

open Relation

/-- A statement that changes a book. Only these users' plans may be saved. -/
inductive Write (saves : UserId → Prop) (before : Book) : Book → Prop
  | makeTables : Write saves before { before with hasTables := true }
  | enter {now : Instant} {user : UserId} {amount : Float} {description : Option String}
      {id : PaymentId} {after : Book}
      (stored : before.insertPayment now user amount description = .ok (id, after)) :
    Write saves before after
  | amend {id : PaymentId} {amount : Float} {after : Book}
      (changed : before.setAmount id amount = .ok after) : Write saves before after
  | leave (id : PaymentId) : Write saves before (before.deletePayment id)
  | savePlan {row : PlanRow} (allowed : saves row.user) : Write saves before (before.savePlan row)
  | saveRecord {row : FeeRecord Stamp} {after : Book} (saved : before.saveRecord row = .ok after) :
    Write saves before after
  | removeRecord (id : PaymentId) : Write saves before (before.removeRecord id)
  | append (now : Instant) (user : UserId) (payment : Option PaymentId)
      (typeName payload : String) :
    Write saves before (before.appendEntry now user payment typeName payload)

abbrev Writings (saves : UserId → Prop) : Book → Book → Prop := ReflTransGen (Write saves)

/-- Running this comes down to writes, and leaves a transaction open if one was open before. -/
def Writes {α : Type} (saves : UserId → Prop) (x : StateM Store α) : Prop :=
  ∀ store, (x store).2.isOpen = store.isOpen ∧ Writings saves store.book (x store).2.book

section

variable {α β : Type} {saves : UserId → Prop}

theorem writes_pure (value : α) : Writes saves (pure value) := fun _ => ⟨rfl, .refl⟩

theorem Writes.followed {x : StateM Store α} {next : α → StateM Store β} (first : Writes saves x)
    (rest : ∀ value, Writes saves (next value)) : Writes saves (x >>= next) := by
  intro store
  obtain ⟨same, writings⟩ := first store
  obtain ⟨still, others⟩ := rest (x store).1 (x store).2
  exact ⟨still.trans same, writings.trans others⟩

theorem Writes.bracket {body : StateM Store α} (writes : Writes saves body) (failed : α → Bool) :
    Writes saves (Store.bracket failed body) := by
  intro store
  cases opened : store.isOpen with
  | true =>
    have same : Store.bracket failed body store = body store := if_pos opened
    rw [same, ← opened]
    exact writes store
  | false =>
    obtain ⟨-, writings⟩ := writes { store with isOpen := true }
    unfold Store.bracket
    simp only [opened, Bool.false_eq_true, if_false]
    rcases ran : body { store with isOpen := true } with ⟨result, after⟩
    rw [ran] at writings
    dsimp only at writings ⊢
    cases failed result with
    | true => exact ⟨opened, .refl⟩
    | false => exact ⟨rfl, writings⟩

theorem ReadOnly.writes {action : Action α} (reads : ReadOnly action) :
    Writes saves action.run := by
  intro store
  rw [reads.after_eq store]
  exact ⟨rfl, .refl⟩

theorem Writes.bind {x : Action α} {next : α → Action β} (first : Writes saves x.run)
    (rest : ∀ value, Writes saves (next value).run) : Writes saves (x >>= next).run := by
  intro store
  obtain ⟨same, writings⟩ := first store
  rw [Action.run_bind]
  rcases ran : x.run store with ⟨failure | value, mid⟩
  · rw [ran] at same writings
    exact ⟨same, writings⟩
  · rw [ran] at same writings
    obtain ⟨still, others⟩ := rest value mid
    exact ⟨still.trans same, writings.trans others⟩

theorem Writes.map {action : Action α} (writes : Writes saves action.run) (f : α → β) :
    Writes saves (f <$> action).run := by
  intro store
  rw [Action.run_map]
  exact writes store

theorem Writes.transaction {body : Action α} (writes : Writes saves body.run) :
    Writes saves (Store.transaction body).run :=
  writes.bracket _

theorem writes_statement {table : String} {change : Book → Except Failure (α × Book)}
    (write : ∀ before value after, change before = .ok (value, after) → Write saves before after) :
    Writes saves (Store.statement table change).run := by
  intro store
  rw [Store.run_statement]
  split
  · cases changed : change store.book with
    | error failure => exact ⟨rfl, .refl⟩
    | ok result => exact ⟨rfl, .single (write _ _ _ changed)⟩
  · exact ⟨rfl, .refl⟩

end

namespace Store

variable {saves : UserId → Prop} {config : Config} {now : Instant}

theorem writes_makeTables : Writes saves makeTables.run := fun _ => ⟨rfl, .single .makeTables⟩

theorem writes_insertPayment (user : UserId) (amount : Float) (description : Option String) :
    Writes saves (insertPayment now user amount description).run := by
  apply writes_statement
  intro before id after stored
  exact .enter (mapError_ok stored)

theorem writes_setAmount (id : PaymentId) (amount : Float) :
    Writes saves (setAmount id amount).run := by
  apply writes_statement
  intro before value after changed
  exact .amend (return_mapError_ok changed)

theorem writes_deletePayment (id : PaymentId) : Writes saves (deletePayment id).run := by
  apply writes_statement
  intro before value after changed
  cases changed
  exact .leave id

theorem writes_savePlan {plan : StoredPlan} (allowed : saves plan.user) :
    Writes saves (savePlan plan).run := by
  apply writes_statement
  intro before value after changed
  cases changed
  exact .savePlan allowed

theorem writes_saveRecord (record : FeeRecord Instant) :
    Writes saves (saveRecord record).run := by
  apply writes_statement
  intro before value after changed
  exact .saveRecord (return_mapError_ok changed)

theorem writes_removeRecord (id : PaymentId) : Writes saves (removeRecord id).run := by
  apply writes_statement
  intro before value after changed
  cases changed
  exact .removeRecord id

theorem writes_appendEntry (time : Instant) (user : UserId) (payment : Option PaymentId)
    (typeName payload : String) :
    Writes saves (appendEntry time user payment typeName payload).run := by
  apply writes_statement
  intro before value after changed
  cases changed
  exact .append time user payment typeName payload

theorem writes_recordEvent (event : FeeEvent) : Writes saves (recordEvent now event).run :=
  writes_appendEntry _ _ _ _ _

theorem readOnly_requirePayment (id : PaymentId) : ReadOnly (requirePayment id) := by
  apply (readOnly_query _ _).bind
  intro found
  cases found with
  | none => exact readOnly_throw _
  | some payment => exact readOnly_pure _

theorem writes_chargeFee (id : PaymentId) : Writes saves (chargeFee config now id).run := by
  apply Writes.transaction
  apply (readOnly_requirePayment id).writes.bind
  intro payment
  apply (readOnly_query _ _).writes.bind
  intro found
  split
  · exact (readOnly_throw _).writes
  · apply (readOnly_quote config payment.user payment.amount).writes.bind
    intro fee
    split
    · exact (readOnly_pure _).writes
    · apply (writes_setAmount id _).bind
      intro _
      apply (writes_saveRecord _).bind
      intro _
      apply (writes_recordEvent _).bind
      exact fun _ => (readOnly_pure _).writes

theorem writes_refundFee (id : PaymentId) : Writes saves (refundFee now id).run := by
  apply Writes.transaction
  apply (readOnly_query _ _).writes.bind
  intro found
  cases found with
  | none => exact (readOnly_pure _).writes
  | some record =>
    apply (writes_removeRecord id).bind
    intro _
    apply (writes_recordEvent _).bind
    exact fun _ => (readOnly_pure _).writes

theorem writes_recomputeFee (id : PaymentId) (gross : Float) :
    Writes saves (recomputeFee config now id gross).run := by
  unfold recomputeFee
  split
  · exact (readOnly_throw _).writes
  apply Writes.transaction
  apply (readOnly_requirePayment id).writes.bind
  intro payment
  apply (readOnly_query _ _).writes.bind
  intro existing
  apply (readOnly_quote config payment.user gross).writes.bind
  intro fee
  have ending (net : Float) : Writes saves
      (do setAmount id net; return ⟨fee, net⟩ : Action FeeOutcome).run := by
    apply (writes_setAmount id net).bind
    exact fun _ => (readOnly_pure _).writes
  have logged (event : FeeEvent) (net : Float) : Writes saves
      (do recordEvent now event; setAmount id net; return ⟨fee, net⟩ : Action FeeOutcome).run := by
    apply (writes_recordEvent event).bind
    exact fun _ => ending net
  by_cases positive : fee > 0.0
  · simp only [if_pos positive]
    cases existing with
    | none | some record =>
      apply (writes_saveRecord _).bind
      exact fun _ => logged _ _
  · simp only [if_neg positive]
    cases existing with
    | none => exact ending gross
    | some record =>
      apply (writes_removeRecord id).bind
      exact fun _ => logged _ _

end Store

namespace Service

variable {saves : UserId → Prop} {config : Config} {now : Instant}

theorem readOnly_plan (user : UserId) : ReadOnly (plan user) := by
  apply (Store.readOnly_query _ _).bind
  exact fun _ => readOnly_pure _

theorem writes_savePlan {user : UserId} (allowed : saves user) (plan : FeePlan) :
    Writes saves (savePlan now user plan).run := by
  unfold savePlan
  split
  · exact (readOnly_throw _).writes
  · refine Writes.bind (Writes.transaction ?_) fun _ => ?_
    · apply (Store.writes_savePlan allowed).bind
      exact fun _ => Store.writes_recordEvent _
    · exact ((Store.readOnly_query _ _).bind fun _ => readOnly_pure _).writes

theorem writes_recordPayment (user : UserId) (amount : Float) (description : Option String) :
    Writes saves (recordPayment config now user amount description).run := by
  unfold recordPayment
  split
  · exact (readOnly_throw _).writes
  apply Writes.transaction
  apply (Store.writes_insertPayment user amount description).bind
  intro id
  apply (Store.writes_chargeFee id).bind
  exact fun _ => (readOnly_pure _).writes

theorem writes_deletePayment (id : PaymentId) : Writes saves (deletePayment now id).run := by
  apply Writes.transaction
  apply (Store.readOnly_query _ _).writes.bind
  intro found
  split
  · exact (readOnly_throw _).writes
  · apply (Store.writes_refundFee id).bind
    intro refunded
    apply (Store.writes_deletePayment id).bind
    exact fun _ => (readOnly_pure _).writes

end Service

def Request.WritesPlanOf (user : UserId) : Request → Prop
  | .savePlan named _ | .savePlanText named _ => named = user
  | .storePlan plan => plan.user = user
  | _ => False

open Store in
theorem Request.writes {saves : UserId → Prop} {request : Request}
    (allowed : ∀ user, request.WritesPlanOf user → saves user) (config : Config) (now : Instant) :
    Writes saves (request.perform config now).run := by
  cases request with
  | getPlan user => exact (Service.readOnly_plan user).writes.map _
  | savePlan user plan =>
    exact (Service.writes_savePlan (allowed user rfl) plan).bind fun _ => (readOnly_pure _).writes
  | savePlanText user text =>
    simp only [perform]
    split
    · exact (Service.writes_savePlan (allowed user rfl) _).bind fun _ => (readOnly_pure _).writes
    · exact (readOnly_throw _).writes
  | checkFormula | fitRange => exact (readOnly_pure _).writes
  | quote user amount => exact (readOnly_quote config user amount).writes.map _
  | recordPayment => exact (Service.writes_recordPayment _ _ _).map _
  | updatePayment => exact (writes_recomputeFee _ _).map _
  | deletePayment => exact (Service.writes_deletePayment _).map _
  | chargeFee => exact (writes_chargeFee _).map _
  | refundFee => exact (writes_refundFee _).map _
  | recomputeFee => exact (writes_recomputeFee _ _).map _
  | makeTables => exact writes_makeTables.bind fun _ => (readOnly_pure _).writes
  | storePlan plan =>
    exact (Store.writes_savePlan (allowed plan.user rfl)).bind fun _ => (readOnly_pure _).writes
  | insertPayment => exact (writes_insertPayment _ _ _).map _
  | setAmount => exact (writes_setAmount _ _).bind fun _ => (readOnly_pure _).writes
  | dropPayment => exact (Store.writes_deletePayment _).map _
  | saveRecord => exact (writes_saveRecord _).bind fun _ => (readOnly_pure _).writes
  | removeRecord => exact (writes_removeRecord _).bind fun _ => (readOnly_pure _).writes
  | appendEntry => exact (writes_appendEntry _ _ _ _ _).bind fun _ => (readOnly_pure _).writes
  | _ => exact (readOnly_query _ _).writes.map _

namespace Script

mutual

def requests : Script → List Request
  | request r => [r]
  | transaction steps _ => requestsAll steps

def requestsAll : List Script → List Request
  | [] => []
  | step :: steps => step.requests ++ requestsAll steps

end

mutual

theorem writes {saves : UserId → Prop} (config : Config) (now : Instant) :
    ∀ script : Script, (∀ r ∈ script.requests, ∀ user, r.WritesPlanOf user → saves user) →
      Writes saves (script.run config now)
  | request r, allowed => by
    simp only [requests, List.mem_singleton, forall_eq] at allowed
    simp only [run]
    exact Request.writes allowed config now
  | transaction steps ending, allowed => by
    simp only [requests] at allowed
    simp only [run]
    apply ((writes_runSteps config now ending steps allowed).bracket _).followed
    exact fun _ => writes_pure _

theorem writes_runSteps {saves : UserId → Prop} (config : Config) (now : Instant)
    (ending : Ending) :
    ∀ steps : List Script, (∀ r ∈ requestsAll steps, ∀ user, r.WritesPlanOf user → saves user) →
      Writes saves (runSteps config now ending steps)
  | [], _ => by
    simp only [runSteps]
    split <;> exact writes_pure _
  | step :: steps, allowed => by
    simp only [requestsAll, List.forall_mem_append] at allowed
    have others := writes_runSteps config now ending steps allowed.2
    simp only [runSteps]
    apply (writes config now step allowed.1).followed
    intro reply
    split
    · exact writes_pure _
    · exact others.followed fun _ => writes_pure _

end

end Script

namespace Store

def afterScripts (config : Config) (store : Store) (steps : List (Instant × Script)) : Store :=
  steps.foldl (fun store step => ((step.2.run config step.1).run store).2) store

theorem afterScripts_writings (config : Config) {saves : UserId → Prop} {store : Store}
    {steps : List (Instant × Script)}
    (allowed : ∀ step ∈ steps, ∀ r ∈ step.2.requests, ∀ user, r.WritesPlanOf user → saves user) :
    (afterScripts config store steps).isOpen = store.isOpen ∧
      Writings saves store.book (afterScripts config store steps).book := by
  induction steps generalizing store with
  | nil => exact ⟨rfl, .refl⟩
  | cons step steps ih =>
    obtain ⟨here, later⟩ := List.forall_mem_cons.mp allowed
    obtain ⟨same, writings⟩ := step.2.writes config step.1 here store
    obtain ⟨still, others⟩ := @ih ((step.2.run config step.1).run store).2 later
    exact ⟨still.trans same, writings.trans others⟩

end Store

end PaymentFees
