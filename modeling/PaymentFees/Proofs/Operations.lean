import PaymentFees.Proofs.Settlements

namespace PaymentFees

open Binary

section

variable {rounding : Rounding} {now : Instant} {before after : Book} {p : Payment Stamp}

theorem FirstCharge.effect {outcome : FeeOutcome}
    (charge : FirstCharge rounding now before p outcome after)
    (found : before.findPayment? p.id = some p) (uncharged : before.findRecord? p.id = none) :
    ∃ event, Effect rounding now before event after := by
  cases charge with
  | nothing => exact ⟨none, .nothing⟩
  | charged positive nonzero number =>
    have move : Move rounding now before _ _ :=
      .charge found positive nonzero number (.inl ⟨rfl, uncharged⟩)
    exact ⟨_, move.effect⟩

theorem Resettled.effect {gross : Float} {outcome : FeeOutcome}
    (resettled : Resettled rounding now before p gross outcome after)
    (found : before.findPayment? p.id = some p) :
    ∃ event, Effect rounding now before event after := by
  cases resettled with
  | charged positive nonzero number =>
    have move : Move rounding now before _ _ :=
      .charge found positive nonzero number (.inr rfl)
    exact ⟨_, move.effect⟩
  | cleared small charged number => exact ⟨_, (Move.clear found charged number).effect⟩
  | free small uncharged number => exact ⟨_, (Move.amend found uncharged number).effect⟩

theorem Refunded.effect {id : PaymentId} {fee : Float}
    (refunded : Refunded now id before fee after) (rounding : Rounding) :
    ∃ event, Effect rounding now before event after := by
  cases refunded with
  | nothing => exact ⟨none, .nothing⟩
  | fee charged => exact ⟨_, (Move.refund charged).effect⟩

end

/-- On a store that is closed and has its tables, the action leaves it closed and its book related
to what it was. -/
def Leaves {α : Type} (related : Book → Book → Prop) (action : Action α) : Prop :=
  ∀ store : Store, store.isOpen = false → store.book.hasTables = true →
    (action.run store).2.isOpen = false ∧ related store.book (action.run store).2.book

section

variable {α β : Type} {related : Book → Book → Prop}

theorem ReadOnly.leaves {action : Action α} (reads : ReadOnly action)
    (refl : ∀ book, related book book) : Leaves related action := by
  intro store closed _
  rw [reads.after_eq store]
  exact ⟨closed, refl store.book⟩

theorem Leaves.map {action : Action α} (leaves : Leaves related action) (f : α → β) :
    Leaves related (f <$> action) := by
  intro store closed tables
  rw [Action.run_map]
  exact leaves store closed tables

theorem Leaves.bind {x : Action α} {next : α → Action β} (leaves : Leaves related x)
    (reads : ∀ value, ReadOnly (next value)) : Leaves related (x >>= next) := by
  intro store closed tables
  have done := leaves store closed tables
  rw [Action.run_bind]
  rcases ran : x.run store with ⟨failure | value, mid⟩
  · rw [ran] at done
    exact done
  · rw [ran] at done
    dsimp only at done ⊢
    rw [(reads value).after_eq mid]
    exact done

theorem Leaves.mono {other : Book → Book → Prop} {action : Action α}
    (leaves : Leaves related action)
    (weaker : ∀ before after, related before after → other before after) : Leaves other action := by
  intro store closed tables
  obtain ⟨shut, done⟩ := leaves store closed tables
  exact ⟨shut, weaker _ _ done⟩

theorem Atomic.leaves {action : Action α} (atomic : Atomic action)
    (refl : ∀ book, related book book)
    (succeeds : ∀ {store after : Store} {value : α}, action.run store = (.ok value, after) →
      related store.book after.book) : Leaves related action := by
  -- Of an operation that is all or nothing only the successes matter.
  intro store closed _
  obtain ⟨shut, undone⟩ := atomic store closed
  refine ⟨shut, ?_⟩
  rcases ran : action.run store with ⟨failure | value, after⟩
  · rw [ran] at undone
    dsimp only at undone ⊢
    rw [undone failure rfl]
    exact refl store.book
  · exact succeeds ran

theorem atomic_statement {table : String} {change : Book → Except Failure (α × Book)} :
    Atomic (Store.statement table change) := by
  intro store closed
  rw [Store.run_statement]
  split
  · cases change store.book with
    | error failure => exact ⟨closed, fun _ _ => rfl⟩
    | ok result => exact ⟨closed, nofun⟩
  · exact ⟨closed, fun _ _ => rfl⟩

theorem leaves_makeTables (refl : ∀ book, related book book) :
    Leaves related Store.makeTables := by
  intro store closed tables
  have same : (Store.makeTables.run store).2.book = { store.book with hasTables := true } := rfl
  refine ⟨closed, ?_⟩
  rw [same, ← tables]
  exact refl store.book

theorem leaves_savePlan {now : Instant} {user : UserId} {plan : FeePlan}
    (refl : ∀ book, related book book)
    (saved : ∀ book : Book, related book
      ((book.savePlan (.ofStored (.ofPlan user plan now))).note now (.planSaved user plan.mode))) :
    Leaves related (Service.savePlan now user plan) := by
  unfold Service.savePlan
  split
  · exact (readOnly_throw _).leaves refl
  · apply Leaves.bind
    · apply (atomic_transaction _).leaves refl
      intro store after value returned
      obtain ⟨last, ran, same⟩ := Store.transaction_book returned
      obtain ⟨⟨⟩, mid, stored, ran⟩ := Action.run_bind_ok ran
      cases Store.savePlan_ok stored
      cases Store.recordEvent_ok ran
      rw [same]
      exact saved store.book
    · intro value
      apply (Store.readOnly_query _ _).bind
      exact fun _ => readOnly_pure _

end

/-- The action leaves the store closed and does to its book what an operation may do. -/
def Operates {α : Type} (rounding : Rounding) (now : Instant) (action : Action α) : Prop :=
  Leaves (fun before after => ∃ event, Effect rounding now before event after) action

section

variable {α : Type} {rounding : Rounding} {now : Instant}

theorem exists_effect_refl (book : Book) : ∃ event, Effect rounding now book event book :=
  ⟨none, .nothing⟩

theorem ReadOnly.operates {action : Action α} (reads : ReadOnly action) :
    Operates rounding now action :=
  reads.leaves exists_effect_refl

theorem Atomic.operates {action : Action α} (atomic : Atomic action)
    (succeeds : ∀ {store after : Store} {value : α}, action.run store = (.ok value, after) →
      ∃ event, Effect rounding now store.book event after.book) :
    Operates rounding now action :=
  atomic.leaves exists_effect_refl succeeds

end

section

variable {config : Config} {now : Instant}

theorem operates_insertPayment (rounding : Rounding) (user : UserId) (amount : Float)
    (description : Option String) :
    Operates rounding now (Store.insertPayment now user amount description) := by
  apply atomic_statement.operates
  intro store after id returned
  obtain ⟨book, stored, rfl⟩ := Store.insertPayment_ok returned
  exact ⟨none, (Move.enter stored).effect⟩

theorem operates_makeTables (rounding : Rounding) : Operates rounding now Store.makeTables :=
  leaves_makeTables exists_effect_refl

theorem operates_savePlan (rounding : Rounding) (user : UserId) (plan : FeePlan) :
    Operates rounding now (Service.savePlan now user plan) := by
  apply leaves_savePlan exists_effect_refl
  exact fun book => ⟨_, (Move.savePlan user plan).effect⟩

theorem operates_chargeFee (id : PaymentId) :
    Operates config.rounding now (Store.chargeFee config now id) := by
  apply (atomic_chargeFee config now id).operates
  intro store after outcome returned
  obtain ⟨p, found, rfl, -, uncharged, charge⟩ := Store.chargeFee_outcome returned
  exact charge.effect found uncharged

theorem operates_refundFee (rounding : Rounding) (id : PaymentId) :
    Operates rounding now (Store.refundFee now id) := by
  apply (atomic_refundFee now id).operates
  intro store after fee returned
  exact (Store.refundFee_outcome returned).effect rounding

theorem operates_recomputeFee (id : PaymentId) (gross : Float) :
    Operates config.rounding now (Store.recomputeFee config now id gross) := by
  apply (atomic_recomputeFee config now id gross).operates
  intro store after outcome returned
  obtain ⟨p, found, rfl, resettled⟩ := Store.recomputeFee_outcome returned
  exact resettled.effect found

theorem operates_recordPayment (user : UserId) (amount : Float) (description : Option String) :
    Operates config.rounding now (Service.recordPayment config now user amount description) := by
  apply (atomic_recordPayment config now user amount description).operates
  intro store after receipt returned
  obtain ⟨-, mid, entered, p, found, place, -, uncharged, charge⟩ :=
    Service.recordPayment_outcome returned
  rw [← place] at found uncharged
  obtain ⟨event, effect⟩ := charge.effect found uncharged
  exact ⟨event, (Move.enter entered).effect.trans effect⟩

theorem operates_deletePayment (rounding : Rounding) (id : PaymentId) :
    Operates rounding now (Service.deletePayment now id) := by
  apply (atomic_deletePayment now id).operates
  intro store after fee returned
  obtain ⟨-, mid, refunded, left⟩ := Service.deletePayment_outcome returned
  obtain ⟨event, effect⟩ := refunded.effect rounding
  rw [left]
  exact ⟨event, .then_silent effect (.leave refunded.findRecord?)⟩

end

/-- The requests that are no writes of single rows. A payment may be stored by itself. -/
def Request.IsOperation : Request → Prop
  | .storePlan .. | .setAmount .. | .dropPayment .. => False
  | .saveRecord .. | .removeRecord .. | .appendEntry .. => False
  | _ => True

theorem Request.operates {request : Request} (operation : request.IsOperation) (config : Config)
    (now : Instant) : Operates config.rounding now (request.perform config now) := by
  cases request with
  | getPlan user =>
    apply ReadOnly.operates
    apply ReadOnly.map
    apply (Store.readOnly_query _ _).bind
    exact fun _ => readOnly_pure _
  | savePlan user plan => exact (operates_savePlan _ user plan).bind fun _ => readOnly_pure _
  | savePlanText user text =>
    simp only [Request.perform]
    split
    · exact (operates_savePlan _ user _).bind fun _ => readOnly_pure _
    · exact (readOnly_throw _).operates
  | checkFormula text => exact (readOnly_pure _).operates
  | fitRange points maxFee => exact (readOnly_pure _).operates
  | quote user amount => exact (Store.readOnly_quote config user amount).operates.map _
  | recordPayment user amount description =>
    exact (operates_recordPayment user amount description).map _
  | updatePayment id gross => exact (operates_recomputeFee id gross).map _
  | deletePayment id => exact (operates_deletePayment _ id).map _
  | chargeFee id => exact (operates_chargeFee id).map _
  | refundFee id => exact (operates_refundFee _ id).map _
  | recomputeFee id gross => exact (operates_recomputeFee id gross).map _
  | makeTables => exact (operates_makeTables _).bind fun _ => readOnly_pure _
  | insertPayment user amount description =>
    exact (operates_insertPayment _ user amount description).map _
  | storePlan | setAmount | dropPayment | saveRecord | removeRecord | appendEntry =>
    exact operation.elim
  | _ => exact (Store.readOnly_query _ _).operates.map _

namespace Store

def fresh : Store := (makeTables.run (onBook .blank)).2

section

variable (config : Config)

def after (store : Store) (step : Instant × Request) : Store :=
  ((step.2.perform config step.1).run store).2

def afterAll (store : Store) (steps : List (Instant × Request)) : Store :=
  steps.foldl (after config) store

end

def tithe : List (Instant × Request) :=
  [(⟨0, 0⟩, .savePlan 1 ⟨.formula, "x * 0.1", [0.0], .empty⟩),
    (⟨0, 0⟩, .recordPayment 1 10.0 none)]

variable (config : Config) {store : Store}

theorem after_effect {step : Instant × Request} (operation : step.2.IsOperation)
    (closed : store.isOpen = false) (tables : store.book.hasTables = true) :
    (after config store step).isOpen = false ∧ (after config store step).book.hasTables = true ∧
      ∃ event, Effect config.rounding step.1 store.book event (after config store step).book := by
  obtain ⟨shut, event, effect⟩ := Request.operates operation config step.1 store closed tables
  exact ⟨shut, effect.hasTables.trans tables, event, effect⟩

theorem afterAll_keeps {holds : Book → Prop} {steps : List (Instant × Request)}
    (operations : ∀ step ∈ steps, step.2.IsOperation)
    (kept : ∀ step ∈ steps, ∀ {before after : Book} {event : Option FeeEvent},
      Effect config.rounding step.1 before event after → holds before → holds after)
    (closed : store.isOpen = false) (tables : store.book.hasTables = true)
    (initial : holds store.book) :
    (afterAll config store steps).isOpen = false ∧
      (afterAll config store steps).book.hasTables = true ∧
      holds (afterAll config store steps).book := by
  induction steps generalizing store with
  | nil => exact ⟨closed, tables, initial⟩
  | cons step steps ih =>
    obtain ⟨operation, operations⟩ := List.forall_mem_cons.mp operations
    obtain ⟨keeps, kept⟩ := List.forall_mem_cons.mp kept
    obtain ⟨shut, there, event, effect⟩ := after_effect config operation closed tables
    exact ih operations kept shut there (keeps effect initial)

end Store

end PaymentFees
