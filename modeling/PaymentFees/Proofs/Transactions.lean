import PaymentFees.Request

namespace PaymentFees

variable {α β : Type}

namespace Action

theorem run_bind {σ : Type} (x : ExceptT Failure (StateM σ) α)
    (next : α → ExceptT Failure (StateM σ) β) (state : σ) :
    (x >>= next).run state =
      match x.run state with
      | (.ok value, after) => (next value).run after
      | (.error failure, after) => (.error failure, after) := by
  change (ExceptT.bindCont next (x.run state).1).run (x.run state).2 = _
  rcases x.run state with ⟨_ | value, after⟩ <;> rfl

theorem run_bind_of_ok {σ : Type} {x : ExceptT Failure (StateM σ) α} {value : α} {state after : σ}
    (ran : x.run state = (.ok value, after)) (next : α → ExceptT Failure (StateM σ) β) :
    (x >>= next).run state = (next value).run after := by
  rw [run_bind, ran]

theorem run_map {σ : Type} (f : α → β) (x : ExceptT Failure (StateM σ) α) (state : σ) :
    (f <$> x).run state = ((x.run state).1.map f, (x.run state).2) := by
  rw [← bind_pure_comp, run_bind]
  rcases x.run state with ⟨_ | value, after⟩ <;> rfl

theorem run_map_snd {σ : Type} (f : α → β) (x : ExceptT Failure (StateM σ) α) (state : σ) :
    ((f <$> x).run state).2 = (x.run state).2 := by
  rw [run_map]

theorem run_map_error {σ : Type} {f : α → β} {x : ExceptT Failure (StateM σ) α} {state : σ}
    {failure : Failure} :
    ((f <$> x).run state).1 = .error failure ↔ (x.run state).1 = .error failure := by
  rw [run_map]
  cases (x.run state).1 <;> simp [Except.map]

theorem run_bind_ok {σ : Type} {x : ExceptT Failure (StateM σ) α}
    {next : α → ExceptT Failure (StateM σ) β} {state after : σ} {value : β}
    (returned : (x >>= next).run state = (.ok value, after)) :
    ∃ first mid, x.run state = (.ok first, mid) ∧ (next first).run mid = (.ok value, after) := by
  rw [run_bind] at returned
  rcases ran : x.run state with ⟨failure | first, mid⟩
  · rw [ran] at returned
    cases returned
  · rw [ran] at returned
    exact ⟨first, mid, rfl, returned⟩

end Action

structure ReadOnly (action : Action α) : Prop where
  after_eq : ∀ store, (action.run store).2 = store

theorem readOnly_pure (value : α) : ReadOnly (pure value) := ⟨fun _ => rfl⟩

theorem readOnly_throw (failure : Failure) : ReadOnly (throw failure : Action α) := ⟨fun _ => rfl⟩

theorem ReadOnly.bind {x : Action α} {next : α → Action β} (first : ReadOnly x)
    (rest : ∀ value, ReadOnly (next value)) : ReadOnly (x >>= next) := by
  constructor
  intro store
  have same := first.after_eq store
  rw [Action.run_bind]
  rcases ran : x.run store with ⟨failure | value, mid⟩
  · rw [ran] at same
    exact same
  · rw [ran] at same
    dsimp only at same ⊢
    rw [(rest value).after_eq mid, same]

theorem ReadOnly.map {x : Action α} (first : ReadOnly x) (f : α → β) : ReadOnly (f <$> x) := by
  constructor
  intro store
  rw [Action.run_map]
  exact first.after_eq store

namespace Store

theorem run_execute (run : Book → Except Failure (α × Book)) (store : Store) :
    (Session.execute run).run store =
      match run store.book with
      | .ok (value, book) => (.ok value, { store with book := book })
      | .error failure => (.error failure, store) := rfl

theorem run_statement (table : String) (change : Book → Except Failure (α × Book))
    (store : Store) :
    (statement table change).run store =
      if store.book.hasTables then
        match change store.book with
        | .ok (value, book) => (.ok value, { store with book := book })
        | .error failure => (.error failure, store)
      else (.error (.storage (.noTable table)), store) := by
  unfold statement
  rw [run_execute]
  cases store.book.hasTables <;> rfl

theorem statement_ok {table : String} {change : Book → Except Failure (α × Book)}
    {store after : Store} {value : α}
    (returned : (statement table change).run store = (.ok value, after)) :
    store.book.hasTables = true ∧
      ∃ book, change store.book = .ok (value, book) ∧ after = { store with book := book } := by
  rw [run_statement] at returned
  split at returned
  · next tables =>
    refine ⟨tables, ?_⟩
    rcases ran : change store.book with failure | ⟨first, book⟩
    · rw [ran] at returned
      cases returned
    · rw [ran] at returned
      cases returned
      exact ⟨book, rfl, rfl⟩
  · cases returned

theorem run_query (table : String) (read : Book → Except Failure α) (store : Store) :
    (query table read).run store =
      if store.book.hasTables then (read store.book, store)
      else (.error (.storage (.noTable table)), store) := by
  unfold query
  rw [run_statement]
  cases read store.book <;> rfl

theorem query_ok {table : String} {read : Book → Except Failure α} {store after : Store} {value : α}
    (returned : (query table read).run store = (.ok value, after)) :
    store.book.hasTables = true ∧ read store.book = .ok value ∧ after = store := by
  rw [run_query] at returned
  split at returned
  · next tables =>
    obtain ⟨found, rfl⟩ := Prod.mk.inj returned
    exact ⟨tables, found, rfl⟩
  · cases returned

theorem readOnly_query (table : String) (read : Book → Except Failure α) :
    ReadOnly (query table read) := by
  constructor
  intro store
  rw [run_query]
  split <;> rfl

section

variable {store : Store} (closed : store.isOpen = false)
include closed

/-- A transaction that fails undoes everything its body did, whatever the body is, and the store is
closed after it. -/
theorem bracket_closed (failed : α → Bool) (body : StateM Store α) :
    (bracket failed body store).2.isOpen = false ∧
      (failed (bracket failed body store).1 = true → (bracket failed body store).2 = store) := by
  unfold bracket
  rw [closed]
  simp only [Bool.false_eq_true, if_false]
  rcases ran : body { store with isOpen := true } with ⟨result, after⟩
  cases failing : failed result with
  | true => simp [failing, closed]
  | false => simp [failing]

theorem transaction_closed (body : Action α) :
    ((transaction body).run store).2.isOpen = false ∧
      ∀ failure, ((transaction body).run store).1 = .error failure →
        ((transaction body).run store).2 = store := by
  obtain ⟨shut, undone⟩ := bracket_closed closed isFailure body.run
  refine ⟨shut, fun failure failing => undone ?_⟩
  change isFailure ((transaction body).run store).1 = true
  rw [failing]
  rfl

theorem transaction_ok {body : Action α} {after : Store} {value : α}
    (returned : (transaction body).run store = (.ok value, after)) :
    ∃ mid, body.run { store with isOpen := true } = (.ok value, mid) ∧
      after = { mid with isOpen := false } := by
  change bracket isFailure body.run store = _ at returned
  unfold bracket at returned
  rw [closed] at returned
  simp only [Bool.false_eq_true, if_false] at returned
  rcases ran : body.run { store with isOpen := true } with ⟨failure | first, mid⟩
  · simp only [ran, isFailure, if_true] at returned
    cases returned
  · simp only [ran, isFailure, Bool.false_eq_true, if_false] at returned
    cases returned
    exact ⟨mid, rfl, rfl⟩

end

/-- In an open transaction a body just runs. -/
theorem transaction_open {store : Store} (opened : store.isOpen = true) (body : Action α) :
    (transaction body).run store = body.run store := by
  change bracket isFailure body.run store = _
  unfold bracket
  rw [opened]
  rfl

/-- What a body answers does not depend on whether it is the outermost. -/
theorem bracket_fst (failed : α → Bool) (body : StateM Store α) (store : Store) :
    (bracket failed body store).1 = (body { store with isOpen := true }).1 := by
  cases opened : store.isOpen with
  | true =>
    have same : bracket failed body store = body store := if_pos opened
    rw [same, ← opened]
  | false =>
    unfold bracket
    simp only [opened, Bool.false_eq_true, if_false]
    rcases body { store with isOpen := true } with ⟨result, after⟩
    dsimp only
    split <;> rfl

theorem transaction_fst (body : Action α) (store : Store) :
    ((transaction body).run store).1 = (body.run { store with isOpen := true }).1 :=
  bracket_fst isFailure body.run store

end Store

theorem run_transaction_closed (body : Action α) {store : Store} (closed : store.isOpen = false) :
    (Store.transaction body).run store =
      match body.run { store with isOpen := true } with
      | (.ok value, after) => (.ok value, { after with isOpen := false })
      | (.error failure, _) => (.error failure, store) := by
  change Store.bracket Store.isFailure body.run store = _
  unfold Store.bracket
  rw [closed]
  simp only [Bool.false_eq_true, if_false]
  rcases body.run { store with isOpen := true } with ⟨_ | value, after⟩ <;> rfl

def Atomic (action : Action α) : Prop :=
  ∀ store : Store, store.isOpen = false →
    (action.run store).2.isOpen = false ∧
      ∀ failure, (action.run store).1 = .error failure → (action.run store).2 = store

theorem atomic_transaction (body : Action α) : Atomic (Store.transaction body) :=
  fun _ closed => Store.transaction_closed closed body

theorem atomic_throw (failure : Failure) : Atomic (throw failure : Action α) :=
  fun _ closed => ⟨closed, fun _ _ => rfl⟩

theorem Atomic.map {action : Action α} (atomic : Atomic action) (f : α → β) :
    Atomic (f <$> action) := by
  intro store closed
  obtain ⟨shut, undone⟩ := atomic store closed
  rw [Action.run_map_snd]
  exact ⟨shut, fun failure failing => undone failure (Action.run_map_error.mp failing)⟩

/-- What holds of all transactions whatever their bodies do, and of actions that just fail. -/
structure Transactional {m : Type → Type} [Session m] [Monad m] [MonadExcept Failure m]
    (holds : {α : Type} → m α → Prop) : Prop where
  transaction {α : Type} (body : m α) : holds (Session.transaction body)
  failure {α : Type} (failure : Failure) : holds (throw failure : m α)
  map {α β : Type} {action : m α} (f : α → β) : holds action → holds (f <$> action)

def Request.ChangesPayment : Request → Prop
  | .recordPayment .. | .updatePayment .. | .deletePayment .. => True
  | .chargeFee .. | .refundFee .. | .recomputeFee .. => True
  | _ => False

namespace Transactional

variable {m : Type → Type} [Session m] [Monad m] [MonadExcept Failure m]
  {holds : {α : Type} → m α → Prop} (transactional : Transactional @holds) (config : Config)
  (now : Instant)
include transactional

theorem recomputeFee (id : PaymentId) (gross : Float) :
    holds (Store.recomputeFee config now id gross : m FeeOutcome) := by
  unfold Store.recomputeFee
  split
  · exact transactional.failure _
  · exact transactional.transaction _

theorem recordPayment (user : UserId) (amount : Float) (description : Option String) :
    holds (Service.recordPayment config now user amount description : m Receipt) := by
  unfold Service.recordPayment
  split
  · exact transactional.failure _
  · exact transactional.transaction _

theorem request {request : Request} (changes : request.ChangesPayment) :
    holds (request.perform config now : m Answer) := by
  cases request with
  | recordPayment => exact transactional.map _ (transactional.recordPayment config now _ _ _)
  | updatePayment | recomputeFee =>
    exact transactional.map _ (transactional.recomputeFee config now _ _)
  | deletePayment | chargeFee | refundFee =>
    exact transactional.map _ (transactional.transaction _)
  | _ => exact changes.elim

end Transactional

theorem transactional_atomic : Transactional @Atomic where
  transaction := atomic_transaction
  failure := atomic_throw
  map f atomic := atomic.map f

theorem atomic_chargeFee (config : Config) (now : Instant) (id : PaymentId) :
    Atomic (Store.chargeFee config now id) := atomic_transaction _

theorem atomic_refundFee (now : Instant) (id : PaymentId) : Atomic (Store.refundFee now id) :=
  atomic_transaction _

theorem atomic_recomputeFee (config : Config) (now : Instant) (id : PaymentId) (gross : Float) :
    Atomic (Store.recomputeFee config now id gross) :=
  transactional_atomic.recomputeFee config now id gross

theorem atomic_recordPayment (config : Config) (now : Instant) (user : UserId) (amount : Float)
    (description : Option String) :
    Atomic (Service.recordPayment config now user amount description) :=
  transactional_atomic.recordPayment config now user amount description

theorem atomic_deletePayment (now : Instant) (id : PaymentId) :
    Atomic (Service.deletePayment now id) := atomic_transaction _

end PaymentFees
