import PaymentFees.Proofs.Sessions
import PaymentFees.Proofs.Operations

/-!
Transactions nest by joining. A body of a transaction runs statements, passes failures on or catches
them, and may open transactions within it, to any depth. Only the outermost one decides what is
kept: all that was done, if it ends well, and nothing if it fails.
-/

namespace PaymentFees

variable {α β : Type}

namespace Statement

theorem perform_isOpen (statement : Statement α) (store : Store) (flag : Bool) :
    statement.perform.run { store with isOpen := flag } =
      ((statement.perform.run store).1,
        { (statement.perform.run store).2 with isOpen := flag }) := by
  have changed {β : Type} (table : String) (change : Book → Except Failure (β × Book)) :
      (Store.statement table change).run { store with isOpen := flag } =
        (((Store.statement table change).run store).1,
          { ((Store.statement table change).run store).2 with isOpen := flag }) := by
    rw [Store.run_statement, Store.run_statement]
    dsimp only
    split
    · cases change store.book <;> rfl
    · rfl
  cases statement with
  | makeTables => rfl
  | insertPayment | setAmount | deletePayment | savePlan | saveRecord | removeRecord
  | appendEntry =>
    simp only [perform, Store.insertPayment, Store.setAmount, Store.deletePayment, Store.savePlan,
      Store.saveRecord, Store.removeRecord, Store.appendEntry]
    exact changed _ _
  | payment? | payments | paymentsWithFees | frequency | plan? | record? | records | recordCount
  | entries =>
    simp only [perform, Store.payment?, Store.payments, Store.paymentsWithFees, Store.frequency,
      Store.plan?, Store.record?, Store.records, Store.recordCount, Store.entries, Store.query]
    exact changed _ _

end Statement

namespace Store

def afterStatements (store : Store) (statements : List (Sigma Statement)) : Store :=
  statements.foldl (fun store statement => (statement.2.perform.run store).2) store

theorem afterStatements_append (store : Store) (first rest : List (Sigma Statement)) :
    store.afterStatements (first ++ rest) = (store.afterStatements first).afterStatements rest :=
  List.foldl_append ..

theorem afterStatements_isOpen (store : Store) (statements : List (Sigma Statement))
    (flag : Bool) :
    ({ store with isOpen := flag } : Store).afterStatements statements =
      { store.afterStatements statements with isOpen := flag } := by
  induction statements generalizing store with
  | nil => rfl
  | cons statement statements ih =>
    have same := congrArg Prod.snd (statement.2.perform_isOpen store flag)
    refine Eq.trans ?_ (ih (statement.2.perform.run store).2)
    exact congrArg (fun store : Store => store.afterStatements statements) same

theorem isOpen_afterStatements (store : Store) (statements : List (Sigma Statement)) :
    (store.afterStatements statements).isOpen = store.isOpen := by
  have same := store.afterStatements_isOpen statements store.isOpen
  rw [congrArg Store.isOpen same]

end Store

/-- What runs in a transaction. What comes next may depend on all that was answered so far. -/
inductive Body : Type → Type 1
  | value {α : Type} (value : α) : Body α
  | failure {α : Type} (failure : Failure) : Body α
  | statement {α : Type} (statement : Statement α) : Body α
  | andThen {α β : Type} (first : Body α) (next : α → Body β) : Body β
  | caught {α : Type} (body : Body α) : Body (Except Failure α)
  | transaction {α : Type} (body : Body α) : Body α

namespace Body

def run : {α : Type} → Body α → Action α
  | _, value v => pure v
  | _, failure f => throw f
  | _, statement s => s.perform
  | _, andThen first next => first.run >>= fun v => (next v).run
  | _, caught body => ExceptT.lift body.run.run
  | _, transaction body => Store.transaction body.run

/-- The statements that a run on a store executes, in order. -/
def executed : {α : Type} → Body α → Store → List (Sigma Statement)
  | _, value _, _ => []
  | _, failure _, _ => []
  | _, statement s, _ => [⟨_, s⟩]
  | _, andThen first next, store =>
    first.executed store ++
      match first.run.run store with
      | (.ok v, after) => (next v).executed after
      | (.error _, _) => []
  | _, caught body, store => body.executed store
  | _, transaction body, store => body.executed { store with isOpen := true }

theorem run_joined (body : Body α) {store : Store} (opened : store.isOpen = true) :
    (body.run.run store).2 = store.afterStatements (body.executed store) := by
  induction body generalizing store with
  | value v => rfl
  | failure f => rfl
  | statement s => rfl
  | andThen first next first_ih next_ih =>
    have here := first_ih opened
    simp only [run, executed]
    rw [Action.run_bind, Store.afterStatements_append, ← here]
    rcases ran : first.run.run store with ⟨failure | v, mid⟩
    · rfl
    · rw [ran] at here
      have still : (store.afterStatements (first.executed store)).isOpen = true := by
        rw [Store.isOpen_afterStatements, opened]
      rw [← here] at still
      exact next_ih v still
  | caught body ih =>
    exact ih opened
  | transaction body ih =>
    have same : ({ store with isOpen := true } : Store) = store := by
      rw [← opened]
    simp only [run, executed]
    rw [Store.transaction_open opened, same]
    exact ih opened

end Body

def Written (action : Action α) : Prop := ∃ body : Body α, body.run = action

theorem Written.bind {x : Action α} {next : α → Action β} (first : Written x)
    (rest : ∀ value, Written (next value)) : Written (x >>= next) := by
  obtain ⟨body, rfl⟩ := first
  choose bodies same using rest
  refine ⟨.andThen body bodies, ?_⟩
  simp only [Body.run, same]

theorem simulation_written :
    Simulation (m := Action) (n := Action) fun action _ => Written action where
  value v := ⟨.value v, rfl⟩
  failure f := ⟨.failure f, rfl⟩
  statement s := ⟨.statement s, rfl⟩
  andThen := Written.bind
  transaction := by
    rintro α x - ⟨body, rfl⟩
    exact ⟨.transaction body, rfl⟩

namespace Store

/-- Transactions nest by joining. Of a body in which statements, requests and other transactions may
fail or succeed, and their failures be caught or not, all is undone if the body itself fails, also
what inner transactions ended well with. If it ends well, the store is what its statements make of
it when each is run by itself, one after the other, those of inner transactions that failed
included. No transaction is open afterwards. -/
theorem transactions_join (config : Config) (now : Instant) (body : Body α) (book : Book) :
    let store := onBook book
    let opened : Store := ⟨book, true⟩
    let result := (transaction body.run).run store
    (∀ failure, (body.run.run opened).1 = .error failure → result = (.error failure, store)) ∧
      (∀ value, (body.run.run opened).1 = .ok value →
        result = (.ok value, store.afterStatements (body.executed opened))) ∧
      result.2.isOpen = false ∧
      ∀ request : Request, Written (request.perform config now) := by
  intro store opened result
  have outermost : result =
      match body.run.run opened with
      | (.ok value, after) => (.ok value, { after with isOpen := false })
      | (.error failure, _) => (.error failure, store) := run_transaction_closed body.run rfl
  have joined : (body.run.run opened).2 = _ := body.run_joined rfl
  rcases ran : body.run.run opened with ⟨first, mid⟩
  rw [ran] at outermost joined
  dsimp only at joined
  refine ⟨?_, ?_, ?_, simulation_written.request config now⟩
  · rintro failure rfl
    exact outermost
  · rintro value rfl
    rw [outermost, joined]
    exact congrArg (Prod.mk _) (opened.afterStatements_isOpen (body.executed opened) false).symm
  · exact (transaction_closed rfl body.run).1

/-- A payment is stored in an inner transaction that fails, and one in another that does not. If the
failure is caught both stay, and if the body fails in the end none does. -/
theorem transactions_join_caught :
    let pay (amount : Float) : Body PaymentId :=
      .statement (.insertPayment ⟨0, 0⟩ 1 amount none)
    let failing : Body PaymentId := .andThen (pay 5.0) fun _ => .failure .undecodable
    let inner : Body PaymentId := .andThen (.caught (.transaction failing)) fun _ =>
      .transaction (pay 7.0)
    let outer : Body PaymentId := .andThen inner fun _ => .failure .undecodable
    let start := onBook fresh.book
    ((transaction inner.run).run start).2.book.payments.map (·.amount) = [5.0, 7.0] ∧
      (transaction outer.run).run start = (.error .undecodable, start) := by
  intro pay failing inner outer start
  have returned : (inner.run.run ⟨fresh.book, true⟩).1 = .ok 2 := by decide +kernel
  have failed : (outer.run.run ⟨fresh.book, true⟩).1 = .error .undecodable := by decide +kernel
  obtain ⟨-, kept, -⟩ := transactions_join .standard ⟨0, 0⟩ inner fresh.book
  obtain ⟨undone, -⟩ := transactions_join .standard ⟨0, 0⟩ outer fresh.book
  refine ⟨?_, undone .undecodable failed⟩
  rw [kept 2 returned]
  decide +kernel

end Store

end PaymentFees
