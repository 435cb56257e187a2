import PaymentFees.Proofs.Nesting
import PaymentFees.Proofs.SavedPlans
import PaymentFees.Proofs.Statements

/-!
What a store holds, by the history of what was done to it. The plan of a user has the time of the
first one that was saved and all else of the last one. The record of a payment has the user and the
time of the first one that was saved since there was none, and the numbers of the last one.
-/

namespace PaymentFees

variable {α β : Type}

theorem Statement.unchanged_of_error (statement : Statement α) {store : Store} {failure : Failure}
    (failed : (statement.perform.run store).1 = .error failure) :
    (statement.perform.run store).2 = store := by
  have undone {β : Type} {table : String} {change : Book → Except Failure (β × Book)}
      (failed : ((Store.statement table change).run store).1 = .error failure) :
      ((Store.statement table change).run store).2 = store := by
    rw [Store.run_statement] at failed ⊢
    split
    · next tables =>
      rw [if_pos tables] at failed
      cases changed : change store.book with
      | error other => rfl
      | ok result =>
        rw [changed] at failed
        cases failed
    · rfl
  cases statement with
  | makeTables => cases failed
  | insertPayment | setAmount | deletePayment | savePlan | saveRecord | removeRecord
  | appendEntry =>
    simp only [perform, Store.insertPayment, Store.setAmount, Store.deletePayment, Store.savePlan,
      Store.saveRecord, Store.removeRecord, Store.appendEntry] at failed ⊢
    exact undone failed
  | payment? | payments | paymentsWithFees | frequency | plan? | record? | records | recordCount
  | entries =>
    simp only [perform, Store.payment?, Store.payments, Store.paymentsWithFees, Store.frequency,
      Store.plan?, Store.record?, Store.records, Store.recordCount, Store.entries, Store.query]
      at failed ⊢
    exact undone failed

namespace Body

/-- The statements that a run did and that were not undone. One that failed did nothing, and what
was done in a transaction counts if the outermost one did not fail. -/
def done : {α : Type} → Body α → Store → List (Sigma Statement)
  | _, value _, _ => []
  | _, failure _, _ => []
  | _, statement s, store =>
    match (s.perform.run store).1 with
    | .ok _ => [⟨_, s⟩]
    | .error _ => []
  | _, andThen first next, store =>
    first.done store ++
      match first.run.run store with
      | (.ok v, after) => (next v).done after
      | (.error _, _) => []
  | _, caught body, store => body.done store
  | _, transaction body, store =>
    if store.isOpen then body.done store
    else
      match (body.run.run { store with isOpen := true }).1 with
      | .ok _ => body.done { store with isOpen := true }
      | .error _ => []

/-- What each statement that is done keeps true of all that was done so far and of the book, a run
keeps true. -/
theorem done_induction {holds : List (Sigma Statement) → Book → Prop}
    (step : ∀ {before : List (Sigma Statement)} {store after : Store} {β : Type}
      (s : Statement β) {value : β}, holds before store.book →
      s.perform.run store = (.ok value, after) → holds (before ++ [⟨β, s⟩]) after.book)
    (body : Body α) {before : List (Sigma Statement)} {store : Store}
    (start : holds before store.book) :
    holds (before ++ body.done store) (body.run.run store).2.book := by
  induction body generalizing before store with
  | value v =>
    rw [done, List.append_nil]
    exact start
  | failure f =>
    rw [done, List.append_nil]
    exact start
  | statement s =>
    rcases ran : s.perform.run store with ⟨failure | v, after⟩
    · have same := s.unchanged_of_error (congrArg Prod.fst ran)
      simp only [run, done, same]
      simpa [ran] using start
    · simp only [run, done, ran]
      exact step s start ran
  | andThen first next first_ih next_ih =>
    have here := first_ih start
    simp only [run, done]
    rw [Action.run_bind, ← List.append_assoc]
    rcases ran : first.run.run store with ⟨failure | v, mid⟩
    · rw [ran] at here
      simpa using here
    · rw [ran] at here
      exact next_ih v here
  | caught body ih => exact ih start
  | transaction body ih =>
    cases opened : store.isOpen with
    | true =>
      simp only [run, done, opened, if_true, Store.transaction_open opened]
      exact ih start
    | false =>
      have inside := @ih before { store with isOpen := true } start
      simp only [run, done, opened, Bool.false_eq_true, if_false,
        run_transaction_closed body.run opened]
      rcases ran : body.run.run { store with isOpen := true } with ⟨failure | v, mid⟩
      · rw [List.append_nil]
        exact start
      · rw [ran] at inside
        exact inside

end Body

def Statement.savedPlan? : {α : Type} → Statement α → Option StoredPlan
  | _, savePlan plan => some plan
  | _, _ => none

def plansOf (user : UserId) (done : List (Sigma Statement)) : List StoredPlan :=
  (done.filterMap fun statement => statement.2.savedPlan?).filter (·.user == user)

def Statement.savesAfter (payment : PaymentId) (saves : List (FeeRecord Instant)) :
    {α : Type} → Statement α → List (FeeRecord Instant)
  | _, saveRecord record => if record.payment = payment then saves ++ [record] else saves
  | _, removeRecord id => if id = payment then [] else saves
  | _, deletePayment id => if id = payment then [] else saves
  | _, _ => saves

/-- The records that were saved for a payment since its record was last removed or the payment
deleted. -/
def savesOf (payment : PaymentId) (done : List (Sigma Statement)) : List (FeeRecord Instant) :=
  done.foldl (fun saves statement => statement.2.savesAfter payment saves) []

theorem plansOf_append (user : UserId) (done : List (Sigma Statement)) (s : Statement α) :
    plansOf user (done ++ [⟨α, s⟩]) =
      plansOf user done ++ s.savedPlan?.toList.filter (·.user == user) := by
  unfold plansOf
  rw [List.filterMap_append, List.filter_append, List.filterMap_cons]
  cases s.savedPlan? <;> rfl

theorem savesOf_append (payment : PaymentId) (done : List (Sigma Statement)) (s : Statement α) :
    savesOf payment (done ++ [⟨α, s⟩]) = s.savesAfter payment (savesOf payment done) :=
  List.foldl_append

def firstLast (saved : List α) : Option (α × α) :=
  saved.head?.bind fun first => saved.getLast?.map fun last => (first, last)

theorem firstLast_append (saved : List α) (value : α) :
    firstLast (saved ++ [value]) = some (saved.head?.getD value, value) := by
  unfold firstLast
  rw [List.getLast?_concat, List.head?_append]
  cases saved.head? <;> rfl

def planRow (ends : StoredPlan × StoredPlan) : PlanRow :=
  { PlanRow.ofStored ends.2 with createdAt := stamp ends.1.createdAt }

def recordRow (payment : PaymentId) (ends : FeeRecord Instant × FeeRecord Instant) :
    FeeRecord Stamp :=
  ⟨payment, ends.1.user, keptNumber ends.2.fee, keptNumber ends.2.grossAmount,
    stamp ends.1.createdAt, stamp ends.2.updatedAt⟩

/-- The book holds just what is left of what was done. -/
structure Tells (done : List (Sigma Statement)) (book : Book) : Prop where
  tables : book.hasTables = true
  plan : ∀ user, book.findPlan? user = (firstLast (plansOf user done)).map planRow
  record : ∀ payment,
    book.findRecord? payment = (firstLast (savesOf payment done)).map (recordRow payment)
  numbers : ∀ payment, ∀ record ∈ savesOf payment done,
    record.fee.isNaN = false ∧ record.grossAmount.isNaN = false

namespace Tells

variable {done : List (Sigma Statement)} {book after : Book}

theorem plan_kept (tells : Tells done book) {s : Statement α} (plans : after.plans = book.plans)
    (unplanned : s.savedPlan? = none) (user : UserId) :
    after.findPlan? user = (firstLast (plansOf user (done ++ [⟨α, s⟩]))).map planRow := by
  rw [plansOf_append, unplanned, Option.toList_none, List.filter_nil, List.append_nil,
    ← tells.plan user, Book.findPlan?, plans]
  rfl

theorem quiet (tells : Tells done book) {s : Statement α} (tables : after.hasTables = true)
    (plans : after.plans = book.plans) (records : after.records = book.records)
    (unplanned : s.savedPlan? = none)
    (unsaved : ∀ payment saves, s.savesAfter payment saves = saves) :
    Tells (done ++ [⟨α, s⟩]) after := by
  refine ⟨tables, tells.plan_kept plans unplanned, fun payment => ?_, fun payment => ?_⟩
  · rw [savesOf_append, unsaved, ← tells.record payment, Book.findRecord?, records]
    rfl
  · rw [savesOf_append, unsaved]
    exact tells.numbers payment

theorem savePlan (tells : Tells done book) (plan : StoredPlan) :
    Tells (done ++ [⟨Unit, .savePlan plan⟩]) (book.savePlan (.ofStored plan)) := by
  obtain ⟨plans, same⟩ := book.savePlan_plans (.ofStored plan)
  refine ⟨?_, fun user => ?_, fun payment => ?_, fun payment => ?_⟩
  · rw [same]
    exact tells.tables
  · rw [Book.findPlan?_savePlan, plansOf_append, tells.plan user]
    by_cases here : user = plan.user
    · subst here
      have added : (Statement.savePlan plan).savedPlan?.toList.filter (·.user == plan.user) =
          [plan] := by simp [Statement.savedPlan?]
      rw [added, firstLast_append, Option.map_some]
      refine (if_pos rfl).trans ?_
      cases plansOf plan.user done <;> rfl
    · have other : (plan.user == user) = false := beq_false_of_ne (Ne.symm here)
      have added : (Statement.savePlan plan).savedPlan?.toList.filter (·.user == user) = [] := by
        simp [Statement.savedPlan?, other]
      rw [added, List.append_nil]
      exact if_neg here
  · rw [savesOf_append, same]
    exact tells.record payment
  · rw [savesOf_append]
    exact tells.numbers payment

theorem saveRecord (tells : Tells done book) {record : FeeRecord Instant}
    (fee : record.fee.isNaN = false) (gross : record.grossAmount.isNaN = false) :
    Tells (done ++ [⟨Unit, .saveRecord record⟩]) (book.putRecord ⟨record.payment, record.user,
      record.fee, record.grossAmount, stamp record.createdAt, stamp record.updatedAt⟩) := by
  obtain ⟨records, same⟩ := book.putRecord_records ⟨record.payment, record.user, record.fee,
    record.grossAmount, stamp record.createdAt, stamp record.updatedAt⟩
  refine ⟨?_, fun user => ?_, fun payment => ?_, fun payment => ?_⟩
  · rw [same]
    exact tells.tables
  · rw [same]
    exact tells.plan_kept rfl rfl user
  · rw [savesOf_append, Book.findRecord?_putRecord]
    simp only [Statement.savesAfter]
    split
    · next here =>
      subst here
      rw [firstLast_append, Option.map_some]
      unfold Book.putRow
      dsimp only
      rw [tells.record record.payment]
      cases savesOf record.payment done <;> rfl
    · exact tells.record payment
  · rw [savesOf_append]
    simp only [Statement.savesAfter]
    split
    · simp only [List.forall_mem_append, List.forall_mem_singleton]
      exact ⟨tells.numbers payment, fee, gross⟩
    · exact tells.numbers payment

theorem removed (tells : Tells done book) {id : PaymentId} {s : Statement α}
    (tables : after.hasTables = true) (plans : after.plans = book.plans)
    (records : ∀ payment, after.findRecord? payment =
      if payment = id then none else book.findRecord? payment)
    (unplanned : s.savedPlan? = none)
    (removes : ∀ payment saves, s.savesAfter payment saves = if id = payment then [] else saves) :
    Tells (done ++ [⟨α, s⟩]) after := by
  refine ⟨tables, tells.plan_kept plans unplanned, fun payment => ?_, fun payment => ?_⟩
  · rw [savesOf_append, removes, records]
    by_cases here : payment = id
    · rw [if_pos here, if_pos here.symm]
      rfl
    · rw [if_neg here, if_neg (Ne.symm here)]
      exact tells.record payment
  · rw [savesOf_append, removes]
    split
    · simp
    · exact tells.numbers payment

theorem step {store : Store} {next : Store} (s : Statement β) {value : β}
    (tells : Tells done store.book) (ran : s.perform.run store = (.ok value, next)) :
    Tells (done ++ [⟨β, s⟩]) next.book := by
  cases s with
  | makeTables =>
    cases ran
    exact tells.quiet rfl rfl rfl rfl fun _ _ => rfl
  | insertPayment now user amount description =>
    obtain ⟨book, stored, rfl⟩ := Store.insertPayment_ok ran
    rw [Book.insertPayment_ok stored]
    exact tells.quiet tells.tables rfl rfl rfl fun _ _ => rfl
  | setAmount id amount =>
    obtain ⟨rfl, -⟩ := Store.setAmount_ok ran
    exact tells.quiet tells.tables rfl rfl rfl fun _ _ => rfl
  | deletePayment id =>
    rw [Store.deletePayment_ok ran]
    exact tells.removed tells.tables rfl (Book.findRecord?_deletePayment _ id) rfl fun _ _ => rfl
  | savePlan plan =>
    rw [Store.savePlan_ok ran]
    exact tells.savePlan plan
  | saveRecord record =>
    obtain ⟨rfl, fee, gross, -⟩ := Store.saveRecord_ok ran
    exact tells.saveRecord fee gross
  | removeRecord id =>
    rw [Store.removeRecord_ok ran]
    exact tells.removed tells.tables rfl (Book.findRecord?_removeRecord _ id) rfl fun _ _ => rfl
  | appendEntry now user payment typeName payload =>
    simp only [Statement.perform, Store.appendEntry] at ran
    obtain ⟨-, book, changed, rfl⟩ := Store.statement_ok ran
    cases changed
    exact tells.quiet tells.tables rfl rfl rfl fun _ _ => rfl
  | payment? | payments | paymentsWithFees | frequency | plan? | record? | records | recordCount
  | entries =>
    simp only [Statement.perform, Store.payment?, Store.payments, Store.paymentsWithFees,
      Store.frequency, Store.plan?, Store.record?, Store.records, Store.recordCount,
      Store.entries] at ran
    obtain ⟨-, -, rfl⟩ := Store.query_ok ran
    exact tells.quiet tells.tables rfl rfl rfl fun _ _ => rfl

end Tells

theorem tells_fresh : Tells [] Store.fresh.book :=
  ⟨rfl, fun _ => rfl, fun _ => rfl, fun _ _ present => nomatch present⟩

namespace StoredPlan

def reread (stored : StoredPlan) : StoredPlan :=
  { stored with
    amountTable := stored.amountTable.map Json.reread
    ranges := stored.ranges.map RangeFees.reread }

end StoredPlan

theorem RangeFees.isFinite_of_numbers {fees : RangeFees}
    (finite : ∀ v ∈ fees.numbers, v.isFinite = true) :
    fees.HasFiniteCurve ∧ fees.HasFinitePoints := by
  simp only [numbers, List.forall_mem_append, List.forall_mem_flatMap] at finite
  obtain ⟨⟨share, curve⟩, points⟩ := finite
  refine ⟨⟨fun maxFee given => ?_, fun coefficients given => ?_⟩,
    fun controls given p present => ?_⟩
  · exact share maxFee (Option.mem_toList.mpr given)
  · rw [Option.mem_def.mp given] at curve
    exact curve
  · rw [Option.mem_def.mp given] at points
    have both := points p present
    simp only [ControlPoint.numbers, List.forall_mem_cons] at both
    obtain ⟨frequency, fee, -⟩ := both
    exact ⟨frequency, fee⟩

theorem read_planRow {first last : StoredPlan}
    (finite : ∀ v ∈ last.plan.numbers, v.isFinite = true)
    (created : (stamp first.createdAt).isSome = true)
    (updated : (stamp last.updatedAt).isSome = true) :
    (planRow (first, last)).read = .ok { last.reread with createdAt := first.createdAt } := by
  simp only [FeePlan.numbers, List.forall_mem_append, List.forall_mem_flatMap] at finite
  obtain ⟨bounds, numbers⟩ := finite
  have bounds : boundsOfJson? (boundsToJson last.amountTable) = some last.reread.amountTable :=
    RangeFees.list?_reread bounds
  have ranges : rangesOfJson? (rangesToJson last.ranges) = some last.reread.ranges :=
    @FeePlan.rangesOfJson?_finite last.plan
      (fun entry present => (RangeFees.isFinite_of_numbers (numbers entry present)).1)
      fun entry present => (RangeFees.isFinite_of_numbers (numbers entry present)).2
  unfold PlanRow.read planRow PlanRow.ofStored
  dsimp only
  rw [Store.stamp_eq created, Store.stamp_eq updated, PlanRow.ofName?_name, PlanRow.read_bounds,
    PlanRow.read_ranges]
  simp only [Option.bind_eq_bind, Option.bind_some, bounds, ranges]
  rfl

theorem read_recordRow {payment : PaymentId} {first last : FeeRecord Instant}
    (created : (stamp first.createdAt).isSome = true)
    (updated : (stamp last.updatedAt).isSome = true) :
    (recordRow payment (first, last)).read = .ok ⟨payment, first.user, keptNumber last.fee,
      keptNumber last.grossAmount, first.createdAt, last.updatedAt⟩ := by
  unfold FeeRecord.read recordRow
  dsimp only
  rw [Store.stamp_eq created, Store.stamp_eq updated]
  rfl

namespace Store

/-- Whatever runs on a fresh store, the plan that is loaded for a user has the time of creation of
the first plan that was saved for the user, and all else of the last one, its numbers as they are
read from their digits. The record that is loaded for a payment has the user and the time of
creation of the first one that was saved since the record was removed or the payment deleted, and
the numbers and the time of change of the last one; a zero loses its sign. Nothing is loaded where
nothing was saved. What failed or was undone does not count. -/
theorem first_and_last_kept (body : Body α) :
    let done := body.done fresh
    let final := (body.run.run fresh).2
    (∀ user,
      (plansOf user done = [] → (plan? user).run final = (.ok none, final)) ∧
      ∀ first last, firstLast (plansOf user done) = some (first, last) →
        (∀ v ∈ last.plan.numbers, v.isFinite = true) →
        (stamp first.createdAt).isSome = true → (stamp last.updatedAt).isSome = true →
        (plan? user).run final =
          (.ok (some { last.reread with createdAt := first.createdAt }), final)) ∧
    ∀ payment,
      (savesOf payment done = [] → (record? payment).run final = (.ok none, final)) ∧
      ∀ first last, firstLast (savesOf payment done) = some (first, last) →
        (stamp first.createdAt).isSome = true → (stamp last.updatedAt).isSome = true →
        (record? payment).run final = (.ok (some ⟨payment, first.user, keptNumber last.fee,
          keptNumber last.grossAmount, first.createdAt, last.updatedAt⟩), final) ∧
        (keptNumber last.fee == last.fee) = true ∧
        (keptNumber last.grossAmount == last.grossAmount) = true := by
  intro done final
  have tells : Tells done final.book := body.done_induction
    (fun {_ _ _ _} s {_} tells ran => tells.step s ran) tells_fresh
  refine ⟨fun user => ⟨fun none => ?_, fun first last ends finite created updated => ?_⟩,
    fun payment => ⟨fun none => ?_, fun first last ends created updated => ?_⟩⟩
  · rw [run_plan? tells.tables, tells.plan, none]
    rfl
  · rw [run_plan? tells.tables, tells.plan, ends, Option.map_some]
    change (some <$> (planRow (first, last)).read, final) = _
    rw [read_planRow finite created updated]
    rfl
  · rw [run_record? tells.tables, tells.record, none]
    rfl
  · have found := tells.record payment
    rw [ends, Option.map_some] at found
    have saved : last ∈ savesOf payment done := by
      obtain ⟨head, -, rest⟩ := Option.bind_eq_some_iff.mp ends
      obtain ⟨tail, here, same⟩ := Option.map_eq_some_iff.mp rest
      cases same
      exact List.mem_of_getLast? here
    obtain ⟨fee, gross⟩ := tells.numbers payment last saved
    refine ⟨?_, keptNumber_beq fee, keptNumber_beq gross⟩
    rw [run_record?_of_found tells.tables found, read_recordRow created updated]
    rfl

/-- Two plans of a user, and one of another in between. Then records of a payment: one that is
removed, one that stays, one that fails, one that is undone, and one that changes the one that
stays. -/
def severalSaves : Body Unit :=
  let plan (user : UserId) (plan : FeePlan) (second : Int) : Body Unit :=
    .statement (.savePlan (.ofPlan user plan ⟨second, 0⟩))
  let record (user : UserId) (fee : Float) (second : Int) : Body Unit :=
    .statement (.saveRecord ⟨1, user, fee, 20.0, ⟨second, 0⟩, ⟨second, 0⟩⟩)
  let caught (body : Body Unit) : Body Unit := .andThen (.caught body) fun _ => .value ()
  let undone (body : Body Unit) : Body Unit :=
    caught (.transaction (.andThen body fun _ => .failure .undecodable))
  let pay : Body Unit :=
    .andThen (.statement (.insertPayment ⟨3, 0⟩ 1 20.0 none)) fun _ => .value ()
  [plan 1 .unconfigured 0, plan 2 .unconfigured 1, plan 1 shortPlan 2, pay, record 1 0.5 4,
    .statement (.removeRecord 1), record 1 1.0 5, caught (record 1 (-1.0) 6),
    undone (record 1 2.0 7), record 2 3.0 8].foldr (fun first rest => .andThen first fun _ => rest)
      (.value ())

theorem first_and_last_kept_several :
    let done := severalSaves.done fresh
    let final := (severalSaves.run.run fresh).2
    firstLast (plansOf 1 done) =
        some (.ofPlan 1 .unconfigured ⟨0, 0⟩, .ofPlan 1 shortPlan ⟨2, 0⟩) ∧
      firstLast (savesOf 1 done) =
        some (⟨1, 1, 1.0, 20.0, ⟨5, 0⟩, ⟨5, 0⟩⟩, ⟨1, 2, 3.0, 20.0, ⟨8, 0⟩, ⟨8, 0⟩⟩) ∧
      (plan? 1).run final =
        (.ok (some { StoredPlan.ofPlan 1 shortPlan ⟨2, 0⟩ with createdAt := ⟨0, 0⟩ }), final) ∧
      (record? 1).run final = (.ok (some ⟨1, 1, 3.0, 20.0, ⟨5, 0⟩, ⟨8, 0⟩⟩), final) ∧
      plansOf 3 done = [] ∧ (plan? 3).run final = (.ok none, final) := by
  intro done final
  have plans : firstLast (plansOf 1 done) =
      some (.ofPlan 1 .unconfigured ⟨0, 0⟩, .ofPlan 1 shortPlan ⟨2, 0⟩) := by decide +kernel
  have records : firstLast (savesOf 1 done) =
      some (⟨1, 1, 1.0, 20.0, ⟨5, 0⟩, ⟨5, 0⟩⟩, ⟨1, 2, 3.0, 20.0, ⟨8, 0⟩, ⟨8, 0⟩⟩) := by
    decide +kernel
  have nothing : plansOf 3 done = [] := by decide +kernel
  have numbers : ∀ v ∈ (StoredPlan.ofPlan 1 shortPlan ⟨2, 0⟩).plan.numbers, v.isFinite = true := by
    decide +kernel
  have same : (StoredPlan.ofPlan 1 shortPlan ⟨2, 0⟩).reread = .ofPlan 1 shortPlan ⟨2, 0⟩ := by
    decide +kernel
  obtain ⟨ofUser, ofPayment⟩ := first_and_last_kept severalSaves
  have plan := (ofUser 1).2 _ _ plans numbers (by decide +kernel) (by decide +kernel)
  have record := ((ofPayment 1).2 _ _ records (by decide +kernel) (by decide +kernel)).1
  rw [same] at plan
  exact ⟨plans, records, plan, record, nothing, (ofUser 3).1 nothing⟩

end Store

end PaymentFees
