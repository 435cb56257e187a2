import PaymentFees.Proofs.Json.Plans
import PaymentFees.Proofs.KeptPlans

namespace PaymentFees

open Book

namespace Store

variable {now : Instant} {user : UserId} {plan : FeePlan} {store : Store}

theorem run_transaction {α : Type} (closed : store.isOpen = false) {body : Action α} {value : α}
    {mid : Store} (ran : body.run { store with isOpen := true } = (.ok value, mid)) :
    (transaction body).run store = (.ok value, { mid with isOpen := false }) := by
  change bracket isFailure body.run store = _
  unfold bracket
  rw [closed, ran]
  rfl

def savedRow (now : Instant) (user : UserId) (plan : FeePlan) (book : Book) : PlanRow :=
  let row := PlanRow.ofStored (.ofPlan user plan now)
  { row with createdAt := ((book.findPlan? user).map (·.createdAt)).getD row.createdAt }

def withPlan (now : Instant) (user : UserId) (plan : FeePlan) (book : Book) : Book :=
  (book.savePlan (.ofStored (.ofPlan user plan now))).note now (.planSaved user plan.mode)

theorem findPlan?_withPlan (now : Instant) (user : UserId) (plan : FeePlan) (book : Book)
    (other : UserId) :
    (withPlan now user plan book).findPlan? other =
      if other = user then some (savedRow now user plan book) else book.findPlan? other := by
  refine (book.findPlan?_savePlan (.ofStored (.ofPlan user plan now)) other).trans ?_
  change (if other = user then _ else _) = _
  split
  · next same =>
    rw [same]
    rfl
  · rfl

theorem hasTables_withPlan (now : Instant) (user : UserId) (plan : FeePlan) (book : Book) :
    (withPlan now user plan book).hasTables = book.hasTables := by
  obtain ⟨plans, same⟩ := book.savePlan_plans (.ofStored (.ofPlan user plan now))
  unfold withPlan
  rw [same]
  rfl

theorem run_plan? (tables : store.book.hasTables = true) (user : UserId) :
    (plan? user).run store = ((store.book.findPlan? user).mapM PlanRow.read, store) := by
  unfold plan?
  rw [run_query, if_pos tables]

theorem run_savePlan_refused {fault : PlanFault} (refused : plan.check = .error fault) :
    (Service.savePlan now user plan).run store = (.error (.invalidPlan fault), store) := by
  unfold Service.savePlan
  rw [refused]
  rfl

theorem run_savePlan (closed : store.isOpen = false) (tables : store.book.hasTables = true)
    (accepted : plan.check = .ok ()) :
    (Service.savePlan now user plan).run store =
      ((savedRow now user plan store.book).read,
        { store with book := withPlan now user plan store.book }) := by
  unfold Service.savePlan
  rw [accepted]
  dsimp only
  rw [Action.run_bind]
  have body : (transaction do
      savePlan (StoredPlan.ofPlan user plan now)
      recordEvent now (.planSaved user (StoredPlan.ofPlan user plan now).mode) : Action Unit).run
      store =
      (.ok (), { store with book := withPlan now user plan store.book }) := by
    have done : (do
        savePlan (StoredPlan.ofPlan user plan now)
        recordEvent now (.planSaved user (StoredPlan.ofPlan user plan now).mode) : Action Unit).run
        { store with isOpen := true } =
        (.ok (), ⟨withPlan now user plan store.book, true⟩) := by
      obtain ⟨plans, same⟩ := store.book.savePlan_plans (.ofStored (.ofPlan user plan now))
      unfold savePlan recordEvent appendEntry withPlan
      rw [Action.run_bind, run_statement, if_pos tables]
      dsimp only
      rw [run_statement, same, if_pos tables]
      rfl
    rw [run_transaction closed done, closed]
  rw [body]
  dsimp only
  rw [Action.run_bind, run_plan? ((hasTables_withPlan now user plan store.book).trans tables)]
  dsimp only
  rw [findPlan?_withPlan, if_pos rfl]
  have found : (some (savedRow now user plan store.book)).mapM PlanRow.read =
      some <$> (savedRow now user plan store.book).read := rfl
  rw [found]
  cases (savedRow now user plan store.book).read <;> rfl

/-- The time of a saved plan can be read back, and so can that of the user's first one. -/
def Dated (now : Instant) (user : UserId) (book : Book) : Prop :=
  (stamp now).isSome = true ∧ ∀ row, book.findPlan? user = some row → row.createdAt.isSome = true

theorem stamp_eq (dated : (stamp now).isSome = true) : stamp now = some now := by
  unfold stamp at *
  split at dated
  · next inside => rw [if_pos inside]
  · cases dated

theorem dated_iff {book : Book} : Dated now user book ↔
    (stamp now).isSome = true ∧ (savedRow now user plan book).createdAt.isSome = true := by
  unfold Dated savedRow
  cases book.findPlan? user with
  | none => simp [PlanRow.ofStored, StoredPlan.ofPlan]
  | some row => simp

theorem read_savedRow {book : Book} (accepted : plan.check = .ok ())
    (dated : Dated now user book) :
    ∃ created, (savedRow now user plan book).read =
      (decoded (rangesOfJson? (rangesToJson plan.ranges))).map fun ranges =>
        { StoredPlan.ofPlan user plan.reread now with ranges, createdAt := created } := by
  obtain ⟨readable, first⟩ := dated_iff.mp dated
  obtain ⟨created, present⟩ := Option.isSome_iff_exists.mp first
  refine ⟨created, ?_⟩
  rw [← PlanRow.read_ofPlan accepted (stamp_eq readable), ← present]
  rfl

/-- Exactly a plan with finite points and readable times is read back. -/
theorem read_savedRow_ok_iff {book : Book} (accepted : plan.check = .ok ()) :
    (∃ stored, (savedRow now user plan book).read = .ok stored) ↔
      plan.HasFinitePoints ∧ Dated now user book := by
  constructor
  · rintro ⟨stored, read⟩
    obtain ⟨mode, bounds, ranges, created, updated, -, -, -, first, last, -⟩ := PlanRow.read_ok read
    have dated : Dated now user book := by
      apply dated_iff.mpr
      exact ⟨Option.isSome_of_eq_some last, Option.isSome_of_eq_some first⟩
    refine ⟨?_, dated⟩
    by_contra infinite
    obtain ⟨created, same⟩ := read_savedRow accepted dated
    rw [FeePlan.rangesOfJson?_infinite infinite, read] at same
    cases same
  · rintro ⟨points, dated⟩
    obtain ⟨created, same⟩ := read_savedRow accepted dated
    have curves := (FeePlan.isFinite_of_check accepted).2
    rw [FeePlan.rangesOfJson?_finite curves points] at same
    exact ⟨_, same⟩

theorem plan_of_read {book : Book} {stored : StoredPlan} (accepted : plan.check = .ok ())
    (read : (savedRow now user plan book).read = .ok stored) : stored.plan = plan.reread := by
  obtain ⟨points, dated⟩ := (read_savedRow_ok_iff accepted).mp ⟨stored, read⟩
  obtain ⟨created, same⟩ := read_savedRow accepted dated
  rw [FeePlan.rangesOfJson?_finite (FeePlan.isFinite_of_check accepted).2 points, read] at same
  cases same
  unfold StoredPlan.plan StoredPlan.ofPlan
  dsimp only
  congr 1
  by_cases empty : plan.formulaText = "" <;> simp [FeePlan.reread, empty]

theorem run_plan (tables : store.book.hasTables = true) (user : UserId) :
    (Service.plan user).run store =
      (((store.book.findPlan? user).mapM PlanRow.read).map fun found =>
        (found.map StoredPlan.plan).getD .unconfigured, store) := by
  unfold Service.plan
  rw [Action.run_bind, run_plan? tables]
  cases (store.book.findPlan? user).mapM PlanRow.read <;> rfl

theorem run_plan_of_row (tables : store.book.hasTables = true) {row : PlanRow}
    (found : store.book.findPlan? user = some row) :
    (Service.plan user).run store = (row.read.map StoredPlan.plan, store) := by
  have only : (some row).mapM PlanRow.read = some <$> row.read := rfl
  rw [run_plan tables, found, only]
  cases row.read <;> rfl

theorem withPlan_ne (now : Instant) (user : UserId) (plan : FeePlan) (book : Book) :
    withPlan now user plan book ≠ book := by
  intro same
  obtain ⟨plans, saved⟩ := book.savePlan_plans (.ofStored (.ofPlan user plan now))
  have entries := congrArg (·.log.length) same
  unfold withPlan at entries
  rw [saved] at entries
  simp [Book.note, Book.appendEntry] at entries

/-- A refused plan leaves nothing behind exactly if it has a fault: then the whole store is as it
was. A plan without a fault is stored and logged before it is read back, and it is read back exactly
if all its control points are finite and the times are readable. If not, saving fails although the
plan is stored, and so does every later reader. -/
theorem refused_plan_unchanged_iff (closed : store.isOpen = false)
    (tables : store.book.hasTables = true) (now : Instant) (user : UserId) (plan : FeePlan) :
    let result := (Service.savePlan now user plan).run store
    ((∀ failure, result.1 = .error failure → result.2 = store) ↔
        (plan.check = .ok () → plan.HasFinitePoints ∧ Dated now user store.book)) ∧
      (∀ fault, plan.check = .error fault → result = (.error (.invalidPlan fault), store)) ∧
      (plan.check = .ok () → result.2.book = withPlan now user plan store.book ∧
        ((∃ stored, result.1 = .ok stored) ↔ plan.HasFinitePoints ∧ Dated now user store.book) ∧
        ∀ failure, result.1 = .error failure →
          ((Service.plan user).run result.2).1 = .error failure) := by
  intro result
  have refused : ∀ fault, plan.check = .error fault →
      result = (.error (.invalidPlan fault), store) :=
    fun fault => run_savePlan_refused
  have saved (accepted : plan.check = .ok ()) : result = ((savedRow now user plan store.book).read,
      { store with book := withPlan now user plan store.book }) :=
    run_savePlan closed tables accepted
  refine ⟨⟨fun unchanged accepted => ?_, fun readable failure failed => ?_⟩, refused,
    fun accepted => ?_⟩
  · apply (read_savedRow_ok_iff accepted).mp
    cases read : (savedRow now user plan store.book).read with
    | ok stored => exact ⟨stored, rfl⟩
    | error failure =>
      have same := unchanged failure (by rw [saved accepted, read])
      rw [saved accepted] at same
      exact absurd (congrArg Store.book same) (withPlan_ne now user plan store.book)
  · cases checked : plan.check with
    | error fault => rw [refused fault checked]
    | ok done =>
      obtain ⟨stored, read⟩ := (read_savedRow_ok_iff checked).mpr (readable checked)
      rw [saved checked, read] at failed
      cases failed
  · rw [saved accepted]
    refine ⟨rfl, read_savedRow_ok_iff accepted, fun failure failed => ?_⟩
    have there : (withPlan now user plan store.book).hasTables = true :=
      (hasTables_withPlan now user plan store.book).trans tables
    have found : (withPlan now user plan store.book).findPlan? user =
        some (savedRow now user plan store.book) :=
      (findPlan?_withPlan now user plan store.book user).trans (if_pos rfl)
    dsimp only at failed
    rw [run_plan_of_row there found, failed]
    rfl

theorem refused_plan_unchanged_iff_unsorted :
    let plan : FeePlan := ⟨.table, "", [10.0, 5.0], .empty⟩
    fresh.isOpen = false ∧ fresh.book.hasTables = true ∧ plan.check = .error (.notAscending 1) ∧
      (Service.savePlan ⟨0, 0⟩ 1 plan).run fresh =
        (.error (.invalidPlan (.notAscending 1)), fresh) := by
  intro plan
  have checked : plan.check = .error (.notAscending 1) := by decide +kernel
  exact ⟨rfl, rfl, checked, (refused_plan_unchanged_iff rfl rfl ⟨0, 0⟩ 1 plan).2.1 _ checked⟩

def strayPlan : FeePlan :=
  ⟨.table, "", [0.0], ⟨[("0", ⟨some 0.05, some [0.1], some [⟨0.0 / 0.0, 0.01⟩]⟩)], by simp⟩⟩

/-- The plan has no fault, so it is stored, and then nobody can read it. -/
theorem not_refused_plan_unchanged :
    let result := (Service.savePlan ⟨0, 0⟩ 1 strayPlan).run fresh
    result.1 = .error .undecodable ∧ result.2 ≠ fresh ∧ result.2.book.log.length = 1 ∧
      ((Service.plan 1).run result.2).1 = .error .undecodable := by
  decide +kernel

variable (config : Config)

theorem run_savePlan_other {other : UserId} (different : other ≠ user)
    (closed : store.isOpen = false) (tables : store.book.hasTables = true) (plan : FeePlan) :
    ((Service.savePlan now other plan).run store).2.book.findPlan? user =
      store.book.findPlan? user := by
  cases checked : plan.check with
  | error fault => rw [run_savePlan_refused checked]
  | ok done =>
    rw [run_savePlan closed tables checked]
    exact (findPlan?_withPlan now other plan store.book user).trans (if_neg different.symm)

theorem findPlan?_after {step : Instant × Request} (operation : step.2.IsOperation)
    (other : ¬ step.2.SavesPlanOf user) (closed : store.isOpen = false)
    (tables : store.book.hasTables = true) :
    (after config store step).book.findPlan? user = store.book.findPlan? user := by
  obtain ⟨time, request⟩ := step
  have answered (named : UserId) (plan : FeePlan) (different : named ≠ user) :
      ((do return .storedPlan (some (← Service.savePlan time named plan)) : Action Answer).run
        store).2.book.findPlan? user = store.book.findPlan? user := by
    have kept : ((Service.savePlan time named plan).run store).2.book.findPlan? user =
        store.book.findPlan? user :=
      run_savePlan_other different closed tables plan
    rw [Action.run_bind]
    rcases ran : (Service.savePlan time named plan : Action _).run store with
      ⟨failure | stored, mid⟩
    · rw [ran] at kept
      exact kept
    · rw [ran] at kept
      exact kept
  unfold after
  cases request with
  | savePlan named plan => exact answered named plan other
  | savePlanText named text =>
    simp only [Request.perform]
    cases FeePlan.read? text with
    | none => rfl
    | some plan => exact answered named plan other
  | _ =>
    have kept := Request.keepsPlans operation (fun _ => id) config time store
    exact congrArg (List.find? (·.user == user)) kept

theorem findPlan?_afterAll {steps : List (Instant × Request)}
    (operations : ∀ step ∈ steps, step.2.IsOperation ∧ ¬ step.2.SavesPlanOf user)
    (closed : store.isOpen = false) (tables : store.book.hasTables = true) :
    (afterAll config store steps).book.hasTables = true ∧
      (afterAll config store steps).book.findPlan? user = store.book.findPlan? user := by
  induction steps generalizing store with
  | nil => exact ⟨tables, rfl⟩
  | cons step steps ih =>
    obtain ⟨⟨operation, other⟩, operations⟩ := List.forall_mem_cons.mp operations
    obtain ⟨shut, there, -⟩ := after_effect config operation closed tables
    obtain ⟨last, found⟩ := ih operations shut there
    exact ⟨last, found.trans (findPlan?_after config operation other closed tables)⟩

theorem run_savePlan_ok (closed : store.isOpen = false) (tables : store.book.hasTables = true)
    {stored : StoredPlan}
    (saved : ((Service.savePlan now user plan).run store).1 = .ok stored) :
    plan.check = .ok () ∧ (savedRow now user plan store.book).read = .ok stored := by
  cases checked : plan.check with
  | error fault =>
    rw [run_savePlan_refused checked] at saved
    cases saved
  | ok done =>
    rw [run_savePlan closed tables checked] at saved
    exact ⟨rfl, saved⟩

/-- Whatever else happens, readers get what was read back when the plan was saved. -/
theorem run_plan_afterAll (closed : store.isOpen = false) (tables : store.book.hasTables = true)
    (accepted : plan.check = .ok ()) {steps : List (Instant × Request)}
    (operations : ∀ step ∈ steps, step.2.IsOperation ∧ ¬ step.2.SavesPlanOf user) :
    ((Service.plan user).run
      (afterAll config ((Service.savePlan now user plan).run store).2 steps)).1 =
      (savedRow now user plan store.book).read.map StoredPlan.plan := by
  have there : (withPlan now user plan store.book).hasTables = true :=
    (hasTables_withPlan now user plan store.book).trans tables
  rw [run_savePlan closed tables accepted]
  obtain ⟨last, same⟩ := @findPlan?_afterAll user
    { store with book := withPlan now user plan store.book } config steps operations closed there
  have row := same.trans
    ((findPlan?_withPlan now user plan store.book user).trans (if_pos rfl))
  rw [run_plan_of_row last row]

/-- A saved plan is what readers get, whatever else happens, until the user saves one again: its
mode, its formula, its keys and which of its parts are there, and its numbers as they are read from
their digits. So it is the plan itself exactly if every number is read as what it was, and that is
so for numbers of few digits. -/
theorem saved_plan_returned (closed : store.isOpen = false)
    (tables : store.book.hasTables = true) {stored : StoredPlan}
    (saved : ((Service.savePlan now user plan).run store).1 = .ok stored)
    {steps : List (Instant × Request)}
    (operations : ∀ step ∈ steps, step.2.IsOperation ∧ ¬ step.2.SavesPlanOf user) :
    let final := afterAll config ((Service.savePlan now user plan).run store).2 steps
    let found := ((Service.plan user).run final).1
    stored.plan = plan.reread ∧ found = .ok plan.reread ∧
      (found = .ok plan ↔ ∀ v ∈ plan.numbers, Json.reread v = v) ∧
      ((∀ v ∈ plan.numbers, Json.HasShortDigits v) → found = .ok plan) := by
  intro final found
  obtain ⟨accepted, read⟩ := run_savePlan_ok closed tables saved
  have plans := plan_of_read accepted read
  have returned : found = .ok plan.reread := by
    refine (run_plan_afterAll config closed tables accepted operations).trans ?_
    rw [read, ← plans]
    rfl
  have same : found = .ok plan ↔ ∀ v ∈ plan.numbers, Json.reread v = v := by
    rw [returned, ← FeePlan.reread_eq_iff]
    exact ⟨fun same => Except.ok.inj same, fun same => congrArg Except.ok same⟩
  refine ⟨plans, returned, same, fun short => same.mpr fun v present => ?_⟩
  exact Json.reread_of_hasShortDigits (short v present)

def shortPlan : FeePlan :=
  ⟨.formula, "x * 0.1", [0.0, 12.5],
    ⟨[("0", ⟨some 0.05, some [0.1, -0.25], some [⟨0.5, 1e-7⟩]⟩)], by simp⟩⟩

theorem saved_plan_returned_short :
    let saved := (Service.savePlan ⟨0, 0⟩ 1 shortPlan).run fresh
    let steps : List (Instant × Request) :=
      [(⟨1, 0⟩, .recordPayment 1 10.0 none), (⟨2, 0⟩, .savePlan 2 strayPlan)]
    fresh.isOpen = false ∧ fresh.book.hasTables = true ∧
      saved.1 = .ok (.ofPlan 1 shortPlan ⟨0, 0⟩) ∧
      (∀ step ∈ steps, step.2.IsOperation ∧ ¬ step.2.SavesPlanOf 1) ∧
      ((Service.plan 1).run (afterAll .standard saved.2 steps)).1 = .ok shortPlan := by
  intro saved steps
  have accepted : saved.1 = .ok (.ofPlan 1 shortPlan ⟨0, 0⟩) := by decide +kernel
  have operations : ∀ step ∈ steps, step.2.IsOperation ∧ ¬ step.2.SavesPlanOf 1 := by
    simp [steps, Request.IsOperation, Request.SavesPlanOf]
  obtain ⟨-, -, same, -⟩ := saved_plan_returned .standard rfl rfl accepted operations
  exact ⟨rfl, rfl, accepted, operations, same.mpr (by decide +kernel)⟩

def curvePlan (coefficient : Float) : FeePlan :=
  ⟨.table, "", [0.0], ⟨[("0", ⟨some 0.05, some [coefficient], none⟩)], by simp⟩⟩

/-- Sixteen digits that are read as the next number. -/
theorem not_saved_plan_returned :
    let result := (Service.savePlan ⟨0, 0⟩ 1 (curvePlan 0.9452706955539223)).run fresh
    result.1 = .ok (.ofPlan 1 (curvePlan 0.9452706955539224) ⟨0, 0⟩) ∧
      ((Service.plan 1).run result.2).1 = .ok (curvePlan 0.9452706955539224) ∧
      curvePlan 0.9452706955539223 ≠ curvePlan 0.9452706955539224 := by
  decide +kernel

end Store

end PaymentFees
