import PaymentFees.Proofs.Binary.Numbers
import PaymentFees.Proofs.Reconciled
import PaymentFees.Proofs.Writes

namespace PaymentFees

open Binary Relation

/-- The rules of the tables: their keys, the payments that records refer to, and their numbers. -/
structure Integrity (book : Book) : Prop extends Ordered book where
  paid : ∀ r ∈ book.records, ∃ p ∈ book.payments, p.id = r.payment
  plans : book.plans.Pairwise (·.user ≠ ·.user)
  amounts : ∀ p ∈ book.payments, p.amount.isNaN = false
  fees : ∀ r ∈ book.records, r.fee.isNaN = false ∧ 0.0 ≤ r.fee
  grossAmounts : ∀ r ∈ book.records, r.grossAmount.isNaN = false

@[simp] theorem keptNumber_keptNumber (value : Float) :
    keptNumber (keptNumber value) = keptNumber value := by
  cases zero : value == 0.0 with
  | false =>
    have same := keptNumber_of_ne zero
    rw [same, same]
  | true =>
    have same : keptNumber value = 0.0 := if_pos zero
    rw [same]
    rfl

theorem isNaN_keptNumber {value : Float} (number : value.isNaN = false) :
    (keptNumber value).isNaN = false := by
  unfold keptNumber
  split
  · decide
  · exact number

theorem abs_keptNumber (value : Float) : (keptNumber value).abs = value.abs := by
  unfold keptNumber
  split
  · next zero =>
    obtain ⟨s, form⟩ := unpack_of_beq_zero zero
    apply eq_of_unpack
    rw [unpack_abs, unpack_abs, form]
    rfl
  · rfl

theorem zero_le_keptNumber {value : Float} (number : value.isNaN = false)
    (nonnegative : ¬ value < 0.0) : 0.0 ≤ keptNumber value := by
  unfold keptNumber
  split
  · decide
  · exact zero_le_of_not_lt number nonnegative

namespace Book

variable {book after : Book}

theorem insertPayment_number {now : Instant} {user : UserId} {amount : Float}
    {description : Option String} {id : PaymentId}
    (stored : book.insertPayment now user amount description = .ok (id, after)) :
    amount.isNaN = false ∧ id = book.nextPayment := by
  unfold insertPayment at stored
  split at stored
  · cases stored
  · next number =>
    cases stored
    exact ⟨Bool.eq_false_iff.mpr number, rfl⟩

theorem findPayment?_entered (ordered : Ordered book) {now : Instant} {user : UserId}
    {amount : Float} {description : Option String} {id : PaymentId}
    (stored : book.insertPayment now user amount description = .ok (id, after)) :
    after.findPayment? id = some ⟨id, user, keptNumber amount, description, stamp now⟩ := by
  have unused := ordered.findPayment?_next
  rw [insertPayment_ok stored, (insertPayment_number stored).2]
  unfold findPayment? at unused ⊢
  rw [List.find?_append, unused]
  simp

theorem saveRecord_paid {row : FeeRecord Stamp} (saved : book.saveRecord row = .ok after) :
    (book.findRecord? row.payment).isSome = true ∨
      (book.findPayment? row.payment).isSome = true := by
  unfold saveRecord at saved
  dsimp only at saved
  split_ifs at saved with fee gross negative charged paid
  · exact .inl charged
  · exact .inr paid

theorem mem_putRecord {row r : FeeRecord Stamp} (present : r ∈ (book.putRecord row).records) :
    r ∈ book.records ∨ r.payment = row.payment ∧ r.fee = keptNumber row.fee ∧
      r.grossAmount = keptNumber row.grossAmount := by
  unfold putRecord at present
  split at present
  · obtain ⟨old, member, rfl⟩ := List.mem_map.mp present
    split
    · next here => exact .inr ⟨here, rfl, rfl⟩
    · exact .inl member
  · rcases mem_insertRecord.mp present with rfl | member
    · exact .inr ⟨rfl, rfl, rfl⟩
    · exact .inl member

end Book

namespace Integrity

variable {book : Book}

theorem enter {now : Instant} {user : UserId} {amount : Float} {description : Option String}
    {id : PaymentId} {after : Book} (integrity : Integrity book)
    (stored : book.insertPayment now user amount description = .ok (id, after)) :
    Integrity after := by
  have ordered := integrity.toOrdered.enter stored
  have number := (Book.insertPayment_number stored).1
  rw [Book.insertPayment_ok stored] at ordered ⊢
  refine ⟨ordered, fun r present => ?_, integrity.plans, ?_, integrity.fees,
    integrity.grossAmounts⟩
  · obtain ⟨p, paid, same⟩ := integrity.paid r present
    exact ⟨p, List.mem_append_left _ paid, same⟩
  · simp only [List.forall_mem_append, List.forall_mem_singleton]
    exact ⟨integrity.amounts, isNaN_keptNumber number⟩

theorem withAmount (integrity : Integrity book) {id : PaymentId} {amount : Float}
    (number : ∀ p, book.findPayment? id = some p → amount.isNaN = false) :
    Integrity (book.withAmount id amount) := by
  refine ⟨integrity.toOrdered.withAmount id amount, fun r present => ?_, integrity.plans,
    fun p present => ?_, integrity.fees, integrity.grossAmounts⟩
  · obtain ⟨p, paid, same⟩ := integrity.paid r present
    refine ⟨_, List.mem_map_of_mem paid, ?_⟩
    split <;> exact same
  · obtain ⟨old, member, rfl⟩ := List.mem_map.mp present
    split
    · next here =>
      subst here
      have found := find?_of_mem (fun p : Payment Stamp => p.id) integrity.payments member
      exact isNaN_keptNumber (number old found)
    · exact integrity.amounts old member

theorem deletePayment (integrity : Integrity book) (id : PaymentId) :
    Integrity (book.deletePayment id) := by
  refine ⟨integrity.toOrdered.deletePayment id, fun r present => ?_, integrity.plans,
    fun p present => integrity.amounts p (List.mem_filter.mp present).1,
    fun r present => integrity.fees r (List.mem_filter.mp present).1,
    fun r present => integrity.grossAmounts r (List.mem_filter.mp present).1⟩
  obtain ⟨member, other⟩ := List.mem_filter.mp present
  obtain ⟨p, paid, same⟩ := integrity.paid r member
  refine ⟨p, List.mem_filter.mpr ⟨paid, ?_⟩, same⟩
  rw [same]
  exact other

theorem savePlan (integrity : Integrity book) (row : PlanRow) : Integrity (book.savePlan row) := by
  have plans : (book.savePlan row).plans.Pairwise (·.user ≠ ·.user) := by
    unfold Book.savePlan
    split
    · apply List.pairwise_map.mpr
      apply integrity.plans.imp
      intro p q other
      have keeps : ∀ old : PlanRow, (if old.user = row.user then
          { row with createdAt := old.createdAt } else old).user = old.user := by
        intro old
        split
        · next same => exact same.symm
        · rfl
      rw [keeps, keeps]
      exact other
    · next absent =>
      have missing := Option.not_isSome_iff_eq_none.mp absent
      refine List.pairwise_append.mpr ⟨integrity.plans, List.pairwise_singleton _ _, ?_⟩
      intro old present new last
      rw [List.mem_singleton] at last
      subst last
      exact key_ne_of_find? (fun p : PlanRow => p.user) missing present
  obtain ⟨saved, same⟩ := book.savePlan_plans row
  have ordered := integrity.toOrdered.savePlan row
  rw [same] at plans ordered ⊢
  exact ⟨ordered, integrity.paid, plans, integrity.amounts, integrity.fees, integrity.grossAmounts⟩

theorem exists_payment (integrity : Integrity book) {id : PaymentId}
    (present : (book.findRecord? id).isSome = true ∨ (book.findPayment? id).isSome = true) :
    ∃ p ∈ book.payments, p.id = id := by
  rcases present with charged | stands
  · obtain ⟨r, found⟩ := Option.isSome_iff_exists.mp charged
    obtain ⟨member, place⟩ := mem_of_find? (fun r : FeeRecord Stamp => r.payment) found
    exact place ▸ integrity.paid r member
  · obtain ⟨p, found⟩ := Option.isSome_iff_exists.mp stands
    exact ⟨p, mem_of_find? (fun p : Payment Stamp => p.id) found⟩

theorem findRecord?_next (integrity : Integrity book) :
    book.findRecord? book.nextPayment = none := by
  apply List.find?_eq_none.mpr
  intro r present
  obtain ⟨p, paid, same⟩ := integrity.paid r present
  simpa using same ▸ (integrity.next p paid).ne

theorem saveRecord (integrity : Integrity book) {row : FeeRecord Stamp} {after : Book}
    (saved : book.saveRecord row = .ok after) : Integrity after := by
  obtain ⟨p, paid, place⟩ := integrity.exists_payment (Book.saveRecord_paid saved)
  obtain ⟨rfl, fee, gross, nonnegative⟩ := Book.saveRecord_ok _ saved
  have ordered := integrity.toOrdered.putRecord row
  have written (r : FeeRecord Stamp) (present : r ∈ (book.putRecord row).records) :
      (∃ p ∈ book.payments, p.id = r.payment) ∧ (r.fee.isNaN = false ∧ 0.0 ≤ r.fee) ∧
        r.grossAmount.isNaN = false := by
    rcases Book.mem_putRecord present with old | ⟨here, fees, grosses⟩
    · exact ⟨integrity.paid r old, integrity.fees r old, integrity.grossAmounts r old⟩
    · rw [here, fees, grosses]
      exact ⟨⟨p, paid, place⟩, ⟨isNaN_keptNumber fee, zero_le_keptNumber fee nonnegative⟩,
        isNaN_keptNumber gross⟩
  obtain ⟨records, same⟩ := book.putRecord_records row
  rw [same] at ordered written ⊢
  exact ⟨ordered, fun r present => (written r present).1, integrity.plans, integrity.amounts,
    fun r present => (written r present).2.1, fun r present => (written r present).2.2⟩

theorem removeRecord (integrity : Integrity book) (id : PaymentId) :
    Integrity (book.removeRecord id) :=
  ⟨integrity.toOrdered.removeRecord id,
    fun r present => integrity.paid r (List.mem_filter.mp present).1, integrity.plans,
    integrity.amounts, fun r present => integrity.fees r (List.mem_filter.mp present).1,
    fun r present => integrity.grossAmounts r (List.mem_filter.mp present).1⟩

theorem appendEntry (integrity : Integrity book) (now : Instant) (user : UserId)
    (payment : Option PaymentId) (typeName payload : String) :
    Integrity (book.appendEntry now user payment typeName payload) :=
  ⟨⟨integrity.payments, integrity.records, integrity.next⟩, integrity.paid, integrity.plans,
    integrity.amounts, integrity.fees, integrity.grossAmounts⟩

end Integrity

theorem Write.integrity {saves : UserId → Prop} {before after : Book}
    (write : Write saves before after) (integrity : Integrity before) : Integrity after := by
  cases write with
  | makeTables =>
    exact ⟨⟨integrity.payments, integrity.records, integrity.next⟩, integrity.paid,
      integrity.plans, integrity.amounts, integrity.fees, integrity.grossAmounts⟩
  | enter stored => exact integrity.enter stored
  | amend changed =>
    obtain ⟨rfl, number⟩ := Book.setAmount_ok _ changed
    exact integrity.withAmount number
  | leave id => exact integrity.deletePayment id
  | savePlan => exact integrity.savePlan _
  | saveRecord saved => exact integrity.saveRecord saved
  | removeRecord id => exact integrity.removeRecord id
  | append => exact integrity.appendEntry _ _ _ _ _

/-- Tables and entries of the log stay where they are, and a payment that was not there has a later
number. -/
structure Continues (before after : Book) : Prop where
  tables : before.hasTables = true → after.hasTables = true
  log : before.log <+: after.log
  next : before.nextPayment ≤ after.nextPayment
  payments : ∀ p ∈ after.payments,
    (∃ q ∈ before.payments, q.id = p.id) ∨ before.nextPayment ≤ p.id

theorem Continues.refl (book : Book) : Continues book book :=
  ⟨id, List.prefix_refl _, le_rfl, fun p present => .inl ⟨p, present, rfl⟩⟩

theorem Continues.trans {first mid last : Book} (start : Continues first mid)
    (rest : Continues mid last) : Continues first last := by
  refine ⟨rest.tables ∘ start.tables, start.log.trans rest.log, start.next.trans rest.next,
    fun p present => ?_⟩
  rcases rest.payments p present with ⟨q, there, same⟩ | later
  · rw [← same]
    exact start.payments q there
  · exact .inr (start.next.trans later)

theorem Continues.of_payments {before after : Book}
    (tables : before.hasTables = true → after.hasTables = true) (log : after.log = before.log)
    (next : after.nextPayment = before.nextPayment)
    (payments : ∀ p ∈ after.payments, ∃ q ∈ before.payments, q.id = p.id) :
    Continues before after :=
  ⟨tables, log ▸ List.prefix_refl _, next.ge, fun p present => .inl (payments p present)⟩

theorem Write.continues {saves : UserId → Prop} {before after : Book}
    (write : Write saves before after) : Continues before after := by
  cases write with
  | makeTables => exact .of_payments (fun _ => rfl) rfl rfl fun p present => ⟨p, present, rfl⟩
  | removeRecord => exact .of_payments id rfl rfl fun p present => ⟨p, present, rfl⟩
  | enter stored =>
    rw [Book.insertPayment_ok stored]
    refine ⟨id, List.prefix_refl _, (Int.lt_succ _).le, ?_⟩
    simp only [List.forall_mem_append, List.forall_mem_singleton]
    exact ⟨fun p present => .inl ⟨p, present, rfl⟩, .inr le_rfl⟩
  | amend changed =>
    rw [(Book.setAmount_ok _ changed).1]
    refine .of_payments id rfl rfl fun p present => ?_
    obtain ⟨old, member, rfl⟩ := List.mem_map.mp present
    refine ⟨old, member, ?_⟩
    split <;> rfl
  | leave =>
    exact .of_payments id rfl rfl fun p present => ⟨p, (List.mem_filter.mp present).1, rfl⟩
  | @savePlan row =>
    obtain ⟨plans, same⟩ := before.savePlan_plans row
    rw [same]
    exact .of_payments id rfl rfl fun p present => ⟨p, present, rfl⟩
  | @saveRecord row after saved =>
    obtain ⟨records, same⟩ := before.putRecord_records row
    rw [(Book.saveRecord_ok _ saved).1, same]
    exact .of_payments id rfl rfl fun p present => ⟨p, present, rfl⟩
  | append =>
    exact ⟨id, List.prefix_append _ _, le_rfl, fun p present => .inl ⟨p, present, rfl⟩⟩

section

variable {saves : UserId → Prop} {before after : Book}

theorem Writings.integrity (writings : Writings saves before after)
    (integrity : Integrity before) : Integrity after := by
  induction writings with
  | refl => exact integrity
  | tail _ write ih => exact write.integrity ih

theorem Writings.continues (writings : Writings saves before after) : Continues before after := by
  induction writings with
  | refl => exact .refl _
  | tail _ write ih => exact ih.trans write.continues

end

def Answer.entered : Answer → List PaymentId
  | .id value => [value]
  | .receipt stored => [stored.payment]
  | _ => []

namespace Reply

mutual

def entered : Reply → List PaymentId
  | answer (.ok result) => result.entered
  | answer (.error _) => []
  | transaction steps _ => enteredAll steps

def enteredAll : List Reply → List PaymentId
  | [] => []
  | reply :: replies => reply.entered ++ enteredAll replies

end

end Reply

/-- The payments that the answer says were stored have numbers from the next one on. -/
def EntersNext (action : Action Answer) : Prop :=
  ∀ store answer, (action.run store).1 = .ok answer →
    ∀ id ∈ answer.entered, store.book.nextPayment ≤ id

section

variable {α : Type}

theorem entersNext_map_of {f : α → Answer} {x : Action α}
    (later : ∀ store after value, x.run store = (.ok value, after) →
      ∀ id ∈ (f value).entered, store.book.nextPayment ≤ id) : EntersNext (f <$> x) := by
  intro store answer returned
  rw [Action.run_map] at returned
  rcases ran : x.run store with ⟨failure | value, after⟩
  · rw [ran] at returned
    cases returned
  · rw [ran] at returned
    cases returned
    exact later store after value ran

theorem entersNext_map {f : α → Answer} (quiet : ∀ value, (f value).entered = [])
    (x : Action α) : EntersNext (f <$> x) := by
  apply entersNext_map_of
  intro store after value _
  simp [quiet]

theorem entersNext_bind {next : α → Answer} (quiet : ∀ value, (next value).entered = [])
    (x : Action α) : EntersNext (do return next (← x)) := by
  have same : (do return next (← x) : Action Answer) = next <$> x := by simp
  rw [same]
  exact entersNext_map quiet x

end

namespace Store

variable {now : Instant} {store : Store}

theorem insertPayment_id {user : UserId} {amount : Float} {description : Option String}
    {id : PaymentId} {after : Store}
    (returned : (insertPayment now user amount description).run store = (.ok id, after)) :
    id = store.book.nextPayment := by
  obtain ⟨book, stored, -⟩ := insertPayment_ok returned
  exact (Book.insertPayment_number stored).2

end Store

theorem Service.recordPayment_id {config : Config} {now : Instant} {store after : Store}
    {user : UserId} {amount : Float} {description : Option String} {receipt : Receipt}
    (returned : (recordPayment config now user amount description).run store =
      (.ok receipt, after)) : receipt.payment = store.book.nextPayment := by
  obtain ⟨-, mid, stored, -⟩ := recordPayment_outcome returned
  exact (Book.insertPayment_number stored).2

theorem Request.entersNext (request : Request) (config : Config) (now : Instant) :
    EntersNext (request.perform config now) := by
  cases request with
  | insertPayment user amount description =>
    apply entersNext_map_of
    intro store after number ran
    simp [Answer.entered, Store.insertPayment_id ran]
  | recordPayment user amount description =>
    apply entersNext_map_of
    intro store after receipt ran
    simp [Answer.entered, Service.recordPayment_id ran]
  | savePlan => exact entersNext_bind (fun _ => rfl) _
  | savePlanText user text =>
    simp only [perform]
    split
    · exact entersNext_bind (fun _ => rfl) _
    · intro store answer returned
      cases returned
  | checkFormula | fitRange =>
    intro store answer returned
    cases returned
    simp [Answer.entered]
  | makeTables | storePlan | setAmount | saveRecord | removeRecord | appendEntry =>
    exact entersNext_bind (fun _ => rfl) _
  | _ => exact entersNext_map (fun _ => rfl) _

namespace Script

variable (config : Config) (now : Instant)

theorem replies_cons (ending : Ending) (step : Script) (steps : List Script) (store : Store) :
    let result := (step.run config now).run store
    let replies := ((runSteps config now ending (step :: steps)).run store).1.1
    replies = [result.1] ∨
      replies = result.1 :: ((runSteps config now ending steps).run result.2).1.1 := by
  intro result replies
  have later {α : Type} (next : Reply → StateM Store α) :
      (step.run config now >>= next).run store = (next result.1).run result.2 := rfl
  simp only [replies, runSteps, later]
  split
  · exact .inl rfl
  · exact .inr rfl

mutual

theorem entersNext : ∀ (script : Script) (store : Store),
    ∀ id ∈ ((script.run config now).run store).1.entered, store.book.nextPayment ≤ id
  | request r, store => by
    have answered := r.entersNext config now store
    change ∀ id ∈ (Reply.answer ((r.perform config now).run store).1).entered, _
    cases returned : ((r.perform config now).run store).1 with
    | error failure => simp [Reply.entered]
    | ok answer => exact answered answer returned
  | transaction steps ending, store => by
    have body := entersNext_runSteps ending steps { store with isOpen := true }
    rw [← Store.bracket_fst fun result => Store.isFailure result.2] at body
    simp only [run]
    exact body

theorem entersNext_runSteps (ending : Ending) : ∀ (steps : List Script) (store : Store),
    ∀ id ∈ Reply.enteredAll ((runSteps config now ending steps).run store).1.1,
      store.book.nextPayment ≤ id
  | [], store => by
    simp only [runSteps]
    split <;> exact fun _ entered => nomatch entered
  | step :: steps, store => by
    have here := entersNext step store
    have later := entersNext_runSteps ending steps ((step.run config now).run store).2
    have writes : Writes (fun _ => True) (step.run config now) :=
      step.writes config now fun _ _ _ _ => trivial
    obtain ⟨-, writings⟩ := writes store
    have next := writings.continues.next
    rcases replies_cons config now ending step steps store with stopped | went
    · rw [stopped]
      simpa [Reply.enteredAll] using here
    · rw [went]
      simp only [Reply.enteredAll, List.forall_mem_append]
      exact ⟨here, fun id entered => next.trans (later id entered)⟩

end

end Script

theorem fresh_integrity : Integrity Store.fresh.book :=
  ⟨(fresh_reconciled .halfUp).toOrdered, fun _ present => (nomatch present), .nil,
    fun _ present => (nomatch present), fun _ present => (nomatch present),
    fun _ present => (nomatch present)⟩

namespace Store

section

variable (config : Config)

theorem afterScripts_continues (store : Store) (steps : List (Instant × Script)) :
    Continues store.book (afterScripts config store steps).book := by
  obtain ⟨-, writings⟩ := @afterScripts_writings config (fun _ => True) store steps
    fun _ _ _ _ _ _ => trivial
  exact writings.continues

theorem afterScripts_integrity {store : Store} (integrity : Integrity store.book)
    (steps : List (Instant × Script)) :
    (afterScripts config store steps).isOpen = store.isOpen ∧
      Integrity (afterScripts config store steps).book := by
  obtain ⟨same, writings⟩ := @afterScripts_writings config (fun _ => True) store steps
    fun _ _ _ _ _ _ => trivial
  exact ⟨same, writings.integrity integrity⟩

/-- After any scripts on a fresh store, of requests and of transactions in transactions, whatever
they are given and whether they fail, commit or are undone, the tables obey their rules, and so they
do within a transaction. What the log held after the first scripts is still the beginning of it. A
payment that comes after the second scripts has a greater number than every payment that stood after
the first, and so has every payment that an answer then tells of, if only for the time of a
transaction. -/
theorem integrity_kept (early middle late : List (Instant × Script)) :
    let first := afterScripts config fresh early
    let second := afterScripts config first middle
    let third := afterScripts config second late
    third.isOpen = false ∧ Integrity third.book ∧
      (∀ now ending steps,
        Integrity ((Script.runSteps config now ending steps).run
          { third with isOpen := true }).2.book) ∧
      first.book.log <+: third.book.log ∧
      (∀ p ∈ third.book.payments, (∃ q ∈ second.book.payments, q.id = p.id) ∨
        ∀ q ∈ first.book.payments, q.id < p.id) ∧
      ∀ now (script : Script), ∀ id ∈ ((script.run config now).run second).1.entered,
        ∀ q ∈ first.book.payments, q.id < id := by
  intro first second third
  obtain ⟨shut, start⟩ := afterScripts_integrity config fresh_integrity early
  obtain ⟨still, mid⟩ := afterScripts_integrity config start middle
  obtain ⟨same, last⟩ := afterScripts_integrity config mid late
  have going := afterScripts_continues config first middle
  have rest := afterScripts_continues config second late
  -- What stood after the first scripts is below the next number after the second.
  have below : ∀ q ∈ first.book.payments, q.id < second.book.nextPayment :=
    fun q present => (start.next q present).trans_le going.next
  refine ⟨same.trans (still.trans shut), last, fun now ending steps => ?_,
    (going.trans rest).log, fun p present => ?_, fun now script id entered q present => ?_⟩
  · have writes : Writes (fun _ => True) (Script.runSteps config now ending steps) :=
      Script.writes_runSteps config now ending steps fun _ _ _ _ => trivial
    exact (writes { third with isOpen := true }).2.integrity last
  · apply (rest.payments p present).imp_right
    exact fun later q stood => (below q stood).trans_le later
  · exact (below q present).trans_le (script.entersNext config now second id entered)

end

theorem integrity_kept_undone :
    let pay : Script := .request (.insertPayment 1 10.0 none)
    let first := afterScripts .standard fresh [(⟨0, 0⟩, pay)]
    let second := afterScripts .standard first
      [(⟨0, 0⟩, .request (.dropPayment 1)), (⟨0, 0⟩, .transaction [pay] (.fail .undecodable))]
    first.book.payments.map (·.id) = [1] ∧ second.book.payments = [] ∧
      ((pay.run .standard ⟨0, 0⟩).run second).1.entered = [2] ∧
      ∀ q ∈ first.book.payments, q.id < 2 := by
  intro pay first second
  have entered : ((pay.run .standard ⟨0, 0⟩).run second).1.entered = [2] := by decide +kernel
  obtain ⟨-, -, -, -, -, later⟩ := integrity_kept .standard [(⟨0, 0⟩, pay)]
    [(⟨0, 0⟩, .request (.dropPayment 1)), (⟨0, 0⟩, .transaction [pay] (.fail .undecodable))] []
  refine ⟨by decide +kernel, by decide +kernel, entered, ?_⟩
  exact later ⟨0, 0⟩ pay 2 (entered ▸ List.mem_singleton_self 2)

def Scripted (store : Store) : Prop :=
  ∃ config steps, store = afterScripts config fresh steps

theorem Scripted.sound {store : Store} (scripted : store.Scripted) :
    store.isOpen = false ∧ store.book.hasTables = true ∧ Integrity store.book := by
  obtain ⟨config, steps, rfl⟩ := scripted
  obtain ⟨closed, integrity⟩ := afterScripts_integrity config fresh_integrity steps
  exact ⟨closed, (afterScripts_continues config fresh steps).tables rfl, integrity⟩

end Store

end PaymentFees
