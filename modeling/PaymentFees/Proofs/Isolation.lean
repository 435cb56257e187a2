import PaymentFees.Proofs.Abreast

namespace PaymentFees

open Book

/-- An answer without the numbers of log entries, its times seen through a clock. -/
def Answer.retimed (clock : Instant → Instant) : Answer → Answer
  | .storedPlan found => .storedPlan (found.map (·.retimed clock))
  | .paymentsWithFees found =>
    .paymentsWithFees (found.map fun (p, fee) => (p.retimed clock, fee))
  | .payments found => .payments (found.map (·.retimed clock))
  | .payment found => .payment (found.map (·.retimed clock))
  | .records found => .records (found.map (·.retimed clock))
  | .record found => .record (found.map (·.retimed clock))
  | .entries found => .entries (found.map (·.unnumbered clock))
  | answer => answer

/-- The operations for a user: those that name the user, and those on a payment of the user. -/
def Request.ActsFor (user : UserId) (book : Book) : Request → Prop
  | .getPlan named | .savePlan named _ | .savePlanText named _ | .quote named _ => named = user
  | .recordPayment named _ _ | .insertPayment named _ _ => named = user
  | .listPayments named | .listRecords named => named = user
  | .updatePayment id _ | .deletePayment id => ∃ p, book.findPayment? id = some p ∧ p.user = user
  | .chargeFee id | .refundFee id | .recomputeFee id _ =>
    ∃ p, book.findPayment? id = some p ∧ p.user = user
  | _ => False

def Store.Reachable (store : Store) : Prop :=
  ∃ config steps, (∀ step ∈ steps, step.2.IsOperation) ∧ store = afterAll config fresh steps

section

variable {rounding : Rounding} {clock : Instant → Instant} {user : UserId} {id : PaymentId}
  {book first second : Book}

theorem Reconciled.owned (reconciled : Reconciled rounding book)
    (mine : ∀ p, book.findPayment? id = some p → p.user = user) : Owned user id book := by
  refine ⟨reconciled.toOrdered, fun p present place => ?_, fun r present place => ?_⟩
  · have found := find?_of_mem (fun p : Payment Stamp => p.id) reconciled.payments present
    exact mine p (place ▸ found)
  · have found := find?_of_mem (fun r : FeeRecord Stamp => r.payment) reconciled.records present
    obtain ⟨p, paid, settled⟩ := reconciled.settled r.payment r found
    rw [← settled.user]
    exact mine p (place ▸ paid)

theorem Book.Alike.exists_payment (alike : Alike clock user first second)
    (ordered : Ordered second) {p : Payment Stamp} (found : first.findPayment? id = some p)
    (mine : p.user = user) : ∃ q, second.findPayment? id = some q ∧ q.user = user := by
  obtain ⟨present, place⟩ := mem_of_find? (fun p : Payment Stamp => p.id) found
  have listed : p.retimed (Option.map clock) ∈
      (first.paymentsOf user).map (·.retimed (Option.map clock)) :=
    List.mem_map_of_mem (List.mem_filter.mpr ⟨present, beq_iff_eq.mpr mine⟩)
  rw [alike.payments] at listed
  obtain ⟨q, there, same⟩ := List.mem_map.mp listed
  obtain ⟨member, owner⟩ := List.mem_filter.mp there
  have number : q.id = id := (congrArg (·.id) same).trans place
  have here := find?_of_mem (fun p : Payment Stamp => p.id) ordered.payments member
  exact ⟨q, number ▸ here, beq_iff_eq.mp owner⟩

end

theorem mapM_congr {ε Row Value : Type} {read read' : Row → Except ε Value} {rows : List Row}
    (same : ∀ row ∈ rows, read row = read' row) : rows.mapM read = rows.mapM read' := by
  induction rows with
  | nil => rfl
  | cons row rows ih =>
    obtain ⟨here, later⟩ := List.forall_mem_cons.mp same
    rw [List.mapM_cons, List.mapM_cons, here, ih later]

theorem map_list_mapM {ε Row Value : Type} {read : Row → Except ε Value} {turn : Row → Row}
    {shown : Value → Value} (reads : ∀ row, read (turn row) = (read row).map shown)
    (rows : List Row) : (rows.mapM read).map (List.map shown) = (rows.map turn).mapM read := by
  induction rows with
  | nil => rfl
  | cons row rows ih =>
    rw [List.map_cons, List.mapM_cons, List.mapM_cons, reads, ← ih]
    cases read row with
    | error => rfl
    | ok => cases rows.mapM read <;> rfl

section

variable {rounding rounding' : Rounding} {clock : Instant → Instant} {user : UserId}
  {id : PaymentId} {first second : Store}

theorem abreast_records (agree : Agree clock user id first second) :
    Abreast clock user id
      (fun found found' => found.map (·.retimed clock) = found'.map (·.retimed clock))
      first second (Store.records user) (Store.records user) := by
  apply Abreast.query agree
  apply Outcomes.of_map
  rw [map_mapError, map_mapError, map_list_mapM (FeeRecord.read_retimed clock),
    map_list_mapM (FeeRecord.read_retimed clock), agree.alike.records]

def withFee (records : List (FeeRecord Stamp)) (p : Payment Stamp) :
    Except Failure (Payment Instant × Option Float) :=
  return (← p.read.mapError .storage, (records.find? (·.payment == p.id)).map (·.fee))

theorem withFee_retimed (records : List (FeeRecord Stamp)) (p : Payment Stamp) :
    withFee records (p.retimed (Option.map clock)) =
      (withFee records p).map fun (p, fee) => (p.retimed clock, fee) := by
  unfold withFee
  rw [Payment.read_retimed]
  cases p.read <;> rfl

theorem withFee_records (records : List (FeeRecord Stamp)) (p : Payment Stamp) :
    withFee (records.map (·.retimed (Option.map clock))) p = withFee records p := by
  unfold withFee
  rw [List.find?_map, Option.map_map]
  rfl

theorem Reconciled.mapM_withFee {book : Book} (reconciled : Reconciled rounding book)
    (user : UserId) :
    (book.paymentsOf user).mapM (withFee book.records) =
      (book.paymentsOf user).mapM (withFee (book.recordsOf user)) := by
  apply mapM_congr
  intro p present
  obtain ⟨member, mine⟩ := List.mem_filter.mp present
  have owned : Owned user p.id book := by
    apply reconciled.owned
    intro q found
    have here := find?_of_mem (fun p : Payment Stamp => p.id) reconciled.payments member
    cases here.symm.trans found
    exact beq_iff_eq.mp mine
  have record := owned.findRecord?_eq
  unfold findRecord? at record
  unfold withFee
  rw [record]

theorem abreast_paymentsWithFees (agree : Agree clock user id first second)
    (reconciled : Reconciled rounding first.book) (reconciled' : Reconciled rounding' second.book) :
    Abreast clock user id
      (fun found found' => found.map (fun (p, fee) => (p.retimed clock, fee)) =
        found'.map fun (p, fee) => (p.retimed clock, fee))
      first second (Store.paymentsWithFees user) (Store.paymentsWithFees user) := by
  apply Abreast.query agree
  apply Outcomes.of_map
  have listed {book : Book} {rounding : Rounding} (reconciled : Reconciled rounding book) :
      ((book.paymentsOf user).mapM (withFee book.records)).map
          (List.map fun (p, fee) => (p.retimed clock, fee)) =
        ((book.paymentsOf user).map (·.retimed (Option.map clock))).mapM
          (withFee ((book.recordsOf user).map (·.retimed (Option.map clock)))) := by
    rw [reconciled.mapM_withFee, map_list_mapM (withFee_retimed _)]
    exact mapM_congr fun p _ => (withFee_records _ p).symm
  have here := listed reconciled
  have there := listed reconciled'
  rw [← agree.alike.payments, ← agree.alike.records] at there
  exact here.trans there.symm

end

section

variable {config : Config} {rounding rounding' : Rounding} {clock : Instant → Instant}
  {user : UserId} {first second : Store} {now now' : Instant}

theorem stamp_map (seen : clock now = clock now')
    (readable : (stamp now).isSome = (stamp now').isSome) :
    (stamp now).map clock = (stamp now').map clock := by
  unfold stamp at *
  by_cases dated : 0 ≤ now.year ∧ now.year ≤ 9999
  · by_cases dated' : 0 ≤ now'.year ∧ now'.year ≤ 9999
    · rw [if_pos dated, if_pos dated']
      exact congrArg some seen
    · rw [if_pos dated, if_neg dated'] at readable
      cases readable
  · by_cases dated' : 0 ≤ now'.year ∧ now'.year ≤ 9999
    · rw [if_neg dated, if_pos dated'] at readable
      cases readable
    · rw [if_neg dated, if_neg dated']

theorem abreast_savePlan_answer {id : PaymentId} (agree : Agree clock user id first second)
    (seen : clock now = clock now') (readable : (stamp now).isSome = (stamp now').isSome)
    (plan : FeePlan) :
    Abreast clock user id (fun answer answer' => answer.retimed clock = answer'.retimed clock)
      first second
      (do return .storedPlan (some (← Service.savePlan now user plan)) : Action Answer)
      (do return .storedPlan (some (← Service.savePlan now' user plan)) : Action Answer) := by
  apply (abreast_serviceSavePlan agree (stamp_map seen readable) seen plan).bind
  intro saved saved' first second same agree
  exact .pure agree (congrArg (fun plan => Answer.storedPlan (some plan)) same)

theorem Request.ActsFor.abreast {request : Request} (acts : request.ActsFor user first.book)
    (isOpen : first.isOpen = second.isOpen) (tables : first.book.hasTables = true)
    (tables' : second.book.hasTables = true) (reconciled : Reconciled rounding first.book)
    (reconciled' : Reconciled rounding' second.book)
    (alike : Alike clock user first.book second.book) (seen : clock now = clock now')
    (readable : (stamp now).isSome = (stamp now').isSome) :
    ∃ id, Abreast clock user id (fun answer answer' => answer.retimed clock = answer'.retimed clock)
      first second (request.perform config now) (request.perform config now') := by
  have times := stamp_map seen readable
  have agree {id : PaymentId} (owned : ∀ p, first.book.findPayment? id = some p → p.user = user)
      (owned' : ∀ p, second.book.findPayment? id = some p → p.user = user) :
      Agree clock user id first second :=
    ⟨isOpen, tables, tables', reconciled.owned owned, reconciled'.owned owned', alike⟩
  -- The number of the next payment is nobody's.
  have whole : Agree clock user first.book.nextPayment first second := by
    apply agree
    · intro p found
      cases reconciled.findPayment?_next.symm.trans found
    · intro p found
      rw [alike.nextPayment] at found
      cases reconciled'.findPayment?_next.symm.trans found
  have single {id : PaymentId} (own : ∃ p, first.book.findPayment? id = some p ∧ p.user = user) :
      Agree clock user id first second := by
    obtain ⟨p, found, mine⟩ := own
    obtain ⟨q, found', mine'⟩ := alike.exists_payment reconciled'.toOrdered found mine
    apply agree
    · intro other present
      cases found.symm.trans present
      exact mine
    · intro other present
      cases found'.symm.trans present
      exact mine'
  cases request with
  | getPlan named =>
    cases acts
    exact ⟨_, (abreast_servicePlan whole).map fun same => congrArg Answer.plan same⟩
  | savePlan named plan =>
    cases acts
    exact ⟨_, abreast_savePlan_answer whole seen readable plan⟩
  | savePlanText named text =>
    cases acts
    simp only [perform]
    cases FeePlan.read? text with
    | none => exact ⟨_, .throw whole _⟩
    | some plan => exact ⟨_, abreast_savePlan_answer whole seen readable plan⟩
  | quote named amount =>
    cases acts
    exact ⟨_, (abreast_quote whole amount).map fun same => congrArg Answer.number same⟩
  | recordPayment named amount description =>
    cases acts
    exact ⟨_, (abreast_recordPayment whole rfl times amount description).map
      fun same => congrArg Answer.receipt same⟩
  | insertPayment named amount description =>
    cases acts
    exact ⟨_, (abreast_insertPayment whole times amount description).map
      fun same => congrArg Answer.id same.2⟩
  | listPayments named =>
    cases acts
    exact ⟨_, (abreast_paymentsWithFees whole reconciled reconciled').map
      fun same => congrArg Answer.paymentsWithFees same⟩
  | listRecords named =>
    cases acts
    exact ⟨_, (abreast_records whole).map fun same => congrArg Answer.records same⟩
  | updatePayment id gross =>
    exact ⟨id, (abreast_recomputeFee (single acts) times gross).map
      fun same => congrArg Answer.outcome same⟩
  | deletePayment id =>
    exact ⟨id, (abreast_deletePayment_service (single acts) times).map
      fun same => congrArg Answer.number same⟩
  | chargeFee id =>
    exact ⟨id, (abreast_chargeFee (single acts) times).map
      fun same => congrArg Answer.outcome same⟩
  | refundFee id =>
    exact ⟨id, (abreast_refundFee (single acts) times).map
      fun same => congrArg Answer.number same⟩
  | recomputeFee id gross =>
    exact ⟨id, (abreast_recomputeFee (single acts) times gross).map
      fun same => congrArg Answer.outcome same⟩
  | _ => exact acts.elim

end

namespace Store

theorem Reachable.reconciled {store : Store} (reachable : store.Reachable) :
    store.isOpen = false ∧ store.book.hasTables = true ∧
      ∃ rounding, Reconciled rounding store.book := by
  obtain ⟨config, steps, operations, rfl⟩ := reachable
  obtain ⟨shut, tables, reconciled⟩ := afterAll_keeps config operations
    (fun _ _ _ _ _ effect before => effect.reconciled before) rfl rfl
    (fresh_reconciled config.rounding)
  exact ⟨shut, tables, config.rounding, reconciled⟩

/-- Users are isolated. An operation for a user, whether it succeeds or fails, leaves the plan, the
payments, the fee records and the history of every other user as they were, and so every quote for
them. What it answers and what it does to the user's own rows depends on the settings, on the user's
plan, payments and records and on the number of the next payment: in a second store that agrees on
these it gives the same answer, leaves the same rows and logs the same entries, but for their
numbers. Times count as far as `clock` tells them apart. -/
theorem users_isolated (config : Config) (now : Instant) {store : Store}
    (reachable : store.Reachable) {request : Request} {user : UserId}
    (acts : request.ActsFor user store.book) :
    let result := (request.perform config now).run store
    (∀ other, other ≠ user → Untouched other store.book result.2.book ∧
      ∀ settings amount, ((Service.quote settings other amount).run result.2).1 =
        ((Service.quote settings other amount).run store).1) ∧
    ∀ (clock : Instant → Instant) (store' : Store) (now' : Instant), store'.Reachable →
      Alike clock user store.book store'.book → clock now = clock now' →
      (stamp now).isSome = (stamp now').isSome →
      let result' := (request.perform config now').run store'
      result.1.map (·.retimed clock) = result'.1.map (·.retimed clock) ∧
        Alike clock user result.2.book result'.2.book ∧
        SameNews clock user store.book store'.book result.2.book result'.2.book := by
  intro result
  obtain ⟨shut, tables, rounding, reconciled⟩ := reachable.reconciled
  refine ⟨fun other different => ?_, fun clock store' now' reachable' alike seen readable => ?_⟩
  · obtain ⟨k, runs⟩ := @Request.ActsFor.abreast config _ _ id _ _ _ now now _ acts rfl tables
      tables reconciled reconciled ⟨rfl, rfl, rfl, rfl⟩ rfl rfl
    have same := runs.concerns.first other different
    refine ⟨same, fun settings amount => ?_⟩
    apply @quote_congr settings _ _ runs.agree.tables tables id
    · rw [same.plan]
    · rw [same.payments]
  · obtain ⟨shut', tables', rounding', reconciled'⟩ := reachable'.reconciled
    obtain ⟨k, outcomes, agree, concerns⟩ := @Request.ActsFor.abreast config _ _ clock _ _ _ now
      now' _ acts (shut.trans shut'.symm) tables tables' reconciled reconciled' alike seen readable
    refine ⟨?_, agree.alike, concerns.news⟩
    change ((request.perform config now).run store).1.map _ =
      ((request.perform config now').run store').1.map _
    generalize ((request.perform config now).run store).1 = answer at outcomes
    generalize ((request.perform config now').run store').1 = answer' at outcomes
    cases outcomes with
    | error failure => rfl
    | ok same => exact congrArg Except.ok same

def besideFive : Store :=
  afterAll .standard fresh (tithe ++ [(⟨0, 0⟩, .insertPayment 2 5.0 none)])

def besideSeven : Store :=
  afterAll .standard fresh ((⟨0, 0⟩, .savePlan 2 ⟨.formula, "y", [0.0], .empty⟩) ::
    tithe ++ [(⟨0, 0⟩, .insertPayment 2 7.0 none)])

theorem users_isolated_beside :
    let request := Request.updatePayment 1 20.0
    let result := (request.perform .standard ⟨0, 0⟩).run besideFive
    let result' := (request.perform .standard ⟨1, 0⟩).run besideSeven
    let clock : Instant → Instant := fun _ => ⟨0, 0⟩
    besideFive.Reachable ∧ besideSeven.Reachable ∧ request.ActsFor 1 besideFive.book ∧
      Alike clock 1 besideFive.book besideSeven.book ∧
      Untouched 2 besideFive.book result.2.book ∧
      result.1.map (·.retimed clock) = result'.1.map (·.retimed clock) := by
  intro request result result' clock
  have reachable : besideFive.Reachable :=
    ⟨.standard, _, by simp [tithe, Request.IsOperation], rfl⟩
  have reachable' : besideSeven.Reachable :=
    ⟨.standard, _, by simp [tithe, Request.IsOperation], rfl⟩
  have acts : request.ActsFor 1 besideFive.book :=
    ⟨⟨1, 1, 9.0, none, some ⟨0, 0⟩⟩, by decide +kernel, rfl⟩
  have alike : Alike clock 1 besideFive.book besideSeven.book :=
    ⟨by decide +kernel, by decide +kernel, by decide +kernel, by decide +kernel⟩
  obtain ⟨others, same⟩ := users_isolated .standard ⟨0, 0⟩ reachable acts
  exact ⟨reachable, reachable', acts, alike, (others 2 (by decide)).1,
    (same clock besideSeven ⟨1, 0⟩ reachable' alike rfl (by decide +kernel)).1⟩

end Store

end PaymentFees
