import PaymentFees.Proofs.Deletions
import PaymentFees.Proofs.FirstCharges

namespace PaymentFees

def Request.IsService : Request → Prop
  | .getPlan .. | .savePlan .. | .savePlanText .. | .checkFormula .. | .fitRange .. => True
  | .quote .. | .recordPayment .. | .updatePayment .. | .deletePayment .. => True
  | .listPayments .. | .listRecords .. | .listEntries .. => True
  | .chargeFee .. | .refundFee .. | .recomputeFee .. => True
  | _ => False

def Store.Served (store : Store) : Prop :=
  ∃ config steps, (∀ step ∈ steps, step.2.IsService) ∧ store = afterAll config fresh steps

def PaymentsDated (book : Book) : Prop := ∀ p ∈ book.payments, p.createdAt.isSome = true

section

variable {rounding : Rounding} {now : Instant} {before after : Book} {p : Payment Stamp}

theorem PaymentsDated.withAmount (dated : PaymentsDated before) (id : PaymentId) (amount : Float) :
    PaymentsDated (before.withAmount id amount) := by
  intro p present
  obtain ⟨old, member, rfl⟩ := List.mem_map.mp present
  have time := dated old member
  split <;> exact time

theorem FirstCharge.paymentsDated {outcome : FeeOutcome}
    (charge : FirstCharge rounding now before p outcome after) (dated : PaymentsDated before) :
    PaymentsDated after := by
  cases charge with
  | nothing => exact dated
  | charged =>
    rw [Book.charge_eq]
    exact dated.withAmount _ _

theorem Resettled.paymentsDated {gross : Float} {outcome : FeeOutcome}
    (resettled : Resettled rounding now before p gross outcome after)
    (dated : PaymentsDated before) : PaymentsDated after := by
  cases resettled with
  | charged =>
    rw [Book.charge_eq]
    exact dated.withAmount _ _
  | cleared | free => exact dated.withAmount _ _

theorem Refunded.payments {id : PaymentId} {fee : Float}
    (refunded : Refunded now id before fee after) : after.payments = before.payments := by
  cases refunded <;> rfl

end

theorem Request.paymentsDated {request : Request} (service : request.IsService) (config : Config)
    (now : Instant) :
    Leaves (fun before after => Integrity before → PaymentsDated before → PaymentsDated after)
      (request.perform config now) := by
  have refl (book : Book) : Integrity book → PaymentsDated book → PaymentsDated book := fun _ => id
  have save (user : UserId) (plan : FeePlan) :
      Leaves (fun before after => Integrity before → PaymentsDated before → PaymentsDated after)
        (Service.savePlan now user plan) := by
    apply leaves_savePlan refl
    intro book _ dated
    obtain ⟨plans, same⟩ := book.savePlan_plans (.ofStored (.ofPlan user plan now))
    rw [same]
    exact dated
  have recompute (id : PaymentId) (gross : Float) :
      Leaves (fun before after => Integrity before → PaymentsDated before → PaymentsDated after)
        (Store.recomputeFee config now id gross) := by
    apply (atomic_recomputeFee config now id gross).leaves refl
    intro store after outcome returned _ dated
    obtain ⟨p, -, -, resettled⟩ := Store.recomputeFee_outcome returned
    exact resettled.paymentsDated dated
  cases request with
  | getPlan user => exact ((Service.readOnly_plan user).leaves refl).map _
  | savePlan user plan => exact (save user plan).bind fun _ => readOnly_pure _
  | savePlanText user text =>
    simp only [perform]
    split
    · exact (save user _).bind fun _ => readOnly_pure _
    · exact (readOnly_throw _).leaves refl
  | checkFormula | fitRange => exact (readOnly_pure _).leaves refl
  | quote user amount => exact ((Store.readOnly_quote config user amount).leaves refl).map _
  | recordPayment user amount description =>
    apply Leaves.map
    apply (atomic_recordPayment config now user amount description).leaves refl
    intro store after receipt returned integrity dated p present
    have entered := Service.recordPayment_entered integrity returned
    rw [entered.payments] at present
    rcases List.mem_append.mp present with old | last
    · exact dated p old
    · rw [List.mem_singleton.mp last]
      rfl
  | updatePayment id gross | recomputeFee id gross => exact (recompute id gross).map _
  | deletePayment id =>
    apply Leaves.map
    apply (atomic_deletePayment now id).leaves refl
    intro store after fee returned _ dated p present
    obtain ⟨-, mid, refunded, left⟩ := Service.deletePayment_outcome returned
    rw [left, refunded.deleted.1] at present
    exact dated p (List.mem_filter.mp present).1
  | chargeFee id =>
    apply Leaves.map
    apply (atomic_chargeFee config now id).leaves refl
    intro store after outcome returned _ dated
    obtain ⟨p, -, -, -, -, charge⟩ := Store.chargeFee_outcome returned
    exact charge.paymentsDated dated
  | refundFee id =>
    apply Leaves.map
    apply (atomic_refundFee now id).leaves refl
    intro store after fee returned _ dated
    unfold PaymentsDated
    rw [(Store.refundFee_outcome returned).payments]
    exact dated
  | listPayments | listRecords | listEntries =>
    exact ((Store.readOnly_query _ _).leaves refl).map _
  | _ => exact service.elim

namespace Store

theorem Served.sound {store : Store} (served : store.Served) :
    store.isOpen = false ∧ store.book.hasTables = true ∧ Integrity store.book ∧
      PaymentsDated store.book := by
  obtain ⟨config, steps, services, rfl⟩ := served
  refine @afterAll_leaves config fresh (fun book => Integrity book ∧ PaymentsDated book) steps
    (fun step taken store closed tables => ?_) rfl rfl
    ⟨fresh_integrity, fun _ present => nomatch present⟩
  have writes : Writes (fun _ => True) (step.2.perform config step.1).run :=
    Request.writes (fun _ _ => trivial) config step.1
  obtain ⟨shut, dates⟩ := Request.paymentsDated (services step taken) config step.1 store closed
    tables
  refine ⟨shut, fun kept => ?_⟩
  exact ⟨(writes store).2.integrity kept.1, dates kept.1 kept.2⟩

end Store

/-- No fee stands on the payment, its number will not be given to another, and if it is still there
its time can be read back. -/
structure Repaid (id : PaymentId) (book : Book) : Prop where
  uncharged : book.findRecord? id = none
  below : id < book.nextPayment
  dated : ∀ p, book.findPayment? id = some p → p.createdAt.isSome = true

def Request.MayCharge (id : PaymentId) : Request → Prop
  | .updatePayment named _ | .chargeFee named | .recomputeFee named _ => named = id
  | .saveRecord record => record.payment = id
  | _ => False

namespace Repaid

variable {id : PaymentId} {before after : Book}

theorem spared (repaid : Repaid id before) (spares : Spares id before after) : Repaid id after := by
  refine ⟨spares.record.trans repaid.uncharged, repaid.below.trans_le spares.next, ?_⟩
  rw [spares.payment]
  exact repaid.dated

theorem refunded {now : Instant} {fee : Float} (below : id < before.nextPayment)
    (dated : ∀ p, before.findPayment? id = some p → p.createdAt.isSome = true)
    (refunded : Refunded now id before fee after) : Repaid id after := by
  have next := refunded.confined.nextPayment
  refine ⟨refunded.findRecord?, next ▸ below, ?_⟩
  unfold Book.findPayment?
  rw [refunded.payments]
  exact dated

theorem deletePayment (repaid : Repaid id before) : Repaid id (before.deletePayment id) := by
  refine ⟨?_, repaid.below, ?_⟩
  · rw [Book.findRecord?_deletePayment, if_pos rfl]
  · intro p found
    rw [Book.findPayment?_deletePayment, if_pos rfl] at found
    cases found

theorem removeRecord (repaid : Repaid id before) : Repaid id (before.removeRecord id) :=
  ⟨before.findRecord?_removeRecord_self id, repaid.below, repaid.dated⟩

theorem withAmount (repaid : Repaid id before) (amount : Float) :
    Repaid id (before.withAmount id amount) := by
  refine ⟨repaid.uncharged, repaid.below, ?_⟩
  intro p found
  rw [Book.findPayment?_withAmount] at found
  obtain ⟨old, stood, rfl⟩ := Option.map_eq_some_iff.mp found
  have time := repaid.dated old stood
  split <;> exact time

end Repaid

theorem Request.repaid {request : Request} {id : PaymentId} (other : ¬ request.MayCharge id)
    (config : Config) (now : Instant) :
    Leaves (fun before after => Repaid id before → Repaid id after)
      (request.perform config now) := by
  have refl (book : Book) : Repaid id book → Repaid id book := fun repaid => repaid
  by_cases concerns : request.Concerns id
  · cases request with
    | deletePayment named =>
      subst concerns
      apply Leaves.map
      apply (atomic_deletePayment now named).leaves refl
      intro store after fee returned repaid
      obtain ⟨-, mid, refunded, left⟩ := Service.deletePayment_outcome returned
      rw [left]
      exact (Repaid.refunded repaid.below repaid.dated refunded).deletePayment
    | refundFee named =>
      subst concerns
      apply Leaves.map
      apply (atomic_refundFee now named).leaves refl
      intro store after fee returned repaid
      exact .refunded repaid.below repaid.dated (Store.refundFee_outcome returned)
    | setAmount named amount =>
      subst concerns
      refine Leaves.bind (atomic_statement.leaves refl ?_) fun _ => readOnly_pure _
      intro store after _ returned repaid
      rw [(Store.setAmount_ok returned).1]
      exact repaid.withAmount amount
    | dropPayment named =>
      subst concerns
      apply Leaves.map
      apply atomic_statement.leaves refl
      intro store after existed returned repaid
      rw [Store.deletePayment_ok returned]
      exact repaid.deletePayment
    | removeRecord named =>
      subst concerns
      refine Leaves.bind (atomic_statement.leaves refl ?_) fun _ => readOnly_pure _
      intro store after _ returned repaid
      rw [Store.removeRecord_ok returned]
      exact repaid.removeRecord
    | appendEntry =>
      refine Leaves.bind (atomic_statement.leaves refl ?_) fun _ => readOnly_pure _
      intro store after _ returned repaid
      obtain ⟨-, book, changed, rfl⟩ := Store.statement_ok returned
      cases changed
      exact ⟨repaid.uncharged, repaid.below, repaid.dated⟩
    | updatePayment | chargeFee | recomputeFee | saveRecord => exact absurd concerns other
    | _ => exact concerns.elim
  · apply (Request.spares concerns config now).mono
    exact fun before after spares repaid => repaid.spared (spares repaid.below)

theorem Request.MayCharge.atomic {request : Request} {id : PaymentId}
    (charges : request.MayCharge id) (config : Config) (now : Instant) :
    Atomic (request.perform config now) := by
  cases request with
  | updatePayment named gross | recomputeFee named gross =>
    exact (atomic_recomputeFee config now named gross).map _
  | chargeFee named => exact (atomic_chargeFee config now named).map _
  | saveRecord record =>
    have same : (do Store.saveRecord record; return .done : Action Answer) =
        (fun _ => .done) <$> Store.saveRecord record := by simp
    change Atomic (do Store.saveRecord record; return .done : Action Answer)
    rw [same]
    exact atomic_statement.map _
  | _ => exact charges.elim

namespace Store

/-- None of the steps charges the payment: those that would do so fail. -/
def Uncharging (config : Config) (id : PaymentId) : Store → List (Instant × Request) → Prop
  | _, [] => True
  | store, step :: steps =>
    (step.2.MayCharge id →
      ∃ failure, ((step.2.perform config step.1).run store).1 = .error failure) ∧
      Uncharging config id (after config store step) steps

variable {config : Config} {now : Instant} {store : Store} {id : PaymentId}

theorem afterAll_repaid {steps : List (Instant × Request)}
    (uncharging : Uncharging config id store steps) (closed : store.isOpen = false)
    (tables : store.book.hasTables = true) (repaid : Repaid id store.book) :
    (afterAll config store steps).isOpen = false ∧
      (afterAll config store steps).book.hasTables = true ∧
      Repaid id (afterAll config store steps).book := by
  induction steps generalizing store with
  | nil => exact ⟨closed, tables, repaid⟩
  | cons step steps ih =>
    obtain ⟨here, later⟩ := uncharging
    have there := hasTables_after config step tables
    by_cases charges : step.2.MayCharge id
    · obtain ⟨failure, failed⟩ := here charges
      have same : after config store step = store :=
        (charges.atomic config step.1 store closed).2 failure failed
      rw [same] at later there
      rw [afterAll, List.foldl_cons, same]
      exact ih later closed there repaid
    · obtain ⟨shut, keeps⟩ := Request.repaid charges config step.1 store closed tables
      exact ih later shut there (keeps repaid)

theorem run_refundFee_repaid (tables : store.book.hasTables = true)
    (repaid : Repaid id store.book) : (refundFee now id).run store = (.ok 0.0, store) := by
  have looked := @run_record? ⟨store.book, true⟩ tables id
  rw [repaid.uncharged] at looked
  refine run_transaction_of ?_ nofun
  rw [Action.run_bind_of_ok looked]
  rfl

theorem run_deletePayment_repaid (tables : store.book.hasTables = true)
    (repaid : Repaid id store.book) :
    (((Service.deletePayment now id).run store).1 = .ok 0.0 ∨
      ((Service.deletePayment now id).run store).1 = .error (.paymentNotFound id)) ∧
      ((Service.deletePayment now id).run store).2.book.log = store.book.log := by
  cases found : store.book.findPayment? id with
  | none =>
    have looked : (payment? id).run { store with isOpen := true } =
        (.ok none, { store with isOpen := true }) := by
      unfold payment?
      rw [run_query, if_pos tables, found]
      rfl
    have missing : (Service.deletePayment now id).run store =
        (.error (.paymentNotFound id), store) := by
      refine run_transaction_of ?_ fun _ => rfl
      rw [Action.run_bind_of_ok looked]
      rfl
    rw [missing]
    exact ⟨.inr rfl, rfl⟩
  | some p =>
    obtain ⟨fee, answered⟩ := @exists_deletePayment now store tables id
      (fun r charged => by cases repaid.uncharged.symm.trans charged) p found (repaid.dated p found)
    obtain ⟨-, mid, refunded, left⟩ := Service.deletePayment_outcome (Prod.ext answered rfl)
    rw [left, answered]
    cases refunded with
    | nothing => exact ⟨.inl rfl, rfl⟩
    | fee charged => cases repaid.uncharged.symm.trans charged

/-- No fee is refunded twice. Once a refund or a deletion of a payment has succeeded, and as long as
no charge of it succeeds, nothing that is done to it or to others brings its fee back: a refund
gives zero and changes nothing, and a deletion gives zero or does not find the payment, and logs
nothing. -/
theorem refunded_once (config : Config) {store first : Store} (served : store.Served)
    {id : PaymentId} (stands : (store.book.findPayment? id).isSome = true) {now : Instant}
    {fee : Float}
    (refunded : (refundFee now id).run store = (.ok fee, first) ∨
      (Service.deletePayment now id).run store = (.ok fee, first))
    {steps : List (Instant × Request)} (uncharging : Uncharging config id first steps)
    (later : Instant) :
    let last := afterAll config first steps
    let deleted := (Service.deletePayment later id).run last
    (refundFee later id).run last = (.ok 0.0, last) ∧
      (deleted.1 = .ok 0.0 ∨ deleted.1 = .error (.paymentNotFound id)) ∧
      deleted.2.book.log = last.book.log := by
  intro last deleted
  obtain ⟨closed, tables, integrity, dated⟩ := served.sound
  obtain ⟨p, found⟩ := Option.isSome_iff_exists.mp stands
  obtain ⟨present, place⟩ := mem_of_find? (fun p : Payment Stamp => p.id) found
  have below : id < store.book.nextPayment := place ▸ integrity.next p present
  have readable (p : Payment Stamp) (found : store.book.findPayment? id = some p) :
      p.createdAt.isSome = true :=
    dated p (mem_of_find? (fun p : Payment Stamp => p.id) found).1
  have started : first.isOpen = false ∧ first.book.hasTables = true ∧ Repaid id first.book := by
    rcases refunded with returned | returned
    · have refund := refundFee_outcome returned
      have shut := (atomic_refundFee now id store closed).1
      rw [returned] at shut
      exact ⟨shut, refund.confined.hasTables.trans tables, .refunded below readable refund⟩
    · obtain ⟨-, mid, refund, left⟩ := Service.deletePayment_outcome returned
      have shut := (atomic_deletePayment now id store closed).1
      rw [returned] at shut
      have repaid : Repaid id mid := .refunded below readable refund
      rw [left]
      exact ⟨shut, refund.confined.hasTables.trans tables, repaid.deletePayment⟩
  obtain ⟨shut, made, repaid⟩ := started
  obtain ⟨-, there, still⟩ := afterAll_repaid uncharging shut made repaid
  exact ⟨run_refundFee_repaid there still, run_deletePayment_repaid there still⟩

theorem refunded_once_tithe :
    let store := afterAll .standard fresh tithe
    let first := (refundFee ⟨1, 0⟩ 1).run store
    let steps : List (Instant × Request) := [(⟨2, 0⟩, .recordPayment 1 20.0 none),
      (⟨3, 0⟩, .updatePayment 1 (1.0 / 0.0)), (⟨4, 0⟩, .refundFee 2)]
    let last := afterAll .standard first.2 steps
    let deleted := (Service.deletePayment ⟨5, 0⟩ 1).run last
    store.Served ∧ (store.book.findPayment? 1).isSome = true ∧ first.1 = .ok 1.0 ∧
      Uncharging .standard 1 first.2 steps ∧
      (refundFee ⟨5, 0⟩ 1).run last = (.ok 0.0, last) ∧ deleted.1 = .ok 0.0 ∧
      deleted.2.book.log = last.book.log := by
  intro store first steps last deleted
  have served : store.Served := ⟨_, _, by simp [tithe, Request.IsService], rfl⟩
  have stands : (store.book.findPayment? 1).isSome = true := by decide +kernel
  have answered : first.1 = .ok 1.0 := by decide +kernel
  have uncharging : Uncharging .standard 1 first.2 steps :=
    ⟨False.elim, fun _ => ⟨.invalidAmount (1.0 / 0.0), rfl⟩, False.elim, trivial⟩
  obtain ⟨again, -, silent⟩ := refunded_once .standard served stands
    (.inl (Prod.ext answered rfl)) uncharging ⟨5, 0⟩
  exact ⟨served, stands, answered, uncharging, again, by decide +kernel, silent⟩

end Store

end PaymentFees
