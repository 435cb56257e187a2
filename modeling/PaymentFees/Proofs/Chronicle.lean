import PaymentFees.Proofs.Reconciled

/-!
The log is an account of the fees and plans of a book. An event can be posted to an account only if
it fits the charges that stand there, and posting the events of a run gives the account of the book.
-/

namespace PaymentFees

open Binary

structure Charge where
  user : UserId
  fee : Float
  grossAmount : Float
  deriving DecidableEq, Repr

@[ext] structure Account where
  charges : PaymentId → Option Charge
  modes : UserId → Option String

namespace Account

def empty : Account := ⟨fun _ => none, fun _ => none⟩

/-- Another charge, or none, in the place of the one that stands, which has to be of the given user
and the given fee. -/
def replace? (account : Account) (id : PaymentId) (user : UserId) (previousFee : Option Float)
    (next : Option Charge) : Option Account :=
  if (account.charges id).map (fun c => (c.user, c.fee)) =
      previousFee.map (fun fee => (user, fee)) then
    some { account with charges := fun k => if k = id then next else account.charges k }
  else none

def post? (account : Account) : FeeEvent → Option Account
  | .charged id user fee gross _ => account.replace? id user none (some ⟨user, fee, gross⟩)
  | .refunded id user fee => account.replace? id user (some fee) none
  | .recomputed id user previousFee fee gross _ =>
    account.replace? id user previousFee (some ⟨user, fee, gross⟩)
  | .cleared id user previousFee _ => account.replace? id user (some previousFee) none
  | .planSaved user mode =>
    some { account with modes := fun k => if k = user then some mode.name else account.modes k }

def replay? (account : Account) (events : List FeeEvent) : Option Account :=
  events.foldlM post? account

end Account

namespace Book

/-- The account that the records and plans of a book give. -/
def account (book : Book) : Account where
  charges id := (book.findRecord? id).map fun r => ⟨r.user, r.fee, r.grossAmount⟩
  modes user := (book.findPlan? user).map (·.modeName)

theorem account_eq {book other : Book} (records : other.records = book.records)
    (plans : other.plans = book.plans) : other.account = book.account := by
  unfold account findRecord? findPlan?
  rw [records, plans]

end Book

def FeeEvent.net? : FeeEvent → Option (PaymentId × Float)
  | .charged id _ _ _ net | .recomputed id _ _ _ _ net => some (id, net)
  | _ => none

def FeeEvent.entry (event : FeeEvent) (id : Int) (now : Instant) : LogEntry Stamp :=
  ⟨id, event.user, event.payment?, event.typeName, event.payload, stamp now⟩

theorem Book.charge_eq (book : Book) (now : Instant) (id : PaymentId) (user : UserId)
    (fee gross net : Float) (event : FeeEvent) :
    book.charge now id user fee gross net event =
      { book.withAmount id net with
        records := (book.putRecord ⟨id, user, fee, gross, stamp now, stamp now⟩).records
        log := book.log ++ [event.entry book.nextEntry now]
        nextEntry := book.nextEntry + 1 } := by
  unfold charge putRecord
  split <;> rfl

/-- The event names the one thing that was written: the record of a payment was saved now or
removed, or the plan of a user was saved now. -/
def FeeEvent.Names (event : FeeEvent) (now : Instant) (before after : Book) : Prop :=
  match event with
  | .charged id .. | .recomputed id .. =>
    (after.findRecord? id).map (·.updatedAt) = some (stamp now) ∧
      (∀ k, k ≠ id → after.findRecord? k = before.findRecord? k) ∧ after.plans = before.plans
  | .refunded id .. | .cleared id .. =>
    (before.findRecord? id).isSome = true ∧ after.findRecord? id = none ∧
      (∀ k, k ≠ id → after.findRecord? k = before.findRecord? k) ∧ after.plans = before.plans
  | .planSaved user _ =>
    (after.findPlan? user).map (·.updatedAt) = some (stamp now) ∧
      (∀ k, k ≠ user → after.findPlan? k = before.findPlan? k) ∧ after.records = before.records

/-- What was logged of an operation is exactly what it did to records and plans. -/
structure Explained (now : Instant) (before : Book) (event : Option FeeEvent) (after : Book) :
    Prop where
  log : after.log = before.log ++ event.toList.map (·.entry before.nextEntry now)
  nextEntry : after.nextEntry = before.nextEntry + event.toList.length
  posted : before.account.replay? event.toList = some after.account
  silent : event = none → after.records = before.records ∧ after.plans = before.plans
  names : ∀ told, event = some told → told.Names now before after
  net : ∀ told, event = some told → ∀ id net, told.net? = some (id, net) →
    ∃ payment, after.findPayment? id = some payment ∧ (payment.amount == net) = true

section

variable {rounding : Rounding} {now : Instant} {book after : Book}

theorem Explained.of_silent (log : after.log = book.log) (next : after.nextEntry = book.nextEntry)
    (records : after.records = book.records) (plans : after.plans = book.plans) :
    Explained now book none after where
  log := by rw [log]; exact (List.append_nil _).symm
  nextEntry := by rw [next]; exact (Int.add_zero _).symm
  posted := by rw [Book.account_eq records plans]; rfl
  silent _ := ⟨records, plans⟩
  names _ impossible := nomatch impossible
  net _ impossible := nomatch impossible

theorem Book.replace?_account {id : PaymentId} {user : UserId} {previousFee : Option Float}
    {next : Option Charge}
    (stands : (book.findRecord? id).map (fun r => (r.user, r.fee)) =
      previousFee.map (fun fee => (user, fee)))
    (here : (after.findRecord? id).map (fun r => ⟨r.user, r.fee, r.grossAmount⟩) = next)
    (others : ∀ k, k ≠ id → after.findRecord? k = book.findRecord? k)
    (plans : after.plans = book.plans) :
    book.account.replace? id user previousFee next = some after.account := by
  have fits : (book.account.charges id).map (fun c => (c.user, c.fee)) =
      previousFee.map (fun fee => (user, fee)) := by
    rw [← stands]
    exact Option.map_map ..
  unfold Account.replace?
  rw [if_pos fits]
  congr 1
  apply Account.ext
  · funext k
    by_cases same : k = id
    · subst same
      exact (if_pos rfl).trans here.symm
    · change (if k = id then next else _) = (after.findRecord? k).map _
      rw [if_neg same, others k same]
      rfl
  · unfold Book.account Book.findPlan?
    rw [plans]

theorem Move.silent_keeps (move : Move rounding now book none after)
    (reconciled : Reconciled rounding book) {id : PaymentId} {record : FeeRecord Stamp}
    (charged : book.findRecord? id = some record) :
    after.findPayment? id = book.findPayment? id := by
  cases move with
  | enter stored =>
    obtain ⟨payment, present, -⟩ := reconciled.settled id record charged
    rw [present]
    exact Book.findPayment?_insertPayment stored present
  | amend found uncharged number =>
    apply Book.findPayment?_withAmount_ne
    rintro rfl
    cases uncharged.symm.trans charged
  | leave uncharged =>
    refine (Book.findPayment?_deletePayment _ _ id).trans (if_neg ?_)
    rintro rfl
    cases uncharged.symm.trans charged

theorem FeeEvent.Names.charged {event : FeeEvent} {before : Book} {id : PaymentId} {net : Float}
    (names : event.Names now before after) (told : event.net? = some (id, net)) :
    ∃ record, after.findRecord? id = some record := by
  cases event with
  | charged | recomputed =>
    cases told
    obtain ⟨record, found, -⟩ := Option.map_eq_some_iff.mp names.1
    exact ⟨record, found⟩
  | refunded | cleared | planSaved => cases told

theorem Explained.of_logged {event : FeeEvent} {changed : Book}
    (log : changed.log = book.log ++ [event.entry book.nextEntry now])
    (next : changed.nextEntry = book.nextEntry + 1)
    (posted : book.account.post? event = some changed.account)
    (names : event.Names now book changed)
    (net : ∀ id net, event.net? = some (id, net) →
      ∃ payment, changed.findPayment? id = some payment ∧ (payment.amount == net) = true) :
    Explained now book (some event) changed where
  log := log
  nextEntry := next
  posted := by
    change (do let account ← book.account.post? event; some account) = _
    rw [posted]
    rfl
  silent impossible := nomatch impossible
  names
    | _, rfl => names
  net
    | _, rfl => net

theorem explained_savePlan (book : Book) (now : Instant) (user : UserId) (plan : FeePlan) :
    Explained now book (some (.planSaved user plan.mode))
      ((book.savePlan (.ofStored (.ofPlan user plan now))).note now
        (.planSaved user plan.mode)) := by
  obtain ⟨plans, same⟩ := book.savePlan_plans (.ofStored (.ofPlan user plan now))
  have found := book.findPlan?_savePlan (.ofStored (.ofPlan user plan now))
  rw [same] at found ⊢
  apply Explained.of_logged rfl rfl
  · refine congrArg some (Account.ext rfl (funext fun k => ?_))
    change (if k = user then _ else (book.findPlan? k).map _) = _
    refine Eq.trans ?_ (congrArg (Option.map (·.modeName)) (found k)).symm
    change _ = (if k = user then _ else _ : Option PlanRow).map _
    split <;> rfl
  · refine ⟨congrArg (Option.map (·.updatedAt)) ((found user).trans (if_pos rfl)), ?_, rfl⟩
    intro k other
    exact (found k).trans (if_neg other)
  · rintro _ _ ⟨⟩

theorem explained_charge (reconciled : Reconciled rounding book) (now : Instant)
    {payment : Payment Stamp} {fee gross net : Float} {event : FeeEvent}
    (found : book.findPayment? payment.id = some payment) (positive : 0.0 < fee)
    (nonzero : (gross == 0.0) = false) (number : net.isNaN = false)
    (first : event = .charged payment.id payment.user fee gross net ∧
        book.findRecord? payment.id = none ∨
      event = .recomputed payment.id payment.user ((book.findRecord? payment.id).map (·.fee))
        fee gross net) :
    Explained now book (some event)
      (book.charge now payment.id payment.user fee gross net event) := by
  have others : ∀ k, k ≠ payment.id →
      (book.charge now payment.id payment.user fee gross net event).findRecord? k =
        book.findRecord? k :=
    fun k other => findRecord?_charge_ne now _ event _ _ _ other
  have paid := findPayment?_charge now net event payment.user fee gross found
  obtain ⟨row, here, user, fees, grosses, updated⟩ :=
    reconciled.findRecord?_charge now net event found positive nonzero
  obtain ⟨payments, records, form⟩ :=
    book.charge_eq_note now payment.id payment.user fee gross net event
  rw [form] at here others paid ⊢
  have charge := congrArg
    (Option.map fun r => (⟨r.user, r.fee, r.grossAmount⟩ : Charge)) here
  rw [Option.map_some, user, fees, grosses] at charge
  have saved := congrArg (Option.map (·.updatedAt)) here
  rw [Option.map_some, updated] at saved
  have kept : ∃ p, some { payment with amount := keptNumber net } = some p ∧
      (p.amount == net) = true :=
    ⟨_, rfl, keptNumber_beq number⟩
  rcases first with ⟨rfl, uncharged⟩ | rfl
  · apply Explained.of_logged rfl rfl
    · apply Book.replace?_account _ charge others rfl
      rw [uncharged]
      rfl
    · exact ⟨saved, others, rfl⟩
    · rintro _ _ ⟨⟩
      rw [paid]
      exact kept
  · apply Explained.of_logged rfl rfl
    · apply Book.replace?_account _ charge others rfl
      exact reconciled.stands found
    · exact ⟨saved, others, rfl⟩
    · rintro _ _ ⟨⟩
      rw [paid]
      exact kept

theorem explained_remove (now : Instant) {id : PaymentId} {record : FeeRecord Stamp}
    {event : FeeEvent} (payments : List (Payment Stamp))
    (charged : book.findRecord? id = some record)
    (told : event = .refunded id record.user record.fee ∨
      ∃ gross, event = .cleared id record.user record.fee gross) :
    Explained now book (some event)
      { (book.removeRecord id).note now event with payments } := by
  have gone := book.findRecord?_removeRecord_self id
  have others : ∀ k, k ≠ id → (book.removeRecord id).findRecord? k = book.findRecord? k :=
    fun k other => book.findRecord?_removeRecord_ne other
  have present : (book.findRecord? id).isSome = true := Option.isSome_of_eq_some charged
  have stands : (book.findRecord? id).map (fun r => (r.user, r.fee)) =
      (some record.fee).map (fun fee => (record.user, fee)) := by
    rw [charged]
    rfl
  have posted := Book.replace?_account stands (congrArg (Option.map _) gone) others rfl
  rcases told with rfl | ⟨gross, rfl⟩
  · apply Explained.of_logged rfl rfl
    · exact posted
    · exact ⟨present, gone, others, rfl⟩
    · rintro _ _ ⟨⟩
  · apply Explained.of_logged rfl rfl
    · exact posted
    · exact ⟨present, gone, others, rfl⟩
    · rintro _ _ ⟨⟩

theorem Move.explained {event : Option FeeEvent} (move : Move rounding now book event after)
    (reconciled : Reconciled rounding book) : Explained now book event after := by
  cases move with
  | enter stored =>
    rw [Book.insertPayment_ok stored]
    exact .of_silent rfl rfl rfl rfl
  | amend => exact .of_silent rfl rfl rfl rfl
  | leave uncharged => exact .of_silent rfl rfl (Book.deletePayment_records _ uncharged) rfl
  | savePlan user plan => exact explained_savePlan book now user plan
  | charge found positive nonzero number first =>
    exact explained_charge reconciled now found positive nonzero number first
  | clear found charged number =>
    -- The event names the user of the payment, the account that of the record.
    obtain ⟨same, present, settled⟩ := reconciled.settled _ _ charged
    cases found.symm.trans present
    rw [settled.user]
    exact explained_remove now _ charged (.inr ⟨_, rfl⟩)
  | refund charged => exact explained_remove now _ charged (.inl rfl)

theorem Explained.account_eq (explained : Explained now book none after) :
    after.account = book.account := by
  obtain ⟨records, plans⟩ := explained.silent rfl
  exact Book.account_eq records plans

theorem Explained.then_move {mid : Book} {event : Option FeeEvent}
    (first : Explained now book none mid) (last : Explained now mid event after) :
    Explained now book event after := by
  obtain ⟨records, plans⟩ := first.silent rfl
  have log : mid.log = book.log := first.log.trans (List.append_nil _)
  have next : mid.nextEntry = book.nextEntry := first.nextEntry.trans (Int.add_zero _)
  have account : mid.account = book.account := first.account_eq
  refine ⟨?_, ?_, ?_, ?_, ?_, last.net⟩
  · rw [← log, ← next]
    exact last.log
  · rw [← next]
    exact last.nextEntry
  · rw [← account]
    exact last.posted
  · intro silent
    obtain ⟨sameRecords, samePlans⟩ := last.silent silent
    exact ⟨sameRecords.trans records, samePlans.trans plans⟩
  · intro told same
    have names := last.names told same
    unfold FeeEvent.Names Book.findRecord? Book.findPlan? at names ⊢
    rw [records, plans] at names
    exact names

theorem Explained.then_silent {mid : Book} {event : Option FeeEvent}
    (first : Explained now book event mid) (last : Explained now mid none after)
    (keeps : ∀ id record, mid.findRecord? id = some record →
      after.findPayment? id = mid.findPayment? id) :
    Explained now book event after := by
  obtain ⟨records, plans⟩ := last.silent rfl
  have log : after.log = mid.log := last.log.trans (List.append_nil _)
  have next : after.nextEntry = mid.nextEntry := last.nextEntry.trans (Int.add_zero _)
  refine ⟨log.trans first.log, next.trans first.nextEntry, ?_, ?_, ?_, ?_⟩
  · rw [last.account_eq]
    exact first.posted
  · intro silent
    obtain ⟨sameRecords, samePlans⟩ := first.silent silent
    exact ⟨records.trans sameRecords, plans.trans samePlans⟩
  · intro told same
    have names := first.names told same
    unfold FeeEvent.Names Book.findRecord? Book.findPlan? at names ⊢
    rw [records, plans]
    exact names
  -- An event that tells a net amount leaves a record, and payments with records are kept.
  · intro told same id net tells
    obtain ⟨record, found⟩ := (first.names told same).charged tells
    rw [keeps id record found]
    exact first.net told same id net tells

theorem Effect.explained {event : Option FeeEvent} (effect : Effect rounding now book event after)
    (reconciled : Reconciled rounding book) : Explained now book event after := by
  induction effect with
  | nothing => exact .of_silent rfl rfl rfl rfl
  | then_move effect move ih => exact ih.then_move (move.explained (effect.reconciled reconciled))
  | then_silent effect move ih =>
    have agrees := effect.reconciled reconciled
    exact ih.then_silent (move.explained agrees) fun _ _ found => move.silent_keeps agrees found

end

namespace Store

/-- A run in which each step is explained by the event that was logged of it, if there is one. -/
inductive Chronicle (config : Config) : Store → List (Instant × Request) →
    List (Option FeeEvent) → Prop
  | nil (store : Store) : Chronicle config store [] []
  | cons {store : Store} {step : Instant × Request} {steps : List (Instant × Request)}
      {event : Option FeeEvent} {events : List (Option FeeEvent)}
      (explained : Explained step.1 store.book event (after config store step).book)
      (rest : Chronicle config (after config store step) steps events) :
    Chronicle config store (step :: steps) (event :: events)

def timed (steps : List (Instant × Request)) (events : List (Option FeeEvent)) :
    List (Instant × FeeEvent) :=
  (steps.zip events).flatMap fun (step, event) => event.toList.map fun told => (step.1, told)

def entriesFrom (next : Int) : List (Instant × FeeEvent) → List (LogEntry Stamp)
  | [] => []
  | (now, event) :: rest => event.entry next now :: entriesFrom (next + 1) rest

variable {config : Config} {store : Store} {steps : List (Instant × Request)}
  {events : List (Option FeeEvent)}

theorem Chronicle.log (chronicle : Chronicle config store steps events) :
    (afterAll config store steps).book.log =
      store.book.log ++ entriesFrom store.book.nextEntry (timed steps events) := by
  induction chronicle with
  | nil store => exact (List.append_nil _).symm
  | @cons store step steps event events explained rest ih =>
    refine ih.trans ?_
    rw [explained.log, explained.nextEntry, List.append_assoc]
    cases event with
    | none =>
      have same : store.book.nextEntry + (Option.toList (none : Option FeeEvent)).length =
          store.book.nextEntry := Int.add_zero _
      rw [same]
      rfl
    | some told => rfl

theorem Chronicle.replayed (chronicle : Chronicle config store steps events) :
    store.book.account.replay? ((timed steps events).map (·.2)) =
      some (afterAll config store steps).book.account := by
  induction chronicle with
  | nil store => rfl
  | @cons store step steps event events explained rest ih =>
    have split : (timed (step :: steps) (event :: events)).map (·.2) =
        event.toList ++ (timed steps events).map (·.2) := by
      cases event <;> rfl
    have posted := explained.posted
    unfold Account.replay? at posted ih ⊢
    rw [split, List.foldlM_append, posted]
    exact ih

theorem exists_chronicle (operations : ∀ step ∈ steps, step.2.IsOperation)
    (closed : store.isOpen = false) (tables : store.book.hasTables = true)
    (reconciled : Reconciled config.rounding store.book) :
    ∃ events, Chronicle config store steps events := by
  induction steps generalizing store with
  | nil => exact ⟨[], .nil store⟩
  | cons step steps ih =>
    obtain ⟨operation, operations⟩ := List.forall_mem_cons.mp operations
    obtain ⟨shut, there, event, effect⟩ := after_effect config operation closed tables
    obtain ⟨events, rest⟩ := ih operations shut there (effect.reconciled reconciled)
    exact ⟨event :: events, .cons (effect.explained reconciled) rest⟩

/-- After any run of operations the log holds exactly the events of the run, at most one for each
operation and one exactly if it wrote a record or a plan, and posting them in order to an empty
account gives the records and the modes of the plans as they are. -/
theorem log_accounts_for_book (config : Config) (steps : List (Instant × Request))
    (operations : ∀ step ∈ steps, step.2.IsOperation) :
    let final := afterAll config fresh steps
    ∃ events, Chronicle config fresh steps events ∧
      final.book.log = entriesFrom 1 (timed steps events) ∧
      Account.empty.replay? ((timed steps events).map (·.2)) = some final.book.account ∧
      final.book.records.Pairwise (·.payment < ·.payment) := by
  have agrees := fresh_reconciled config.rounding
  obtain ⟨events, chronicle⟩ := exists_chronicle operations rfl rfl agrees
  obtain ⟨-, -, reconciled⟩ := afterAll_keeps config operations
    (fun _ _ _ _ _ effect before => effect.reconciled before) rfl rfl agrees
  exact ⟨events, chronicle, chronicle.log, chronicle.replayed, reconciled.records⟩

theorem log_accounts_for_book_tithe :
    let final := afterAll .standard fresh tithe
    (∀ step ∈ tithe, step.2.IsOperation) ∧
      final.book.log.map (·.typeName) = ["plan_saved", "fee_charged"] ∧
      ∃ events, Chronicle .standard fresh tithe events ∧
        Account.empty.replay? ((timed tithe events).map (·.2)) = some final.book.account := by
  have operations : ∀ step ∈ tithe, step.2.IsOperation := by simp [tithe, Request.IsOperation]
  obtain ⟨events, chronicle, -, replayed, -⟩ := log_accounts_for_book .standard tithe operations
  exact ⟨operations, by decide +kernel, events, chronicle, replayed⟩

end Store

end PaymentFees
