import PaymentFees.Proofs.Shares

/-!
Two runs of an action side by side, on two stores that hold the same of a user. Each statement on
the user's rows gives the same on both, keeps them the same, and leaves the rows of others alone;
what is composed of such statements does so too.
-/

namespace PaymentFees

open Book

variable {α β : Type}

/-- Both computations fail alike or return related values. -/
inductive Outcomes (related : α → α → Prop) : Except Failure α → Except Failure α → Prop
  | ok {value value' : α} (same : related value value') : Outcomes related (.ok value) (.ok value')
  | error (failure : Failure) : Outcomes related (.error failure) (.error failure)

/-- Two stores that hold the same of a user and of the user's payment with this number. -/
structure Agree (clock : Instant → Instant) (user : UserId) (id : PaymentId)
    (first second : Store) : Prop where
  isOpen : first.isOpen = second.isOpen
  tables : first.book.hasTables = true
  tables' : second.book.hasTables = true
  owned : Owned user id first.book
  owned' : Owned user id second.book
  alike : Alike clock user first.book second.book

/-- Two actions on two stores give related results, keep the agreement of the stores and concern the
user alone. -/
structure Abreast (clock : Instant → Instant) (user : UserId) (id : PaymentId)
    (related : α → α → Prop) (first second : Store) (x y : Action α) : Prop where
  outcomes : Outcomes related (x.run first).1 (y.run second).1
  agree : Agree clock user id (x.run first).2 (y.run second).2
  concerns : Private clock user first.book second.book (x.run first).2.book (y.run second).2.book

section

variable {clock : Instant → Instant} {user : UserId} {id : PaymentId} {first second : Store}
  {related : α → α → Prop} {x y : Action α}

theorem Outcomes.of_map {γ : Type} {seen : α → γ} {result result' : Except Failure α}
    (same : result.map seen = result'.map seen) :
    Outcomes (fun value value' => seen value = seen value') result result' := by
  cases result with
  | error failure =>
    cases result' with
    | error failure' =>
      cases same
      exact .error failure
    | ok => cases same
  | ok value =>
    cases result' with
    | error => cases same
    | ok value' => exact .ok (Except.ok.inj same)

theorem Abreast.pure {value value' : α} (agree : Agree clock user id first second)
    (same : related value value') :
    Abreast clock user id related first second (pure value) (pure value') :=
  ⟨.ok same, agree, .refl _ _⟩

theorem Abreast.throw (agree : Agree clock user id first second) (failure : Failure) :
    Abreast clock user id related first second (throw failure) (throw failure) :=
  ⟨.error failure, agree, .refl _ _⟩

theorem Abreast.bind {after : β → β → Prop} {next next' : α → Action β}
    (start : Abreast clock user id related first second x y)
    (rest : ∀ {value value' : α} {mid mid' : Store}, related value value' →
      Agree clock user id mid mid' → Abreast clock user id after mid mid' (next value)
        (next' value')) :
    Abreast clock user id after first second (x >>= next) (y >>= next') := by
  obtain ⟨outcomes, agree, concerns⟩ := start
  rcases ran : x.run first with ⟨result, mid⟩
  rcases ran' : y.run second with ⟨result', mid'⟩
  rw [ran, ran'] at outcomes agree concerns
  have same := Action.run_bind x next first
  have same' := Action.run_bind y next' second
  rw [ran] at same
  rw [ran'] at same'
  cases outcomes with
  | error failure =>
    constructor <;> rw [same, same']
    · exact .error failure
    · exact agree
    · exact concerns
  | ok alike =>
    obtain ⟨outcomes, agree, later⟩ := rest alike agree
    constructor <;> rw [same, same']
    · exact outcomes
    · exact agree
    · exact later.trans concerns

theorem Abreast.read_bind {after : β → β → Prop} {next next' : α → Action β}
    (start : Abreast clock user id related first second x y) (reads : ReadOnly x)
    (reads' : ReadOnly y)
    (rest : ∀ {value value' : α}, related value value' →
      Abreast clock user id after first second (next value) (next' value')) :
    Abreast clock user id after first second (x >>= next) (y >>= next') := by
  obtain ⟨outcomes, agree, -⟩ := start
  have same := Action.run_bind x next first
  have same' := Action.run_bind y next' second
  rw [reads.after_eq, reads'.after_eq] at agree
  rw [← Prod.eta (x.run first), reads.after_eq] at same
  rw [← Prod.eta (y.run second), reads'.after_eq] at same'
  generalize (x.run first).1 = result at outcomes same
  generalize (y.run second).1 = result' at outcomes same'
  cases outcomes with
  | error failure =>
    constructor <;> rw [same, same']
    · exact .error failure
    · exact agree
    · exact .refl _ _
  | ok alike =>
    obtain ⟨outcomes, agree, later⟩ := rest alike
    constructor <;> rw [same, same'] <;> assumption

theorem Abreast.map {after : β → β → Prop} {f : α → β}
    (runs : Abreast clock user id related first second x y)
    (keeps : ∀ {value value' : α}, related value value' → after (f value) (f value')) :
    Abreast clock user id after first second (f <$> x) (f <$> y) := by
  rw [← bind_pure_comp, ← bind_pure_comp]
  apply runs.bind
  intro value value' mid mid' same agree
  exact .pure agree (keeps same)

theorem Abreast.and {property : α → Prop}
    (runs : Abreast clock user id related first second x y)
    (holds : ∀ value after, x.run first = (.ok value, after) → property value) :
    Abreast clock user id (fun value value' => property value ∧ related value value') first second
      x y := by
  obtain ⟨outcomes, agree, concerns⟩ := runs
  refine ⟨?_, agree, concerns⟩
  rcases ran : x.run first with ⟨result, after⟩
  rw [ran] at outcomes
  generalize (y.run second).1 = result' at outcomes
  cases outcomes with
  | error failure => exact .error failure
  | ok same => exact .ok ⟨holds _ _ ran, same⟩

theorem Abreast.transaction {body body' : Action α} (agree : Agree clock user id first second)
    (runs : ∀ {mid mid' : Store}, mid.book = first.book → Agree clock user id mid mid' →
      Abreast clock user id related mid mid' body body') :
    Abreast clock user id related first second (Store.transaction body)
      (Store.transaction body') := by
  cases opened : first.isOpen with
  | true =>
    have same := Store.transaction_open opened body
    have same' := Store.transaction_open (agree.isOpen.symm.trans opened) body'
    obtain ⟨outcomes, ends, concerns⟩ := runs rfl agree
    constructor <;> rw [same, same'] <;> assumption
  | false =>
    have same := run_transaction_closed body opened
    have same' := run_transaction_closed body' (agree.isOpen.symm.trans opened)
    have inside : Agree clock user id { first with isOpen := true }
        { second with isOpen := true } :=
      ⟨rfl, agree.tables, agree.tables', agree.owned, agree.owned', agree.alike⟩
    have kept : ({ first with isOpen := true } : Store).book = first.book := rfl
    obtain ⟨outcomes, ends, concerns⟩ := runs kept inside
    rcases ran : body.run { first with isOpen := true } with ⟨result, after⟩
    rcases ran' : body'.run { second with isOpen := true } with ⟨result', after'⟩
    rw [ran, ran'] at outcomes ends concerns
    rw [ran] at same
    rw [ran'] at same'
    cases outcomes with
    | error failure =>
      constructor <;> rw [same, same']
      · exact .error failure
      · exact agree
      · exact .refl _ _
    | ok alike =>
      constructor <;> rw [same, same']
      · exact .ok alike
      · exact ⟨rfl, ends.tables, ends.tables', ends.owned, ends.owned', ends.alike⟩
      · exact concerns

theorem Abreast.query {table : String} {read read' : Book → Except Failure α}
    (agree : Agree clock user id first second)
    (outcomes : Outcomes related (read first.book) (read' second.book)) :
    Abreast clock user id related first second (Store.query table read)
      (Store.query table read') := by
  have same := Store.run_query table read first
  have same' := Store.run_query table read' second
  rw [if_pos agree.tables] at same
  rw [if_pos agree.tables'] at same'
  constructor <;> rw [same, same']
  · exact outcomes
  · exact agree
  · exact .refl _ _

theorem Abreast.statement {table : String} {change change' : Book → Except Failure (α × Book)}
    (agree : Agree clock user id first second)
    (outcomes : Outcomes (fun result result' => related result.1 result'.1 ∧
      Agree clock user id { first with book := result.2 } { second with book := result'.2 } ∧
      Private clock user first.book second.book result.2 result'.2)
      (change first.book) (change' second.book)) :
    Abreast clock user id related first second (Store.statement table change)
      (Store.statement table change') := by
  have same := Store.run_statement table change first
  have same' := Store.run_statement table change' second
  rw [if_pos agree.tables] at same
  rw [if_pos agree.tables'] at same'
  generalize change first.book = result at same outcomes
  generalize change' second.book = result' at same' outcomes
  cases outcomes with
  | error failure =>
    constructor <;> rw [same, same']
    · exact .error failure
    · exact agree
    · exact .refl _ _
  | ok done =>
    obtain ⟨alike, ends, concerns⟩ := done
    constructor <;> rw [same, same']
    · exact .ok alike
    · exact ends
    · exact concerns

end

section

variable {clock : Instant → Instant} {user : UserId} {id : PaymentId} {first second : Store}

theorem Agree.of_books (agree : Agree clock user id first second) {book book' : Book}
    (tables : book.hasTables = first.book.hasTables)
    (tables' : book'.hasTables = second.book.hasTables) (owned : Owned user id book)
    (owned' : Owned user id book') (alike : Alike clock user book book') :
    Agree clock user id { first with book := book } { second with book := book' } :=
  ⟨agree.isOpen, tables.trans agree.tables, tables'.trans agree.tables', owned, owned', alike⟩

theorem map_option_mapM {ε Row Value : Type} {read : Row → Except ε Value} {turn : Row → Row}
    {shown : Value → Value} (reads : ∀ row, read (turn row) = (read row).map shown)
    (row : Option Row) : (row.mapM read).map (Option.map shown) = (row.map turn).mapM read := by
  cases row with
  | none => rfl
  | some row =>
    change (some <$> read row).map (Option.map shown) = some <$> read (turn row)
    rw [reads]
    cases read row <;> rfl

theorem map_mapM_eq {ε Row Value : Type} {read : Row → Except ε Value} {turn : Row → Row}
    {shown : Value → Value} (reads : ∀ row, read (turn row) = (read row).map shown)
    {row row' : Option Row} (same : row.map turn = row'.map turn) :
    (row.mapM read).map (Option.map shown) = (row'.mapM read).map (Option.map shown) := by
  rw [map_option_mapM reads, map_option_mapM reads, same]

theorem map_mapError {ε δ γ : Type} (result : Except ε α) (f : ε → δ) (g : α → γ) :
    (result.mapError f).map g = (result.map g).mapError f := by
  cases result <;> rfl

theorem abreast_payment (agree : Agree clock user id first second) :
    Abreast clock user id
      (fun found found' => found.map (·.retimed clock) = found'.map (·.retimed clock))
      first second (Store.payment? id) (Store.payment? id) := by
  apply Abreast.query agree
  apply Outcomes.of_map
  have rows := agree.alike.findPayment? agree.owned agree.owned'
  rw [map_mapError, map_mapError, map_mapM_eq (Payment.read_retimed clock) rows]

theorem abreast_requirePayment (agree : Agree clock user id first second) :
    Abreast clock user id (fun payment payment' =>
        payment.user = user ∧ payment.retimed clock = payment'.retimed clock)
      first second (Store.requirePayment id) (Store.requirePayment id) := by
  apply Abreast.and
  · apply (abreast_payment agree).bind
    intro found found' mid mid' same agree
    cases found with
    | none =>
      rw [Option.map_eq_none_iff.mp same.symm]
      exact .throw agree _
    | some payment =>
      obtain ⟨payment', rfl, alike⟩ := Option.map_eq_some_iff.mp same.symm
      exact .pure agree alike.symm
  · intro payment after returned
    obtain ⟨-, row, time, found, place, rfl⟩ := Store.requirePayment_ok returned
    exact agree.owned.payment row (List.mem_of_find?_eq_some found) place

theorem abreast_record (agree : Agree clock user id first second) :
    Abreast clock user id (fun found found' =>
        (∀ record, found = some record → record.payment = id ∧ record.user = user ∧
            (first.book.findRecord? id).isSome = true) ∧
          found.map (·.retimed clock) = found'.map (·.retimed clock))
      first second (Store.record? id) (Store.record? id) := by
  apply Abreast.and
  · apply Abreast.query agree
    apply Outcomes.of_map
    have rows := agree.alike.findRecord? agree.owned agree.owned'
    rw [map_mapError, map_mapError, map_mapM_eq (FeeRecord.read_retimed clock) rows]
  · rintro found after returned record rfl
    obtain ⟨-, ⟨-, none⟩ | ⟨row, created, updated, here, place, same⟩⟩ := Store.record?_ok returned
    · cases none
    · cases same
      exact ⟨place, agree.owned.record row (List.mem_of_find?_eq_some here) place,
        Option.isSome_of_eq_some here⟩

theorem abreast_plan (agree : Agree clock user id first second) :
    Abreast clock user id
      (fun found found' => found.map (·.retimed clock) = found'.map (·.retimed clock))
      first second (Store.plan? user) (Store.plan? user) := by
  apply Abreast.query agree
  apply Outcomes.of_map
  exact map_mapM_eq (PlanRow.read_retimed clock) agree.alike.plan

theorem abreast_setAmount (agree : Agree clock user id first second) (amount : Float) :
    Abreast clock user id (· = ·) first second (Store.setAmount id amount)
      (Store.setAmount id amount) := by
  apply Abreast.statement agree
  have rows := agree.alike.findPayment? agree.owned agree.owned'
  have present : (first.book.findPayment? id).isSome = (second.book.findPayment? id).isSome := by
    have there := congrArg Option.isSome rows
    rwa [Option.isSome_map, Option.isSome_map] at there
  unfold Book.setAmount
  rw [← present]
  split
  · exact .error _
  · refine .ok ⟨rfl, ?_, ?_, ?_, ?_⟩
    · exact agree.of_books rfl rfl (agree.owned.withAmount id amount)
        (agree.owned'.withAmount id amount) (agree.alike.withAmount id amount)
    · exact fun other different => agree.owned.withAmount_untouched amount different
    · exact fun other different => agree.owned'.withAmount_untouched amount different
    · exact .nothing rfl rfl

theorem abreast_removeRecord (agree : Agree clock user id first second) :
    Abreast clock user id (· = ·) first second (Store.removeRecord id) (Store.removeRecord id) := by
  apply Abreast.statement agree
  refine .ok ⟨rfl, ?_, ?_, ?_, ?_⟩
  · exact agree.of_books rfl rfl (agree.owned.removeRecord id) (agree.owned'.removeRecord id)
      (agree.alike.removeRecord id)
  · exact fun other different => agree.owned.removeRecord_untouched different
  · exact fun other different => agree.owned'.removeRecord_untouched different
  · exact .nothing rfl rfl

theorem abreast_deletePayment (agree : Agree clock user id first second) :
    Abreast clock user id (· = ·) first second (Store.deletePayment id)
      (Store.deletePayment id) := by
  apply Abreast.statement agree
  have rows := agree.alike.findPayment? agree.owned agree.owned'
  have present : (first.book.findPayment? id).isSome = (second.book.findPayment? id).isSome := by
    have there := congrArg Option.isSome rows
    rwa [Option.isSome_map, Option.isSome_map] at there
  refine .ok ⟨present, ?_, ?_, ?_, ?_⟩
  · exact agree.of_books rfl rfl (agree.owned.deletePayment id) (agree.owned'.deletePayment id)
      (agree.alike.deletePayment id)
  · exact fun other different => agree.owned.deletePayment_untouched different
  · exact fun other different => agree.owned'.deletePayment_untouched different
  · exact .nothing rfl rfl

theorem abreast_recordEvent (agree : Agree clock user id first second) {now now' : Instant}
    (times : (stamp now).map clock = (stamp now').map clock) {event : FeeEvent}
    (mine : event.user = user) :
    Abreast clock user id (· = ·) first second (Store.recordEvent now event)
      (Store.recordEvent now' event) := by
  subst mine
  unfold Store.recordEvent Store.appendEntry
  apply Abreast.statement agree
  refine .ok ⟨rfl, ?_, ?_, ?_, ?_⟩
  · exact agree.of_books rfl rfl ⟨agree.owned.note now event, agree.owned.payment,
      agree.owned.record⟩ ⟨agree.owned'.note now' event, agree.owned'.payment,
      agree.owned'.record⟩ ⟨agree.alike.plan, agree.alike.payments, agree.alike.records,
      agree.alike.nextPayment⟩
  · exact fun other different => Book.note_untouched _ now event different
  · exact fun other different => Book.note_untouched _ now' event different
  · exact .note _ _ event times

theorem abreast_saveRecord (agree : Agree clock user id first second) (record : FeeRecord Instant)
    (created updated : Instant) (place : record.payment = id) (mine : record.user = user)
    (creation : (first.book.findRecord? id).isSome = true ∨
      (stamp record.createdAt).map clock = (stamp created).map clock)
    (change : (stamp record.updatedAt).map clock = (stamp updated).map clock) :
    Abreast clock user id (· = ·) first second (Store.saveRecord record)
      (Store.saveRecord { record with createdAt := created, updatedAt := updated }) := by
  subst place mine
  have records := agree.alike.findRecord? agree.owned agree.owned'
  have payments := agree.alike.findPayment? agree.owned agree.owned'
  have charged : (first.book.findRecord? record.payment).isSome =
      (second.book.findRecord? record.payment).isSome := by
    have there := congrArg Option.isSome records
    rwa [Option.isSome_map, Option.isSome_map] at there
  have present : (first.book.findPayment? record.payment).isSome =
      (second.book.findPayment? record.payment).isSome := by
    have there := congrArg Option.isSome payments
    rwa [Option.isSome_map, Option.isSome_map] at there
  unfold Store.saveRecord
  apply Abreast.statement agree
  simp only [saveRecord_eq]
  rw [← charged, ← present]
  split
  · exact .error _
  split
  · exact .error _
  split
  · exact .error _
  split
  · have put := putRecord_eq_putAmong first.book (record.retimed stamp)
    have put' := putRecord_eq_putAmong second.book { record.retimed stamp with
      createdAt := stamp created, updatedAt := stamp updated }
    refine .ok ⟨trivial, ?_, ?_, ?_, ?_⟩
    · apply agree.of_books (congrArg (·.hasTables) put) (congrArg (·.hasTables) put')
      · exact @Owned.putRecord _ _ (record.retimed stamp) agree.owned
      · exact @Owned.putRecord _ _ { record.retimed stamp with
          createdAt := stamp created, updatedAt := stamp updated } agree.owned'
      · exact @Alike.putRecord _ _ _ (record.retimed stamp) _ _ agree.alike agree.owned
          agree.owned' creation change
    · exact fun other different =>
        @Owned.putRecord_untouched _ (record.retimed stamp) agree.owned other different
    · exact fun other different =>
        @Owned.putRecord_untouched _ { record.retimed stamp with
          createdAt := stamp created, updatedAt := stamp updated } agree.owned' other different
    · exact .nothing (congrArg (·.log) put) (congrArg (·.log) put')
  · exact .error _

theorem abreast_savePlan (agree : Agree clock user id first second) {now now' : Instant}
    (times : (stamp now).map clock = (stamp now').map clock) (plan : FeePlan) :
    Abreast clock user id (· = ·) first second (Store.savePlan (.ofPlan user plan now))
      (Store.savePlan (.ofPlan user plan now')) := by
  have same : (PlanRow.ofStored (.ofPlan user plan now)).retimed clock =
      (PlanRow.ofStored (.ofPlan user plan now')).retimed clock := by
    simp [PlanRow.ofStored, PlanRow.retimed, StoredPlan.ofPlan, times]
  apply Abreast.statement agree
  refine .ok ⟨rfl, ?_, ?_, ?_, ?_⟩
  · obtain ⟨plans, saved⟩ := first.book.savePlan_plans (.ofStored (.ofPlan user plan now))
    obtain ⟨plans', saved'⟩ := second.book.savePlan_plans (.ofStored (.ofPlan user plan now'))
    exact agree.of_books (congrArg (·.hasTables) saved) (congrArg (·.hasTables) saved')
      (agree.owned.savePlan _) (agree.owned'.savePlan _) (agree.alike.savePlan same)
  · exact fun other different => Book.savePlan_untouched _ _ different
  · exact fun other different => Book.savePlan_untouched _ _ different
  · obtain ⟨plans, saved⟩ := first.book.savePlan_plans (.ofStored (.ofPlan user plan now))
    obtain ⟨plans', saved'⟩ := second.book.savePlan_plans (.ofStored (.ofPlan user plan now'))
    exact .nothing (congrArg (·.log) saved) (congrArg (·.log) saved')

theorem abreast_insertPayment (agree : Agree clock user id first second) {now now' : Instant}
    (times : (stamp now).map clock = (stamp now').map clock) (amount : Float)
    (description : Option String) :
    Abreast clock user id (fun k k' => k = first.book.nextPayment ∧ k = k') first second
      (Store.insertPayment now user amount description)
      (Store.insertPayment now' user amount description) := by
  apply Abreast.statement agree
  have next := agree.alike.nextPayment
  cases missing : amount.isNaN with
  | true =>
    have refused (book : Book) (time : Instant) :
        book.insertPayment time user amount description =
          .error (.missingValue "payment.amount") := by
      unfold Book.insertPayment
      rw [missing]
      rfl
    rw [refused, refused]
    exact .error _
  | false =>
    have stored (book : Book) (time : Instant) : ∃ after,
        book.insertPayment time user amount description = .ok (book.nextPayment, after) := by
      unfold Book.insertPayment
      rw [missing]
      exact ⟨_, rfl⟩
    obtain ⟨after, done⟩ := stored first.book now
    obtain ⟨after', done'⟩ := stored second.book now'
    rw [done, done']
    refine .ok ⟨⟨rfl, next⟩, ?_, ?_, ?_, ?_⟩
    · exact agree.of_books (congrArg (·.hasTables) (Book.insertPayment_ok done))
        (congrArg (·.hasTables) (Book.insertPayment_ok done')) (agree.owned.enter done)
        (agree.owned'.enter done') (agree.alike.enter times done done')
    · exact fun other different => enter_untouched done different
    · exact fun other different => enter_untouched done' different
    · exact .nothing (congrArg (·.log) (Book.insertPayment_ok done))
        (congrArg (·.log) (Book.insertPayment_ok done'))

end

section

variable {config : Config} {first second : Store} (tables : first.book.hasTables = true)
  (tables' : second.book.hasTables = true)
include tables tables'

theorem rawFee_congr {plan : StoredPlan} {size : Float}
    (amounts : (first.book.paymentsOf plan.user).map (·.amount) =
      (second.book.paymentsOf plan.user).map (·.amount)) :
    ((Quote.rawFee config Store.sources plan size).run first).1 =
      ((Quote.rawFee config Store.sources plan size).run second).1 := by
  have asked (range : AmountRange) :
      ((Store.sources.frequency plan.user range).run first).1 =
        ((Store.sources.frequency plan.user range).run second).1 := by
    change ((Store.frequency plan.user range).run first).1 =
      ((Store.frequency plan.user range).run second).1
    unfold Store.frequency Book.frequency
    rw [Store.run_query, Store.run_query, if_pos tables, if_pos tables', amounts]
  rcases Quote.rawFee_cases config Store.sources plan size with ⟨range, question⟩ | free
  · rw [question, Action.run_map, Action.run_map, asked]
  · rw [free]
    rfl

/-- A quote depends on the plan of the user and on the amounts that the user has paid. -/
theorem quote_congr {clock : Instant → Instant} {user : UserId}
    (plan : (first.book.findPlan? user).map (·.retimed clock) =
      (second.book.findPlan? user).map (·.retimed clock))
    (amounts : (first.book.paymentsOf user).map (·.amount) =
      (second.book.paymentsOf user).map (·.amount)) (amount : Float) :
    ((Quote.fee config Store.sources user amount).run first).1 =
      ((Quote.fee config Store.sources user amount).run second).1 := by
  cases finite : amount.isFinite with
  | false =>
    unfold Quote.fee
    rw [finite]
    rfl
  | true =>
    have asked (store : Store) (tables : store.book.hasTables = true) :
        (Store.sources.plan user).run store =
          ((store.book.findPlan? user).mapM PlanRow.read, store) := by
      change (Store.plan? user).run store = _
      unfold Store.plan?
      rw [Store.run_query, if_pos tables]
    have found := Outcomes.of_map (map_mapM_eq (PlanRow.read_retimed clock) plan)
    rw [Quote.fee_eq_settle config Store.sources user finite, Action.run_bind, Action.run_bind,
      asked first tables, asked second tables']
    generalize read : (first.book.findPlan? user).mapM PlanRow.read = here at found
    generalize (second.book.findPlan? user).mapM PlanRow.read = there at found
    cases found with
    | error failure => rfl
    | @ok here there same =>
      cases here with
      | none =>
        rw [Option.map_eq_none_iff.mp same.symm]
        rfl
      | some stored =>
        obtain ⟨stored', rfl, alike⟩ := Option.map_eq_some_iff.mp same.symm
        have mine : stored.user = user := by
          rcases optionMapM_ok read with ⟨-, none⟩ | ⟨row, value, present, done, same⟩
          · cases none
          · cases same
            obtain ⟨_, _, _, _, _, -, -, -, -, -, rfl⟩ := PlanRow.read_ok done
            exact (mem_of_find? (fun p : PlanRow => p.user) present).2
        have raw : Quote.rawFee config Store.sources stored' amount.abs =
            Quote.rawFee config Store.sources stored amount.abs := by
          change Quote.rawFee config Store.sources (stored'.retimed clock) amount.abs =
            Quote.rawFee config Store.sources (stored.retimed clock) amount.abs
          rw [alike]
        dsimp only
        rw [raw, bind_pure_comp, Action.run_map, Action.run_map,
          rawFee_congr tables tables' (mine ▸ amounts)]

end

section

variable {config : Config} {clock : Instant → Instant} {user : UserId} {id : PaymentId}
  {first second : Store} {now now' : Instant}

theorem abreast_quote (agree : Agree clock user id first second) (amount : Float) :
    Abreast clock user id (· = ·) first second (Quote.fee config Store.sources user amount)
      (Quote.fee config Store.sources user amount) := by
  have reads := Store.readOnly_quote config user amount
  constructor
  · rw [quote_congr agree.tables agree.tables' agree.alike.plan agree.alike.amounts]
    cases ((Quote.fee config Store.sources user amount).run second).1 with
    | error failure => exact .error failure
    | ok fee => exact .ok rfl
  · rw [reads.after_eq, reads.after_eq]
    exact agree
  · rw [reads.after_eq, reads.after_eq]
    exact .refl _ _

theorem abreast_chargeFee (agree : Agree clock user id first second)
    (times : (stamp now).map clock = (stamp now').map clock) :
    Abreast clock user id (· = ·) first second (Store.chargeFee config now id)
      (Store.chargeFee config now' id) := by
  apply Abreast.transaction agree
  rintro first second - agree
  apply (abreast_requirePayment agree).bind
  rintro ⟨k, owner, gross, description, time⟩ payment' first second ⟨rfl, same⟩ agree
  obtain ⟨-, rfl, rfl, -, -⟩ := Payment.mk.inj same
  apply (abreast_record agree).bind
  rintro existing existing' first second ⟨-, same⟩ agree
  have charged : existing.isSome = existing'.isSome := by
    have there := congrArg Option.isSome same
    rwa [Option.isSome_map, Option.isSome_map] at there
  rw [← charged]
  split
  · exact .throw agree _
  · apply (abreast_quote agree payment'.amount).bind
    rintro fee _ first second rfl agree
    split
    · exact .pure agree rfl
    · apply (abreast_setAmount agree _).bind
      rintro ⟨⟩ ⟨⟩ first second - agree
      apply (abreast_saveRecord agree ⟨id, payment'.user, fee, payment'.amount, now, now⟩ now' now'
        rfl rfl (.inr times) times).bind
      rintro ⟨⟩ ⟨⟩ first second - agree
      apply (abreast_recordEvent agree times rfl).bind
      rintro ⟨⟩ ⟨⟩ first second - agree
      exact .pure agree rfl

theorem abreast_refundFee (agree : Agree clock user id first second)
    (times : (stamp now).map clock = (stamp now').map clock) :
    Abreast clock user id (· = ·) first second (Store.refundFee now id)
      (Store.refundFee now' id) := by
  apply Abreast.transaction agree
  rintro first second - agree
  apply (abreast_record agree).bind
  rintro existing existing' first second ⟨mine, same⟩ agree
  cases existing with
  | none =>
    rw [Option.map_eq_none_iff.mp same.symm]
    exact .pure agree rfl
  | some record =>
    obtain ⟨record', rfl, alike⟩ := Option.map_eq_some_iff.mp same.symm
    obtain ⟨-, owner, fee, -, -, -⟩ := FeeRecord.mk.inj alike
    have event : (FeeEvent.refunded id record.user record.fee).user = user :=
      (mine record rfl).2.1
    dsimp only
    rw [fee, owner]
    apply (abreast_removeRecord agree).bind
    rintro ⟨⟩ ⟨⟩ first second - agree
    apply (abreast_recordEvent agree times event).bind
    rintro ⟨⟩ ⟨⟩ first second - agree
    exact .pure agree rfl

theorem abreast_setAmount_return (agree : Agree clock user id first second) (net : Float)
    (outcome : FeeOutcome) :
    Abreast clock user id (· = ·) first second
      (do Store.setAmount id net; return outcome : Action FeeOutcome)
      (do Store.setAmount id net; return outcome : Action FeeOutcome) := by
  apply (abreast_setAmount agree net).bind
  rintro ⟨⟩ ⟨⟩ first second - agree
  exact .pure agree rfl

theorem abreast_recordEvent_setAmount (agree : Agree clock user id first second)
    (times : (stamp now).map clock = (stamp now').map clock) (event : FeeEvent)
    (mine : event.user = user) (net : Float) (outcome : FeeOutcome) :
    Abreast clock user id (· = ·) first second
      (do Store.recordEvent now event; Store.setAmount id net; return outcome : Action FeeOutcome)
      (do Store.recordEvent now' event; Store.setAmount id net; return outcome :
        Action FeeOutcome) := by
  apply (abreast_recordEvent agree times mine).bind
  rintro ⟨⟩ ⟨⟩ first second - agree
  exact abreast_setAmount_return agree net outcome

theorem abreast_recomputeFee (agree : Agree clock user id first second)
    (times : (stamp now).map clock = (stamp now').map clock) (gross : Float) :
    Abreast clock user id (· = ·) first second (Store.recomputeFee config now id gross)
      (Store.recomputeFee config now' id gross) := by
  unfold Store.recomputeFee
  split
  · exact .throw agree _
  apply Abreast.transaction agree
  rintro first second - agree
  apply (abreast_requirePayment agree).bind
  rintro ⟨k, owner, old, description, time⟩ payment' first second ⟨rfl, same⟩ agree
  obtain ⟨-, rfl, -, -, -⟩ := Payment.mk.inj same
  apply (abreast_record agree).read_bind (Store.readOnly_query _ _) (Store.readOnly_query _ _)
  rintro existing existing' ⟨mine, same⟩
  have reads := Store.readOnly_quote config payment'.user gross
  apply (abreast_quote agree gross).read_bind reads reads
  rintro fee _ rfl
  cases existing with
  | none =>
    rw [Option.map_eq_none_iff.mp same.symm]
    by_cases positive : fee > 0.0
    · simp only [if_pos positive]
      apply (abreast_saveRecord agree ⟨id, payment'.user, fee, gross, now, now⟩ now' now' rfl rfl
        (.inr times) times).bind
      rintro ⟨⟩ ⟨⟩ first second - agree
      exact abreast_recordEvent_setAmount agree times _ rfl _ _
    · simp only [if_neg positive]
      exact abreast_setAmount_return agree _ _
  | some record =>
    obtain ⟨record', rfl, alike⟩ := Option.map_eq_some_iff.mp same.symm
    obtain ⟨place, owner, standing⟩ := mine record rfl
    obtain ⟨k, theirs, previous, base, created, updated⟩ := record
    obtain ⟨k', theirs', previous', base', created', updated'⟩ := record'
    obtain ⟨rfl, rfl, rfl, rfl, -, -⟩ := FeeRecord.mk.inj alike
    by_cases positive : fee > 0.0
    · simp only [if_pos positive]
      apply (abreast_saveRecord agree ⟨k', theirs', fee, gross, created, now⟩ created' now' place
        owner (.inl standing) times).bind
      rintro ⟨⟩ ⟨⟩ first second - agree
      exact abreast_recordEvent_setAmount agree times _ rfl _ _
    · simp only [if_neg positive]
      apply (abreast_removeRecord agree).bind
      rintro ⟨⟩ ⟨⟩ first second - agree
      exact abreast_recordEvent_setAmount agree times _ rfl _ _

theorem abreast_recordPayment (agree : Agree clock user id first second)
    (next : first.book.nextPayment = id)
    (times : (stamp now).map clock = (stamp now').map clock) (amount : Float)
    (description : Option String) :
    Abreast clock user id (· = ·) first second
      (Service.recordPayment config now user amount description)
      (Service.recordPayment config now' user amount description) := by
  unfold Service.recordPayment
  split
  · exact .throw agree _
  apply Abreast.transaction agree
  intro mid mid' same agree
  have entered := abreast_insertPayment agree times amount description
  rw [same, next] at entered
  apply entered.bind
  rintro k _ first second ⟨rfl, rfl⟩ agree
  apply (abreast_chargeFee agree times).bind
  rintro outcome _ first second rfl agree
  exact .pure agree rfl

theorem abreast_deletePayment_service (agree : Agree clock user id first second)
    (times : (stamp now).map clock = (stamp now').map clock) :
    Abreast clock user id (· = ·) first second (Service.deletePayment now id)
      (Service.deletePayment now' id) := by
  apply Abreast.transaction agree
  rintro first second - agree
  apply (abreast_payment agree).bind
  rintro found found' first second same agree
  have present : found.isNone = found'.isNone := by
    have there := congrArg Option.isNone same
    rwa [Option.isNone_map, Option.isNone_map] at there
  rw [← present]
  split
  · exact .throw agree _
  · apply (abreast_refundFee agree times).bind
    rintro refunded _ first second rfl agree
    apply (abreast_deletePayment agree).bind
    rintro _ _ first second - agree
    exact .pure agree rfl

theorem abreast_servicePlan (agree : Agree clock user id first second) :
    Abreast clock user id (· = ·) first second (Service.plan user) (Service.plan user) := by
  apply (abreast_plan agree).bind
  rintro found found' first second same agree
  apply Abreast.pure agree
  cases found with
  | none => rw [Option.map_eq_none_iff.mp same.symm]
  | some stored =>
    obtain ⟨stored', rfl, alike⟩ := Option.map_eq_some_iff.mp same.symm
    change (stored.retimed clock).plan = (stored'.retimed clock).plan
    rw [alike]

theorem abreast_serviceSavePlan (agree : Agree clock user id first second)
    (times : (stamp now).map clock = (stamp now').map clock) (seen : clock now = clock now')
    (plan : FeePlan) :
    Abreast clock user id (fun saved saved' => saved.retimed clock = saved'.retimed clock)
      first second (Service.savePlan now user plan) (Service.savePlan now' user plan) := by
  unfold Service.savePlan
  cases plan.check with
  | error fault => exact .throw agree _
  | ok =>
    have saves : Abreast clock user id (· = ·) first second
        (Store.transaction do
          Store.savePlan (.ofPlan user plan now)
          Store.recordEvent now (.planSaved user plan.mode))
        (Store.transaction do
          Store.savePlan (.ofPlan user plan now')
          Store.recordEvent now' (.planSaved user plan.mode)) := by
      apply Abreast.transaction agree
      rintro first second - agree
      apply (abreast_savePlan agree times plan).bind
      rintro ⟨⟩ ⟨⟩ first second - agree
      exact abreast_recordEvent agree times rfl
    apply saves.bind
    rintro ⟨⟩ ⟨⟩ first second - agree
    apply (abreast_plan agree).bind
    rintro found found' first second same agree
    apply Abreast.pure agree
    cases found with
    | none =>
      rw [Option.map_eq_none_iff.mp same.symm]
      simp [StoredPlan.retimed, StoredPlan.ofPlan, seen]
    | some stored =>
      obtain ⟨stored', rfl, alike⟩ := Option.map_eq_some_iff.mp same.symm
      exact alike.symm

end

end PaymentFees
