import PaymentFees.Proofs.Grammar.Variables
import PaymentFees.Proofs.Integrity
import PaymentFees.Proofs.Listings
import PaymentFees.Proofs.Questions
import PaymentFees.Proofs.SavedPlans
import PaymentFees.Proofs.Statements

namespace PaymentFees

open Binary

theorem isNaN_roundCents {x : Float} (number : x.isNaN = false) (rounding : Rounding) :
    (roundCents rounding x).isNaN = false := by
  unfold roundCents
  split
  · next money _ =>
    let cents := money.toCents rounding.quotient
    have magnitude : Unsigned (Money.toFloat ⟨.positive, cents.coefficient, cents.places⟩) :=
      unsigned_toFloat rfl (toCents_places _ _)
    exact isNaN_signed magnitude.isNaN cents.sign
  · have scaled := isNaN_mul number extent_hundred (by norm_num)
    exact isNaN_div (isNaN_onWhole scaled _) extent_hundred (by norm_num)

theorem isNaN_amountAfterFee {gross fee : Float} (finite : gross.isFinite = true)
    (number : fee.isNaN = false) (rounding : Rounding) :
    (amountAfterFee rounding gross fee).isNaN = false :=
  isNaN_roundCents (isNaN_sub finite number) rounding

theorem Binary.Unsigned.exists_extent {x : Float} (unsigned : Unsigned x)
    (finite : x.isFinite = true) : ∃ q : ℚ, Extent x q := by
  obtain ⟨a, read⟩ := unsigned
  cases a with
  | top =>
    change x.toModel.unpack.isFinite = true at finite
    simp only [Extent] at read
    rw [read] at finite
    cases finite
  | coe q => exact ⟨q, read⟩

theorem Binary.Unsigned.eq_zero {x : Float} (unsigned : Unsigned x) (small : x ≤ 0.0) :
    x = 0.0 := by
  obtain ⟨a, read⟩ := unsigned
  have bound := (read.le_iff extent_zero).mp small
  cases a with
  | top => exact absurd bound (not_le.mpr (WithTop.coe_lt_top 0))
  | coe q =>
    have zero : q = 0 := le_antisymm (WithTop.coe_le_coe.mp bound) read.range.1
    exact eq_of_unpack (Stands.unique read extent_zero zero)

theorem Quote.unsigned_settle (config : Config) {size raw : Float} {q : ℚ} (read : Extent size q)
    (unsigned : raw.isFinite = true → Unsigned raw) : Unsigned (settle config size raw) := by
  have zero : Unsigned 0.0 := ⟨_, extent_zero⟩
  cases finite : raw.isFinite with
  | false =>
    rw [settle_of_not_finite config size finite]
    exact zero
  | true =>
    obtain ⟨p, number⟩ := (unsigned finite).exists_extent finite
    have least : Extent (if raw < size then raw else size) (if raw < size then p else q : ℚ) := by
      split
      · exact number
      · exact read
    have rounded := unsigned_roundCents least config.rounding
    have cut := unsigned_truncateCents read
    unfold settle
    rw [finite, if_neg (by decide)]
    dsimp only
    generalize roundCents config.rounding (if raw < size then raw else size) = cents at rounded
    split_ifs <;> assumption

/-- A formula that does not mention the frequency is kept for the user. -/
def Steady (user : UserId) (book : Book) : Prop :=
  ∃ row, book.findPlan? user = some row ∧ row.modeName = FeeMode.formula.name ∧
    ∀ text, row.formulaText = some text → ¬ Formula.Mentions text .y

namespace Quote

variable {config : Config} {plan : StoredPlan} {size : Float}

theorem rawAt_formula_eq (mode : plan.mode = .formula)
    (omits : ∀ text, plan.formulaText = some text → ¬ Formula.Mentions text .y)
    (frequency frequency' : Float) :
    rawAt config plan size frequency = rawAt config plan size frequency' := by
  cases kept : plan.formulaText with
  | none => simp [rawAt, rawFee, mode, formulaFee, kept]
  | some text =>
    cases nonempty : text.isEmpty with
    | true => simp [rawAt, rawFee, mode, formulaFee, kept, nonempty]
    | false =>
      rw [rawAt_formula mode kept nonempty, rawAt_formula mode kept nonempty,
        Formula.valueOf?_of_not_mentions (omits text kept) size frequency frequency']

theorem unsigned_rawAt_formula (mode : plan.mode = .formula) {frequency : Float}
    (finite : (rawAt config plan size frequency).isFinite = true) :
    Unsigned (rawAt config plan size frequency) := by
  have zero : Unsigned 0.0 := ⟨_, extent_zero⟩
  cases kept : plan.formulaText with
  | none => simpa [rawAt, rawFee, mode, formulaFee, kept] using zero
  | some text =>
    cases nonempty : text.isEmpty with
    | true => simpa [rawAt, rawFee, mode, formulaFee, kept, nonempty] using zero
    | false =>
      rw [rawAt_formula mode kept nonempty] at finite ⊢
      cases value : Formula.valueOf? text size frequency with
      | none => exact zero
      | some v =>
        rw [value] at finite
        have size : v.abs.isFinite = true := finite
        obtain ⟨q, read⟩ := extent_abs size
        rw [abs_abs] at read
        exact ⟨q, read⟩

end Quote

/-- The fee that a row with such a formula gives for an amount, or why the row cannot be read. -/
def PlanRow.quoted (config : Config) (row : PlanRow) (amount : Float) : Except Failure Float :=
  row.read.map fun plan =>
    Quote.settle config amount.abs (Quote.rawAt config plan amount.abs 0.0)

section

variable {config : Config} {row : PlanRow} {amount : Float}

theorem PlanRow.quoted_congr {other : Float} (same : amount.abs = other.abs) :
    row.quoted config amount = row.quoted config other := by
  unfold quoted
  rw [same]

theorem PlanRow.mode_of_read {plan : StoredPlan} (mode : row.modeName = FeeMode.formula.name)
    (read : row.read = .ok plan) :
    plan.mode = .formula ∧ plan.user = row.user ∧ plan.formulaText = row.formulaText := by
  obtain ⟨kept, bounds, ranges, created, updated, named, -, -, -, -, rfl⟩ := PlanRow.read_ok read
  rw [mode] at named
  have formula : FeeMode.ofName? FeeMode.formula.name = some .formula := by decide
  rw [formula] at named
  cases named
  exact ⟨rfl, rfl, rfl⟩

theorem PlanRow.unsigned_quoted (mode : row.modeName = FeeMode.formula.name)
    (finite : amount.isFinite = true) {fee : Float} (priced : row.quoted config amount = .ok fee) :
    Unsigned fee := by
  unfold quoted at priced
  cases read : row.read with
  | error failure =>
    rw [read] at priced
    cases priced
  | ok plan =>
    rw [read] at priced
    cases priced
    obtain ⟨q, size⟩ := extent_abs finite
    exact Quote.unsigned_settle config size
      (Quote.unsigned_rawAt_formula (PlanRow.mode_of_read mode read).1)

end

namespace Store

variable (config : Config) (now : Instant) {store : Store} (tables : store.book.hasTables = true)
include tables

theorem run_rawFee {plan : StoredPlan} (mode : plan.mode = .formula)
    (omits : ∀ text, plan.formulaText = some text → ¬ Formula.Mentions text .y) (size : Float) :
    (Quote.rawFee config sources plan size).run store =
      (.ok (Quote.rawAt config plan size 0.0), store) := by
  by_cases needs : ∃ range, Quote.Needs plan size range
  · obtain ⟨range, needs⟩ := needs
    have asked : (sources.frequency plan.user range).run store = _ :=
      run_frequency tables plan.user range
    rw [Quote.rawFee_of_needs needs, Action.run_map, asked]
    exact congrArg (fun raw => (Except.ok raw, store)) (Quote.rawAt_formula_eq mode omits _ _)
  · rw [not_exists] at needs
    have free : Quote.rawAt config plan size 0.0 = 0.0 :=
      congrArg Id.run (Quote.rawFee_of_not_needs needs)
    rw [Quote.rawFee_of_not_needs needs, free]
    rfl

theorem run_quote {user : UserId} {row : PlanRow} (found : store.book.findPlan? user = some row)
    (mode : row.modeName = FeeMode.formula.name)
    (omits : ∀ text, row.formulaText = some text → ¬ Formula.Mentions text .y) {amount : Float}
    (finite : amount.isFinite = true) :
    (Quote.fee config sources user amount).run store = (row.quoted config amount, store) := by
  have asked : (sources.plan user).run store = ((some row).mapM PlanRow.read, store) := by
    rw [← found]
    exact run_plan? tables user
  rw [Quote.fee_eq_settle _ _ _ finite, Action.run_bind, asked]
  unfold PlanRow.quoted
  cases read : row.read with
  | error failure =>
    have failed : (some row).mapM PlanRow.read = .error failure := by
      change some <$> row.read = _
      rw [read]
      rfl
    rw [failed]
    rfl
  | ok plan =>
    have there : (some row).mapM PlanRow.read = .ok (some plan) := by
      change some <$> row.read = _
      rw [read]
      rfl
    obtain ⟨formula, -, text⟩ := PlanRow.mode_of_read mode read
    rw [there]
    dsimp only
    rw [Action.run_bind, run_rawFee config tables formula (text ▸ omits)]
    rfl

theorem exists_run_insertPayment (integrity : Integrity store.book) (user : UserId) {amount : Float}
    (description : Option String) (number : amount.isNaN = false) :
    ∃ after, (insertPayment now user amount description).run store =
        (.ok store.book.nextPayment, after) ∧ after.book.hasTables = true ∧
      after.book.findPayment? store.book.nextPayment =
        some ⟨store.book.nextPayment, user, keptNumber amount, description, stamp now⟩ ∧
      after.book.findRecord? store.book.nextPayment = none ∧
      after.book.findPlan? user = store.book.findPlan? user := by
  obtain ⟨after, stored⟩ : ∃ after, store.book.insertPayment now user amount description =
      .ok (store.book.nextPayment, after) := by
    unfold Book.insertPayment
    rw [number]
    exact ⟨_, rfl⟩
  refine ⟨{ store with book := after }, ?_, ?_⟩
  · unfold insertPayment
    rw [run_statement, if_pos tables, stored]
    rfl
  · have entered := Book.findPayment?_entered integrity.toOrdered stored
    rw [Book.insertPayment_ok stored] at entered ⊢
    exact ⟨tables, entered, integrity.findRecord?_next, rfl⟩

theorem setAmount_return_fst (id : PaymentId) (fee : Float) {net : Float}
    (number : net.isNaN = false) :
    ((do setAmount id net; return ⟨fee, net⟩ : Action FeeOutcome).run store).1 =
      .ok ⟨fee, net⟩ := by
  rw [Action.run_bind_of_ok (run_setAmount tables id number)]
  rfl

theorem recordEvent_setAmount_return_fst (event : FeeEvent) (id : PaymentId) (fee : Float)
    {net : Float} (number : net.isNaN = false) :
    ((do recordEvent now event; setAmount id net; return ⟨fee, net⟩ :
      Action FeeOutcome).run store).1 = .ok ⟨fee, net⟩ := by
  rw [Action.run_bind_of_ok (run_recordEvent tables now event)]
  exact @setAmount_return_fst { store with book := store.book.note now event } tables id fee _
    number

theorem saveRecord_recordEvent_setAmount_return_fst {record : FeeRecord Instant} {net : Float}
    (unsigned : Unsigned record.fee) (gross : record.grossAmount.isNaN = false)
    (stands : (store.book.findPayment? record.payment).isSome = true) (event : FeeEvent)
    (id : PaymentId) (fee : Float) (number : net.isNaN = false) :
    ((do saveRecord record; recordEvent now event; setAmount id net; return ⟨fee, net⟩ :
      Action FeeOutcome).run store).1 = .ok ⟨fee, net⟩ := by
  rw [Action.run_bind_of_ok (run_saveRecord tables unsigned.isNaN gross unsigned.not_lt stands)]
  apply recordEvent_setAmount_return_fst now _ event id fee number
  exact (Book.hasTables_putRecord _ _).trans tables

omit tables

section

variable {user : UserId} {row : PlanRow} (tables : store.book.hasTables = true)
  (found : store.book.findPlan? user = some row) (mode : row.modeName = FeeMode.formula.name)
  (omits : ∀ text, row.formulaText = some text → ¬ Formula.Mentions text .y)
include tables found mode omits

theorem chargeFee_fee {id : PaymentId} {p : Payment Stamp} (mine : p.user = user)
    (stands : store.book.findPayment? id = some p) (uncharged : store.book.findRecord? id = none)
    (finite : p.amount.isFinite = true) :
    ((chargeFee config now id).run store).1.map FeeOutcome.fee =
      p.read.mapError .storage >>= fun _ => row.quoted config p.amount := by
  unfold chargeFee
  rw [transaction_fst]
  generalize opening : ({ store with isOpen := true } : Store) = opened
  have book : opened.book = store.book := by rw [← opening]
  rw [← book] at tables found stands uncharged
  have required := run_requirePayment tables stands
  cases read : p.read with
  | error fault =>
    rw [read] at required
    rw [Action.run_bind, required]
    rfl
  | ok payment =>
    obtain ⟨time, -, rfl⟩ := Payment.read_ok read
    rw [read] at required
    have looked := run_record? tables id
    rw [uncharged] at looked
    rw [Action.run_bind_of_ok required, Action.run_bind_of_ok looked, Option.isSome_none,
      if_neg Bool.false_ne_true, mine, Action.run_bind,
      run_quote config tables found mode omits finite]
    cases priced : row.quoted config p.amount with
    | error failure => rfl
    | ok fee =>
      have unsigned := PlanRow.unsigned_quoted mode finite priced
      dsimp only
      split
      -- The answer is then zero, and so is the fee: it is no zero with a sign.
      · next small => exact congrArg Except.ok (unsigned.eq_zero small).symm
      · have number := isNaN_amountAfterFee finite unsigned.isNaN config.rounding
        have changed := run_setAmount tables id number
        generalize amountAfterFee config.rounding p.amount fee = net at changed ⊢
        have paid : ((opened.book.withAmount id net).findPayment? id).isSome = true := by
          rw [Book.findPayment?_withAmount, Option.isSome_map]
          exact Option.isSome_of_eq_some stands
        have saved := @run_saveRecord { opened with book := opened.book.withAmount id net } tables
          ⟨id, user, fee, p.amount, now, now⟩ unsigned.isNaN (isNaN_of_isFinite finite)
          unsigned.not_lt paid
        have made := (Book.hasTables_putRecord (opened.book.withAmount id net)
          ⟨id, user, fee, p.amount, stamp now, stamp now⟩).trans tables
        rw [Action.run_bind_of_ok changed, Action.run_bind_of_ok saved,
          Action.run_bind_of_ok (run_recordEvent made now _)]
        rfl

theorem recomputeFee_fee {id : PaymentId} {gross : Float} {p : Payment Stamp} (mine : p.user = user)
    (stands : store.book.findPayment? id = some p) (finite : gross.isFinite = true) :
    ((recomputeFee config now id gross).run store).1.map FeeOutcome.fee =
      p.read.mapError .storage >>= fun _ =>
        ((store.book.findRecord? id).mapM FeeRecord.read).mapError .storage >>= fun _ =>
          row.quoted config gross := by
  unfold recomputeFee
  rw [finite, Bool.not_true, if_neg Bool.false_ne_true, transaction_fst]
  generalize opening : ({ store with isOpen := true } : Store) = opened
  have book : opened.book = store.book := by rw [← opening]
  rw [← book] at tables found stands ⊢
  have required := run_requirePayment tables stands
  have looked := run_record? tables id
  cases read : p.read with
  | error fault =>
    rw [read] at required
    rw [Action.run_bind, required]
    rfl
  | ok payment =>
    obtain ⟨time, -, rfl⟩ := Payment.read_ok read
    rw [read] at required
    rw [Action.run_bind_of_ok required]
    cases known : (opened.book.findRecord? id).mapM FeeRecord.read with
    | error fault =>
      rw [known] at looked
      rw [Action.run_bind, looked]
      rfl
    | ok existing =>
      rw [known] at looked
      rw [Action.run_bind_of_ok looked, mine, Action.run_bind,
        run_quote config tables found mode omits finite]
      cases priced : row.quoted config gross with
      | error failure => rfl
      | ok fee =>
        have unsigned := PlanRow.unsigned_quoted mode finite priced
        have size := isNaN_of_isFinite finite
        have number := isNaN_amountAfterFee finite unsigned.isNaN config.rounding
        have paid := Option.isSome_of_eq_some stands
        dsimp only
        -- The record and the sign of the fee decide what is written, which succeeds in any case.
        obtain ⟨-, ⟨-, rfl⟩ | ⟨record, created, updated, -, place, rfl⟩⟩ := record?_ok looked
        · by_cases positive : fee > 0.0
          · simp only [if_pos positive]
            rw [@saveRecord_recordEvent_setAmount_return_fst now _ tables
              ⟨id, user, fee, gross, now, now⟩ _ unsigned size paid _ id fee number]
            rfl
          · simp only [if_neg positive]
            rw [setAmount_return_fst tables id fee size]
            rfl
        · by_cases positive : fee > 0.0
          · simp only [if_pos positive]
            rw [@saveRecord_recordEvent_setAmount_return_fst now _ tables
              ⟨record.payment, record.user, fee, gross, created, now⟩ _ unsigned size
              (place ▸ paid) _ id fee number]
            rfl
          · simp only [if_neg positive]
            rw [Action.run_bind_of_ok (run_removeRecord tables id),
              @recordEvent_setAmount_return_fst now { opened with
                book := opened.book.removeRecord id } tables _ id fee _ size]
            rfl

theorem recordPayment_fee (integrity : Integrity store.book) {amount : Float}
    (finite : amount.isFinite = true) (description : Option String) :
    ((Service.recordPayment config now user amount description).run store).1.map Receipt.fee =
      (readTime 4 (stamp now)).mapError .storage >>= fun _ => row.quoted config amount := by
  obtain ⟨entered, ran, tables, stands, uncharged, same⟩ :=
    @exists_run_insertPayment now ⟨store.book, true⟩ tables integrity user amount description
      (isNaN_of_isFinite finite)
  rw [← same] at found
  have size := abs_keptNumber amount
  have kept : (keptNumber amount).isFinite = true := by
    rw [← isFinite_abs, size, isFinite_abs, finite]
  have charged := chargeFee_fee config now tables found mode omits rfl stands uncharged kept
  unfold Service.recordPayment
  rw [finite, Bool.not_true, if_neg Bool.false_ne_true, transaction_fst,
    Action.run_bind_of_ok ran, ← PlanRow.quoted_congr size]
  calc
    _ = ((chargeFee config now store.book.nextPayment).run entered).1.map FeeOutcome.fee := by
      rw [Action.run_bind]
      rcases (chargeFee config now store.book.nextPayment : Action _).run entered with
        ⟨failure | outcome, after⟩ <;> rfl
    _ = _ := by
      rw [charged]
      unfold Payment.read
      cases stamp now <;> rfl

end

end Store

/-- What was quoted for an amount is quoted again, for the opposite amount too, and it is the fee of
a payment of that amount, new or changed to it, as far as the times of the rows can be read. -/
structure Honoured (config : Config) (user : UserId) (amount : Float)
    (quoted : Except Failure Float) (store : Store) : Prop where
  again : ((Service.quote config user amount).run store).1 = quoted
  opposite : ((Service.quote config user (-amount)).run store).1 = quoted
  recorded : ∀ now description,
    ((Service.recordPayment config now user amount description).run store).1.map Receipt.fee =
      (readTime 4 (stamp now)).mapError .storage >>= fun _ => quoted
  updated : ∀ now id p, store.book.findPayment? id = some p → p.user = user →
    ((Service.updatePayment config now id amount).run store).1.map FeeOutcome.fee =
      p.read.mapError .storage >>= fun _ =>
        ((store.book.findRecord? id).mapM FeeRecord.read).mapError .storage >>= fun _ => quoted

namespace Store

variable (config : Config) {user : UserId} {amount : Float}

theorem honoured {store : Store} {row : PlanRow} (tables : store.book.hasTables = true)
    (integrity : Integrity store.book) (found : store.book.findPlan? user = some row)
    (mode : row.modeName = FeeMode.formula.name)
    (omits : ∀ text, row.formulaText = some text → ¬ Formula.Mentions text .y)
    (finite : amount.isFinite = true) :
    Honoured config user amount (row.quoted config amount) store := by
  have opposite : (-amount).isFinite = true := by
    rw [← isFinite_abs, Binary.abs_neg, isFinite_abs, finite]
  refine ⟨?_, ?_, fun now description => ?_, fun now id p stands mine => ?_⟩
  · exact congrArg Prod.fst (run_quote config tables found mode omits finite)
  · rw [← PlanRow.quoted_congr (Binary.abs_neg amount)]
    exact congrArg Prod.fst (run_quote config tables found mode omits opposite)
  · exact recordPayment_fee config now tables found mode omits integrity finite description
  · exact recomputeFee_fee config now tables found mode omits mine stands finite

/-- A formula that does not mention the frequency has one value for all frequencies. So after any
scripts on a fresh store, what such a plan quotes for a finite amount is honoured after any other
scripts that save no plan of the user, whatever else they do. -/
theorem quotes_honoured :
    (∀ text x y y', ¬ Formula.Mentions text .y →
      Formula.valueOf? text x y = Formula.valueOf? text x y') ∧
    ∀ early later : List (Instant × Script), let store := afterScripts config fresh early
      Steady user store.book → amount.isFinite = true →
      (∀ step ∈ later, ∀ r ∈ step.2.requests, ¬ r.WritesPlanOf user) →
      Honoured config user amount ((Service.quote config user amount).run store).1
        (afterScripts config store later) := by
  refine ⟨fun text x y y' omits => Formula.valueOf?_of_not_mentions omits x y y', ?_⟩
  rintro early later store ⟨row, found, mode, omits⟩ finite others
  have tables : store.book.hasTables = true :=
    (afterScripts_continues config fresh early).tables rfl
  obtain ⟨-, integrity⟩ := afterScripts_integrity config fresh_integrity early
  obtain ⟨-, writings⟩ := @afterScripts_writings config (· ≠ user) store later
    fun step taken r made named writes same => others step taken r made (same ▸ writes)
  -- Other users' plans may change, but not the row that the quote is read from.
  have kept := writings.findPlan?_eq (fun other => other rfl)
  rw [(honoured config tables integrity found mode omits finite).again]
  exact honoured config ((afterScripts_continues config store later).tables tables)
    (afterScripts_integrity config integrity later).2 (kept.trans found) mode omits finite

theorem quotes_honoured_tithe :
    let early := tithe.map fun step => (step.1, Script.request step.2)
    let store := afterScripts .standard fresh early
    let later : List (Instant × Script) := [(⟨1, 0⟩, .transaction
      [.request (.savePlan 2 .unconfigured), .request (.deletePayment 1)] .commit)]
    Steady 1 store.book ∧ (25.0 : Float).isFinite = true ∧
      (∀ step ∈ later, ∀ r ∈ step.2.requests, ¬ r.WritesPlanOf 1) ∧
      (∀ y, Formula.valueOf? "x * 0.1" 25.0 y = some 2.5) ∧
      Honoured .standard 1 25.0 (.ok 2.5) (afterScripts .standard store later) := by
  intro early store later
  have omits : ¬ Formula.Mentions "x * 0.1" .y := by decide +kernel
  have others : ∀ step ∈ later, ∀ r ∈ step.2.requests, ¬ r.WritesPlanOf 1 := by
    simp [later, Script.requests, Script.requestsAll, Request.WritesPlanOf]
  have steady : Steady 1 store.book := by
    have saved : (store.book.findPlan? 1).map (fun row => (row.modeName, row.formulaText)) =
        some (FeeMode.formula.name, some "x * 0.1") := by decide +kernel
    obtain ⟨row, found, same⟩ := Option.map_eq_some_iff.mp saved
    obtain ⟨mode, text⟩ := Prod.mk.inj same
    refine ⟨row, found, mode, fun kept is => ?_⟩
    cases text.symm.trans is
    exact omits
  have finite : (25.0 : Float).isFinite = true := by decide
  have value : Formula.valueOf? "x * 0.1" 25.0 0.0 = some 2.5 := by decide +kernel
  have quoted : ((Service.quote .standard 1 25.0).run store).1 = .ok 2.5 := by decide +kernel
  obtain ⟨alike, honoured⟩ := @quotes_honoured .standard 1 25.0
  refine ⟨steady, finite, others, fun y => ?_, ?_⟩
  · exact (alike "x * 0.1" 25.0 y 0.0 omits).trans value
  · rw [← quoted]
    exact honoured early later steady finite others

end Store

end PaymentFees
