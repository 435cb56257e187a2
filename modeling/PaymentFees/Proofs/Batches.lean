import PaymentFees.CommandLine.Run
import PaymentFees.Proofs.Chronicle
import PaymentFees.Proofs.Integrity
import PaymentFees.Proofs.Listings
import PaymentFees.Proofs.SavedPlans
import PaymentFees.Proofs.Shares

namespace PaymentFees

open Binary

namespace Book

theorem insertRecord_last {row : FeeRecord Stamp} {rows : List (FeeRecord Stamp)}
    (below : ∀ r ∈ rows, r.payment < row.payment) : insertRecord row rows = rows ++ [row] := by
  induction rows with
  | nil => rfl
  | cons r rows ih =>
    obtain ⟨first, rest⟩ := List.forall_mem_cons.mp below
    unfold insertRecord
    rw [if_neg (not_lt.mpr first.le), ih rest]
    rfl

def shown (book : Book) (user : UserId) : List (Payment Stamp × Option Float) :=
  (book.paymentsOf user).map fun p => (p, (book.findRecord? p.id).map (·.fee))

end Book

/-- What is new in a book for a user: payments with their fees, and records, with as many entries of
the log. -/
structure Adds (user : UserId) (lines : List (Payment Stamp × Option Float))
    (charges : List (FeeRecord Stamp)) (before after : Book) : Prop where
  shown : after.shown user = before.shown user ++ lines
  records : after.recordsOf user = before.recordsOf user ++ charges
  entries : (after.entriesOf user).length = (before.entriesOf user).length + charges.length

section

variable {user : UserId} {book : Book}

theorem Adds.refl (user : UserId) (book : Book) : Adds user [] [] book book :=
  ⟨(List.append_nil _).symm, (List.append_nil _).symm, rfl⟩

theorem Adds.trans {mid after : Book} {lines others : List (Payment Stamp × Option Float)}
    {charges later : List (FeeRecord Stamp)} (first : Adds user lines charges book mid)
    (rest : Adds user others later mid after) :
    Adds user (lines ++ others) (charges ++ later) book after := by
  refine ⟨?_, ?_, ?_⟩
  · rw [rest.shown, first.shown, List.append_assoc]
  · rw [rest.records, first.records, List.append_assoc]
  · rw [rest.entries, first.entries, List.length_append, Nat.add_assoc]

theorem Integrity.records_below (integrity : Integrity book) :
    ∀ r ∈ book.records, r.payment < book.nextPayment := by
  intro r present
  obtain ⟨p, paid, same⟩ := integrity.paid r present
  exact same ▸ integrity.next p paid

theorem Adds.of_payment {after : Book} (integrity : Integrity book) {p : Payment Stamp}
    (place : p.id = book.nextPayment) {charge : Option (FeeRecord Stamp)}
    (own : ∀ r ∈ charge, r.payment = p.id ∧ r.user = p.user)
    (payments : after.payments = book.payments ++ [p])
    (records : after.records = book.records ++ charge.toList)
    (entries : (after.entriesOf p.user).length =
      (book.entriesOf p.user).length + charge.toList.length) :
    Adds p.user [(p, charge.map (·.fee))] charge.toList book after := by
  have last : [p].filter (·.user == p.user) = [p] := by simp
  have mine : charge.toList.filter (·.user == p.user) = charge.toList := by
    apply List.filter_eq_self.mpr
    intro r present
    simpa using (own r (by simpa using present)).2
  have others (q : Payment Stamp) (present : q ∈ book.payments) :
      after.findRecord? q.id = book.findRecord? q.id := by
    have different := (integrity.next q present).ne
    have elsewhere : charge.toList.find? (·.payment == q.id) = none := by
      apply List.find?_eq_none.mpr
      intro r there
      rw [(own r (by simpa using there)).1, place]
      simpa using different.symm
    unfold Book.findRecord?
    rw [records, List.find?_append, elsewhere, Option.or_none]
  have found : after.findRecord? p.id = charge := by
    have fresh : book.records.find? (·.payment == p.id) = none := place ▸ integrity.findRecord?_next
    unfold Book.findRecord?
    rw [records, List.find?_append, fresh, Option.none_or]
    cases charge with
    | none => rfl
    | some r => simp [(own r rfl).1]
  refine ⟨?_, ?_, entries⟩
  · unfold Book.shown Book.paymentsOf
    rw [payments, List.filter_append, List.map_append, last, List.map_singleton, found]
    congr 1
    apply List.map_congr_left
    intro q present
    rw [others q (List.mem_filter.mp present).1]
  · unfold Book.recordsOf
    rw [records, List.filter_append, mine]

variable {now : Instant} {amount : Float} {description : Option String} {id : PaymentId}
  {mid : Book} (integrity : Integrity book)
  (stored : book.insertPayment now user amount description = .ok (id, mid))
include integrity stored

theorem adds_insertPayment :
    Adds user [(⟨id, user, keptNumber amount, description, stamp now⟩, none)] [] book mid := by
  have place := (Book.insertPayment_number stored).2
  rw [Book.insertPayment_ok stored, ← place]
  exact @Adds.of_payment book _ integrity ⟨id, user, keptNumber amount, description, stamp now⟩
    place none nofun rfl (List.append_nil _).symm rfl

theorem putRecord_entered {fee : Float} (positive : 0.0 < fee) (gross : Float) :
    mid.putRecord ⟨id, user, fee, gross, stamp now, stamp now⟩ = { mid with
      records := book.records ++ [⟨id, user, fee, keptNumber gross, stamp now, stamp now⟩] } := by
  have place := (Book.insertPayment_number stored).2
  have same : mid.records = book.records := by rw [Book.insertPayment_ok stored]
  have kept : keptNumber fee = fee := keptNumber_of_ne (beq_zero_of_lt positive)
  have fresh : mid.findRecord? id = none := by
    unfold Book.findRecord?
    rw [same, place]
    exact integrity.findRecord?_next
  unfold Book.putRecord
  rw [fresh, Option.isSome_none, if_neg Bool.false_ne_true, same, Book.insertRecord_last]
  · unfold Book.kept
    rw [kept]
  · exact place ▸ integrity.records_below

theorem withAmount_entered (net : Float) :
    (mid.withAmount id net).payments =
      book.payments ++ [⟨id, user, keptNumber net, description, stamp now⟩] := by
  have place := (Book.insertPayment_number stored).2
  have older (p : Payment Stamp) (present : p ∈ book.payments) :
      (if p.id = id then { p with amount := keptNumber net } else p) = p :=
    if_neg (place ▸ (integrity.next p present).ne)
  unfold Book.withAmount
  rw [Book.insertPayment_ok stored, ← place, List.map_append, List.map_congr_left older,
    List.map_id', List.map_singleton, if_pos rfl]

theorem adds_charge {fee : Float} (positive : 0.0 < fee) (gross net : Float) {event : FeeEvent}
    (mine : event.user = user) :
    Adds user [(⟨id, user, keptNumber net, description, stamp now⟩, some fee)]
      [⟨id, user, fee, keptNumber gross, stamp now, stamp now⟩] book
      (mid.charge now id user fee gross net event) := by
  have place := (Book.insertPayment_number stored).2
  have put := putRecord_entered integrity stored positive gross
  have amended : (mid.charge now id user fee gross net event).payments =
      book.payments ++ [⟨id, user, keptNumber net, description, stamp now⟩] := by
    rw [← withAmount_entered integrity stored net]
    unfold Book.charge
    rw [put]
    rfl
  have noted : (mid.charge now id user fee gross net event).log =
      book.log ++ [event.entry mid.nextEntry now] := by
    unfold Book.charge
    rw [put, Book.insertPayment_ok stored]
    rfl
  refine @Adds.of_payment book _ integrity ⟨id, user, keptNumber net, description, stamp now⟩
    place (some ⟨id, user, fee, keptNumber gross, stamp now, stamp now⟩) ?_ amended ?_ ?_
  · simp
  · unfold Book.charge
    rw [put]
    rfl
  · have last : [event.entry mid.nextEntry now].filter (·.user == user) =
        [event.entry mid.nextEntry now] := by
      simp [FeeEvent.entry, mine]
    unfold Book.entriesOf
    rw [noted, List.filter_append, last, List.length_append]
    rfl

end

namespace Receipt

/-- The fee if it is above zero. Only such a fee is charged. -/
def fee? (receipt : Receipt) : Option Float := if 0.0 < receipt.fee then some receipt.fee else none

variable {Time : Type}

def line (time : Time) (user : UserId) (description : Option String) (receipt : Receipt) :
    Payment Time × Option Float :=
  (⟨receipt.payment, user, keptNumber receipt.amount, description, time⟩, receipt.fee?)

def record? (time : Time) (user : UserId) (receipt : Receipt) : Option (FeeRecord Time) :=
  receipt.fee?.map fun fee =>
    ⟨receipt.payment, user, fee, keptNumber receipt.grossAmount, time, time⟩

theorem record?_some (time : Time) (user : UserId) (receipt : Receipt) :
    receipt.record? (some time) user = (receipt.record? time user).map (·.retimed some) := by
  unfold record?
  rw [Option.map_map]
  rfl

theorem fees_filterMap (time : Time) (user : UserId) (receipts : List Receipt) :
    (receipts.filterMap (·.record? time user)).map (·.fee) =
      (receipts.map (·.fee)).filter (0.0 < ·) := by
  induction receipts with
  | nil => rfl
  | cons receipt receipts ih =>
    rw [List.filterMap_cons, List.map_cons, List.filter_cons, ← ih]
    unfold record? fee?
    by_cases positive : 0.0 < receipt.fee <;> simp [positive]

end Receipt

section

variable {config : Config} {now : Instant} {store after : Store}

theorem Service.recordPayment_adds (integrity : Integrity store.book) {user : UserId}
    {amount : Float} {description : Option String} {receipt : Receipt}
    (returned : (recordPayment config now user amount description).run store =
      (.ok receipt, after)) :
    receipt.grossAmount = amount ∧
      Adds user [receipt.line (stamp now) user description]
        (receipt.record? (stamp now) user).toList store.book after.book := by
  obtain ⟨gross, mid, stored, p, found, -, -, -, charge⟩ := recordPayment_outcome returned
  refine ⟨gross, ?_⟩
  subst gross
  cases (Book.findPayment?_entered integrity.toOrdered stored).symm.trans found
  obtain ⟨id, fee, net, amount⟩ := receipt
  dsimp only at charge stored ⊢
  generalize after.book = last at charge ⊢
  cases charge with
  | nothing =>
    have free : Receipt.fee? ⟨id, 0.0, keptNumber amount, amount⟩ = none :=
      if_neg (by decide : ¬ (0.0 : Float) < 0.0)
    unfold Receipt.line Receipt.record?
    rw [free, keptNumber_keptNumber]
    exact adds_insertPayment integrity stored
  | charged positive =>
    have adds := adds_charge integrity stored positive (keptNumber amount)
      (amountAfterFee config.rounding (keptNumber amount) fee)
      (rfl : (FeeEvent.charged id user fee (keptNumber amount)
        (amountAfterFee config.rounding (keptNumber amount) fee)).user = user)
    unfold Receipt.line Receipt.record? Receipt.fee?
    rw [if_pos positive]
    rwa [keptNumber_keptNumber] at adds

end

namespace CommandLine.Batch

/-- A payment of the history as its user is shown it: the raw amount, without any fee. -/
def historyLine {Time : Type} (time : Time) (user : UserId) (id : PaymentId) (amount : Float) :
    Payment Time × Option Float :=
  (⟨id, user, keptNumber amount, some "history", time⟩, none)

variable {config : Config} {now : Instant} {user : UserId} {store after : Store}

theorem storeHistory_ok {amounts : List Float} (integrity : Integrity store.book)
    (returned : (storeHistory now user amounts).run store = (.ok (), after)) :
    after.isOpen = store.isOpen ∧ after.book.hasTables = store.book.hasTables ∧
      Integrity after.book ∧ Adds user (amounts.mapIdx fun i amount =>
        historyLine (stamp now) user (store.book.nextPayment + i) amount) [] store.book
        after.book := by
  induction amounts generalizing store with
  | nil =>
    cases returned
    exact ⟨rfl, rfl, integrity, .refl user _⟩
  | cons amount amounts ih =>
    unfold storeHistory at returned
    rw [List.forM_eq_forM, List.forM_cons] at returned
    obtain ⟨⟨⟩, mid, inserted, rest⟩ := Action.run_bind_ok returned
    obtain ⟨id, last, inserted, done⟩ := Action.run_bind_ok inserted
    cases done
    obtain ⟨book, stored, rfl⟩ := Store.insertPayment_ok inserted
    obtain ⟨same, tables, kept, adds⟩ := ih (integrity.enter stored) rest
    have first := adds_insertPayment integrity stored
    have place := (Book.insertPayment_number stored).2
    have entered := Book.insertPayment_ok stored
    have lines : (fun i => historyLine (stamp now) user (book.nextPayment + (i : ℕ))) =
        fun i => historyLine (stamp now) user (store.book.nextPayment + ((i + 1 : ℕ) : ℤ)) := by
      funext i
      rw [entered]
      congr 1
      push_cast
      ring
    have here : historyLine (stamp now) user (store.book.nextPayment + ((0 : ℕ) : ℤ)) amount =
        (⟨id, user, keptNumber amount, some "history", stamp now⟩, none) := by
      rw [place, Nat.cast_zero, add_zero]
      rfl
    refine ⟨same, tables.trans (by rw [entered]), kept, ?_⟩
    rw [List.mapIdx_cons, here]
    rw [lines] at adds
    exact first.trans adds

theorem recordAll_ok {amounts : List Float} {receipts : List Receipt}
    (integrity : Integrity store.book)
    (returned : (recordAll config now user amounts).run store = (.ok receipts, after)) :
    receipts.map (·.grossAmount) = amounts ∧
      Adds user (receipts.map (·.line (stamp now) user (some "batch")))
        (receipts.filterMap (·.record? (stamp now) user)) store.book after.book := by
  induction amounts generalizing store receipts with
  | nil =>
    cases returned
    exact ⟨rfl, .refl user _⟩
  | cons amount amounts ih =>
    unfold recordAll at returned
    rw [List.mapM_cons] at returned
    obtain ⟨receipt, mid, recorded, rest⟩ := Action.run_bind_ok returned
    obtain ⟨others, last, later, done⟩ := Action.run_bind_ok rest
    cases done
    obtain ⟨gross, first⟩ := Service.recordPayment_adds integrity recorded
    have written := (@Service.writes_recordPayment (fun _ => False) config now user amount
      (some "batch") store).2
    rw [recorded] at written
    have kept : Integrity mid.book := written.integrity integrity
    obtain ⟨grosses, adds⟩ := ih kept later
    refine ⟨by rw [List.map_cons, gross, grosses], ?_⟩
    have charges : (receipt :: others).filterMap (·.record? (stamp now) user) =
        (receipt.record? (stamp now) user).toList ++
          others.filterMap (·.record? (stamp now) user) := by
      rw [List.filterMap_cons]
      cases receipt.record? (stamp now) user <;> rfl
    rw [charges]
    exact first.trans adds

theorem savePlan_ok {plan : FeePlan} {stored : StoredPlan} (closed : store.isOpen = false)
    (tables : store.book.hasTables = true) (integrity : Integrity store.book)
    (saved : (Service.savePlan now user plan).run store = (.ok stored, after)) :
    stamp now = some now ∧ Integrity after.book ∧ after.book.shown user = store.book.shown user ∧
      after.book.recordsOf user = store.book.recordsOf user ∧
      (after.book.entriesOf user).length = (store.book.entriesOf user).length + 1 := by
  obtain ⟨accepted, read⟩ := Store.run_savePlan_ok closed tables (congrArg Prod.fst saved)
  have ran := @Store.run_savePlan now user plan store closed tables accepted
  rw [saved] at ran
  obtain rfl := (Prod.mk.inj ran).2
  obtain ⟨-, dated⟩ := (Store.read_savedRow_ok_iff accepted).mp ⟨stored, read⟩
  have kept := (integrity.savePlan (.ofStored (.ofPlan user plan now))).appendEntry now user none
    "plan_saved" ((FeeEvent.planSaved user plan.mode).payload)
  obtain ⟨plans, same⟩ := store.book.savePlan_plans (.ofStored (.ofPlan user plan now))
  refine ⟨Store.stamp_eq dated.1, kept, ?_, ?_, ?_⟩
  · unfold Store.withPlan
    rw [same]
    rfl
  · unfold Store.withPlan
    rw [same]
    rfl
  · have logged : (Store.withPlan now user plan store.book).log =
        store.book.log ++ [(FeeEvent.planSaved user plan.mode).entry store.book.nextEntry now] := by
      unfold Store.withPlan
      rw [same]
      rfl
    unfold Book.entriesOf
    rw [logged, List.filter_append, List.length_append]
    simp [FeeEvent.entry, FeeEvent.user]

end CommandLine.Batch

theorem mapM_of_map {ε α β γ : Type} {read : α → Except ε β} {f : α → γ} {g : β → γ}
    (done : ∀ row value, f row = g value → read row = .ok value) {rows : List α} {values : List β}
    (alike : rows.map f = values.map g) : rows.mapM read = .ok values := by
  induction rows generalizing values with
  | nil =>
    rw [List.map_nil, eq_comm, List.map_eq_nil_iff] at alike
    rw [alike]
    rfl
  | cons row rows ih =>
    obtain ⟨value, others, rfl, first, rest⟩ := List.map_eq_cons_iff.mp alike.symm
    rw [List.mapM_cons, done row value first.symm, ih rest.symm]
    rfl

namespace Store

variable {store : Store} (tables : store.book.hasTables = true) {user : UserId}
include tables

theorem run_records_of_rows {records : List (FeeRecord Instant)}
    (rows : store.book.recordsOf user = records.map (·.retimed some)) :
    (Store.records user).run store = (.ok records, store) := by
  have each (row : FeeRecord Stamp) (record : FeeRecord Instant)
      (same : id row = record.retimed some) : row.read = .ok record := by
    rw [id] at same
    rw [same]
    rfl
  have read := mapM_of_map each ((List.map_id _).trans rows)
  rw [run_records tables, read]
  rfl

theorem run_paymentsWithFees_of_shown {lines : List (Payment Instant × Option Float)}
    (shown : store.book.shown user = lines.map fun line => (line.1.retimed some, line.2)) :
    (paymentsWithFees user).run store = (.ok lines, store) := by
  rw [run_paymentsWithFees tables]
  refine congrArg (fun result => (result, store)) (mapM_of_map ?_ shown)
  rintro p ⟨payment, fee⟩ same
  obtain ⟨rfl, found⟩ := Prod.mk.inj same
  dsimp only at found
  rw [found]
  rfl

omit tables in
theorem entries_length {log : List (LogEntry Instant)}
    (read : (entries user).run store = (.ok log, store)) :
    log.length = (store.book.entriesOf user).length := by
  obtain ⟨-, done, -⟩ := query_ok read
  have alike := mapM_ok (fun _ => ()) (fun _ => ()) (fun _ _ _ => rfl) (mapError_ok done)
  simpa using congrArg List.length alike

end Store

namespace CommandLine.Batch

theorem charged_foldl (time : Instant) (user : UserId) (receipts : List Receipt) (tally : Tally) :
    (receipts.foldl Tally.add tally).charged =
      tally.charged + (receipts.filterMap (·.record? time user)).length := by
  induction receipts generalizing tally with
  | nil => rfl
  | cons receipt receipts ih =>
    rw [List.foldl_cons, ih, List.filterMap_cons]
    unfold Tally.add Receipt.record? Receipt.fee?
    by_cases positive : 0.0 < receipt.fee
    · rw [if_pos positive, if_pos positive]
      simp only [Option.map_some, List.length_cons]
      omega
    · rw [if_neg positive, if_neg positive]
      rfl

theorem fees_foldl (receipts : List Receipt) (tally : Tally) :
    (receipts.foldl Tally.add tally).fees =
      ((receipts.map (·.fee)).filter (0.0 < ·)).foldl (· + ·) tally.fees := by
  induction receipts generalizing tally with
  | nil => rfl
  | cons receipt receipts ih =>
    rw [List.foldl_cons, ih, List.map_cons, List.filter_cons]
    unfold Tally.add
    by_cases positive : 0.0 < receipt.fee <;> simp [positive]

theorem volume_foldl (receipts : List Receipt) (tally : Tally) :
    (receipts.foldl Tally.add tally).volume =
      ((receipts.map (·.grossAmount)).map Float.abs).foldl (· + ·) tally.volume := by
  induction receipts generalizing tally with
  | nil => rfl
  | cons receipt receipts ih =>
    rw [List.foldl_cons, ih, List.map_cons, List.map_cons, List.foldl_cons]
    unfold Tally.add
    split_ifs <;> rfl

/-- What is to be printed about payments of these amounts, if the ledger holds these fees. -/
def ledgerLines (amounts fees : List Float) : List String :=
  let total := Curve.sum fees
  let volume := Curve.sum (amounts.map Float.abs)
  let rate := if volume > 0.0 then total / volume * 100.0 else 0.0
  ["=== FEE SUMMARY ===",
    s!"  payments recorded: {amounts.length}",
    s!"  fees charged:      {fees.length}",
    s!"  fee records:       {fees.length}",
    "  total fees:        " ++ fixedText 2 total,
    "  total volume:      " ++ fixedText 2 volume,
    "  effective rate:    " ++ fixedText 3 rate ++ "%",
    s!"  ledger events:     {fees.length + 1}"]

/-- What a batch prints and leaves, by the receipts of its payments. -/
structure Accounted (now : Instant) (user : UserId) (history amounts : List Float)
    (receipts : List Receipt) (summary : Summary) (after : Store) : Prop where
  paid : receipts.map (·.grossAmount) = amounts
  payments : summary.payments = amounts.length
  tally : summary.tally = receipts.foldl Tally.add ⟨0, 0.0, 0.0⟩
  charged : summary.tally.charged = summary.records
  entries : summary.entries = summary.tally.charged + 1
  log : ∃ log, (Store.entries user).run after = (.ok log, after) ∧ log.length = summary.entries
  records : ∃ records, (Store.records user).run after = (.ok records, after) ∧
    records.length = summary.records ∧
    records.map (·.fee) = (receipts.map (·.fee)).filter (0.0 < ·) ∧
    records = receipts.filterMap (·.record? now user) ∧
    summary.lines = ledgerLines amounts (records.map (·.fee))
  shown : (Store.paymentsWithFees user).run after =
    (.ok ((history.mapIdx fun i amount => historyLine now user (1 + i) amount) ++
      receipts.map (·.line now user (some "batch"))), after)

theorem accounted (planned : Store) {history amounts : List Float} {receipts : List Receipt}
    {log : List (LogEntry Instant)} {records : List (FeeRecord Instant)}
    (readable : stamp now = some now) (integrity : Integrity planned.book)
    (shown : planned.book.shown user =
      history.mapIdx fun i amount => historyLine (stamp now) user (1 + i) amount)
    (uncharged : planned.book.recordsOf user = [])
    (saved : (planned.book.entriesOf user).length = 1)
    (recorded : (recordAll config now user amounts).run planned = (.ok receipts, after))
    (logged : (Store.entries user).run after = (.ok log, after))
    (listed : (Store.records user).run after = (.ok records, after)) :
    Accounted now user history amounts receipts
      ⟨amounts.length, receipts.foldl Tally.add ⟨0, 0.0, 0.0⟩, records.length, log.length⟩
      after := by
  obtain ⟨paid, adds⟩ := recordAll_ok integrity recorded
  have tables := (Store.query_ok listed).1
  have charges : receipts.filterMap (·.record? (stamp now) user) =
      (receipts.filterMap (·.record? now user)).map (·.retimed some) := by
    rw [readable, List.map_filterMap]
    exact List.filterMap_congr fun receipt _ => receipt.record?_some now user
  have rows : after.book.recordsOf user =
      (receipts.filterMap (·.record? now user)).map (·.retimed some) := by
    rw [adds.records, uncharged, List.nil_append, charges]
  have ran := Store.run_records_of_rows tables rows
  obtain rfl : records = receipts.filterMap (·.record? now user) :=
    Except.ok.inj (Prod.mk.inj (listed.symm.trans ran)).1
  have charged := charged_foldl now user receipts ⟨0, 0.0, 0.0⟩
  rw [Nat.zero_add] at charged
  have entries : log.length = (receipts.filterMap (·.record? now user)).length + 1 := by
    rw [Store.entries_length logged, adds.entries, saved, charges, List.length_map, Nat.add_comm]
  have fees := Receipt.fees_filterMap now user receipts
  have printed : Summary.lines ⟨amounts.length, receipts.foldl Tally.add ⟨0, 0.0, 0.0⟩,
      (receipts.filterMap (·.record? now user)).length, log.length⟩ =
      ledgerLines amounts ((receipts.filterMap (·.record? now user)).map (·.fee)) := by
    unfold Summary.lines Summary.effectiveRate ledgerLines Curve.sum
    dsimp only
    rw [charged, entries, fees_foldl, volume_foldl, paid, fees, ← fees, List.length_map]
  refine ⟨paid, rfl, rfl, charged, ?_, ⟨log, logged, rfl⟩,
    ⟨_, listed, rfl, fees, rfl, printed⟩, ?_⟩
  · exact entries.trans (congrArg (· + 1) charged.symm)
  · apply Store.run_paymentsWithFees_of_shown tables
    have older : (history.mapIdx fun i amount => historyLine (some now) user (1 + i) amount) =
        (history.mapIdx fun i amount => historyLine now user (1 + i) amount).map
          fun line => (line.1.retimed some, line.2) := by
      rw [List.mapIdx_eq_zipIdx_map, List.mapIdx_eq_zipIdx_map, List.map_map]
      rfl
    rw [adds.shown, shown, readable, List.map_append, older, List.map_map]
    rfl

theorem length_draws {α : Type} (draw : Random → α × Random) (count : Nat) (random : Random) :
    (random.draws draw count).1.length = count := by
  induction count generalizing random with
  | zero => rfl
  | succ count ih => exact congrArg (· + 1) (ih _)

theorem accounted_of_run {plan : FeePlan} {history amounts : List Float} {summary : Summary}
    (returned : (run config now user history amounts plan).run Store.fresh =
      (.ok summary, after)) :
    ∃ planned receipts,
      (do storeHistory now user history; let _ ← Service.savePlan now user plan :
        Action Unit).run Store.fresh = (.ok (), planned) ∧
      (recordAll config now user amounts).run planned = (.ok receipts, after) ∧
      Accounted now user history amounts receipts summary after := by
  obtain ⟨⟨⟩, older, seeded, rest⟩ := Action.run_bind_ok returned
  obtain ⟨stored, planned, saved, rest⟩ := Action.run_bind_ok rest
  obtain ⟨receipts, last, recorded, rest⟩ := Action.run_bind_ok rest
  obtain ⟨log, mid, logged, rest⟩ := Action.run_bind_ok rest
  obtain ⟨records, final, listed, done⟩ := Action.run_bind_ok rest
  cases done
  obtain rfl := (Store.query_ok logged).2.2
  obtain rfl := (Store.query_ok listed).2.2
  obtain ⟨closed, tables, integrity, adds⟩ := storeHistory_ok fresh_integrity seeded
  obtain ⟨readable, kept, shown, rows, entries⟩ := savePlan_ok closed tables integrity saved
  refine ⟨planned, receipts, ?_, recorded, ?_⟩
  · rw [Action.run_bind_of_ok seeded, Action.run_bind_of_ok saved]
    rfl
  · apply accounted planned readable kept _ _ _ recorded logged listed
    · rw [shown, adds.shown]
      rfl
    · rw [rows, adds.records]
      rfl
    · rw [entries, adds.entries]
      rfl

/-- The summary of a batch on a fresh store is consistent with the ledger, for any amounts and for
drawn ones. The fees charged are as many as the user's records, the log has one entry more than
that, for the plan, the records have the fees of the receipts that are above zero, in order, and the
user's payments are the history with its raw amounts and without fees, but for the sign of a zero,
and then the payments of the batch. All that is printed follows from the amounts and the records. -/
theorem summary_accounted (config : Config) (now : Instant) (user : UserId) (plan : FeePlan) :
    (∀ history amounts summary after,
      (run config now user history amounts plan).run Store.fresh = (.ok summary, after) →
        ∃ planned receipts,
          (do storeHistory now user history; let _ ← Service.savePlan now user plan :
            Action Unit).run Store.fresh = (.ok (), planned) ∧
          (recordAll config now user amounts).run planned = (.ok receipts, after) ∧
          Accounted now user history amounts receipts summary after) ∧
      (∀ seed count summary after,
        (runSeeded config now user seed count plan).run Store.fresh = (.ok summary, after) →
          let history := (Random.ofSeed seed).amounts count
          let amounts := history.2.amounts count
          summary.payments = count ∧
            ∃ receipts, Accounted now user history.1 amounts.1 receipts summary after) ∧
      ∀ (options : Options) planText output book, options.user = user →
        planOf? options config planText = some plan →
        runBatch options planText config now Store.fresh = ⟨true, output, book⟩ →
          ∃ history amounts receipts summary after,
            output = bannerLines options ++ summary.lines ∧ book = some after.book ∧
              amounts.length = options.payments ∧
              Accounted now user history amounts receipts summary after := by
  refine ⟨fun _ _ _ _ returned => accounted_of_run returned,
    fun seed count summary after returned => ?_, ?_⟩
  · obtain ⟨-, receipts, -, -, accounted⟩ := accounted_of_run returned
    exact ⟨accounted.payments.trans (length_draws _ _ _), receipts, accounted⟩
  · rintro options planText output book rfl chosen done
    unfold runBatch at done
    rw [chosen] at done
    dsimp only at done
    split at done
    · next summary after returned =>
      cases done
      obtain ⟨-, receipts, -, -, accounted⟩ := accounted_of_run returned
      exact ⟨_, _, receipts, summary, after, rfl, rfl, length_draws _ _ _, accounted⟩
    · cases done

theorem summary_accounted_tithe :
    let plan : FeePlan := ⟨.formula, "x * 0.1", [0.0], .empty⟩
    let given := (run .standard ⟨0, 0⟩ 1 [10.0] [20.0, 0.0] plan).run Store.fresh
    let drawn := (runSeeded .standard ⟨0, 0⟩ 1 42 1 plan).run Store.fresh
    let options : Options := ⟨42, 1, 1, false, ":memory:", some "tithe.json", none⟩
    let text := "\x7b\"mode\":\"formula\",\"formula_text\":\"x * 0.1\",\"amount_table\":[0.0]\x7d"
    let whole := runBatch options (some text) .standard ⟨0, 0⟩ Store.fresh
    given.1 = .ok ⟨2, ⟨1, 2.0, 20.0⟩, 1, 2⟩ ∧ drawn.1 = .ok ⟨1, ⟨1, 3.03, 30.29⟩, 1, 2⟩ ∧
      whole.succeeded = true ∧
      (∃ receipts, Accounted ⟨0, 0⟩ 1 [10.0] [20.0, 0.0] receipts ⟨2, ⟨1, 2.0, 20.0⟩, 1, 2⟩
        given.2) ∧
      (∃ history amounts receipts, Accounted ⟨0, 0⟩ 1 history amounts receipts
        ⟨1, ⟨1, 3.03, 30.29⟩, 1, 2⟩ drawn.2) ∧
      ∃ history amounts receipts summary after,
        whole.output = bannerLines options ++ summary.lines ∧ whole.book = some after.book ∧
          amounts.length = 1 ∧ Accounted ⟨0, 0⟩ 1 history amounts receipts summary after := by
  intro plan given drawn options text whole
  have first : given.1 = .ok ⟨2, ⟨1, 2.0, 20.0⟩, 1, 2⟩ := by decide +kernel
  have second : drawn.1 = .ok ⟨1, ⟨1, 3.03, 30.29⟩, 1, 2⟩ := by decide +kernel
  have third : whole.succeeded = true := by decide +kernel
  have named : planOf? options .standard (some text) = some plan := by decide +kernel
  obtain ⟨any, seeded, complete⟩ := summary_accounted .standard ⟨0, 0⟩ 1 plan
  obtain ⟨planned, receipts, -, -, accounted⟩ := any _ _ _ given.2 (Prod.fst_eq_iff.mp first)
  obtain ⟨-, others, accounted'⟩ := seeded 42 1 _ drawn.2 (Prod.fst_eq_iff.mp second)
  have done : whole = ⟨true, whole.output, whole.book⟩ := third ▸ rfl
  exact ⟨first, second, third, ⟨receipts, accounted⟩, ⟨_, _, others, accounted'⟩,
    complete options (some text) _ _ rfl named done⟩

end CommandLine.Batch

end PaymentFees
