import PaymentFees.Proofs.Reconciled

/-!
What a book holds of one user: a plan, payments, fee records and entries of the log. A change to a
payment of one user leaves what other users have as it was, and does the same to two books that hold
the same of that user. Times are compared through a clock that may make them equal.
-/

namespace PaymentFees

section

variable {S T : Type} (clock : S → T)

def Payment.retimed (p : Payment S) : Payment T :=
  ⟨p.id, p.user, p.amount, p.description, clock p.createdAt⟩

def FeeRecord.retimed (r : FeeRecord S) : FeeRecord T :=
  ⟨r.payment, r.user, r.fee, r.grossAmount, clock r.createdAt, clock r.updatedAt⟩

def LogEntry.unnumbered (e : LogEntry S) : LogEntry T :=
  ⟨0, e.user, e.payment, e.typeName, e.payload, clock e.createdAt⟩

end

section

variable (clock : Instant → Instant)

def PlanRow.retimed (row : PlanRow) : PlanRow :=
  { row with createdAt := row.createdAt.map clock, updatedAt := row.updatedAt.map clock }

def StoredPlan.retimed (plan : StoredPlan) : StoredPlan :=
  { plan with createdAt := clock plan.createdAt, updatedAt := clock plan.updatedAt }

theorem readTime_map (column : Nat) (time : Stamp) :
    readTime column (time.map clock) = (readTime column time).map clock := by
  cases time <;> rfl

theorem Payment.read_retimed (p : Payment Stamp) :
    (p.retimed (Option.map clock)).read = p.read.map (Payment.retimed clock) := by
  unfold Payment.read Payment.retimed
  rw [readTime_map]
  cases readTime 4 p.createdAt <;> rfl

theorem FeeRecord.read_retimed (r : FeeRecord Stamp) :
    (r.retimed (Option.map clock)).read = r.read.map (FeeRecord.retimed clock) := by
  unfold FeeRecord.read FeeRecord.retimed
  rw [readTime_map, readTime_map]
  cases readTime 4 r.createdAt <;> cases readTime 5 r.updatedAt <;> rfl

theorem PlanRow.read_retimed (row : PlanRow) :
    (row.retimed clock).read = row.read.map (StoredPlan.retimed clock) := by
  unfold PlanRow.read PlanRow.retimed
  rw [readTime_map, readTime_map]
  cases readTime 5 row.createdAt with
  | error => rfl
  | ok =>
    cases readTime 6 row.updatedAt with
    | error => rfl
    | ok =>
      cases FeeMode.ofName? row.modeName with
      | none => rfl
      | some =>
        cases Json.read row.boundsText >>= boundsOfJson? with
        | none => rfl
        | some => cases Json.read row.rangesText >>= rangesOfJson? <;> rfl

end

section

variable {Row Other : Type} (key owner : Row → Int) {rows : List Row} {user id : Int}

theorem find?_filter_owner (owned : ∀ row ∈ rows, key row = id → owner row = user) :
    (rows.filter (owner · == user)).find? (key · == id) = rows.find? (key · == id) := by
  induction rows with
  | nil => rfl
  | cons row rows ih =>
    obtain ⟨here, later⟩ := List.forall_mem_cons.mp owned
    by_cases place : key row = id
    · simp [here place, place]
    · by_cases mine : owner row = user
      · simp [mine, place, ih later]
      · simp [mine, place, ih later]

theorem filter_map_owner (change : Row → Row) (keeps : ∀ row, owner (change row) = owner row) :
    (rows.map change).filter (owner · == user) = (rows.filter (owner · == user)).map change := by
  rw [List.filter_map]
  congr 2
  funext row
  simp [keeps]

theorem key_ne_of_owner {other : Int} (owned : ∀ row ∈ rows, key row = id → owner row = user)
    (different : other ≠ user) {row : Row} (present : row ∈ rows.filter (owner · == other)) :
    key row ≠ id := by
  obtain ⟨member, theirs⟩ := List.mem_filter.mp present
  intro place
  exact different ((beq_iff_eq.mp theirs).symm.trans (owned row member place))

end

namespace Book

structure Owned (user : UserId) (id : PaymentId) (book : Book) : Prop extends Ordered book where
  payment : ∀ p ∈ book.payments, p.id = id → p.user = user
  record : ∀ r ∈ book.records, r.payment = id → r.user = user

/-- Both books hold the same of a user, as far as the clock tells times apart, and both will give
the next payment the same number. -/
structure Alike (clock : Instant → Instant) (user : UserId) (first second : Book) : Prop where
  plan : (first.findPlan? user).map (·.retimed clock) =
    (second.findPlan? user).map (·.retimed clock)
  payments : (first.paymentsOf user).map (·.retimed (Option.map clock)) =
    (second.paymentsOf user).map (·.retimed (Option.map clock))
  records : (first.recordsOf user).map (·.retimed (Option.map clock)) =
    (second.recordsOf user).map (·.retimed (Option.map clock))
  nextPayment : first.nextPayment = second.nextPayment

/-- All that a book holds of a user is as it was. -/
structure Untouched (user : UserId) (before after : Book) : Prop where
  plan : after.findPlan? user = before.findPlan? user
  payments : after.paymentsOf user = before.paymentsOf user
  records : after.recordsOf user = before.recordsOf user
  entries : after.entriesOf user = before.entriesOf user

def SameNews (clock : Instant → Instant) (user : UserId) (before before' after after' : Book) :
    Prop :=
  ∃ entries entries', after.entriesOf user = before.entriesOf user ++ entries ∧
    after'.entriesOf user = before'.entriesOf user ++ entries' ∧
    entries.map (·.unnumbered (Option.map clock)) = entries'.map (·.unnumbered (Option.map clock))

/-- What happened to two books did the same to what they hold of one user and nothing to the
rest. -/
structure Private (clock : Instant → Instant) (user : UserId)
    (before before' after after' : Book) : Prop where
  first : ∀ other, other ≠ user → Untouched other before after
  second : ∀ other, other ≠ user → Untouched other before' after'
  news : SameNews clock user before before' after after'

section

variable {clock : Instant → Instant} {user id : Int} {book first second : Book}

theorem Untouched.refl (user : UserId) (book : Book) : Untouched user book book :=
  ⟨rfl, rfl, rfl, rfl⟩

theorem Untouched.trans {before mid after : Book} (rest : Untouched user mid after)
    (start : Untouched user before mid) : Untouched user before after :=
  ⟨rest.plan.trans start.plan, rest.payments.trans start.payments,
    rest.records.trans start.records, rest.entries.trans start.entries⟩

theorem SameNews.nothing {before before' after after' : Book}
    (same : after.log = before.log) (same' : after'.log = before'.log) :
    SameNews clock user before before' after after' := by
  refine ⟨[], [], ?_, ?_, rfl⟩
  · simp [entriesOf, same]
  · simp [entriesOf, same']

theorem SameNews.trans {before before' mid mid' after after' : Book}
    (start : SameNews clock user before before' mid mid')
    (rest : SameNews clock user mid mid' after after') :
    SameNews clock user before before' after after' := by
  obtain ⟨early, early', grown, grown', alike⟩ := start
  obtain ⟨late, late', done, done', same⟩ := rest
  refine ⟨early ++ late, early' ++ late', ?_, ?_, ?_⟩
  · rw [done, grown, List.append_assoc]
  · rw [done', grown', List.append_assoc]
  · rw [List.map_append, List.map_append, alike, same]

theorem Private.refl (first second : Book) : Private clock user first second first second :=
  ⟨fun _ _ => .refl _ _, fun _ _ => .refl _ _, .nothing rfl rfl⟩

theorem Private.trans {before before' mid mid' after after' : Book}
    (rest : Private clock user mid mid' after after')
    (start : Private clock user before before' mid mid') :
    Private clock user before before' after after' :=
  ⟨fun other different => (rest.first other different).trans (start.first other different),
    fun other different => (rest.second other different).trans (start.second other different),
    start.news.trans rest.news⟩

theorem Owned.findPayment?_eq (owned : Owned user id book) :
    book.findPayment? id = (book.paymentsOf user).find? (·.id == id) :=
  (find?_filter_owner (fun p : Payment Stamp => p.id) (fun p => p.user) owned.payment).symm

theorem Owned.findRecord?_eq (owned : Owned user id book) :
    book.findRecord? id = (book.recordsOf user).find? (·.payment == id) :=
  (find?_filter_owner (fun r : FeeRecord Stamp => r.payment) (fun r => r.user) owned.record).symm

theorem Alike.findPayment? (alike : Alike clock user first second) (owned : Owned user id first)
    (owned' : Owned user id second) :
    (first.findPayment? id).map (·.retimed (Option.map clock)) =
      (second.findPayment? id).map (·.retimed (Option.map clock)) := by
  have found (rows : List (Payment Stamp)) :
      (rows.find? (·.id == id)).map (·.retimed (Option.map clock)) =
        (rows.map (·.retimed (Option.map clock))).find? (·.id == id) := by
    rw [List.find?_map]
    rfl
  rw [owned.findPayment?_eq, owned'.findPayment?_eq, found, found, alike.payments]

theorem Alike.findRecord? (alike : Alike clock user first second) (owned : Owned user id first)
    (owned' : Owned user id second) :
    (first.findRecord? id).map (·.retimed (Option.map clock)) =
      (second.findRecord? id).map (·.retimed (Option.map clock)) := by
  have found (rows : List (FeeRecord Stamp)) :
      (rows.find? (·.payment == id)).map (·.retimed (Option.map clock)) =
        (rows.map (·.retimed (Option.map clock))).find? (·.payment == id) := by
    rw [List.find?_map]
    rfl
  rw [owned.findRecord?_eq, owned'.findRecord?_eq, found, found, alike.records]

theorem Alike.amounts (alike : Alike clock user first second) :
    (first.paymentsOf user).map (·.amount) = (second.paymentsOf user).map (·.amount) := by
  have same := congrArg (List.map (·.amount)) alike.payments
  rwa [List.map_map, List.map_map] at same

theorem paymentsOf_withAmount (book : Book) (id : PaymentId) (amount : Float) (user : UserId) :
    (book.withAmount id amount).paymentsOf user = (book.paymentsOf user).map fun p =>
      if p.id = id then { p with amount := keptNumber amount } else p :=
  filter_map_owner (fun p : Payment Stamp => p.user) _ (by intro p; split <;> rfl)

theorem Owned.withAmount (owned : Owned user id book) (k : PaymentId) (amount : Float) :
    Owned user id (book.withAmount k amount) := by
  refine ⟨owned.toOrdered.withAmount _ _, fun p present place => ?_, owned.record⟩
  obtain ⟨old, member, rfl⟩ := List.mem_map.mp present
  split at place
  · next here =>
    rw [if_pos here]
    exact owned.payment old member place
  · next here =>
    rw [if_neg here]
    exact owned.payment old member place

theorem Alike.withAmount (alike : Alike clock user first second) (id : PaymentId)
    (amount : Float) :
    Alike clock user (first.withAmount id amount) (second.withAmount id amount) := by
  refine ⟨alike.plan, ?_, alike.records, alike.nextPayment⟩
  have later (rows : List (Payment Stamp)) :
      (rows.map fun p => if p.id = id then { p with amount := keptNumber amount } else p).map
          (·.retimed (Option.map clock)) =
        (rows.map (·.retimed (Option.map clock))).map fun p =>
          if p.id = id then { p with amount := keptNumber amount } else p := by
    rw [List.map_map, List.map_map]
    apply List.map_congr_left
    intro p _
    by_cases here : p.id = id <;> simp [Payment.retimed, here]
  rw [paymentsOf_withAmount, paymentsOf_withAmount, later, later, alike.payments]

theorem Owned.withAmount_untouched (owned : Owned user id book) (amount : Float)
    {other : UserId} (different : other ≠ user) :
    Untouched other book (book.withAmount id amount) := by
  refine ⟨rfl, ?_, rfl, rfl⟩
  rw [paymentsOf_withAmount]
  refine (List.map_congr_left fun p present => if_neg ?_).trans (List.map_id _)
  exact key_ne_of_owner (fun p : Payment Stamp => p.id) (fun p => p.user) owned.payment different
    present

theorem insertRecord_eq_cons {row : FeeRecord Stamp} {rows : List (FeeRecord Stamp)}
    (above : ∀ r ∈ rows, row.payment < r.payment) : insertRecord row rows = row :: rows := by
  cases rows with
  | nil => rfl
  | cons r rows => exact if_pos (above r List.mem_cons_self)

theorem filter_insertRecord {row : FeeRecord Stamp} {rows : List (FeeRecord Stamp)}
    (ascending : rows.Pairwise (·.payment < ·.payment)) :
    (insertRecord row rows).filter (·.user == row.user) =
      insertRecord row (rows.filter (·.user == row.user)) := by
  induction rows with
  | nil => simp [insertRecord]
  | cons r rows ih =>
    obtain ⟨above, rest⟩ := List.pairwise_cons.mp ascending
    by_cases before : row.payment < r.payment
    · have first : ∀ old ∈ r :: rows, row.payment < old.payment := by
        intro old present
        rcases List.mem_cons.mp present with rfl | later
        · exact before
        · exact before.trans (above old later)
      rw [insertRecord_eq_cons first, insertRecord_eq_cons fun old present =>
        first old (List.mem_filter.mp present).1, List.filter_cons_of_pos (by simp)]
    · by_cases mine : r.user = row.user <;> simp [insertRecord, before, mine, ih rest]

theorem filter_insertRecord_ne {row : FeeRecord Stamp} {other : UserId}
    (different : other ≠ row.user) (rows : List (FeeRecord Stamp)) :
    (insertRecord row rows).filter (·.user == other) = rows.filter (·.user == other) := by
  have theirs : ¬ row.user = other := fun same => different same.symm
  induction rows with
  | nil => simp [insertRecord, theirs]
  | cons r rows ih =>
    unfold insertRecord
    split
    · rw [List.filter_cons_of_neg (by simp [theirs])]
    · rw [List.filter_cons, List.filter_cons, ih]

theorem map_insertRecord (row : FeeRecord Stamp) (rows : List (FeeRecord Stamp)) :
    (insertRecord row rows).map (·.retimed (Option.map clock)) =
      insertRecord (row.retimed (Option.map clock))
        (rows.map (·.retimed (Option.map clock))) := by
  induction rows with
  | nil => rfl
  | cons r rows ih =>
    by_cases before : row.payment < r.payment <;>
      simp [insertRecord, FeeRecord.retimed, before] at ih ⊢
    exact ih

def putAmong (row : FeeRecord Stamp) (rows : List (FeeRecord Stamp)) : List (FeeRecord Stamp) :=
  if (rows.find? (·.payment == row.payment)).isSome then
    rows.map fun old => if old.payment = row.payment then renewed row old else old
  else insertRecord (kept row) rows

theorem putRecord_eq_putAmong (book : Book) (row : FeeRecord Stamp) :
    book.putRecord row = { book with records := putAmong row book.records } := by
  unfold putRecord putAmong findRecord?
  split <;> rfl

theorem recordsOf_putRecord {row : FeeRecord Stamp} (owned : Owned row.user row.payment book) :
    (book.putRecord row).recordsOf row.user = putAmong row (book.recordsOf row.user) := by
  have found := owned.findRecord?_eq
  unfold findRecord? at found
  rw [putRecord_eq_putAmong]
  unfold recordsOf putAmong at *
  dsimp only
  rw [← found]
  split
  · exact filter_map_owner (fun r : FeeRecord Stamp => r.user) _ (by intro r; split <;> rfl)
  · exact @filter_insertRecord (kept row) _ owned.records

theorem map_putAmong (row : FeeRecord Stamp) (rows : List (FeeRecord Stamp)) :
    (putAmong row rows).map (·.retimed (Option.map clock)) =
      putAmong (row.retimed (Option.map clock)) (rows.map (·.retimed (Option.map clock))) := by
  have found : (rows.map (·.retimed (Option.map clock))).find? (·.payment == row.payment) =
      (rows.find? (·.payment == row.payment)).map (·.retimed (Option.map clock)) := by
    rw [List.find?_map]
    rfl
  have place : (row.retimed (Option.map clock)).payment = row.payment := rfl
  unfold putAmong
  rw [place, found, Option.isSome_map]
  split
  · rw [List.map_map, List.map_map]
    apply List.map_congr_left
    intro r _
    by_cases here : r.payment = row.payment <;> simp [FeeRecord.retimed, renewed, here]
  · exact map_insertRecord _ _

theorem Owned.putRecord {row : FeeRecord Stamp} (owned : Owned row.user id book) :
    Owned row.user id (book.putRecord row) := by
  refine ⟨owned.toOrdered.putRecord _, ?_, fun r present place => ?_⟩
  · rw [putRecord_eq_putAmong]
    exact owned.payment
  · rw [putRecord_eq_putAmong] at present
    unfold putAmong at present
    split at present
    · obtain ⟨old, member, rfl⟩ := List.mem_map.mp present
      have mine := owned.record old member
      split at place
      · next here =>
        rw [if_pos here]
        exact mine place
      · next here =>
        rw [if_neg here]
        exact mine place
    · rcases mem_insertRecord.mp present with rfl | old
      · rfl
      · exact owned.record r old place

theorem Alike.putRecord_of_eq {row row' : FeeRecord Stamp}
    (alike : Alike clock row.user first second)
    (owned : Owned row.user row.payment first) (owned' : Owned row.user row.payment second)
    (same : row.retimed (Option.map clock) = row'.retimed (Option.map clock)) :
    Alike clock row.user (first.putRecord row) (second.putRecord row') := by
  have user : row.user = row'.user := congrArg (·.user) same
  have place : row.payment = row'.payment := congrArg (·.payment) same
  have mine : ((first.putRecord row).recordsOf row.user).map (·.retimed (Option.map clock)) =
      ((second.putRecord row').recordsOf row.user).map (·.retimed (Option.map clock)) := by
    have theirs : (second.putRecord row').recordsOf row.user =
        putAmong row' (second.recordsOf row.user) := by
      rw [user]
      exact recordsOf_putRecord (user ▸ place ▸ owned')
    rw [recordsOf_putRecord owned, theirs, map_putAmong, map_putAmong, same, alike.records]
  refine ⟨?_, ?_, mine, ?_⟩
  · rw [putRecord_eq_putAmong, putRecord_eq_putAmong]
    exact alike.plan
  · rw [putRecord_eq_putAmong, putRecord_eq_putAmong]
    exact alike.payments
  · rw [putRecord_eq_putAmong, putRecord_eq_putAmong]
    exact alike.nextPayment

/-- A record that stands keeps the time of its creation, whatever the new one says. -/
theorem Alike.putRecord {row : FeeRecord Stamp} {created updated : Stamp}
    (alike : Alike clock row.user first second) (owned : Owned row.user row.payment first)
    (owned' : Owned row.user row.payment second)
    (creation : (first.findRecord? row.payment).isSome = true ∨
      row.createdAt.map clock = created.map clock)
    (change : row.updatedAt.map clock = updated.map clock) :
    Alike clock row.user (first.putRecord row)
      (second.putRecord { row with createdAt := created, updatedAt := updated }) := by
  rcases creation with standing | creation
  · have standing' : (second.findRecord? row.payment).isSome = true := by
      have there := congrArg Option.isSome (alike.findRecord? owned owned')
      rw [Option.isSome_map, Option.isSome_map] at there
      exact there.symm.trans standing
    have undated : first.putRecord row = first.putRecord { row with createdAt := none } :=
      putRecord_eq _ standing rfl rfl rfl rfl
    have undated' : second.putRecord { row with createdAt := created, updatedAt := updated } =
        second.putRecord { row with createdAt := none, updatedAt := updated } :=
      putRecord_eq _ standing' rfl rfl rfl rfl
    rw [undated, undated']
    refine @Alike.putRecord_of_eq _ _ _ { row with createdAt := none } _ alike owned owned' ?_
    simp [FeeRecord.retimed, change]
  · apply alike.putRecord_of_eq owned owned'
    simp [FeeRecord.retimed, creation, change]

theorem Owned.putRecord_untouched {row : FeeRecord Stamp} (owned : Owned row.user row.payment book)
    {other : UserId} (different : other ≠ row.user) :
    Untouched other book (book.putRecord row) := by
  rw [putRecord_eq_putAmong]
  refine ⟨rfl, rfl, ?_, rfl⟩
  unfold recordsOf putAmong
  split
  · refine (filter_map_owner (fun r : FeeRecord Stamp => r.user) _
      (by intro r; split <;> rfl)).trans ?_
    refine (List.map_congr_left fun r present => if_neg ?_).trans (List.map_id _)
    exact key_ne_of_owner (fun r : FeeRecord Stamp => r.payment) (fun r => r.user) owned.record
      different present
  · exact @filter_insertRecord_ne (kept row) other different book.records

theorem filter_remove_owner {Row : Type} (key owner : Row → Int) (rows : List Row)
    (id user : Int) : (rows.filter (key · != id)).filter (owner · == user) =
      (rows.filter (owner · == user)).filter (key · != id) := by
  rw [List.filter_filter, List.filter_filter]
  congr 1
  funext row
  exact Bool.and_comm _ _

theorem filter_remove_other {Row : Type} (key owner : Row → Int) {rows : List Row}
    {id user other : Int} (owned : ∀ row ∈ rows, key row = id → owner row = user)
    (different : other ≠ user) : (rows.filter (key · != id)).filter (owner · == other) =
      rows.filter (owner · == other) := by
  rw [filter_remove_owner key owner]
  apply List.filter_eq_self.mpr
  intro row present
  simpa using key_ne_of_owner key owner owned different present

theorem map_removeRecord (rows : List (FeeRecord Stamp)) (id : PaymentId) :
    (rows.filter (·.payment != id)).map (·.retimed (Option.map clock)) =
      (rows.map (·.retimed (Option.map clock))).filter (·.payment != id) := by
  rw [List.filter_map]
  rfl

theorem Owned.removeRecord (owned : Owned user id book) (k : PaymentId) :
    Owned user id (book.removeRecord k) :=
  ⟨owned.toOrdered.removeRecord k, owned.payment,
    fun r present => owned.record r (List.mem_filter.mp present).1⟩

theorem Alike.removed_records (alike : Alike clock user first second) (id : PaymentId) :
    ((first.removeRecord id).recordsOf user).map (·.retimed (Option.map clock)) =
      ((second.removeRecord id).recordsOf user).map (·.retimed (Option.map clock)) := by
  have shown (book : Book) : (book.removeRecord id).recordsOf user =
      (book.recordsOf user).filter (·.payment != id) :=
    filter_remove_owner (fun r : FeeRecord Stamp => r.payment) (fun r => r.user) _ _ _
  rw [shown, shown, map_removeRecord, map_removeRecord, alike.records]

theorem Alike.removeRecord (alike : Alike clock user first second) (id : PaymentId) :
    Alike clock user (first.removeRecord id) (second.removeRecord id) :=
  ⟨alike.plan, alike.payments, alike.removed_records id, alike.nextPayment⟩

theorem Owned.removeRecord_untouched (owned : Owned user id book) {other : UserId}
    (different : other ≠ user) : Untouched other book (book.removeRecord id) :=
  ⟨rfl, rfl, filter_remove_other (fun r : FeeRecord Stamp => r.payment) (fun r => r.user)
    owned.record different, rfl⟩

theorem Owned.deletePayment (owned : Owned user id book) (k : PaymentId) :
    Owned user id (book.deletePayment k) :=
  ⟨owned.toOrdered.deletePayment k, fun p present => owned.payment p (List.mem_filter.mp present).1,
    fun r present => owned.record r (List.mem_filter.mp present).1⟩

theorem Alike.deletePayment (alike : Alike clock user first second) (id : PaymentId) :
    Alike clock user (first.deletePayment id) (second.deletePayment id) := by
  have shown (book : Book) : (book.deletePayment id).paymentsOf user =
      (book.paymentsOf user).filter (·.id != id) :=
    filter_remove_owner (fun p : Payment Stamp => p.id) (fun p => p.user) _ _ _
  have left (rows : List (Payment Stamp)) :
      (rows.filter (·.id != id)).map (·.retimed (Option.map clock)) =
        (rows.map (·.retimed (Option.map clock))).filter (·.id != id) := by
    rw [List.filter_map]
    rfl
  refine ⟨alike.plan, ?_, alike.removed_records id, alike.nextPayment⟩
  rw [shown, shown, left, left, alike.payments]

theorem Owned.deletePayment_untouched (owned : Owned user id book) {other : UserId}
    (different : other ≠ user) : Untouched other book (book.deletePayment id) :=
  ⟨rfl, filter_remove_other (fun p : Payment Stamp => p.id) (fun p => p.user) owned.payment
    different, (owned.removeRecord_untouched different).records, rfl⟩

theorem Owned.savePlan (owned : Owned user id book) (row : PlanRow) :
    Owned user id (book.savePlan row) := by
  obtain ⟨plans, same⟩ := book.savePlan_plans row
  rw [same]
  exact ⟨⟨owned.payments, owned.records, owned.next⟩, owned.payment, owned.record⟩

theorem Alike.savePlan {row row' : PlanRow} (alike : Alike clock row.user first second)
    (same : row.retimed clock = row'.retimed clock) :
    Alike clock row.user (first.savePlan row) (second.savePlan row') := by
  have user : row.user = row'.user := congrArg (·.user) same
  have mine : ((first.savePlan row).findPlan? row.user).map (·.retimed clock) =
      ((second.savePlan row').findPlan? row.user).map (·.retimed clock) := by
    rw [findPlan?_savePlan, findPlan?_savePlan, if_pos rfl, if_pos user]
    have plan := alike.plan
    cases old : first.findPlan? row.user with
    | none =>
      rw [old] at plan
      rw [Option.map_eq_none_iff.mp plan.symm]
      exact congrArg some same
    | some standing =>
      rw [old] at plan
      obtain ⟨standing', old', times⟩ := Option.map_eq_some_iff.mp plan.symm
      have created : standing'.createdAt.map clock = standing.createdAt.map clock :=
        congrArg (·.createdAt) times
      rw [old']
      refine congrArg some ?_
      change { row.retimed clock with createdAt := standing.createdAt.map clock } =
        { row'.retimed clock with createdAt := standing'.createdAt.map clock }
      rw [same, created]
  obtain ⟨plans, saved⟩ := first.savePlan_plans row
  obtain ⟨plans', saved'⟩ := second.savePlan_plans row'
  rw [saved, saved'] at mine ⊢
  exact ⟨mine, alike.payments, alike.records, alike.nextPayment⟩

theorem savePlan_untouched (book : Book) (row : PlanRow) {other : UserId}
    (different : other ≠ row.user) : Untouched other book (book.savePlan row) := by
  have plan : (book.savePlan row).findPlan? other = book.findPlan? other := by
    rw [findPlan?_savePlan, if_neg different]
  obtain ⟨plans, saved⟩ := book.savePlan_plans row
  rw [saved] at plan ⊢
  exact ⟨plan, rfl, rfl, rfl⟩

theorem note_untouched (book : Book) (now : Instant) (event : FeeEvent) {other : UserId}
    (different : other ≠ event.user) : Untouched other book (book.note now event) := by
  refine ⟨rfl, rfl, rfl, ?_⟩
  have theirs : ¬ event.user = other := fun same => different same.symm
  simp [entriesOf, note, appendEntry, theirs]

theorem SameNews.note {now now' : Instant} (first second : Book) (event : FeeEvent)
    (times : (stamp now).map clock = (stamp now').map clock) :
    SameNews clock event.user first second (first.note now event) (second.note now' event) := by
  have added (book : Book) (time : Instant) : (book.note time event).entriesOf event.user =
      book.entriesOf event.user ++ [⟨book.nextEntry, event.user, event.payment?, event.typeName,
        event.payload, stamp time⟩] := by
    simp [entriesOf, Book.note, appendEntry]
  refine ⟨_, _, added first now, added second now', ?_⟩
  simp [LogEntry.unnumbered, times]

section

variable {now now' : Instant} {amount : Float} {description : Option String} {k k' : PaymentId}
  {after after' : Book}

theorem Owned.enter (owned : Owned user id book)
    (stored : book.insertPayment now user amount description = .ok (k, after)) :
    Owned user id after := by
  have ordered := owned.toOrdered.enter stored
  rw [insertPayment_ok stored] at ordered ⊢
  refine ⟨ordered, fun p present place => ?_, owned.record⟩
  rcases List.mem_append.mp present with old | last
  · exact owned.payment p old place
  · rw [List.mem_singleton] at last
    subst last
    rfl

theorem Alike.enter (alike : Alike clock user first second)
    (times : (stamp now).map clock = (stamp now').map clock)
    (stored : first.insertPayment now user amount description = .ok (k, after))
    (stored' : second.insertPayment now' user amount description = .ok (k', after')) :
    Alike clock user after after' := by
  have added {book after : Book} {time : Instant} {k : PaymentId}
      (stored : book.insertPayment time user amount description = .ok (k, after)) :
      after.paymentsOf user = book.paymentsOf user ++
        [⟨book.nextPayment, user, keptNumber amount, description, stamp time⟩] := by
    simp [insertPayment_ok stored, paymentsOf]
  refine ⟨?_, ?_, ?_, ?_⟩
  · rw [insertPayment_ok stored, insertPayment_ok stored']
    exact alike.plan
  · rw [added stored, added stored', List.map_append, List.map_append, alike.payments]
    simp [Payment.retimed, times, alike.nextPayment]
  · rw [insertPayment_ok stored, insertPayment_ok stored']
    exact alike.records
  · rw [insertPayment_ok stored, insertPayment_ok stored', alike.nextPayment]

theorem enter_untouched
    (stored : book.insertPayment now user amount description = .ok (k, after)) {other : UserId}
    (different : other ≠ user) : Untouched other book after := by
  have theirs : ¬ user = other := fun same => different same.symm
  rw [insertPayment_ok stored]
  refine ⟨rfl, ?_, rfl, rfl⟩
  simp [paymentsOf, theirs]

end

end

end Book

end PaymentFees
