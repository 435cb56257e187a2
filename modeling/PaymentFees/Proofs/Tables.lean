import PaymentFees.Book.Tables
import PaymentFees.Proofs.Binary.Whole
import Mathlib.Data.List.Sort

namespace PaymentFees

open Binary Float.Model

section

variable {Row Key : Type} [DecidableEq Key] (key : Row → Key) (rows : List Row)

theorem find?_update (change : Row → Row) (keeps : ∀ row, key (change row) = key row) (k : Key) :
    (rows.map change).find? (key · == k) = (rows.find? (key · == k)).map change := by
  rw [List.find?_map]
  congr 2
  funext row
  simp [keeps]

theorem find?_remove (removed k : Key) :
    (rows.filter (key · != removed)).find? (key · == k) =
      if k = removed then none else rows.find? (key · == k) := by
  rw [List.find?_filter]
  split
  · next same =>
    rw [List.find?_eq_none]
    intro row _
    simp [same]
  · next other =>
    congr 1
    funext row
    by_cases here : key row = k
    · simp [here, other]
    · simp [here]

variable {rows} in
theorem mem_of_find? {k : Key} {row : Row} (found : rows.find? (key · == k) = some row) :
    row ∈ rows ∧ key row = k :=
  ⟨List.mem_of_find?_eq_some found, by simpa using List.find?_some found⟩

variable {rows} in
theorem key_ne_of_find? {k : Key} (missing : rows.find? (key · == k) = none) {row : Row}
    (present : row ∈ rows) : key row ≠ k := by
  have := List.find?_eq_none.mp missing row present
  simpa using this

end

theorem find?_of_mem {Row : Type} (key : Row → Int) {rows : List Row}
    (ascending : rows.Pairwise (key · < key ·)) {row : Row} (present : row ∈ rows) :
    rows.find? (key · == key row) = some row := by
  induction rows with
  | nil => cases present
  | cons head rest ih =>
    obtain ⟨above, ascending⟩ := List.pairwise_cons.mp ascending
    rw [List.find?_cons]
    rcases List.mem_cons.mp present with rfl | later
    · simp
    · have other := (above row later).ne
      rw [beq_eq_false_iff_ne.mpr other]
      exact ih ascending later

theorem eq_of_ascending {α : Type} {first second : List (Int × α)}
    (ascending : first.Pairwise (·.1 < ·.1)) (alike : second.Pairwise (·.1 < ·.1))
    (same : ∀ entry, entry ∈ first ↔ entry ∈ second) : first = second := by
  have : Std.Antisymm fun a b : Int × α => a.1 < b.1 :=
    ⟨fun a b below above => absurd below above.asymm⟩
  have : Std.Irrefl fun a b : Int × α => a.1 < b.1 := ⟨fun a => lt_irrefl a.1⟩
  exact ascending.eq_of_mem_iff alike same

theorem mapError_ok {ε δ α : Type} {f : ε → δ} {x : Except ε α} {value : α}
    (done : x.mapError f = .ok value) : x = .ok value := by
  cases x with
  | error => cases done
  | ok => cases done; rfl

theorem return_mapError_ok {ε δ α β : Type} {f : ε → δ} {x : Except ε α} {value : α}
    {result result' : β} (done : (do return (result, ← x.mapError f)) = Except.ok (result', value)) :
    x = .ok value := by
  cases x with
  | error => cases done
  | ok => cases done; rfl

theorem optionMapM_ok {ε α β : Type} {read : α → Except ε β} {row : Option α} {found : Option β}
    (done : row.mapM read = .ok found) :
    row = none ∧ found = none ∨
      ∃ r value, row = some r ∧ read r = .ok value ∧ found = some value := by
  cases row with
  | none =>
    cases done
    exact Or.inl ⟨rfl, rfl⟩
  | some r =>
    rcases ran : read r with failure | value
    · change (some <$> read r) = _ at done
      rw [ran] at done
      cases done
    · change (some <$> read r) = _ at done
      rw [ran] at done
      cases done
      exact Or.inr ⟨r, value, rfl, ran, rfl⟩

theorem mapM_ok {ε α β γ : Type} {read : α → Except ε β} (f : β → γ) (g : α → γ)
    (same : ∀ row value, read row = .ok value → f value = g row) {rows : List α} {values : List β}
    (done : rows.mapM read = .ok values) : values.map f = rows.map g := by
  induction rows generalizing values with
  | nil =>
    cases done
    rfl
  | cons row rows ih =>
    rw [List.mapM_cons] at done
    rcases first : read row with failure | value
    · rw [first] at done
      cases done
    · rcases rest : rows.mapM read with failure | others
      · rw [first, rest] at done
        cases done
      · rw [first, rest] at done
        cases done
        rw [List.map_cons, List.map_cons, same row value first, ih rest]

theorem exists_mapM {ε α β : Type} {read : α → Except ε β} {rows : List α}
    (readable : ∀ row ∈ rows, ∃ value, read row = .ok value) :
    ∃ values, rows.mapM read = .ok values := by
  induction rows with
  | nil => exact ⟨[], rfl⟩
  | cons row rows ih =>
    obtain ⟨⟨value, first⟩, later⟩ := List.forall_mem_cons.mp readable
    obtain ⟨values, rest⟩ := ih later
    refine ⟨value :: values, ?_⟩
    rw [List.mapM_cons, first, rest]
    rfl

theorem Payment.read_ok {row : Payment Stamp} {payment : Payment Instant}
    (done : row.read = .ok payment) :
    ∃ time, row.createdAt = some time ∧
      payment = ⟨row.id, row.user, row.amount, row.description, time⟩ := by
  unfold Payment.read at done
  cases created : row.createdAt with
  | none =>
    rw [created] at done
    cases done
  | some time =>
    rw [created] at done
    cases done
    exact ⟨time, rfl, rfl⟩

theorem FeeRecord.read_ok {row : FeeRecord Stamp} {record : FeeRecord Instant}
    (done : row.read = .ok record) :
    ∃ created updated, row.createdAt = some created ∧ row.updatedAt = some updated ∧
      record = ⟨row.payment, row.user, row.fee, row.grossAmount, created, updated⟩ := by
  unfold FeeRecord.read at done
  cases created : row.createdAt with
  | none =>
    rw [created] at done
    cases done
  | some first =>
    cases updated : row.updatedAt with
    | none =>
      rw [created, updated] at done
      cases done
    | some last =>
      rw [created, updated] at done
      cases done
      exact ⟨first, last, rfl, rfl, rfl⟩

theorem Payment.exists_read {row : Payment Stamp} (dated : row.createdAt.isSome = true) :
    ∃ payment, row.read = .ok payment := by
  obtain ⟨time, created⟩ := Option.isSome_iff_exists.mp dated
  unfold read
  rw [created]
  exact ⟨_, rfl⟩

theorem FeeRecord.exists_read {row : FeeRecord Stamp} (created : row.createdAt.isSome = true)
    (updated : row.updatedAt.isSome = true) : ∃ record, row.read = .ok record := by
  obtain ⟨first, creation⟩ := Option.isSome_iff_exists.mp created
  obtain ⟨last, change⟩ := Option.isSome_iff_exists.mp updated
  unfold read
  rw [creation, change]
  exact ⟨_, rfl⟩

theorem PlanRow.read_ok {row : PlanRow} {plan : StoredPlan} (done : row.read = .ok plan) :
    ∃ mode bounds ranges created updated, FeeMode.ofName? row.modeName = some mode ∧
      (Json.read row.boundsText >>= boundsOfJson?) = some bounds ∧
      (Json.read row.rangesText >>= rangesOfJson?) = some ranges ∧
      row.createdAt = some created ∧ row.updatedAt = some updated ∧
      plan = ⟨row.user, mode, row.formulaText, bounds, ranges, created, updated⟩ := by
  unfold PlanRow.read at done
  rcases creation : row.createdAt with - | created
  · rw [creation] at done
    cases done
  rcases change : row.updatedAt with - | updated
  · rw [creation, change] at done
    cases done
  rw [creation, change] at done
  rcases named : FeeMode.ofName? row.modeName with - | mode
  · rw [named] at done
    cases done
  rw [named] at done
  rcases table : Json.read row.boundsText >>= boundsOfJson? with - | bounds
  · rw [table] at done
    cases done
  rw [table] at done
  rcases curves : Json.read row.rangesText >>= rangesOfJson? with - | ranges
  · rw [curves] at done
    cases done
  rw [curves] at done
  cases done
  exact ⟨mode, bounds, ranges, created, updated, rfl, rfl, rfl, rfl, rfl, rfl⟩

theorem keptNumber_of_ne {value : Float} (nonzero : (value == 0.0) = false) :
    keptNumber value = value := by
  unfold keptNumber
  rw [nonzero]
  rfl

theorem keptNumber_beq {value : Float} (number : value.isNaN = false) :
    (keptNumber value == value) = true := by
  unfold keptNumber
  split
  · next zero =>
    obtain ⟨s, form⟩ := unpack_of_beq_zero zero
    change (UnpackedFloat.compare (.zero .positive) value.toModel.unpack == some .eq) = true
    rw [form]
    cases s <;> rfl
  · exact beq_self number

namespace Book

variable (book : Book)

def withAmount (id : PaymentId) (amount : Float) : Book :=
  { book with payments := book.payments.map fun p =>
      if p.id = id then { p with amount := keptNumber amount } else p }

theorem setAmount_ok {id : PaymentId} {amount : Float} {after : Book}
    (done : book.setAmount id amount = .ok after) :
    after = book.withAmount id amount ∧
      (∀ payment, book.findPayment? id = some payment → amount.isNaN = false) := by
  unfold setAmount at done
  split at done
  · cases done
  · next accepted =>
    cases done
    refine ⟨rfl, fun payment found => ?_⟩
    rw [found, Option.isSome_some, Bool.and_true] at accepted
    exact Bool.eq_false_iff.mpr accepted

theorem findPayment?_withAmount (id other : PaymentId) (amount : Float) :
    (book.withAmount id amount).findPayment? other = (book.findPayment? other).map fun p =>
      if p.id = id then { p with amount := keptNumber amount } else p := by
  apply find?_update (fun p : Payment Stamp => p.id) book.payments
  intro p
  split <;> rfl

theorem findPayment?_withAmount_ne {id k : PaymentId} (amount : Float) (other : k ≠ id) :
    (book.withAmount id amount).findPayment? k = book.findPayment? k := by
  rw [findPayment?_withAmount]
  cases found : book.findPayment? k with
  | none => rfl
  | some p =>
    have place := (mem_of_find? (fun p : Payment Stamp => p.id) found).2
    rw [Option.map_some, if_neg (fun same => other (place.symm.trans same))]

variable {book} in
theorem findPayment?_withAmount_self {payment : Payment Stamp} (amount : Float)
    (found : book.findPayment? payment.id = some payment) :
    (book.withAmount payment.id amount).findPayment? payment.id =
      some { payment with amount := keptNumber amount } := by
  rw [findPayment?_withAmount, found, Option.map_some, if_pos rfl]

theorem insertPayment_ok {book after : Book} {now : Instant} {user : UserId} {amount : Float}
    {description : Option String} {id : PaymentId}
    (stored : book.insertPayment now user amount description = .ok (id, after)) :
    after = { book with
      payments := book.payments ++
        [⟨book.nextPayment, user, keptNumber amount, description, stamp now⟩]
      nextPayment := book.nextPayment + 1 } := by
  unfold insertPayment at stored
  split at stored
  · cases stored
  · cases stored
    rfl

theorem findPayment?_insertPayment {book after : Book} {now : Instant} {user : UserId}
    {amount : Float} {description : Option String} {id k : PaymentId} {payment : Payment Stamp}
    (stored : book.insertPayment now user amount description = .ok (id, after))
    (present : book.findPayment? k = some payment) : after.findPayment? k = some payment := by
  rw [insertPayment_ok stored]
  unfold findPayment? at present ⊢
  rw [List.find?_append, present]
  rfl

theorem findPayment?_deletePayment (id k : PaymentId) :
    (book.deletePayment id).findPayment? k = if k = id then none else book.findPayment? k :=
  find?_remove (fun p : Payment Stamp => p.id) book.payments id k

theorem findRecord?_deletePayment (id k : PaymentId) :
    (book.deletePayment id).findRecord? k = if k = id then none else book.findRecord? k :=
  find?_remove (fun r : FeeRecord Stamp => r.payment) book.records id k

theorem savePlan_plans (row : PlanRow) :
    ∃ plans, book.savePlan row = { book with plans } := by
  unfold savePlan
  split <;> exact ⟨_, rfl⟩

theorem findPlan?_savePlan (row : PlanRow) (user : UserId) :
    (book.savePlan row).findPlan? user =
      if user = row.user then
        some { row with createdAt := ((book.findPlan? user).map (·.createdAt)).getD row.createdAt }
      else book.findPlan? user := by
  unfold savePlan
  split
  · next present =>
    have changed := find?_update (fun p : PlanRow => p.user) book.plans
      (fun old => if old.user = row.user then { row with createdAt := old.createdAt } else old)
      (by
        intro p
        split
        · next same => exact same.symm
        · rfl) user
    refine changed.trans ?_
    unfold findPlan? at present ⊢
    by_cases here : user = row.user
    · subst here
      obtain ⟨old, found⟩ := Option.isSome_iff_exists.mp present
      have place := (mem_of_find? (fun p : PlanRow => p.user) found).2
      rw [found, Option.map_some, if_pos place, if_pos rfl]
      rfl
    · rw [if_neg here]
      cases found : book.plans.find? (·.user == user) with
      | none => rfl
      | some old =>
        have place := (mem_of_find? (fun p : PlanRow => p.user) found).2
        rw [Option.map_some, if_neg (fun same => here (place.symm.trans same))]
  · next absent =>
    unfold findPlan? at absent ⊢
    rw [List.find?_append]
    by_cases here : user = row.user
    · subst here
      rw [Option.not_isSome_iff_eq_none.mp absent]
      simp
    · have other : ¬ row.user = user := fun same => here same.symm
      simp [here, other]

theorem deletePayment_records {id : PaymentId} (uncharged : book.findRecord? id = none) :
    (book.deletePayment id).records = book.records := by
  apply List.filter_eq_self.mpr
  intro row present
  have other := key_ne_of_find? (fun r : FeeRecord Stamp => r.payment) uncharged present
  simpa using other

def renewed (row old : FeeRecord Stamp) : FeeRecord Stamp :=
  { old with
    fee := keptNumber row.fee
    grossAmount := keptNumber row.grossAmount
    updatedAt := row.updatedAt }

def kept (row : FeeRecord Stamp) : FeeRecord Stamp :=
  { row with fee := keptNumber row.fee, grossAmount := keptNumber row.grossAmount }

/-- The record of one payment is replaced, except for its user and its time of creation, or
added. -/
def putRecord (row : FeeRecord Stamp) : Book :=
  if (book.findRecord? row.payment).isSome then
    { book with
      records := book.records.map fun old =>
        if old.payment = row.payment then renewed row old else old }
  else { book with records := insertRecord (kept row) book.records }

theorem hasTables_putRecord (row : FeeRecord Stamp) :
    (book.putRecord row).hasTables = book.hasTables := by
  unfold putRecord
  split <;> rfl

theorem saveRecord_eq (row : FeeRecord Stamp) :
    book.saveRecord row =
      if row.fee.isNaN then .error (.missingValue "fee_record.fee_amount")
      else if row.grossAmount.isNaN then .error (.missingValue "fee_record.original_amount")
      else if row.fee < 0.0 then .error .negativeFee
      else if (book.findRecord? row.payment).isSome || (book.findPayment? row.payment).isSome then
        .ok (book.putRecord row)
      else .error .unknownPayment := by
  unfold saveRecord putRecord
  cases book.findRecord? row.payment <;> cases book.findPayment? row.payment <;> rfl

theorem saveRecord_ok {row : FeeRecord Stamp} {after : Book}
    (done : book.saveRecord row = .ok after) :
    after = book.putRecord row ∧ row.fee.isNaN = false ∧ row.grossAmount.isNaN = false ∧
      ¬ row.fee < 0.0 := by
  rw [saveRecord_eq] at done
  split at done
  · cases done
  split at done
  · cases done
  split at done
  · cases done
  split at done
  · next fee gross nonnegative _ =>
    cases done
    exact ⟨rfl, Bool.eq_false_iff.mpr fee, Bool.eq_false_iff.mpr gross, nonnegative⟩
  · cases done

theorem find?_insertRecord (row : FeeRecord Stamp) {rows : List (FeeRecord Stamp)}
    (fresh : rows.find? (·.payment == row.payment) = none) (k : PaymentId) :
    (insertRecord row rows).find? (·.payment == k) =
      if row.payment = k then some row else rows.find? (·.payment == k) := by
  induction rows with
  | nil =>
    unfold insertRecord
    by_cases here : row.payment = k <;> simp [here]
  | cons r rs ih =>
    obtain ⟨other, rest⟩ :
        r.payment ≠ row.payment ∧ rs.find? (·.payment == row.payment) = none := by
      rw [List.find?_cons] at fresh
      split at fresh
      · cases fresh
      · next differs => exact ⟨by simpa using differs, fresh⟩
    unfold insertRecord
    split
    · rw [List.find?_cons]
      by_cases here : row.payment = k
      · rw [if_pos here, beq_iff_eq.mpr here]
      · rw [if_neg here, beq_eq_false_iff_ne.mpr here]
    · rw [List.find?_cons, List.find?_cons, ih rest]
      by_cases first : r.payment = k
      · have : row.payment ≠ k := fun same => other (first.trans same.symm)
        rw [beq_iff_eq.mpr first]
        dsimp only
        rw [if_neg this]
      · rw [beq_eq_false_iff_ne.mpr first]

theorem mem_insertRecord {row r : FeeRecord Stamp} {rows : List (FeeRecord Stamp)} :
    r ∈ insertRecord row rows ↔ r = row ∨ r ∈ rows := by
  induction rows with
  | nil => simp [insertRecord]
  | cons head rest ih =>
    unfold insertRecord
    split
    · simp
    · simp only [List.mem_cons, ih]
      tauto

theorem pairwise_insertRecord {row : FeeRecord Stamp} {rows : List (FeeRecord Stamp)}
    (fresh : ∀ r ∈ rows, r.payment ≠ row.payment)
    (ascending : rows.Pairwise (·.payment < ·.payment)) :
    (insertRecord row rows).Pairwise (·.payment < ·.payment) := by
  induction rows with
  | nil => simp [insertRecord]
  | cons head rest ih =>
    obtain ⟨above, restAscending⟩ := List.pairwise_cons.mp ascending
    unfold insertRecord
    split
    · next below =>
      refine List.pairwise_cons.mpr ⟨fun r present => ?_, ascending⟩
      rcases List.mem_cons.mp present with rfl | later
      · exact below
      · exact below.trans (above r later)
    · next notBelow =>
      have first := fresh head List.mem_cons_self
      refine List.pairwise_cons.mpr ⟨fun r present => ?_, ih
        (fun r later => fresh r (List.mem_cons_of_mem _ later)) restAscending⟩
      rcases mem_insertRecord.mp present with rfl | later
      · exact lt_of_le_of_ne (not_lt.mp notBelow) first
      · exact above r later

def putRow (row : FeeRecord Stamp) : FeeRecord Stamp :=
  match book.findRecord? row.payment with
  | some old => renewed row old
  | none => kept row

theorem findRecord?_putRecord (row : FeeRecord Stamp) (k : PaymentId) :
    (book.putRecord row).findRecord? k =
      if row.payment = k then some (book.putRow row) else book.findRecord? k := by
  unfold putRecord putRow
  cases found : book.findRecord? row.payment with
  | none => exact find?_insertRecord (kept row) found k
  | some old =>
    have changed := find?_update (fun r : FeeRecord Stamp => r.payment) book.records
      (fun old => if old.payment = row.payment then renewed row old else old)
      (by intro r; split <;> rfl) k
    refine changed.trans ?_
    unfold findRecord? at found ⊢
    by_cases here : row.payment = k
    · subst here
      have place := (mem_of_find? (fun r : FeeRecord Stamp => r.payment) found).2
      rw [found, if_pos rfl, Option.map_some, if_pos place]
    · rw [if_neg here]
      cases other : book.records.find? (·.payment == k) with
      | none => rfl
      | some r =>
        have place := (mem_of_find? (fun r : FeeRecord Stamp => r.payment) other).2
        rw [Option.map_some, if_neg (fun same => here (same.symm.trans place))]

theorem putRecord_records (row : FeeRecord Stamp) :
    ∃ records, book.putRecord row = { book with records } := by
  unfold putRecord
  split <;> exact ⟨_, rfl⟩

theorem findPayment?_putRecord (row : FeeRecord Stamp) (id : PaymentId) :
    (book.putRecord row).findPayment? id = book.findPayment? id := by
  unfold putRecord
  split <;> rfl

theorem putRecord_withAmount (row : FeeRecord Stamp) (id : PaymentId) (amount : Float) :
    (book.withAmount id amount).putRecord row = (book.putRecord row).withAmount id amount := by
  have same : (book.withAmount id amount).findRecord? row.payment =
      book.findRecord? row.payment := rfl
  unfold putRecord
  rw [same]
  split <;> rfl

theorem putRecord_eq {first second : FeeRecord Stamp}
    (present : (book.findRecord? first.payment).isSome = true)
    (payment : first.payment = second.payment) (fee : first.fee = second.fee)
    (gross : first.grossAmount = second.grossAmount)
    (updated : first.updatedAt = second.updatedAt) :
    book.putRecord first = book.putRecord second := by
  have other : (book.findRecord? second.payment).isSome = true := payment ▸ present
  unfold putRecord
  rw [if_pos present, if_pos other]
  congr 2
  funext old
  unfold renewed
  rw [payment, fee, gross, updated]

theorem findRecord?_removeRecord (id k : PaymentId) :
    (book.removeRecord id).findRecord? k = if k = id then none else book.findRecord? k :=
  find?_remove (fun r : FeeRecord Stamp => r.payment) book.records id k

theorem findRecord?_removeRecord_self (id : PaymentId) :
    (book.removeRecord id).findRecord? id = none := by
  rw [findRecord?_removeRecord, if_pos rfl]

theorem findRecord?_removeRecord_ne {id k : PaymentId} (other : k ≠ id) :
    (book.removeRecord id).findRecord? k = book.findRecord? k := by
  rw [findRecord?_removeRecord, if_neg other]

theorem findRecord?_putRecord_ne {row : FeeRecord Stamp} {k : PaymentId}
    (other : k ≠ row.payment) : (book.putRecord row).findRecord? k = book.findRecord? k := by
  rw [findRecord?_putRecord, if_neg (Ne.symm other)]

end Book

end PaymentFees
