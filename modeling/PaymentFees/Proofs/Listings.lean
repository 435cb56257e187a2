import PaymentFees.Proofs.Reconciled

namespace PaymentFees

open Binary

/-- Times of payments and records that can be read back. -/
structure Dated (book : Book) : Prop where
  payments : ∀ p ∈ book.payments, p.createdAt.isSome = true
  records : ∀ r ∈ book.records, r.createdAt.isSome = true ∧ r.updatedAt.isSome = true

section

variable {book : Book}

theorem Dated.note (dated : Dated book) (now : Instant) (event : FeeEvent) :
    Dated (book.note now event) :=
  ⟨dated.payments, dated.records⟩

theorem Dated.withAmount (dated : Dated book) (id : PaymentId) (amount : Float) :
    Dated (book.withAmount id amount) := by
  refine ⟨fun p present => ?_, dated.records⟩
  obtain ⟨old, member, rfl⟩ := List.mem_map.mp present
  have time := dated.payments old member
  split <;> exact time

theorem Dated.putRecord (dated : Dated book) {row : FeeRecord Stamp}
    (created : row.createdAt.isSome = true) (updated : row.updatedAt.isSome = true) :
    Dated (book.putRecord row) := by
  unfold Book.putRecord
  split
  · refine ⟨dated.payments, fun r present => ?_⟩
    obtain ⟨old, member, rfl⟩ := List.mem_map.mp present
    have times := dated.records old member
    split
    · exact ⟨times.1, updated⟩
    · exact times
  · refine ⟨dated.payments, fun r present => ?_⟩
    rcases Book.mem_insertRecord.mp present with rfl | old
    · exact ⟨created, updated⟩
    · exact dated.records r old

theorem Dated.removeRecord (dated : Dated book) (id : PaymentId) : Dated (book.removeRecord id) :=
  ⟨dated.payments, fun r present => dated.records r (List.mem_filter.mp present).1⟩

theorem Move.dated {rounding : Rounding} {now : Instant} {after : Book} {event : Option FeeEvent}
    (move : Move rounding now book event after) (readable : (stamp now).isSome = true)
    (dated : Dated book) : Dated after := by
  cases move with
  | enter stored =>
    rw [Book.insertPayment_ok stored]
    refine ⟨fun p present => ?_, dated.records⟩
    rcases List.mem_append.mp present with old | last
    · exact dated.payments p old
    · rw [List.mem_singleton] at last
      subst last
      exact readable
  | savePlan user plan =>
    obtain ⟨plans, same⟩ := book.savePlan_plans (.ofStored (.ofPlan user plan now))
    rw [same]
    exact ⟨dated.payments, dated.records⟩
  | charge => exact ((dated.putRecord readable readable).note _ _).withAmount _ _
  | clear => exact ((dated.removeRecord _).note _ _).withAmount _ _
  | amend => exact dated.withAmount _ _
  | refund => exact (dated.removeRecord _).note _ _
  | leave =>
    exact ⟨fun p present => dated.payments p (List.mem_filter.mp present).1,
      fun r present => dated.records r (List.mem_filter.mp present).1⟩

theorem Effect.dated {rounding : Rounding} {now : Instant} {after : Book} {event : Option FeeEvent}
    (effect : Effect rounding now book event after) (readable : (stamp now).isSome = true)
    (dated : Dated book) : Dated after := by
  induction effect with
  | nothing => exact dated
  | then_move _ move ih | then_silent _ move ih => exact move.dated readable ih

variable {rounding : Rounding}

theorem Reconciled.recordsOf_eq (reconciled : Reconciled rounding book) (user : UserId) :
    (book.recordsOf user).map (fun r => (r.payment, r.fee)) =
      (book.paymentsOf user).filterMap fun p =>
        (book.findRecord? p.id).map fun r => (p.id, r.fee) := by
  apply eq_of_ascending
  · exact List.pairwise_map.mpr (reconciled.records.filter _)
  · apply List.pairwise_filterMap.mpr
    apply (reconciled.payments.filter _).imp
    rintro p q before a first b second
    obtain ⟨r, -, rfl⟩ := Option.map_eq_some_iff.mp first
    obtain ⟨r, -, rfl⟩ := Option.map_eq_some_iff.mp second
    exact before
  · rintro ⟨id, fee⟩
    constructor
    · intro listed
      obtain ⟨r, present, same⟩ := List.mem_map.mp listed
      cases same
      obtain ⟨member, mine⟩ := List.mem_filter.mp present
      have found := find?_of_mem (fun r : FeeRecord Stamp => r.payment) reconciled.records member
      obtain ⟨p, paid, settled⟩ := reconciled.settled r.payment r found
      obtain ⟨stands, place⟩ := mem_of_find? (fun p : Payment Stamp => p.id) paid
      refine List.mem_filterMap.mpr ⟨p, List.mem_filter.mpr ⟨stands, ?_⟩, ?_⟩
      · rw [settled.user]
        exact mine
      · change (book.findRecord? p.id).map _ = _
        rw [place]
        exact congrArg (Option.map _) found
    · intro listed
      obtain ⟨p, present, same⟩ := List.mem_filterMap.mp listed
      obtain ⟨member, mine⟩ := List.mem_filter.mp present
      obtain ⟨r, found, same⟩ := Option.map_eq_some_iff.mp same
      cases same
      obtain ⟨q, paid, settled⟩ := reconciled.settled p.id r found
      have here := find?_of_mem (fun p : Payment Stamp => p.id) reconciled.payments member
      cases here.symm.trans paid
      obtain ⟨stands, place⟩ := mem_of_find? (fun r : FeeRecord Stamp => r.payment) found
      refine List.mem_map.mpr ⟨r, List.mem_filter.mpr ⟨stands, ?_⟩, ?_⟩
      · rw [← settled.user]
        exact mine
      · rw [place]

end

/-- The records are, in ascending order, the payments that have a fee, with that fee. -/
structure Listed (records : List (FeeRecord Instant))
    (payments : List (Payment Instant × Option Float)) : Prop where
  same : records.map (fun r => (r.payment, r.fee)) =
    payments.filterMap fun (p, fee) => fee.map fun fee => (p.id, fee)
  records : records.Pairwise (·.payment < ·.payment)
  payments : payments.Pairwise (·.1.id < ·.1.id)

namespace Store

variable {rounding : Rounding} {store : Store} (tables : store.book.hasTables = true)
include tables

theorem run_records (user : UserId) :
    (records user).run store =
      (((store.book.recordsOf user).mapM FeeRecord.read).mapError .storage, store) := by
  unfold records
  rw [run_query, if_pos tables]

theorem run_paymentsWithFees (user : UserId) :
    (paymentsWithFees user).run store =
      ((store.book.paymentsOf user).mapM fun p =>
        (return (← p.read.mapError .storage, (store.book.findRecord? p.id).map (·.fee)) :
          Except Failure (Payment Instant × Option Float)), store) := by
  unfold paymentsWithFees
  rw [run_query, if_pos tables]

theorem listed (reconciled : Reconciled rounding store.book) {user : UserId}
    {found : List (FeeRecord Instant)} {payments : List (Payment Instant × Option Float)}
    (first : ((records user).run store).1 = .ok found)
    (second : ((paymentsWithFees user).run store).1 = .ok payments) : Listed found payments := by
  rw [run_records tables] at first
  rw [run_paymentsWithFees tables] at second
  have rows := mapM_ok (fun r : FeeRecord Instant => (r.payment, r.fee))
    (fun r : FeeRecord Stamp => (r.payment, r.fee)) (by
      intro row record done
      obtain ⟨created, updated, -, -, rfl⟩ := FeeRecord.read_ok done
      rfl) (mapError_ok first)
  have paid := mapM_ok (fun entry : Payment Instant × Option Float => (entry.1.id, entry.2))
    (fun p : Payment Stamp => (p.id, (store.book.findRecord? p.id).map (·.fee))) (by
      intro row entry done
      rcases read : row.read with fault | payment
      · rw [read] at done
        cases done
      · rw [read] at done
        obtain ⟨time, -, rfl⟩ := Payment.read_ok read
        cases done
        rfl) second
  refine ⟨?_, ?_, ?_⟩
  · calc
      found.map (fun r => (r.payment, r.fee))
        = (store.book.recordsOf user).map (fun r => (r.payment, r.fee)) := rows
      _ = (store.book.paymentsOf user).filterMap (fun p =>
            (store.book.findRecord? p.id).map fun r => (p.id, r.fee)) :=
          reconciled.recordsOf_eq user
      _ = ((store.book.paymentsOf user).map fun p =>
            (p.id, (store.book.findRecord? p.id).map (·.fee))).filterMap (fun (id, fee) =>
              fee.map fun fee => (id, fee)) := by
          rw [List.filterMap_map]
          congr 1
          funext p
          simp only [Function.comp, Option.map_map]
          rfl
      _ = payments.filterMap fun (p, fee) => fee.map fun fee => (p.id, fee) := by
          rw [← paid, List.filterMap_map]
          rfl
  · have ascending : (found.map fun r => (r.payment, r.fee)).Pairwise (·.1 < ·.1) := by
      rw [rows]
      exact List.pairwise_map.mpr (reconciled.records.filter _)
    have pairs := List.pairwise_map.mp ascending
    exact pairs
  · have ascending : (payments.map fun entry => (entry.1.id, entry.2)).Pairwise (·.1 < ·.1) := by
      rw [paid]
      exact List.pairwise_map.mpr (reconciled.payments.filter _)
    have pairs := List.pairwise_map.mp ascending
    exact pairs

theorem exists_listings (dated : Dated store.book) (user : UserId) :
    (∃ found, ((records user).run store).1 = .ok found) ∧
      ∃ payments, ((paymentsWithFees user).run store).1 = .ok payments := by
  rw [run_records tables, run_paymentsWithFees tables]
  constructor
  · have readable : ∀ row ∈ store.book.recordsOf user, ∃ record, row.read = .ok record := by
      intro row present
      obtain ⟨created, updated⟩ := dated.records row (List.mem_filter.mp present).1
      exact FeeRecord.exists_read created updated
    obtain ⟨found, done⟩ := exists_mapM readable
    rw [done]
    exact ⟨found, rfl⟩
  · apply exists_mapM
    intro row present
    obtain ⟨payment, read⟩ := Payment.exists_read
      (dated.payments row (List.mem_filter.mp present).1)
    rw [read]
    exact ⟨_, rfl⟩

omit tables

theorem fresh_dated : Dated fresh.book :=
  ⟨fun _ present => (nomatch present), fun _ present => nomatch present⟩

/-- After any run of operations each fee record belongs to a payment of the same user, no payment
has two records, every fee is above zero, and each payment with a record has the amount that its
fee leaves. A user's records are then the user's payments that have a fee, in the same order, and
both lists can be read as long as the clock shows years of four digits. -/
theorem fees_reconciled (config : Config) (steps : List (Instant × Request))
    (operations : ∀ step ∈ steps, step.2.IsOperation) :
    let store := afterAll config fresh steps
    (∀ record ∈ store.book.records, ∃ payment ∈ store.book.payments,
      payment.id = record.payment ∧ payment.user = record.user ∧ 0.0 < record.fee ∧
        (payment.amount == amountAfterFee config.rounding record.grossAmount record.fee) = true) ∧
      store.book.records.Pairwise (·.payment < ·.payment) ∧
      store.book.payments.Pairwise (·.id < ·.id) ∧
      ∀ user,
        (∀ found payments, ((records user).run store).1 = .ok found →
          ((paymentsWithFees user).run store).1 = .ok payments → Listed found payments) ∧
        ((∀ step ∈ steps, (stamp step.1).isSome = true) →
          (∃ found, ((records user).run store).1 = .ok found) ∧
            ∃ payments, ((paymentsWithFees user).run store).1 = .ok payments) := by
  obtain ⟨-, tables, reconciled⟩ := afterAll_keeps config operations
    (fun _ _ _ _ _ effect before => effect.reconciled before) rfl rfl
    (fresh_reconciled config.rounding)
  refine ⟨fun record present => ?_, reconciled.records, reconciled.payments,
    fun user => ⟨?_, fun readable => ?_⟩⟩
  · have found := find?_of_mem (fun r : FeeRecord Stamp => r.payment) reconciled.records present
    obtain ⟨payment, paid, settled⟩ := reconciled.settled _ record found
    obtain ⟨stands, place⟩ := mem_of_find? (fun p : Payment Stamp => p.id) paid
    exact ⟨payment, stands, place, settled.user, settled.positive, settled.net⟩
  · intro found payments first second
    exact listed tables reconciled first second
  · obtain ⟨-, -, dated⟩ := afterAll_keeps config operations
      (fun step present _ _ _ effect before => effect.dated (readable step present) before) rfl rfl
      fresh_dated
    exact exists_listings tables dated user

theorem fees_reconciled_tithe :
    let store := afterAll .standard fresh tithe
    (∀ step ∈ tithe, step.2.IsOperation) ∧
      store.book.records =
        [⟨1, 1, 1.0, 10.0, some ⟨0, 0⟩, some ⟨0, 0⟩⟩] ∧
      ∃ payment ∈ store.book.payments, payment.id = 1 ∧ payment.user = 1 ∧
        (payment.amount == amountAfterFee .halfUp 10.0 1.0) = true := by
  have operations : ∀ step ∈ tithe, step.2.IsOperation := by simp [tithe, Request.IsOperation]
  have charged : (afterAll .standard fresh tithe).book.records =
      [⟨1, 1, 1.0, 10.0, some ⟨0, 0⟩, some ⟨0, 0⟩⟩] := by decide +kernel
  obtain ⟨payment, present, place, user, -, net⟩ :=
    (fees_reconciled .standard tithe operations).1 _ (charged ▸ List.mem_singleton_self _)
  exact ⟨operations, charged, payment, present, place, user, net⟩

end Store

end PaymentFees
