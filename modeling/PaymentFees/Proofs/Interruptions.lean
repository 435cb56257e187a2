import PaymentFees.Proofs.Sessions
import PaymentFees.Proofs.Transactions
import PaymentFees.Store.Fragile

/-!
Whichever statement of an operation on payments fails, and for whatever reason, all that the
statements before it did is undone. An operation whose statements are spared does the same as ever.
-/

namespace PaymentFees

variable {α β : Type}

namespace Store

/-- What a transaction runs on a closed store, and keeps unless it fails. -/
def enclosed (body : Action α) : Action α := do
  setOpen true
  let value ← body
  setOpen false
  return value

theorem run_transaction_enclosed (body : Action α) {store : Store} (closed : store.isOpen = false) :
    (transaction body).run store =
      match (enclosed body).run store with
      | (.ok value, after) => (.ok value, after)
      | (.error failure, _) => (.error failure, store) := by
  have opened : (enclosed body).run store =
      (do let value ← body; setOpen false; return value : Action α).run
        { store with isOpen := true } := rfl
  rw [opened, run_transaction_closed body closed, Action.run_bind]
  rcases body.run { store with isOpen := true } with ⟨failure | value, after⟩ <;> rfl

end Store

namespace Fragile

def Atomic (action : Action α) : Prop :=
  ∀ fragile : Fragile, fragile.store.isOpen = false →
    (action.run fragile).2.store.isOpen = false ∧
      ∀ failure, (action.run fragile).1 = .error failure →
        (action.run fragile).2.store = fragile.store

theorem run_transaction (body : Action α) {fragile : Fragile}
    (closed : fragile.store.isOpen = false) :
    (Session.transaction body).run fragile =
      match (enclosed body).run fragile with
      | (.ok value, after) => (.ok value, after)
      | (.error failure, after) => (.error failure, { after with store := fragile.store }) :=
  if_neg (Bool.not_eq_true _ ▸ closed)

theorem isOpen_enclosed {body : Action α} {fragile after : Fragile} {value : α}
    (returned : (enclosed body).run fragile = (.ok value, after)) : after.store.isOpen = false := by
  obtain ⟨_, started, -, returned⟩ := Action.run_bind_ok returned
  obtain ⟨_, opened, -, returned⟩ := Action.run_bind_ok returned
  obtain ⟨_, done, -, returned⟩ := Action.run_bind_ok returned
  obtain ⟨_, ended, -, returned⟩ := Action.run_bind_ok returned
  obtain ⟨_, shut, closing, returned⟩ := Action.run_bind_ok returned
  cases returned
  cases closing
  rfl

theorem atomic_transaction (body : Action α) : Atomic (Session.transaction body) := by
  intro fragile closed
  rw [run_transaction body closed]
  rcases ran : (enclosed body).run fragile with ⟨failure | value, after⟩
  · exact ⟨closed, fun _ _ => rfl⟩
  · exact ⟨isOpen_enclosed ran, nofun⟩

theorem transactional_atomic : Transactional @Atomic where
  transaction := atomic_transaction
  failure _ _ closed := ⟨closed, fun _ _ => rfl⟩
  map {_ _ action} f atomic fragile closed := by
    obtain ⟨shut, undone⟩ := atomic fragile closed
    rw [Action.run_map_snd]
    exact ⟨shut, fun failure failing => undone failure (Action.run_map_error.mp failing)⟩

/-- Nothing befalls the first statements, and then either the action ends as the plain one does or
its next statement fails. -/
def Tracks (plain : PaymentFees.Action α) (action : Action α) : Prop :=
  ∀ fragile : Fragile, ∃ spared rest, fragile.faults = spared ++ rest ∧ (∀ f ∈ spared, f = none) ∧
    (action.run fragile = ((plain.run fragile.store).1, ⟨(plain.run fragile.store).2, rest⟩) ∨
      ∃ fault others after, rest = some fault :: others ∧
        action.run fragile = (.error (.storage fault), after))

theorem tracks_of_run {plain : PaymentFees.Action α} {action : Action α}
    (same : ∀ fragile : Fragile, action.run fragile =
      ((plain.run fragile.store).1, ⟨(plain.run fragile.store).2, fragile.faults⟩)) :
    Tracks plain action :=
  fun fragile => ⟨[], fragile.faults, rfl, nofun, .inl (same fragile)⟩

theorem tracks_pure (value : α) : Tracks (pure value) (pure value) :=
  tracks_of_run fun _ => rfl

theorem tracks_throw (failure : Failure) :
    Tracks (throw failure : PaymentFees.Action α) (throw failure) :=
  tracks_of_run fun _ => rfl

theorem tracks_onStore (action : PaymentFees.Action α) : Tracks action (onStore action) :=
  tracks_of_run fun _ => rfl

theorem tracks_meet : Tracks (pure ()) meet := by
  rintro ⟨store, _ | ⟨_ | fault, faults⟩⟩
  · exact ⟨[], [], rfl, nofun, .inl rfl⟩
  · exact ⟨[none], faults, rfl, by simp, .inl rfl⟩
  · exact ⟨[], _, rfl, nofun, .inr ⟨fault, faults, _, rfl, rfl⟩⟩

theorem Tracks.andThen {plain : PaymentFees.Action α} {action : Action α}
    {next : α → PaymentFees.Action β} {next' : α → Action β} (first : Tracks plain action)
    (rest : ∀ value, Tracks (next value) (next' value)) :
    Tracks (plain >>= next) (action >>= next') := by
  intro fragile
  rw [Action.run_bind, Action.run_bind]
  obtain ⟨spared, faults, split, quiet, same | ⟨fault, others, after, met, failed⟩⟩ := first fragile
  · rw [same]
    rcases plain.run fragile.store with ⟨failure | value, mid⟩
    · exact ⟨spared, faults, split, quiet, .inl rfl⟩
    · -- What is left of the faults is met by the rest.
      obtain ⟨later, left, split', quiet', ending⟩ := rest value ⟨mid, faults⟩
      have sequel : faults = later ++ left := split'
      have whole : fragile.faults = (spared ++ later) ++ left := by
        rw [split, sequel, List.append_assoc]
      exact ⟨spared ++ later, left, whole, List.forall_mem_append.mpr ⟨quiet, quiet'⟩, ending⟩
  · rw [failed]
    exact ⟨spared, faults, split, quiet, .inr ⟨fault, others, after, met, rfl⟩⟩

theorem Tracks.meeting {plain : PaymentFees.Action α} {action : Action α}
    (tracks : Tracks plain action) : Tracks plain (meet >>= fun _ => action) := by
  have met := tracks_meet.andThen fun _ => tracks
  rwa [pure_bind] at met

theorem tracks_execute (run : Book → Except Failure (α × Book)) :
    Tracks (Session.execute run) (Session.execute run) :=
  (tracks_onStore (Session.execute run)).meeting

theorem Tracks.transaction {plain : PaymentFees.Action α} {action : Action α}
    (tracks : Tracks plain action) :
    Tracks (Session.transaction plain) (Session.transaction action) := by
  intro fragile
  cases opened : fragile.store.isOpen with
  | true =>
    have joined : (Session.transaction action).run fragile = action.run fragile := if_pos opened
    rw [joined, Store.transaction_open opened]
    exact tracks fragile
  | false =>
    -- The statement that closes the transaction is met before the store is closed.
    have closing (value : α) : Tracks (do Store.setOpen false; return value)
        (do meet; setOpen false; return value) :=
      ((tracks_onStore (Store.setOpen false)).andThen fun _ => tracks_pure value).meeting
    have enclosed : Tracks (Store.enclosed plain) (enclosed action) :=
      ((tracks_onStore (Store.setOpen true)).andThen fun _ => tracks.andThen closing).meeting
    rw [run_transaction action opened, Store.run_transaction_enclosed plain opened]
    obtain ⟨spared, rest, split, quiet, same | ⟨fault, others, after, met, failed⟩⟩ :=
      enclosed fragile
    · rw [same]
      refine ⟨spared, rest, split, quiet, .inl ?_⟩
      rcases (Store.enclosed plain).run fragile.store with ⟨failure | value, after⟩ <;> rfl
    · rw [failed]
      exact ⟨spared, rest, split, quiet, .inr ⟨fault, others, _, met, rfl⟩⟩

theorem simulation_tracks : Simulation @Tracks where
  value := tracks_pure
  failure := tracks_throw
  statement s := by cases s <;> exact tracks_execute _
  andThen := Tracks.andThen
  transaction := Tracks.transaction

end Fragile

/-- An operation on a payment is all or nothing, whichever of its statements fails: if it fails, the
payments, the fee records, the plans, the log and both counters are exactly what they were, and in
any case no transaction is left open. What befalls its statements decides how it ends: it ends as it
does on a store of its own if nothing befalls any of them, and with the first fault if one is met. -/
theorem changes_payment_atomic (config : Config) (now : Instant) {request : Request}
    (changes : request.ChangesPayment) {store : Store} (closed : store.isOpen = false)
    (faults : List (Option StorageFault)) :
    let plain := (request.perform config now : Action Answer).run store
    let result := (request.perform config now : Fragile.Action Answer).run ⟨store, faults⟩
    (plain.2.isOpen = false ∧ ∀ failure, plain.1 = .error failure → plain.2 = store) ∧
      (result.2.store.isOpen = false ∧
        ∀ failure, result.1 = .error failure → result.2.store = store) ∧
      ∃ spared rest, faults = spared ++ rest ∧ (∀ f ∈ spared, f = none) ∧
        (result = (plain.1, ⟨plain.2, rest⟩) ∨
          ∃ fault others, rest = some fault :: others ∧ result.1 = .error (.storage fault)) := by
  intro plain result
  refine ⟨transactional_atomic.request config now changes store closed,
    Fragile.transactional_atomic.request config now changes ⟨store, faults⟩ closed, ?_⟩
  obtain ⟨spared, rest, split, quiet, same | ⟨fault, others, after, met, failed⟩⟩ :=
    Fragile.simulation_tracks.request config now request ⟨store, faults⟩
  · exact ⟨spared, rest, split, quiet, .inl same⟩
  · exact ⟨spared, rest, split, quiet, .inr ⟨fault, others, met, congrArg Prod.fst failed⟩⟩

def flatStore : Store :=
  .onBook { Book.blank with
    hasTables := true
    plans := [⟨1, "formula", some "1", "[0]", "\x7b\x7d", some ⟨0, 0⟩, some ⟨0, 0⟩⟩] }

/-- The payment, its amount and its fee are written when the disk is full for the log. -/
theorem changes_payment_atomic_full_disk :
    let request := Request.recordPayment 1 10.0 none
    let run (faults : List (Option StorageFault)) :=
      (request.perform .standard ⟨0, 0⟩ : Fragile.Action Answer).run ⟨flatStore, faults⟩
    let spared := List.replicate 8 none
    let result := run (spared ++ [some (.engine "database or disk is full")])
    request.ChangesPayment ∧ flatStore.isOpen = false ∧
      (run spared).2.store.book.records.map (·.fee) = [1.0] ∧
      result.1 = .error (.storage (.engine "database or disk is full")) ∧
      result.2.store = flatStore := by
  intro request run spared result
  let plain := (request.perform .standard ⟨0, 0⟩ : Action Answer).run flatStore
  obtain ⟨-, ⟨-, undone⟩, ahead, rest, split, -, outcome⟩ :=
    @changes_payment_atomic .standard ⟨0, 0⟩ request trivial flatStore rfl
      (spared ++ [some (.engine "database or disk is full")])
  have charged : (run spared).2.store.book.records.map (·.fee) = [1.0] := by decide +kernel
  have failing : Store.isFailure result.1 = true := by decide +kernel
  have well : Store.isFailure plain.1 = false := by decide +kernel
  have failed : result.1 = .error (.storage (.engine "database or disk is full")) := by
    rcases outcome with same | ⟨fault, others, met, failed⟩
    · have ended : result = (plain.1, ⟨plain.2, rest⟩) := same
      rw [ended] at failing
      dsimp only at failing
      exact absurd failing (Bool.eq_false_iff.mp well)
    · have present : some fault ∈ spared ++ [some (.engine "database or disk is full")] := by
        rw [split, met]
        simp
      have full : fault = .engine "database or disk is full" := by simpa [spared] using present
      rwa [full] at failed
  exact ⟨trivial, rfl, charged, failed, undone _ failed⟩

end PaymentFees
