import PaymentFees.Proofs.Chronicle
import PaymentFees.Proofs.Json.Lines
import PaymentFees.Proofs.Operations
import PaymentFees.Proofs.Statements

namespace PaymentFees

namespace Json

def member? (name : String) : Json → Option Json
  | object members => members.lookup (some name)
  | _ => none

section

variable {members : List (String × Json)}

theorem isSound_record (sound : ∀ member ∈ members, member.2.isSound = true) :
    (record members).isSound = true := by
  change areSoundMembers (members.map fun member => (some member.1, member.2)) = true
  induction members with
  | nil => rfl
  | cons member members ih =>
    obtain ⟨first, rest⟩ := List.forall_mem_cons.mp sound
    simp [areSoundMembers, first, ih rest]

theorem depth_record (flat : ∀ member ∈ members, member.2.depth = 0) :
    (record members).depth = 1 := by
  change depthOfMembers (members.map fun member => (some member.1, member.2)) + 1 = 1
  induction members with
  | nil => rfl
  | cons member members ih =>
    obtain ⟨first, rest⟩ := List.forall_mem_cons.mp flat
    simpa [depthOfMembers, first] using ih rest

/-- A value with nothing inside that is read as it is written, also where the whole record is read
before its tag is looked at. -/
structure Leaf (value : Json) : Prop where
  writable : value.Writable
  sound : value.isSound = true
  flat : value.depth = 0

theorem tagged?_record {tag : String} (leaves : ∀ member ∈ members, Leaf member.2)
    (untagged : ∀ member ∈ members, member.1 ≠ "type") :
    (record (("type", text tag) :: members)).tagged? = some (tag, record members) := by
  have leavesAll : ∀ member ∈ ("type", text tag) :: members, Leaf member.2 :=
    List.forall_mem_cons.mpr ⟨⟨rfl, rfl, rfl⟩, leaves⟩
  have sound := isSound_record fun member present => (leavesAll member present).sound
  have depth := depth_record fun member present => (leavesAll member present).flat
  have tagless : ∀ member ∈ members.map fun member => (some member.1, member.2),
      (member.1 == some "type") = false := by
    rw [List.forall_mem_map]
    intro member present
    simpa using untagged member present
  have split : ((some "type", text tag) ::
      members.map fun member => (some member.1, member.2)).partition (·.1 == some "type") =
        ([(some "type", text tag)], members.map fun member => (some member.1, member.2)) := by
    rw [List.partition_eq_filter_filter, List.filter_cons_of_pos (by rfl),
      List.filter_cons_of_neg (by simp), List.filter_eq_nil_iff.mpr, List.filter_eq_self.mpr]
    · intro member present
      simp [tagless member present]
    · intro member present
      simp [tagless member present]
  unfold tagged?
  rw [sound, depth, if_pos (by rfl), record, List.map_cons]
  dsimp only
  rw [split]
  rfl

end

/-- The text of the number is read as the number. -/
def Survives (v : Float) : Prop := Json.read (ofFloat v).render >>= float? = some v

theorem Survives.float? {v : Float} (survives : Survives v) : (ofFloat v).float? = some v := by
  rwa [Survives, read_render (ofFloat_writable v)] at survives

def IsWord (n : Int) : Prop := -signedLimit ≤ n ∧ n < signedLimit

theorem int64?_ofInt {n : Int} (word : IsWord n) : (ofInt n).int64? = some n := by
  obtain ⟨low, high⟩ := word
  have limits : (signedLimit : Int) < wordLimit := by decide
  have digits : numberOf (Nat.toDigits 10 n.natAbs) = n.natAbs := Nat.ofDigitChars_ten_toDigits
  have read : (ofInt n).int? = some n := by
    unfold ofInt int?
    dsimp only
    rw [digits]
    by_cases negative : n < 0
    · have inside : 0 < n.natAbs ∧ n.natAbs ≤ signedLimit := by omega
      rw [if_pos (decide_eq_true negative), if_pos inside]
      congr 1
      omega
    · have inside : n.natAbs < wordLimit := by omega
      rw [if_neg (by simpa using negative), if_pos inside]
      congr 1
      omega
  rw [int64?, read, Option.filter_some_pos (by simpa using high)]

theorem leaf_text (value : String) : Leaf (text value) := ⟨rfl, rfl, rfl⟩

theorem leaf_ofInt {n : Int} (word : IsWord n) : Leaf (ofInt n) := by
  refine ⟨ofInt_writable n, ?_, rfl⟩
  have size : n.natAbs ≤ signedLimit := by
    obtain ⟨low, high⟩ := word
    omega
  have value : (Numeral.decimal ⟨Nat.toDigits 10 n.natAbs, [], none⟩) = ⟨n.natAbs, 0⟩ := by
    simp [Numeral.decimal, numberOf]
  have scaled : (scaleUp? (Float.ofNat n.natAbs) 0).isSome := by
    rcases Nat.eq_zero_or_pos n.natAbs with zero | some
    · rw [zero]
      decide +kernel
    · apply scaleUp?_isSome some (by norm_num)
      calc
        (n.natAbs : ℚ) * 10 ^ 0 = n.natAbs := by rw [pow_zero, mul_one]
        _ ≤ signedLimit := by exact_mod_cast size
        _ = 2 ^ 63 := by norm_num [signedLimit]
        _ ≤ 1 * 2 ^ 971 := by rw [one_mul]; exact pow_le_pow_right₀ (by norm_num) (by norm_num)
        _ ≤ (2 ^ 53 - 5 / 2) * 2 ^ 971 := mul_le_mul_of_nonneg_right (by norm_num) (by positivity)
  have gathered := Numeral.gathered?_eq (n := ⟨Nat.toDigits 10 n.natAbs, [], none⟩) (by
    rw [value]
    exact size.trans_lt (by decide))
  unfold ofInt isSound Json.float?
  dsimp only
  rw [Option.isSome_map, gathered, value]
  exact scaled

theorem leaf_ofFloat {v : Float} (survives : Survives v) : Leaf (ofFloat v) := by
  have read := survives.float?
  refine ⟨ofFloat_writable v, ?_, ?_⟩
  · cases written : ofFloat v with
    | number negative numeral =>
      rw [isSound, ← written, read]
      rfl
    | null | bool | string | array | object =>
      rw [written] at read
      cases read
  · unfold ofFloat
    split <;> rfl

theorem optional?_ofOption {value : Option Float} (survive : ∀ v ∈ value, Survives v) :
    optional? float? (ofOption ofFloat value) = some value := by
  cases value with
  | none => rfl
  | some v =>
    have read := (survive v rfl).float?
    have finite : v.isFinite = true := by
      rw [← float?_ofFloat_isSome, read]
      rfl
    rw [float?_ofFloat finite] at read
    exact (RangeFees.optional?_ofFloat finite).trans (congrArg some read)

theorem leaf_ofOption {value : Option Float} (survive : ∀ v ∈ value, Survives v) :
    Leaf (ofOption ofFloat value) := by
  cases value with
  | none => exact ⟨trivial, rfl, rfl⟩
  | some v => exact leaf_ofFloat (survive v rfl)

end Json

open Json

namespace FeeEvent

def numbers : FeeEvent → List Float
  | charged _ _ fee grossAmount netAmount => [fee, grossAmount, netAmount]
  | refunded _ _ fee => [fee]
  | recomputed _ _ previousFee fee grossAmount netAmount =>
    previousFee.toList ++ [fee, grossAmount, netAmount]
  | cleared _ _ previousFee grossAmount => [previousFee, grossAmount]
  | planSaved .. => []

/-- What the log can keep of an event: its ids are words, and its numbers survive being written. -/
structure Kept (event : FeeEvent) : Prop where
  user : IsWord event.user
  payment : ∀ id ∈ event.payment?, IsWord id
  numbers : ∀ v ∈ event.numbers, Survives v

variable {event : FeeEvent}

theorem Kept.leaves (kept : event.Kept) : ∀ member ∈ event.fieldsWith ofFloat, Leaf member.2 := by
  obtain ⟨user, payment, numbers⟩ := kept
  cases event with
  | planSaved => simp_all [fieldsWith, leaf_ofInt, leaf_text, FeeEvent.user]
  | _ =>
    simp_all [fieldsWith, leaf_ofInt, leaf_ofFloat, leaf_ofOption, FeeEvent.user,
      FeeEvent.payment?, FeeEvent.numbers]

theorem untagged (event : FeeEvent) : ∀ member ∈ event.fieldsWith ofFloat, member.1 ≠ "type" := by
  cases event <;> simp [fieldsWith]

theorem Kept.read (kept : event.Kept) : Json.read event.payload = some event.toJson := by
  apply read_render
  apply writable_record
  exact List.forall_mem_cons.mpr ⟨rfl, fun member present => (kept.leaves member present).writable⟩

theorem Kept.tagged? (kept : event.Kept) :
    event.toJson.tagged? = some (event.typeName, record (event.fieldsWith ofFloat)) :=
  tagged?_record kept.leaves event.untagged

theorem ofTagged?_eq (event : FeeEvent) :
    ofTagged? event.typeName (record (event.fieldsWith ofFloat)) =
      match event with
      | charged id user fee gross net => do
        return charged (← (ofInt id).int64?) (← (ofInt user).int64?) (← (ofFloat fee).float?)
          (← (ofFloat gross).float?) (← (ofFloat net).float?)
      | refunded id user fee => do
        return refunded (← (ofInt id).int64?) (← (ofInt user).int64?) (← (ofFloat fee).float?)
      | recomputed id user previousFee fee gross net => do
        return recomputed (← (ofInt id).int64?) (← (ofInt user).int64?)
          (← optional? float? (ofOption ofFloat previousFee)) (← (ofFloat fee).float?)
          (← (ofFloat gross).float?) (← (ofFloat net).float?)
      | cleared id user previousFee gross => do
        return cleared (← (ofInt id).int64?) (← (ofInt user).int64?)
          (← (ofFloat previousFee).float?) (← (ofFloat gross).float?)
      | planSaved user mode => do
        return planSaved (← (ofInt user).int64?) (← FeeMode.ofJson? true (.text mode.name)) := by
  cases event <;> rfl

theorem Kept.ofTagged? (kept : event.Kept) :
    FeeEvent.ofTagged? event.typeName (record (event.fieldsWith ofFloat)) = some event := by
  obtain ⟨user, payment, numbers⟩ := kept
  rw [ofTagged?_eq]
  cases event with
  | recomputed id _ previousFee fee gross net =>
    have previous : optional? Json.float? (ofOption ofFloat previousFee) = some previousFee :=
      optional?_ofOption (by simp_all [FeeEvent.numbers])
    simp_all [FeeEvent.user, FeeEvent.payment?, FeeEvent.numbers, int64?_ofInt, Survives.float?]
  | planSaved _ mode =>
    have name : FeeMode.ofJson? true (.text mode.name) = some mode := PlanRow.ofName?_name mode
    simp_all [FeeEvent.user, int64?_ofInt]
  | _ =>
    simp_all [FeeEvent.user, FeeEvent.payment?, FeeEvent.numbers, int64?_ofInt, Survives.float?]

theorem Kept.read? (kept : event.Kept) : FeeEvent.read? event.payload = some event := by
  rw [FeeEvent.read?, kept.read, Option.bind_eq_bind, Option.bind_some, kept.tagged?]
  exact kept.ofTagged?

end FeeEvent

/-- The columns of an entry say what its payload says: the tag, the user and the payment, if the
payload names one. -/
def LogEntry.MatchesPayload (entry : LogEntry Stamp) : Prop :=
  ∃ value, Json.read entry.payload = some value ∧
    value.member? "type" = some (.text entry.typeName) ∧
    (value.member? "user_id").bind int64? = some entry.user ∧
    (value.member? "payment_id").map int64? = entry.payment.map some

theorem FeeEvent.Kept.matchesPayload {event : FeeEvent} (kept : event.Kept) (id : Int)
    (now : Instant) : (event.entry id now).MatchesPayload := by
  have user := int64?_ofInt kept.user
  refine ⟨event.toJson, kept.read, rfl, ?_, ?_⟩
  · cases event <;> exact user
  · cases event with
    | planSaved => rfl
    | _ => exact congrArg some (int64?_ofInt (kept.payment _ rfl))

/-- An event whose ids are words and whose numbers survive being written is recorded in one entry,
which repeats in its columns the tag and the ids of its payload. The event is read from the payload
as it was, and no other such event has the same payload. -/
theorem FeeEvent.recorded_and_read {event : FeeEvent} (kept : event.Kept) (id : Int)
    (now : Instant) :
    let entry := event.entry id now
    entry.MatchesPayload ∧
      FeeEvent.read? entry.payload = some event ∧
      (∀ other : FeeEvent, other.Kept → other.payload = event.payload → other = event) ∧
      ∀ store : Store, store.book.hasTables = true → store.book.nextEntry = id →
        ∃ after, (Store.recordEvent now event).run store = (.ok (), after) ∧
          after.book.log = store.book.log ++ [entry] := by
  refine ⟨kept.matchesPayload id now, kept.read?, fun other also same => ?_, ?_⟩
  · have read := also.read?
    rw [same, kept.read?] at read
    exact (Option.some.inj read).symm
  · rintro store tables rfl
    exact ⟨_, Store.run_recordEvent tables now event, rfl⟩

theorem FeeEvent.recorded_and_read_extremes :
    let event : FeeEvent := .recomputed (-9223372036854775808) 9223372036854775807 (some 1.5e-7)
      (-0.0) 1e16 123456.789
    let entry := event.entry 1 ⟨0, 0⟩
    event.Kept ∧ entry.MatchesPayload ∧
      FeeEvent.read? entry.payload = some event ∧
      (∀ other : FeeEvent, other.Kept → other.payload = event.payload → other = event) ∧
      ∃ after, (Store.recordEvent ⟨0, 0⟩ event).run Store.fresh = (.ok (), after) ∧
        after.book.log = [entry] := by
  intro event entry
  have kept : event.Kept := by
    have words : IsWord event.user ∧ ∀ id ∈ event.payment?, IsWord id := by
      simp [event, IsWord, FeeEvent.user, FeeEvent.payment?, signedLimit]
    have numbers : ∀ v ∈ event.numbers, Json.read (ofFloat v).render >>= float? = some v := by
      decide +kernel
    exact ⟨words.1, words.2, numbers⟩
  obtain ⟨columns, read, unique, recorded⟩ := FeeEvent.recorded_and_read kept 1 ⟨0, 0⟩
  exact ⟨kept, columns, read, unique, recorded Store.fresh rfl rfl⟩

end PaymentFees
