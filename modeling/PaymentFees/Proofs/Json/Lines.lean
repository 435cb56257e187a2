import PaymentFees.CommandLine.Command
import PaymentFees.Proofs.Json.Plans
import PaymentFees.Proofs.Transactions

namespace PaymentFees

namespace Json

/-- The text has no character below the blank, so it does not break its line. -/
def Unbroken (cs : List Char) : Prop := ∀ c ∈ cs, 0x20 ≤ c.toNat

@[simp] theorem unbroken_nil : Unbroken [] := by simp [Unbroken]

@[simp] theorem unbroken_cons {c : Char} {cs : List Char} :
    Unbroken (c :: cs) ↔ 0x20 ≤ c.toNat ∧ Unbroken cs := List.forall_mem_cons

@[simp] theorem unbroken_append {first second : List Char} :
    Unbroken (first ++ second) ↔ Unbroken first ∧ Unbroken second := List.forall_mem_append

theorem Unbroken.newline_notMem {cs : List Char} (unbroken : Unbroken cs) : '\n' ∉ cs :=
  fun present => absurd (unbroken '\n' present) (by decide)

theorem unbroken_digits {digits : List Char} (all : ∀ c ∈ digits, c.isDigit = true) :
    Unbroken digits := by
  intro c present
  have digit := all c present
  simp only [Char.isDigit, Bool.and_eq_true, decide_eq_true_eq] at digit
  have least : 48 ≤ c.toNat := digit.1
  omega

theorem unbroken_escape (c : Char) : Unbroken (escape c) := by
  have hexadecimal : ∀ code < 0x20, 0x20 ≤ (Nat.digitChar (code / 16)).toNat ∧
      0x20 ≤ (Nat.digitChar (code % 16)).toNat := by decide
  unfold escape
  split
  · simp
  · simp
  · simp
  · simp
  · simp
  · split_ifs with backspace feed control
    · simp
    · simp
    · rw [hexDigits_four _ control]
      simp [hexadecimal _ control]
    · simpa using control

theorem unbroken_writeString (cs : List Char) : Unbroken (writeString cs) := by
  have inside : Unbroken (cs.flatMap escape) := by
    intro c present
    obtain ⟨d, -, escaped⟩ := List.mem_flatMap.mp present
    exact unbroken_escape d c escaped
  simp [writeString, inside]

theorem unbroken_writeNumeral {n : Numeral} (plain : n.Plain) : Unbroken (writeNumeral n) := by
  have whole := unbroken_digits plain.whole
  have fraction := unbroken_digits plain.fraction
  have power (e : Int) : Unbroken (Nat.toDigits 10 e.natAbs) :=
    unbroken_digits fun _ => Decimal.isDigit_toDigits
  unfold writeNumeral
  refine unbroken_append.mpr ⟨unbroken_append.mpr ⟨whole, ?_⟩, ?_⟩
  · split <;> simp [fraction]
  · split
    · simp
    · split <;> simp [power]

mutual

theorem unbroken_write : ∀ value : Json, value.Writable → Unbroken value.write
  | .null, _ => by simp [write]
  | .bool true, _ => by simp [write]
  | .bool false, _ => by simp [write]
  | .number false numeral, plain => unbroken_writeNumeral plain
  | .number true numeral, plain => by
    have digits := unbroken_writeNumeral plain
    simp [write, digits]
  | .string text, _ => unbroken_writeString _
  | .array items, writable => by
    have inside := unbroken_writeItems items writable
    simp [write, inside]
  | .object members, writable => by
    have inside := unbroken_writeMembers members writable
    simp [write, inside]

theorem unbroken_writeItems : ∀ items, WritableItems items → Unbroken (writeItems items)
  | [], _ => unbroken_nil
  | [item], writable => unbroken_write item writable.1
  | item :: next :: items, writable => by
    have first := unbroken_write item writable.1
    have others := unbroken_writeItems (next :: items) writable.2
    simp [writeItems, first, others]

theorem unbroken_writeMembers :
    ∀ members, WritableMembers members → Unbroken (writeMembers members)
  | [], _ => unbroken_nil
  | [(key, value)], writable => by
    have name := unbroken_writeString (key.getD "").toList
    have first := unbroken_write value writable.2.1
    simp [writeMembers, name, first]
  | (key, value) :: next :: members, writable => by
    have name := unbroken_writeString (key.getD "").toList
    have first := unbroken_write value writable.2.1
    have others := unbroken_writeMembers (next :: members) writable.2.2
    simp [writeMembers, name, first, others]

end

theorem newline_notMem_render {value : Json} (writable : value.Writable) :
    '\n' ∉ value.render.toList := by
  unfold render
  rw [String.toList_ofList]
  exact (unbroken_write value writable).newline_notMem

theorem ofInt_writable (value : Int) : (ofInt value).Writable := by
  refine ⟨fun c present => Decimal.isDigit_toDigits present, by simp, Nat.toDigits_ne_nil, ?_⟩
  intro zero
  rcases Nat.eq_zero_or_pos value.natAbs with none | some
  · rw [none]
    rfl
  · exact absurd zero (head_toDigits some)

theorem ofOption_writable {α : Type} {encode : α → Json}
    (each : ∀ value, (encode value).Writable) (value : Option α) :
    (ofOption encode value).Writable := by
  cases value with
  | none => trivial
  | some value => exact each value

end Json

open Json

theorem FeePlan.toJson_writable (plan : FeePlan) : plan.toJson.Writable := by
  have bounds : (boundsToJson plan.amountTable).Writable :=
    writable_ofList fun v _ => ofFloat_writable v
  apply writable_record
  simp only [List.forall_mem_cons, List.not_mem_nil, false_implies, implies_true, and_true]
  exact ⟨rfl, rfl, bounds, ranges_writable plan.ranges⟩

namespace CommandLine.Command

theorem paymentToJson_writable (entry : Payment Instant × Option Float) :
    (paymentToJson entry).Writable := by
  obtain ⟨p, fee⟩ := entry
  have description (text : String) : (Json.text text).Writable := rfl
  apply writable_record
  simp only [List.forall_mem_cons, List.not_mem_nil, false_implies, implies_true, and_true]
  exact ⟨ofInt_writable _, ofInt_writable _, ofFloat_writable _,
    ofOption_writable description _, rfl, ofOption_writable ofFloat_writable _⟩

theorem recordToJson_writable (r : FeeRecord Instant) : (recordToJson r).Writable := by
  apply writable_record
  simp only [List.forall_mem_cons, List.not_mem_nil, false_implies, implies_true, and_true]
  exact ⟨ofInt_writable _, ofInt_writable _, ofFloat_writable _, ofFloat_writable _, rfl, rfl⟩

theorem writable_encoded {α : Type} {encode : α → Json} {x : Action α} {store after : Store}
    {value : Json} (each : ∀ found, (encode found).Writable)
    (returned : (do return encode (← x) : Action Json).run store = (.ok value, after)) :
    value.Writable := by
  obtain ⟨found, mid, -, done⟩ := Action.run_bind_ok returned
  cases done
  exact each found

theorem respond_writable {config : Config} {now : Instant} {command : Command}
    {store after : Store} {value : Json}
    (returned : (command.respond config now).run store = (.ok value, after)) : value.Writable := by
  have number (name : String) (v : Float) : (record [(name, ofFloat v)]).Writable :=
    writable_record (by simpa using ofFloat_writable v)
  cases command with
  | getPlan user => exact writable_encoded (fun plan => plan.toJson_writable) returned
  | savePlan user plan =>
    exact writable_encoded (fun stored => stored.plan.toJson_writable) returned
  | checkFormula text =>
    cases returned
    exact ⟨rfl, trivial, trivial⟩
  | fitRange points maxFee =>
    cases returned
    exact RangeFees.toJson_writable _
  | quote user amount => exact writable_encoded (fun fee => number _ fee) returned
  | recordPayment user amount description =>
    refine writable_encoded (fun receipt => writable_record ?_) returned
    simp only [List.forall_mem_cons, List.not_mem_nil, false_implies, implies_true, and_true]
    exact ⟨ofInt_writable _, ofFloat_writable _, ofFloat_writable _, ofFloat_writable _⟩
  | updatePayment payment amount =>
    refine writable_encoded (fun outcome => writable_record ?_) returned
    simp only [List.forall_mem_cons, List.not_mem_nil, false_implies, implies_true, and_true]
    exact ⟨ofFloat_writable _, ofFloat_writable _⟩
  | deletePayment payment => exact writable_encoded (fun fee => number _ fee) returned
  | listPayments user =>
    exact writable_encoded (fun _ => writable_ofList fun _ _ => paymentToJson_writable _) returned
  | listRecords user =>
    exact writable_encoded (fun _ => writable_ofList fun _ _ => recordToJson_writable _) returned
  | quit =>
    cases returned
    trivial

end CommandLine.Command

end PaymentFees
