import PaymentFees.Book.Basic
import PaymentFees.Proofs.Faults
import PaymentFees.Proofs.Json.Numbers

namespace PaymentFees

open Json

variable {α β : Type}

theorem insertByKey_append {key : String} {value : α} {entries : List (String × α)}
    (below : ∀ entry ∈ entries, entry.1 < key) :
    insertByKey key value entries = entries ++ [(key, value)] := by
  induction entries with
  | nil => rfl
  | cons entry entries ih =>
    obtain ⟨first, rest⟩ := List.forall_mem_cons.mp below
    rw [insertByKey, if_neg (String.lt_asymm first), if_neg first.ne', ih rest]
    rfl

namespace ByKey

theorem ext {first second : ByKey α} (same : first.entries = second.entries) : first = second := by
  cases first
  cases second
  cases same
  rfl

def map (f : α → β) (table : ByKey α) : ByKey β where
  entries := table.entries.map fun entry => (entry.1, f entry.2)
  ascending := List.pairwise_map.mpr table.ascending

theorem foldl_insert (entries : List (String × α)) (table : ByKey α)
    (ascending : (table.entries ++ entries).Pairwise (·.1 < ·.1)) :
    (entries.foldl (fun table (key, value) => table.insert key value) table).entries =
      table.entries ++ entries := by
  induction entries generalizing table with
  | nil => exact (List.append_nil _).symm
  | cons entry entries ih =>
    have below : ∀ other ∈ table.entries, other.1 < entry.1 := fun other present =>
      (List.pairwise_append.mp ascending).2.2 other present entry List.mem_cons_self
    have here : (table.insert entry.1 entry.2).entries = table.entries ++ [entry] :=
      insertByKey_append below
    have next := ih (table.insert entry.1 entry.2)
    rw [here, List.append_assoc] at next
    exact next ascending

theorem ofEntries_entries (table : ByKey α) : ofEntries table.entries = table := by
  apply ext
  exact foldl_insert table.entries empty table.ascending

end ByKey

section

variable {decode : Json → Option β} {encode : α → Json}

theorem mapM_some {f : α → Option β} {g : α → β} {values : List α}
    (each : ∀ value ∈ values, f value = some (g value)) :
    values.mapM f = some (values.map g) := by
  induction values with
  | nil => rfl
  | cons value values ih =>
    obtain ⟨first, rest⟩ := List.forall_mem_cons.mp each
    rw [List.mapM_cons, first, ih rest]
    rfl

theorem mapM_none {f : α → Option β} {values : List α} {value : α} (present : value ∈ values)
    (missing : f value = none) : values.mapM f = none := by
  induction values with
  | nil => cases present
  | cons head rest ih =>
    rw [List.mapM_cons]
    rcases List.mem_cons.mp present with rfl | later
    · rw [missing]
      rfl
    · rw [ih later]
      cases f head <;> rfl

theorem list?_ofList (values : List α) :
    list? decode (Json.ofList encode values) = values.mapM fun value => decode (encode value) := by
  unfold Json.ofList list?
  dsimp only
  rw [List.mapM_map]
  rfl

theorem entries?_record (members : List (String × Json)) :
    (record members).entries? decode =
      members.mapM fun member => return (member.1, ← decode member.2) := by
  unfold record entries?
  dsimp only
  rw [List.mapM_map]
  rfl

end

theorem writable_ofList {encode : α → Json} {values : List α}
    (each : ∀ value ∈ values, (encode value).Writable) : (Json.ofList encode values).Writable := by
  change WritableItems (values.map encode)
  induction values with
  | nil => trivial
  | cons value values ih =>
    obtain ⟨first, rest⟩ := List.forall_mem_cons.mp each
    exact ⟨first, ih rest⟩

theorem writable_record {members : List (String × Json)}
    (each : ∀ member ∈ members, member.2.Writable) : (record members).Writable := by
  change WritableMembers (members.map fun member => (some member.1, member.2))
  induction members with
  | nil => trivial
  | cons member members ih =>
    obtain ⟨first, rest⟩ := List.forall_mem_cons.mp each
    exact ⟨rfl, first, ih rest⟩

namespace ControlPoint

def reread (p : ControlPoint) : ControlPoint := ⟨Json.reread p.frequency, Json.reread p.fee⟩

def IsFinite (p : ControlPoint) : Prop := p.frequency.isFinite = true ∧ p.fee.isFinite = true

theorem toJson_writable (p : ControlPoint) : p.toJson.Writable :=
  ⟨rfl, ofFloat_writable _, rfl, ofFloat_writable _, trivial⟩

private theorem ofJson?_toJson (p : ControlPoint) : ofJson? p.toJson = do
    return ⟨← (ofFloat p.frequency).float?, ← (ofFloat p.fee).float?⟩ := rfl

theorem ofJson?_finite {p : ControlPoint} (finite : p.IsFinite) :
    ofJson? p.toJson = some p.reread := by
  rw [ofJson?_toJson, float?_ofFloat finite.1, float?_ofFloat finite.2]
  rfl

theorem ofJson?_infinite {p : ControlPoint} (infinite : ¬ p.IsFinite) :
    ofJson? p.toJson = none := by
  rw [ofJson?_toJson]
  cases frequency : p.frequency.isFinite with
  | false =>
    rw [float?_ofFloat_none frequency]
    rfl
  | true =>
    cases fee : p.fee.isFinite with
    | false =>
      rw [float?_ofFloat_none fee]
      cases (ofFloat p.frequency).float? <;> rfl
    | true => exact absurd ⟨frequency, fee⟩ infinite

theorem list?_finite {points : List ControlPoint} (finite : ∀ p ∈ points, p.IsFinite) :
    list? ofJson? (Json.ofList toJson points) = some (points.map reread) := by
  rw [list?_ofList]
  exact mapM_some fun p present => ofJson?_finite (finite p present)

theorem list?_infinite {points : List ControlPoint} {p : ControlPoint} (present : p ∈ points)
    (infinite : ¬ p.IsFinite) : list? ofJson? (Json.ofList toJson points) = none := by
  rw [list?_ofList]
  exact mapM_none present (ofJson?_infinite infinite)

end ControlPoint

namespace RangeFees

def reread (fees : RangeFees) : RangeFees where
  maxFee := fees.maxFee.map Json.reread
  coefficients := fees.coefficients.map (List.map Json.reread)
  points := fees.points.map (List.map ControlPoint.reread)

def HasFinitePoints (fees : RangeFees) : Prop := ∀ ps ∈ fees.points, ∀ p ∈ ps, p.IsFinite

theorem toJson_writable (fees : RangeFees) : fees.toJson.Writable := by
  have numbers (values : List Float) : (Json.ofList ofFloat values).Writable :=
    writable_ofList fun v _ => ofFloat_writable v
  have controls (points : List ControlPoint) : (Json.ofList ControlPoint.toJson points).Writable :=
    writable_ofList fun p _ => p.toJson_writable
  apply writable_record
  simp only [List.mem_append, List.mem_map, Option.mem_toList]
  rintro member ((⟨maxFee, -, rfl⟩ | ⟨coefficients, -, rfl⟩) | ⟨points, -, rfl⟩)
  · exact ofFloat_writable maxFee
  · exact numbers coefficients
  · exact controls points

theorem ofJson?_toJson (fees : RangeFees) : ofJson? fees.toJson = do
    return {
      maxFee := ← fees.maxFee.elim (some none) fun maxFee => optional? float? (ofFloat maxFee)
      coefficients := ← fees.coefficients.elim (some none) fun coefficients =>
        (list? float? (Json.ofList ofFloat coefficients)).map some
      points := ← fees.points.elim (some none) fun points =>
        (list? ControlPoint.ofJson? (Json.ofList ControlPoint.toJson points)).map some } := by
  obtain ⟨maxFee, coefficients, points⟩ := fees
  cases maxFee <;> cases coefficients <;> cases points <;> rfl

def HasFiniteCurve (fees : RangeFees) : Prop :=
  (∀ maxFee ∈ fees.maxFee, maxFee.isFinite = true) ∧
    ∀ coefficients ∈ fees.coefficients, ∀ c ∈ coefficients, c.isFinite = true

theorem optional?_ofFloat {v : Float} (finite : v.isFinite = true) :
    optional? float? (ofFloat v) = some (some (Json.reread v)) := by
  have read := float?_ofFloat finite
  cases written : ofFloat v with
  | number negative numeral =>
    rw [written] at read
    exact congrArg (Option.map some) read
  | null | bool | string | array | object =>
    rw [written] at read
    cases read

theorem list?_reread {values : List Float} (finite : ∀ v ∈ values, v.isFinite = true) :
    list? float? (Json.ofList ofFloat values) = some (values.map Json.reread) := by
  rw [list?_ofList]
  exact mapM_some fun v present => float?_ofFloat (finite v present)

theorem ofJson?_finite {fees : RangeFees} (curve : fees.HasFiniteCurve)
    (points : fees.HasFinitePoints) : ofJson? fees.toJson = some fees.reread := by
  have maxFee : (fees.maxFee.elim (some none) fun maxFee => optional? float? (ofFloat maxFee)) =
      some (fees.maxFee.map Json.reread) := by
    cases given : fees.maxFee with
    | none => rfl
    | some maxFee => exact optional?_ofFloat (curve.1 maxFee given)
  have coefficients : (fees.coefficients.elim (some none) fun coefficients =>
      (list? float? (Json.ofList ofFloat coefficients)).map some) =
      some (fees.coefficients.map (List.map Json.reread)) := by
    cases given : fees.coefficients with
    | none => rfl
    | some coefficients =>
      exact congrArg (Option.map some) (list?_reread (curve.2 coefficients given))
  have controls : (fees.points.elim (some none) fun points =>
      (list? ControlPoint.ofJson? (Json.ofList ControlPoint.toJson points)).map some) =
      some (fees.points.map (List.map ControlPoint.reread)) := by
    cases given : fees.points with
    | none => rfl
    | some ps => exact congrArg (Option.map some) (ControlPoint.list?_finite (points ps given))
  rw [ofJson?_toJson, maxFee, coefficients, controls]
  rfl

theorem ofJson?_infinite {fees : RangeFees} (infinite : ¬ fees.HasFinitePoints) :
    ofJson? fees.toJson = none := by
  simp only [HasFinitePoints, not_forall] at infinite
  obtain ⟨points, given, p, present, infinite⟩ := infinite
  have controls : (fees.points.elim (some none) fun points =>
      (list? ControlPoint.ofJson? (Json.ofList ControlPoint.toJson points)).map some) = none := by
    rw [Option.mem_def.mp given]
    exact congrArg (Option.map some) (ControlPoint.list?_infinite present infinite)
  rw [ofJson?_toJson, controls]
  simp

end RangeFees

theorem ranges_writable (ranges : ByKey RangeFees) : (rangesToJson ranges).Writable := by
  apply writable_record
  intro member present
  obtain ⟨entry, -, rfl⟩ := List.mem_map.mp present
  exact entry.2.toJson_writable

theorem rangesOfJson?_rangesToJson (ranges : ByKey RangeFees) :
    rangesOfJson? (rangesToJson ranges) =
      (ranges.entries.mapM fun entry : String × RangeFees =>
        return (entry.1, ← RangeFees.ofJson? entry.2.toJson)).map ByKey.ofEntries := by
  unfold rangesOfJson? rangesToJson
  rw [entries?_record, List.mapM_map]
  rfl

namespace FeePlan

def reread (plan : FeePlan) : FeePlan where
  mode := plan.mode
  formulaText := plan.formulaText
  amountTable := plan.amountTable.map Json.reread
  ranges := plan.ranges.map RangeFees.reread

def HasFinitePoints (plan : FeePlan) : Prop :=
  ∀ entry ∈ plan.ranges.entries, entry.2.HasFinitePoints

theorem rangesOfJson?_finite {plan : FeePlan}
    (curves : ∀ entry ∈ plan.ranges.entries, entry.2.HasFiniteCurve)
    (points : plan.HasFinitePoints) :
    rangesOfJson? (rangesToJson plan.ranges) = some plan.reread.ranges := by
  rw [rangesOfJson?_rangesToJson]
  have each : ∀ entry ∈ plan.ranges.entries,
      (do return (entry.1, ← RangeFees.ofJson? entry.2.toJson) : Option (String × RangeFees)) =
        some (entry.1, entry.2.reread) := by
    intro entry present
    rw [RangeFees.ofJson?_finite (curves entry present) (points entry present)]
    rfl
  rw [mapM_some each]
  exact congrArg some (ByKey.ofEntries_entries (plan.ranges.map RangeFees.reread))

theorem rangesOfJson?_infinite {plan : FeePlan} (infinite : ¬ plan.HasFinitePoints) :
    rangesOfJson? (rangesToJson plan.ranges) = none := by
  simp only [HasFinitePoints, not_forall] at infinite
  obtain ⟨entry, present, infinite⟩ := infinite
  have missing : (do return (entry.1, ← RangeFees.ofJson? entry.2.toJson) :
      Option (String × RangeFees)) = none := by
    rw [RangeFees.ofJson?_infinite infinite]
    rfl
  rw [rangesOfJson?_rangesToJson, mapM_none present missing]
  rfl

theorem isFinite_of_isMagnitude {v : Float} (magnitude : isMagnitude v = true) :
    v.isFinite = true :=
  (Bool.and_eq_true_iff.mp magnitude).1

theorem hasFiniteCurve_of_checkRange {key : String} {fees : RangeFees}
    (accepted : checkRange key fees = .ok ()) : fees.HasFiniteCurve := by
  unfold checkRange at accepted
  split at accepted
  · cases accepted
  next shares =>
  split at accepted
  · cases accepted
  next curve =>
  constructor
  · intro maxFee given
    rw [Option.mem_def.mp given] at shares
    apply isFinite_of_isMagnitude
    simpa using shares
  · intro coefficients given c present
    rw [Option.mem_def.mp given] at curve
    simp only [Option.any_some, List.any_eq_true, not_exists, not_and] at curve
    simpa using curve c present

theorem isFinite_of_check {plan : FeePlan} (accepted : plan.check = .ok ()) :
    (∀ bound ∈ plan.amountTable, bound.isFinite = true) ∧
      ∀ entry ∈ plan.ranges.entries, entry.2.HasFiniteCurve := by
  obtain ⟨-, ascending, ranges⟩ := check_ok accepted
  refine ⟨fun bound present => ?_, fun entry present => ?_⟩
  · exact isFinite_of_isMagnitude (ascending.magnitudes bound present)
  · exact hasFiniteCurve_of_checkRange (ranges entry present)

end FeePlan

theorem map_eq_self_iff {α : Type} {f : α → α} {values : List α} :
    values.map f = values ↔ ∀ value ∈ values, f value = value := by
  induction values with
  | nil => simp
  | cons value values ih => simp [ih]

namespace ControlPoint

def numbers (p : ControlPoint) : List Float := [p.frequency, p.fee]

theorem reread_eq_iff {p : ControlPoint} : p.reread = p ↔ ∀ v ∈ p.numbers, Json.reread v = v := by
  obtain ⟨frequency, fee⟩ := p
  simp [reread, numbers]

end ControlPoint

namespace RangeFees

def numbers (fees : RangeFees) : List Float :=
  fees.maxFee.toList ++ fees.coefficients.getD [] ++
    (fees.points.getD []).flatMap ControlPoint.numbers

theorem reread_eq_iff {fees : RangeFees} :
    fees.reread = fees ↔ ∀ v ∈ fees.numbers, Json.reread v = v := by
  have parts : fees.reread = fees ↔ fees.maxFee.map Json.reread = fees.maxFee ∧
      fees.coefficients.map (List.map Json.reread) = fees.coefficients ∧
      fees.points.map (List.map ControlPoint.reread) = fees.points := by
    obtain ⟨maxFee, coefficients, points⟩ := fees
    simp [reread]
  unfold numbers
  rw [parts, List.forall_mem_append, List.forall_mem_append, List.forall_mem_flatMap, and_assoc]
  refine and_congr ?_ (and_congr ?_ ?_)
  · cases fees.maxFee <;> simp
  · cases fees.coefficients with
    | none => simp
    | some coefficients => simp [map_eq_self_iff]
  · cases fees.points with
    | none => simp
    | some points => simp [map_eq_self_iff, ControlPoint.reread_eq_iff]

end RangeFees

namespace FeePlan

def numbers (plan : FeePlan) : List Float :=
  plan.amountTable ++ plan.ranges.entries.flatMap fun entry => entry.2.numbers

theorem reread_eq_iff {plan : FeePlan} :
    plan.reread = plan ↔ ∀ v ∈ plan.numbers, Json.reread v = v := by
  have parts : plan.reread = plan ↔ plan.amountTable.map Json.reread = plan.amountTable ∧
      plan.ranges.entries.map (fun entry => (entry.1, entry.2.reread)) = plan.ranges.entries := by
    obtain ⟨mode, formulaText, amountTable, ⟨entries, ascending⟩⟩ := plan
    simp [reread, ByKey.map]
  unfold numbers
  rw [parts, List.forall_mem_append, List.forall_mem_flatMap, map_eq_self_iff, map_eq_self_iff]
  refine and_congr Iff.rfl (forall₂_congr fun entry _ => ?_)
  rw [← RangeFees.reread_eq_iff, Prod.ext_iff]
  simp

end FeePlan

namespace PlanRow

variable {user : UserId} {plan : FeePlan} {now : Instant}

theorem read_bounds (bounds : List Float) :
    Json.read (boundsToJson bounds).render = some (boundsToJson bounds) :=
  read_render (writable_ofList fun v _ => ofFloat_writable v)

theorem read_ranges (ranges : ByKey RangeFees) :
    Json.read (rangesToJson ranges).render = some (rangesToJson ranges) :=
  read_render (ranges_writable ranges)

theorem ofName?_name (mode : FeeMode) : FeeMode.ofName? mode.name = some mode := by
  cases mode <;> rfl

/-- How a saved plan is read, `created` being the time at which the user first saved one. -/
theorem read_ofPlan (accepted : plan.check = .ok ()) {created : Instant}
    (dated : stamp now = some now) :
    read { ofStored (.ofPlan user plan now) with createdAt := some created } =
      (decoded (rangesOfJson? (rangesToJson plan.ranges))).map fun ranges =>
        { StoredPlan.ofPlan user plan.reread now with ranges, createdAt := created } := by
  have bounds : boundsOfJson? (boundsToJson plan.amountTable) = some plan.reread.amountTable :=
    RangeFees.list?_reread (FeePlan.isFinite_of_check accepted).1
  unfold read ofStored StoredPlan.ofPlan
  dsimp only
  rw [dated, ofName?_name, read_bounds, read_ranges]
  simp only [Option.bind_eq_bind, Option.bind_some, bounds]
  cases rangesOfJson? (rangesToJson plan.ranges) <;> rfl

end PlanRow

end PaymentFees
