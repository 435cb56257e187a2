import PaymentFees.Proofs.FeeBound

namespace PaymentFees.Quote

open Binary

/-- The plan's fee for a payment of this size depends on the frequency in this range. -/
inductive Needs (plan : StoredPlan) (size : Float) : AmountRange → Prop
  | formula {text : String} (mode : plan.mode = .formula) (kept : plan.formulaText = some text)
      (nonempty : text.isEmpty = false) : Needs plan size .all
  | table {range : AmountRange} {fees : RangeFees} {coefficients : List Float}
      (mode : plan.mode = .table) (filled : plan.isUnconfigured = false)
      (located : plan.locate? size = some range) (priced : plan.feesFor? range = some fees)
      (curve : fees.coefficients = some coefficients) : Needs plan size range

def rawAt (config : Config) (plan : StoredPlan) (size frequency : Float) : Float :=
  Id.run (rawFee config ⟨fun _ => pure none, fun _ _ => pure frequency⟩ plan size)

section

variable {config : Config} {plan : StoredPlan} {size : Float} {range range' : AmountRange}

theorem Needs.unique (needs : Needs plan size range) (also : Needs plan size range') :
    range = range' := by
  cases needs with
  | formula mode =>
    cases also with
    | formula => rfl
    | table mode' => simp [mode] at mode'
  | table mode _ located =>
    cases also with
    | formula mode' => simp [mode] at mode'
    | table _ _ located' => simpa [located] using located'

theorem rawAt_formula {text : String} (mode : plan.mode = .formula)
    (kept : plan.formulaText = some text) (nonempty : text.isEmpty = false) (frequency : Float) :
    rawAt config plan size frequency =
      ((Formula.valueOf? text size frequency).map Float.abs).getD 0.0 := by
  simp only [rawAt, rawFee, mode, formulaFee, kept, nonempty]
  rfl

theorem rawAt_table {maxFee : Option Float} {coefficients : List Float}
    {points : Option (List ControlPoint)} (mode : plan.mode = .table)
    (filled : plan.isUnconfigured = false) (located : plan.locate? size = some range)
    (priced : plan.feesFor? range = some ⟨maxFee, some coefficients, points⟩) (frequency : Float) :
    rawAt config plan size frequency =
      size * clampShare (maxFee.getD config.defaultMaxFee)
        (Curve.evaluate coefficients frequency) := by
  simp only [rawAt, rawFee, mode, tableFee, filled, located, priced]
  rfl

variable {m : Type → Type} [Monad m] [LawfulMonad m] {sources : Sources m}

theorem rawFee_of_needs (needs : Needs plan size range) :
    rawFee config sources plan size =
      rawAt config plan size <$> sources.frequency plan.user range := by
  cases needs with
  | formula mode kept nonempty =>
    simp [rawFee, mode, formulaFee, kept, nonempty, funext (rawAt_formula mode kept nonempty)]
  | @table _ fees coefficients mode filled located priced curve =>
    obtain ⟨maxFee, curves, points⟩ := fees
    cases curve
    simp [rawFee, mode, tableFee, filled, located, priced,
      funext (rawAt_table mode filled located priced)]

omit [LawfulMonad m] in
theorem rawFee_of_not_needs (unneeded : ∀ range, ¬ Needs plan size range) :
    rawFee config sources plan size = pure 0.0 := by
  cases mode : plan.mode with
  | formula =>
    simp only [rawFee, mode, formulaFee]
    split
    · rfl
    · next text kept =>
      split
      · rfl
      · next nonempty => exact absurd (.formula mode kept (by simpa using nonempty)) (unneeded _)
  | table =>
    simp only [rawFee, mode, tableFee]
    split
    · rfl
    · next filled =>
      split
      · rfl
      · next located =>
        split
        · next priced =>
          exact absurd (.table mode (by simpa using filled) located priced rfl) (unneeded _)
        · rfl

theorem rawFee_cases (config : Config) (sources : Sources m) (plan : StoredPlan) (size : Float) :
    (∃ range, rawFee config sources plan size =
        rawAt config plan size <$> sources.frequency plan.user range) ∨
      rawFee config sources plan size = pure 0.0 := by
  by_cases needs : ∃ range, Needs plan size range
  · obtain ⟨range, needs⟩ := needs
    exact .inl ⟨range, rawFee_of_needs needs⟩
  · exact .inr (rawFee_of_not_needs (not_exists.mp needs))

end

theorem roundCents_zero (rounding : Rounding) : roundCents rounding 0.0 = 0.0 := by
  cases rounding <;> decide +kernel

theorem settle_zero (config : Config) {amount : Float} (finite : amount.isFinite = true) :
    settle config amount.abs 0.0 = 0.0 := by
  obtain ⟨q, read⟩ := extent_abs finite
  have least : (if 0.0 < amount.abs then 0.0 else amount.abs) = 0.0 := by
    split
    · rfl
    · next notAbove =>
      rw [extent_zero.lt_iff read, not_lt] at notAbove
      have zero : q = 0 := le_antisymm (WithTop.coe_le_coe.mp notAbove) read.range.1
      exact eq_of_unpack (Stands.unique read extent_zero zero)
  have notAbove : ¬ amount.abs < 0.0 := not_abs_lt amount
  have zero : (0.0 : Float).isFinite = true := by decide
  simp [settle, zero, least, roundCents_zero, notAbove]

theorem settle_of_not_finite (config : Config) (size : Float) {raw : Float}
    (infinite : raw.isFinite = false) : settle config size raw = 0.0 := by
  simp [settle, infinite]

def clamp? (low high value : Float) : Option Float :=
  if low ≤ high then some (if value < low then low else if high < value then high else value)
  else none

def ceiling (limit : Float) : Float := if 0.0 < limit then limit else 0.0

theorem zero_le_ceiling (limit : Float) : 0.0 ≤ ceiling limit := by
  unfold ceiling
  split
  · next positive =>
    obtain ⟨a, read, -⟩ := extent_of_lt positive
    exact Unsigned.le ⟨a, read⟩
  · decide

theorem clamp?_ceiling (limit share : Float) :
    clamp? 0.0 (ceiling limit) share = some (clampShare limit share) := by
  rw [clamp?, if_pos (zero_le_ceiling limit)]
  rfl

def Question.Fails (sources : Sources (Except Failure)) (failure : Failure) : Question → Prop
  | .plan user => sources.plan user = .error failure
  | .frequency user range => sources.frequency user range = .error failure

theorem run_ask_bind {α β : Type} (question : Question) (answer : Except Failure α)
    (next : α → Asking β) (asked : List Question) :
    (ask question answer >>= next).run.run asked =
      match answer with
      | .ok value => (next value).run.run (asked ++ [question])
      | .error failure => (.error failure, asked ++ [question]) := by
  cases answer <;> rfl

section

variable {config : Config} {sources : Sources (Except Failure)} {user : UserId} {amount : Float}

theorem feeAndQuestions_of_not_finite (infinite : amount.isFinite = false) :
    feeAndQuestions config sources user amount = (.ok 0.0, []) := by
  simp only [feeAndQuestions, fee, infinite]
  rfl

variable (finite : amount.isFinite = true)
include finite

theorem feeAndQuestions_of_error {failure : Failure} (failed : sources.plan user = .error failure) :
    feeAndQuestions config sources user amount = (.error failure, [.plan user]) := by
  rw [feeAndQuestions, fee_eq_settle _ _ _ finite]
  exact (run_ask_bind _ _ _ _).trans (by rw [failed]; rfl)

theorem feeAndQuestions_of_none (absent : sources.plan user = .ok none) :
    feeAndQuestions config sources user amount = (.ok 0.0, [.plan user]) := by
  rw [feeAndQuestions, fee_eq_settle _ _ _ finite]
  exact (run_ask_bind _ _ _ _).trans (by rw [absent]; rfl)

variable {plan : StoredPlan} (found : sources.plan user = .ok (some plan))
include found

theorem feeAndQuestions_of_not_needs (unneeded : ∀ range, ¬ Needs plan amount.abs range) :
    feeAndQuestions config sources user amount = (.ok 0.0, [.plan user]) := by
  rw [feeAndQuestions, fee_eq_settle _ _ _ finite]
  refine (run_ask_bind _ _ _ _).trans ?_
  rw [found]
  dsimp only
  rw [rawFee_of_not_needs unneeded, pure_bind, settle_zero config finite]
  rfl

theorem feeAndQuestions_of_needs {range : AmountRange} (needs : Needs plan amount.abs range) :
    feeAndQuestions config sources user amount =
      ((sources.frequency plan.user range).map fun frequency =>
          settle config amount.abs (rawAt config plan amount.abs frequency),
        [.plan user, .frequency plan.user range]) := by
  rw [feeAndQuestions, fee_eq_settle _ _ _ finite]
  refine (run_ask_bind _ _ _ _).trans ?_
  rw [found]
  dsimp only
  rw [rawFee_of_needs needs, bind_map_left]
  refine (run_ask_bind _ _ _ _).trans ?_
  cases sources.frequency plan.user range <;> rfl

end

/-- How the fee of a payment of this size comes about. -/
inductive Course (config : Config) (sources : Sources (Except Failure)) (user : UserId)
    (size : Float) : Except Failure Float × List Question → Prop
  | unread {failure : Failure} (failed : sources.plan user = .error failure) :
    Course config sources user size (.error failure, [.plan user])
  | noPlan (absent : sources.plan user = .ok none) :
    Course config sources user size (.ok 0.0, [.plan user])
  | unneeded {plan : StoredPlan} (found : sources.plan user = .ok (some plan))
      (unneeded : ∀ range, ¬ Needs plan size range) :
    Course config sources user size (.ok 0.0, [.plan user])
  | asked {plan : StoredPlan} {range : AmountRange} (found : sources.plan user = .ok (some plan))
      (needs : Needs plan size range) :
    Course config sources user size
      ((sources.frequency plan.user range).map fun frequency =>
          settle config size (rawAt config plan size frequency),
        [.plan user, .frequency plan.user range])

section

variable {config : Config} {sources : Sources (Except Failure)} {user : UserId}

theorem course {amount : Float} (finite : amount.isFinite = true) :
    Course config sources user amount.abs (feeAndQuestions config sources user amount) := by
  cases found : sources.plan user with
  | error failure =>
    rw [feeAndQuestions_of_error finite found]
    exact .unread found
  | ok kept =>
    cases kept with
    | none =>
      rw [feeAndQuestions_of_none finite found]
      exact .noPlan found
    | some plan =>
      by_cases needs : ∃ range, Needs plan amount.abs range
      · obtain ⟨range, needs⟩ := needs
        rw [feeAndQuestions_of_needs finite found needs]
        exact .asked found needs
      · rw [not_exists] at needs
        rw [feeAndQuestions_of_not_needs finite found needs]
        exact .unneeded found needs

variable {size : Float} {result : Except Failure Float × List Question}
  (course : Course config sources user size result)
include course

theorem Course.questions : ∃ rest, result.2 = .plan user :: rest ∧ rest.length ≤ 1 ∧
    ∀ question, question ∈ rest ↔
      ∃ plan range, sources.plan user = .ok (some plan) ∧ Needs plan size range ∧
        question = .frequency plan.user range := by
  cases course with
  | unread failed => exact ⟨[], rfl, by simp, by simp [failed]⟩
  | noPlan absent => exact ⟨[], rfl, by simp, by simp [absent]⟩
  | unneeded found unneeded => exact ⟨[], rfl, by simp, by simp [found, unneeded]⟩
  | @asked plan range found needs =>
    refine ⟨[.frequency plan.user range], rfl, by simp, fun question => ?_⟩
    rw [List.mem_singleton]
    constructor
    · exact fun same => ⟨plan, range, found, needs, same⟩
    · rintro ⟨other, needed, there, also, rfl⟩
      rw [found] at there
      cases there
      rw [needs.unique also]

theorem Course.error_iff (failure : Failure) :
    result.1 = .error failure ↔ ∃ question ∈ result.2, question.Fails sources failure := by
  cases course with
  | unread failed => simp [Question.Fails, failed]
  | noPlan absent => simp [Question.Fails, absent]
  | unneeded found => simp [Question.Fails, found]
  | @asked plan range found =>
    cases answer : sources.frequency plan.user range <;>
      simp [Question.Fails, found, answer, Except.map]

end

theorem feeAndQuestions_fst (config : Config) (sources : Sources (Except Failure)) (user : UserId)
    (amount : Float) :
    (feeAndQuestions config sources user amount).1 = fee config sources user amount := by
  cases finite : amount.isFinite with
  | false =>
    rw [feeAndQuestions_of_not_finite finite]
    simp only [fee, finite]
    rfl
  | true =>
    have course : Course config sources user amount.abs _ := course finite
    generalize feeAndQuestions config sources user amount = result at course ⊢
    rw [fee_eq_settle _ _ _ finite]
    cases course with
    | unread failed =>
      rw [failed]
      rfl
    | noPlan absent =>
      rw [absent]
      rfl
    | unneeded found unneeded =>
      rw [found]
      dsimp only [bind, Except.bind]
      rw [rawFee_of_not_needs unneeded]
      exact congrArg Except.ok (settle_zero config finite).symm
    | @asked plan range found needs =>
      rw [found]
      dsimp only [bind, Except.bind]
      rw [rawFee_of_needs needs]
      cases sources.frequency plan.user range <;> rfl

/-- Why a fee is zero under all settings: there is no plan, the plan says nothing usable for this
size, its formula has no value there, or the fee is not finite. -/
inductive Unpriced (config : Config) (sources : Sources (Except Failure)) (user : UserId)
    (size : Float) : Prop
  | noPlan (absent : sources.plan user = .ok none)
  | nothingUsable {plan : StoredPlan} (found : sources.plan user = .ok (some plan))
      (unneeded : ∀ range, ¬ Needs plan size range)
  | noValue {plan : StoredPlan} {text : String} {frequency : Float}
      (found : sources.plan user = .ok (some plan)) (mode : plan.mode = .formula)
      (kept : plan.formulaText = some text) (nonempty : text.isEmpty = false)
      (answered : sources.frequency plan.user .all = .ok frequency)
      (valueless : Formula.valueOf? text size frequency = none)
  | notFinite {plan : StoredPlan} {range : AmountRange} {frequency : Float}
      (found : sources.plan user = .ok (some plan)) (needs : Needs plan size range)
      (answered : sources.frequency plan.user range = .ok frequency)
      (infinite : (rawAt config plan size frequency).isFinite = false)

theorem Unpriced.result {config : Config} {sources : Sources (Except Failure)} {user : UserId}
    {amount : Float} (unpriced : Unpriced config sources user amount.abs)
    (finite : amount.isFinite = true) :
    (feeAndQuestions config sources user amount).1 = .ok 0.0 := by
  cases unpriced with
  | noPlan absent => rw [feeAndQuestions_of_none finite absent]
  | nothingUsable found unneeded => rw [feeAndQuestions_of_not_needs finite found unneeded]
  | noValue found mode kept nonempty answered valueless =>
    rw [feeAndQuestions_of_needs finite found (.formula mode kept nonempty), answered]
    have free : ((none : Option Float).map Float.abs).getD 0.0 = 0.0 := rfl
    simp only [Except.map, rawAt_formula mode kept nonempty, valueless, free,
      settle_zero config finite]
  | notFinite found needs answered infinite =>
    rw [feeAndQuestions_of_needs finite found needs, answered]
    simp only [Except.map, settle_of_not_finite config _ infinite]

/-- A fee fails only if one of its questions does. An amount that is not finite costs nothing and
asks nothing. For any other the plan of the user is asked for once and first, and then, exactly if
the plan needs the frequency in some range, that frequency of the plan's owner and nothing else. If
the answers are no failures there is a fee. Noting the questions does not change the fee, and the
bounds that a share is held between are in order under every limit. -/
theorem fee_questions (config : Config) (sources : Sources (Except Failure)) (user : UserId)
    (amount : Float) :
    let result := feeAndQuestions config sources user amount
    result.1 = fee config sources user amount ∧
      (amount.isFinite = false → result = (.ok 0.0, [])) ∧
      (amount.isFinite = true →
        (∃ rest, result.2 = .plan user :: rest ∧ rest.length ≤ 1 ∧
          ∀ question, question ∈ rest ↔
            ∃ plan range, sources.plan user = .ok (some plan) ∧ Needs plan amount.abs range ∧
              question = .frequency plan.user range) ∧
        (∀ failure, result.1 = .error failure ↔
          ∃ question ∈ result.2, question.Fails sources failure) ∧
        (∀ plan range frequency, sources.plan user = .ok (some plan) →
          Needs plan amount.abs range → sources.frequency plan.user range = .ok frequency →
          result.1 = .ok (settle config amount.abs (rawAt config plan amount.abs frequency))) ∧
        (Unpriced config sources user amount.abs → result.1 = .ok 0.0)) ∧
      ∀ limit share, clamp? 0.0 (ceiling limit) share = some (clampShare limit share) := by
  intro result
  refine ⟨feeAndQuestions_fst config sources user amount, feeAndQuestions_of_not_finite,
    fun finite => ?_, clamp?_ceiling⟩
  · have course : Course config sources user amount.abs result := course finite
    refine ⟨course.questions, course.error_iff, fun plan range frequency found needs answered => ?_,
      fun unpriced => unpriced.result finite⟩
    change (feeAndQuestions config sources user amount).1 = _
    rw [feeAndQuestions_of_needs finite found needs, answered]
    rfl

def sharedPlan : StoredPlan := ⟨2, .formula, some "x * y", [0.0], .empty, ⟨0, 0⟩, ⟨0, 0⟩⟩

def sharedSources : Sources (Except Failure) :=
  ⟨fun _ => .ok (some sharedPlan), fun _ _ => .ok 0.25⟩

theorem fee_questions_shared :
    let result := feeAndQuestions .standard sharedSources 1 (-20.0)
    (-20.0 : Float).isFinite = true ∧ Needs sharedPlan (-20.0 : Float).abs .all ∧
      result.1 = .ok 5.0 ∧
      ∃ rest, result.2 = .plan 1 :: rest ∧ Question.frequency 2 .all ∈ rest := by
  intro result
  have finite : (-20.0 : Float).isFinite = true := by decide +kernel
  have needs : Needs sharedPlan (-20.0 : Float).abs .all := .formula rfl rfl (by decide)
  obtain ⟨-, -, whole, -⟩ := fee_questions .standard sharedSources 1 (-20.0)
  obtain ⟨⟨rest, questions, -, asked⟩, -, priced, -⟩ := whole finite
  have settled : settle .standard (-20.0 : Float).abs
      (rawAt .standard sharedPlan (-20.0 : Float).abs 0.25) = 5.0 := by decide +kernel
  refine ⟨finite, needs, ?_, rest, questions, ?_⟩
  · rw [← settled]
    exact priced sharedPlan .all 0.25 rfl needs rfl
  · exact (asked _).mpr ⟨sharedPlan, .all, rfl, needs, rfl⟩

end PaymentFees.Quote
