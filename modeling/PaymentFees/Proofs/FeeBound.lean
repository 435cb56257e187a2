import PaymentFees.Proofs.Cents
import PaymentFees.Quote

namespace PaymentFees

open Binary
open Float.Model Float.Model.UnpackedFloat

section

variable {m : Type → Type} [Monad m] {α β : Type}

def Yields (property : α → Prop) (x : m α) : Prop :=
  ∃ y : m { a // property a }, Subtype.val <$> y = x

variable [LawfulMonad m] {property : α → Prop}

theorem yields_pure {a : α} (holds : property a) : Yields property (pure a : m α) :=
  ⟨pure ⟨a, holds⟩, map_pure _ _⟩

theorem yields_any (x : m α) : Yields (fun _ => True) x :=
  ⟨(fun a => ⟨a, trivial⟩) <$> x, by simp⟩

theorem yields_bind {goal : β → Prop} {x : m α} {next : α → m β} (first : Yields property x)
    (after : ∀ a, property a → Yields goal (next a)) : Yields goal (x >>= next) := by
  obtain ⟨y, rfl⟩ := first
  choose result same using after
  refine ⟨y >>= fun a => result a.1 a.2, ?_⟩
  rw [map_bind, bind_map_left]
  exact bind_congr fun a => same a.1 a.2

end

theorem of_yields_except {ε α : Type} {property : α → Prop} {x : Except ε α} {a : α}
    (yields : Yields property x) (returned : x = .ok a) : property a := by
  obtain ⟨y, rfl⟩ := yields
  cases y with
  | error => cases returned
  | ok value =>
    cases returned
    exact value.2

namespace Quote

variable {m : Type → Type} [Monad m] [LawfulMonad m]

theorem formulaFee_not_lt (sources : Sources m) (plan : StoredPlan) (size : Float) :
    Yields (fun raw => ¬ raw < 0.0) (formulaFee sources plan size) := by
  unfold formulaFee
  split
  · exact yields_pure (by decide)
  · split
    · exact yields_pure (by decide)
    · apply yields_bind (yields_any _)
      intro frequency _
      apply yields_pure
      cases Formula.valueOf? _ size frequency with
      | none => decide
      | some value => exact not_abs_lt value

theorem clampShare_not_lt (limit share : Float) : ¬ clampShare limit share < 0.0 := by
  have zero : ¬ (0.0 : Float) < 0.0 := by decide
  have least : ¬ (if 0.0 < limit then limit else 0.0) < 0.0 := by
    split
    · next positive => exact not_lt_of_lt positive
    · exact zero
  unfold clampShare
  generalize (if 0.0 < limit then limit else 0.0) = limit at least ⊢
  dsimp only
  split_ifs <;> assumption

theorem tableFee_not_lt (config : Config) (sources : Sources m) (plan : StoredPlan) {size : Float}
    {q : ℚ} (read : Extent size q) :
    Yields (fun raw => ¬ raw < 0.0) (tableFee config sources plan size) := by
  have zero : ¬ (0.0 : Float) < 0.0 := by decide
  unfold tableFee
  split
  · exact yields_pure zero
  · split
    · exact yields_pure zero
    · split
      · apply yields_bind (yields_any _)
        intro frequency _
        exact yields_pure (read.mul_not_lt (clampShare_not_lt _ _))
      · exact yields_pure zero

def rawFee (config : Config) (sources : Sources m) (plan : StoredPlan) (size : Float) : m Float :=
  match plan.mode with
  | .formula => formulaFee sources plan size
  | .table => tableFee config sources plan size

theorem rawFee_not_lt (config : Config) (sources : Sources m) (plan : StoredPlan) {size : Float}
    {q : ℚ} (read : Extent size q) :
    Yields (fun raw => ¬ raw < 0.0) (rawFee config sources plan size) := by
  unfold rawFee
  split
  · exact formulaFee_not_lt sources plan size
  · exact tableFee_not_lt config sources plan read

omit [LawfulMonad m] in
theorem fee_eq_settle (config : Config) (sources : Sources m) (user : UserId) {amount : Float}
    (finite : amount.isFinite = true) :
    fee config sources user amount = (do
      match ← sources.plan user with
      | none => return 0.0
      | some plan =>
        return settle config amount.abs (← rawFee config sources plan amount.abs)) := by
  unfold fee
  rw [finite, if_neg (by decide)]
  apply bind_congr
  intro found
  cases found with
  | none => rfl
  | some plan =>
    simp only [rawFee]
    cases plan.mode <;> rfl

/-- Between zero and the size, or else the size cut to cents where that is above the size. -/
def Fits (size fee : Float) : Prop :=
  0.0 ≤ fee ∧ (fee.isFinite = true ∧ fee ≤ size ∨
    size < truncateCents size ∧ fee = truncateCents size)

theorem roundCents_cases (rounding : Rounding) {raw : Float} (finite : raw.isFinite = true)
    (nonnegative : ¬ raw < 0.0) :
    Unsigned (roundCents rounding raw) ∨
      (roundCents rounding raw).toModel.unpack = .zero .negative := by
  change raw.toModel.unpack.isFinite = true at finite
  rcases cases_of_not_lt nonnegative with none | ⟨a, number⟩ | zero
  · rw [none] at finite
    cases finite
  · cases a with
    | top =>
      simp only [Extent] at number
      rw [number] at finite
      cases finite
    | coe p => exact Or.inl (unsigned_roundCents number rounding)
  · right
    simp only [roundCents, Money.ofFloat?, zero]
    cases rounding <;> rfl

section

variable {size : Float} {q : ℚ} (read : Extent size q)
include read

theorem fits_of_not_lt {fee : Float} (unsigned : Unsigned fee) (below : ¬ size < fee) :
    Fits size fee := by
  obtain ⟨a, number⟩ := unsigned
  rw [read.lt_iff number, not_lt] at below
  cases a with
  | top => exact absurd below (not_le.mpr (WithTop.coe_lt_top q))
  | coe p =>
    exact ⟨Unsigned.le ⟨_, number⟩, Or.inl ⟨number.isFinite, (number.le_iff read).mpr below⟩⟩

theorem fits_of_zero {fee : Float} {s : Sign} (zero : fee.toModel.unpack = .zero s) :
    Fits size fee := by
  have finite : fee.toModel.unpack.isFinite = true := by rw [zero]; rfl
  have low : (UnpackedFloat.compare (.zero .positive) fee.toModel.unpack).any (·.isLE) = true := by
    rw [zero]
    rfl
  have high : (fee.toModel.unpack.compare size.toModel.unpack).any (·.isLE) = true := by
    simp only [Extent] at read
    rw [zero]
    generalize size.toModel.unpack = f at read
    cases read <;> rfl
  exact ⟨decide_eq_true low, Or.inl ⟨finite, decide_eq_true high⟩⟩

theorem settle_fits (config : Config) {raw : Float} (nonnegative : ¬ raw < 0.0) :
    Fits size (settle config size raw) := by
  have nothing : Fits size 0.0 := fits_of_zero read (s := .positive) rfl
  unfold settle
  split
  · exact nothing
  next finite =>
  rw [Bool.not_eq_true, Bool.not_eq_false'] at finite
  dsimp only
  have shape : Unsigned (roundCents config.rounding (if raw < size then raw else size)) ∨
      (roundCents config.rounding (if raw < size then raw else size)).toModel.unpack =
        .zero .negative := by
    split
    · exact roundCents_cases config.rounding finite nonnegative
    · exact Or.inl (unsigned_roundCents read config.rounding)
  generalize roundCents config.rounding (if raw < size then raw else size) = rounded at shape ⊢
  have charge : Fits size (if size < rounded then truncateCents size else rounded) := by
    split
    · -- Cut to cents, the size may still be above itself.
      have unsigned := unsigned_truncateCents read
      by_cases above : size < truncateCents size
      · exact ⟨unsigned.le, Or.inr ⟨above, rfl⟩⟩
      · exact fits_of_not_lt read unsigned above
    · next below =>
      rcases shape with unsigned | zero
      · exact fits_of_not_lt read unsigned below
      · exact fits_of_zero read zero
  generalize (if size < rounded then truncateCents size else rounded) = charged at charge ⊢
  split
  · exact nothing
  · exact charge

end

theorem fee_fits (config : Config) (sources : Sources m) (user : UserId) {amount : Float}
    (finite : amount.isFinite = true) :
    Yields (Fits amount.abs) (fee config sources user amount) := by
  obtain ⟨q, read⟩ := extent_abs finite
  rw [fee_eq_settle config sources user finite]
  apply yields_bind (yields_any _)
  intro found _
  cases found with
  | none => exact yields_pure (fits_of_zero read (s := .positive) rfl)
  | some plan =>
    apply yields_bind (rawFee_not_lt config sources plan read)
    intro raw nonnegative
    exact yields_pure (settle_fits read config nonnegative)

/-- No question about a plan or a frequency fails. -/
def Answer (sources : Sources (Except Failure)) : Prop :=
  (∀ user, ∃ plan, sources.plan user = .ok plan) ∧
    ∀ user range, ∃ share, sources.frequency user range = .ok share

section

variable {sources : Sources (Except Failure)} (answer : Answer sources)
include answer

theorem formulaFee_returns (plan : StoredPlan) (size : Float) :
    ∃ raw, formulaFee sources plan size = .ok raw := by
  unfold formulaFee
  split
  · exact ⟨_, rfl⟩
  · split
    · exact ⟨_, rfl⟩
    · obtain ⟨share, asked⟩ := answer.2 plan.user .all
      rw [asked]
      exact ⟨_, rfl⟩

theorem tableFee_returns (config : Config) (plan : StoredPlan) (size : Float) :
    ∃ raw, tableFee config sources plan size = .ok raw := by
  unfold tableFee
  split
  · exact ⟨_, rfl⟩
  · split
    · exact ⟨_, rfl⟩
    · next range located =>
      split
      · obtain ⟨share, asked⟩ := answer.2 plan.user range
        rw [asked]
        exact ⟨_, rfl⟩
      · exact ⟨_, rfl⟩

theorem rawFee_returns (config : Config) (plan : StoredPlan) (size : Float) :
    ∃ raw, rawFee config sources plan size = .ok raw := by
  unfold rawFee
  split
  · exact formulaFee_returns answer plan size
  · exact tableFee_returns answer config plan size

theorem fee_returns (config : Config) (user : UserId) {amount : Float}
    (finite : amount.isFinite = true) :
    ∃ charged, fee config sources user amount = .ok charged := by
  rw [fee_eq_settle config sources user finite]
  obtain ⟨found, asked⟩ := answer.1 user
  rw [asked]
  cases found with
  | none => exact ⟨_, rfl⟩
  | some plan =>
    obtain ⟨raw, returned⟩ := rawFee_returns answer config plan amount.abs
    refine ⟨settle config amount.abs raw, ?_⟩
    change (rawFee config sources plan amount.abs >>= _) = _
    rw [returned]
    rfl

end

/-- With usable settings and sources that answer, the fee is a finite number from zero to the size
of the amount. -/
def StaysWithin (amount : Float) : Prop :=
  ∀ (config : Config) (sources : Sources (Except Failure)) (user : UserId),
    isMagnitude config.minimumCharge = true → Answer sources →
      ∃ charged, fee config sources user amount = .ok charged ∧
        charged.isFinite = true ∧ 0.0 ≤ charged ∧ charged ≤ amount.abs

theorem scan_x : Formula.scan 0 ['x'] = .ok [⟨0, 1, .name "x"⟩] := by
  rw [Formula.scan, if_neg (by decide)]
  have token : Formula.readToken 0 'x' [] = .ok (.name "x", 0) := by rfl
  rw [token]
  change (do return _ :: (← Formula.scan 1 [])) = _
  rw [Formula.scan]
  rfl

theorem valueOf_x (size frequency : Float) :
    Formula.valueOf? "x" size frequency = some size := by
  have short : ¬ maxFormulaBytes < "x".utf8ByteSize := by decide
  have text : "x".toList = ['x'] := by decide
  have parsed : Formula.parse "x" = .ok ⟨"x", .var .x⟩ := by
    unfold Formula.parse
    rw [if_neg short, text, scan_x]
    rfl
  unfold Formula.valueOf?
  rw [parsed]
  rfl

def wholePlan : StoredPlan :=
  ⟨1, .formula, some "x", [0.0], .empty, ⟨0, 0⟩, ⟨0, 0⟩⟩

def wholeSources : Sources (Except Failure) := ⟨fun _ => .ok (some wholePlan), fun _ _ => .ok 0.0⟩

theorem answer_wholeSources : Answer wholeSources :=
  ⟨fun _ => ⟨_, rfl⟩, fun _ _ => ⟨_, rfl⟩⟩

theorem rawFee_wholeSources (config : Config) (size : Float) :
    rawFee config wholeSources wholePlan size = .ok size.abs := by
  change Except.ok (((Formula.valueOf? "x" size 0.0).map Float.abs).getD 0.0) = _
  rw [valueOf_x]
  rfl

def freeConfig : Config := ⟨0.0, 0.1, 1, .halfUp⟩

theorem fee_wholeSources {amount : Float} (finite : amount.isFinite = true)
    (above : amount.abs < truncateCents amount.abs) :
    fee freeConfig wholeSources 1 amount = .ok (truncateCents amount.abs) := by
  obtain ⟨q, read⟩ := extent_abs finite
  have unsigned := unsigned_truncateCents read
  have asked : wholeSources.plan 1 = .ok (some wholePlan) := rfl
  rw [fee_eq_settle _ _ _ finite, asked]
  dsimp only [bind, Except.bind]
  rw [rawFee_wholeSources]
  have whole : ¬ amount.abs.abs < amount.abs := by
    rw [read.abs.lt_iff read]
    exact lt_irrefl _
  have rounded : amount.abs < roundCents freeConfig.rounding amount.abs :=
    lt_roundCents read _ above
  have settled : settle freeConfig amount.abs amount.abs.abs = truncateCents amount.abs := by
    unfold settle
    rw [read.abs.isFinite, if_neg (by decide), if_neg whole]
    dsimp only
    rw [if_pos rounded]
    exact if_neg unsigned.not_lt
  change Except.ok (settle freeConfig amount.abs amount.abs.abs) = _
  rw [settled]

theorem not_staysWithin {amount : Float} (finite : amount.isFinite = true)
    (above : amount.abs < truncateCents amount.abs) : ¬ StaysWithin amount := by
  intro within
  obtain ⟨q, read⟩ := extent_abs finite
  obtain ⟨charged, returned, -, -, below⟩ :=
    within freeConfig wholeSources 1 (by decide) answer_wholeSources
  rw [fee_wholeSources finite above] at returned
  cases returned
  obtain ⟨a, number⟩ := unsigned_truncateCents read
  rw [number.le_iff read] at below
  rw [read.lt_iff number] at above
  exact absurd above (not_lt.mpr below)

theorem staysWithin {amount : Float} (finite : amount.isFinite = true)
    (below : ¬ amount.abs < truncateCents amount.abs) : StaysWithin amount := by
  intro config sources user _ answer
  obtain ⟨charged, returned⟩ := fee_returns answer config user finite
  obtain ⟨nonnegative, within | ⟨above, -⟩⟩ :=
    of_yields_except (fee_fits config sources user finite) returned
  · exact ⟨charged, returned, within.1, nonnegative, within.2⟩
  · exact absurd above below

theorem staysWithin_of_lt {amount : Float} (finite : amount.isFinite = true)
    (small : amount.abs < 35184372088832.0) : StaysWithin amount := by
  obtain ⟨q, read⟩ := extent_abs finite
  have bound : Extent 35184372088832.0 (2 ^ 45 : ℚ) := by
    have literal : (35184372088832.0 : Float).toModel.unpack =
        .finite .positive (2 ^ 52) (-7) (by decide) := by
      rfl
    have value : (2 : ℚ) ^ 45 = ((2 ^ 52 : ℕ) : ℚ) * 2 ^ (-7 : ℤ) := by norm_num
    rw [value]
    exact extent_of_unpack literal
  rw [read.lt_iff bound, WithTop.coe_lt_coe] at small
  exact staysWithin finite (not_lt_truncateCents read small)

/-- For every plan the fee is zero or more and at most the size of the amount, exactly where the
size cut to cents does not lie above the size, as below `2 ^ 45`. Elsewhere the fee may be that cut
size, which is then above the amount or infinite. -/
theorem fee_within_size_iff {amount : Float} (finite : amount.isFinite = true) :
    (StaysWithin amount ↔ ¬ amount.abs < truncateCents amount.abs) ∧
      (amount.abs < 35184372088832.0 → StaysWithin amount) ∧
      ∀ (config : Config) (sources : Sources (Except Failure)) (user : UserId), Answer sources →
        ∃ charged, fee config sources user amount = .ok charged ∧ Fits amount.abs charged := by
  refine ⟨⟨fun within above => not_staysWithin finite above within, staysWithin finite⟩,
    staysWithin_of_lt finite, fun config sources user answer => ?_⟩
  obtain ⟨charged, returned⟩ := fee_returns answer config user finite
  exact ⟨charged, returned, of_yields_except (fee_fits config sources user finite) returned⟩

theorem fee_within_size_iff_twelve :
    (12.5 : Float).isFinite = true ∧ StaysWithin 12.5 :=
  ⟨by decide, (fee_within_size_iff (by decide)).2.1 (by decide)⟩

/-- The fee of the first amount is a cent above it, that of the second is infinite. -/
theorem not_staysWithin_large :
    ((40000000000000.13 : Float).isFinite = true ∧ ¬ StaysWithin 40000000000000.13) ∧
      ((1e307 : Float).isFinite = true ∧ ¬ StaysWithin 1e307) := by
  have first : (40000000000000.13 : Float).isFinite = true := by decide
  have second : (1e307 : Float).isFinite = true := by decide +kernel
  refine ⟨⟨first, not_staysWithin first ?_⟩, second, not_staysWithin second ?_⟩
  · decide +kernel
  · decide +kernel

end Quote

end PaymentFees
