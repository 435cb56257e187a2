import PaymentFees.Proofs.Binary.Arithmetic

namespace PaymentFees.Binary

open Float.Model Float.Model.UnpackedFloat

theorem quotient_eq_or (rounding : Rounding) (numerator denominator : ℕ) :
    rounding.quotient numerator denominator = numerator / denominator ∨
      rounding.quotient numerator denominator = numerator / denominator + 1 := by
  unfold Rounding.quotient
  dsimp only
  split_ifs
  · exact Or.inl rfl
  · exact Or.inr rfl
  · cases rounding with
    | halfUp => exact Or.inr rfl
    | halfEven =>
      simp only [Rounding.midpoint]
      split_ifs
      · exact Or.inl rfl
      · exact Or.inr rfl

theorem halfUp_quotient (numerator : ℕ) {denominator : ℕ} (positive : 0 < denominator) :
    Rounding.halfUp.quotient numerator denominator = ⌊(numerator : ℚ) / denominator + 1 / 2⌋₊ := by
  have unit : (0 : ℚ) < denominator := by exact_mod_cast positive
  have below : ((numerator % denominator : ℕ) : ℚ) < denominator := by
    exact_mod_cast Nat.mod_lt numerator positive
  have rest : 0 ≤ ((numerator % denominator : ℕ) : ℚ) / denominator := by positivity
  have under : ((numerator % denominator : ℕ) : ℚ) / denominator < 1 := (div_lt_one unit).mpr below
  symm
  rw [Nat.floor_eq_iff (by positivity), div_eq_whole_add_rest numerator positive]
  unfold Rounding.quotient
  dsimp only
  split_ifs with less more
  · have bound : (2 : ℚ) * ((numerator % denominator : ℕ) : ℚ) < denominator := by
      exact_mod_cast less
    have half : ((numerator % denominator : ℕ) : ℚ) / denominator < 1 / 2 := by
      rw [div_lt_div_iff₀ unit (by norm_num)]
      linarith
    constructor <;> linarith
  all_goals
    have bound : (denominator : ℚ) ≤ 2 * ((numerator % denominator : ℕ) : ℚ) := by
      exact_mod_cast not_lt.mp less
    have half : 1 / 2 ≤ ((numerator % denominator : ℕ) : ℚ) / denominator := by
      rw [div_le_div_iff₀ (by norm_num) unit]
      linarith
    simp only [Rounding.midpoint, Nat.cast_add, Nat.cast_one]
    constructor <;> linarith

theorem floor_quotient (numerator denominator : ℕ) :
    numerator / denominator = ⌊(numerator : ℚ) / denominator⌋₊ :=
  (Nat.floor_div_eq_div numerator denominator).symm

theorem extent_whole {n : ℕ} (small : n ≤ 2 ^ 53) : Extent (Float.ofNat n) (n : ℚ) := by
  have exact : nearest (n : ℚ) = n :=
    nearest_of_representable ⟨n, 0, small, by norm_num, by simp⟩
  have fits : fit (n : ℚ) = n := by
    apply fit_of_lt
    calc
      (n : ℚ) ≤ 2 ^ 53 := by exact_mod_cast small
      _ < 2 ^ 1024 := pow_lt_pow_right₀ (by norm_num) (by norm_num)
  have word := extent_ofNat n
  rwa [exact, fits] at word

theorem extent_onWhole {round : ℕ → ℕ → ℕ} (whole : ℚ → ℕ) {x : Float} {q : ℚ}
    (read : Extent x q) (agrees : ∀ m k : ℕ, round m (2 ^ k) = whole ((m : ℚ) / 2 ^ k))
    (fixed : ∀ n : ℕ, whole n = n) (smaller : ∀ m k : ℕ, round m (2 ^ (k + 1)) ≤ m) :
    Extent (onWhole round x) (whole q : ℚ) := by
  have same := read
  simp only [Extent] at read
  generalize form : x.toModel.unpack = f at read
  cases read with
  | zero =>
    have none : whole 0 = 0 := by exact_mod_cast fixed 0
    simp only [onWhole, form, none, Nat.cast_zero]
    exact same
  | @finite m e some canonical =>
    cases e with
    | ofNat k =>
      have value : (m : ℚ) * 2 ^ (k : ℤ) = ((m * 2 ^ k : ℕ) : ℚ) := by
        rw [zpow_natCast]
        push_cast
        rfl
      simp only [onWhole, form]
      simp only [Int.ofNat_eq_natCast] at same ⊢
      rw [value] at same ⊢
      rw [fixed]
      exact same
    | negSucc k =>
      have value : (m : ℚ) * 2 ^ Int.negSucc k = m / 2 ^ (k + 1) := by
        rw [zpow_negSucc, div_eq_mul_inv]
      simp only [onWhole, form, signed]
      rw [value, ← agrees]
      exact extent_whole ((smaller m k).trans canonical.1.le)

theorem extent_wholePart {x : Float} {q : ℚ} (read : Extent x q) :
    Extent (wholePart x) (⌊q⌋₊ : ℚ) := by
  apply extent_onWhole (fun q => ⌊q⌋₊) read
  · intro m k
    rw [floor_quotient]
    push_cast
    rfl
  · intro n
    exact Nat.floor_natCast n
  · intro m k
    exact Nat.div_le_self m _

theorem extent_nearestWhole {x : Float} {q : ℚ} (read : Extent x q) :
    Extent (nearestWhole x) (⌊q + 1 / 2⌋₊ : ℚ) := by
  apply extent_onWhole (fun q => ⌊q + 1 / 2⌋₊) read
  · intro m k
    rw [halfUp_quotient m (by positivity)]
    push_cast
    rfl
  · intro n
    rw [Nat.floor_eq_iff (by positivity)]
    constructor <;> linarith
  · intro m k
    have some : 2 ≤ 2 ^ (k + 1) := by
      rw [pow_succ]
      have := Nat.one_le_two_pow (n := k)
      omega
    have half : m / 2 ^ (k + 1) ≤ m / 2 := Nat.div_le_div_left some (by norm_num)
    rcases Nat.eq_zero_or_pos m with rfl | positive
    · simp [Rounding.quotient]
    · rcases quotient_eq_or .halfUp m (2 ^ (k + 1)) with same | next
      · omega
      · omega

/-- A word without a sign that is a number or infinity. -/
def Unsigned (x : Float) : Prop := ∃ a, Extent x a

theorem extent_pack_infinity {x : Float} {f : UnpackedFloat} (packed : x.toModel = .pack f)
    (infinite : f = .infinity .positive) : Extent x ⊤ := by
  simp only [Extent, packed, infinite, unpack_pack_infinity]

theorem Unsigned.add {x y : Float} (first : Unsigned x) (second : Unsigned y) :
    Unsigned (x + y) := by
  obtain ⟨a, first⟩ := first
  obtain ⟨b, second⟩ := second
  cases a with
  | top =>
    simp only [Extent] at first
    refine ⟨⊤, extent_pack_infinity rfl ?_⟩
    rw [first]
    cases b with
    | top =>
      simp only [Extent] at second
      rw [second]
      rfl
    | coe q =>
      simp only [Extent] at second
      generalize y.toModel.unpack = g at second
      cases second <;> rfl
  | coe p =>
    cases b with
    | top =>
      simp only [Extent] at first second
      refine ⟨⊤, extent_pack_infinity rfl ?_⟩
      rw [second]
      generalize x.toModel.unpack = f at first
      cases first <;> rfl
    | coe q => exact ⟨_, first.add second⟩

section

variable {x y : Float} {q : ℚ} (first : Unsigned x) (second : Extent y q) (positive : 0 < q)
include first second positive

theorem Unsigned.mul : Unsigned (x * y) := by
  obtain ⟨a, first⟩ := first
  cases a with
  | top =>
    simp only [Extent] at first second
    refine ⟨⊤, extent_pack_infinity rfl ?_⟩
    rw [first]
    generalize y.toModel.unpack = g at second
    cases second with
    | zero => exact absurd positive (lt_irrefl 0)
    | finite => rfl
  | coe p => exact ⟨_, first.mul second⟩

theorem Unsigned.div : Unsigned (x / y) := by
  obtain ⟨a, first⟩ := first
  cases a with
  | top =>
    simp only [Extent] at first second
    refine ⟨⊤, extent_pack_infinity rfl ?_⟩
    rw [first]
    generalize y.toModel.unpack = g at second
    cases second with
    | zero => exact absurd positive (lt_irrefl 0)
    | finite => rfl
  | coe p => exact ⟨_, first.div second positive⟩

end

theorem Unsigned.onWhole {x : Float} (unsigned : Unsigned x) (round : ℕ → ℕ → ℕ) :
    Unsigned (onWhole round x) := by
  obtain ⟨a, read⟩ := unsigned
  have same := read
  cases a with
  | top =>
    simp only [Extent] at read
    simp only [PaymentFees.onWhole, read]
    exact ⟨⊤, same⟩
  | coe q =>
    simp only [Extent] at read
    generalize form : x.toModel.unpack = f at read
    cases read with
    | zero =>
      simp only [PaymentFees.onWhole, form]
      exact ⟨_, same⟩
    | @finite m e some canonical =>
      cases e with
      | ofNat k =>
        simp only [PaymentFees.onWhole, form]
        exact ⟨_, same⟩
      | negSucc k =>
        simp only [PaymentFees.onWhole, form, signed]
        exact ⟨_, extent_ofNat _⟩

theorem extent_zero : Extent 0.0 (0 : ℚ) := .zero

theorem extent_hundred : Extent 100.0 (100 : ℚ) := by
  exact_mod_cast extent_whole (n := 100) (by norm_num)

theorem extent_of_unpack {x : Float} {m : ℕ} {e : ℤ} {some : 0 < m}
    (form : x.toModel.unpack = .finite .positive m e some) : Extent x (m * 2 ^ e : ℚ) := by
  simp only [Extent, form]
  exact .finite some (canonical_of_unpack form).1

theorem Extent.isFinite {x : Float} {q : ℚ} (read : Extent x q) : x.isFinite = true := by
  change x.toModel.unpack.isFinite = true
  simp only [Extent] at read
  generalize x.toModel.unpack = f at read
  cases read <;> rfl

theorem Extent.isInf {x : Float} {q : ℚ} (read : Extent x q) : x.isInf = false := by
  change x.toModel.unpack.isInf = false
  simp only [Extent] at read
  generalize x.toModel.unpack = f at read
  cases read <;> rfl

theorem unpack_abs (x : Float) : x.abs.toModel.unpack = x.toModel.unpack.abs := by
  change (Float.Model.pack x.toModel.unpack.abs).unpack = _
  cases form : x.toModel.unpack with
  | notANumber => exact unpack_pack_notANumber
  | infinity => exact unpack_pack_infinity .positive
  | zero => exact unpack_pack_zero .positive
  | finite s m e some =>
    obtain ⟨canonical, bounded⟩ := canonical_of_unpack form
    exact unpack_pack_finite .positive some canonical bounded

theorem unpack_neg (x : Float) : (-x).toModel.unpack = x.toModel.unpack.neg := by
  change (Float.Model.pack x.toModel.unpack.neg).unpack = _
  cases form : x.toModel.unpack with
  | notANumber => exact unpack_pack_notANumber
  | infinity s => exact unpack_pack_infinity _
  | zero s => exact unpack_pack_zero _
  | finite s m e some =>
    obtain ⟨canonical, bounded⟩ := canonical_of_unpack form
    exact unpack_pack_finite _ some canonical bounded

theorem Extent.abs {x : Float} {q : ℚ} (read : Extent x q) : Extent x.abs q := by
  simp only [Extent] at read ⊢
  rw [unpack_abs]
  generalize x.toModel.unpack = f at read
  cases read with
  | zero => exact .zero
  | finite some canonical => exact .finite some canonical

theorem extent_abs {x : Float} (finite : x.isFinite = true) : ∃ q : ℚ, Extent x.abs q := by
  change x.toModel.unpack.isFinite = true at finite
  simp only [Extent]
  rw [unpack_abs]
  cases form : x.toModel.unpack with
  | infinity | notANumber =>
    rw [form] at finite
    cases finite
  | zero => exact ⟨0, .zero⟩
  | finite s m e some => exact ⟨_, .finite some (canonical_of_unpack form).1⟩

theorem Unsigned.le {x : Float} (unsigned : Unsigned x) : 0.0 ≤ x := by
  obtain ⟨a, read⟩ := unsigned
  rw [extent_zero.le_iff read]
  cases a with
  | top => exact le_top
  | coe q => exact WithTop.coe_le_coe.mpr read.range.1

theorem Unsigned.not_lt {x : Float} (unsigned : Unsigned x) : ¬ x < 0.0 := by
  obtain ⟨a, read⟩ := unsigned
  rw [read.lt_iff extent_zero, Std.not_lt]
  cases a with
  | top => exact le_top
  | coe q => exact WithTop.coe_le_coe.mpr read.range.1

theorem lt_zero_iff (x : Float) :
    x < 0.0 ↔ x.toModel.unpack.compare (.zero .positive) = some .lt := by
  change decide ((x.toModel.unpack.compare (.zero .positive) == some .lt) = true) = true ↔ _
  rw [decide_eq_true_iff, beq_iff_eq]

theorem cases_of_not_lt {x : Float} (nonnegative : ¬ x < 0.0) :
    x.toModel.unpack = .notANumber ∨ Unsigned x ∨ x.toModel.unpack = .zero .negative := by
  rw [lt_zero_iff] at nonnegative
  cases form : x.toModel.unpack with
  | notANumber => exact Or.inl rfl
  | infinity s =>
    cases s with
    | negative =>
      rw [form] at nonnegative
      exact absurd rfl nonnegative
    | positive => exact Or.inr (Or.inl ⟨⊤, form⟩)
  | zero s =>
    cases s with
    | negative => exact Or.inr (Or.inr rfl)
    | positive =>
      refine Or.inr (Or.inl ⟨(0 : ℚ), ?_⟩)
      simp only [Extent, form]
      exact .zero
  | finite s m e some =>
    cases s with
    | negative =>
      rw [form] at nonnegative
      exact absurd rfl nonnegative
    | positive => exact Or.inr (Or.inl ⟨_, extent_of_unpack form⟩)

theorem not_lt_of_zero {x : Float} {s : Sign} (form : x.toModel.unpack = .zero s) :
    ¬ x < 0.0 := by
  rw [lt_zero_iff, form]
  cases s <;> decide

theorem not_lt_of_notANumber {x : Float} (form : x.toModel.unpack = .notANumber) :
    ¬ x < 0.0 := by
  rw [lt_zero_iff, form]
  decide

theorem not_abs_lt (x : Float) : ¬ x.abs < 0.0 := by
  rw [lt_zero_iff, unpack_abs]
  cases x.toModel.unpack <;> simp [UnpackedFloat.abs, UnpackedFloat.compare]

theorem not_lt_of_lt {x : Float} (positive : 0.0 < x) : ¬ x < 0.0 := by
  change decide ((UnpackedFloat.compare (.zero .positive) x.toModel.unpack == some .lt) = true) =
    true at positive
  rw [decide_eq_true_iff, beq_iff_eq] at positive
  rw [lt_zero_iff]
  cases form : x.toModel.unpack with
  | notANumber => decide
  | infinity s | zero s | finite s =>
    rw [form] at positive
    cases s
    · cases positive
    · intro negative
      cases negative

theorem extent_of_lt {x : Float} (positive : 0.0 < x) : ∃ a : WithTop ℚ, Extent x a ∧ 0 < a := by
  have compared := positive
  change decide ((UnpackedFloat.compare (.zero .positive) x.toModel.unpack == some .lt) = true) =
    true at compared
  rw [decide_eq_true_iff, beq_iff_eq] at compared
  rcases cases_of_not_lt (not_lt_of_lt positive) with none | ⟨a, read⟩ | zero
  · rw [none] at compared
    cases compared
  · exact ⟨a, read, (extent_zero.lt_iff read).mp positive⟩
  · rw [zero] at compared
    cases compared

theorem lt_of_not_le {x : Float} (number : x.isNaN = false) (above : ¬ x ≤ 0.0) : 0.0 < x := by
  change x.toModel.unpack.isNaN = false at number
  apply decide_eq_true
  change (UnpackedFloat.compare (.zero .positive) x.toModel.unpack == some .lt) = true
  have compared : ¬ (x.toModel.unpack.compare (.zero .positive)).any (·.isLE) = true :=
    fun below => above (decide_eq_true below)
  cases form : x.toModel.unpack with
  | notANumber =>
    rw [form] at number
    cases number
  | infinity s | zero s | finite s =>
    rw [form] at compared
    cases s
    · exact absurd rfl compared
    · first | rfl | exact absurd rfl compared

theorem unpack_of_beq_zero {x : Float} (zero : (x == 0.0) = true) :
    ∃ s, x.toModel.unpack = .zero s := by
  change (x.toModel.unpack.compare (.zero .positive) == some .eq) = true at zero
  rw [beq_iff_eq] at zero
  cases form : x.toModel.unpack with
  | zero s => exact ⟨s, rfl⟩
  | notANumber =>
    rw [form] at zero
    cases zero
  | infinity s | finite s =>
    rw [form] at zero
    cases s <;> cases zero

theorem beq_zero_of_lt {x : Float} (positive : 0.0 < x) : (x == 0.0) = false := by
  rw [← Bool.not_eq_true]
  intro zero
  obtain ⟨s, form⟩ := unpack_of_beq_zero zero
  change decide ((UnpackedFloat.compare (.zero .positive) x.toModel.unpack == some .lt) = true) =
    true at positive
  rw [form] at positive
  cases s <;> cases positive

theorem beq_self {x : Float} (number : x.isNaN = false) : (x == x) = true := by
  change x.toModel.unpack.isNaN = false at number
  change (x.toModel.unpack.compare x.toModel.unpack == some .eq) = true
  rw [beq_iff_eq]
  cases form : x.toModel.unpack with
  | notANumber =>
    rw [form] at number
    cases number
  | infinity s | zero s => cases s <;> rfl
  | finite s m e some => cases s <;> simp [UnpackedFloat.compare]

theorem Extent.mul_not_lt {x y : Float} {q : ℚ} (read : Extent x q) (nonnegative : ¬ y < 0.0) :
    ¬ x * y < 0.0 := by
  have same := read
  have product : (x * y).toModel = .pack (x.toModel.unpack.mul Format.binary64 y.toModel.unpack) :=
    rfl
  simp only [Extent] at read
  generalize x.toModel.unpack = f at read product
  rcases cases_of_not_lt nonnegative with none | ⟨b, other⟩ | zero
  · rw [none] at product
    apply not_lt_of_notANumber
    rw [product]
    cases read <;> exact unpack_pack_notANumber
  · cases b with
    | top =>
      simp only [Extent] at other
      rw [other] at product
      cases read with
      | zero =>
        apply not_lt_of_notANumber
        rw [product]
        exact unpack_pack_notANumber
      | finite => exact Unsigned.not_lt ⟨⊤, extent_pack_infinity product rfl⟩
    | coe p => exact Unsigned.not_lt ⟨_, same.mul other⟩
  · rw [zero] at product
    apply not_lt_of_zero (s := .negative)
    rw [product]
    cases read <;> exact unpack_pack_zero .negative

end PaymentFees.Binary
