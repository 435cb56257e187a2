import PaymentFees.Proofs.Json.Numerals
import PaymentFees.Proofs.Shortest

namespace PaymentFees

open Binary

theorem scaleUp?_isSome {c k : ℕ} (some : 0 < c) (few : k ≤ 308)
    (below : (c : ℚ) * 10 ^ k ≤ (2 ^ 53 - 5 / 2) * 2 ^ 971) :
    (scaleUp? (Float.ofNat c) k).isSome := by
  have one : (1 : ℚ) ≤ c := by exact_mod_cast some
  have tens : (1 : ℚ) ≤ 10 ^ k := one_le_pow₀ (by norm_num)
  have unit : (0 : ℚ) < 2 ^ 971 := by positivity
  have whole : (c : ℚ) ≤ c * 10 ^ k := le_mul_of_one_le_right (by positivity) tens
  have power : (10 : ℚ) ^ k ≤ c * 10 ^ k := le_mul_of_one_le_left (by positivity) one
  have inside {x : ℚ} (bound : x ≤ (2 ^ 53 - 5 / 2) * 2 ^ 971) :
      x < (2 ^ 53 - 1 / 2) * 2 ^ 971 := by
    apply bound.trans_lt
    exact mul_lt_mul_of_pos_right (by norm_num) unit
  have first : Extent (Float.ofNat c) (nearest c : ℚ) := by
    have word := extent_ofNat c
    rwa [fit_of_lt (nearest_lt_of_lt (by positivity) (inside (whole.trans below)))] at word
  have second : Extent (powerOfTen k) (nearest (10 ^ k) : ℚ) := by
    have word := @extent_ofScientific 1 k (by omega)
    rw [Nat.cast_one, one_mul] at word
    rwa [fit_of_lt (nearest_lt_of_lt (by positivity) (inside (power.trans below)))] at word
  have margin : (1 + 1 / 2 ^ 53) ^ 2 * (2 ^ 53 - 5 / 2) < (2 ^ 53 - 1 / 2 : ℚ) := by norm_num
  -- Two roundings move the product by less than the distance to the middle.
  have product : nearest c * nearest (10 ^ k) < (2 ^ 53 - 1 / 2) * 2 ^ 971 := by
    calc
      nearest c * nearest (10 ^ k)
        ≤ ((1 + 1 / 2 ^ 53) * c) * ((1 + 1 / 2 ^ 53) * 10 ^ k) := by
          apply mul_le_mul (nearest_le_mul one) (nearest_le_mul tens) (nearest_nonneg _)
          positivity
      _ = (1 + 1 / 2 ^ 53) ^ 2 * (c * 10 ^ k) := by ring
      _ ≤ (1 + 1 / 2 ^ 53) ^ 2 * ((2 ^ 53 - 5 / 2) * 2 ^ 971) := by gcongr
      _ = (1 + 1 / 2 ^ 53) ^ 2 * (2 ^ 53 - 5 / 2) * 2 ^ 971 := (mul_assoc _ _ _).symm
      _ < (2 ^ 53 - 1 / 2) * 2 ^ 971 := mul_lt_mul_of_pos_right margin unit
  have last := first.mul second
  have nonnegative := mul_nonneg (nearest_nonneg c) (nearest_nonneg (10 ^ k))
  rw [fit_of_lt (nearest_lt_of_lt nonnegative product)] at last
  unfold scaleUp?
  rw [if_pos few]
  dsimp only
  rw [last.isInf]
  rfl

private theorem greatest_scaled : ∀ m ∈ [2 ^ 53 - 2, 2 ^ 53 - 1],
    (Decimal.shortest .halfEven m 971).scaled?.isSome := by
  -- The greatest two numbers are so close to the end of the range that only their own digits tell.
  decide +kernel

theorem le_of_not_greatest {m : ℕ} {e : ℤ} (digits : m < 2 ^ 53) (bounded : e ≤ 971)
    (other : ¬ (e = 971 ∧ 2 ^ 53 - 2 ≤ m)) :
    ((m : ℚ) + 1 / 2) * 2 ^ e ≤ (2 ^ 53 - 5 / 2) * 2 ^ 971 := by
  rcases bounded.lt_or_eq with finer | rfl
  · have half : (m : ℚ) + 1 / 2 ≤ 2 ^ 53 := by
      have whole : (m : ℚ) + 1 ≤ 2 ^ 53 := by exact_mod_cast digits
      linarith
    calc
      ((m : ℚ) + 1 / 2) * 2 ^ e ≤ 2 ^ 53 * 2 ^ (970 : ℤ) :=
        mul_le_mul half (zpow_le_zpow_right₀ (by norm_num) (by omega)) (by positivity) (by norm_num)
      _ = 2 ^ 52 * 2 ^ 971 := (pow_add (2 : ℚ) 53 970).symm.trans (pow_add (2 : ℚ) 52 971)
      _ ≤ (2 ^ 53 - 5 / 2) * 2 ^ 971 := mul_le_mul_of_nonneg_right (by norm_num) (by positivity)
  · have below : (m : ℚ) ≤ (2 ^ 53 - 3 : ℕ) := by
      have : m ≤ 2 ^ 53 - 3 := by omega
      exact_mod_cast this
    apply mul_le_mul_of_nonneg_right _ (by positivity)
    push_cast at below
    linarith

/-- Scaling the shortest digits of a number never leaves the range. -/
theorem shortest_scaled {m : ℕ} {e : ℤ} (some : 0 < m) (canonical : Canonical m e)
    (bounded : e ≤ 971) : (Decimal.shortest .halfEven m e).scaled?.isSome := by
  by_cases greatest : e = 971 ∧ 2 ^ 53 - 2 ≤ m
  · obtain ⟨rfl, large⟩ := greatest
    have digits := canonical.1
    apply greatest_scaled
    simp only [List.mem_cons, List.not_mem_nil, or_false]
    omega
  have positive := (Decimal.shortest_coefficient .halfEven some canonical bounded).1
  have reaches := (Decimal.found_scanGrids .halfEven e some 20
    (((m.log2 + 1 : ℕ) + e) * 30103 / 100000 + 1)).reaches.1
  change ((Decimal.shortest .halfEven m e).coefficient : ℚ) *
    10 ^ (Decimal.shortest .halfEven m e).exponent ≤ _ at reaches
  generalize Decimal.shortest .halfEven m e = d at positive reaches
  obtain ⟨c, exponent⟩ := d
  unfold Decimal.scaled?
  cases exponent with
  | negSucc places =>
    rw [if_pos (Int.negSucc_lt_zero places)]
    rfl
  | ofNat k =>
    rw [if_neg (by simp)]
    dsimp only at positive reaches ⊢
    change (scaleUp? (Float.ofNat c) k).isSome
    rw [Int.ofNat_eq_natCast, zpow_natCast] at reaches
    have one : (1 : ℚ) ≤ c := by exact_mod_cast positive
    have power : (10 : ℚ) ^ k < 10 ^ 309 := by
      calc
        (10 : ℚ) ^ k ≤ c * 10 ^ k := le_mul_of_one_le_left (by positivity) one
        _ ≤ (m + 1 / 2) * 2 ^ e := reaches
        _ ≤ (2 ^ 53 - 5 / 2) * 2 ^ 971 := le_of_not_greatest canonical.1 bounded greatest
        _ < 2 ^ 53 * 2 ^ 971 := mul_lt_mul_of_pos_right (by norm_num) (by positivity)
        _ = 2 ^ 1024 := (pow_add (2 : ℚ) 53 971).symm
        _ ≤ 10 ^ 309 := (@Decimal.pow_two_between 1024 (by norm_num)).2
    have few : k < 309 := (pow_lt_pow_iff_right₀ (by norm_num)).mp power
    exact scaleUp?_isSome positive (by omega)
      (reaches.trans (le_of_not_greatest canonical.1 bounded greatest))

theorem ofDecimal_scaled {d : Decimal} (scaled : d.scaled?.isSome) :
    (Numeral.ofDecimal d).decimal.scaled?.isSome := by
  rcases Decimal.ofDecimal_decimal d with same | ⟨zeros, -, -, longer⟩
  · rw [same]
    exact scaled
  · rw [longer]
    rfl

namespace Json

theorem ofFloat_writable (v : Float) : (ofFloat v).Writable := by
  have zero : Numeral.Plain ⟨['0'], ['0'], none⟩ :=
    ⟨by simp, by simp, by simp, fun _ => rfl⟩
  unfold ofFloat
  split
  · trivial
  · trivial
  · exact zero
  · next sign m e some form =>
    obtain ⟨canonical, bounded⟩ := canonical_of_unpack form
    exact Decimal.ofDecimal_plain (Decimal.shortest_coefficient _ some canonical bounded).1

theorem float?_ofFloat_isSome (v : Float) : (ofFloat v).float?.isSome = v.isFinite := by
  change _ = v.toModel.unpack.isFinite
  unfold ofFloat
  split
  · next form =>
    rw [form]
    rfl
  · next form =>
    rw [form]
    rfl
  · next form =>
    rw [form]
    rfl
  · next sign m e some form =>
    rw [form]
    obtain ⟨canonical, bounded⟩ := canonical_of_unpack form
    have short := (Decimal.shortest_coefficient .halfEven some canonical bounded).2
    have read := Numeral.gathered?_eq (Decimal.ofDecimal_fits short)
    have inside := ofDecimal_scaled (shortest_scaled some canonical bounded)
    unfold float?
    dsimp only
    rw [read, Option.isSome_map, inside]
    rfl

def reread (v : Float) : Float := (ofFloat v).float?.getD v

theorem float?_ofFloat {v : Float} (finite : v.isFinite = true) :
    (ofFloat v).float? = some (reread v) := by
  have read := float?_ofFloat_isSome v
  rw [finite] at read
  obtain ⟨value, found⟩ := Option.isSome_iff_exists.mp read
  unfold reread
  rw [found]
  rfl

theorem float?_ofFloat_none {v : Float} (infinite : v.isFinite = false) :
    (ofFloat v).float? = none := by
  have read := float?_ofFloat_isSome v
  rwa [infinite, Option.isSome_eq_false_iff, Option.isNone_iff_eq_none] at read

end Json

/-- The whole digits are a binary number and so is the power of ten. -/
def Decimal.IsShort (d : Decimal) : Prop := d.coefficient ≤ 2 ^ 53 ∧ d.exponent.natAbs ≤ 22

theorem extent_powerOfTen {k : ℕ} (small : k ≤ 22) : Extent (powerOfTen k) ((10 : ℚ) ^ k) := by
  have word := @extent_ofScientific 1 k (by omega)
  rw [Nat.cast_one, one_mul, nearest_ten_pow small, fit_of_lt] at word
  · exact word
  · calc
      (10 : ℚ) ^ k ≤ 10 ^ 22 := pow_le_pow_right₀ (by norm_num) small
      _ ≤ 2 ^ 100 := by norm_num
      _ < 2 ^ 1024 := pow_lt_pow_right₀ (by norm_num) (by norm_num)

theorem scaled?_short {d : Decimal} (short : d.IsShort) {q : ℚ} (small : q < 2 ^ 1024)
    (value : nearest ((d.coefficient : ℚ) * 10 ^ d.exponent) = q) :
    ∃ x, d.scaled? = some x ∧ Extent x q := by
  -- Scaling a short decimal rounds only once.
  obtain ⟨c, exponent⟩ := d
  obtain ⟨few, near⟩ := short
  dsimp only at few near value
  unfold Decimal.scaled?
  cases exponent with
  | negSucc places =>
    have inside : places + 1 ≤ 308 := near.trans (by norm_num)
    have quotient := (extent_whole few).div (extent_powerOfTen near) (by positivity)
    rw [zpow_negSucc, ← div_eq_mul_inv] at value
    rw [Int.natAbs_negSucc, value, fit_of_lt small] at quotient
    refine ⟨Float.ofNat c / powerOfTen (places + 1), ?_, quotient⟩
    rw [if_pos (Int.negSucc_lt_zero places)]
    dsimp only
    rw [Int.natAbs_negSucc, scaleDown, if_pos inside]
  | ofNat k =>
    have inside : k ≤ 308 := near.trans (by norm_num)
    have product := (extent_whole few).mul (extent_powerOfTen near)
    rw [Int.ofNat_eq_natCast, zpow_natCast] at value
    rw [Int.ofNat_eq_natCast, Int.natAbs_natCast, value, fit_of_lt small] at product
    refine ⟨Float.ofNat c * powerOfTen k, ?_, product⟩
    have number := product.isInf
    simp [scaleUp?, inside, number]

namespace Json

theorem reread_of_scaled {v : Float} {negative : Bool} {n : Numeral}
    (written : ofFloat v = .number negative n) (fits : n.decimal.coefficient < wordLimit)
    {x : Float} (scaled : n.decimal.scaled? = some x) :
    reread v = if negative then -x else x := by
  unfold reread float?
  rw [written]
  dsimp only
  rw [Numeral.gathered?_eq fits, scaled]
  rfl

theorem reread_of_isShort {v : Float} {negative : Bool} {n : Numeral}
    (written : ofFloat v = .number negative n) (short : n.decimal.IsShort) : reread v = v := by
  have fits : n.decimal.coefficient < wordLimit := short.1.trans_lt (by decide)
  apply eq_of_unpack
  have read := written
  unfold ofFloat at written
  split at written
  · cases written
  · cases written
  · next sign form =>
    cases written
    have value : nearest (((Numeral.decimal ⟨['0'], ['0'], none⟩).coefficient : ℚ) *
        10 ^ (Numeral.decimal ⟨['0'], ['0'], none⟩).exponent) = 0 := by
      simp [Numeral.decimal, numberOf, Nat.ofDigitChars_cons, Nat.ofDigitChars_nil]
    obtain ⟨x, scaled, word⟩ := scaled?_short short (by positivity) value
    rw [reread_of_scaled read fits scaled, form]
    have magnitude : x.toModel.unpack = .zero .positive := word.unique .zero rfl
    cases sign with
    | positive => exact magnitude
    | negative =>
      change (-x).toModel.unpack = _
      rw [unpack_neg, magnitude]
      rfl
  · next sign m e some form =>
    cases written
    obtain ⟨canonical, bounded⟩ := canonical_of_unpack form
    have value := Decimal.nearest_shortest .halfEven some canonical bounded
    rw [← Decimal.ofDecimal_value] at value
    obtain ⟨x, scaled, word⟩ := scaled?_short short (canonical_lt_pow canonical bounded) value
    rw [reread_of_scaled read fits scaled, form]
    have magnitude : x.toModel.unpack = .finite .positive m e some :=
      word.unique (.finite some canonical) rfl
    cases sign with
    | positive => exact magnitude
    | negative =>
      change (-x).toModel.unpack = _
      rw [unpack_neg, magnitude]
      rfl

def HasShortDigits (v : Float) : Prop :=
  ∃ negative n, ofFloat v = .number negative n ∧ n.decimal.IsShort

theorem reread_of_hasShortDigits {v : Float} (short : HasShortDigits v) : reread v = v := by
  obtain ⟨negative, n, written, few⟩ := short
  exact reread_of_isShort written few

end Json

end PaymentFees
