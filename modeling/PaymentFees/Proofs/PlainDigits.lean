import PaymentFees.Proofs.Binary.Numbers
import PaymentFees.Proofs.Json.Numerals
import PaymentFees.Proofs.Shortest

namespace PaymentFees

open Binary

theorem toDigits_mul_pow {c : ℕ} (some : 0 < c) (zeros : ℕ) :
    Nat.toDigits 10 (c * 10 ^ zeros) = Nat.toDigits 10 c ++ List.replicate zeros '0' := by
  induction zeros with
  | zero => simp
  | succ zeros ih =>
    have long : 10 ≤ c * 10 ^ zeros * 10 :=
      Nat.le_mul_of_pos_left 10 (Nat.mul_pos some (Nat.pow_pos (by norm_num)))
    rw [pow_succ, ← mul_assoc, Nat.toDigits_of_base_le (by norm_num) long,
      Nat.mul_div_cancel _ (by norm_num), Nat.mul_mod_left, ih, List.append_assoc,
      List.replicate_succ']
    rfl

namespace Decimal

def plain (d : Decimal) : Numeral := ⟨d.positional.1, d.positional.2, none⟩

theorem toList_text (d : Decimal) : d.text.toList = Json.writeNumeral d.plain := by
  simp only [text, plain, Json.writeNumeral]
  split
  · next form => simp [form]
  · next fraction some form =>
    have nonempty : fraction ≠ [] := some
    simp [form, nonempty]

theorem plain_zeros (c zeros : ℕ) :
    plain ⟨c, zeros⟩ = ⟨Nat.toDigits 10 c ++ List.replicate zeros '0', [], none⟩ := rfl

theorem plain_isPlain {d : Decimal} (some : 0 < d.coefficient) : d.plain.Plain := by
  obtain ⟨c, exponent⟩ := d
  cases exponent with
  | ofNat zeros =>
    have digits := plain_whole some zeros
    rw [Int.ofNat_eq_natCast, plain_zeros]
    exact ⟨digits.whole, by simp, digits.nonempty, digits.leading⟩
  | negSucc places =>
    obtain ⟨whole, fraction, split, parts, length⟩ := positional_fraction c places
    simp only [plain, split]
    exact plain_fraction some parts length

theorem decimal_plain (d : Decimal) :
    d.plain.decimal = d ∨
      ∃ zeros : ℕ, d.exponent = zeros ∧ d.plain.decimal = ⟨d.coefficient * 10 ^ zeros, 0⟩ := by
  obtain ⟨c, exponent⟩ := d
  cases exponent with
  | ofNat zeros =>
    refine .inr ⟨zeros, rfl, ?_⟩
    rw [Int.ofNat_eq_natCast, plain_zeros]
    simp [Numeral.decimal, numberOf_zeros]
  | negSucc places =>
    left
    obtain ⟨whole, fraction, split, parts, length⟩ := positional_fraction c places
    simp [plain, split, Numeral.decimal, parts, numberOf_filled, length]
    omega

theorem decimal_plain_value (d : Decimal) :
    (d.plain.decimal.coefficient : ℚ) * 10 ^ d.plain.decimal.exponent =
      d.coefficient * 10 ^ d.exponent := by
  rcases d.decimal_plain with same | ⟨zeros, exponent, longer⟩
  · rw [same]
  · simp [longer, exponent]

theorem between_tens {d : Decimal} (some : 0 < d.coefficient) :
    (10 : ℚ) ^ (d.pointPosition - 1) ≤ d.coefficient * 10 ^ d.exponent ∧
      d.coefficient * 10 ^ d.exponent < (10 : ℚ) ^ d.pointPosition := by
  have unit : (0 : ℚ) < 10 ^ d.exponent := by positivity
  obtain ⟨places, length⟩ : ∃ places, d.digits.length = places + 1 :=
    Nat.exists_eq_add_one.mpr (List.length_pos_iff.mpr Nat.toDigits_ne_nil)
  have below : d.coefficient < 10 ^ (places + 1) :=
    (Nat.length_toDigits_le_iff (by norm_num) (Nat.succ_pos places)).mp length.le
  have above : 10 ^ places ≤ d.coefficient := by
    cases places with
    | zero => simpa using Nat.succ_le_of_lt some
    | succ places =>
      rw [← not_lt, ← Nat.length_toDigits_le_iff (by norm_num) (Nat.succ_pos places)]
      have : (Nat.toDigits 10 d.coefficient).length = places + 1 + 1 := length
      omega
  have point : d.pointPosition = (places + 1 : ℕ) + d.exponent := by simp [pointPosition, length]
  have first : (places + 1 : ℕ) + d.exponent - 1 = places + d.exponent := by
    push_cast
    ring
  rw [point, first, zpow_add₀ (by norm_num), zpow_add₀ (by norm_num), zpow_natCast, zpow_natCast]
  constructor
  · exact mul_le_mul_of_nonneg_right (by exact_mod_cast above) unit.le
  · exact mul_lt_mul_of_pos_right (by exact_mod_cast below) unit

theorem length_digits_le (d : Decimal) : d.digits.length ≤ d.coefficient.log2 + 1 := by
  refine (Nat.length_toDigits_le_iff (by norm_num) (Nat.succ_pos _)).mpr ?_
  exact Nat.lt_log2_self.trans_le (Nat.pow_le_pow_left (by norm_num) _)

theorem nearest_of_small {x : ℚ} (positive : 0 < x) (small : x < (10 : ℚ) ^ (-330 : ℤ)) :
    Binary.nearest x = 0 := by
  have half : x ≤ ((0 : ℕ) + 1 / 2) * 2 ^ (-1074 : ℤ) := by
    calc
      x ≤ (10 : ℚ) ^ (-330 : ℤ) := small.le
      _ ≤ (10 : ℚ) ^ (-324 : ℤ) := zpow_le_zpow_right₀ (by norm_num) (by norm_num)
      _ ≤ 2 ^ (-1075 : ℤ) := (@pow_two_between (-1075) (by norm_num)).1
      _ = ((0 : ℕ) + 1 / 2) * 2 ^ (-1074 : ℤ) := by
        rw [show (-1075 : ℤ) = -1 + -1074 by norm_num, zpow_add₀ (by norm_num)]
        norm_num
  have none := nearest_le positive (by norm_num) le_rfl (.inr rfl) half fun _ => rfl
  rw [Nat.cast_zero, zero_mul] at none
  exact le_antisymm none (nearest_nonneg x)

theorem fit_nearest_of_large {x : ℚ} (large : (10 : ℚ) ^ (310 : ℤ) ≤ x) :
    fit (Binary.nearest x) = ⊤ := by
  have least : (2 : ℚ) ^ 1024 ≤ x := by
    calc
      (2 : ℚ) ^ (1024 : ℤ) ≤ (10 : ℚ) ^ (309 : ℤ) := (@pow_two_between 1024 (by norm_num)).2
      _ ≤ (10 : ℚ) ^ (310 : ℤ) := zpow_le_zpow_right₀ (by norm_num) (by norm_num)
      _ ≤ x := large
  have exact : Binary.nearest ((2 : ℚ) ^ 1024) = 2 ^ 1024 :=
    nearest_of_representable ⟨1, 1024, by norm_num, by norm_num, by norm_num⟩
  have above := nearest_mono (by positivity) least
  rw [exact] at above
  exact if_neg (not_lt.mpr above)

theorem extent_nearest (d : Decimal) :
    Extent d.nearest (fit (Binary.nearest (d.coefficient * 10 ^ d.exponent))) := by
  rcases Nat.eq_zero_or_pos d.coefficient with zero | some
  · have fits : fit 0 = ((0 : ℚ) : WithTop ℚ) := fit_of_lt (by positivity)
    rw [nearest, if_pos (.inl zero), zero, Nat.cast_zero, zero_mul, nearest_zero, fits]
    exact extent_zero
  obtain ⟨above, below⟩ := between_tens some
  by_cases small : d.pointPosition < -330
  · have low := below.trans ((zpow_lt_zpow_iff_right₀ (by norm_num)).mpr small)
    have fits : fit 0 = ((0 : ℚ) : WithTop ℚ) := fit_of_lt (by positivity)
    rw [nearest, if_pos (.inr small), nearest_of_small (by positivity) low, fits]
    exact extent_zero
  by_cases large : 310 < d.pointPosition
  · have high := (zpow_le_zpow_right₀ (by norm_num) (Int.le_sub_one_of_lt large)).trans above
    rw [nearest, if_neg (by omega), if_pos large, fit_nearest_of_large high]
    exact (rfl : (1.0 / 0.0 : Float).toModel.unpack = .infinity .positive)
  have digits := d.length_digits_le
  rw [nearest, if_neg (by omega), if_neg large]
  obtain ⟨c, exponent⟩ := d
  simp only [pointPosition, Decimal.digits] at small large digits
  cases exponent with
  | ofNat zeros =>
    have whole : ¬ (zeros : ℤ) < 0 := not_lt.mpr (Int.natCast_nonneg zeros)
    rw [Int.ofNat_eq_natCast] at small large
    have read := @extent_ofScientific c zeros (by omega)
    simpa [whole] using read
  | negSucc places =>
    rw [Int.negSucc_eq] at small large
    have read := @extent_ofScientific_fraction c (places + 1) (by omega)
    simpa [zpow_negSucc, div_eq_mul_inv, Int.negSucc_lt_zero] using read

section

variable (tie : Rounding) {m : ℕ} {e : ℤ} (some : 0 < m) (canonical : Canonical m e)
include some canonical

/-- The shortest digits of a number, written without an exponent, are read as the number. -/
theorem extent_nearest_shortest (bounded : e ≤ 971) :
    Extent (shortest tie m e).plain.decimal.nearest (m * 2 ^ e : ℚ) := by
  have read := (shortest tie m e).plain.decimal.extent_nearest
  rwa [decimal_plain_value, nearest_shortest tie some canonical bounded,
    fit_of_lt (canonical_lt_pow canonical bounded)] at read

end

section

variable (tie : Rounding) {m n : ℕ} {e : ℤ} (some : 0 < m) (whole : (m : ℚ) * 2 ^ e = n)
include whole

omit whole in
theorem le_exponent_scanGrids {tie : Rounding} {last : ℤ} (hit : (gridHit tie m e last).isSome)
    {tries : ℕ} {grid : ℤ} (ahead : last ≤ grid) (enough : grid < last + tries) :
    last ≤ (scanGrids tie m e tries grid).exponent := by
  induction tries generalizing grid with
  | zero => omega
  | succ tries ih =>
    simp only [scanGrids]
    split
    · exact ahead
    · next miss =>
      have before : last ≠ grid := by
        rintro rfl
        simp [miss] at hit
      exact ih (by omega) (by omega)

include some

theorem gridHit_whole : (gridHit tie m e 0).isSome := by
  have positive := gridFraction_positive m e 0
  have value := gridFraction_value m e 0
  rw [whole, zpow_zero, div_one, div_eq_iff (by exact_mod_cast positive.ne')] at value
  have multiple : (gridFraction m e 0).1 = n * (gridFraction m e 0).2 := by exact_mod_cast value
  have unit : 0 < (gridFraction m e 0).1 / m := by
    rw [gridFraction_fst, Nat.mul_div_cancel_left _ some]
    exact gridUnit_positive e 0
  have quarters : 0 < quartersBelow m e := by
    simp only [quartersBelow]
    split <;> norm_num
  have width := Nat.mul_pos quarters unit
  have low : 4 * ((gridFraction m e 0).1 % (gridFraction m e 0).2) <
      quartersBelow m e * ((gridFraction m e 0).1 / m) + if m % 2 = 0 then 1 else 0 := by
    rw [multiple, Nat.mul_mod_left, ← multiple]
    omega
  simp only [gridHit, if_pos low]
  split_ifs <;> simp

variable (small : n < 10 ^ 15)
include small

omit some in
theorem lastPlace_whole (canonical : Canonical m e) : e ≤ 0 := by
  by_contra coarse
  have large : (2 : ℚ) ^ 52 ≤ m := by
    have : 2 ^ 52 ≤ m := canonical.2.2.resolve_right (by omega)
    exact_mod_cast this
  have unit : (1 : ℚ) ≤ 2 ^ e := one_le_zpow₀ (by norm_num) (by omega)
  have above : (2 : ℚ) ^ 52 ≤ n := by
    calc
      (2 : ℚ) ^ 52 = 2 ^ 52 * 1 := (mul_one _).symm
      _ ≤ m * 2 ^ e := mul_le_mul large unit zero_le_one (by positivity)
      _ = n := whole
  have least : 2 ^ 52 ≤ n := by exact_mod_cast above
  omega

theorem exponent_shortest_whole : 0 ≤ (shortest tie m e).exponent := by
  have low : (2 : ℚ) ^ m.log2 ≤ m := by exact_mod_cast Nat.log2_self_le some.ne'
  have high : (m : ℚ) < 2 ^ (m.log2 + 1) := by exact_mod_cast Nat.lt_log2_self
  have unit : (0 : ℚ) < 2 ^ e := by positivity
  have positive : (1 : ℚ) ≤ n := by
    have : (0 : ℚ) < n := whole ▸ by positivity
    exact_mod_cast this
  have first : 0 < ((m.log2 + 1 : ℕ) : ℤ) + e := by
    apply (zpow_lt_zpow_iff_right₀ (show (1 : ℚ) < 2 by norm_num)).mp
    rw [zpow_zero, zpow_add₀ (by norm_num), zpow_natCast]
    exact positive.trans_lt (whole ▸ mul_lt_mul_of_pos_right high unit)
  have last : (m.log2 : ℤ) + e < 50 := by
    apply (zpow_lt_zpow_iff_right₀ (show (1 : ℚ) < 2 by norm_num)).mp
    rw [zpow_add₀ (by norm_num), zpow_natCast]
    calc
      (2 : ℚ) ^ m.log2 * 2 ^ e ≤ m * 2 ^ e := mul_le_mul_of_nonneg_right low unit.le
      _ = n := whole
      _ < 10 ^ 15 := by exact_mod_cast small
      _ < 2 ^ (50 : ℤ) := by norm_num
  exact le_exponent_scanGrids (gridHit_whole tie some whole) (by omega) (by omega)

theorem shortest_whole (canonical : Canonical m e) :
    ∃ c zeros : ℕ, shortest tie m e = ⟨c, zeros⟩ ∧ 0 < c ∧ c * 10 ^ zeros = n := by
  have finer := lastPlace_whole whole small canonical
  have bounded : e ≤ 971 := by omega
  have hit := gridHit_scanGrids (shortest_coefficient tie some canonical bounded).1
  have positive : 0 < (shortest tie m e).coefficient := gridHit_pos some hit
  have reaches : (shortest tie m e).coefficient * (10 : ℚ) ^ (shortest tie m e).exponent ≤ _ :=
    (reaches_of_gridHit some hit).1
  have value := nearest_shortest tie some canonical bounded
  have exponent := exponent_shortest_whole tie some whole small
  generalize shortest tie m e = d at positive reaches value exponent ⊢
  obtain ⟨c, place⟩ := d
  obtain ⟨zeros, rfl⟩ := Int.eq_ofNat_of_zero_le exponent
  refine ⟨c, zeros, rfl, positive, ?_⟩
  have cast : (c : ℚ) * 10 ^ (zeros : ℤ) = (c * 10 ^ zeros : ℕ) := by simp
  dsimp only at reaches value
  rw [cast, add_mul, whole] at reaches
  rw [cast, whole] at value
  -- It is at most half a unit above the number, and both are whole.
  have near : c * 10 ^ zeros < n + 1 := by
    have unit : (2 : ℚ) ^ e ≤ 1 := zpow_le_one_of_nonpos₀ (by norm_num) finer
    have less : ((c * 10 ^ zeros : ℕ) : ℚ) < n + 1 := by linarith
    exact_mod_cast less
  have binary : Representable ((c * 10 ^ zeros : ℕ) : ℚ) :=
    ⟨c * 10 ^ zeros, 0, by omega, by norm_num, by simp⟩
  rw [nearest_of_representable binary] at value
  exact_mod_cast value

theorem text_shortest_whole (canonical : Canonical m e) :
    (shortest tie m e).text = toString n := by
  obtain ⟨c, zeros, form, positive, rfl⟩ := shortest_whole tie some whole small canonical
  apply String.toList_injective
  rw [form, toList_text, plain_zeros]
  simp [Json.writeNumeral, Nat.repr, toDigits_mul_pow positive]

end

end Decimal

end PaymentFees
