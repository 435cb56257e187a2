import PaymentFees.Money
import PaymentFees.Proofs.Shortest

/-!
Amounts in cents as binary numbers. Below `2 ^ 45` the nearest number to a whole number of cents is
found, so cutting an amount to cents does not lead above it. Further up the last place of the sum is
too coarse for that.
-/

namespace PaymentFees

open Binary Decimal
open Float.Model.UnpackedFloat (Sign)

/-- The number made of whole units and `rest` parts of a unit: the sum is rounded to parts. -/
def joined (unit whole rest : ℕ) : ℚ :=
  nearest (⌊nearest (nearest (whole + nearest (rest / unit)) * unit) + 1 / 2⌋₊ / unit)

theorem nearest_le_two_pow {q : ℚ} {k : ℕ} (nonnegative : 0 ≤ q) (bound : q ≤ 2 ^ k) :
    nearest q ≤ 2 ^ k := by
  calc
    nearest q ≤ nearest (2 ^ k) := nearest_mono nonnegative bound
    _ = 2 ^ k := nearest_of_representable ⟨1, k, by norm_num, by omega, by simp⟩

theorem nearest_natCast {n : ℕ} (small : n ≤ 2 ^ 53) : nearest n = n :=
  nearest_of_representable ⟨n, 0, small, by norm_num, by simp⟩

theorem Binary.Extent.of_fit {x : Float} {q : ℚ} (read : Extent x (fit (nearest q)))
    (nonnegative : 0 ≤ q) (bound : q ≤ 2 ^ 64) : Extent x (nearest q : ℚ) := by
  have small : nearest q < 2 ^ 1024 := by
    calc
      nearest q ≤ 2 ^ 64 := nearest_le_two_pow nonnegative bound
      _ < 2 ^ 1024 := pow_lt_pow_right₀ (by norm_num) (by norm_num)
  rwa [fit_of_lt small] at read

section

variable {unit whole rest : ℕ} (parts : 0 < unit ∧ unit ≤ 100) (some : rest < unit)
include parts some

theorem fraction_le_one : (rest : ℚ) / unit ≤ 1 := by
  have positive : (0 : ℚ) < unit := by exact_mod_cast parts.1
  rw [div_le_one positive]
  exact_mod_cast some.le

theorem sum_le (small : whole ≤ 2 ^ 46) : (whole : ℚ) + nearest (rest / unit) ≤ 2 ^ 47 := by
  have cast : (whole : ℚ) ≤ 2 ^ 46 := by exact_mod_cast small
  have fraction : nearest ((rest : ℚ) / unit) ≤ 2 ^ 0 :=
    nearest_le_two_pow (by positivity) (by simpa using fraction_le_one parts some)
  linarith

theorem product_le (small : whole ≤ 2 ^ 46) :
    nearest (whole + nearest (rest / unit)) * unit ≤ 2 ^ 54 := by
  have cast : (unit : ℚ) ≤ 100 := by exact_mod_cast parts.2
  have low : 0 ≤ (whole : ℚ) + nearest (rest / unit) :=
    add_nonneg (Nat.cast_nonneg _) (nearest_nonneg _)
  calc
    nearest (whole + nearest (rest / unit)) * unit ≤ 2 ^ 47 * 100 := by
      apply mul_le_mul _ cast (by positivity) (by positivity)
      exact nearest_le_two_pow low (sum_le parts some small)
    _ ≤ 2 ^ 54 := by norm_num

theorem rounded_le (small : whole ≤ 2 ^ 46) :
    (⌊nearest (nearest (whole + nearest (rest / unit)) * unit) + 1 / 2⌋₊ : ℚ) ≤ 2 ^ 55 := by
  have low : 0 ≤ nearest (whole + nearest (rest / unit)) * (unit : ℚ) :=
    mul_nonneg (nearest_nonneg _) (Nat.cast_nonneg _)
  have product := nearest_le_two_pow low (product_le parts some small)
  have nonnegative := nearest_nonneg (nearest (whole + nearest (rest / unit)) * unit)
  have floor := Nat.floor_le (add_nonneg nonnegative (show (0 : ℚ) ≤ 1 / 2 by norm_num))
  linarith

end

theorem joined_zero {unit whole : ℕ} (parts : 0 < unit ∧ unit ≤ 100) (small : whole ≤ 2 ^ 46) :
    joined unit whole 0 = whole := by
  have positive : (unit : ℚ) ≠ 0 := by exact_mod_cast parts.1.ne'
  have wholeExact : nearest (whole : ℚ) = whole := nearest_natCast (by omega)
  have bound : whole * unit ≤ 2 ^ 53 := by
    calc
      whole * unit ≤ 2 ^ 46 * 100 := Nat.mul_le_mul small parts.2
      _ ≤ 2 ^ 53 := by norm_num
  have partsExact : nearest ((whole : ℚ) * unit) = ((whole * unit : ℕ) : ℚ) := by
    rw [← Nat.cast_mul]
    exact nearest_natCast bound
  have floor : ⌊((whole * unit : ℕ) : ℚ) + 1 / 2⌋₊ = whole * unit := by
    rw [Nat.floor_eq_iff (by positivity)]
    constructor <;> linarith
  unfold joined
  rw [Nat.cast_zero, zero_div, nearest_zero, add_zero, wholeExact, partsExact, floor, Nat.cast_mul,
    mul_div_cancel_right₀ _ positive, wholeExact]

theorem joined_exact {unit parts : ℕ} (units : 0 < unit ∧ unit ≤ 100)
    (small : parts < 2 ^ 45 * unit) :
    joined unit (parts / unit) (parts % unit) = nearest (parts / unit) := by
  -- Below `2 ^ 45` the parts are found again, and their quotient is rounded once.
  have positive : (0 : ℚ) < unit := by exact_mod_cast units.1
  have hundred : (unit : ℚ) ≤ 100 := by exact_mod_cast units.2
  have split := div_eq_whole_add_rest parts units.1
  have below : parts / unit + 1 ≤ 2 ^ 45 := (Nat.div_lt_iff_lt_mul units.1).mpr small
  have rest : parts % unit + 1 ≤ unit := Nat.mod_lt parts units.1
  set whole := parts / unit
  set piece := (((parts % unit : ℕ) : ℚ) / unit) with pieceEq
  have wholeBound : (whole : ℚ) + 1 ≤ 2 ^ 45 := by exact_mod_cast below
  have pieceBound : piece ≤ 1 - 1 / 100 := by
    have cast : ((parts % unit : ℕ) : ℚ) + 1 ≤ unit := by exact_mod_cast rest
    rw [pieceEq, div_le_iff₀ positive]
    linarith
  have pieceLow : 0 ≤ piece := by positivity
  have exact : (parts : ℚ) = (whole + piece) * unit := by
    rw [← split, div_mul_cancel₀ _ positive.ne']
  have fraction : |nearest piece - piece| ≤ 1 / 100000 := by
    have error := nearest_error (k := 0) pieceLow (by norm_num; linarith) (by norm_num)
    exact error.trans (by norm_num)
  have sumLow : 0 ≤ (whole : ℚ) + nearest piece :=
    add_nonneg (Nat.cast_nonneg _) (nearest_nonneg _)
  have sumHigh : (whole : ℚ) + nearest piece < 2 ^ 45 := by
    have := (abs_le.mp fraction).2
    linarith
  have sum : |nearest (whole + nearest piece) - (whole + nearest piece)| ≤ 1 / 512 := by
    have error := nearest_error (k := 45) sumLow (by exact_mod_cast sumHigh) (by norm_num)
    exact error.trans (by norm_num)
  set total := nearest (whole + nearest piece) with totalEq
  have near : |total - (whole + piece)| ≤ 1 / 500 := by
    rw [abs_le] at fraction sum ⊢
    constructor <;> linarith
  have scaled : |total * unit - parts| ≤ 1 / 5 := by
    calc
      |total * unit - parts| = |total - (whole + piece)| * unit := by
        rw [exact, ← sub_mul, abs_mul, abs_of_pos positive]
      _ ≤ 1 / 500 * 100 := mul_le_mul near hundred positive.le (by norm_num)
      _ = 1 / 5 := by norm_num
  have productLow : 0 ≤ total * unit := mul_nonneg (nearest_nonneg _) positive.le
  have productHigh : total * unit < 2 ^ 52 := by
    have bound : total ≤ 2 ^ 45 := nearest_le_two_pow sumLow sumHigh.le
    calc
      total * unit ≤ 2 ^ 45 * 100 := mul_le_mul bound hundred positive.le (by norm_num)
      _ < 2 ^ 52 := by norm_num
  have product : |nearest (total * unit) - total * unit| ≤ 1 / 4 := by
    have error := nearest_error (k := 52) productLow (by exact_mod_cast productHigh) (by norm_num)
    exact error.trans (by norm_num)
  have found : ⌊nearest (total * unit) + 1 / 2⌋₊ = parts := by
    rw [abs_le] at scaled product
    have low := nearest_nonneg (total * unit)
    rw [Nat.floor_eq_iff (by linarith)]
    constructor <;> linarith
  unfold joined
  rw [← totalEq, found]

theorem joined_mono {unit whole rest whole' rest' : ℕ}
    (ordered : (whole : ℚ) + nearest (rest / unit) ≤ whole' + nearest (rest' / unit)) :
    joined unit whole rest ≤ joined unit whole' rest' := by
  have units : (0 : ℚ) ≤ unit := Nat.cast_nonneg _
  have sum : nearest (whole + nearest (rest / unit)) ≤ nearest (whole' + nearest (rest' / unit)) :=
    nearest_mono (add_nonneg (Nat.cast_nonneg _) (nearest_nonneg _)) ordered
  have product := nearest_mono (mul_nonneg (nearest_nonneg (whole + nearest (rest / unit))) units)
    (mul_le_mul_of_nonneg_right sum units)
  have parts : ⌊nearest (nearest (whole + nearest (rest / unit)) * unit) + 1 / 2⌋₊ ≤
      ⌊nearest (nearest (whole' + nearest (rest' / unit)) * unit) + 1 / 2⌋₊ :=
    Nat.floor_mono (by linarith)
  have cast := div_le_div_of_nonneg_right (c := (unit : ℚ)) (Nat.cast_le (α := ℚ).mpr parts) units
  exact nearest_mono (by positivity) cast

theorem joined_succ_le {unit : ℕ} (parts : ℕ) (units : 0 < unit ∧ unit ≤ 100) :
    joined unit (parts / unit) (parts % unit) ≤
      joined unit ((parts + 1) / unit) ((parts + 1) % unit) := by
  have some := Nat.mod_lt parts units.1
  have split : parts + 1 = parts % unit + 1 + unit * (parts / unit) := by
    have := Nat.mod_add_div parts unit
    omega
  have whole : (parts + 1) / unit = (parts % unit + 1) / unit + parts / unit := by
    nth_rewrite 1 [split]
    exact Nat.add_mul_div_left _ _ units.1
  have rest : (parts + 1) % unit = (parts % unit + 1) % unit := by
    nth_rewrite 1 [split]
    exact Nat.add_mul_mod_self_left _ _ _
  apply joined_mono
  rw [whole, rest]
  rcases Nat.lt_or_eq_of_le (Nat.succ_le_of_lt some) with inside | last
  · rw [Nat.div_eq_of_lt inside, Nat.mod_eq_of_lt inside, Nat.zero_add]
    have positive : (0 : ℚ) < unit := by exact_mod_cast units.1
    have more : ((parts % unit : ℕ) : ℚ) / unit ≤ ((parts % unit + 1 : ℕ) : ℚ) / unit :=
      div_le_div_of_nonneg_right (by exact_mod_cast Nat.le_succ _) positive.le
    have mono := nearest_mono (by positivity) more
    linarith
  · have carried : parts % unit + 1 = unit := last
    rw [carried, Nat.div_self units.1, Nat.mod_self, Nat.cast_zero, zero_div, nearest_zero]
    have fraction : nearest (((parts % unit : ℕ) : ℚ) / unit) ≤ 2 ^ 0 :=
      nearest_le_two_pow (by positivity) (by simpa using fraction_le_one units some)
    push_cast
    linarith

theorem extent_toFloat (coefficient : ℕ) {places : ℕ} (few : places ≤ 2)
    (small : coefficient / 10 ^ places ≤ 2 ^ 46) :
    Extent (Money.toFloat ⟨.positive, coefficient, places⟩)
      (joined (10 ^ places) (coefficient / 10 ^ places) (coefficient % 10 ^ places) : ℚ) := by
  have units : 0 < 10 ^ places ∧ 10 ^ places ≤ 100 :=
    ⟨by positivity, Nat.pow_le_pow_right (by norm_num) few⟩
  have some := Nat.mod_lt coefficient units.1
  unfold Money.toFloat signed
  simp only [Nat.pow_eq]
  set unit := 10 ^ places
  set whole := coefficient / unit
  set rest := coefficient % unit
  have positive : (0 : ℚ) < unit := by exact_mod_cast units.1
  have unitRead : Extent (Float.ofNat unit) (unit : ℚ) := extent_whole (by omega)
  have wholeRead : Extent (Float.ofNat whole) (whole : ℚ) := extent_whole (by omega)
  have restRead : Extent (Float.ofNat rest) (rest : ℚ) := extent_whole (by omega)
  have zeroRead : Extent 0.0 (0 : ℚ) := .zero
  have fraction : Extent (Float.ofNat rest / Float.ofNat unit) (nearest (rest / unit) : ℚ) := by
    apply (restRead.div unitRead positive).of_fit (by positivity)
    exact (fraction_le_one units some).trans (by norm_num)
  split
  · next none =>
    have zero := WithTop.coe_injective ((fraction.beq_iff zeroRead).mp none)
    have same : joined unit whole rest = joined unit whole 0 := by
      unfold joined
      rw [zero, Nat.cast_zero, zero_div, nearest_zero]
    rw [same, joined_zero units small]
    exact wholeRead
  · have sum := (wholeRead.add fraction).of_fit
      (add_nonneg (Nat.cast_nonneg _) (nearest_nonneg _))
      ((sum_le units some small).trans (by norm_num))
    have product := (sum.mul unitRead).of_fit (mul_nonneg (nearest_nonneg _) positive.le)
      ((product_le units some small).trans (by norm_num))
    apply ((extent_nearestWhole product).div unitRead positive).of_fit (by positivity)
    have one : (1 : ℚ) ≤ unit := by exact_mod_cast units.1
    exact (div_le_self (by positivity) one).trans
      ((rounded_le units some small).trans (by norm_num))

theorem toCents_places (round : ℕ → ℕ → ℕ) (m : Money) : (m.toCents round).places ≤ 2 := by
  unfold Money.toCents
  split
  · assumption
  · exact le_rfl

theorem toCents_sign (round : ℕ → ℕ → ℕ) (m : Money) : (m.toCents round).sign = m.sign := by
  unfold Money.toCents
  split <;> rfl

private theorem tiny_of_excess {m c k : ℕ} {e : ℤ} (some : 0 < m)
    (few : shortest .halfUp m e = ⟨c, .negSucc k⟩)
    (excess : ¬ k + 1 ≤ Money.maxPlaces) :
    Rounding.halfUp.quotient c (10 ^ (k + 1 - Money.maxPlaces)) < 10 ^ 26 := by
  obtain ⟨reaches, tried, -⟩ := found_scanGrids .halfUp e some 20
    (((m.log2 + 1 : ℕ) + e) * 30103 / 100000 + 1)
  unfold shortest at few
  rw [few] at reaches tried
  dsimp only at reaches tried
  simp only [Money.maxPlaces] at excess ⊢
  rcases tried with none | late
  · rw [none]
    simp [Rounding.quotient]
  have size : m.log2 + 1 + e ≤ -30 := by
    rw [Int.negSucc_eq] at late
    push_cast at late
    omega
  have bound : (c : ℚ) * 2 ^ 30 ≤ 10 ^ (k + 1) := by
    have digits : (m : ℚ) + 1 ≤ 2 ^ (m.log2 + 1) := by exact_mod_cast Nat.lt_log2_self
    have value : (c : ℚ) * 10 ^ Int.negSucc k ≤ 2 ^ (-30 : ℤ) := by
      calc
        (c : ℚ) * 10 ^ Int.negSucc k ≤ (m + 1 / 2) * 2 ^ e := reaches.1
        _ ≤ 2 ^ (m.log2 + 1) * 2 ^ e := mul_le_mul_of_nonneg_right (by linarith) (by positivity)
        _ = 2 ^ (((m.log2 + 1 : ℕ) : ℤ) + e) := by
          rw [zpow_add₀ (by norm_num), zpow_natCast]
        _ ≤ 2 ^ (-30 : ℤ) := zpow_le_zpow_right₀ (by norm_num) (by push_cast; exact size)
    rw [zpow_negSucc, ← div_eq_mul_inv, div_le_iff₀ (by positivity)] at value
    norm_num at value
    linarith
  have whole : c * 2 ^ 30 ≤ 10 ^ (k + 1 - 28) * 10 ^ 28 := by
    rw [← pow_add, Nat.sub_add_cancel (by omega)]
    exact_mod_cast bound
  have low : c / 10 ^ (k + 1 - 28) < 10 ^ 19 := by
    have positive : 0 < 10 ^ (k + 1 - 28) := by positivity
    rw [Nat.div_lt_iff_lt_mul positive]
    omega
  rcases quotient_eq_or .halfUp c (10 ^ (k + 1 - 28)) with same | next <;> omega

theorem middle_lt_pow {m k : ℕ} {e : ℤ} (some : 0 < m) (small : (m : ℚ) * 2 ^ e < 2 ^ k) :
    ((m : ℚ) + 1 / 2) * 2 ^ e < 2 ^ k := by
  have unit : (0 : ℚ) < 2 ^ e := by positivity
  have one : (1 : ℚ) ≤ m := by exact_mod_cast some
  have place : e < k := by
    have : (2 : ℚ) ^ e < 2 ^ (k : ℤ) := by
      calc
        (2 : ℚ) ^ e ≤ m * 2 ^ e := le_mul_of_one_le_left unit.le one
        _ < 2 ^ (k : ℤ) := by rwa [zpow_natCast]
    exact (zpow_lt_zpow_iff_right₀ (by norm_num)).mp this
  obtain ⟨j, shift⟩ := Int.le.dest place.le
  have power : (2 : ℚ) ^ k = 2 ^ j * 2 ^ e := by
    rw [← zpow_natCast, ← shift, zpow_add₀ (by norm_num), zpow_natCast, mul_comm]
  rw [power] at small ⊢
  have digits : m + 1 ≤ 2 ^ j := by
    have : (m : ℚ) < 2 ^ j := lt_of_mul_lt_mul_right small unit.le
    exact_mod_cast this
  have cast : (m : ℚ) + 1 ≤ 2 ^ j := by exact_mod_cast digits
  exact mul_lt_mul_of_pos_right (by linarith) unit

section

variable {x : Float} {m : ℕ} {e : ℤ} {some : 0 < m}
  (form : x.toModel.unpack = .finite .positive m e some)
include form

/-- Cut to cents, an amount is not past the middle between its number and the next one. -/
theorem reaches_cut {money : Money} (read : Money.ofFloat? x = .some money) :
    Reaches m e ((money.toCents (· / ·)).coefficient / 10 ^ (money.toCents (· / ·)).places) := by
  have found := found_scanGrids .halfUp e some 20 (((m.log2 + 1 : ℕ) + e) * 30103 / 100000 + 1)
  change Found m e _ _ (shortest .halfUp m e) at found
  obtain ⟨reaches, -, -⟩ := found
  simp only [Money.ofFloat?, form] at read
  split at read
  · next c zeros whole =>
    split at read
    · cases read
      rw [whole] at reaches
      simpa [Money.toCents, mul_assoc] using reaches
    · cases read
  · next c k few =>
    split at read
    · next inside =>
      cases read
      rw [few] at reaches
      dsimp only at reaches
      rw [zpow_negSucc, ← div_eq_mul_inv] at reaches
      unfold Money.toCents
      split
      · exact reaches
      · next more =>
        apply reaches.of_le
        dsimp only at more ⊢
        rw [Nat.pow_eq]
        calc
          ((c / 10 ^ (k + 1 - 2) : ℕ) : ℚ) / 10 ^ 2 ≤ c / (10 ^ (k + 1 - 2) : ℕ) / 10 ^ 2 :=
            div_le_div_of_nonneg_right Nat.cast_div_le (by norm_num)
          _ = c / 10 ^ (k + 1) := by
            rw [div_div, Nat.cast_pow, Nat.cast_ofNat, ← pow_add, Nat.sub_add_cancel (by omega)]
    · next excess =>
      cases read
      have tiny := tiny_of_excess some few excess
      have none : Rounding.halfUp.quotient c (10 ^ (k + 1 - Money.maxPlaces)) / 10 ^ 26 = 0 :=
        Nat.div_eq_of_lt tiny
      have cut : Money.toCents (· / ·) ⟨.positive, Rounding.halfUp.quotient c
          (10 ^ (k + 1 - Money.maxPlaces)), Money.maxPlaces⟩ = ⟨.positive, 0, 2⟩ := by
        unfold Money.toCents
        rw [if_neg (by norm_num [Money.maxPlaces]), ← none]
        rfl
      have low : (0 : ℚ) < (m + 1 / 2) * 2 ^ e := by positivity
      simp only [Nat.pow_eq, cut]
      rw [Nat.cast_zero, zero_div]
      exact ⟨low.le, fun middle => absurd middle low.ne⟩

theorem ofFloat?_sign {money : Money} (read : Money.ofFloat? x = .some money) :
    money.sign = .positive := by
  simp only [Money.ofFloat?, form] at read
  repeat' split at read
  all_goals cases read <;> rfl

theorem ofFloat?_isSome (small : (m : ℚ) * 2 ^ e < 2 ^ 45) : (Money.ofFloat? x).isSome := by
  obtain ⟨reaches, -, -⟩ :=
    found_scanGrids .halfUp e some 20 (((m.log2 + 1 : ℕ) + e) * 30103 / 100000 + 1)
  change Reaches m e ((shortest .halfUp m e).coefficient * 10 ^ (shortest .halfUp m e).exponent)
    at reaches
  simp only [Money.ofFloat?, form]
  split
  · next c zeros whole =>
    rw [whole] at reaches
    have bound : c * 10 ^ zeros < Money.coefficientLimit := by
      have middle : (c : ℚ) * 10 ^ (zeros : ℤ) < 2 ^ 45 :=
        reaches.1.trans_lt (middle_lt_pow some small)
      have cast : c * 10 ^ zeros < 2 ^ 45 := by exact_mod_cast middle
      exact cast.trans (by norm_num [Money.coefficientLimit])
    rw [Nat.pow_eq, if_pos bound]
    rfl
  · split <;> rfl

end

theorem unsigned_toFloat {m : Money} (sign : m.sign = .positive) (few : m.places ≤ 2) :
    Unsigned m.toFloat := by
  have units : 10 ^ m.places ≤ 10 ^ 2 := Nat.pow_le_pow_right (by norm_num) few
  have positive : 0 < 10 ^ m.places := by positivity
  have unit : Extent (Float.ofNat (10 ^ m.places)) ((10 ^ m.places : ℕ) : ℚ) :=
    extent_whole (by omega)
  have some : (0 : ℚ) < ((10 ^ m.places : ℕ) : ℚ) := by exact_mod_cast positive
  have number (n : ℕ) : Unsigned (Float.ofNat n) := ⟨_, extent_ofNat n⟩
  unfold Money.toFloat
  simp only [sign, signed, Nat.pow_eq]
  split
  · exact number _
  · have sum := (number (m.coefficient / 10 ^ m.places)).add
      ((number (m.coefficient % 10 ^ m.places)).div unit some)
    exact ((sum.mul unit some).onWhole _).div unit some

theorem unsigned_toCents {x : Float} {q : ℚ} (read : Extent x q) (round : ℕ → ℕ → ℕ)
    {money : Money} (found : Money.ofFloat? x = some money) :
    Unsigned (money.toCents round).toFloat := by
  have sign : money.sign = .positive := by
    simp only [Extent] at read
    generalize form : x.toModel.unpack = f at read
    cases read with
    | zero =>
      simp only [Money.ofFloat?, form] at found
      cases found
      rfl
    | finite => exact ofFloat?_sign form found
  exact unsigned_toFloat ((toCents_sign round money).trans sign) (toCents_places round money)

theorem unsigned_roundCents {x : Float} {q : ℚ} (read : Extent x q) (rounding : Rounding) :
    Unsigned (roundCents rounding x) := by
  unfold roundCents
  split
  · next money found => exact unsigned_toCents read _ found
  · have product : Unsigned (x * 100.0) := ⟨_, read.mul extent_hundred⟩
    exact (product.onWhole _).div extent_hundred (by norm_num)

theorem unsigned_truncateCents {x : Float} {q : ℚ} (read : Extent x q) :
    Unsigned (truncateCents x) := by
  unfold truncateCents
  split
  · next money found => exact unsigned_toCents read _ found
  · have product : Unsigned (x * 100.0) := ⟨_, read.mul extent_hundred⟩
    exact (product.onWhole _).div extent_hundred (by norm_num)

theorem not_lt_truncateCents {x : Float} {q : ℚ} (read : Extent x q) (small : q < 2 ^ 45) :
    ¬ x < truncateCents x := by
  have same := read
  simp only [Extent] at read
  generalize form : x.toModel.unpack = f at read
  cases read with
  | zero =>
    have cut : truncateCents x = Money.toFloat ⟨.positive, 0, 0⟩ := by
      simp only [truncateCents, Money.ofFloat?, form]
      rfl
    have none := extent_toFloat 0 (Nat.zero_le 2) (by norm_num)
    rw [joined_exact (by norm_num) (by norm_num)] at none
    rw [cut, same.lt_iff none]
    simp
  | @finite m e some canonical =>
    obtain ⟨money, found⟩ := Option.isSome_iff_exists.mp (ofFloat?_isSome form small)
    have reaches := reaches_cut form found
    have few := toCents_places (· / ·) money
    have sign := (toCents_sign (· / ·) money).trans (ofFloat?_sign form found)
    have cut : truncateCents x = (money.toCents (· / ·)).toFloat := by
      simp only [truncateCents, found]
    rw [cut]
    generalize money.toCents (· / ·) = cents at reaches few sign ⊢
    obtain ⟨s, c, p⟩ := cents
    dsimp only at reaches few sign
    subst sign
    have below : c < 2 ^ 45 * 10 ^ p := by
      have bound := reaches.1.trans_lt (middle_lt_pow some small)
      rw [div_lt_iff₀ (by positivity)] at bound
      exact_mod_cast bound
    have units : 0 < 10 ^ p ∧ 10 ^ p ≤ 100 :=
      ⟨by positivity, Nat.pow_le_pow_right (by norm_num) few⟩
    have number := extent_toFloat c few (by
      have := (Nat.div_lt_iff_lt_mul units.1).mpr below
      omega)
    rw [joined_exact units below] at number
    rw [same.lt_iff number, WithTop.coe_lt_coe, not_lt, Nat.cast_pow, Nat.cast_ofNat]
    rcases Nat.eq_zero_or_pos c with rfl | positive
    · rw [Nat.cast_zero, zero_div, nearest_zero]
      positivity
    · exact nearest_le (by positivity) canonical.1 canonical.2.1 canonical.2.2 reaches.1 reaches.2

theorem middle_lt_of_places {x : Float} {m : ℕ} {e : ℤ} {some : 0 < m}
    (form : x.toModel.unpack = .finite .positive m e some) (digits : m < 2 ^ 53)
    (large : 2 ^ 45 ≤ (m : ℚ) * 2 ^ e) {money : Money} (read : Money.ofFloat? x = .some money)
    (many : 2 < money.places) : ((m : ℚ) + 1 / 2) * 2 ^ e < 2 ^ 46 := by
  obtain ⟨-, -, passed⟩ :=
    found_scanGrids .halfUp e some 20 (((m.log2 + 1 : ℕ) + e) * 30103 / 100000 + 1)
  change ∀ other, (shortest .halfUp m e).exponent < other → _ at passed
  have finer : (shortest .halfUp m e).exponent < -2 := by
    simp only [Money.ofFloat?, form] at read
    split at read
    · split at read
      · cases read
        exact absurd many (by norm_num)
      · cases read
    · next c k places =>
      rw [places]
      split at read <;> cases read
      · dsimp only at many ⊢
        omega
      · next excess =>
        simp only [Money.maxPlaces] at excess
        dsimp only
        omega
  have size : 45 < m.log2 + 1 + e := by
    have high : (m : ℚ) < 2 ^ (m.log2 + 1) := by exact_mod_cast Nat.lt_log2_self
    have power : (2 : ℚ) ^ (45 : ℤ) < 2 ^ ((m.log2 : ℤ) + 1 + e) := by
      calc
        (2 : ℚ) ^ (45 : ℤ) ≤ m * 2 ^ e := by exact_mod_cast large
        _ < 2 ^ (m.log2 + 1) * 2 ^ e := mul_lt_mul_of_pos_right high (by positivity)
        _ = 2 ^ ((m.log2 : ℤ) + 1 + e) := by
          rw [zpow_add₀ (by norm_num)]
          congr 1
    exact (zpow_lt_zpow_iff_right₀ (by norm_num)).mp power
  have unit := passed (-2) finer (by push_cast; omega)
  have place : e < -6 := by
    have power : (2 : ℚ) ^ e < 2 ^ (-6 : ℤ) := by
      norm_num at unit ⊢
      linarith
    exact (zpow_lt_zpow_iff_right₀ (by norm_num)).mp power
  have bound : (m : ℚ) + 1 ≤ 2 ^ 53 := by exact_mod_cast digits
  calc
    ((m : ℚ) + 1 / 2) * 2 ^ e < 2 ^ 53 * 2 ^ e :=
      mul_lt_mul_of_pos_right (by linarith) (by positivity)
    _ ≤ 2 ^ 53 * 2 ^ (-7 : ℤ) := by
      apply mul_le_mul_of_nonneg_left _ (by norm_num)
      exact zpow_le_zpow_right₀ (by norm_num) (by omega)
    _ = 2 ^ 46 := by norm_num

private theorem lt_succ {x : Float} {q : ℚ} {cents : ℕ} (read : Extent x q)
    (small : (cents : ℚ) / 100 < 2 ^ 46)
    (above : x < Money.toFloat ⟨.positive, cents, 2⟩) :
    x < Money.toFloat ⟨.positive, cents + 1, 2⟩ := by
  have bound : cents < 2 ^ 46 * 100 := by
    rw [div_lt_iff₀ (by norm_num)] at small
    exact_mod_cast small
  have first := extent_toFloat cents (le_refl 2) (by omega)
  have second := extent_toFloat (cents + 1) (le_refl 2) (by omega)
  rw [read.lt_iff first, WithTop.coe_lt_coe] at above
  rw [read.lt_iff second, WithTop.coe_lt_coe]
  exact above.trans_le (joined_succ_le cents (by norm_num))

private theorem lt_scaled {x y : Float} {q : ℚ} (read : Extent x q) (scaled : ∃ a, Extent y a)
    (above : x < wholePart y / 100.0) : x < nearestWhole y / 100.0 := by
  -- Without places, in units of a whole, rounding is not below cutting.
  obtain ⟨a, scaled⟩ := scaled
  cases a with
  | top =>
    have same : wholePart y = nearestWhole y := by
      simp only [Extent] at scaled
      simp only [wholePart, nearestWhole, onWhole, scaled]
    rwa [← same]
  | coe p =>
    have cut := (extent_wholePart scaled).div extent_hundred (by norm_num)
    have rounded := (extent_nearestWhole scaled).div extent_hundred (by norm_num)
    have ordered : ⌊p⌋₊ ≤ ⌊p + 1 / 2⌋₊ := Nat.floor_mono (by linarith)
    have quotients : (⌊p⌋₊ : ℚ) / 100 ≤ (⌊p + 1 / 2⌋₊ : ℚ) / 100 :=
      div_le_div_of_nonneg_right (by exact_mod_cast ordered) (by norm_num)
    rw [read.lt_iff cut] at above
    rw [read.lt_iff rounded]
    exact above.trans_le (fit_mono (nearest_mono (by positivity) quotients))

/-- Where cutting to cents leads above an amount, so does rounding to cents. -/
theorem lt_roundCents {x : Float} {q : ℚ} (read : Extent x q) (rounding : Rounding)
    (above : x < truncateCents x) : x < roundCents rounding x := by
  have same := read
  have large : ¬ q < 2 ^ 45 := fun small => not_lt_truncateCents read small above
  rw [not_lt] at large
  unfold truncateCents at above
  unfold roundCents
  cases found : Money.ofFloat? x with
  | none =>
    rw [found] at above
    exact lt_scaled read ⟨_, read.mul extent_hundred⟩ above
  | some money =>
    rw [found] at above
    dsimp only at above ⊢
    by_cases few : money.places ≤ 2
    · simp only [Money.toCents, if_pos few] at above ⊢
      exact above
    simp only [Money.toCents, if_neg few] at above ⊢
    rcases quotient_eq_or rounding money.coefficient (Nat.pow 10 (money.places - 2)) with
      under | next
    · rwa [under]
    rw [next]
    have positive : 0 < q := lt_of_lt_of_le (by norm_num) large
    simp only [Extent] at read
    generalize form : x.toModel.unpack = f at read
    cases read with
    | zero => exact absurd positive (lt_irrefl 0)
    | @finite m e some canonical =>
      have sign := ofFloat?_sign form found
      have middle := middle_lt_of_places form canonical.1 large found (not_le.mp few)
      have reaches := reaches_cut form found
      simp only [Money.toCents, if_neg few] at reaches
      rw [sign] at above ⊢
      apply lt_succ same _ above
      calc
        _ ≤ ((m : ℚ) + 1 / 2) * 2 ^ e := by
          have := reaches.1
          norm_num at this ⊢
          exact this
        _ < 2 ^ 46 := middle

end PaymentFees
