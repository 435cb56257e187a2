import PaymentFees.Decimal.Shortest
import PaymentFees.Proofs.Binary.Whole

/-!
The shortest decimal of a binary number rounds to it: it is not past the middle between that number
and the next one, nor the one before it. Grids that were passed over are not much finer than the
number's last place, so there are at most eighteen digits.
-/

namespace PaymentFees.Decimal

open Binary

/-- `x` is not past the middle between `m · 2^e` and the next number. The middle itself rounds back
to an even significand only. -/
def Reaches (m : ℕ) (e : ℤ) (x : ℚ) : Prop :=
  x ≤ (m + 1 / 2) * 2 ^ e ∧ (x = (m + 1 / 2) * 2 ^ e → m % 2 = 0)

theorem Reaches.of_le {m : ℕ} {e : ℤ} {x y : ℚ} (reaches : Reaches m e y) (ordered : x ≤ y) :
    Reaches m e x := by
  refine ⟨ordered.trans reaches.1, fun middle => reaches.2 ?_⟩
  exact le_antisymm reaches.1 (middle ▸ ordered)

def gridUnit (e grid : ℤ) : ℕ := 2 ^ e.toNat * 10 ^ (-grid).toNat

theorem gridUnit_positive (e grid : ℤ) : 0 < gridUnit e grid :=
  Nat.mul_pos (Nat.pow_pos (by norm_num)) (Nat.pow_pos (by norm_num))

section

variable (m : ℕ) (e grid : ℤ)

theorem gridFraction_positive : 0 < (gridFraction m e grid).2 :=
  Nat.mul_pos (Nat.pow_pos (by norm_num)) (Nat.pow_pos (by norm_num))

private theorem pow_toNat (b : ℚ) (k : ℤ) (nonzero : b ≠ 0) :
    b ^ k.toNat = b ^ k * b ^ (-k).toNat := by
  have split : (k.toNat : ℤ) = k + ((-k).toNat : ℤ) := by omega
  rw [← zpow_natCast, ← zpow_natCast, split, zpow_add₀ nonzero]

theorem gridFraction_unit :
    (gridUnit e grid : ℚ) / (gridFraction m e grid).2 = 2 ^ e / 10 ^ grid := by
  have positive : ((gridFraction m e grid).2 : ℚ) ≠ 0 := by
    exact_mod_cast (gridFraction_positive m e grid).ne'
  rw [div_eq_div_iff positive (by positivity)]
  simp only [gridUnit, gridFraction, Nat.pow_eq]
  push_cast
  rw [pow_toNat 2 e (by norm_num), pow_toNat 10 grid (by norm_num)]
  ring

theorem gridFraction_fst : (gridFraction m e grid).1 = m * gridUnit e grid := by
  simp only [gridFraction, gridUnit, Nat.pow_eq]
  ring

theorem gridFraction_value :
    ((gridFraction m e grid).1 : ℚ) / (gridFraction m e grid).2 = m * 2 ^ e / 10 ^ grid := by
  rw [gridFraction_fst, Nat.cast_mul, mul_div_assoc, gridFraction_unit, mul_div_assoc]

variable {m e grid} {c : ℕ}

private theorem reaches_of_fraction
    (below : 2 * (c * (gridFraction m e grid).2) ≤ 2 * (gridFraction m e grid).1 + gridUnit e grid)
    (tie : 2 * (c * (gridFraction m e grid).2) = 2 * (gridFraction m e grid).1 + gridUnit e grid →
      m % 2 = 0) :
    Reaches m e (c * 10 ^ grid) := by
  have value := gridFraction_value m e grid
  have unit := gridFraction_unit m e grid
  have positive : (0 : ℚ) < (gridFraction m e grid).2 := by
    exact_mod_cast gridFraction_positive m e grid
  have tens : (0 : ℚ) < 10 ^ grid := by positivity
  generalize (gridFraction m e grid).1 = numerator at *
  generalize (gridFraction m e grid).2 = denominator at *
  have scaled : ((m : ℚ) + 1 / 2) * 2 ^ e =
      (2 * numerator + gridUnit e grid) / (2 * denominator) * 10 ^ grid := by
    have split : (2 * (numerator : ℚ) + gridUnit e grid) / (2 * denominator) =
        numerator / denominator + gridUnit e grid / denominator / 2 := by
      field_simp
    rw [split, value, unit]
    field_simp
  unfold Reaches
  rw [scaled]
  constructor
  · apply mul_le_mul_of_nonneg_right _ tens.le
    rw [le_div_iff₀ (by positivity)]
    have cast : 2 * ((c : ℚ) * denominator) ≤ 2 * numerator + gridUnit e grid := by
      exact_mod_cast below
    linarith
  · intro middle
    apply tie
    have same := mul_right_cancel₀ tens.ne' middle
    rw [eq_div_iff (by positivity)] at same
    have cast : 2 * ((c : ℚ) * denominator) = 2 * numerator + gridUnit e grid := by linarith
    exact_mod_cast cast

private theorem reaches_low :
    Reaches m e (((gridFraction m e grid).1 / (gridFraction m e grid).2 : ℕ) * 10 ^ grid) := by
  -- The lower neighbour on a grid is not above the number at all.
  have some := gridUnit_positive e grid
  have parts := Nat.div_add_mod' (gridFraction m e grid).1 (gridFraction m e grid).2
  apply reaches_of_fraction <;> omega

private theorem reaches_next {slack : ℕ} (closed : slack = 0 ∨ slack = 1 ∧ m % 2 = 0)
    (near :
      4 * ((gridFraction m e grid).2 - (gridFraction m e grid).1 % (gridFraction m e grid).2) <
      2 * gridUnit e grid + slack) :
    Reaches m e (((gridFraction m e grid).1 / (gridFraction m e grid).2 + 1 : ℕ) * 10 ^ grid) := by
  have parts := Nat.div_add_mod' (gridFraction m e grid).1 (gridFraction m e grid).2
  have below := Nat.mod_lt (gridFraction m e grid).1 (gridFraction_positive m e grid)
  apply reaches_of_fraction <;> rw [Nat.add_mul, one_mul] <;> omega

end

section

variable {tie : Rounding} {m : ℕ} {e grid : ℤ}

theorem gridHit_cases {coefficient : ℕ} (some : 0 < m)
    (hit : gridHit tie m e grid = .some coefficient) :
    ∃ slack, (slack = 0 ∨ slack = 1 ∧ m % 2 = 0) ∧
      (coefficient = (gridFraction m e grid).1 / (gridFraction m e grid).2 ∧
          4 * ((gridFraction m e grid).1 % (gridFraction m e grid).2) <
            quartersBelow m e * gridUnit e grid + slack ∨
        coefficient = (gridFraction m e grid).1 / (gridFraction m e grid).2 + 1 ∧
          4 * ((gridFraction m e grid).2 -
              (gridFraction m e grid).1 % (gridFraction m e grid).2) <
            2 * gridUnit e grid + slack) := by
  have unit : (gridFraction m e grid).1 / m = gridUnit e grid := by
    rw [gridFraction_fst, Nat.mul_div_cancel_left _ some]
  have closed :
      (if m % 2 = 0 then 1 else 0) = 0 ∨ (if m % 2 = 0 then 1 else 0) = 1 ∧ m % 2 = 0 := by
    split <;> omega
  simp only [gridHit, unit] at hit
  generalize (if m % 2 = 0 then 1 else 0) = slack at hit closed
  refine ⟨slack, closed, ?_⟩
  split_ifs at hit with low high high
  · injection hit with same
    rcases quotient_eq_or tie (gridFraction m e grid).1 (gridFraction m e grid).2 with under | next
    · exact .inl ⟨same.symm.trans under, low⟩
    · exact .inr ⟨same.symm.trans next, high⟩
  · injection hit with same
    exact .inl ⟨same.symm, low⟩
  · injection hit with same
    exact .inr ⟨same.symm, high⟩

theorem reaches_of_gridHit {coefficient : ℕ} (some : 0 < m)
    (hit : gridHit tie m e grid = .some coefficient) :
    Reaches m e (coefficient * 10 ^ grid) := by
  obtain ⟨slack, closed, ⟨rfl, -⟩ | ⟨rfl, near⟩⟩ := gridHit_cases some hit
  · exact reaches_low
  · exact reaches_next closed near

theorem le_of_gridMiss (some : 0 < m) (miss : gridHit tie m e grid = none) :
    3 * (2 : ℚ) ^ e ≤ 4 * 10 ^ grid := by
  have unit : (gridFraction m e grid).1 / m = gridUnit e grid := by
    rw [gridFraction_fst, Nat.mul_div_cancel_left _ some]
  have quarters : 1 ≤ quartersBelow m e := by
    unfold quartersBelow
    split <;> norm_num
  have positive := gridFraction_positive m e grid
  have below := Nat.mod_lt (gridFraction m e grid).1 positive
  simp only [gridHit, unit] at miss
  generalize (if m % 2 = 0 then 1 else 0) = slack at miss
  split_ifs at miss with low high
  have step : gridUnit e grid ≤ quartersBelow m e * gridUnit e grid :=
    Nat.le_mul_of_pos_left _ quarters
  have whole : 3 * gridUnit e grid ≤ 4 * (gridFraction m e grid).2 := by omega
  have ratio := gridFraction_unit m e grid
  have cast : 3 * (gridUnit e grid : ℚ) ≤ 4 * (gridFraction m e grid).2 := by exact_mod_cast whole
  have some : (0 : ℚ) < (gridFraction m e grid).2 := by exact_mod_cast positive
  have tens : (0 : ℚ) < 10 ^ grid := by positivity
  have bound : (gridUnit e grid : ℚ) / (gridFraction m e grid).2 ≤ 4 / 3 := by
    rw [div_le_div_iff₀ some (by norm_num)]
    linarith
  rw [ratio, div_le_div_iff₀ tens (by norm_num)] at bound
  linarith

end

/-- What a scan of grids from `grid` downward finds: a number that is not past the middle, on a grid
that was tried or zero, and no hit on the coarser grids. -/
structure Found (m : ℕ) (e : ℤ) (tries : ℕ) (grid : ℤ) (d : Decimal) : Prop where
  reaches : Reaches m e (d.coefficient * 10 ^ d.exponent)
  zero_or_tried : d.coefficient = 0 ∨ grid < d.exponent + tries
  passed : ∀ other, d.exponent < other → other ≤ grid → 3 * (2 : ℚ) ^ e ≤ 4 * 10 ^ other

theorem found_scanGrids (tie : Rounding) {m : ℕ} (e : ℤ) (some : 0 < m) (tries : ℕ) (grid : ℤ) :
    Found m e tries grid (scanGrids tie m e tries grid) := by
  induction tries generalizing grid with
  | zero =>
    refine ⟨?_, Or.inl rfl, fun other above below => absurd above (not_lt.mpr below)⟩
    have low : (0 : ℚ) < (m + 1 / 2) * 2 ^ e := by positivity
    simp only [scanGrids, Nat.cast_zero, zero_mul]
    exact ⟨low.le, fun middle => absurd middle low.ne⟩
  | succ tries ih =>
    unfold scanGrids
    split
    · next coefficient hit =>
      refine ⟨reaches_of_gridHit some hit, Or.inr ?_, fun other above below => ?_⟩
      · dsimp only
        omega
      · exact absurd above (not_lt.mpr below)
    · next miss =>
      obtain ⟨reaches, tried, passed⟩ := ih (grid - 1)
      refine ⟨reaches, tried.imp_right (by omega), fun other above below => ?_⟩
      rcases below.lt_or_eq with finer | rfl
      · exact passed other above (by omega)
      · exact le_of_gridMiss some miss

section

variable {tie : Rounding} {m : ℕ} {e grid : ℤ}

theorem gridHit_pos {coefficient : ℕ} (some : 0 < m)
    (hit : gridHit tie m e grid = .some coefficient) : 0 < coefficient := by
  obtain ⟨slack, closed, ⟨rfl, near⟩ | ⟨rfl, -⟩⟩ := gridHit_cases some hit
  · -- Zero is further below the number than the half of its last place.
    have place := gridUnit_positive e grid
    have whole : gridUnit e grid ≤ (gridFraction m e grid).1 := by
      rw [gridFraction_fst]
      exact Nat.le_mul_of_pos_left _ some
    have quarters : quartersBelow m e ≤ 2 := by
      unfold quartersBelow
      split <;> norm_num
    have width : quartersBelow m e * gridUnit e grid ≤ 2 * gridUnit e grid :=
      Nat.mul_le_mul_right _ quarters
    rw [Nat.pos_iff_ne_zero]
    intro zero
    have parts := Nat.div_add_mod' (gridFraction m e grid).1 (gridFraction m e grid).2
    rw [zero, zero_mul, zero_add] at parts
    omega
  · exact Nat.succ_pos _

theorem scanGrids_pos (some : 0 < m) {tries : ℕ}
    (fine : 4 * (10 : ℚ) ^ (grid - tries) < 3 * 2 ^ e) :
    0 < (scanGrids tie m e (tries + 1) grid).coefficient := by
  induction tries generalizing grid with
  | zero =>
    rw [scanGrids]
    split
    · next hit => exact gridHit_pos some hit
    · next miss =>
      have coarse := le_of_gridMiss some miss
      rw [Nat.cast_zero, sub_zero] at fine
      exact absurd fine coarse.not_gt
  | succ tries ih =>
    rw [scanGrids]
    split
    · next hit => exact gridHit_pos some hit
    · apply ih
      have same : grid - 1 - tries = grid - (tries + 1 : ℕ) := by
        push_cast
        ring
      rwa [same]

end

private theorem powers_of_ten : ∀ n < 1100,
    10 ^ (n * 30103 / 100000) ≤ 2 ^ n ∧ 2 ^ n ≤ 10 ^ (n * 30103 / 100000 + 1) := by
  decide +kernel

private theorem floor_neg_multiple {j : ℕ} (some : 0 < j) (small : j < 100000) :
    -(j : ℤ) * 30103 / 100000 = -((j * 30103 / 100000 : ℕ) + 1) := by
  have other : j * 30103 % 100000 ≠ 0 := by
    intro divides
    have factor : 100000 ∣ j :=
      Nat.Coprime.dvd_of_dvd_mul_right (by norm_num) (Nat.dvd_of_mod_eq_zero divides)
    exact absurd (Nat.le_of_dvd some factor) (not_le.mpr small)
  clear some small
  omega

theorem pow_two_between {n : ℤ} (range : -1100 < n ∧ n < 1100) :
    (10 : ℚ) ^ (n * 30103 / 100000) ≤ 2 ^ n ∧ 2 ^ n ≤ (10 : ℚ) ^ (n * 30103 / 100000 + 1) := by
  obtain ⟨j, rfl | rfl⟩ := n.eq_nat_or_neg
  · obtain ⟨low, high⟩ := powers_of_ten j (by omega)
    have place : (j : ℤ) * 30103 / 100000 = (j * 30103 / 100000 : ℕ) := by omega
    rw [place]
    exact ⟨by exact_mod_cast low, by exact_mod_cast high⟩
  · rcases Nat.eq_zero_or_pos j with rfl | some
    · norm_num
    obtain ⟨low, high⟩ := powers_of_ten j (by omega)
    rw [floor_neg_multiple some (by omega)]
    have low' : (10 : ℚ) ^ (j * 30103 / 100000) ≤ 2 ^ j := by exact_mod_cast low
    have high' : (2 : ℚ) ^ j ≤ 10 ^ (j * 30103 / 100000 + 1) := by exact_mod_cast high
    constructor
    · rw [zpow_neg, zpow_neg, zpow_natCast]
      exact inv_anti₀ (by positivity) (by exact_mod_cast high')
    · rw [neg_add, add_assoc, neg_add_cancel, add_zero, zpow_neg, zpow_neg, zpow_natCast,
        zpow_natCast]
      exact inv_anti₀ (by positivity) low'

theorem shortest_coefficient (tie : Rounding) {m : ℕ} {e : ℤ} (some : 0 < m)
    (canonical : Canonical m e) (bounded : e ≤ 971) :
    0 < (shortest tie m e).coefficient ∧ (shortest tie m e).coefficient < 10 ^ 18 := by
  obtain ⟨digits, least, -⟩ := canonical
  have log : m.log2 < 53 := (Nat.log2_lt some.ne').mpr digits
  have range : -1100 < ((m.log2 + 1 : ℕ) : ℤ) + e ∧ ((m.log2 + 1 : ℕ) : ℤ) + e < 1100 := by omega
  obtain ⟨low, high⟩ := pow_two_between range
  have size : (m : ℚ) + 1 / 2 < 2 ^ (m.log2 + 1) := by
    have whole : (m : ℚ) + 1 ≤ 2 ^ (m.log2 + 1) := by exact_mod_cast Nat.lt_log2_self
    linarith
  have total : (2 : ℚ) ^ (((m.log2 + 1 : ℕ) : ℤ) + e) = 2 ^ (m.log2 + 1) * 2 ^ e := by
    rw [zpow_add₀ (by norm_num), zpow_natCast]
  have unit : (0 : ℚ) < 2 ^ e := by positivity
  have found := found_scanGrids tie e some 20 (((m.log2 + 1 : ℕ) + e) * 30103 / 100000 + 1)
  rw [total] at low high
  unfold shortest
  generalize (((m.log2 + 1 : ℕ) : ℤ) + e) * 30103 / 100000 = place at low high found
  have fine : 4 * (10 : ℚ) ^ (place + 1 - (19 : ℕ)) < 3 * 2 ^ e := by
    have top : (2 : ℚ) ^ (m.log2 + 1) ≤ 2 ^ 53 := pow_le_pow_right₀ (by norm_num) (by omega)
    have split : (10 : ℚ) ^ (place + 1 - (19 : ℕ)) = 10 ^ place / 10 ^ 18 := by
      rw [eq_div_iff (by positivity), ← zpow_natCast, ← zpow_add₀ (by norm_num)]
      congr 1
      push_cast
      ring
    rw [split]
    calc
      4 * ((10 : ℚ) ^ place / 10 ^ 18) ≤ 4 * (2 ^ (m.log2 + 1) * 2 ^ e / 10 ^ 18) := by gcongr
      _ ≤ 4 * (2 ^ 53 * 2 ^ e / 10 ^ 18) := by gcongr
      _ < 3 * 2 ^ e := by
        rw [← sub_pos]
        ring_nf
        positivity
  have positive : 0 < (scanGrids tie m e 20 (place + 1)).coefficient := scanGrids_pos some fine
  refine ⟨positive, ?_⟩
  generalize scanGrids tie m e 20 (place + 1) = d at found positive
  obtain ⟨coefficient, exponent⟩ := d
  obtain ⟨⟨reaches, -⟩, tried, passed⟩ := found
  dsimp only at *
  have tens : (0 : ℚ) < 10 ^ exponent := by positivity
  by_cases coarse : place + 1 ≤ exponent
  · -- On the first grid the number is below one.
    have first : (10 : ℚ) ^ (place + 1) ≤ 10 ^ exponent := zpow_le_zpow_right₀ (by norm_num) coarse
    have below : (coefficient : ℚ) * 10 ^ exponent < 1 * 10 ^ exponent := by
      calc
        (coefficient : ℚ) * 10 ^ exponent ≤ (m + 1 / 2) * 2 ^ e := reaches
        _ < 2 ^ (m.log2 + 1) * 2 ^ e := mul_lt_mul_of_pos_right size unit
        _ ≤ 1 * 10 ^ exponent := by
          rw [one_mul]
          exact high.trans first
    have less : coefficient < 1 := by exact_mod_cast lt_of_mul_lt_mul_right below tens.le
    omega
  · -- The grid before this one was passed over.
    have passes := passed (exponent + 1) (by omega) (by omega)
    rw [zpow_add₀ (by norm_num), zpow_one] at passes
    have half : (m : ℚ) + 1 / 2 ≤ 2 ^ 53 := by
      have whole : (m : ℚ) + 1 ≤ 2 ^ 53 := by exact_mod_cast digits
      linarith
    have below : (coefficient : ℚ) * 10 ^ exponent < 10 ^ 18 * 10 ^ exponent := by
      calc
        (coefficient : ℚ) * 10 ^ exponent ≤ (m + 1 / 2) * 2 ^ e := reaches
        _ ≤ 2 ^ 53 * 2 ^ e := mul_le_mul_of_nonneg_right half unit.le
        _ ≤ 2 ^ 53 * (4 / 3 * (10 ^ exponent * 10)) := by
          apply mul_le_mul_of_nonneg_left _ (by norm_num)
          linarith
        _ < 10 ^ 18 * 10 ^ exponent := by
          rw [← sub_pos]
          ring_nf
          positivity
    exact_mod_cast lt_of_mul_lt_mul_right below tens.le

/-- `x` is not below the middle between `m · 2^e` and the number before it. The middle itself rounds
up to an even significand only. -/
def Clears (m : ℕ) (e : ℤ) (x : ℚ) : Prop :=
  (m - quartersBelow m e / 4) * 2 ^ e ≤ x ∧
    (x = (m - quartersBelow m e / 4) * 2 ^ e → m % 2 = 0)

theorem Clears.le_nearest {m : ℕ} {e : ℤ} {x : ℚ} (canonical : Canonical m e)
    (clears : Clears m e x) : m * 2 ^ e ≤ Binary.nearest x := by
  obtain ⟨digits, least, full⟩ := canonical
  obtain ⟨above, tie⟩ := clears
  unfold quartersBelow leastMantissa at above tie
  split_ifs at above tie with first
  · -- Below the least full significand the numbers are twice as close.
    obtain ⟨rfl, normal⟩ := first
    have finer : (2 : ℚ) ^ e = 2 * 2 ^ (e - 1) := by
      rw [zpow_sub₀ (by norm_num)]
      field_simp
    have bound := @Binary.le_nearest x (2 ^ 53) (e - 1) le_rfl (by omega) (.inl (by norm_num))
    rw [finer] at above ⊢
    have same : ((4503599627370496 : ℕ) : ℚ) * (2 * 2 ^ (e - 1)) =
        ((2 ^ 53 : ℕ) : ℚ) * 2 ^ (e - 1) := by
      push_cast
      ring
    rw [same]
    apply bound
    · refine le_trans (le_of_eq ?_) above
      push_cast
      ring
    · intro _
      norm_num
  · push_cast at above tie
    apply Binary.le_nearest digits.le least
    · simp only [not_and_or, not_lt] at first
      omega
    · refine le_trans (le_of_eq ?_) above
      ring
    · intro middle
      apply tie
      rw [middle]
      ring

section

variable {tie : Rounding} {m c : ℕ} {e grid : ℤ}

private theorem clears_of_fraction
    (above : 4 * (gridFraction m e grid).1 ≤
      4 * (c * (gridFraction m e grid).2) + quartersBelow m e * gridUnit e grid)
    (even : 4 * (gridFraction m e grid).1 =
      4 * (c * (gridFraction m e grid).2) + quartersBelow m e * gridUnit e grid → m % 2 = 0) :
    Clears m e (c * 10 ^ grid) := by
  have value := gridFraction_value m e grid
  have unit := gridFraction_unit m e grid
  have positive : (0 : ℚ) < (gridFraction m e grid).2 := by
    exact_mod_cast gridFraction_positive m e grid
  have tens : (0 : ℚ) < 10 ^ grid := by positivity
  unfold Clears
  generalize quartersBelow m e = quarters at *
  generalize (gridFraction m e grid).1 = numerator at *
  generalize (gridFraction m e grid).2 = denominator at *
  have scaled : ((m : ℚ) - quarters / 4) * 2 ^ e =
      (4 * numerator - quarters * gridUnit e grid) / (4 * denominator) * 10 ^ grid := by
    have split : (4 * (numerator : ℚ) - quarters * gridUnit e grid) / (4 * denominator) =
        numerator / denominator - quarters * (gridUnit e grid / denominator) / 4 := by
      field_simp
    rw [split, value, unit]
    field_simp
  rw [scaled]
  constructor
  · apply mul_le_mul_of_nonneg_right _ tens.le
    rw [div_le_iff₀ (by positivity)]
    have cast : 4 * (numerator : ℚ) ≤ 4 * (c * denominator) + quarters * gridUnit e grid := by
      exact_mod_cast above
    linarith
  · intro middle
    apply even
    have same := mul_right_cancel₀ tens.ne' middle
    rw [eq_div_iff (by positivity)] at same
    have cast : 4 * (numerator : ℚ) = 4 * (c * denominator) + quarters * gridUnit e grid := by
      linarith
    exact_mod_cast cast

private theorem clears_low {slack : ℕ} (closed : slack = 0 ∨ slack = 1 ∧ m % 2 = 0)
    (near : 4 * ((gridFraction m e grid).1 % (gridFraction m e grid).2) <
      quartersBelow m e * gridUnit e grid + slack) :
    Clears m e (((gridFraction m e grid).1 / (gridFraction m e grid).2 : ℕ) * 10 ^ grid) := by
  have parts := Nat.div_add_mod' (gridFraction m e grid).1 (gridFraction m e grid).2
  apply clears_of_fraction <;> omega

private theorem clears_next :
    Clears m e (((gridFraction m e grid).1 / (gridFraction m e grid).2 + 1 : ℕ) * 10 ^ grid) := by
  have parts := Nat.div_add_mod' (gridFraction m e grid).1 (gridFraction m e grid).2
  have below := Nat.mod_lt (gridFraction m e grid).1 (gridFraction_positive m e grid)
  apply clears_of_fraction <;> rw [Nat.add_mul, one_mul]
  · generalize quartersBelow m e * gridUnit e grid = width
    omega
  · generalize quartersBelow m e * gridUnit e grid = width
    omega

theorem clears_of_gridHit (some : 0 < m) (hit : gridHit tie m e grid = .some c) :
    Clears m e (c * 10 ^ grid) := by
  obtain ⟨slack, closed, ⟨rfl, near⟩ | ⟨rfl, -⟩⟩ := gridHit_cases some hit
  · exact clears_low closed near
  · exact clears_next

theorem nearest_of_gridHit (some : 0 < m) (canonical : Canonical m e)
    (hit : gridHit tie m e grid = .some c) : Binary.nearest (c * 10 ^ grid) = m * 2 ^ e := by
  have coefficient : (0 : ℚ) < c := by exact_mod_cast gridHit_pos some hit
  obtain ⟨below, even⟩ := reaches_of_gridHit some hit
  apply le_antisymm
  · exact nearest_le (by positivity) canonical.1 canonical.2.1 canonical.2.2 below even
  · exact (clears_of_gridHit some hit).le_nearest canonical

theorem gridHit_scanGrids {tries : ℕ} (found : 0 < (scanGrids tie m e tries grid).coefficient) :
    gridHit tie m e (scanGrids tie m e tries grid).exponent =
      .some (scanGrids tie m e tries grid).coefficient := by
  induction tries generalizing grid with
  | zero => cases found
  | succ tries ih =>
    unfold scanGrids at found ⊢
    split
    · next hit => exact hit
    · next miss =>
      rw [miss] at found
      exact ih found

end

/-- The shortest decimal of a number rounds to it. -/
theorem nearest_shortest (tie : Rounding) {m : ℕ} {e : ℤ} (some : 0 < m)
    (canonical : Canonical m e) (bounded : e ≤ 971) :
    Binary.nearest ((shortest tie m e).coefficient * 10 ^ (shortest tie m e).exponent) =
      m * 2 ^ e :=
  nearest_of_gridHit some canonical
    (gridHit_scanGrids (shortest_coefficient tie some canonical bounded).1)

end PaymentFees.Decimal
