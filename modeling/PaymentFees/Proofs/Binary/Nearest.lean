import Mathlib

/-!
Rounding a rational number to the nearest binary one, a tie going to the even significand. The
range is open above: there is no largest number here. Rounding is monotone, leaves binary numbers
as they are, and moves no number by more than half of its last place.
-/

namespace PaymentFees.Binary

def evenWhole (t : ℚ) : ℕ :=
  if t - ⌊t⌋₊ < 1 / 2 then ⌊t⌋₊
  else if 1 / 2 < t - ⌊t⌋₊ then ⌊t⌋₊ + 1
  else ⌊t⌋₊ + ⌊t⌋₊ % 2

/-- The power of two that is the last place of a number: 53 binary digits, but none below the
least binary number. -/
def lastPlace (x : ℚ) : ℤ := max (Int.log 2 x - 52) (-1074)

def nearest (x : ℚ) : ℚ := evenWhole (x / 2 ^ lastPlace x) * 2 ^ lastPlace x

/-- A binary number: a significand of 53 digits and a power of two. -/
def Representable (x : ℚ) : Prop :=
  ∃ (m : ℕ) (e : ℤ), m ≤ 2 ^ 53 ∧ -1074 ≤ e ∧ x = m * 2 ^ e

theorem div_eq_whole_add_rest (m : ℕ) {n : ℕ} (positive : 0 < n) :
    (m : ℚ) / n = (m / n : ℕ) + ((m % n : ℕ) : ℚ) / n := by
  have unit : (0 : ℚ) < n := by exact_mod_cast positive
  have parts : ((m % n : ℕ) : ℚ) + n * (m / n : ℕ) = m := by exact_mod_cast Nat.mod_add_div m n
  rw [← parts]
  field_simp
  ring

theorem evenWhole_le {t : ℚ} {n : ℕ} (below : t ≤ n + 1 / 2)
    (tie : t = n + 1 / 2 → n % 2 = 0) : evenWhole t ≤ n := by
  by_cases negative : t < 0
  · have floor : ⌊t⌋₊ = 0 := Nat.floor_of_nonpos negative.le
    simp only [evenWhole, floor, Nat.cast_zero, sub_zero]
    rw [if_pos (by linarith)]
    exact Nat.zero_le n
  have low : (⌊t⌋₊ : ℚ) ≤ t := Nat.floor_le (not_lt.mp negative)
  have floor : ⌊t⌋₊ ≤ n := by
    have : (⌊t⌋₊ : ℚ) < n + 1 := by linarith
    exact_mod_cast Nat.lt_succ_iff.mp (by exact_mod_cast this)
  unfold evenWhole
  split_ifs with under beyond
  · exact floor
  · have : (⌊t⌋₊ : ℚ) < n := by linarith
    exact_mod_cast this
  · have half : t = ⌊t⌋₊ + 1 / 2 := by linarith
    rcases floor.lt_or_eq with smaller | same
    · omega
    · have even := tie (by rw [same] at half; exact half)
      omega

theorem le_evenWhole {t : ℚ} {n : ℕ} (above : n - 1 / 2 ≤ t)
    (tie : t = n - 1 / 2 → n % 2 = 0) : n ≤ evenWhole t := by
  have high : t < ⌊t⌋₊ + 1 := Nat.lt_floor_add_one t
  have floor : n ≤ ⌊t⌋₊ + 1 := by
    have : (n : ℚ) < ⌊t⌋₊ + 1 + 1 := by linarith
    exact Nat.lt_succ_iff.mp (by exact_mod_cast this)
  unfold evenWhole
  split_ifs with under beyond
  · have : (n : ℚ) < ⌊t⌋₊ + 1 := by linarith
    exact Nat.lt_succ_iff.mp (by exact_mod_cast this)
  · exact floor
  · rcases floor.lt_or_eq with smaller | same
    · omega
    · have cast : (n : ℚ) = ⌊t⌋₊ + 1 := by exact_mod_cast same
      have even := tie (by linarith)
      omega

theorem le_evenWhole_add_half (t : ℚ) : t ≤ evenWhole t + 1 / 2 := by
  have high : t < ⌊t⌋₊ + 1 := Nat.lt_floor_add_one t
  unfold evenWhole
  split_ifs with under beyond
  · linarith
  · push_cast
    linarith
  · have : (0 : ℚ) ≤ ((⌊t⌋₊ % 2 : ℕ) : ℚ) := Nat.cast_nonneg _
    push_cast at this ⊢
    linarith

theorem evenWhole_even_of_tie {t : ℚ} (tie : t = evenWhole t + 1 / 2) :
    evenWhole t % 2 = 0 := by
  have high : t < ⌊t⌋₊ + 1 := Nat.lt_floor_add_one t
  unfold evenWhole at tie ⊢
  split_ifs at tie ⊢ with under beyond
  · linarith
  · push_cast at tie
    linarith
  · omega

theorem evenWhole_sub_half_le {t : ℚ} (nonnegative : 0 ≤ t) : (evenWhole t : ℚ) - 1 / 2 ≤ t := by
  have low : (⌊t⌋₊ : ℚ) ≤ t := Nat.floor_le nonnegative
  unfold evenWhole
  split_ifs with under beyond
  · linarith
  · push_cast
    linarith
  · have : ((⌊t⌋₊ % 2 : ℕ) : ℚ) ≤ 1 := by
      exact_mod_cast Nat.le_of_lt_succ (Nat.mod_lt _ (by decide))
    push_cast at this ⊢
    linarith

theorem evenWhole_mono {s t : ℚ} (ordered : s ≤ t) : evenWhole s ≤ evenWhole t := by
  apply evenWhole_le
  · exact ordered.trans (le_evenWhole_add_half t)
  · intro tie
    apply evenWhole_even_of_tie
    have := le_evenWhole_add_half t
    linarith

@[simp] theorem evenWhole_natCast (n : ℕ) : evenWhole n = n := by
  apply le_antisymm
  · exact evenWhole_le (by linarith) (fun tie => absurd tie (by linarith))
  · exact le_evenWhole (by linarith) (fun tie => absurd tie (by linarith))

theorem least_le_lastPlace (x : ℚ) : -1074 ≤ lastPlace x := le_max_right _ _

theorem lt_of_lastPlace (x : ℚ) : x < 2 ^ (lastPlace x + 53) := by
  have above := Int.lt_zpow_succ_log_self (b := 2) (by norm_num) x
  refine above.trans_le (zpow_le_zpow_right₀ (by norm_num) ?_)
  have : Int.log 2 x - 52 ≤ lastPlace x := le_max_left _ _
  omega

theorem le_of_lastPlace {x : ℚ} (positive : 0 < x) (normal : lastPlace x ≠ -1074) :
    2 ^ (lastPlace x + 52) ≤ x := by
  have below := Int.zpow_log_le_self (b := 2) (by norm_num) positive
  have place : lastPlace x + 52 = Int.log 2 x := by
    unfold lastPlace at normal ⊢
    omega
  rw [place]
  exact_mod_cast below

theorem lastPlace_le {x : ℚ} {e : ℤ} (positive : 0 < x) (least : -1074 ≤ e)
    (below : x < 2 ^ (e + 53)) : lastPlace x ≤ e := by
  have log : Int.log 2 x < e + 53 := by
    apply (Int.lt_zpow_iff_log_lt (by norm_num) positive).mp
    exact_mod_cast below
  unfold lastPlace
  omega

theorem le_lastPlace {x : ℚ} {e : ℤ} (above : 2 ^ (e + 52) ≤ x) : e ≤ lastPlace x := by
  by_contra below
  have less := lt_of_lastPlace x
  have : (2 : ℚ) ^ (lastPlace x + 53) ≤ 2 ^ (e + 52) := zpow_le_zpow_right₀ (by norm_num) (by omega)
  linarith

theorem lastPlace_mono {x y : ℚ} (positive : 0 < x) (ordered : x ≤ y) :
    lastPlace x ≤ lastPlace y :=
  lastPlace_le positive (least_le_lastPlace y) (ordered.trans_lt (lt_of_lastPlace y))

theorem significand_le (x : ℚ) : evenWhole (x / 2 ^ lastPlace x) ≤ 2 ^ 53 := by
  have scaled : x / 2 ^ lastPlace x ≤ ((2 ^ 53 : ℕ) : ℚ) := by
    rw [div_le_iff₀ (by positivity)]
    calc
      x ≤ 2 ^ (lastPlace x + 53) := (lt_of_lastPlace x).le
      _ = ((2 ^ 53 : ℕ) : ℚ) * 2 ^ lastPlace x := by
        rw [zpow_add₀ (by norm_num)]
        norm_num
        ring
  have whole := evenWhole_mono scaled
  rwa [evenWhole_natCast] at whole

theorem nearest_nonneg (x : ℚ) : 0 ≤ nearest x := by
  unfold nearest
  positivity

theorem nearest_le_pow (x : ℚ) : nearest x ≤ 2 ^ (lastPlace x + 53) := by
  have significand : (evenWhole (x / 2 ^ lastPlace x) : ℚ) ≤ 2 ^ 53 := by
    exact_mod_cast significand_le x
  calc
    nearest x ≤ 2 ^ 53 * 2 ^ lastPlace x := mul_le_mul_of_nonneg_right significand (by positivity)
    _ = 2 ^ (lastPlace x + 53) := by
      rw [zpow_add₀ (by norm_num)]
      norm_num
      ring

theorem le_significand {x : ℚ} (positive : 0 < x) (normal : lastPlace x ≠ -1074) :
    2 ^ 52 ≤ evenWhole (x / 2 ^ lastPlace x) := by
  have scaled : ((2 ^ 52 : ℕ) : ℚ) ≤ x / 2 ^ lastPlace x := by
    rw [le_div_iff₀ (by positivity)]
    calc
      ((2 ^ 52 : ℕ) : ℚ) * 2 ^ lastPlace x = 2 ^ (lastPlace x + 52) := by
        rw [zpow_add₀ (by norm_num)]
        norm_num
        ring
      _ ≤ x := le_of_lastPlace positive normal
  have whole := evenWhole_mono scaled
  rwa [evenWhole_natCast] at whole

theorem pow_le_nearest {x : ℚ} (positive : 0 < x) (normal : lastPlace x ≠ -1074) :
    2 ^ (lastPlace x + 52) ≤ nearest x := by
  have significand : (2 : ℚ) ^ 52 ≤ evenWhole (x / 2 ^ lastPlace x) := by
    exact_mod_cast le_significand positive normal
  calc
    (2 : ℚ) ^ (lastPlace x + 52) = 2 ^ 52 * 2 ^ lastPlace x := by
      rw [zpow_add₀ (by norm_num)]
      norm_num
      ring
    _ ≤ nearest x := mul_le_mul_of_nonneg_right significand (by positivity)

@[simp] theorem nearest_zero : nearest 0 = 0 := by
  have : evenWhole 0 = 0 := by exact_mod_cast evenWhole_natCast 0
  simp [nearest, this]

theorem nearest_mono {x y : ℚ} (nonnegative : 0 ≤ x) (ordered : x ≤ y) :
    nearest x ≤ nearest y := by
  rcases nonnegative.eq_or_lt with rfl | positive
  · simpa using nearest_nonneg y
  rcases (lastPlace_mono positive ordered).lt_or_eq with finer | same
  · have normal : lastPlace y ≠ -1074 := by
      have := least_le_lastPlace x
      omega
    calc
      nearest x ≤ 2 ^ (lastPlace x + 53) := nearest_le_pow x
      _ ≤ 2 ^ (lastPlace y + 52) := zpow_le_zpow_right₀ (by norm_num) (by omega)
      _ ≤ nearest y := pow_le_nearest (positive.trans_le ordered) normal
  · unfold nearest
    rw [same]
    have whole : evenWhole (x / 2 ^ lastPlace y) ≤ evenWhole (y / 2 ^ lastPlace y) :=
      evenWhole_mono (by gcongr)
    gcongr

/-- What lies below the middle between a binary number and the next one is not rounded above it,
and neither is the middle itself if the significand is even. -/
theorem nearest_le {x : ℚ} {m : ℕ} {e : ℤ} (positive : 0 < x) (bound : m < 2 ^ 53)
    (least : -1074 ≤ e) (canonical : 2 ^ 52 ≤ m ∨ e = -1074) (below : x ≤ (m + 1 / 2) * 2 ^ e)
    (tie : x = (m + 1 / 2) * 2 ^ e → m % 2 = 0) : nearest x ≤ m * 2 ^ e := by
  have unit : (0 : ℚ) < 2 ^ e := by positivity
  have fits : (m : ℚ) + 1 ≤ 2 ^ 53 := by exact_mod_cast bound
  have place : lastPlace x ≤ e := by
    apply lastPlace_le positive least
    calc
      x ≤ (m + 1 / 2) * 2 ^ e := below
      _ < 2 ^ 53 * 2 ^ e := by
        apply mul_lt_mul_of_pos_right _ unit
        linarith
      _ = 2 ^ (e + 53) := by
        rw [zpow_add₀ (by norm_num)]
        norm_num
        ring
  rcases place.lt_or_eq with finer | same
  · -- With a finer last place `x` is below all numbers of 53 digits whose last place is `e`.
    have normal : (2 : ℚ) ^ 52 ≤ m := by
      have := least_le_lastPlace x
      have digits : 2 ^ 52 ≤ m := by omega
      exact_mod_cast digits
    calc
      nearest x ≤ 2 ^ (lastPlace x + 53) := nearest_le_pow x
      _ ≤ 2 ^ (e + 52) := zpow_le_zpow_right₀ (by norm_num) (by omega)
      _ = 2 ^ 52 * 2 ^ e := by
        rw [zpow_add₀ (by norm_num)]
        norm_num
        ring
      _ ≤ m * 2 ^ e := mul_le_mul_of_nonneg_right normal unit.le
  · unfold nearest
    rw [same]
    have whole : evenWhole (x / 2 ^ e) ≤ m := by
      apply evenWhole_le
      · rw [div_le_iff₀ unit]
        exact below
      · intro middle
        apply tie
        rw [← middle, div_mul_cancel₀ _ unit.ne']
    have cast : (evenWhole (x / 2 ^ e) : ℚ) ≤ m := by exact_mod_cast whole
    exact mul_le_mul_of_nonneg_right cast unit.le

private theorem nearest_of_digits {m : ℕ} {e : ℤ} (bound : m < 2 ^ 53) (least : -1074 ≤ e) :
    nearest (m * 2 ^ e) = m * 2 ^ e := by
  rcases Nat.eq_zero_or_pos m with rfl | some
  · simp
  have unit : (0 : ℚ) < 2 ^ e := by positivity
  have place : lastPlace (m * 2 ^ e) ≤ e := by
    apply lastPlace_le (by positivity) least
    calc
      (m : ℚ) * 2 ^ e < 2 ^ 53 * 2 ^ e := by
        apply mul_lt_mul_of_pos_right _ unit
        exact_mod_cast bound
      _ = 2 ^ (e + 53) := by
        rw [zpow_add₀ (by norm_num)]
        norm_num
        ring
  obtain ⟨k, shift⟩ := Int.le.dest place
  have whole : (m : ℚ) * 2 ^ e / 2 ^ lastPlace (m * 2 ^ e) = ((m * 2 ^ k : ℕ) : ℚ) := by
    rw [div_eq_iff (by positivity)]
    nth_rewrite 1 [← shift]
    rw [zpow_add₀ (by norm_num)]
    push_cast
    rw [zpow_natCast]
    ring
  unfold nearest
  rw [whole, evenWhole_natCast, ← whole, div_mul_cancel₀ _ (by positivity)]

theorem nearest_of_representable {x : ℚ} (binary : Representable x) : nearest x = x := by
  obtain ⟨m, e, bound, least, rfl⟩ := binary
  rcases bound.lt_or_eq with digits | rfl
  · exact nearest_of_digits digits least
  · have shifted : (((2 ^ 53 : ℕ) : ℚ)) * 2 ^ e = ((2 ^ 52 : ℕ) : ℚ) * 2 ^ (e + 1) := by
      rw [zpow_add₀ (by norm_num)]
      norm_num
      ring
    rw [shifted]
    exact nearest_of_digits (by norm_num) (by omega)

theorem le_nearest {x : ℚ} {m : ℕ} {e : ℤ} (bound : m ≤ 2 ^ 53) (least : -1074 ≤ e)
    (canonical : 2 ^ 52 < m ∨ e = -1074) (above : (m - 1 / 2) * 2 ^ e ≤ x)
    (tie : x = (m - 1 / 2) * 2 ^ e → m % 2 = 0) : m * 2 ^ e ≤ nearest x := by
  have unit : (0 : ℚ) < 2 ^ e := by positivity
  have exact : nearest (m * 2 ^ e) = m * 2 ^ e :=
    nearest_of_representable ⟨m, e, bound, least, rfl⟩
  by_cases past : (m : ℚ) * 2 ^ e ≤ x
  · have mono := nearest_mono (by positivity) past
    rwa [exact] at mono
  rw [not_le] at past
  rcases Nat.eq_zero_or_pos m with rfl | some
  · simpa using nearest_nonneg x
  have one : (1 : ℚ) ≤ m := by exact_mod_cast some
  have positive : 0 < x := by
    apply lt_of_lt_of_le _ above
    apply mul_pos _ unit
    linarith
  have place : lastPlace x = e := by
    apply le_antisymm
    · apply lastPlace_le positive least
      calc
        x < m * 2 ^ e := past
        _ ≤ 2 ^ 53 * 2 ^ e := mul_le_mul_of_nonneg_right (by exact_mod_cast bound) unit.le
        _ = 2 ^ (e + 53) := by
          rw [zpow_add₀ (by norm_num)]
          norm_num
          ring
    · rcases canonical with full | rfl
      · apply le_lastPlace
        have digits : (2 : ℚ) ^ 52 + 1 ≤ m := by exact_mod_cast full
        calc
          (2 : ℚ) ^ (e + 52) = 2 ^ 52 * 2 ^ e := by
            rw [zpow_add₀ (by norm_num)]
            norm_num
            ring
          _ ≤ (m - 1 / 2) * 2 ^ e := by
            apply mul_le_mul_of_nonneg_right _ unit.le
            linarith
          _ ≤ x := above
      · exact least_le_lastPlace x
  have whole : m ≤ evenWhole (x / 2 ^ e) := by
    apply le_evenWhole
    · rwa [le_div_iff₀ unit]
    · intro middle
      apply tie
      rw [← middle, div_mul_cancel₀ x unit.ne']
  unfold nearest
  rw [place]
  exact mul_le_mul_of_nonneg_right (by exact_mod_cast whole) unit.le

/-- Rounding moves a number below `2 ^ k` by at most half of the last place there. -/
theorem nearest_error {x : ℚ} {k : ℤ} (nonnegative : 0 ≤ x) (below : x < 2 ^ k)
    (normal : -1021 ≤ k) : |nearest x - x| ≤ 2 ^ (k - 54) := by
  rcases nonnegative.eq_or_lt with rfl | positive
  · simp
    positivity
  have unit : (0 : ℚ) < 2 ^ lastPlace x := by positivity
  have place : lastPlace x ≤ k - 53 := by
    apply lastPlace_le positive (by omega)
    simpa using below
  have exact : x = x / 2 ^ lastPlace x * 2 ^ lastPlace x := (div_mul_cancel₀ _ unit.ne').symm
  have above := le_evenWhole_add_half (x / 2 ^ lastPlace x)
  have under := evenWhole_sub_half_le (div_nonneg nonnegative unit.le)
  calc
    |nearest x - x|
      = |evenWhole (x / 2 ^ lastPlace x) - x / 2 ^ lastPlace x| * 2 ^ lastPlace x := by
      rw [← abs_of_pos unit, ← abs_mul, abs_of_pos unit, sub_mul, ← exact]
      rfl
    _ ≤ 1 / 2 * 2 ^ lastPlace x := by
      apply mul_le_mul_of_nonneg_right _ unit.le
      rw [abs_le]
      constructor <;> linarith
    _ ≤ 1 / 2 * 2 ^ (k - 53) := by
      apply mul_le_mul_of_nonneg_left _ (by norm_num)
      exact zpow_le_zpow_right₀ (by norm_num) place
    _ = 2 ^ (k - 54) := by
      rw [show k - 53 = k - 54 + 1 by ring, zpow_add₀ (by norm_num)]
      ring

theorem nearest_le_mul {x : ℚ} (large : 1 ≤ x) : nearest x ≤ (1 + 1 / 2 ^ 53) * x := by
  have positive : 0 < x := one_pos.trans_le large
  have normal : lastPlace x ≠ -1074 := by
    intro least
    have below := lt_of_lastPlace x
    rw [least] at below
    have tiny : (2 : ℚ) ^ (-1074 + 53 : ℤ) ≤ 1 := zpow_le_one_of_nonpos₀ (by norm_num) (by norm_num)
    linarith
  have full := le_of_lastPlace positive normal
  have unit : (0 : ℚ) < 2 ^ lastPlace x := by positivity
  have half := evenWhole_sub_half_le (div_nonneg positive.le unit.le)
  rw [zpow_add₀ (by norm_num)] at full
  have exact : x / 2 ^ lastPlace x * 2 ^ lastPlace x = x := div_mul_cancel₀ _ unit.ne'
  calc
    nearest x ≤ (x / 2 ^ lastPlace x + 1 / 2) * 2 ^ lastPlace x := by
      apply mul_le_mul_of_nonneg_right _ unit.le
      linarith
    _ = x + 1 / 2 ^ 53 * (2 ^ lastPlace x * 2 ^ (52 : ℤ)) := by
      rw [add_mul, exact]
      norm_num
      ring
    _ ≤ x + 1 / 2 ^ 53 * x := by gcongr
    _ = (1 + 1 / 2 ^ 53) * x := by ring

end PaymentFees.Binary
