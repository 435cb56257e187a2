import PaymentFees.Proofs.Binary.Encoding
import PaymentFees.Proofs.Binary.Nearest

/-!
Rounding by residual bits. A significand that is cut keeps two bits of what was cut off, and these
are enough to round to the nearest number.
-/

namespace PaymentFees.Binary

open Float.Model Float.Model.UnpackedFloat

/-- What a significand and its residual bits say of the number that was cut to it. -/
def Cuts (em : ExtendedMantissa) (t : ℚ) : Prop :=
  match em.roundBit, em.stickyBit with
  | false, false => t = em.mantissa
  | false, true => em.mantissa < t ∧ t < em.mantissa + 1 / 2
  | true, false => t = em.mantissa + 1 / 2
  | true, true => em.mantissa + 1 / 2 < t ∧ t < em.mantissa + 1

inductive Stands (s : Sign) : ℚ → UnpackedFloat → Prop
  | zero : Stands s 0 (.zero s)
  | finite {m : ℕ} {e : ℤ} (positive : 0 < m) (canonical : Canonical m e) :
    Stands s (m * 2 ^ e) (.finite s m e positive)

theorem cuts_exact (m : ℕ) : Cuts (.ofMantissaAndAccuracy m .exact) m := rfl

theorem Cuts.bounds {em : ExtendedMantissa} {t : ℚ} (cuts : Cuts em t) :
    em.mantissa ≤ t ∧ t < em.mantissa + 1 := by
  rcases em with ⟨m, round, sticky⟩
  cases round <;> cases sticky <;> simp only [Cuts] at cuts ⊢ <;> constructor <;> linarith

theorem Cuts.rounded {em : ExtendedMantissa} {t : ℚ} (cuts : Cuts em t) :
    em.roundedMantissa = evenWhole t := by
  have floor : ⌊t⌋₊ = em.mantissa := by
    have nonnegative : 0 ≤ t := le_trans (Nat.cast_nonneg _) cuts.bounds.1
    exact (Nat.floor_eq_iff nonnegative).mpr cuts.bounds
  unfold evenWhole
  rw [floor]
  rcases em with ⟨m, round, sticky⟩
  cases round <;> cases sticky <;> simp only [Cuts] at cuts <;>
    simp only [ExtendedMantissa.roundedMantissa, ExtendedMantissa.accuracy,
      Accuracy.roundToNearestEven] <;>
    split_ifs <;> first | rfl | linarith

theorem Cuts.shiftRightOne {em : ExtendedMantissa} {t : ℚ} (cuts : Cuts em t) :
    Cuts em.shiftRightOne (t / 2) := by
  rcases em with ⟨m, round, sticky⟩
  have halves : ((m % 2 : ℕ) : ℚ) + 2 * ((m / 2 : ℕ) : ℚ) = m := by
    exact_mod_cast Nat.mod_add_div m 2
  have parity : m % 2 = 0 ∨ m % 2 = 1 := by omega
  rcases parity with even | odd
  · rw [even, Nat.cast_zero] at halves
    cases round <;> cases sticky <;>
      simp only [Cuts, ExtendedMantissa.shiftRightOne, even] at cuts ⊢ <;>
      simp <;> first | linarith | (constructor <;> linarith)
  · rw [odd, Nat.cast_one] at halves
    cases round <;> cases sticky <;>
      simp only [Cuts, ExtendedMantissa.shiftRightOne, odd] at cuts ⊢ <;>
      simp <;> first | linarith | (constructor <;> linarith)

theorem Cuts.shiftRight {em : ExtendedMantissa} {t : ℚ} (cuts : Cuts em t) (k : ℕ) :
    Cuts (em >>> k) (t / 2 ^ k) := by
  change Cuts (k.repeat ExtendedMantissa.shiftRightOne em) (t / 2 ^ k)
  induction k with
  | zero => simpa [Nat.repeat] using cuts
  | succ k ih =>
    have next := ih.shiftRightOne
    rw [div_div, ← pow_succ] at next
    exact next

private theorem target_eq (m : ℕ) (e : ℤ) :
    Format.binary64.targetExponent (totalExponent m e) = max (m.log2 + e - 52) (-1074) := by
  have digits : (Format.binary64.mantissaBits : ℤ) = 53 := rfl
  have least : Format.binary64.minExponent = -1074 := rfl
  unfold Format.targetExponent totalExponent
  rw [digits, least]
  congr 1
  ring

private theorem target_lastPlace {m : ℕ} {e : ℤ} {t : ℚ} (low : m ≤ t) (high : t < m + 1)
    (wide : 2 ^ 52 ≤ m ∨ e ≤ -1074) (positive : 0 < t) :
    max (m.log2 + e - 52) (-1074) = lastPlace (t * 2 ^ e) := by
  have unit : (0 : ℚ) < 2 ^ e := by positivity
  rcases Nat.eq_zero_or_pos m with rfl | some
  · have tiny : e ≤ -1074 := by omega
    have place : lastPlace (t * 2 ^ e) ≤ -1074 := by
      apply lastPlace_le (by positivity) le_rfl
      calc
        t * 2 ^ e < 1 * 2 ^ e := by
          apply mul_lt_mul_of_pos_right _ unit
          simpa using high
        _ = 2 ^ e := one_mul _
        _ ≤ 2 ^ ((-1074 : ℤ) + 53) := zpow_le_zpow_right₀ (by norm_num) (by omega)
    have := least_le_lastPlace (t * 2 ^ e)
    simp
    omega
  · have log : Int.log 2 (t * 2 ^ e) = m.log2 + e := by
      apply le_antisymm
      · apply Int.lt_add_one_iff.mp
        apply (Int.lt_zpow_iff_log_lt (by norm_num) (by positivity)).mp
        have top : (m : ℚ) + 1 ≤ 2 ^ (m.log2 + 1) := by exact_mod_cast Nat.lt_log2_self
        calc
          t * 2 ^ e < 2 ^ (m.log2 + 1) * 2 ^ e := mul_lt_mul_of_pos_right (by linarith) unit
          _ = ((2 : ℕ) : ℚ) ^ ((m.log2 : ℤ) + e + 1) := by
            rw [← zpow_natCast, ← zpow_add₀ (by norm_num)]
            push_cast
            congr 1
            ring
      · apply (Int.zpow_le_iff_le_log (by norm_num) (by positivity)).mp
        have bottom : (2 : ℚ) ^ m.log2 ≤ m := by exact_mod_cast Nat.log2_self_le some.ne'
        calc
          ((2 : ℕ) : ℚ) ^ ((m.log2 : ℤ) + e) = 2 ^ m.log2 * 2 ^ e := by
            push_cast
            rw [zpow_add₀ (by norm_num), zpow_natCast]
          _ ≤ t * 2 ^ e := mul_le_mul_of_nonneg_right (by linarith) unit.le
    unfold lastPlace
    rw [log]

private theorem carry (m : ℕ) {e : ℤ} (bound : m ≤ 2 ^ 53) (least : -1074 ≤ e)
    (full : 2 ^ 52 ≤ m ∨ e = -1074) :
    let cut := shiftToTargetExponent Format.binary64 m e .exact
    Canonical cut.1.mantissa cut.2 ∧ (cut.1.mantissa : ℚ) * 2 ^ cut.2 = m * 2 ^ e := by
  -- A second cut only takes back a carry into one digit too many.
  dsimp only [shiftToTargetExponent, shiftToExponent]
  rw [target_eq]
  rcases bound.lt_or_eq with digits | rfl
  · have size : m.log2 ≤ 52 := by
      rcases Nat.eq_zero_or_pos m with rfl | some
      · simp
      · exact Nat.lt_succ_iff.mp ((Nat.log2_lt some.ne').mpr digits)
    have stays : (max ((m.log2 : ℤ) + e - 52) (-1074) - e).toNat = 0 := by omega
    rw [stays]
    change Canonical m (e + 0) ∧ (m : ℚ) * 2 ^ (e + 0) = m * 2 ^ e
    rw [add_zero]
    exact ⟨⟨digits, least, full⟩, rfl⟩
  · have moves : (max (((2 ^ 53 : ℕ).log2 : ℤ) + e - 52) (-1074) - e).toNat = 1 := by
      rw [Nat.log2_two_pow]
      omega
    rw [moves]
    change Canonical (2 ^ 53 / 2) (e + 1) ∧ ((2 ^ 53 / 2 : ℕ) : ℚ) * 2 ^ (e + 1) = _
    refine ⟨⟨by norm_num, by omega, Or.inl (by norm_num)⟩, ?_⟩
    rw [zpow_add₀ (by norm_num)]
    norm_num
    ring

/-- Rounding gives the nearest number, provided that no digit of it is missing. -/
theorem stands_roundWithAccuracy (s : Sign) {m : ℕ} {e : ℤ} {accuracy : Accuracy} {t : ℚ}
    (cuts : Cuts (.ofMantissaAndAccuracy m accuracy) t) (wide : 2 ^ 52 ≤ m ∨ e ≤ -1074) :
    Stands s (nearest (t * 2 ^ e)) (roundWithAccuracy Format.binary64 s m e accuracy) := by
  have mantissa : (ExtendedMantissa.ofMantissaAndAccuracy m accuracy).mantissa = m := by
    rcases accuracy with _ | order
    · rfl
    · cases order <;> rfl
  obtain ⟨low, high⟩ := cuts.bounds
  rw [mantissa] at low high
  set place := max ((m.log2 : ℤ) + e - 52) (-1074) with placeEq
  have coarser : e ≤ place := by
    rcases wide with digits | tiny
    · have : 52 ≤ m.log2 := (Nat.le_log2 (by omega)).mpr digits
      omega
    · omega
  obtain ⟨k, shift⟩ := Int.le.dest coarser
  have amount : (place - e).toNat = k := by omega
  set first := ExtendedMantissa.ofMantissaAndAccuracy m accuracy >>> k with firstEq
  have scaled : t / 2 ^ k = t * 2 ^ e / 2 ^ place := by
    rw [← shift, zpow_add₀ (by norm_num), zpow_natCast]
    field_simp
  have rounded : first.roundedMantissa = evenWhole (t * 2 ^ e / 2 ^ place) := by
    rw [← scaled]
    exact (cuts.shiftRight k).rounded
  have value : (first.roundedMantissa : ℚ) * 2 ^ place = nearest (t * 2 ^ e) ∧
      first.roundedMantissa ≤ 2 ^ 53 ∧ (2 ^ 52 ≤ first.roundedMantissa ∨ place = -1074) := by
    have nonnegative : 0 ≤ t := le_trans (Nat.cast_nonneg m) low
    rcases nonnegative.eq_or_lt with rfl | positive
    · have none : m = 0 := by exact_mod_cast le_antisymm low (Nat.cast_nonneg m)
      have zero : first.roundedMantissa = 0 := by
        rw [rounded, zero_mul, zero_div]
        exact_mod_cast evenWhole_natCast 0
      rw [zero]
      refine ⟨by simp, by norm_num, Or.inr ?_⟩
      rw [placeEq, none]
      simp
      omega
    · have same : place = lastPlace (t * 2 ^ e) := target_lastPlace low high wide positive
      rw [rounded, same]
      refine ⟨rfl, significand_le _, ?_⟩
      by_cases least : lastPlace (t * 2 ^ e) = -1074
      · exact Or.inr least
      · exact Or.inl (le_significand (by positivity) least)
  obtain ⟨total, bound, full⟩ := value
  have second := carry first.roundedMantissa bound (le_max_right _ _) full
  unfold roundWithAccuracy
  have start : shiftToTargetExponent Format.binary64 m e accuracy = (first, place) := by
    simp only [shiftToTargetExponent, shiftToExponent, target_eq, ← placeEq, amount, shift,
      ← firstEq]
  simp only [start]
  obtain ⟨canonical, same⟩ := second
  rw [total] at same
  split
  · next zero =>
    rw [zero, Nat.cast_zero, zero_mul] at same
    rw [← same]
    exact .zero
  · rw [← same]
    exact .finite _ canonical

theorem stands_round (s : Sign) {m : ℕ} (e : ℤ) (some : 0 < m) :
    Stands s (nearest (m * 2 ^ e)) (UnpackedFloat.round Format.binary64 s m e) := by
  -- A number that has too few digits for its size is first given as many as it needs.
  unfold UnpackedFloat.round decreaseExponent
  rw [target_eq]
  set k := (e - max ((m.log2 : ℤ) + e - 52) (-1074)).toNat with amount
  have same : ((m <<< k : ℕ) : ℚ) * 2 ^ (e - k) = m * 2 ^ e := by
    rw [Nat.shiftLeft_eq, zpow_sub₀ (by norm_num), zpow_natCast]
    push_cast
    field_simp
  rw [← same]
  apply stands_roundWithAccuracy s (cuts_exact _)
  by_cases tiny : e - k ≤ -1074
  · exact Or.inr tiny
  · left
    have digits : 2 ^ m.log2 ≤ m := Nat.log2_self_le some.ne'
    have needed : 52 ≤ m.log2 + k := by omega
    calc
      2 ^ 52 ≤ 2 ^ (m.log2 + k) := Nat.pow_le_pow_right (by norm_num) needed
      _ = 2 ^ m.log2 * 2 ^ k := pow_add _ _ _
      _ ≤ m * 2 ^ k := Nat.mul_le_mul_right _ digits
      _ = m <<< k := (Nat.shiftLeft_eq _ _).symm

end PaymentFees.Binary
