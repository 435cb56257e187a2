import PaymentFees.Proofs.Binary.Extent

namespace PaymentFees.Binary

open Float.Model Float.Model.UnpackedFloat

private theorem wide_mul {m n : ℕ} {d e : ℤ} (first : Canonical m d) (second : Canonical n e)
    (some : 0 < m) (other : 0 < n) : 2 ^ 52 ≤ m * n ∨ d + e ≤ -1074 := by
  obtain ⟨-, -, normal | tiny⟩ := first
  · exact Or.inl (normal.trans (Nat.le_mul_of_pos_right m other))
  · obtain ⟨-, -, normal | also⟩ := second
    · exact Or.inl (normal.trans (Nat.le_mul_of_pos_left n some))
    · right
      omega

theorem nearest_of_stands {s : Sign} {q : ℚ} {f : UnpackedFloat} (stands : Stands s q f) :
    nearest q = q := by
  cases stands with
  | zero => exact nearest_zero
  | @finite m e _ canonical =>
    exact nearest_of_representable ⟨m, e, canonical.1.le, canonical.2.1, rfl⟩

private theorem stands_mul_finite {m n : ℕ} {d e : ℤ} (some : 0 < m) (other : 0 < n)
    (wide : 2 ^ 52 ≤ m * n ∨ d + e ≤ -1074) :
    Stands .positive (nearest (m * 2 ^ d * (n * 2 ^ e)))
      (UnpackedFloat.mul Format.binary64 (.finite .positive m d some)
        (.finite .positive n e other)) := by
  have product : (m : ℚ) * 2 ^ d * (n * 2 ^ e) = ((m * n : ℕ) : ℚ) * 2 ^ (d + e) := by
    rw [zpow_add₀ (by norm_num)]
    push_cast
    ring
  rw [product]
  exact stands_roundWithAccuracy _ (cuts_exact _) wide

theorem stands_mul {p q : ℚ} {f g : UnpackedFloat} (first : Stands .positive p f)
    (second : Stands .positive q g) :
    Stands .positive (nearest (p * q)) (UnpackedFloat.mul Format.binary64 f g) := by
  cases first with
  | zero =>
    rw [zero_mul, nearest_zero]
    cases second <;> exact .zero
  | finite some canonical =>
    cases second with
    | zero =>
      rw [mul_zero, nearest_zero]
      exact .zero
    | finite other also =>
      exact stands_mul_finite some other (wide_mul canonical also some other)

private theorem stands_add_finite {m n : ℕ} {d e : ℤ} (some : 0 < m) (other : 0 < n) :
    Stands .positive (nearest (m * 2 ^ d + n * 2 ^ e))
      (UnpackedFloat.add Format.binary64 (.finite .positive m d some)
        (.finite .positive n e other)) := by
  set place := min d e with placeEq
  obtain ⟨j, first⟩ : ∃ j : ℕ, place + j = d := Int.le.dest (min_le_left d e)
  obtain ⟨k, second⟩ : ∃ k : ℕ, place + k = e := Int.le.dest (min_le_right d e)
  have shifts : (d - place).toNat = j ∧ (e - place).toNat = k := by omega
  have sum : (m : ℚ) * 2 ^ d + n * 2 ^ e = ((m <<< j + n <<< k : ℕ) : ℚ) * 2 ^ place := by
    rw [← first, ← second, zpow_add₀ (by norm_num), zpow_add₀ (by norm_num), Nat.shiftLeft_eq,
      Nat.shiftLeft_eq, zpow_natCast, zpow_natCast]
    push_cast
    ring
  have positive : 0 < m <<< j + n <<< k := by
    rw [Nat.shiftLeft_eq]
    positivity
  have order : compare (((m <<< j : ℕ) : ℤ) + ((n <<< k : ℕ) : ℤ)) 0 = .gt :=
    compare_gt_iff_gt.mpr (by exact_mod_cast positive)
  rw [sum]
  simp only [UnpackedFloat.add, decreaseExponent, ← placeEq, shifts, Sign.apply,
    UnpackedFloat.normalize, order]
  exact stands_round _ _ positive

theorem stands_add {p q : ℚ} {f g : UnpackedFloat} (first : Stands .positive p f)
    (second : Stands .positive q g) :
    Stands .positive (nearest (p + q)) (UnpackedFloat.add Format.binary64 f g) := by
  cases first with
  | zero =>
    rw [zero_add, nearest_of_stands second]
    cases second with
    | zero => exact .zero
    | finite other also => exact .finite other also
  | finite some canonical =>
    cases second with
    | zero =>
      rw [add_zero, nearest_of_stands (.finite (s := .positive) some canonical)]
      exact .finite some canonical
    | finite other => exact stands_add_finite some other

private theorem cuts_fraction (m : ℕ) {n : ℕ} (positive : 0 < n) :
    Cuts (.ofMantissaAndAccuracy (m / n) (accuracyOfFraction (m % n) n)) ((m : ℚ) / n) := by
  have unit : (0 : ℚ) < n := by exact_mod_cast positive
  have below : ((m % n : ℕ) : ℚ) < n := by exact_mod_cast Nat.mod_lt m positive
  rw [div_eq_whole_add_rest m positive]
  set r := m % n
  unfold accuracyOfFraction
  split_ifs with none
  · rw [none]
    simp [ExtendedMantissa.ofMantissaAndAccuracy, Cuts]
  · have some : (0 : ℚ) < r := by exact_mod_cast Nat.pos_of_ne_zero none
    have above : 0 < (r : ℚ) / n := div_pos some unit
    rcases lt_trichotomy (2 * r) n with less | half | more
    · rw [compare_lt_iff_lt.mpr less]
      have bound : (2 : ℚ) * r < n := by exact_mod_cast less
      have under : (r : ℚ) / n < 1 / 2 := by
        rw [div_lt_div_iff₀ unit (by norm_num)]
        linarith
      change ((m / n : ℕ) : ℚ) < _ ∧ _ < ((m / n : ℕ) : ℚ) + 1 / 2
      constructor <;> linarith
    · rw [compare_eq_iff_eq.mpr half]
      have bound : (n : ℚ) = 2 * r := by exact_mod_cast half.symm
      change _ = _ + (1 / 2 : ℚ)
      rw [bound]
      congr 1
      field_simp
    · rw [compare_gt_iff_gt.mpr more]
      have bound : (n : ℚ) < 2 * r := by exact_mod_cast more
      have beyond : (1 : ℚ) / 2 < r / n := by
        rw [div_lt_div_iff₀ (by norm_num) unit]
        linarith
      have under : (r : ℚ) / n < 1 := (div_lt_one unit).mpr below
      change ((m / n : ℕ) : ℚ) + 1 / 2 < _ ∧ _ < ((m / n : ℕ) : ℚ) + 1
      constructor <;> linarith

private theorem stands_div_finite {m n : ℕ} {d e : ℤ} (some : 0 < m) (other : 0 < n) :
    Stands .positive (nearest (m * 2 ^ d / (n * 2 ^ e)))
      (UnpackedFloat.div Format.binary64 (.finite .positive m d some)
        (.finite .positive n e other)) := by
  have digits : (Format.binary64.mantissaBits : ℤ) = 53 := rfl
  have least : Format.binary64.minExponent = -1074 := rfl
  have target : Format.binary64.targetExponent (totalExponent m d - totalExponent n e) =
      max (m.log2 + d - n.log2 - e - 53) (-1074) := by
    unfold Format.targetExponent totalExponent
    rw [digits, least]
    congr 1
    ring
  set place := min (d - e) (max ((m.log2 : ℤ) + d - n.log2 - e - 53) (-1074)) with placeEq
  obtain ⟨k, shift⟩ : ∃ k : ℕ, place + k = d - e := Int.le.dest (min_le_left _ _)
  have amount : (d - e - place).toNat = k := by omega
  have quotient : (m : ℚ) * 2 ^ d / (n * 2 ^ e) = ((m <<< k : ℕ) : ℚ) / n * 2 ^ place := by
    have unit : (n : ℚ) ≠ 0 := by exact_mod_cast other.ne'
    rw [show d = place + k + e by omega, zpow_add₀ (by norm_num), zpow_add₀ (by norm_num),
      Nat.shiftLeft_eq, zpow_natCast]
    push_cast
    field_simp
  have wide : 2 ^ 52 ≤ (m <<< k) / n ∨ place ≤ -1074 := by
    by_cases tiny : place ≤ -1074
    · exact Or.inr tiny
    · left
      have needed : n.log2 + 53 ≤ m.log2 + k := by omega
      have low : 2 ^ m.log2 ≤ m := Nat.log2_self_le some.ne'
      have high : n < 2 ^ (n.log2 + 1) := Nat.lt_log2_self
      rw [Nat.le_div_iff_mul_le other, Nat.shiftLeft_eq]
      calc
        2 ^ 52 * n ≤ 2 ^ 52 * 2 ^ (n.log2 + 1) := Nat.mul_le_mul_left _ high.le
        _ = 2 ^ (n.log2 + 53) := by
          rw [← pow_add]
          congr 1
          omega
        _ ≤ 2 ^ (m.log2 + k) := Nat.pow_le_pow_right (by norm_num) needed
        _ = 2 ^ m.log2 * 2 ^ k := pow_add _ _ _
        _ ≤ m * 2 ^ k := Nat.mul_le_mul_right _ low
  rw [quotient]
  simp only [UnpackedFloat.div, divCore, target, ← placeEq, amount]
  exact stands_roundWithAccuracy _ (cuts_fraction _ other) wide

theorem stands_div {p q : ℚ} {f g : UnpackedFloat} (first : Stands .positive p f)
    (second : Stands .positive q g) (positive : 0 < q) :
    Stands .positive (nearest (p / q)) (UnpackedFloat.div Format.binary64 f g) := by
  cases second with
  | zero => exact absurd positive (lt_irrefl 0)
  | finite other =>
    cases first with
    | zero =>
      rw [zero_div, nearest_zero]
      exact .zero
    | finite some => exact stands_div_finite some other

section

variable {x y : Float} {p q : ℚ} (first : Extent x p) (second : Extent y q)
include first second

theorem Extent.add : Extent (x + y) (fit (nearest (p + q))) :=
  extent_pack rfl (stands_add first second)

theorem Extent.mul : Extent (x * y) (fit (nearest (p * q))) :=
  extent_pack rfl (stands_mul first second)

theorem Extent.div (positive : 0 < q) : Extent (x / y) (fit (nearest (p / q))) :=
  extent_pack rfl (stands_div first second positive)

end

private theorem extent_toFloat (n : UInt64) : Extent n.toFloat (fit (nearest n.toNat)) := by
  apply extent_pack (f := UnpackedFloat.ofUInt64 Format.binary64 n) rfl
  unfold UnpackedFloat.ofUInt64 UnpackedFloat.ofNat UnpackedFloat.ofInt UnpackedFloat.normalize
  rcases Nat.eq_zero_or_pos n.toNat with none | some
  · have order : compare (n.toNat : ℤ) 0 = .eq := compare_eq_iff_eq.mpr (by exact_mod_cast none)
    rw [order, none, Nat.cast_zero, nearest_zero]
    exact .zero
  · have order : compare (n.toNat : ℤ) 0 = .gt := compare_gt_iff_gt.mpr (by exact_mod_cast some)
    rw [order]
    simpa using stands_round .positive 0 some

private theorem extent_word {n : ℕ} (small : n < 2 ^ 53) :
    Extent n.toUInt64.toFloat (n : ℚ) := by
  have whole : n.toUInt64.toNat = n := by
    rw [Nat.toUInt64, UInt64.toNat_ofNat']
    omega
  have exact : nearest (n : ℚ) = n :=
    nearest_of_representable ⟨n, 0, small.le, by norm_num, by simp⟩
  have fits : fit (n : ℚ) = n := fit_of_lt (by
    calc
      (n : ℚ) < 2 ^ 53 := by exact_mod_cast small
      _ ≤ 2 ^ 1024 := pow_le_pow_right₀ (by norm_num) (by norm_num))
  have word := extent_toFloat n.toUInt64
  rwa [whole, exact, fits] at word

private theorem stands_ofScientific (n : ℕ) {k : ℕ} (small : k ≤ 2048) :
    Stands .positive (nearest (n * 10 ^ k)) (UnpackedFloat.ofScientific Format.binary64 n k) := by
  unfold UnpackedFloat.ofScientific
  rcases Nat.eq_zero_or_pos n with rfl | some
  · rw [dif_pos rfl, Nat.cast_zero, zero_mul, nearest_zero]
    exact .zero
  have range : (2 : ℤ) ^ Format.binary64.exponentBits = 2048 := rfl
  rw [dif_neg some.ne', range, if_neg (by omega), if_neg (by omega), if_pos (by omega)]
  have product : (n : ℚ) * 10 ^ k = ((n <<< Format.binary64.mantissaBits : ℕ) : ℚ)
      * 2 ^ (-(Format.binary64.mantissaBits : ℤ)) * ((10 ^ (k : ℤ).toNat : ℕ) * 2 ^ (0 : ℤ)) := by
    rw [Nat.shiftLeft_eq, zpow_neg, zpow_natCast, Int.toNat_natCast]
    push_cast
    field_simp
  have digits : 2 ^ 52 ≤ n <<< Format.binary64.mantissaBits * 10 ^ (k : ℤ).toNat := by
    have bits : Format.binary64.mantissaBits = 53 := rfl
    calc
      2 ^ 52 ≤ 2 ^ 53 := by norm_num
      _ ≤ n * 2 ^ 53 := Nat.le_mul_of_pos_left _ some
      _ = n <<< Format.binary64.mantissaBits := by rw [Nat.shiftLeft_eq, bits]
      _ ≤ n <<< Format.binary64.mantissaBits * 10 ^ (k : ℤ).toNat :=
        Nat.le_mul_of_pos_right _ (by positivity)
  rw [product]
  exact stands_mul_finite _ _ (Or.inl digits)

private theorem stands_ofScientific_fraction (n : ℕ) {k : ℕ} (small : k ≤ 2048 + n.log2) :
    Stands .positive (nearest (n / 10 ^ k))
      (UnpackedFloat.ofScientific Format.binary64 n (Int.negOfNat k)) := by
  rcases Nat.eq_zero_or_pos k with rfl | places
  · have whole := stands_ofScientific n (Nat.zero_le 2048)
    rw [pow_zero, mul_one] at whole
    rw [pow_zero, div_one]
    exact whole
  rcases Nat.eq_zero_or_pos n with rfl | some
  · rw [Nat.cast_zero, zero_div, nearest_zero]
    exact .zero
  have range : (2 : ℤ) ^ Format.binary64.exponentBits = 2048 := rfl
  have below : Int.negOfNat k = -(k : ℤ) := Int.negOfNat_eq
  have fraction : (n : ℚ) / 10 ^ k =
      n * 2 ^ (0 : ℤ) / ((10 ^ (- -(k : ℤ)).toNat : ℕ) * 2 ^ (0 : ℤ)) := by simp
  unfold UnpackedFloat.ofScientific
  rw [dif_neg some.ne', range, below, if_neg (by omega), if_neg (by omega), if_neg (by omega),
    fraction]
  exact stands_div_finite _ _

theorem nearest_ten_pow {k : ℕ} (small : k ≤ 22) :
    nearest ((10 : ℚ) ^ k) = 10 ^ k := by
  apply nearest_of_representable
  refine ⟨5 ^ k, k, ?_, by omega, ?_⟩
  · exact (Nat.pow_le_pow_right (by norm_num) small).trans (by norm_num)
  · rw [zpow_natCast, Nat.cast_pow, ← mul_pow]
    norm_num

private theorem powers_eq : ∀ k : Fin 23, (Float.exactlyRepresentablePowersOfTen[k]).toModel =
    .pack (UnpackedFloat.ofScientific Format.binary64 1 (k : ℕ)) := by
  decide +kernel

private theorem extent_power {k : ℕ} (small : k ≤ 22)
    (inside : k < Float.exactlyRepresentablePowersOfTen.size) :
    Extent Float.exactlyRepresentablePowersOfTen[k] ((10 : ℚ) ^ k) := by
  have stands := @stands_ofScientific 1 k (by omega)
  rw [Nat.cast_one, one_mul, nearest_ten_pow small] at stands
  have word := extent_pack (powers_eq ⟨k, Nat.lt_succ_iff.mpr small⟩) stands
  rwa [fit_of_lt] at word
  calc
    (10 : ℚ) ^ k ≤ 10 ^ 22 := pow_le_pow_right₀ (by norm_num) small
    _ ≤ 2 ^ 100 := by norm_num
    _ < 2 ^ 1024 := pow_lt_pow_right₀ (by norm_num) (by norm_num)

theorem extent_ofScientific (n : ℕ) {k : ℕ} (range : k ≤ 2048) :
    Extent (Float.ofScientific n false k) (fit (nearest (n * 10 ^ k))) := by
  unfold Float.ofScientific
  split
  · next small => exact (extent_word small.1).mul (extent_power small.2 _)
  · next large =>
    exact extent_pack rfl (stands_ofScientific n range)

theorem extent_ofScientific_fraction (n : ℕ) {k : ℕ} (range : k ≤ 2048 + n.log2) :
    Extent (Float.ofScientific n true k) (fit (nearest (n / 10 ^ k))) := by
  unfold Float.ofScientific
  split
  · next small => exact (extent_word small.1).div (extent_power small.2 _) (by positivity)
  · exact extent_pack rfl (stands_ofScientific_fraction n range)

theorem extent_ofNat (n : ℕ) : Extent (Float.ofNat n) (fit (nearest n)) := by
  have word := @extent_ofScientific n 0 (by norm_num)
  rwa [pow_zero, mul_one] at word

end PaymentFees.Binary
