import PaymentFees.Decimal.Rounding
import PaymentFees.Proofs.Binary.Residue

/-!
The numbers from zero up, and infinity, as rational numbers. The order of words is the order of what
they stand for, and each operation gives the nearest number if it fits, or else infinity.
-/

namespace PaymentFees.Binary

open Float.Model Float.Model.UnpackedFloat

/-- The word has no sign and stands for this number, or for infinity. -/
def Extent (x : Float) : WithTop ℚ → Prop
  | ⊤ => x.toModel.unpack = .infinity .positive
  | (q : ℚ) => Stands .positive q x.toModel.unpack

def fit (q : ℚ) : WithTop ℚ := if q < 2 ^ 1024 then q else ⊤

theorem fit_of_lt {q : ℚ} (small : q < 2 ^ 1024) : fit q = q := if_pos small

theorem fit_mono {p q : ℚ} (ordered : p ≤ q) : fit p ≤ fit q := by
  unfold fit
  split_ifs with first second
  · exact WithTop.coe_le_coe.mpr ordered
  · exact le_top
  · exact absurd (ordered.trans_lt ‹_›) first
  · exact le_rfl

theorem canonical_lt {m n : ℕ} {d e : ℤ} (first : Canonical m d) (second : Canonical n e)
    (finer : d < e) : (m : ℚ) * 2 ^ d < n * 2 ^ e := by
  obtain ⟨digits, least, -⟩ := first
  have full : (2 : ℚ) ^ 52 ≤ n := by
    have : 2 ^ 52 ≤ n := by
      obtain ⟨-, -, normal | tiny⟩ := second
      · exact normal
      · omega
    exact_mod_cast this
  calc
    (m : ℚ) * 2 ^ d < 2 ^ 53 * 2 ^ d := by
      apply mul_lt_mul_of_pos_right _ (by positivity)
      exact_mod_cast digits
    _ = 2 ^ 52 * 2 ^ (d + 1) := by
      rw [zpow_add₀ (by norm_num)]
      norm_num
      ring
    _ ≤ 2 ^ 52 * 2 ^ e := by
      apply mul_le_mul_of_nonneg_left _ (by norm_num)
      exact zpow_le_zpow_right₀ (by norm_num) (by omega)
    _ ≤ n * 2 ^ e := mul_le_mul_of_nonneg_right full (by positivity)

theorem compare_canonical {m n : ℕ} {d e : ℤ} (first : Canonical m d) (second : Canonical n e) :
    (compare d e).then (compare m n) = compare ((m : ℚ) * 2 ^ d) (n * 2 ^ e) := by
  rcases lt_trichotomy d e with finer | rfl | coarser
  · rw [compare_lt_iff_lt.mpr finer, compare_lt_iff_lt.mpr (canonical_lt first second finer)]
    rfl
  · have unit : (0 : ℚ) < 2 ^ d := by positivity
    rw [compare_eq_iff_eq.mpr (rfl : d = d)]
    rcases lt_trichotomy m n with less | rfl | more
    · have scaled : (m : ℚ) * 2 ^ d < n * 2 ^ d :=
        mul_lt_mul_of_pos_right (by exact_mod_cast less) unit
      rw [compare_lt_iff_lt.mpr less, compare_lt_iff_lt.mpr scaled]
      rfl
    · rw [compare_eq_iff_eq.mpr rfl, compare_eq_iff_eq.mpr rfl]
      rfl
    · have scaled : (n : ℚ) * 2 ^ d < m * 2 ^ d :=
        mul_lt_mul_of_pos_right (by exact_mod_cast more) unit
      rw [compare_gt_iff_gt.mpr more, compare_gt_iff_gt.mpr scaled]
      rfl
  · rw [compare_gt_iff_gt.mpr coarser, compare_gt_iff_gt.mpr (canonical_lt second first coarser)]
    rfl

theorem Stands.unique {s : Sign} {p q : ℚ} {f g : UnpackedFloat} (first : Stands s p f)
    (second : Stands s q g) (same : p = q) : f = g := by
  cases first with
  | zero =>
    cases second with
    | zero => rfl
    | finite some => exact absurd same (by positivity)
  | @finite m e some canonical =>
    cases second with
    | zero => exact absurd same (by positivity)
    | @finite n d other also =>
      have order := compare_canonical canonical also
      rw [compare_eq_iff_eq.mpr same] at order
      rw [Ordering.then_eq_eq] at order
      obtain ⟨places, digits⟩ := order
      cases compare_eq_iff_eq.mp places
      cases compare_eq_iff_eq.mp digits
      rfl

private theorem compare_coe (p q : ℚ) : compare (p : WithTop ℚ) q = compare p q := by
  rcases lt_trichotomy p q with less | rfl | more
  · rw [compare_lt_iff_lt.mpr less, compare_lt_iff_lt.mpr (WithTop.coe_lt_coe.mpr less)]
  · rw [compare_eq_iff_eq.mpr rfl, compare_eq_iff_eq.mpr rfl]
  · rw [compare_gt_iff_gt.mpr more, compare_gt_iff_gt.mpr (WithTop.coe_lt_coe.mpr more)]

private theorem compare_stands {p q : ℚ} {f g : UnpackedFloat} (first : Stands .positive p f)
    (second : Stands .positive q g) : f.compare g = some (compare p q) := by
  cases first with
  | zero =>
    cases second with
    | zero =>
      rw [compare_eq_iff_eq.mpr rfl]
      rfl
    | finite =>
      rw [compare_lt_iff_lt.mpr (by positivity)]
      rfl
  | finite _ canonical =>
    cases second with
    | zero =>
      rw [compare_gt_iff_gt.mpr (by positivity)]
      rfl
    | finite _ other =>
      rw [← compare_canonical canonical other]
      rfl

private theorem compare_infinity {q : ℚ} {f : UnpackedFloat} (stands : Stands .positive q f) :
    UnpackedFloat.compare (.infinity .positive) f = some .gt ∧
      f.compare (.infinity .positive) = some .lt := by
  cases stands <;> exact ⟨rfl, rfl⟩

theorem compare_extents {x y : Float} {a b : WithTop ℚ} (first : Extent x a)
    (second : Extent y b) :
    x.toModel.unpack.compare y.toModel.unpack = some (compare a b) := by
  cases a with
  | top =>
    simp only [Extent] at first
    rw [first]
    cases b with
    | top =>
      simp only [Extent] at second
      rw [second, compare_eq_iff_eq.mpr rfl]
      rfl
    | coe q =>
      simp only [Extent] at second
      rw [compare_gt_iff_gt.mpr (WithTop.coe_lt_top q)]
      exact (compare_infinity second).1
  | coe p =>
    simp only [Extent] at first
    cases b with
    | top =>
      simp only [Extent] at second
      rw [second, compare_lt_iff_lt.mpr (WithTop.coe_lt_top p)]
      exact (compare_infinity first).2
    | coe q =>
      rw [compare_coe]
      exact compare_stands first second

section

variable {x y : Float} {a b : WithTop ℚ} (first : Extent x a) (second : Extent y b)
include first second

theorem Extent.le_iff : x ≤ y ↔ a ≤ b := by
  change decide ((x.toModel.unpack.compare y.toModel.unpack).any (·.isLE) = true) = true ↔ a ≤ b
  rw [compare_extents first second, decide_eq_true_iff]
  exact Std.LawfulBCmp.isLE_iff_le

theorem Extent.lt_iff : x < y ↔ a < b := by
  change decide ((x.toModel.unpack.compare y.toModel.unpack == some .lt) = true) = true ↔ a < b
  rw [compare_extents first second, decide_eq_true_iff, beq_iff_eq, Option.some_inj]
  exact compare_lt_iff_lt

theorem Extent.beq_iff : (x == y) = true ↔ a = b := by
  change (x.toModel.unpack.compare y.toModel.unpack == some .eq) = true ↔ a = b
  rw [compare_extents first second, beq_iff_eq, Option.some_inj]
  exact compare_eq_iff_eq

end

theorem canonical_lt_pow {m : ℕ} {e : ℤ} (canonical : Canonical m e) (bounded : e ≤ 971) :
    (m : ℚ) * 2 ^ e < 2 ^ 1024 := by
  calc
    (m : ℚ) * 2 ^ e < 2 ^ 53 * 2 ^ e := by
      apply mul_lt_mul_of_pos_right _ (by positivity)
      exact_mod_cast canonical.1
    _ ≤ 2 ^ 53 * 2 ^ (971 : ℤ) := by
      apply mul_le_mul_of_nonneg_left _ (by norm_num)
      exact zpow_le_zpow_right₀ (by norm_num) bounded
    _ = 2 ^ 1024 := (pow_add (2 : ℚ) 53 971).symm

theorem extent_pack {x : Float} {q : ℚ} {f : UnpackedFloat} (packed : x.toModel = .pack f)
    (stands : Stands .positive q f) : Extent x (fit q) := by
  cases stands with
  | zero =>
    rw [fit_of_lt (by norm_num)]
    simp only [Extent, packed, unpack_pack_zero]
    exact .zero
  | @finite m e some canonical =>
    by_cases bounded : e ≤ 971
    · rw [fit_of_lt (canonical_lt_pow canonical bounded)]
      simp only [Extent, packed, unpack_pack_finite _ some canonical bounded]
      exact .finite some canonical
    · have full : (2 : ℚ) ^ 52 ≤ m := by
        have : 2 ^ 52 ≤ m := by
          obtain ⟨-, -, normal | tiny⟩ := canonical
          · exact normal
          · omega
        exact_mod_cast this
      have large : ¬ (m : ℚ) * 2 ^ e < 2 ^ 1024 := by
        rw [not_lt]
        calc
          (2 : ℚ) ^ 1024 = 2 ^ 52 * 2 ^ (972 : ℤ) := pow_add (2 : ℚ) 52 972
          _ ≤ 2 ^ 52 * 2 ^ e := by
            apply mul_le_mul_of_nonneg_left _ (by norm_num)
            exact zpow_le_zpow_right₀ (by norm_num) (by omega)
          _ ≤ m * 2 ^ e := mul_le_mul_of_nonneg_right full (by positivity)
      unfold fit
      rw [if_neg large]
      simp only [Extent, packed, unpack_pack_overflow _ some (not_le.mp bounded)]

theorem Extent.range {x : Float} {q : ℚ} (read : Extent x q) : 0 ≤ q ∧ q < 2 ^ 1024 := by
  simp only [Extent] at read
  generalize form : x.toModel.unpack = f at read
  cases read with
  | zero => norm_num
  | finite _ canonical =>
    exact ⟨by positivity, canonical_lt_pow canonical (canonical_of_unpack form).2⟩

theorem nearest_lt_of_lt {x : ℚ} (nonnegative : 0 ≤ x) (below : x < (2 ^ 53 - 1 / 2) * 2 ^ 971) :
    nearest x < 2 ^ 1024 := by
  rcases nonnegative.eq_or_lt with rfl | positive
  · rw [nearest_zero]
    positivity
  have top : (((2 ^ 53 - 1 : ℕ) : ℚ) + 1 / 2) * 2 ^ (971 : ℤ) = (2 ^ 53 - 1 / 2) * 2 ^ 971 := by
    norm_num
  have bound : nearest x ≤ ((2 ^ 53 - 1 : ℕ) : ℚ) * 2 ^ (971 : ℤ) := by
    apply nearest_le positive (by norm_num) (by norm_num) (.inl (by norm_num))
    · rw [top]
      exact below.le
    · intro middle
      rw [top] at middle
      exact absurd middle below.ne
  apply bound.trans_lt
  apply canonical_lt_pow _ le_rfl
  exact ⟨by norm_num, by norm_num, .inl (by norm_num)⟩

end PaymentFees.Binary
