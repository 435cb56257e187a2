import PaymentFees.Curve.MinimumNorm
import PaymentFees.Proofs.Binary.Numbers

namespace PaymentFees.Binary

open Float.Model Float.Model.UnpackedFloat

/-- What is read from a word, as a number; zero if it is infinite or no number. -/
def signedValue : UnpackedFloat → ℚ
  | .finite s m e _ => s.apply m * 2 ^ e
  | _ => 0

def value (x : Float) : ℚ := signedValue x.toModel.unpack

inductive FiniteForm : UnpackedFloat → Prop
  | zero (s : Sign) : FiniteForm (.zero s)
  | finite {s : Sign} {m : ℕ} {e : ℤ} (positive : 0 < m) (canonical : Canonical m e)
    (bounded : e ≤ 971) : FiniteForm (.finite s m e positive)

theorem finite_unpack {x : Float} (finite : x.isFinite = true) : FiniteForm x.toModel.unpack := by
  change x.toModel.unpack.isFinite = true at finite
  cases form : x.toModel.unpack with
  | infinity | notANumber =>
    rw [form] at finite
    cases finite
  | zero s => exact .zero s
  | finite s m e positive =>
    obtain ⟨canonical, bounded⟩ := canonical_of_unpack form
    exact .finite positive canonical bounded

theorem abs_signedValue_finite (s : Sign) {m : ℕ} (e : ℤ) (positive : 0 < m) :
    |signedValue (.finite s m e positive)| = m * 2 ^ e := by
  have unit : (0 : ℚ) < 2 ^ e := by positivity
  cases s <;> simp [signedValue, Sign.apply, abs_mul, abs_of_pos unit]

theorem abs_signedValue {f : UnpackedFloat} (finite : FiniteForm f) :
    Stands .positive |signedValue f| f.abs := by
  cases finite with
  | zero =>
    simp only [signedValue, abs_zero]
    exact .zero
  | @finite s m e positive canonical =>
    rw [abs_signedValue_finite]
    exact .finite positive canonical

theorem extent_abs_value {x : Float} (finite : x.isFinite = true) :
    Extent x.abs (|value x| : ℚ) := by
  simp only [Extent, unpack_abs]
  exact abs_signedValue (finite_unpack finite)

theorem value_of_extent {x : Float} {q : ℚ} (read : Extent x q) : value x = q := by
  simp only [Extent] at read
  unfold value
  generalize x.toModel.unpack = f at read
  cases read with
  | zero => rfl
  | finite positive canonical => simp [signedValue, Sign.apply]

theorem compare_neg (p q : ℚ) : compare (-p) (-q) = (compare p q).swap := by
  rcases lt_trichotomy p q with less | rfl | more
  · rw [compare_lt_iff_lt.mpr less, compare_gt_iff_gt.mpr (neg_lt_neg less)]
    rfl
  · rw [compare_eq_iff_eq.mpr rfl, compare_eq_iff_eq.mpr rfl]
    rfl
  · rw [compare_gt_iff_gt.mpr more, compare_lt_iff_lt.mpr (neg_lt_neg more)]
    rfl

theorem compare_signedValue {f g : UnpackedFloat} (first : FiniteForm f) (second : FiniteForm g) :
    f.compare g = some (compare (signedValue f) (signedValue g)) := by
  cases first with
  | zero s =>
    cases second with
    | zero => rw [compare_eq_iff_eq.mpr (by rfl)]; rfl
    | @finite t n d other also =>
      have size : (0 : ℚ) < n * 2 ^ d := by positivity
      cases t with
      | positive =>
        rw [compare_lt_iff_lt.mpr (by simpa [signedValue, Sign.apply] using size)]
        rfl
      | negative =>
        rw [compare_gt_iff_gt.mpr (by simpa [signedValue, Sign.apply] using size)]
        rfl
  | @finite s m e positive canonical =>
    have size : (0 : ℚ) < m * 2 ^ e := by positivity
    cases second with
    | zero =>
      cases s with
      | positive =>
        rw [compare_gt_iff_gt.mpr (by simpa [signedValue, Sign.apply] using size)]
        rfl
      | negative =>
        rw [compare_lt_iff_lt.mpr (by simpa [signedValue, Sign.apply] using size)]
        rfl
    | @finite t n d other also =>
      have more : (0 : ℚ) < n * 2 ^ d := by positivity
      have order := compare_canonical canonical also
      cases s with
      | positive =>
        cases t with
        | positive =>
          simp only [signedValue, Sign.apply, Int.cast_natCast]
          rw [← order]
          rfl
        | negative =>
          rw [compare_gt_iff_gt.mpr (by simp [signedValue, Sign.apply]; linarith)]
          rfl
      | negative =>
        cases t with
        | positive =>
          rw [compare_lt_iff_lt.mpr (by simp [signedValue, Sign.apply]; linarith)]
          rfl
        | negative =>
          simp only [signedValue, Sign.apply, Int.cast_neg, Int.cast_natCast, neg_mul]
          rw [compare_neg, ← order]
          rfl

section

variable {x y : Float} (first : x.isFinite = true) (second : y.isFinite = true)
include first second

theorem compare_value : x.toModel.unpack.compare y.toModel.unpack =
    some (compare (value x) (value y)) :=
  compare_signedValue (finite_unpack first) (finite_unpack second)

theorem lt_iff_value : x < y ↔ value x < value y := by
  change decide ((x.toModel.unpack.compare y.toModel.unpack == some .lt) = true) = true ↔ _
  rw [compare_value first second, decide_eq_true_iff, beq_iff_eq, Option.some_inj]
  exact compare_lt_iff_lt

end

theorem stands_normalize (k : ℤ) (e : ℤ) :
    ∃ s, Stands s (nearest (|(k : ℚ)| * 2 ^ e))
      (UnpackedFloat.normalize Format.binary64 k e .positive) := by
  unfold UnpackedFloat.normalize
  split
  · next negative =>
    have below := compare_lt_iff_lt.mp negative
    have size : |(k : ℚ)| = ((-k).toNat : ℚ) := by
      have whole : ((-k).toNat : ℤ) = -k := Int.toNat_of_nonneg (by omega)
      rw [abs_of_neg (by exact_mod_cast below)]
      exact_mod_cast whole.symm
    rw [size]
    exact ⟨_, stands_round _ _ (by omega)⟩
  · next zero =>
    cases compare_eq_iff_eq.mp zero
    refine ⟨.positive, ?_⟩
    simp only [Int.cast_zero, abs_zero, zero_mul, nearest_zero]
    exact .zero
  · next positive =>
    have above := compare_gt_iff_gt.mp positive
    have size : |(k : ℚ)| = (k.toNat : ℚ) := by
      have whole : (k.toNat : ℤ) = k := Int.toNat_of_nonneg (by omega)
      rw [abs_of_pos (by exact_mod_cast above)]
      exact_mod_cast whole.symm
    rw [size]
    exact ⟨_, stands_round _ _ (by omega)⟩

theorem Stands.abs {s : Sign} {q : ℚ} {f : UnpackedFloat} (stands : Stands s q f) :
    Stands .positive q f.abs := by
  cases stands with
  | zero => exact .zero
  | finite positive canonical => exact .finite positive canonical

theorem extent_abs_pack {x : Float} {s : Sign} {q : ℚ} {f : UnpackedFloat}
    (packed : x.toModel = .pack f) (stands : Stands s q f) : Extent x.abs (fit q) := by
  have same : x.abs = Float.ofModel (.pack f.abs) := by
    apply eq_of_unpack
    rw [unpack_abs, packed]
    cases stands with
    | zero => simp [UnpackedFloat.abs]
    | @finite m e positive canonical =>
      by_cases bounded : e ≤ 971
      · rw [unpack_pack_finite _ _ canonical bounded]
        exact (unpack_pack_finite _ _ canonical bounded).symm
      · rw [unpack_pack_overflow _ _ (not_le.mp bounded)]
        exact (unpack_pack_overflow _ _ (not_le.mp bounded)).symm
  rw [same]
  exact extent_pack rfl stands.abs

theorem apply_shift (s : Sign) (m : ℕ) {e place : ℤ} (finer : place ≤ e) :
    (s.apply ((m <<< (e - place).toNat : ℕ) : ℤ) : ℚ) * 2 ^ place = s.apply m * 2 ^ e := by
  obtain ⟨j, shift⟩ := Int.le.dest finer
  have amount : (e - place).toNat = j := by omega
  have size : ((m <<< j : ℕ) : ℚ) * 2 ^ place = m * 2 ^ e := by
    rw [← shift, zpow_add₀ (by norm_num), Nat.shiftLeft_eq, zpow_natCast]
    push_cast
    ring
  rw [amount]
  cases s with
  | positive => exact_mod_cast size
  | negative =>
    simp only [Sign.apply, Int.cast_neg, Int.cast_natCast, neg_mul]
    rw [size]

theorem stands_sub {f g : UnpackedFloat} (first : FiniteForm f) (second : FiniteForm g) :
    ∃ s, Stands s (nearest |signedValue f - signedValue g|)
      (UnpackedFloat.sub Format.binary64 f g) := by
  have exact {h : UnpackedFloat} (finite : FiniteForm h) :
      nearest |signedValue h| = |signedValue h| :=
    nearest_of_stands (abs_signedValue finite)
  have none (s : Sign) : signedValue (.zero s) = 0 := rfl
  cases first with
  | zero s =>
    rw [none, abs_sub_comm, sub_zero, exact second]
    cases second with
    | zero t =>
      rw [none, abs_zero]
      cases s <;> cases t <;> exact ⟨_, .zero⟩
    | @finite t n d other also =>
      rw [abs_signedValue_finite]
      exact ⟨-t, .finite other also⟩
  | @finite s m e positive canonical bounded =>
    cases second with
    | zero t =>
      rw [none, sub_zero, exact (.finite positive canonical bounded), abs_signedValue_finite]
      exact ⟨s, .finite positive canonical⟩
    | @finite t n d other also =>
      set place := min e d with placeEq
      have distance : signedValue (.finite s m e positive) - signedValue (.finite t n d other) =
          ((s.apply ((m <<< (e - place).toNat : ℕ) : ℤ) -
            t.apply ((n <<< (d - place).toNat : ℕ) : ℤ) : ℤ) : ℚ) * 2 ^ place := by
        have left := apply_shift s m (min_le_left e d)
        have right := apply_shift t n (min_le_right e d)
        rw [← placeEq] at left right
        rw [Int.cast_sub, sub_mul, left, right]
        rfl
      have unit : (0 : ℚ) < 2 ^ place := by positivity
      rw [distance, abs_mul, abs_of_pos unit]
      exact stands_normalize _ _

theorem extent_abs_sub {x y : Float} (first : x.isFinite = true) (second : y.isFinite = true) :
    Extent (x - y).abs (fit (nearest |value x - value y|)) := by
  obtain ⟨s, stands⟩ := stands_sub (finite_unpack first) (finite_unpack second)
  exact extent_abs_pack rfl stands

theorem unpack_pack_unpack (x : Float) :
    (Float.Model.pack x.toModel.unpack).unpack = x.toModel.unpack := by
  cases form : x.toModel.unpack with
  | notANumber => rfl
  | infinity s => exact unpack_pack_infinity s
  | zero s => exact unpack_pack_zero s
  | finite s m e positive =>
    obtain ⟨canonical, bounded⟩ := canonical_of_unpack form
    exact unpack_pack_finite s positive canonical bounded

theorem zero_add_of_ne {x : Float} (other : x.toModel.unpack ≠ .zero .negative) : 0.0 + x = x := by
  have none : (0.0 : Float).toModel.unpack = .zero .positive := rfl
  have sum : (0.0 : Float).toModel.unpack.add Format.binary64 x.toModel.unpack =
      x.toModel.unpack := by
    rw [none]
    cases form : x.toModel.unpack with
    | notANumber | infinity | finite => rfl
    | zero s =>
      cases s with
      | positive => rfl
      | negative => exact absurd form other
  apply eq_of_unpack
  change (Float.Model.pack ((0.0 : Float).toModel.unpack.add Format.binary64 _)).unpack = _
  rw [sum, unpack_pack_unpack]

theorem unpack_pack_infinite_ne {f : UnpackedFloat} (infinite : f.isFinite = false) (t : Sign) :
    (Float.Model.pack f).unpack ≠ .zero t := by
  cases f with
  | notANumber => exact unpack_pack_notANumber.trans_ne nofun
  | infinity s => exact (unpack_pack_infinity s).trans_ne nofun
  | zero | finite => cases infinite

theorem unpack_pack_ne_zero {s : Sign} {q : ℚ} {f : UnpackedFloat} (stands : Stands s q f)
    (positive : 0 < q) (t : Sign) : (Float.Model.pack f).unpack ≠ .zero t := by
  cases stands with
  | zero => exact absurd positive (lt_irrefl 0)
  | @finite m e some canonical =>
    by_cases bounded : e ≤ 971
    · exact (unpack_pack_finite s some canonical bounded).trans_ne nofun
    · exact (unpack_pack_overflow s some (not_le.mp bounded)).trans_ne nofun

theorem nearest_pos {m : ℕ} {e : ℤ} (some : 0 < m) (least : -1074 ≤ e) :
    0 < nearest ((m : ℚ) * 2 ^ e) := by
  have unit : (0 : ℚ) < 2 ^ e := by positivity
  calc
    (0 : ℚ) < 2 ^ e := unit
    _ = nearest (2 ^ e) :=
      (nearest_of_representable ⟨1, e, by norm_num, least, by simp⟩).symm
    _ ≤ nearest (m * 2 ^ e) :=
      nearest_mono unit.le (le_mul_of_one_le_left unit.le (by exact_mod_cast some))

theorem unpack_pack_normalize_ne {e : ℤ} (least : -1074 ≤ e) (k : ℤ) :
    (Float.Model.pack (UnpackedFloat.normalize Format.binary64 k e .positive)).unpack ≠
      .zero .negative := by
  unfold UnpackedFloat.normalize
  split
  · next negative =>
    have below := compare_lt_iff_lt.mp negative
    have some : 0 < (-k).toNat := by omega
    exact unpack_pack_ne_zero (stands_round _ _ some) (nearest_pos some least) _
  · exact (unpack_pack_zero .positive).trans_ne nofun
  · next positive =>
    have above := compare_gt_iff_gt.mp positive
    have some : 0 < k.toNat := by omega
    exact unpack_pack_ne_zero (stands_round _ _ some) (nearest_pos some least) _

theorem sub_ne_negative_zero {x : Float} (other : x.toModel.unpack ≠ .zero .negative) (y : Float) :
    (x - y).toModel.unpack ≠ .zero .negative := by
  change (Float.Model.pack (x.toModel.unpack.sub Format.binary64 y.toModel.unpack)).unpack ≠ _
  cases first : x.toModel.unpack with
  | notANumber => exact unpack_pack_infinite_ne rfl _
  | infinity s =>
    cases y.toModel.unpack with
    | infinity t => cases s <;> cases t <;> exact unpack_pack_infinite_ne rfl _
    | notANumber | zero | finite => exact unpack_pack_infinite_ne rfl _
  | zero s =>
    cases s with
    | negative => exact absurd first other
    | positive =>
      cases second : y.toModel.unpack with
      | notANumber | infinity => exact unpack_pack_infinite_ne rfl _
      | zero t => cases t <;> exact (unpack_pack_zero .positive).trans_ne nofun
      | finite t n d positive =>
        obtain ⟨canonical, bounded⟩ := canonical_of_unpack second
        exact (unpack_pack_finite (-t) positive canonical bounded).trans_ne nofun
  | finite s m e positive =>
    obtain ⟨canonical, bounded⟩ := canonical_of_unpack first
    cases second : y.toModel.unpack with
    | notANumber | infinity => exact unpack_pack_infinite_ne rfl _
    | zero => exact (unpack_pack_finite s positive canonical bounded).trans_ne nofun
    | finite t n d some =>
      have least := (canonical_of_unpack second).1.2.1
      exact unpack_pack_normalize_ne (le_min canonical.2.1 least) _

theorem toNat_components (s : Sign) (exponent : BitVec 11) (mantissa : BitVec 52) :
    (packComponents Format.binary64 s exponent mantissa).toNat =
      s.toBitVec.toNat * 2 ^ 63 + exponent.toNat * 2 ^ 52 + mantissa.toNat := by
  change (s.toBitVec ++ exponent ++ mantissa : BitVec (1 + 11 + 52)).toNat = _
  rw [BitVec.toNat_append, BitVec.toNat_append, ← Nat.shiftLeft_add_eq_or_of_lt mantissa.isLt,
    ← Nat.shiftLeft_add_eq_or_of_lt exponent.isLt]
  simp only [Nat.shiftLeft_eq]
  ring

theorem toNat_pack_finite (s : Sign) {m : ℕ} {e : ℤ} (positive : 0 < m)
    (canonical : Canonical m e) (bounded : e ≤ 971) :
    ((UnpackedFloat.pack Format.binary64 (.finite s m e positive)).toNat : ℤ) =
      s.toBitVec.toNat * 2 ^ 63 + ((e + 1074) * 2 ^ 52 + m) := by
  obtain ⟨digits, least, full⟩ := canonical
  have bias : (Format.binary64.exponentBias : ℤ) = 1023 := rfl
  have fits : ¬ 2 ^ 11 ≤ (e + 1023 + 52).toNat + 1 := by omega
  unfold UnpackedFloat.pack
  simp only [bias, Nat.cast_ofNat]
  rw [if_neg fits]
  by_cases normal : 2 ^ 52 ≤ m
  · have size : m.log2 + 1 = Format.binary64.mantissaBits := by
      have : m.log2 = 52 := (Nat.log2_eq_iff positive.ne').mpr ⟨normal, digits⟩
      rw [this]
      rfl
    rw [if_pos size, toNat_components, BitVec.toNat_ofNat, BitVec.toNat_ofNat]
    push_cast
    omega
  · have size : ¬ m.log2 + 1 = Format.binary64.mantissaBits := by
      have : m.log2 < 52 := (Nat.log2_lt positive.ne').mpr (by omega)
      change ¬ m.log2 + 1 = 53
      omega
    rw [if_neg size, toNat_components, BitVec.toNat_ofNat]
    simp
    omega

/-- Where a finite number stands in the order of words. -/
def place : UnpackedFloat → ℤ
  | .finite .positive m e _ => (e + 1074) * 2 ^ 52 + m
  | .finite .negative m e _ => -1 - ((e + 1074) * 2 ^ 52 + m)
  | .zero .negative => -1
  | _ => 0

theorem orderKey_eq {x : Float} (finite : x.isFinite = true) :
    Curve.orderKey x = place x.toModel.unpack := by
  have same : x = Float.ofModel (.pack x.toModel.unpack) :=
    eq_of_unpack (unpack_pack_unpack x).symm
  have word : x.toBits.toNat = (UnpackedFloat.pack Format.binary64 x.toModel.unpack).toNat := by
    conv_lhs => rw [same]
    rfl
  unfold Curve.orderKey
  rw [word]
  have read := finite_unpack finite
  generalize x.toModel.unpack = f at read
  cases read with
  | zero s => cases s <;> rfl
  | @finite s m e positive canonical bounded =>
    have bits := toNat_pack_finite s positive canonical bounded
    have digits := canonical.1
    have least := canonical.2.1
    cases s with
    | positive =>
      have sign : Sign.positive.toBitVec.toNat = 0 := rfl
      rw [sign] at bits
      simp only [signedLimit, place]
      split_ifs with small <;> omega
    | negative =>
      have sign : Sign.negative.toBitVec.toNat = 1 := rfl
      rw [sign] at bits
      simp only [signedLimit, place]
      split_ifs with small <;> omega

theorem orderKey_injective {x y : Float} (same : Curve.orderKey x = Curve.orderKey y) : x = y := by
  have first := x.toBits.toNat_lt
  have second := y.toBits.toNat_lt
  have bits : x.toBits.toNat = y.toBits.toNat := by
    simp only [Curve.orderKey, signedLimit] at same
    split_ifs at same <;> omega
  obtain ⟨⟨a, hx⟩⟩ := x
  obtain ⟨⟨b, hy⟩⟩ := y
  cases UInt64.toNat_inj.mp bits
  rfl

theorem place_lt {f g : UnpackedFloat} (first : FiniteForm f) (second : FiniteForm g)
    (less : signedValue f < signedValue g) : place f < place g := by
  have ordered {m n : ℕ} {d e : ℤ} (left : Canonical m d) (right : Canonical n e)
      (smaller : (m : ℚ) * 2 ^ d < n * 2 ^ e) :
      (d + 1074) * 2 ^ 52 + m < (e + 1074) * 2 ^ 52 + n := by
    rcases lt_trichotomy d e with finer | rfl | coarser
    · obtain ⟨digits, least, -⟩ := left
      obtain ⟨-, -, full | tiny⟩ := right <;> omega
    · have digits := lt_of_mul_lt_mul_right smaller (by positivity)
      have : m < n := by exact_mod_cast digits
      omega
    · exact absurd smaller (canonical_lt right left coarser).not_gt
  cases first with
  | zero s =>
    cases second with
    | zero => exact absurd less (lt_irrefl 0)
    | @finite t n d other also =>
      have size : (0 : ℚ) < n * 2 ^ d := by positivity
      have least := also.2.1
      cases t with
      | positive => cases s <;> simp only [place] <;> omega
      | negative =>
        simp only [signedValue, Sign.apply, Int.cast_neg, Int.cast_natCast, neg_mul] at less
        linarith
  | @finite s m e positive canonical =>
    have size : (0 : ℚ) < m * 2 ^ e := by positivity
    have least := canonical.2.1
    cases second with
    | zero t =>
      cases s with
      | positive =>
        simp only [signedValue, Sign.apply, Int.cast_natCast] at less
        linarith
      | negative => cases t <;> simp only [place] <;> omega
    | @finite t n d other also =>
      have more : (0 : ℚ) < n * 2 ^ d := by positivity
      have fine := also.2.1
      cases s <;> cases t <;>
        simp only [signedValue, Sign.apply, Int.cast_neg, Int.cast_natCast, neg_mul,
          neg_lt_neg_iff] at less <;> simp only [place]
      · have := ordered also canonical less
        omega
      · omega
      · linarith
      · exact ordered canonical also less

theorem value_le_of_orderKey_le {x y : Float} (first : x.isFinite = true)
    (second : y.isFinite = true) (ordered : Curve.orderKey x ≤ Curve.orderKey y) :
    value x ≤ value y := by
  rw [orderKey_eq first, orderKey_eq second] at ordered
  rw [← not_lt]
  intro less
  exact absurd ordered (place_lt (finite_unpack second) (finite_unpack first) less).not_ge

end PaymentFees.Binary
