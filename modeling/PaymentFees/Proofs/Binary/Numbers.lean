import PaymentFees.Proofs.Binary.Whole

namespace PaymentFees.Binary

open Float.Model Float.Model.UnpackedFloat

/-- The number is not below zero and of this size. -/
structure Sized (x : Float) (a : WithTop ℚ) : Prop where
  size : Extent x.abs a
  nonnegative : ¬ x < 0.0

theorem isNaN_of_isFinite {x : Float} (finite : x.isFinite = true) : x.isNaN = false := by
  change x.toModel.unpack.isFinite = true at finite
  change x.toModel.unpack.isNaN = false
  cases form : x.toModel.unpack with
  | notANumber => simp [form, UnpackedFloat.isFinite] at finite
  | infinity | zero | finite => rfl

theorem unsigned_abs {x : Float} (number : x.isNaN = false) : Unsigned x.abs := by
  cases finite : x.isFinite with
  | true =>
    obtain ⟨q, read⟩ := extent_abs finite
    exact ⟨q, read⟩
  | false =>
    change x.toModel.unpack.isNaN = false at number
    change x.toModel.unpack.isFinite = false at finite
    refine ⟨⊤, ?_⟩
    simp only [Extent, unpack_abs]
    cases form : x.toModel.unpack with
    | infinity => rfl
    | notANumber => simp [form, UnpackedFloat.isNaN] at number
    | zero | finite => simp [form, UnpackedFloat.isFinite] at finite

theorem abs_abs (x : Float) : x.abs.abs = x.abs := by
  apply eq_of_unpack
  rw [unpack_abs, unpack_abs]
  cases x.toModel.unpack <;> rfl

theorem abs_neg (x : Float) : (-x).abs = x.abs := by
  apply eq_of_unpack
  rw [unpack_abs, unpack_abs, unpack_neg]
  cases x.toModel.unpack <;> rfl

theorem isFinite_abs (x : Float) : x.abs.isFinite = x.isFinite := by
  change x.abs.toModel.unpack.isFinite = x.toModel.unpack.isFinite
  rw [unpack_abs]
  cases x.toModel.unpack <;> rfl

theorem sized_abs {x : Float} (number : x.isNaN = false) : ∃ a, Sized x.abs a := by
  obtain ⟨a, read⟩ := unsigned_abs number
  exact ⟨a, (abs_abs x).symm ▸ read, not_abs_lt x⟩

theorem Sized.unpack_eq {x : Float} {a : WithTop ℚ} (sized : Sized x a) :
    x.abs.toModel.unpack = x.toModel.unpack ∨
      x.abs.toModel.unpack = .zero .positive ∧ x.toModel.unpack = .zero .negative := by
  obtain ⟨size, nonnegative⟩ := sized
  rw [unpack_abs]
  rcases cases_of_not_lt nonnegative with none | ⟨b, read⟩ | zero
  · rw [none]
    exact .inl rfl
  · left
    cases b with
    | top =>
      simp only [Extent] at read
      rw [read]
      rfl
    | coe q =>
      simp only [Extent] at read
      generalize x.toModel.unpack = f at read
      cases read <;> rfl
  · rw [zero]
    exact .inr ⟨rfl, rfl⟩

theorem compare_zero (s t : Sign) (f : UnpackedFloat) :
    UnpackedFloat.compare (.zero s) f = UnpackedFloat.compare (.zero t) f ∧
      f.compare (.zero s) = f.compare (.zero t) := by
  cases f with
  | notANumber | zero => exact ⟨rfl, rfl⟩
  | infinity sign | finite sign => cases sign <;> exact ⟨rfl, rfl⟩

section

variable {x y : Float} {a b : WithTop ℚ} (first : Sized x a) (second : Sized y b)
include first second

theorem compare_sized : x.toModel.unpack.compare y.toModel.unpack = some (compare a b) := by
  rw [← compare_extents first.size second.size]
  rcases first.unpack_eq with same | ⟨plain, signed⟩
  · rcases second.unpack_eq with alike | ⟨plain, signed⟩
    · rw [same, alike]
    · rw [same, plain, signed]
      exact (compare_zero _ _ _).2
  · rcases second.unpack_eq with alike | ⟨plain', signed'⟩
    · rw [alike, plain, signed]
      exact (compare_zero _ _ _).1
    · rw [plain, signed, plain', signed']
      rfl

theorem Sized.le_iff : x ≤ y ↔ a ≤ b := by
  change decide ((x.toModel.unpack.compare y.toModel.unpack).any (·.isLE) = true) = true ↔ a ≤ b
  rw [compare_sized first second, decide_eq_true_iff]
  exact Std.LawfulBCmp.isLE_iff_le

theorem Sized.lt_iff : x < y ↔ a < b := by
  change decide ((x.toModel.unpack.compare y.toModel.unpack == some .lt) = true) = true ↔ a < b
  rw [compare_sized first second, decide_eq_true_iff, beq_iff_eq, Option.some_inj]
  exact compare_lt_iff_lt

theorem Sized.beq_iff : (x == y) = true ↔ a = b := by
  change (x.toModel.unpack.compare y.toModel.unpack == some .eq) = true ↔ a = b
  rw [compare_sized first second, beq_iff_eq, Option.some_inj]
  exact compare_eq_iff_eq

theorem Sized.not_le_iff : ¬ x ≤ y ↔ y < x := by
  rw [first.le_iff second, second.lt_iff first, not_le]

end

theorem sized_zero : Sized 0.0 (0 : ℚ) := ⟨extent_zero.abs, by decide⟩

theorem zero_le_of_not_lt {x : Float} (number : x.isNaN = false) (nonnegative : ¬ x < 0.0) :
    0.0 ≤ x := by
  obtain ⟨a, size⟩ := unsigned_abs number
  have sized : Sized x a := ⟨size, nonnegative⟩
  rw [sized_zero.le_iff sized, ← extent_zero.le_iff size]
  exact Unsigned.le ⟨a, size⟩

/-- What is not below zero is above it or a zero, of either sign. -/
theorem lt_or_beq_of_zero_le {x : Float} (nonnegative : 0.0 ≤ x) :
    0.0 < x ∧ ¬ x ≤ 0.0 ∨ ¬ 0.0 < x ∧ x ≤ 0.0 ∧ (0.0 == x) = true := by
  have least : (UnpackedFloat.compare (.zero .positive) x.toModel.unpack).any (·.isLE) = true :=
    of_decide_eq_true nonnegative
  cases form : x.toModel.unpack with
  | notANumber =>
    rw [form] at least
    cases least
  | zero s =>
    right
    change ¬ decide ((UnpackedFloat.compare (.zero .positive) x.toModel.unpack == some .lt) =
        true) = true ∧
      decide ((x.toModel.unpack.compare (.zero .positive)).any (·.isLE) = true) = true ∧
      (UnpackedFloat.compare (.zero .positive) x.toModel.unpack == some .eq) = true
    rw [form]
    cases s <;> decide
  | infinity s | finite s =>
    left
    rw [form] at least
    have number : x.isNaN = false := by
      change x.toModel.unpack.isNaN = false
      rw [form]
      rfl
    have above : ¬ x ≤ 0.0 := by
      intro below
      have most : (x.toModel.unpack.compare (.zero .positive)).any (·.isLE) = true :=
        of_decide_eq_true below
      rw [form] at most
      cases s
      · cases least
      · cases most
    exact ⟨lt_of_not_le number above, above⟩

theorem isNaN_roundWithAccuracy (spec : Format) (s : Sign) (m : ℕ) (e : ℤ) (accuracy : Accuracy) :
    (roundWithAccuracy spec s m e accuracy).isNaN = false := by
  unfold roundWithAccuracy
  dsimp only
  split <;> rfl

theorem isNaN_normalize (spec : Format) (m e : ℤ) (s : Sign) :
    (UnpackedFloat.normalize spec m e s).isNaN = false := by
  unfold UnpackedFloat.normalize
  split
  · exact isNaN_roundWithAccuracy _ _ _ _ _
  · rfl
  · exact isNaN_roundWithAccuracy _ _ _ _ _

theorem isNaN_pack {f : UnpackedFloat} (number : f.isNaN = false) :
    (Float.Model.pack f).unpack.isNaN = false := by
  cases f with
  | notANumber => cases number
  | infinity s => rw [unpack_pack_infinity]; rfl
  | zero s => rw [unpack_pack_zero]; rfl
  | finite s m e some =>
    have bias : (Format.binary64.exponentBias : ℤ) = 1023 := rfl
    have infinite : UnpackedFloat.unpack Format.binary64 (packedInfinity Format.binary64 s) =
        .infinity s :=
      unpack_pack_infinity s
    have components (exponent : BitVec 11) (mantissa : BitVec 52) (bounded : exponent ≠ -1#11) :
        (UnpackedFloat.unpack Format.binary64
          (packComponents Format.binary64 s exponent mantissa)).isNaN = false := by
      rw [unpack_components s exponent mantissa bounded]
      split
      · split <;> rfl
      · rfl
    rw [unpack_pack]
    unfold UnpackedFloat.pack
    simp only [bias, Nat.cast_ofNat]
    split
    · rw [infinite]
      rfl
    · next fits =>
      change ¬ 2 ^ 11 ≤ (e + 1023 + 52).toNat + 1 at fits
      split
      · apply components
        intro ones
        have same := congrArg BitVec.toNat ones
        rw [BitVec.toNat_ofNat, Nat.mod_eq_of_lt (by omega)] at same
        simp at same
        omega
      · exact components _ _ (by decide)

section

variable {x y : Float} {q : ℚ}

theorem isNaN_sub (finite : x.isFinite = true) (number : y.isNaN = false) :
    (x - y).isNaN = false := by
  change x.toModel.unpack.isFinite = true at finite
  change y.toModel.unpack.isNaN = false at number
  change (Float.Model.pack (x.toModel.unpack.sub Format.binary64 y.toModel.unpack)).unpack.isNaN =
    false
  apply isNaN_pack
  generalize x.toModel.unpack = f at finite
  generalize y.toModel.unpack = g at number
  cases f with
  | notANumber | infinity => cases finite
  | zero s =>
    cases g with
    | notANumber => cases number
    | infinity t | finite t => rfl
    | zero t => cases s <;> cases t <;> rfl
  | finite s =>
    cases g with
    | notANumber => cases number
    | infinity t | zero t => rfl
    | finite t => exact isNaN_normalize _ _ _ _

variable (number : x.isNaN = false) (read : Extent y q) (positive : 0 < q)
include number read positive

theorem isNaN_mul : (x * y).isNaN = false := by
  change x.toModel.unpack.isNaN = false at number
  change (Float.Model.pack (x.toModel.unpack.mul Format.binary64 y.toModel.unpack)).unpack.isNaN =
    false
  apply isNaN_pack
  simp only [Extent] at read
  generalize x.toModel.unpack = f at number
  generalize y.toModel.unpack = g at read
  cases read with
  | zero => exact absurd positive (lt_irrefl 0)
  | finite =>
    cases f with
    | notANumber => cases number
    | infinity s | zero s => rfl
    | finite s => exact isNaN_roundWithAccuracy _ _ _ _ _

theorem isNaN_div : (x / y).isNaN = false := by
  change x.toModel.unpack.isNaN = false at number
  change (Float.Model.pack (x.toModel.unpack.div Format.binary64 y.toModel.unpack)).unpack.isNaN =
    false
  apply isNaN_pack
  simp only [Extent] at read
  generalize x.toModel.unpack = f at number
  generalize y.toModel.unpack = g at read
  cases read with
  | zero => exact absurd positive (lt_irrefl 0)
  | finite =>
    cases f with
    | notANumber => cases number
    | infinity s | zero s => rfl
    | finite s => exact isNaN_roundWithAccuracy _ _ _ _ _

end

theorem Unsigned.isNaN {x : Float} (unsigned : Unsigned x) : x.isNaN = false := by
  obtain ⟨a, read⟩ := unsigned
  change x.toModel.unpack.isNaN = false
  cases a with
  | top =>
    simp only [Extent] at read
    rw [read]
    rfl
  | coe q => exact isNaN_of_isFinite read.isFinite

theorem isNaN_signed {x : Float} (number : x.isNaN = false) (s : Sign) :
    (signed s x).isNaN = false := by
  cases s with
  | positive => exact number
  | negative =>
    change (-x).toModel.unpack.isNaN = false
    change x.toModel.unpack.isNaN = false at number
    rw [unpack_neg]
    cases form : x.toModel.unpack with
    | notANumber => rw [form] at number; cases number
    | infinity | zero | finite => rfl

theorem isNaN_onWhole {x : Float} (number : x.isNaN = false) (round : ℕ → ℕ → ℕ) :
    (onWhole round x).isNaN = false := by
  unfold onWhole
  split
  · exact isNaN_signed (Unsigned.isNaN ⟨_, extent_ofNat _⟩) _
  · exact number

end PaymentFees.Binary
