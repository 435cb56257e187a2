import PaymentFees.Proofs.Binary.Whole

namespace PaymentFees.Binary

open Float.Model Float.Model.UnpackedFloat

theorem unpack_components_neg (s : Sign) {exponent : BitVec 11} (mantissa : BitVec 52)
    (bounded : exponent ≠ -1#11) :
    unpack Format.binary64 (packComponents Format.binary64 (-s) exponent mantissa) =
      (unpack Format.binary64 (packComponents Format.binary64 s exponent mantissa)).neg := by
  rw [unpack_components _ _ _ bounded, unpack_components _ _ _ bounded]
  split_ifs <;> rfl

theorem unpack_pack_neg (f : UnpackedFloat) :
    (Float.Model.pack f.neg).unpack = (Float.Model.pack f).unpack.neg := by
  cases f with
  | notANumber => rfl
  | infinity s => cases s <;> rfl
  | zero s => cases s <;> rfl
  | finite s m e positive =>
    rw [unpack_pack, unpack_pack]
    unfold UnpackedFloat.neg UnpackedFloat.pack
    dsimp only
    split_ifs with large normal
    · have infinite := congrArg UnpackedFloat.neg (unpack_pack_infinity s)
      exact (unpack_pack_infinity (-s)).trans infinite.symm
    · apply unpack_components_neg
      intro ones
      have word := congrArg BitVec.toNat ones
      simp at word large
      omega
    · exact unpack_components_neg s _ (by decide)

theorem ofModel_pack_neg (f : UnpackedFloat) :
    Float.ofModel (.pack f.neg) = -Float.ofModel (.pack f) := by
  apply eq_of_unpack
  rw [unpack_neg]
  exact unpack_pack_neg f

theorem negated_twice (x : Float) : - -x = x := by
  apply eq_of_unpack
  rw [unpack_neg, unpack_neg]
  cases x.toModel.unpack with
  | notANumber => rfl
  | infinity s | zero s | finite s => cases s <;> rfl

theorem roundWithAccuracy_neg (s : Sign) (m : ℕ) (e : ℤ) (accuracy : Accuracy) :
    roundWithAccuracy Format.binary64 (-s) m e accuracy =
      (roundWithAccuracy Format.binary64 s m e accuracy).neg := by
  simp only [roundWithAccuracy]
  split <;> rfl

theorem mul_neg_left (f g : UnpackedFloat) :
    UnpackedFloat.mul Format.binary64 f.neg g = (UnpackedFloat.mul Format.binary64 f g).neg := by
  have signs (s t : Sign) : -s * t = -(s * t) := by cases s <;> cases t <;> rfl
  cases f <;> cases g <;>
    simp only [UnpackedFloat.neg, UnpackedFloat.mul, signs, roundWithAccuracy_neg]

theorem div_neg_left (f g : UnpackedFloat) :
    UnpackedFloat.div Format.binary64 f.neg g = (UnpackedFloat.div Format.binary64 f g).neg := by
  have signs (s t : Sign) : -s / t = -(s / t) := by cases s <;> cases t <;> rfl
  cases f <;> cases g <;>
    simp only [UnpackedFloat.neg, UnpackedFloat.div, signs, roundWithAccuracy_neg]

theorem negated_mul (x y : Float) : -x * y = -(x * y) := by
  change Float.ofModel (.pack ((-x).toModel.unpack.mul Format.binary64 y.toModel.unpack)) = _
  rw [unpack_neg, mul_neg_left, ofModel_pack_neg]
  rfl

theorem negated_div (x y : Float) : -x / y = -(x / y) := by
  change Float.ofModel (.pack ((-x).toModel.unpack.div Format.binary64 y.toModel.unpack)) = _
  rw [unpack_neg, div_neg_left, ofModel_pack_neg]
  rfl

theorem signed_neg (s : Sign) (x : Float) : signed (-s) x = -signed s x := by
  cases s with
  | positive => rfl
  | negative => exact (negated_twice x).symm

theorem onWhole_neg (round : ℕ → ℕ → ℕ) (x : Float) : onWhole round (-x) = -onWhole round x := by
  unfold onWhole
  rw [unpack_neg]
  cases x.toModel.unpack with
  | notANumber | infinity | zero => rfl
  | finite s m e =>
    cases e with
    | ofNat => rfl
    | negSucc => exact signed_neg s _

end PaymentFees.Binary
