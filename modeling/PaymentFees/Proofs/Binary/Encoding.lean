import Mathlib

namespace PaymentFees.Binary

open Float.Model Float.Model.UnpackedFloat

/-- A significand of at most 53 digits, all of them used unless the last place is the least one. -/
def Canonical (m : ℕ) (e : ℤ) : Prop :=
  m < 2 ^ 53 ∧ -1074 ≤ e ∧ (2 ^ 52 ≤ m ∨ e = -1074)

@[simp] theorem sign_toBitVec (s : Sign) : Sign.ofBitVec s.toBitVec = s := by
  cases s <;> rfl

@[simp] theorem unpackSign_packComponents (s : Sign) (exponent : BitVec 11)
    (mantissa : BitVec 52) :
    unpackSign (packComponents Format.binary64 s exponent mantissa) = s.toBitVec := by
  ext i inside
  have first : i = 0 := by omega
  subst first
  simp only [unpackSign, packComponents, BitVec.getElem_cast, BitVec.extractLsb,
    BitVec.getElem_extractLsb']
  change (s.toBitVec ++ exponent ++ mantissa : BitVec (1 + 11 + 52)).getLsbD 63 = s.toBitVec[0]
  rw [BitVec.getLsbD_append, BitVec.getLsbD_append]
  rfl

theorem toNat_implicit (mantissa : BitVec 52) :
    (1#1 ++ mantissa).toNat = 2 ^ 52 + mantissa.toNat := by
  rw [BitVec.toNat_append, ← Nat.shiftLeft_add_eq_or_of_lt mantissa.isLt]
  rfl

theorem unpack_pack (f : UnpackedFloat) :
    (Float.Model.pack f).unpack = unpack Format.binary64 (pack Format.binary64 f) := rfl

@[simp] theorem unpack_pack_notANumber :
    (Float.Model.pack .notANumber).unpack = .notANumber := rfl

@[simp] theorem unpack_pack_infinity (s : Sign) :
    (Float.Model.pack (.infinity s)).unpack = .infinity s := by
  cases s <;> rfl

@[simp] theorem unpack_pack_zero (s : Sign) : (Float.Model.pack (.zero s)).unpack = .zero s := by
  cases s <;> rfl

theorem unpack_components (s : Sign) (exponent : BitVec 11) (mantissa : BitVec 52)
    (bounded : exponent ≠ -1#11) :
    unpack Format.binary64 (packComponents Format.binary64 s exponent mantissa) =
      if exponent = 0#11 then
        if h : mantissa = 0#52 then .zero s
        else .finite s mantissa.toNat (-1074) (by
          simpa [BitVec.toNat_pos, BitVec.pos_iff_ne_zero])
      else .finite s (1#1 ++ mantissa).toNat (exponent.toNat - 1075) (by
        rw [toNat_implicit]
        omega) := by
  unfold UnpackedFloat.unpack
  simp only [unpackMantissa_packComponents, unpackExponent_packComponents,
    unpackSign_packComponents, sign_toBitVec, if_neg bounded]
  split
  · next least =>
    split
    · rfl
    · subst least
      rfl
  · rfl

theorem unpack_pack_finite (s : Sign) {m : ℕ} {e : ℤ} (positive : 0 < m)
    (canonical : Canonical m e) (bounded : e ≤ 971) :
    (Float.Model.pack (.finite s m e positive)).unpack = .finite s m e positive := by
  obtain ⟨digits, least, full⟩ := canonical
  have bias : (Format.binary64.exponentBias : ℤ) = 1023 := rfl
  have fits : ¬ 2 ^ 11 ≤ (e + 1023 + 52).toNat + 1 := by omega
  rw [unpack_pack]
  unfold UnpackedFloat.pack
  simp only [bias, Nat.cast_ofNat]
  rw [if_neg fits]
  by_cases normal : 2 ^ 52 ≤ m
  · have size : m.log2 + 1 = Format.binary64.mantissaBits := by
      have : m.log2 = 52 := (Nat.log2_eq_iff positive.ne').mpr ⟨normal, digits⟩
      rw [this]
      rfl
    have exponent : (BitVec.ofNat 11 (e + 1023 + 52).toNat).toNat = (e + 1023 + 52).toNat := by
      rw [BitVec.toNat_ofNat, Nat.mod_eq_of_lt (by omega)]
    have mantissa : (1#1 ++ BitVec.ofNat 52 m).toNat = m := by
      rw [toNat_implicit, BitVec.toNat_ofNat]
      omega
    rw [if_pos size, unpack_components, if_neg]
    · simp only [mantissa, exponent]
      congr 1
      omega
    · intro zero
      have := congrArg BitVec.toNat zero
      rw [exponent] at this
      simp at this
      omega
    · intro ones
      have := congrArg BitVec.toNat ones
      rw [exponent] at this
      simp at this
      omega
  · have size : ¬ m.log2 + 1 = Format.binary64.mantissaBits := by
      have : m.log2 < 52 := (Nat.log2_lt positive.ne').mpr (by omega)
      change ¬ m.log2 + 1 = 53
      omega
    have mantissa : (BitVec.ofNat 52 m).toNat = m := by
      rw [BitVec.toNat_ofNat, Nat.mod_eq_of_lt (by omega)]
    have place : e = -1074 := by omega
    rw [if_neg size, unpack_components _ _ _ (by decide), if_pos rfl, dif_neg]
    · simp only [mantissa, place]
    · intro zero
      have := congrArg BitVec.toNat zero
      rw [mantissa] at this
      simp at this
      omega

theorem unpack_pack_overflow (s : Sign) {m : ℕ} {e : ℤ} (positive : 0 < m) (large : 971 < e) :
    (Float.Model.pack (.finite s m e positive)).unpack = .infinity s := by
  have bias : (Format.binary64.exponentBias : ℤ) = 1023 := rfl
  have beyond : 2 ^ 11 ≤ (e + 1023 + 52).toNat + 1 := by omega
  have same : pack Format.binary64 (.finite s m e positive) =
      pack Format.binary64 (.infinity s) := by
    unfold UnpackedFloat.pack
    simp only [bias, Nat.cast_ofNat]
    rw [if_pos beyond]
  rw [unpack_pack, same, ← unpack_pack, unpack_pack_infinity]

theorem canonical_of_unpack {x : Float.Model} {s : Sign} {m : ℕ} {e : ℤ} {positive : 0 < m}
    (read : x.unpack = .finite s m e positive) : Canonical m e ∧ e ≤ 971 := by
  have bias : ((Format.binary64.exponentBias : ℕ) : ℤ) = 1023 := rfl
  have small : (@unpackMantissa Format.binary64 x.toBits.toBitVec).toNat < 2 ^ 52 :=
    (@unpackMantissa Format.binary64 x.toBits.toBitVec).isLt
  have range : (@unpackExponent Format.binary64 x.toBits.toBitVec).toNat < 2 ^ 11 :=
    (@unpackExponent Format.binary64 x.toBits.toBitVec).isLt
  unfold Float.Model.unpack UnpackedFloat.unpack at read
  dsimp only at read
  split at read
  · split at read <;> cases read
  next finite =>
  have bounded : (@unpackExponent Format.binary64 x.toBits.toBitVec).toNat ≠ 2047 :=
    fun top => finite (BitVec.eq_of_toNat_eq top)
  split at read
  · next least =>
    have zero : (@unpackExponent Format.binary64 x.toBits.toBitVec).toNat = 0 := by
      rw [least]
      rfl
    split at read
    · cases read
    · injection read with _ significand place
      rw [bias, zero] at place
      refine ⟨⟨?_, ?_, ?_⟩, ?_⟩ <;> omega
  · next normal =>
    have nonzero : (@unpackExponent Format.binary64 x.toBits.toBitVec).toNat ≠ 0 :=
      fun zero => normal (BitVec.eq_of_toNat_eq zero)
    injection read with _ significand place
    rw [toNat_implicit] at significand
    rw [bias] at place
    refine ⟨⟨?_, ?_, ?_⟩, ?_⟩ <;> omega

theorem eq_of_unpack {x y : Float} (same : x.toModel.unpack = y.toModel.unpack) : x = y := by
  obtain ⟨⟨⟨a⟩, hx⟩⟩ := x
  obtain ⟨⟨⟨b⟩, hy⟩⟩ := y
  have := (UnpackedFloat.unpack_inj_of_valid hx hy).mp same
  subst this
  rfl

end PaymentFees.Binary
