import PaymentFees.Proofs.Json.Reading
import PaymentFees.Json.Number
import Mathlib.Tactic.FieldSimp
import Mathlib.Tactic.IntervalCases
import Mathlib.Tactic.Positivity
import Mathlib.Tactic.Ring

namespace PaymentFees

theorem head_toDigits {n : ℕ} (some : 0 < n) : (Nat.toDigits 10 n).head? ≠ .some '0' := by
  induction n using Nat.strongRecOn with
  | _ n ih =>
    by_cases small : n < 10
    · rw [Nat.toDigits_of_lt_base small]
      interval_cases n <;> decide
    · rw [Nat.toDigits_of_base_le (by norm_num) (not_lt.mp small), List.head?_append]
      have fewer := ih (n / 10) (by omega) (by omega)
      cases first : (Nat.toDigits 10 (n / 10)).head? with
      | none => exact absurd (List.head?_eq_none_iff.mp first) Nat.toDigits_ne_nil
      | some c =>
        rw [first] at fewer
        exact fewer

theorem numberOf_zeros (c zeros : ℕ) :
    numberOf (Nat.toDigits 10 c ++ List.replicate zeros '0') = c * 10 ^ zeros := by
  unfold numberOf
  rw [Nat.ofDigitChars_append, Nat.ofDigitChars_ten_toDigits, Nat.ofDigitChars_replicate_zero,
    mul_comm]

theorem numberOf_filled (c zeros : ℕ) :
    numberOf (List.replicate zeros '0' ++ Nat.toDigits 10 c) = c := by
  unfold numberOf
  rw [Nat.ofDigitChars_append, Nat.ofDigitChars_replicate_zero, mul_zero,
    Nat.ofDigitChars_ten_toDigits]

namespace Decimal

theorem ofDecimal_whole {c : ℕ} (zeros : ℕ) (near : Decimal.pointPosition ⟨c, zeros⟩ ≤ 16) :
    Numeral.ofDecimal ⟨c, zeros⟩ =
      ⟨Nat.toDigits 10 c ++ List.replicate zeros '0', ['0'], none⟩ := by
  have range : -4 ≤ Decimal.pointPosition ⟨c, zeros⟩ ∧ Decimal.pointPosition ⟨c, zeros⟩ ≤ 16 := by
    refine ⟨?_, near⟩
    simp [pointPosition]
    omega
  unfold Numeral.ofDecimal
  rw [if_pos range]
  rfl

theorem positional_fraction (c places : ℕ) :
    ∃ whole fraction, positional ⟨c, .negSucc places⟩ = (whole, fraction) ∧
      whole ++ fraction =
        List.replicate (places + 2 - (Nat.toDigits 10 c).length) '0' ++ Nat.toDigits 10 c ∧
      fraction.length = places + 1 := by
  -- With an exponent below zero the digits are filled up in front, so that one of them is left of
  -- the point.
  set padded := List.replicate (places + 2 - (Nat.toDigits 10 c).length) '0' ++ Nat.toDigits 10 c
    with paddedEq
  have enough : places + 1 ≤ padded.length := by
    rw [paddedEq, List.length_append, List.length_replicate]
    omega
  have split : positional ⟨c, .negSucc places⟩ =
      (padded.take (padded.length - (places + 1)), padded.drop (padded.length - (places + 1))) :=
    List.splitAt_eq
  have length : (padded.drop (padded.length - (places + 1))).length = places + 1 := by
    rw [List.length_drop]
    omega
  exact ⟨_, _, split, List.take_append_drop (padded.length - (places + 1)) padded, length⟩

theorem ofDecimal_fraction {c places : ℕ}
    (near : -4 ≤ Decimal.pointPosition ⟨c, .negSucc places⟩ ∧
      Decimal.pointPosition ⟨c, .negSucc places⟩ ≤ 16) :
    ∃ whole fraction, Numeral.ofDecimal ⟨c, .negSucc places⟩ = ⟨whole, fraction, none⟩ ∧
      whole ++ fraction =
        List.replicate (places + 2 - (Nat.toDigits 10 c).length) '0' ++ Nat.toDigits 10 c ∧
      fraction.length = places + 1 := by
  obtain ⟨whole, fraction, split, parts, length⟩ := positional_fraction c places
  refine ⟨whole, fraction, ?_, parts, length⟩
  unfold Numeral.ofDecimal
  rw [if_pos near, split]
  cases fraction with
  | nil => cases length
  | cons => rfl

theorem isDigit_toDigits {c : Char} {n : ℕ} (present : c ∈ Nat.toDigits 10 n) :
    c.isDigit = true :=
  Nat.isDigit_of_mem_toDigits (by decide) (by decide) present

theorem isDigit_zero {c : Char} {n : ℕ} (present : c ∈ List.replicate n '0') :
    c.isDigit = true := by
  rw [List.eq_of_mem_replicate present]
  rfl

section

variable {c : ℕ} (some : 0 < c)
include some

theorem plain_whole (zeros : ℕ) :
    Numeral.Plain ⟨Nat.toDigits 10 c ++ List.replicate zeros '0', ['0'], none⟩ := by
  refine ⟨?_, by simp, by simp, ?_⟩
  · intro x present
    rcases List.mem_append.mp present with digit | zero
    · exact isDigit_toDigits digit
    · exact isDigit_zero zero
  · intro zero
    have first : (Nat.toDigits 10 c ++ List.replicate zeros '0').head? =
        (Nat.toDigits 10 c).head? := List.head?_append_of_ne_nil _ Nat.toDigits_ne_nil
    exact absurd (first.symm.trans zero) (head_toDigits some)

theorem plain_fraction {places : ℕ} {whole fraction : List Char}
    (parts : whole ++ fraction =
      List.replicate (places + 2 - (Nat.toDigits 10 c).length) '0' ++ Nat.toDigits 10 c)
    (length : fraction.length = places + 1) : Numeral.Plain ⟨whole, fraction, none⟩ := by
  have digit : ∀ x ∈ whole ++ fraction, x.isDigit = true := by
    intro x present
    rw [parts] at present
    rcases List.mem_append.mp present with zero | digit
    · exact isDigit_zero zero
    · exact isDigit_toDigits digit
  have total := congrArg List.length parts
  simp only [List.length_append, List.length_replicate, length] at total
  refine ⟨fun x present => digit x (List.mem_append_left _ present),
    fun x present => digit x (List.mem_append_right _ present), ?_, fun zero => ?_⟩
  · rintro rfl
    rw [List.length_nil] at total
    omega
  · by_cases short : (Nat.toDigits 10 c).length < places + 2
    · dsimp only
      omega
    · -- Nothing was filled up, so the first digit is that of the coefficient.
      rw [Nat.sub_eq_zero_of_le (not_lt.mp short)] at parts
      have first : (whole ++ fraction).head? = .some '0' := by
        rw [List.head?_append, zero]
        rfl
      rw [parts] at first
      exact absurd first (head_toDigits some)

end

theorem ofDecimal_plain {d : Decimal} (some : 0 < d.coefficient) :
    (Numeral.ofDecimal d).Plain := by
  obtain ⟨c, exponent⟩ := d
  by_cases near : -4 ≤ Decimal.pointPosition ⟨c, exponent⟩ ∧
      Decimal.pointPosition ⟨c, exponent⟩ ≤ 16
  · cases exponent with
    | ofNat zeros =>
      rw [Int.ofNat_eq_natCast, ofDecimal_whole zeros near.2]
      exact plain_whole some zeros
    | negSucc places =>
      obtain ⟨whole, fraction, form, parts, length⟩ := ofDecimal_fraction near
      rw [form]
      exact plain_fraction some parts length
  · unfold Numeral.ofDecimal
    rw [if_neg near]
    have length := List.length_pos_iff.mpr (@Nat.toDigits_ne_nil c 10)
    refine ⟨fun x present => isDigit_toDigits (List.mem_of_mem_take present),
      fun x present => isDigit_toDigits (List.mem_of_mem_drop present), ?_, fun _ => ?_⟩
    · simp [digits]
    · simp [digits]
      omega

/-- What a numeral of shortest digits says is the decimal itself, with one place more if it has no
fraction. -/
theorem ofDecimal_decimal (d : Decimal) :
    (Numeral.ofDecimal d).decimal = d ∨ ∃ zeros : ℕ, d.exponent = zeros ∧ d.pointPosition ≤ 16 ∧
      (Numeral.ofDecimal d).decimal = ⟨d.coefficient * 10 ^ (zeros + 1), -1⟩ := by
  obtain ⟨c, exponent⟩ := d
  by_cases near : -4 ≤ Decimal.pointPosition ⟨c, exponent⟩ ∧
      Decimal.pointPosition ⟨c, exponent⟩ ≤ 16
  · cases exponent with
    | ofNat zeros =>
      refine .inr ⟨zeros, rfl, near.2, ?_⟩
      rw [Int.ofNat_eq_natCast, ofDecimal_whole zeros near.2]
      have value : numberOf (Nat.toDigits 10 c ++ (List.replicate zeros '0' ++ ['0'])) =
          c * 10 ^ (zeros + 1) := by
        rw [← List.replicate_succ', numberOf_zeros]
      simp [Numeral.decimal, value]
    | negSucc places =>
      obtain ⟨whole, fraction, form, parts, length⟩ := ofDecimal_fraction near
      left
      rw [form]
      have value : numberOf (whole ++ fraction) = c := parts ▸ numberOf_filled c _
      simp [Numeral.decimal, value, length]
      omega
  · left
    unfold Numeral.ofDecimal
    rw [if_neg near]
    have value : numberOf (Nat.toDigits 10 c) = c := Nat.ofDigitChars_ten_toDigits
    have length : 0 < (Nat.toDigits 10 c).length := List.length_pos_iff.mpr Nat.toDigits_ne_nil
    unfold Numeral.decimal digits pointPosition
    rw [List.take_append_drop, value, List.length_drop]
    simp [digits]
    omega

theorem ofDecimal_value (d : Decimal) :
    ((Numeral.ofDecimal d).decimal.coefficient : ℚ) * 10 ^ (Numeral.ofDecimal d).decimal.exponent =
      d.coefficient * 10 ^ d.exponent := by
  rcases ofDecimal_decimal d with same | ⟨zeros, exponent, -, longer⟩
  · rw [same]
  · rw [longer, exponent, zpow_natCast]
    push_cast
    rw [pow_succ]
    field_simp

theorem ofDecimal_fits {d : Decimal} (short : d.coefficient < 10 ^ 18) :
    (Numeral.ofDecimal d).decimal.coefficient < wordLimit := by
  rcases ofDecimal_decimal d with same | ⟨zeros, exponent, near, longer⟩
  · rw [same]
    exact short.trans (by decide)
  · have length : 0 < d.digits.length := List.length_pos_iff.mpr Nat.toDigits_ne_nil
    have size : d.coefficient < 10 ^ d.digits.length :=
      (Nat.length_toDigits_le_iff (by norm_num) length).mp le_rfl
    have places : d.digits.length + (zeros + 1) ≤ 17 := by
      unfold pointPosition at near
      omega
    rw [longer]
    calc
      d.coefficient * 10 ^ (zeros + 1) < 10 ^ d.digits.length * 10 ^ (zeros + 1) :=
        Nat.mul_lt_mul_of_pos_right size (by positivity)
      _ = 10 ^ (d.digits.length + (zeros + 1)) := (pow_add _ _ _).symm
      _ ≤ 10 ^ 17 := Nat.pow_le_pow_right (by norm_num) places
      _ < wordLimit := by decide

end Decimal

theorem le_ofDigitChars (digits : List Char) (significand : ℕ) :
    significand ≤ Nat.ofDigitChars 10 digits significand := by
  induction digits generalizing significand with
  | nil => exact le_rfl
  | cons digit digits ih =>
    rw [Nat.ofDigitChars_cons]
    exact le_trans (by omega) (ih _)

theorem gatherDigits_eq {digits : List Char} {significand : ℕ}
    (fits : Nat.ofDigitChars 10 digits significand < wordLimit) :
    gatherDigits significand digits = (Nat.ofDigitChars 10 digits significand, []) := by
  induction digits generalizing significand with
  | nil => rfl
  | cons digit digits ih =>
    rw [Nat.ofDigitChars_cons] at fits ⊢
    have next := (le_ofDigitChars digits _).trans_lt fits
    rw [gatherDigits, if_pos next, ih fits]

def Decimal.scaled? (d : Decimal) : Option Float :=
  if d.exponent < 0 then some (scaleDown (Float.ofNat d.coefficient) d.exponent.natAbs)
  else scaleUp? (Float.ofNat d.coefficient) d.exponent.toNat

theorem Numeral.gathered?_eq {n : Numeral} (fits : n.decimal.coefficient < wordLimit) :
    n.gathered? = n.decimal.scaled? := by
  have total : n.decimal.coefficient =
      Nat.ofDigitChars 10 n.fraction (Nat.ofDigitChars 10 n.whole 0) := Nat.ofDigitChars_append 0
  rw [total] at fits
  have whole := (le_ofDigitChars n.fraction _).trans_lt fits
  have exponent : ((([] : List Char).length : ℤ) - (n.fraction.length - ([] : List Char).length : ℤ)
      + n.exponent.getD 0) = n.decimal.exponent := by
    simp [decimal]
    ring
  unfold gathered?
  rw [gatherDigits_eq whole]
  dsimp only
  rw [gatherDigits_eq fits]
  dsimp only
  rw [exponent, ← total]
  rfl

end PaymentFees
