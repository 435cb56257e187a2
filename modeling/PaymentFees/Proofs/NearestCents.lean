import PaymentFees.Proofs.Binary.Negation
import PaymentFees.Proofs.Cents
import PaymentFees.Proofs.PrintedAmounts

namespace PaymentFees

open Binary
open Float.Model.UnpackedFloat (Sign)

namespace Rounding

section

variable (rounding : Rounding) (numerator : ℕ) {denominator : ℕ} (positive : 0 < denominator)

@[simp] theorem quotient_one (n : ℕ) : rounding.quotient n 1 = n := by
  simp [quotient, Nat.mod_one]

include positive

theorem rest_cases :
    let fraction := (numerator : ℚ) / denominator - (numerator / denominator : ℕ)
    (rounding.quotient numerator denominator = numerator / denominator ∧
        0 ≤ fraction ∧ fraction < 1 / 2) ∨
      (rounding.quotient numerator denominator = numerator / denominator + 1 ∧
        1 / 2 < fraction ∧ fraction < 1) ∨
      (rounding.quotient numerator denominator = rounding.midpoint (numerator / denominator) ∧
        fraction = 1 / 2) := by
  have unit : (0 : ℚ) < denominator := by exact_mod_cast positive
  have below : ((numerator % denominator : ℕ) : ℚ) < denominator := by
    exact_mod_cast Nat.mod_lt numerator positive
  have low : (0 : ℚ) ≤ (numerator % denominator : ℕ) := Nat.cast_nonneg _
  have split := div_eq_whole_add_rest numerator positive
  have fraction : (numerator : ℚ) / denominator - (numerator / denominator : ℕ) =
      (numerator % denominator : ℕ) / denominator := by linarith
  dsimp only
  rw [fraction, div_lt_div_iff₀ unit two_pos, div_lt_div_iff₀ two_pos unit, div_lt_one unit,
    div_eq_div_iff unit.ne' two_ne_zero]
  unfold quotient
  dsimp only
  generalize numerator % denominator = rest at *
  split_ifs with less more
  · have cast : 2 * (rest : ℚ) < denominator := by exact_mod_cast less
    exact .inl ⟨rfl, by positivity, by linarith⟩
  · have cast : (denominator : ℚ) < 2 * rest := by exact_mod_cast more
    exact .inr (.inl ⟨rfl, by linarith, below⟩)
  · have same : 2 * rest = denominator := by omega
    have cast : 2 * (rest : ℚ) = denominator := by exact_mod_cast same
    exact .inr (.inr ⟨rfl, by linarith⟩)

end

theorem midpoint_between (rounding : Rounding) (n : ℕ) :
    n ≤ rounding.midpoint n ∧ rounding.midpoint n ≤ n + 1 := by
  cases rounding with
  | halfUp => exact ⟨n.le_succ, le_rfl⟩
  | halfEven =>
    simp only [midpoint]
    split_ifs <;> omega

theorem even_midpoint (n : ℕ) : Even (halfEven.midpoint n) := by
  rw [Nat.even_iff]
  simp only [midpoint]
  split_ifs <;> omega

section

variable (rounding : Rounding) (numerator : ℕ) {denominator : ℕ} (positive : 0 < denominator)
include positive

theorem quotient_near :
    |(rounding.quotient numerator denominator : ℚ) - numerator / denominator| ≤ 1 / 2 := by
  rcases rest_cases rounding numerator positive with ⟨same, low, less⟩ | ⟨next, more, high⟩ | half
  · rw [same, abs_le]
    constructor <;> linarith
  · rw [next, abs_le]
    push_cast
    constructor <;> linarith
  · obtain ⟨middle, fraction⟩ := half
    obtain ⟨least, most⟩ := midpoint_between rounding (numerator / denominator)
    have least' : ((numerator / denominator : ℕ) : ℚ) ≤
      rounding.midpoint (numerator / denominator) := by exact_mod_cast least
    have most' : (rounding.midpoint (numerator / denominator) : ℚ) ≤
      (numerator / denominator : ℕ) + 1 := by exact_mod_cast most
    rw [middle, abs_le]
    constructor <;> linarith

theorem quotient_midpoint {k : ℕ} (middle : (numerator : ℚ) / denominator = k + 1 / 2) :
    rounding.quotient numerator denominator = rounding.midpoint k := by
  have low : numerator / denominator = k := by
    rw [floor_quotient, middle, Nat.floor_eq_iff (by positivity)]
    constructor <;> linarith
  rcases rest_cases rounding numerator positive with ⟨-, -, less⟩ | ⟨-, more, -⟩ | ⟨same, -⟩
  · rw [low, middle] at less
    linarith
  · rw [low, middle] at more
    linarith
  · rw [same, low]

theorem midpoint_of_ne
    (differ : halfUp.quotient numerator denominator ≠ halfEven.quotient numerator denominator) :
    ∃ k : ℕ, (numerator : ℚ) / denominator = k + 1 / 2 := by
  rcases rest_cases halfUp numerator positive with ⟨up, low, less⟩ | ⟨up, more, high⟩ | ⟨-, half⟩
  · rcases rest_cases halfEven numerator positive with ⟨even, -⟩ | ⟨-, more, -⟩ | ⟨-, half⟩
    · exact absurd (up.trans even.symm) differ
    · linarith
    · linarith
  · rcases rest_cases halfEven numerator positive with ⟨-, -, less⟩ | ⟨even, -⟩ | ⟨-, half⟩
    · linarith
    · exact absurd (up.trans even.symm) differ
    · linarith
  · exact ⟨numerator / denominator, by linarith⟩

end

end Rounding

namespace Money

def amount (m : Money) : ℚ := m.sign.apply m.coefficient / 10 ^ m.places

/-- The amount lies exactly halfway between two cents. -/
def IsMidpoint (m : Money) : Prop := ∃ n : ℕ, |m.amount| = (2 * n + 1) / 200

/-- What an amount becomes when it is rounded to the nearest cent. Halfway between two cents it goes
away from zero, or to an even number of cents. -/
structure NearestCent (rounding : Rounding) (m c : Money) : Prop where
  sign : c.sign = m.sign
  places : c.places ≤ 2
  kept : m.places ≤ 2 → c = m
  whole : ∃ n : ℤ, c.amount = n / 100
  near : |c.amount - m.amount| ≤ 1 / 200
  away : rounding = .halfUp → m.IsMidpoint → |m.amount| < |c.amount|
  even : rounding = .halfEven → m.IsMidpoint → ∃ n : ℤ, Even n ∧ c.amount = n / 100

/-- What an amount becomes when it is cut to cents. -/
structure CutCent (m c : Money) : Prop where
  sign : c.sign = m.sign
  places : c.places ≤ 2
  kept : m.places ≤ 2 → c = m
  greatest : IsGreatest {q : ℚ | (∃ n : ℕ, q = n / 100) ∧ q ≤ |m.amount|} |c.amount|

theorem abs_amount (m : Money) : |m.amount| = m.coefficient / 10 ^ m.places := by
  have unit : (0 : ℚ) < 10 ^ m.places := by positivity
  unfold amount
  cases m.sign <;> simp [Sign.apply, abs_div, abs_of_pos unit]

theorem amount_eq (m : Money) : m.amount = m.sign.apply 1 * |m.amount| := by
  rw [abs_amount]
  unfold amount
  cases m.sign <;> simp [Sign.apply, neg_div]

theorem abs_sub_amount {m c : Money} (same : c.sign = m.sign) :
    |c.amount - m.amount| = |(|c.amount| - |m.amount|)| := by
  rw [amount_eq c, amount_eq m, same, ← mul_sub, abs_mul]
  cases m.sign <;> simp [Sign.apply]

theorem abs_amount_parts {m : Money} (many : 2 ≤ m.places) :
    |m.amount| = m.coefficient / (10 ^ (m.places - 2) : ℕ) / 100 := by
  obtain ⟨more, places⟩ := Nat.exists_eq_add_of_le many
  have rest : m.places - 2 = more := by omega
  rw [abs_amount, rest, places, pow_add, mul_comm, ← div_div, Nat.cast_pow, Nat.cast_ofNat]
  norm_num

theorem exists_quotient (m : Money) :
    ∃ numerator denominator : ℕ, 0 < denominator ∧
      |m.amount| = (numerator : ℚ) / denominator / 100 ∧
      ∀ round : ℕ → ℕ → ℕ, (∀ n, round n 1 = n) →
        |(m.toCents round).amount| = (round numerator denominator : ℚ) / 100 := by
  by_cases few : m.places ≤ 2
  · obtain ⟨more, places⟩ := Nat.exists_eq_add_of_le few
    have cents : |m.amount| = ((m.coefficient * 10 ^ more : ℕ) : ℚ) / 100 := by
      have hundred : (100 : ℚ) = 10 ^ m.places * 10 ^ more := by
        rw [← pow_add, ← places]
        norm_num
      rw [abs_amount, hundred, Nat.cast_mul, Nat.cast_pow, Nat.cast_ofNat,
        mul_div_mul_right _ _ (by positivity)]
    refine ⟨m.coefficient * 10 ^ more, 1, one_pos, ?_, fun round exact => ?_⟩
    · rw [cents, Nat.cast_one, div_one]
    · rw [toCents, if_pos few, exact, cents]
  · refine ⟨m.coefficient, 10 ^ (m.places - 2), by positivity, ?_, fun round exact => ?_⟩
    · exact abs_amount_parts (not_le.mp few).le
    · rw [toCents, if_neg few, abs_amount]
      norm_num

theorem nearestCent_toCents (rounding : Rounding) (m : Money) :
    NearestCent rounding m (m.toCents rounding.quotient) := by
  obtain ⟨numerator, denominator, positive, amount, cents⟩ := exists_quotient m
  specialize cents rounding.quotient rounding.quotient_one
  set c := m.toCents rounding.quotient with cEq
  have sign : c.sign = m.sign := toCents_sign _ m
  have midpoint : ∀ n : ℕ, |m.amount| = (2 * n + 1) / 200 →
      |c.amount| = (rounding.midpoint n : ℚ) / 100 := by
    intro n middle
    rw [cents, rounding.quotient_midpoint numerator positive]
    linarith
  refine ⟨sign, toCents_places _ m, fun few => ?_, ?_, ?_, ?_, ?_⟩
  · rw [cEq, toCents, if_pos few]
  · refine ⟨c.sign.apply 1 * rounding.quotient numerator denominator, ?_⟩
    rw [amount_eq c, cents]
    push_cast
    ring
  · have near := rounding.quotient_near numerator positive
    have scaled : |c.amount| - |m.amount| =
        (rounding.quotient numerator denominator - (numerator : ℚ) / denominator) / 100 := by
      rw [cents, amount]
      ring
    rw [abs_sub_amount sign, scaled, abs_div, abs_of_pos (show (0 : ℚ) < 100 by norm_num)]
    linarith
  · rintro rfl ⟨n, middle⟩
    rw [midpoint n middle, middle]
    simp only [Rounding.midpoint]
    push_cast
    linarith
  · rintro rfl ⟨n, middle⟩
    refine ⟨c.sign.apply 1 * Rounding.halfEven.midpoint n, ?_, ?_⟩
    · exact (Int.even_coe_nat _ |>.mpr (Rounding.even_midpoint n)).mul_left _
    · rw [amount_eq c, midpoint n middle]
      push_cast
      ring

theorem isMidpoint_of_ne {m : Money}
    (differ : m.toCents Rounding.halfUp.quotient ≠ m.toCents Rounding.halfEven.quotient) :
    m.IsMidpoint := by
  by_cases few : m.places ≤ 2
  · simp only [toCents, if_pos few] at differ
    exact absurd rfl differ
  have positive : 0 < 10 ^ (m.places - 2) := by positivity
  have quotients : Rounding.halfUp.quotient m.coefficient (10 ^ (m.places - 2)) ≠
      Rounding.halfEven.quotient m.coefficient (10 ^ (m.places - 2)) := by
    intro same
    simp [toCents, few, same] at differ
  obtain ⟨n, middle⟩ := Rounding.midpoint_of_ne m.coefficient positive quotients
  refine ⟨n, ?_⟩
  rw [abs_amount_parts (not_le.mp few).le, middle]
  ring

theorem cutCent_toCents (m : Money) : CutCent m (m.toCents (· / ·)) := by
  obtain ⟨numerator, denominator, positive, amount, cents⟩ := exists_quotient m
  specialize cents (· / ·) Nat.div_one
  refine ⟨toCents_sign _ m, toCents_places _ m, fun few => ?_, ⟨⟨_, cents⟩, ?_⟩, ?_⟩
  · rw [toCents, if_pos few]
  · rw [cents, amount]
    exact div_le_div_of_nonneg_right Nat.cast_div_le (by norm_num)
  · rintro q ⟨⟨n, rfl⟩, below⟩
    rw [amount, div_le_div_iff_of_pos_right (by norm_num)] at below
    rw [cents]
    have unit : (0 : ℚ) < denominator := by exact_mod_cast positive
    rw [le_div_iff₀ unit] at below
    have whole : n ≤ numerator / denominator :=
      (Nat.le_div_iff_mul_le positive).mpr (by exact_mod_cast below)
    exact div_le_div_of_nonneg_right (by exact_mod_cast whole) (by norm_num)

def opposite (m : Money) : Money := ⟨-m.sign, m.coefficient, m.places⟩

theorem ofFloat?_neg (v : Float) : ofFloat? (-v) = (ofFloat? v).map opposite := by
  unfold ofFloat?
  rw [unpack_neg]
  cases v.toModel.unpack with
  | notANumber | infinity | zero => rfl
  | finite s m e =>
    simp only [Float.Model.UnpackedFloat.neg]
    cases Decimal.shortest .halfUp m e with
    | mk c exponent => cases exponent <;> dsimp only <;> split_ifs <;> rfl

theorem toCents_opposite (round : ℕ → ℕ → ℕ) (m : Money) :
    m.opposite.toCents round = (m.toCents round).opposite := by
  unfold toCents opposite
  dsimp only
  split_ifs <;> rfl

theorem toFloat_opposite (m : Money) : m.opposite.toFloat = -m.toFloat := signed_neg m.sign _

end Money

theorem roundCents_neg (rounding : Rounding) (v : Float) :
    roundCents rounding (-v) = -roundCents rounding v := by
  unfold roundCents
  rw [Money.ofFloat?_neg]
  cases Money.ofFloat? v with
  | none =>
    dsimp only [Option.map_none]
    rw [negated_mul, nearestWhole, onWhole_neg, negated_div]
  | some m =>
    dsimp only [Option.map_some]
    rw [Money.toCents_opposite, Money.toFloat_opposite]

/-- A number is rounded to the cent nearest to the amount that its printed digits are read as. The
two ways of rounding differ only halfway between two cents; cutting gives the greatest amount in
cents that does not exceed it, signs aside; and with the other sign the result has the other sign,
also where the digits are too many for an amount. -/
theorem cents_of_printed (v : Float) :
    (∀ m, Money.ofText? (plainText v) = some m →
      (m.coefficient < Money.coefficientLimit ∧ m.places ≤ Money.maxPlaces) ∧
      ∃ up even cut : Money,
        (roundCents .halfUp v = up.toFloat ∧ Money.NearestCent .halfUp m up) ∧
        (roundCents .halfEven v = even.toFloat ∧ Money.NearestCent .halfEven m even) ∧
        (up ≠ even → m.IsMidpoint) ∧
        truncateCents v = cut.toFloat ∧ Money.CutCent m cut) ∧
    ∀ rounding, roundCents rounding (-v) = -roundCents rounding v := by
  refine ⟨fun m printed => ?_, fun rounding => roundCents_neg rounding v⟩
  have found : Money.ofFloat? v = some m := (Money.ofText?_plainText v).symm.trans printed
  have rounded (rounding : Rounding) :
      roundCents rounding v = (m.toCents rounding.quotient).toFloat := by
    rw [roundCents, found]
  refine ⟨Money.ofFloat?_bounded found, _, _, _, ⟨rounded .halfUp, m.nearestCent_toCents _⟩,
    ⟨rounded .halfEven, m.nearestCent_toCents _⟩, Money.isMidpoint_of_ne, ?_, m.cutCent_toCents⟩
  rw [truncateCents, found]

theorem cents_of_printed_halves :
    roundCents .halfUp 0.025 = 0.03 ∧ roundCents .halfEven 0.025 = 0.02 ∧
      roundCents .halfUp (-0.025) = -0.03 ∧
      ∃ m up even : Money, Money.ofText? (plainText 0.025) = some m ∧ m.IsMidpoint ∧
        up.toFloat = 0.03 ∧ |m.amount| < |up.amount| ∧
        even.toFloat = 0.02 ∧ ∃ n : ℤ, Even n ∧ even.amount = n / 100 := by
  have rounded : roundCents .halfUp 0.025 = 0.03 := by decide +kernel
  have down : roundCents .halfEven 0.025 = 0.02 := by decide +kernel
  have parts : (Money.ofFloat? 0.025).map (fun m => (m.coefficient, m.places)) = some (25, 3) := by
    decide +kernel
  obtain ⟨m, found, digits⟩ := Option.map_eq_some_iff.mp parts
  have printed := (Money.ofText?_plainText 0.025).trans found
  have middle : m.IsMidpoint := by
    obtain ⟨coefficient, places⟩ := Prod.mk.inj digits
    refine ⟨2, ?_⟩
    rw [Money.abs_amount, coefficient, places]
    norm_num
  obtain ⟨amounts, negated⟩ := cents_of_printed 0.025
  obtain ⟨-, up, even, -, ⟨same, nearest⟩, ⟨also, other⟩, -⟩ := amounts _ printed
  refine ⟨rounded, down, (negated .halfUp).trans (congrArg _ rounded), _, up, even, printed, middle,
    same.symm.trans rounded, nearest.away rfl middle, also.symm.trans down, other.even rfl middle⟩

end PaymentFees
