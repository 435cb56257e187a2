import PaymentFees.Decimal.Text
import PaymentFees.Money
import PaymentFees.Proofs.PlainDigits

namespace PaymentFees

open Binary
open Float.Model.UnpackedFloat (Sign)

namespace Money

/-- The amount with these digits before and after its point; none if its whole part is too large.
Digits after the last place are rounded away, a half going up. -/
def ofDigits? (sign : Sign) (whole fraction : List Char) : Option Money :=
  let coefficient := numberOf (whole ++ fraction)
  if numberOf whole < coefficientLimit then
    if fraction.length ≤ maxPlaces then some ⟨sign, coefficient, fraction.length⟩
    else
      let excess := fraction.length - maxPlaces
      some ⟨sign, Rounding.halfUp.quotient coefficient (10 ^ excess), maxPlaces⟩
  else none

def readDigits? (text : List Char) : Option (List Char × List Char) :=
  match text.span Char.isDigit with
  | ([], _) => none
  | (whole, []) => some (whole, [])
  | (whole, '.' :: fraction) => if fraction.all Char.isDigit then some (whole, fraction) else none
  | _ => none

def ofText? (text : String) : Option Money :=
  let (sign, body) : Sign × List Char := match text.toList with
    | '-' :: body => (.negative, body)
    | body => (.positive, body)
  (readDigits? body).bind fun (whole, fraction) => ofDigits? sign whole fraction

theorem readDigits?_written {whole fraction : List Char}
    (plain : Numeral.Plain ⟨whole, fraction, none⟩) :
    readDigits? (Json.writeNumeral ⟨whole, fraction, none⟩) = some (whole, fraction) := by
  obtain ⟨wholeDigits, fractionDigits, nonempty, -⟩ := plain
  dsimp only at wholeDigits fractionDigits nonempty
  cases whole with
  | nil => exact absurd rfl nonempty
  | cons d ds =>
    cases fraction with
    | nil =>
      have spanned := @Json.span_digits _ [] wholeDigits (by simp)
      rw [List.append_nil] at spanned
      simp only [readDigits?, Json.writeNumeral, List.isEmpty_nil, if_true, List.append_nil,
        spanned]
    | cons f fs =>
      have spanned := @Json.span_digits _ ('.' :: f :: fs) wholeDigits (by simp)
      have all : (f :: fs).all Char.isDigit = true := List.all_eq_true.mpr fractionDigits
      simp only [readDigits?, Json.writeNumeral, List.append_nil, List.isEmpty_cons,
        Bool.false_eq_true, if_false, spanned, all, if_true]

theorem ofText?_written (sign : Sign) {text : String} {whole fraction : List Char}
    (plain : Numeral.Plain ⟨whole, fraction, none⟩)
    (written : text.toList = Json.writeNumeral ⟨whole, fraction, none⟩) :
    ofText? (signText sign ++ text) = ofDigits? sign whole fraction := by
  have read := readDigits?_written plain
  rw [← written] at read
  cases sign with
  | negative => simp [ofText?, signText, read]
  | positive =>
    have first : ∀ body, text.toList ≠ '-' :: body := by
      intro body minus
      rw [minus] at read
      cases read
    simp only [ofText?, signText, String.empty_append, read, Option.bind_some]

theorem numberOf_le_append (whole fraction : List Char) :
    numberOf whole ≤ numberOf (whole ++ fraction) := by
  unfold numberOf
  rw [Nat.ofDigitChars_append, @Nat.ofDigitChars_eq_ofDigitChars_zero fraction]
  have places : 0 < 10 ^ fraction.length := by positivity
  exact (Nat.le_mul_of_pos_left _ places).trans (Nat.le_add_right _ _)

theorem ofText?_plainText (v : Float) : ofText? (plainText v) = ofFloat? v := by
  unfold plainText ofFloat?
  cases form : v.toModel.unpack with
  | notANumber => decide
  | infinity s => cases s <;> decide
  | zero s =>
    have plain : Numeral.Plain ⟨['0'], [], none⟩ := 
      ⟨by simp, by simp, by simp, by simp⟩
    have digits : "0".toList = Json.writeNumeral ⟨['0'], [], none⟩ := rfl
    exact ofText?_written s plain digits
  | finite s m e some =>
    dsimp only
    obtain ⟨canonical, bounded⟩ := canonical_of_unpack form
    obtain ⟨positive, short⟩ := Decimal.shortest_coefficient .halfUp some canonical bounded
    generalize Decimal.shortest .halfUp m e = d at positive short
    rw [ofText?_written s (Decimal.plain_isPlain positive) (Decimal.toList_text d)]
    obtain ⟨c, exponent⟩ := d
    cases exponent with
    | ofNat zeros => simp [Decimal.positional, ofDigits?, Decimal.digits, numberOf_zeros]
    | negSucc k =>
      obtain ⟨whole, fraction, split, parts, length⟩ := Decimal.positional_fraction c k
      have digits : numberOf (whole ++ fraction) = c := by rw [parts, numberOf_filled]
      have small : numberOf whole < coefficientLimit := by
        have part := numberOf_le_append whole fraction
        dsimp only at short
        simp only [coefficientLimit]
        omega
      simp only [split, ofDigits?, digits, length, if_pos small, Nat.pow_eq]

theorem ofFloat?_bounded {v : Float} {m : Money} (found : ofFloat? v = some m) :
    m.coefficient < coefficientLimit ∧ m.places ≤ maxPlaces := by
  unfold ofFloat? at found
  split at found
  · cases found
  · cases found
  · cases found
    exact ⟨Nat.zero_lt_succ _, Nat.zero_le _⟩
  · next form =>
    obtain ⟨canonical, bounded⟩ := canonical_of_unpack form
    have short := (Decimal.shortest_coefficient .halfUp ‹_› canonical bounded).2
    split at found
    · dsimp only at found
      split_ifs at found with small
      cases found
      exact ⟨small, Nat.zero_le _⟩
    · next c k digits =>
      rw [digits] at short
      dsimp only at short
      split_ifs at found with few <;> cases found
      · exact ⟨short.trans (by decide), few⟩
      · have low := Nat.div_le_self c (Nat.pow 10 (k + 1 - maxPlaces))
        refine ⟨?_, le_rfl⟩
        rcases quotient_eq_or .halfUp c (Nat.pow 10 (k + 1 - maxPlaces)) with same | next <;>
          simp only [coefficientLimit] <;> omega

end Money

end PaymentFees
