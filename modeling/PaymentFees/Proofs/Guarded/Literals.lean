import PaymentFees.Formula.Lexer
import PaymentFees.Proofs.Json.Reading

namespace PaymentFees

open Formula (startsScale)
open Json (span_digits)

namespace Numeral

def isSign (c : Char) : Bool := c == '+' || c == '-'

def signedNumber (sign digits : List Char) : Int :=
  if sign = ['-'] then -(numberOf digits : Int) else numberOf digits

inductive ScaleSpelled : List Char → Option Int → Prop where
  | unscaled : ScaleSpelled [] none
  | scaled {letter : Char} {sign digits : List Char} (power : startsScale letter = true)
      (signs : sign = [] ∨ sign = ['+'] ∨ sign = ['-'])
      (all : ∀ c ∈ digits, c.isDigit = true) (some : digits ≠ []) :
      ScaleSpelled (letter :: (sign ++ digits)) (.some (signedNumber sign digits))

inductive Spelled : List Char → Numeral → Prop where
  | mk {whole point fraction scale : List Char} {exponent : Option Int}
      (all : ∀ c ∈ whole, c.isDigit = true) (places : ∀ c ∈ fraction, c.isDigit = true)
      (pointed : point = [] ∧ fraction = [] ∨ point = ['.'])
      (some : ¬ (whole = [] ∧ fraction = [])) (scaled : ScaleSpelled scale exponent) :
      Spelled (whole ++ (point ++ (fraction ++ scale))) ⟨whole, fraction, exponent⟩

end Numeral

namespace Formula

open Numeral

theorem exists_span (p : Char → Bool) (cs : List Char) :
    ∃ front back, cs = front ++ back ∧ (∀ c ∈ front, p c = true) ∧
      ∀ c ∈ back.head?, p c = false := by
  induction cs with
  | nil => exact ⟨[], [], by simp⟩
  | cons c cs ih =>
    obtain ⟨front, back, rfl, all, stop⟩ := ih
    by_cases holds : p c = true
    · exact ⟨c :: front, back, rfl, by simpa [holds] using all, stop⟩
    · exact ⟨[], c :: (front ++ back), by simpa using holds⟩

theorem takeWhile_run {p : Char → Bool} {run rest : List Char} (all : ∀ c ∈ run, p c = true)
    (stop : ∀ c ∈ rest.head?, p c = false) : (run ++ rest).takeWhile p = run := by
  rw [List.takeWhile_append_of_pos all]
  cases rest <;> simp_all

structure Mantissa (text whole point fraction after : List Char) : Prop where
  parts : text = whole ++ (point ++ (fraction ++ after))
  digits : ∀ c ∈ whole, c.isDigit = true
  places : ∀ c ∈ fraction, c.isDigit = true
  stop : ∀ c ∈ (point ++ (fraction ++ after)).head?, c.isDigit = false
  last : ∀ c ∈ after.head?, c.isDigit = false
  pointed : point = [] ∧ fraction = [] ∧ after.head? ≠ some '.' ∨ point = ['.']

theorem exists_mantissa (text : List Char) :
    ∃ whole point fraction after, Mantissa text whole point fraction after := by
  obtain ⟨whole, rest, rfl, digits, stop⟩ := exists_span Char.isDigit text
  by_cases point : rest.head? = some '.'
  · obtain ⟨rest, rfl⟩ := List.head?_eq_some_iff.mp point
    obtain ⟨fraction, after, rfl, places, last⟩ := exists_span Char.isDigit rest
    exact ⟨whole, ['.'], fraction, after, rfl, digits, places, stop, last, .inr rfl⟩
  · exact ⟨whole, [], [], rest, rfl, digits, by simp, stop, stop, .inl ⟨rfl, rfl, point⟩⟩

theorem Mantissa.readFraction_eq {text whole point fraction after : List Char}
    (mantissa : Mantissa text whole point fraction after) :
    readFraction (point ++ (fraction ++ after)) = (fraction, after) := by
  rcases mantissa.pointed with ⟨rfl, rfl, none⟩ | rfl
  · cases after with
    | nil => rfl
    | cons c after =>
      have other : c ≠ '.' := by simpa using none
      simp [readFraction, other]
  · exact span_digits mantissa.places mantissa.last

theorem Mantissa.readNumber_eq {text whole point fraction after : List Char}
    (mantissa : Mantissa text whole point fraction after) (offset : Nat) :
    readNumber offset text =
      if whole.isEmpty && fraction.isEmpty then .error (.malformed offset (.strayCharacter '.'))
      else do
        let (exponent, rest) ← readScale (offset + (text.length - after.length)) after
        if rest.head?.any (fun c => continuesName c || c == '.') then
          throw (.malformed (offset + (text.length - rest.length)) .malformedNumber)
        return (⟨whole, fraction, exponent⟩, text.length - rest.length) := by
  have first : text.span Char.isDigit = (whole, point ++ (fraction ++ after)) :=
    mantissa.parts ▸ span_digits mantissa.digits mantissa.stop
  simp only [readNumber, first, mantissa.readFraction_eq]
  split <;> rfl

structure Scale (text sign digits rest : List Char) : Prop where
  parts : text = sign ++ (digits ++ rest)
  digits : ∀ c ∈ digits, c.isDigit = true
  last : ∀ c ∈ rest.head?, c.isDigit = false
  signs : sign = [] ∧ (∀ c ∈ text.head?, isSign c = false) ∨ sign = ['+'] ∨ sign = ['-']

theorem exists_scale (text : List Char) : ∃ sign digits rest, Scale text sign digits rest := by
  obtain ⟨sign, body, rfl, signs⟩ : ∃ sign body, text = sign ++ body ∧
      (sign = [] ∧ (∀ c ∈ text.head?, isSign c = false) ∨ sign = ['+'] ∨ sign = ['-']) := by
    cases text with
    | nil => exact ⟨[], [], by simp⟩
    | cons c text =>
      by_cases plus : c = '+'
      · exact ⟨['+'], text, by simp [plus]⟩
      by_cases minus : c = '-'
      · exact ⟨['-'], text, by simp [minus]⟩
      exact ⟨[], c :: text, by simp [isSign, plus, minus]⟩
  obtain ⟨digits, rest, rfl, all, last⟩ := exists_span Char.isDigit body
  exact ⟨sign, digits, rest, rfl, all, last, signs⟩

theorem Scale.readExponent_eq {text sign digits rest : List Char}
    (scale : Scale text sign digits rest) :
    readExponent text = if digits = [] then none
      else some (signedNumber sign digits, rest) := by
  obtain ⟨rfl, all, last, signs⟩ := scale
  have spanned := span_digits all last
  rcases signs with ⟨rfl, unsigned⟩ | rfl | rfl
  · cases first : digits ++ rest with
    | nil => simp_all [readExponent]
    | cons c cs =>
      have other : c ≠ '+' ∧ c ≠ '-' := by simpa [first, isSign] using unsigned
      rw [first] at spanned
      cases digits <;> simp_all [readExponent, signedNumber]
  · simp only [List.singleton_append, readExponent, spanned]
    cases digits <;> simp [signedNumber]
  · simp only [List.singleton_append, readExponent, spanned]
    cases digits <;> simp [signedNumber]

theorem readScale_ok {offset : Nat} {text rest : List Char} {exponent : Option Int}
    (read : readScale offset text = .ok (exponent, rest)) :
    ∃ scale, text = scale ++ rest ∧ ScaleSpelled scale exponent := by
  cases text with
  | nil =>
    cases read
    exact ⟨[], rfl, .unscaled⟩
  | cons letter text =>
    simp only [readScale] at read
    split at read
    · next power =>
      obtain ⟨sign, digits, tail, scale⟩ := exists_scale text
      rw [scale.readExponent_eq] at read
      by_cases empty : digits = []
      · simp [empty] at read
      · simp only [if_neg empty, Except.ok.injEq, Prod.mk.injEq] at read
        obtain ⟨rfl, rfl⟩ := read
        refine ⟨letter :: (sign ++ digits), by simp [scale.parts], ?_⟩
        exact .scaled power (scale.signs.imp_left And.left) scale.digits empty
    · cases read
      exact ⟨[], rfl, .unscaled⟩

/-- The characters that are taken for a number spell it, and none goes on with it. -/
theorem readNumber_ok {offset taken : Nat} {text : List Char} {n : Numeral}
    (read : readNumber offset text = .ok (n, taken)) :
    ∃ literal rest, text = literal ++ rest ∧ taken = literal.length ∧ Spelled literal n ∧
      rest.head?.any (fun c => continuesName c || c == '.') = false := by
  obtain ⟨whole, point, fraction, after, mantissa⟩ := exists_mantissa text
  rw [mantissa.readNumber_eq] at read
  split at read
  · cases read
  · next some =>
    cases scaled : readScale (offset + (text.length - after.length)) after with
    | error fault =>
      rw [scaled] at read
      cases read
    | ok parts =>
      obtain ⟨exponent, rest⟩ := parts
      obtain ⟨scale, rfl, spelled⟩ := readScale_ok scaled
      rw [scaled] at read
      change (if _ then _ else _ : Except FormulaError (Numeral × Nat)) = _ at read
      split at read
      · cases read
      · next apart =>
        cases read
        refine ⟨whole ++ (point ++ (fraction ++ scale)), rest, by simp [mantissa.parts], ?_, ?_,
          eq_false_of_ne_true apart⟩
        · simp [mantissa.parts]
          omega
        · have pointed : point = [] ∧ fraction = [] ∨ point = ['.'] :=
            mantissa.pointed.imp_left fun plain => ⟨plain.1, plain.2.1⟩
          exact .mk mantissa.digits mantissa.places pointed (by simpa using some) spelled

end Formula

namespace Numeral

open Formula

theorem digit_le {c : Char} (digit : c.isDigit = true) : c.toNat ≤ 57 := by
  simp only [Char.isDigit, Bool.and_eq_true, decide_eq_true_eq] at digit
  exact UInt32.le_iff_toNat_le.mp digit.2

theorem digit_ascii {c : Char} (digit : c.isDigit = true) : c.toNat < 128 :=
  Nat.lt_of_le_of_lt (digit_le digit) (by decide)

theorem startsScale_ascii {c : Char} (power : startsScale c = true) :
    c.toNat < 128 ∧ c.isDigit = false ∧ c ≠ '.' := by
  simp only [startsScale, Bool.or_eq_true, beq_iff_eq] at power
  rcases power with rfl | rfl <;> decide

theorem digit_unsigned {c : Char} (digit : c.isDigit = true) : isSign c = false := by
  rw [← Bool.not_eq_true]
  intro sign
  simp only [isSign, Bool.or_eq_true, beq_iff_eq] at sign
  rcases sign with rfl | rfl <;> cases digit

def spellsNumber (c : Char) : Bool := c.isDigit || startsScale c || isSign c || c == '.'

theorem spellsNumber_ascii {c : Char} (part : spellsNumber c = true) : c.toNat < 128 := by
  simp only [spellsNumber, isSign, Bool.or_eq_true, beq_iff_eq] at part
  rcases part with ((digit | power) | rfl | rfl) | rfl
  · exact digit_ascii digit
  · exact (startsScale_ascii power).1
  all_goals decide

theorem ScaleSpelled.spellsNumber {scale : List Char} {exponent : Option Int}
    (spelled : ScaleSpelled scale exponent) : ∀ c ∈ scale, spellsNumber c = true := by
  cases spelled with
  | unscaled => simp
  | @scaled letter sign digits power signs all some =>
    intro c present
    simp only [List.mem_cons, List.mem_append] at present
    rcases present with rfl | sign | digit
    · simp [Numeral.spellsNumber, power]
    · rcases signs with rfl | rfl | rfl <;> simp_all [Numeral.spellsNumber, isSign]
    · simp [Numeral.spellsNumber, all c digit]

theorem Spelled.spellsNumber {text : List Char} {n : Numeral} (spelled : Spelled text n) :
    ∀ c ∈ text, spellsNumber c = true := by
  obtain ⟨all, places, pointed, some, scaled⟩ := spelled
  intro c present
  simp only [List.mem_append] at present
  rcases present with digit | point | digit | scale
  · simp [Numeral.spellsNumber, all c digit]
  · rcases pointed with ⟨rfl, -⟩ | rfl <;> simp_all [Numeral.spellsNumber]
  · simp [Numeral.spellsNumber, places c digit]
  · exact scaled.spellsNumber c scale

theorem ScaleSpelled.ascii {scale : List Char} {exponent : Option Int}
    (spelled : ScaleSpelled scale exponent) : ∀ c ∈ scale, c.toNat < 128 :=
  fun c present => spellsNumber_ascii (spelled.spellsNumber c present)

theorem Spelled.ascii {text : List Char} {n : Numeral} (spelled : Spelled text n) :
    ∀ c ∈ text, c.toNat < 128 :=
  fun c present => spellsNumber_ascii (spelled.spellsNumber c present)

theorem Spelled.ne_nil {text : List Char} {n : Numeral} (spelled : Spelled text n) :
    text ≠ [] := by
  obtain ⟨-, -, -, some, -⟩ := spelled
  intro empty
  exact some (by simp_all)

def ofText? (text : List Char) : Option Numeral :=
  let (whole, rest) := text.span Char.isDigit
  let (fraction, rest) := readFraction rest
  if whole.isEmpty && fraction.isEmpty then none
  else
    match rest with
    | [] => some ⟨whole, fraction, none⟩
    | letter :: rest =>
      if startsScale letter then
        match readExponent rest with
        | some (exponent, []) => some ⟨whole, fraction, some exponent⟩
        | _ => none
      else none

theorem ScaleSpelled.head {scale : List Char} {exponent : Option Int}
    (spelled : ScaleSpelled scale exponent) : ∀ c ∈ scale.head?, startsScale c = true := by
  cases spelled <;> simp_all

theorem startsScale_continuesName {c : Char} (power : startsScale c = true) :
    continuesName c = true := by
  simp only [startsScale, Bool.or_eq_true, beq_iff_eq] at power
  rcases power with rfl | rfl <;> decide

theorem apart_head {rest : List Char}
    (apart : rest.head?.any (fun c => continuesName c || c == '.') = false) :
    ∀ c ∈ rest.head?, c.isDigit = false ∧ c ≠ '.' ∧ startsScale c = false := by
  cases rest with
  | nil => simp
  | cons c rest =>
    simp only [List.head?_cons, Option.any_some, Bool.or_eq_false_iff, beq_eq_false_iff_ne] at apart
    have plain : startsScale c = false := by
      rw [← Bool.not_eq_true]
      intro power
      rw [startsScale_continuesName power] at apart
      cases apart.1
    have digit : c.isDigit = false := by
      simp only [continuesName, Char.isAlphanum, Bool.or_eq_false_iff] at apart
      exact apart.1.1.2
    rintro d first
    obtain rfl : c = d := Option.some.inj first
    exact ⟨digit, apart.2, plain⟩

theorem Spelled.mantissa {text rest : List Char} {n : Numeral} (spelled : Spelled text n)
    (apart : rest.head?.any (fun c => continuesName c || c == '.') = false) :
    ∃ point scale, Mantissa (text ++ rest) n.whole point n.fraction (scale ++ rest) ∧
      ScaleSpelled scale n.exponent ∧ (n.whole.isEmpty && n.fraction.isEmpty) = false := by
  obtain ⟨all, places, pointed, some, scaled⟩ := spelled
  next whole point fraction scale exponent =>
  have letter : ∀ c ∈ (scale ++ rest).head?, c.isDigit = false ∧ c ≠ '.' := by
    intro c first
    cases scale with
    | nil =>
      obtain ⟨digit, other, -⟩ := apart_head apart c first
      exact ⟨digit, other⟩
    | cons d scale => exact (startsScale_ascii (scaled.head c first)).2
  refine ⟨point, scale, ⟨by simp, all, places, ?_, fun c first => (letter c first).1, ?_⟩,
    scaled, by simpa using some⟩
  · rcases pointed with ⟨rfl, rfl⟩ | rfl
    · exact fun c first => (letter c first).1
    · simp
  · exact pointed.imp_left fun plain => ⟨plain.1, plain.2, fun first => (letter _ first).2 rfl⟩

theorem scale_of_signs {sign digits rest : List Char}
    (signs : sign = [] ∨ sign = ['+'] ∨ sign = ['-']) (all : ∀ c ∈ digits, c.isDigit = true)
    (some : digits ≠ []) (last : ∀ c ∈ rest.head?, c.isDigit = false) :
    Scale (sign ++ (digits ++ rest)) sign digits rest := by
  refine ⟨rfl, all, last, ?_⟩
  rcases signs with rfl | signs
  · left
    refine ⟨rfl, fun c first => ?_⟩
    have front : c ∈ digits := by
      cases digits <;> simp_all
    exact digit_unsigned (all c front)
  · exact .inr signs

theorem Spelled.ofText? {text : List Char} {n : Numeral} (spelled : Spelled text n) :
    ofText? text = some n := by
  obtain ⟨point, scale, mantissa, scaled, nonempty⟩ := @Spelled.mantissa text [] n spelled rfl
  obtain ⟨whole, fraction, exponent⟩ := n
  rw [List.append_nil, List.append_nil] at mantissa
  have first := span_digits mantissa.digits mantissa.stop
  simp only [Numeral.ofText?, mantissa.parts, first, mantissa.readFraction_eq, nonempty]
  cases scaled with
  | unscaled => rfl
  | @scaled letter sign digits power signs all some =>
    have scale : Scale (sign ++ digits) sign digits [] := by
      simpa using @scale_of_signs sign digits [] signs all some (by simp)
    simp [power, scale.readExponent_eq, some]

theorem ScaleSpelled.readScale_eq {scale rest : List Char} {exponent : Option Int}
    (spelled : ScaleSpelled scale exponent)
    (apart : rest.head?.any (fun c => continuesName c || c == '.') = false) (offset : Nat) :
    readScale offset (scale ++ rest) = .ok (exponent, rest) := by
  cases spelled with
  | unscaled =>
    cases rest with
    | nil => rfl
    | cons c rest => simp [readScale, (apart_head apart c rfl).2.2]
  | @scaled letter sign digits power signs all some =>
    have scale := scale_of_signs signs all some fun c first => (apart_head apart c first).1
    simp [readScale, power, scale.readExponent_eq, some]

theorem Spelled.readNumber_eq {text rest : List Char} {n : Numeral} (spelled : Spelled text n)
    (apart : rest.head?.any (fun c => continuesName c || c == '.') = false) (offset : Nat) :
    readNumber offset (text ++ rest) = .ok (n, text.length) := by
  obtain ⟨point, scale, mantissa, scaled, nonempty⟩ := spelled.mantissa apart
  rw [mantissa.readNumber_eq, nonempty, scaled.readScale_eq apart]
  change (if rest.head?.any (fun c => continuesName c || c == '.') = true then _ else _) = _
  rw [if_neg (Bool.eq_false_iff.mp apart), List.length_append, Nat.add_sub_cancel]
  rfl

end Numeral

end PaymentFees
