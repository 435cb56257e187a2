import PaymentFees.Proofs.Grammar.Reading
import PaymentFees.Proofs.Guarded.Bytes
import PaymentFees.Proofs.Guarded.Literals

namespace PaymentFees.Guarded

open Octets Formula Numeral

theorem ascii_digit : Ascii Char.isDigit := fun _ => digit_ascii

theorem letter_bounds {c : Char} (letter : c.isAlpha = true) : 65 ≤ c.toNat ∧ c.toNat ≤ 122 := by
  change (decide (65 ≤ c.val ∧ c.val ≤ 90) ||
    (decide (97 ≤ c.val) && decide (c.val ≤ 122))) = true at letter
  simp only [Bool.or_eq_true, Bool.and_eq_true, decide_eq_true_eq,
    UInt32.le_iff_toNat_le] at letter
  change (65 ≤ c.toNat ∧ c.toNat ≤ 90) ∨ (97 ≤ c.toNat ∧ c.toNat ≤ 122) at letter
  omega

theorem ascii_continuesName : Ascii continuesName := by
  refine Ascii.or (Ascii.or (fun c letter => ?_) ascii_digit) (ascii_beq (by decide))
  have bounds := letter_bounds letter
  omega

theorem ascii_isBlank : Ascii isBlank := by
  intro c blank
  simp only [isBlank, Bool.or_eq_true, beq_iff_eq] at blank
  rcases blank with ((rfl | rfl) | rfl) | rfl <;> decide

theorem ascii_startsScale : Ascii startsScale := (ascii_beq (by decide)).or (ascii_beq (by decide))

theorem ascii_sign : Ascii isSign := (ascii_beq (by decide)).or (ascii_beq (by decide))

theorem ascii_point : Ascii (· == '.') := ascii_beq (by decide)

theorem ascii_goesOn : Ascii fun c => continuesName c || c == '.' :=
  ascii_continuesName.or ascii_point

theorem startsName_continuesName {c : Char} (first : startsName c = true) :
    continuesName c = true := by
  simp only [startsName, continuesName, Char.isAlphanum, Bool.or_eq_true] at first ⊢
  tauto

theorem ascii_startsName : Ascii startsName :=
  fun c first => ascii_continuesName c (startsName_continuesName first)

def marks : List Char := ['+', '-', '*', '/', '^', '(', ')', ',']

theorem ascii_marks : ∀ c ∈ marks, c.toNat < 128 := by simp [marks]

theorem readToken_unmarked {c : Char} (other : c ∉ marks) (i : Nat) (rest : List Char) :
    readToken i c rest =
      if c.isDigit || c == '.' then do
        let (numeral, taken) ← readNumber i (c :: rest)
        return (.number numeral.decimal.nearest, taken - 1)
      else if startsName c then
        .ok (.name (String.ofList (c :: rest.takeWhile continuesName)),
          (rest.takeWhile continuesName).length)
      else .error (.malformed i (.strayCharacter c)) := by
  unfold readToken
  split <;> simp_all [marks]

theorem marks_apart : ∀ c ∈ marks, isBlank c = false ∧ continuesName c = false ∧
    c.isDigit = false ∧ c ≠ '.' := by
  simp only [marks, List.forall_mem_cons, List.not_mem_nil, false_implies, implies_true]
  decide

theorem blank_apart {c : Char} (blank : isBlank c = true) :
    continuesName c = false ∧ spellsNumber c = false := by
  simp only [isBlank, Bool.or_eq_true, beq_iff_eq] at blank
  rcases blank with ((rfl | rfl) | rfl) | rfl <;> decide

theorem startsName_apart {c : Char} (first : startsName c = true) :
    c ∉ marks ∧ (c.isDigit || c == '.') = false := by
  have part := startsName_continuesName first
  refine ⟨fun mark => ?_, ?_⟩
  · rw [(marks_apart c mark).2.1] at part
    cases part
  rw [← Bool.not_eq_true, Bool.or_eq_true, beq_iff_eq]
  rintro (digit | rfl)
  · simp only [startsName, Bool.or_eq_true, beq_iff_eq] at first
    rcases first with letter | rfl
    · have below : c.toNat ≤ 57 := digit_le digit
      have above := (letter_bounds letter).1
      omega
    · exact absurd digit (by decide)
  · exact absurd first (by decide)

def marked : List (List Char × Token) :=
  [(['+'], .plus), (['-'], .minus), (['*'], .star), (['/'], .slash), (['^'], .caret),
    (['*', '*'], .caret), (['('], .openParen), ([')'], .closeParen), ([','], .comma)]

/-- How a token is spelled. -/
inductive Spells : List Char → Token → Prop where
  | mark {word : List Char} {token : Token} (listed : (word, token) ∈ marked) : Spells word token
  | name {first : Char} {more : List Char} (starts : startsName first = true)
      (goesOn : ∀ c ∈ more, continuesName c = true) :
      Spells (first :: more) (.name (String.ofList (first :: more)))
  | number {word : List Char} {n : Numeral} (spelled : Spelled word n) :
      Spells word (.number n.decimal.nearest)

/-- Whether a word of the token would be longer, or no word, with this character after it. -/
def goesOn : Token → Char → Bool
  | .star, c => c == '*'
  | .name _, c => continuesName c
  | .number _, c => continuesName c || c == '.'
  | _, _ => false

theorem marks_of_marked {word : List Char} {token : Token} (listed : (word, token) ∈ marked) :
    word ≠ [] ∧ ∀ c ∈ word, c ∈ marks := by
  have all : ∀ pair ∈ marked, pair.1 ≠ [] ∧ ∀ c ∈ pair.1, c ∈ marks := by
    simp [marked, marks]
  exact all _ listed

namespace Spells

variable {word : List Char} {token : Token}

theorem ne_nil (spells : Spells word token) : word ≠ [] := by
  cases spells with
  | mark listed => exact (marks_of_marked listed).1
  | name => exact List.cons_ne_nil _ _
  | number spelled => exact spelled.ne_nil

theorem continues {first : Char} {more : List Char} (starts : startsName first = true)
    (goesOn : ∀ c ∈ more, continuesName c = true) : ∀ c ∈ first :: more, continuesName c = true :=
  List.forall_mem_cons.mpr ⟨startsName_continuesName starts, goesOn⟩

theorem visible (spells : Spells word token) :
    ∀ c ∈ word, c.toNat < 128 ∧ isBlank c = false := by
  intro c present
  cases spells with
  | mark listed =>
    have mark := (marks_of_marked listed).2 c present
    exact ⟨ascii_marks c mark, (marks_apart c mark).1⟩
  | name starts goesOn =>
    have name := continues starts goesOn c present
    refine ⟨ascii_continuesName c name, eq_false_of_ne_true fun blank => ?_⟩
    rw [(blank_apart blank).1] at name
    cases name
  | number spelled =>
    have part := spelled.spellsNumber c present
    refine ⟨spellsNumber_ascii part, eq_false_of_ne_true fun blank => ?_⟩
    rw [(blank_apart blank).2] at part
    cases part

theorem ascii (spells : Spells word token) : ∀ c ∈ word, c.toNat < 128 :=
  fun c present => (spells.visible c present).1

end Spells

theorem starts_of_spelled {c : Char} {more : List Char} {n : Numeral}
    (spelled : Spelled (c :: more) n) : (c.isDigit || c == '.') = true := by
  generalize whole : c :: more = word at spelled
  obtain ⟨all, places, pointed, some, scaled⟩ := spelled
  next digits point fraction scale exponent =>
  cases digits with
  | nil =>
    rcases pointed with ⟨rfl, rfl⟩ | rfl
    · exact absurd ⟨rfl, rfl⟩ some
    · cases whole
      rfl
  | cons d digits =>
    cases whole
    simp [all c]

theorem readToken_of_spells {c : Char} {taken rest : List Char} {token : Token}
    (spells : Spells (c :: taken) token) (apart : rest.head?.any (goesOn token) = false)
    (offset : Nat) : readToken offset c (taken ++ rest) = .ok (token, taken.length) := by
  cases spells with
  | mark listed =>
    simp only [marked, List.mem_cons, Prod.mk.injEq, List.cons.injEq, List.not_mem_nil,
      or_false] at listed
    rcases listed with ⟨⟨rfl, rfl⟩, rfl⟩ | ⟨⟨rfl, rfl⟩, rfl⟩ | ⟨⟨rfl, rfl⟩, rfl⟩ |
      ⟨⟨rfl, rfl⟩, rfl⟩ | ⟨⟨rfl, rfl⟩, rfl⟩ | ⟨⟨rfl, rfl⟩, rfl⟩ | ⟨⟨rfl, rfl⟩, rfl⟩ |
      ⟨⟨rfl, rfl⟩, rfl⟩ | ⟨⟨rfl, rfl⟩, rfl⟩
    case inr.inr.inl =>
      have single : rest.head? ≠ some '*' := by
        cases rest <;> simp_all [goesOn]
      simp [readToken, single]
    all_goals rfl
  | name starts goes =>
    obtain ⟨unmarked, other⟩ := startsName_apart starts
    have stop : ∀ d ∈ rest.head?, continuesName d = false := by
      cases rest <;> simp_all [goesOn]
    rw [readToken_unmarked unmarked, other, if_neg Bool.false_ne_true, if_pos starts,
      takeWhile_run goes stop]
  | number spelled =>
    have starts := starts_of_spelled spelled
    have unmarked : c ∉ marks := fun mark => by
      simp [(marks_apart c mark).2.2] at starts
    have read := spelled.readNumber_eq apart offset
    rw [List.cons_append] at read
    rw [readToken_unmarked unmarked, if_pos starts, read]
    rfl

theorem readToken_ok {c : Char} {rest : List Char} {token : Token} {offset more : Nat}
    (read : readToken offset c rest = .ok (token, more)) :
    ∃ taken last, rest = taken ++ last ∧ more = taken.length ∧ Spells (c :: taken) token ∧
      last.head?.any (goesOn token) = false := by
  have ends (last : List Char) : last.head?.any (fun _ => false) = false := by cases last <;> rfl
  by_cases mark : c ∈ marks
  · by_cases second : c = '*' ∧ rest.head? = some '*'
    · obtain ⟨rfl, twice⟩ := second
      obtain ⟨last, rfl⟩ := List.head?_eq_some_iff.mp twice
      cases read
      exact ⟨['*'], last, rfl, rfl, .mark (by simp [marked]), ends last⟩
    · refine ⟨[], rest, rfl, ?_⟩
      simp only [marks, List.mem_cons, List.not_mem_nil, or_false] at mark
      rcases mark with rfl | rfl | rfl | rfl | rfl | rfl | rfl | rfl
      case inr.inr.inl =>
        have single : rest.head? ≠ some '*' := fun twice => second ⟨rfl, twice⟩
        simp only [readToken, if_neg single] at read
        cases read
        refine ⟨rfl, .mark (by simp [marked]), ?_⟩
        cases rest <;> simp_all [goesOn]
      all_goals
        cases read
        exact ⟨rfl, .mark (by simp [marked]), ends rest⟩
  · rw [readToken_unmarked mark] at read
    split at read
    · obtain ⟨⟨n, count⟩, number, same⟩ := bind_eq_ok.mp read
      cases same
      obtain ⟨literal, last, parts, rfl, spelled, apart⟩ := readNumber_ok number
      cases literal with
      | nil => exact absurd rfl spelled.ne_nil
      | cons d taken =>
        cases parts
        exact ⟨taken, last, rfl, rfl, .number spelled, apart⟩
    · split at read
      · next starts =>
        cases read
        obtain ⟨taken, last, rfl, goes, stop⟩ := exists_span continuesName rest
        rw [takeWhile_run goes stop]
        refine ⟨taken, last, rfl, rfl, .name starts goes, ?_⟩
        cases last <;> simp_all [goesOn]
      · cases read

/-- From a place on, a text is a sequence of blanks and words, none of which goes on in the next;
the lexemes are its words and where they stand. -/
inductive Splits : Nat → List Char → List Lexeme → Prop where
  | done (offset : Nat) : Splits offset [] []
  | blank {offset : Nat} {c : Char} {rest : List Char} {lexemes : List Lexeme}
      (blank : isBlank c = true) (later : Splits (offset + 1) rest lexemes) :
      Splits offset (c :: rest) lexemes
  | word {offset : Nat} {word rest : List Char} {token : Token} {lexemes : List Lexeme}
      (spells : Spells word token) (apart : rest.head?.any (goesOn token) = false)
      (later : Splits (offset + word.length) rest lexemes) :
      Splits offset (word ++ rest) (⟨offset, offset + word.length, token⟩ :: lexemes)

theorem splits_of_scan {offset : Nat} {text : List Char} {lexemes : List Lexeme}
    (scanned : scan offset text = .ok lexemes) : Splits offset text lexemes := by
  induction offset, text using scan.induct generalizing lexemes with
  | case1 offset =>
    rw [scan] at scanned
    cases scanned
    exact .done offset
  | case2 offset c rest blank ih =>
    rw [scan, if_pos blank] at scanned
    exact .blank blank (ih scanned)
  | case3 offset c rest visible ih =>
    rw [scan, if_neg visible] at scanned
    obtain ⟨⟨token, more⟩, read, scanned⟩ := bind_eq_ok.mp scanned
    obtain ⟨others, later, same⟩ := bind_eq_ok.mp scanned
    cases same
    obtain ⟨taken, last, rfl, rfl, spells, apart⟩ := readToken_ok read
    have place : offset + 1 + taken.length = offset + (c :: taken).length := by
      rw [List.length_cons]
      omega
    have split := ih taken.length later
    rw [List.drop_left, place] at split
    rw [place]
    exact .word spells apart split

theorem Splits.scan_eq {offset : Nat} {text : List Char} {lexemes : List Lexeme}
    (splits : Splits offset text lexemes) : scan offset text = .ok lexemes := by
  induction splits with
  | done offset => rw [scan]
  | blank blank later ih => rw [scan, if_pos blank, ih]
  | @word offset word rest token lexemes spells apart later ih =>
    cases word with
    | nil => exact absurd rfl spells.ne_nil
    | cons c taken =>
      have visible : ¬ isBlank c = true := by
        simp [(spells.visible c (by simp)).2]
      have place : offset + 1 + taken.length = offset + (c :: taken).length := by
        rw [List.length_cons]
        omega
      rw [List.cons_append, scan, if_neg visible, readToken_of_spells spells apart]
      change (scan (offset + 1 + taken.length) ((taken ++ rest).drop taken.length) >>= _) = _
      rw [List.drop_left, place, ih]
      rfl

theorem scan_eq_ok_iff {offset : Nat} {text : List Char} {lexemes : List Lexeme} :
    scan offset text = .ok lexemes ↔ Splits offset text lexemes :=
  ⟨splits_of_scan, Splits.scan_eq⟩

end PaymentFees.Guarded
