import PaymentFees.Proofs.Guarded.Tokens
import PaymentFees.Proofs.PlainDigits

namespace PaymentFees.Guarded

open Octets Formula Numeral Binary

theorem ascii_goesOn_token (token : Token) : Ascii (goesOn token) := by
  cases token with
  | star => exact ascii_beq (by decide)
  | name => exact ascii_continuesName
  | number => exact ascii_goesOn
  | _ => exact fun _ none => absurd none Bool.false_ne_true

/-- The word of a lexeme stands where the lexeme says, and does not go on. -/
structure WordAt (text : String) (lexeme : Lexeme) (word rest : List Char) : Prop where
  here : At text lexeme.start (word ++ rest)
  stop : lexeme.stop = lexeme.start + word.length
  spells : Spells word lexeme.token
  apart : rest.head?.any (goesOn lexeme.token) = false

namespace WordAt

variable {text : String} {lexeme : Lexeme} {word rest : List Char}
variable (there : WordAt text lexeme word rest)
include there

theorem start_lt : lexeme.start < lexeme.stop := by
  have some := List.length_pos_iff.mpr there.spells.ne_nil
  have stop := there.stop
  omega

theorem behind : At text lexeme.stop rest := by
  rw [there.stop]
  exact there.here.skip_ascii there.spells.ascii

theorem stop_le : lexeme.stop ≤ text.utf8ByteSize := by
  have size := there.behind.size_eq
  omega

theorem slice?_eq : slice? text lexeme.start lexeme.stop = some (String.ofList word) := by
  have sliced := there.here.slice?
  rwa [width_ascii there.spells.ascii, ← there.stop] at sliced

theorem looks_stop : looks text (goesOn lexeme.token) lexeme.stop = false := by
  rw [looks_eq (ascii_goesOn_token _) there.behind, there.apart]

theorem looks_inside {i : Nat} (after : lexeme.start ≤ i) (before : i < lexeme.stop) :
    ∃ c ∈ word, ∀ p, Ascii p → looks text p i = p c := by
  have stop := there.stop
  obtain ⟨c, back, parts⟩ : ∃ c back, word.drop (i - lexeme.start) = c :: back :=
    List.exists_cons_of_length_pos (by rw [List.length_drop]; omega)
  have front : (word.take (i - lexeme.start)).length = i - lexeme.start := by
    rw [List.length_take]
    omega
  have whole : word = word.take (i - lexeme.start) ++ (c :: back) := by
    rw [← parts, List.take_append_drop]
  refine ⟨c, by rw [whole]; simp, fun p ascii => ?_⟩
  have here := there.here
  rw [whole, List.append_assoc] at here
  have place := here.skip_ascii fun d present =>
    there.spells.ascii d (by rw [whole]; exact List.mem_append_left _ present)
  rw [front, Nat.add_sub_cancel' after] at place
  rw [looks_eq ascii place]
  rfl

end WordAt

/-- The lexemes are in order, and cover the bytes that are not blank. -/
structure Tiles (text : String) (lexemes : List Lexeme) : Prop where
  ordered : lexemes.Pairwise fun first second => first.stop ≤ second.start
  covers : ∀ i < text.utf8ByteSize, looks text isBlank i = false ↔
    ∃ lexeme ∈ lexemes, lexeme.start ≤ i ∧ i < lexeme.stop

theorem Splits.wordAt {text : String} {offset : Nat} {rest : List Char} {lexemes : List Lexeme}
    (splits : Splits offset rest lexemes) (here : At text offset rest) :
    ∀ lexeme ∈ lexemes, offset ≤ lexeme.start ∧ ∃ word others, WordAt text lexeme word others := by
  induction splits with
  | done offset => simp
  | @blank offset c rest lexemes blank later ih =>
    intro lexeme present
    obtain ⟨after, there⟩ := ih (here.next (ascii_isBlank c blank)) lexeme present
    exact ⟨by omega, there⟩
  | @word offset word rest token lexemes spells apart later ih =>
    refine List.forall_mem_cons.mpr ⟨⟨Nat.le_refl _, word, rest, here, rfl, spells, apart⟩, ?_⟩
    intro lexeme present
    obtain ⟨after, there⟩ := ih (here.skip_ascii spells.ascii) lexeme present
    exact ⟨by omega, there⟩

theorem Splits.ordered {text : String} {offset : Nat} {rest : List Char} {lexemes : List Lexeme}
    (splits : Splits offset rest lexemes) (here : At text offset rest) :
    lexemes.Pairwise fun first second => first.stop ≤ second.start := by
  induction splits with
  | done offset => exact .nil
  | @blank offset c rest lexemes blank later ih => exact ih (here.next (ascii_isBlank c blank))
  | @word offset word rest token lexemes spells apart later ih =>
    have behind := here.skip_ascii spells.ascii
    exact .cons (fun lexeme present => (later.wordAt behind lexeme present).1) (ih behind)

theorem Splits.covers {text : String} {offset i : Nat} {rest : List Char} {lexemes : List Lexeme}
    (splits : Splits offset rest lexemes) (here : At text offset rest) (after : offset ≤ i)
    (inside : i < text.utf8ByteSize) :
    looks text isBlank i = false ↔ ∃ lexeme ∈ lexemes, lexeme.start ≤ i ∧ i < lexeme.stop := by
  induction splits with
  | done offset =>
    have last : offset = text.utf8ByteSize := here.size_eq
    omega
  | @blank offset c rest lexemes blank later ih =>
    have behind := here.next (ascii_isBlank c blank)
    rcases after.eq_or_lt with rfl | further
    · have byte : looks text isBlank offset = true := (looks_eq ascii_isBlank here).trans blank
      refine iff_of_false (by simp [byte]) ?_
      rintro ⟨lexeme, present, start, -⟩
      have beyond := (later.wordAt behind lexeme present).1
      omega
    · exact ih behind further
  | @word offset word rest token lexemes spells apart later ih =>
    have there : WordAt text ⟨offset, offset + word.length, token⟩ word rest :=
      ⟨here, rfl, spells, apart⟩
    by_cases first : i < offset + word.length
    · obtain ⟨c, present, byte⟩ := there.looks_inside after first
      refine iff_of_true ?_ ⟨_, List.mem_cons_self, after, first⟩
      rw [byte isBlank ascii_isBlank, (spells.visible c present).2]
    · rw [ih there.behind (Nat.le_of_not_lt first)]
      simp only [List.mem_cons, exists_eq_or_imp]
      exact ⟨.inr, fun either => either.resolve_left fun within => first within.2⟩

theorem tiles_of_splits {text : String} {lexemes : List Lexeme}
    (splits : Splits 0 text.toList lexemes) : Tiles text lexemes where
  ordered := splits.ordered (at_zero text)
  covers i inside := splits.covers (at_zero text) (Nat.zero_le i) inside

/-- The lexemes have no byte in common. -/
def Disjoint (first second : Lexeme) : Prop :=
  first.stop ≤ second.start ∨ second.stop ≤ first.start

instance : Std.Symm Disjoint := ⟨fun _ _ => Or.symm⟩

theorem Tiles.disjoint {text : String} {lexemes : List Lexeme} (tiles : Tiles text lexemes)
    {first second : Lexeme} (one : first ∈ lexemes) (other : second ∈ lexemes)
    (different : first ≠ second) : Disjoint first second := by
  have either : lexemes.Pairwise Disjoint := tiles.ordered.imp .inl
  exact either.forall one other different

theorem goesOn_of_mem {word : List Char} {token : Token} (spells : Spells word token) {c d : Char}
    (present : c ∈ word) (part : continuesName c = true) (next : continuesName d = true) :
    goesOn token d = true := by
  cases spells with
  | mark listed =>
    rw [(marks_apart c ((marks_of_marked listed).2 c present)).2.1] at part
    cases part
  | name => exact next
  | number => exact Bool.or_eq_true_iff.mpr (.inl next)

theorem looks_before {text : String} {lexemes : List Lexeme} (splits : Splits 0 text.toList lexemes)
    {lexeme : Lexeme} (present : lexeme ∈ lexemes) {name : String}
    (named : lexeme.token = .name name) {i : Nat} (after : lexeme.start = i + 1) :
    looks text continuesName i = false := by
  have tiles := tiles_of_splits splits
  obtain ⟨-, word, rest, there⟩ := splits.wordAt (at_zero text) lexeme present
  have some := there.start_lt
  have within := there.stop_le
  rw [← Bool.not_eq_true]
  intro part
  have visible : looks text isBlank i = false := by
    unfold looks at part ⊢
    cases byte : (shown text i).head? with
    | none => rfl
    | some c =>
      rw [byte] at part
      refine eq_false_of_ne_true fun blank => ?_
      have other := (blank_apart blank).1
      simp_all
  obtain ⟨before, member, first, last⟩ := (tiles.covers i (by omega)).mp visible
  have different : before ≠ lexeme := by
    rintro rfl
    omega
  have adjacent : before.stop = lexeme.start := by
    rcases tiles.disjoint member present different with earlier | later <;> omega
  obtain ⟨-, word', rest', there'⟩ := splits.wordAt (at_zero text) before member
  obtain ⟨c, inside, byte⟩ := there'.looks_inside first last
  obtain ⟨d, inside', byte'⟩ := there.looks_inside (Nat.le_refl _) some
  have letter : continuesName d = true := by
    have spells := there.spells
    rw [named] at spells
    cases spells with
    | mark listed => simp [marked] at listed
    | name starts goesOn => exact Spells.continues starts goesOn d inside'
  have stops := there'.looks_stop
  rw [adjacent, byte' _ (ascii_goesOn_token _)] at stops
  rw [byte _ ascii_continuesName] at part
  rw [goesOn_of_mem there'.spells inside part letter] at stops
  cases stops

/-- The word of a lexeme reads back as its token, and is as long as it can be. -/
structure Faithful (text : String) (lexeme : Lexeme) : Prop where
  some : lexeme.start < lexeme.stop
  inside : lexeme.stop ≤ text.utf8ByteSize
  spelled : ∃ word, slice? text lexeme.start lexeme.stop = .some word ∧
    Spells word.toList lexeme.token
  ends : looks text (goesOn lexeme.token) lexeme.stop = false
  name : ∀ name, lexeme.token = .name name →
    slice? text lexeme.start lexeme.stop = .some name ∧
      (∀ i, lexeme.start ≤ i → i < lexeme.stop → looks text continuesName i = true) ∧
      looks text continuesName lexeme.stop = false ∧
      ∀ i, lexeme.start = i + 1 → looks text continuesName i = false
  number : ∀ value, lexeme.token = .number value → ∃ word n,
    slice? text lexeme.start lexeme.stop = .some word ∧ ofText? word.toList = .some n ∧
      value = n.decimal.nearest ∧
      Extent value (fit (nearest (n.decimal.coefficient * 10 ^ n.decimal.exponent)))

theorem faithful_of_splits {text : String} {lexemes : List Lexeme}
    (splits : Splits 0 text.toList lexemes) {lexeme : Lexeme} (present : lexeme ∈ lexemes) :
    Faithful text lexeme := by
  obtain ⟨-, word, rest, there⟩ := splits.wordAt (at_zero text) lexeme present
  refine ⟨there.start_lt, there.stop_le, ⟨_, there.slice?_eq, ?_⟩, there.looks_stop, ?_, ?_⟩
  · rw [String.toList_ofList]
    exact there.spells
  · intro name named
    have before {i : Nat} := @looks_before text lexemes splits lexeme present name named i
    have spells := there.spells
    have stops := there.looks_stop
    rw [named] at spells stops
    cases spells with
    | mark listed => simp [marked] at listed
    | name starts goesOn =>
      refine ⟨there.slice?_eq, fun i after inside => ?_, stops, fun i => before⟩
      obtain ⟨c, member, byte⟩ := there.looks_inside after inside
      rw [byte _ ascii_continuesName]
      exact Spells.continues starts goesOn c member
  · intro value number
    have spells := there.spells
    rw [number] at spells
    cases spells with
    | mark listed => simp [marked] at listed
    | @number _ n spelled =>
      refine ⟨_, n, there.slice?_eq, ?_, rfl, n.decimal.extent_nearest⟩
      rw [String.toList_ofList]
      exact spelled.ofText?

/-- A formula is split just if it is a sequence of blanks and words that do not go on: of two stars
the first is the first half of a power, and names and numbers are as long as they can be. The tokens
are those of the words, each with the place where its word starts, and the end of the text; the
words are in order, cover just what is not blank and read back as their tokens. -/
theorem splits_into_words (text : String) :
    split text = answer ((scan 0 text.toList).map (entries text.utf8ByteSize)) ∧
    (∀ lexemes, scan 0 text.toList = .ok lexemes ↔ Splits 0 text.toList lexemes) ∧
    ∀ lexemes, scan 0 text.toList = .ok lexemes →
      Tiles text lexemes ∧ ∀ lexeme ∈ lexemes, Faithful text lexeme := by
  refine ⟨split_eq text, fun lexemes => scan_eq_ok_iff, fun lexemes scanned => ?_⟩
  have splits := scan_eq_ok_iff.mp scanned
  exact ⟨tiles_of_splits splits, fun lexeme present => faithful_of_splits splits present⟩

theorem splits_into_words_stars :
    let lexemes : List Lexeme := [⟨0, 2, .name "x1"⟩, ⟨2, 4, .caret⟩, ⟨4, 5, .star⟩,
      ⟨6, 11, .number 5e-3⟩, ⟨11, 12, .slash⟩, ⟨12, 13, .name "y"⟩]
    scan 0 "x1*** .5e-2/y".toList = .ok lexemes ∧ Splits 0 "x1*** .5e-2/y".toList lexemes ∧
      split "x1*** .5e-2/y" = answer (.ok (entries 13 lexemes)) ∧ Tiles "x1*** .5e-2/y" lexemes := by
  intro lexemes
  have scanned : scan 0 "x1*** .5e-2/y".toList = .ok lexemes := by decide +kernel
  obtain ⟨whole, words, spans⟩ := splits_into_words "x1*** .5e-2/y"
  rw [scanned] at whole
  exact ⟨scanned, (words lexemes).mp scanned, whole, (spans lexemes scanned).1⟩

-- The digit belongs to the name, and no number is left for the point.
example : scan 0 "x1.".toList = .error (.malformed 2 (.strayCharacter '.')) := by decide +kernel

end PaymentFees.Guarded
