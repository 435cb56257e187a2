import PaymentFees.Json.Reader
import PaymentFees.Json.Writer
import Mathlib.Data.List.TakeDrop
import Mathlib.Tactic.Common

/-!
What is written as JSON is read as what it was: texts by their escapes, numerals by their digits,
and values by the brackets and commas between them.
-/

namespace PaymentFees

namespace Json

def glyphOf (c : Char) : Glyph :=
  if c.toNat < 0x20 ∧ c ∉ ['\n', '\r', '\t', '\x08', '\x0c'] then .codeUnit c.toNat else .plain c

theorem hexDigits_four : ∀ code < 0x20, hexDigits 4 code =
    ['0', '0', Nat.digitChar (code / 16), Nat.digitChar (code % 16)] := by
  decide

theorem hexNumber?_four : ∀ code < 0x20,
    hexNumber? '0' '0' (Nat.digitChar (code / 16)) (Nat.digitChar (code % 16)) = some code := by
  decide

theorem readGlyphs_plain {c : Char} (quote : c ≠ '"') (backslash : c ≠ '\\')
    (visible : ¬ c.toNat < 0x20) (rest : List Char) :
    readGlyphs (c :: rest) =
      (readGlyphs rest).map fun (glyphs, rest) => (.plain c :: glyphs, rest) := by
  rw [readGlyphs.eq_def]
  split
  · next same => exact absurd (List.cons.inj same).1 quote
  · next same => exact absurd (List.cons.inj same).1 backslash
  · next same => exact absurd (List.cons.inj same).1 backslash
  · next head tail _ _ _ same =>
    obtain ⟨rfl, rfl⟩ := List.cons.inj same
    rw [if_neg visible]
    cases readGlyphs rest <;> rfl
  · next same => cases same

theorem readGlyphs_escape (c : Char) (rest : List Char) :
    readGlyphs (escape c ++ rest) =
      (readGlyphs rest).map fun (glyphs, rest) => (glyphOf c :: glyphs, rest) := by
  have short (letter : Char) (value : Char) (named : escaped? letter = some value)
      (single : letter ≠ 'u') : readGlyphs ('\\' :: letter :: rest) =
        (readGlyphs rest).map fun (glyphs, rest) => (.plain value :: glyphs, rest) := by
    rw [readGlyphs.eq_def]
    split
    · next same => cases same
    · next same => exact absurd (List.cons.inj (List.cons.inj same).2).1 single
    · next same =>
      obtain ⟨rfl, rfl⟩ := List.cons.inj (List.cons.inj same).2
      rw [named]
      cases readGlyphs rest <;> rfl
    · next other same =>
      exact (other _ _ (List.cons.inj same).1.symm (List.cons.inj same).2.symm).elim
    · next same => cases same
  unfold escape
  split
  · exact short '"' '"' rfl (by decide)
  · exact short '\\' '\\' rfl (by decide)
  · exact short 'n' '\n' rfl (by decide)
  · exact short 'r' '\r' rfl (by decide)
  · exact short 't' '\t' rfl (by decide)
  · next quote backslash newline carriage tab =>
    split
    · next same =>
      subst same
      exact short 'b' '\x08' rfl (by decide)
    split
    · next same =>
      subst same
      exact short 'f' '\x0c' rfl (by decide)
    next backspace feed =>
    split
    · next control =>
      have unnamed : c ∉ ['\n', '\r', '\t', '\x08', '\x0c'] := by
        simp only [List.mem_cons, List.not_mem_nil, or_false, not_or]
        exact ⟨newline, carriage, tab, backspace, feed⟩
      have shown : glyphOf c = .codeUnit c.toNat := if_pos ⟨control, unnamed⟩
      rw [shown, hexDigits_four _ control]
      simp only [List.cons_append, List.nil_append, readGlyphs, hexNumber?_four _ control]
      cases readGlyphs rest <;> rfl
    · next visible =>
      have shown : glyphOf c = .plain c := if_neg fun control => visible control.1
      rw [shown]
      exact readGlyphs_plain quote backslash visible rest

theorem readGlyphs_flatMap (cs rest : List Char) :
    readGlyphs (cs.flatMap escape ++ '"' :: rest) = some (cs.map glyphOf, rest) := by
  induction cs with
  | nil => rfl
  | cons c cs ih =>
    rw [List.flatMap_cons, List.append_assoc, readGlyphs_escape, ih]
    rfl

theorem joinGlyphs_codeUnit {code : Nat} (small : code < 0x20) (glyphs : List Glyph) :
    joinGlyphs (.codeUnit code :: glyphs) = (joinGlyphs glyphs).map (Char.ofNat code :: ·) := by
  have high : isHighSurrogate code = false := by
    simp [isHighSurrogate]
    omega
  have low : isLowSurrogate code = false := by
    simp [isLowSurrogate]
    omega
  cases glyphs with
  | nil => simp [joinGlyphs, high, low]
  | cons glyph glyphs =>
    cases glyph with
    | plain c =>
      simp only [joinGlyphs, high, low]
      cases joinGlyphs glyphs <;> rfl
    | codeUnit next =>
      rw [joinGlyphs]
      simp only [high, low]
      cases joinGlyphs (.codeUnit next :: glyphs) <;> rfl

theorem joinGlyphs_map (cs : List Char) : joinGlyphs (cs.map glyphOf) = some cs := by
  induction cs with
  | nil => rfl
  | cons c cs ih =>
    by_cases control : c.toNat < 0x20 ∧ c ∉ ['\n', '\r', '\t', '\x08', '\x0c']
    · rw [List.map_cons, glyphOf, if_pos control, joinGlyphs_codeUnit control.1, ih,
        Char.ofNat_toNat]
      rfl
    · rw [List.map_cons, glyphOf, if_neg control, joinGlyphs, ih]
      rfl

theorem readString_flatMap (cs rest : List Char) :
    readString (cs.flatMap escape ++ '"' :: rest) = some (some (String.ofList cs), rest) := by
  unfold readString
  rw [readGlyphs_flatMap]
  simp [joinGlyphs_map]

/-- What may follow a value: nothing, or a comma or a closing bracket. -/
def Stops (rest : List Char) : Prop := ∀ c ∈ rest.head?, c = ',' ∨ c = ']' ∨ c = '\x7d'

theorem span_digits {digits rest : List Char} (all : ∀ c ∈ digits, c.isDigit = true)
    (stop : ∀ c ∈ rest.head?, c.isDigit = false) :
    (digits ++ rest).span Char.isDigit = (digits, rest) := by
  have none : rest.takeWhile Char.isDigit = [] ∧ rest.dropWhile Char.isDigit = rest := by
    cases rest with
    | nil => exact ⟨rfl, rfl⟩
    | cons c rest =>
      have other := stop c rfl
      simp [other]
  rw [List.span_eq_takeWhile_dropWhile, List.takeWhile_append_of_pos all,
    List.dropWhile_append_of_pos all, none.1, none.2, List.append_nil]

end Json

structure Numeral.Plain (n : Numeral) : Prop where
  whole : ∀ c ∈ n.whole, c.isDigit = true
  fraction : ∀ c ∈ n.fraction, c.isDigit = true
  nonempty : n.whole ≠ []
  leading : n.whole.head? = some '0' → n.whole.length = 1

namespace Json

open Numeral

theorem readExponent_written (e : Int) {rest : List Char} (stops : Stops rest) :
    readExponent ((if e < 0 then '-' else '+') :: (Nat.toDigits 10 e.natAbs ++ rest)) =
      some (e, rest) := by
  have stop : ∀ c ∈ rest.head?, c.isDigit = false := by
    intro c first
    rcases stops c first with rfl | rfl | rfl <;> rfl
  have digits : ∀ c ∈ Nat.toDigits 10 e.natAbs, c.isDigit = true :=
    fun c present => Nat.isDigit_of_mem_toDigits (by decide) (by decide) present
  have spanned := span_digits digits stop
  have value : numberOf (Nat.toDigits 10 e.natAbs) = e.natAbs := Nat.ofDigitChars_ten_toDigits
  cases written : Nat.toDigits 10 e.natAbs with
  | nil => exact absurd written Nat.toDigits_ne_nil
  | cons d ds =>
    rw [written] at spanned value
    by_cases negative : e < 0
    · simp only [readExponent, if_pos negative, spanned, value]
      rw [if_pos trivial, Int.ofNat_natAbs_of_nonpos (Int.le_of_lt negative), Int.neg_neg]
    · simp only [readExponent, if_neg negative, spanned, value]
      rw [if_neg Bool.false_ne_true, Int.natAbs_of_nonneg (Int.not_lt.mp negative)]

theorem readNumeral_written {n : Numeral} (plain : n.Plain) {rest : List Char}
    (stops : Stops rest) : readNumeral (writeNumeral n ++ rest) = some (n, rest) := by
  obtain ⟨whole, fraction, exponent⟩ := n
  obtain ⟨digits, places, nonempty, leading⟩ := plain
  dsimp only at digits places nonempty leading
  have accepted : (whole.isEmpty || (whole.head? = some '0' && whole.length ≠ 1)) = false := by
    simp [nonempty]
    exact leading
  have stop : ∀ c ∈ rest.head?, c.isDigit = false := by
    intro c first
    rcases stops c first with rfl | rfl | rfl <;> rfl
  have letter (tail : List Char) : ∀ c ∈ ('e' :: tail).head?, c.isDigit = false := by simp
  have point (tail : List Char) : ∀ c ∈ ('.' :: tail).head?, c.isDigit = false := by simp
  cases exponent with
  | none =>
    have ending : ∀ c tail, rest = c :: tail → c ≠ '.' ∧ c ≠ 'e' ∧ c ≠ 'E' := by
      rintro c tail rfl
      rcases stops c rfl with rfl | rfl | rfl <;> decide
    cases fraction with
    | nil =>
      have first := span_digits digits stop
      have text : writeNumeral ⟨whole, [], none⟩ ++ rest = whole ++ rest := by simp [writeNumeral]
      rw [text]
      simp only [readNumeral, first, accepted]
      cases rest with
      | nil => rfl
      | cons c tail =>
        obtain ⟨noPoint, noLetter, noCapital⟩ := ending c tail rfl
        simp [noPoint, noLetter, noCapital]
    | cons f fs =>
      have first := span_digits digits (point (f :: fs ++ rest))
      have second := span_digits places stop
      have text : writeNumeral ⟨whole, f :: fs, none⟩ ++ rest =
          whole ++ '.' :: (f :: fs ++ rest) := by simp [writeNumeral]
      rw [text]
      simp only [readNumeral, first, accepted, second]
      cases rest with
      | nil => rfl
      | cons c tail =>
        obtain ⟨noPoint, noLetter, noCapital⟩ := ending c tail rfl
        simp [noLetter, noCapital]
  | some e =>
    have last := readExponent_written e stops
    cases fraction with
    | nil =>
      have first := span_digits digits
        (letter ((if e < 0 then '-' else '+') :: (Nat.toDigits 10 e.natAbs ++ rest)))
      simp_all [readNumeral, writeNumeral]
    | cons f fs =>
      have second := span_digits places
        (letter ((if e < 0 then '-' else '+') :: (Nat.toDigits 10 e.natAbs ++ rest)))
      have first := span_digits digits
        (point (f :: fs ++ 'e' :: (if e < 0 then '-' else '+') ::
          (Nat.toDigits 10 e.natAbs ++ rest)))
      simp_all [readNumeral, writeNumeral]

mutual

def Writable : Json → Prop
  | number _ numeral => numeral.Plain
  | string text => text.isSome
  | array items => WritableItems items
  | object members => WritableMembers members
  | _ => True

def WritableItems : List Json → Prop
  | [] => True
  | item :: items => item.Writable ∧ WritableItems items

def WritableMembers : List (Option String × Json) → Prop
  | [] => True
  | (key, value) :: members => key.isSome ∧ value.Writable ∧ WritableMembers members

end

theorem isBlank_digit {d : Char} (digit : d.isDigit = true) : isBlank d = false := by
  rw [← Bool.not_eq_true]
  intro blank
  simp only [isBlank, Bool.or_eq_true, beq_iff_eq] at blank
  rcases blank with ((rfl | rfl) | rfl) | rfl <;> cases digit

theorem writeNumeral_eq_cons {n : Numeral} (plain : n.Plain) :
    ∃ d tail, writeNumeral n = d :: tail ∧ d.isDigit = true := by
  obtain ⟨whole, fraction, exponent⟩ := n
  cases whole with
  | nil => exact absurd rfl plain.nonempty
  | cons d ds => exact ⟨d, _, rfl, plain.whole d List.mem_cons_self⟩

theorem write_eq_cons {value : Json} (writable : value.Writable) :
    ∃ c tail, value.write = c :: tail ∧ isBlank c = false ∧ c ≠ ']' ∧ c ≠ '\x7d' := by
  cases value with
  | null => exact ⟨_, _, rfl, by decide, by decide, by decide⟩
  | bool value => cases value <;> exact ⟨_, _, rfl, by decide, by decide, by decide⟩
  | string text => exact ⟨_, _, rfl, by decide, by decide, by decide⟩
  | array items => exact ⟨_, _, rfl, by decide, by decide, by decide⟩
  | object members => exact ⟨_, _, rfl, by decide, by decide, by decide⟩
  | number negative numeral =>
    cases negative with
    | true => exact ⟨_, _, rfl, by decide, by decide, by decide⟩
    | false =>
      obtain ⟨d, tail, starts, digit⟩ := writeNumeral_eq_cons writable
      refine ⟨d, tail, starts, isBlank_digit digit, ?_, ?_⟩
      · rintro rfl
        cases digit
      · rintro rfl
        cases digit

theorem skipBlanks_cons {c : Char} (mark : isBlank c = false) (rest : List Char) :
    skipBlanks (c :: rest) = c :: rest := by
  unfold skipBlanks
  rw [List.dropWhile_cons_of_neg (by simp [mark])]

theorem readValue_number {n : Numeral} (plain : n.Plain) {rest : List Char} (stops : Stops rest)
    (steps : Nat) :
    readValue (steps + 1) (writeNumeral n ++ rest) = some (.number false n, rest) := by
  have read := readNumeral_written plain stops
  obtain ⟨d, tail, starts, digit⟩ := writeNumeral_eq_cons plain
  rw [starts, List.cons_append] at read ⊢
  rw [readValue, skipBlanks_cons (isBlank_digit digit)]
  split
  case h_8 =>
    rw [read]
    rfl
  all_goals
    next same =>
      rw [(List.cons.inj same).1] at digit
      cases digit

theorem stops_comma (rest : List Char) : Stops (',' :: rest) := by
  rintro c ⟨⟩
  exact .inl rfl

theorem stops_bracket (rest : List Char) : Stops (']' :: rest) := by
  rintro c ⟨⟩
  exact .inr (.inl rfl)

theorem stops_brace (rest : List Char) : Stops ('\x7d' :: rest) := by
  rintro c ⟨⟩
  exact .inr (.inr rfl)

theorem writeItems_eq_cons {item : Json} (writable : item.Writable) (items : List Json) :
    ∃ c tail, writeItems (item :: items) = c :: tail ∧ isBlank c = false ∧ c ≠ ']' := by
  obtain ⟨c, tail, starts, mark, other, -⟩ := write_eq_cons writable
  cases items with
  | nil => exact ⟨c, tail, starts, mark, other⟩
  | cons next items =>
    refine ⟨c, tail ++ ',' :: writeItems (next :: items), ?_, mark, other⟩
    simp [writeItems, starts]

theorem writeMembers_eq_cons (member : Option String × Json)
    (members : List (Option String × Json)) :
    ∃ tail, writeMembers (member :: members) = '"' :: tail := by
  cases members <;> exact ⟨_, rfl⟩

mutual

theorem readValue_write : ∀ (value : Json) (steps : Nat) (rest : List Char), value.Writable →
    Stops rest → value.write.length ≤ steps →
      readValue steps (value.write ++ rest) = some (value, rest)
  | value, 0, rest, writable, stops, enough => by
    obtain ⟨c, tail, same, -⟩ := write_eq_cons writable
    rw [same] at enough
    cases enough
  | .null, steps + 1, rest, writable, stops, enough => rfl
  | .bool true, steps + 1, rest, writable, stops, enough => rfl
  | .bool false, steps + 1, rest, writable, stops, enough => rfl
  | .number false numeral, steps + 1, rest, writable, stops, enough =>
    readValue_number writable stops steps
  | .number true numeral, steps + 1, rest, writable, stops, enough => by
    have written : (Json.number true numeral).write ++ rest =
        '-' :: (writeNumeral numeral ++ rest) := rfl
    rw [written, readValue, skipBlanks_cons (by decide)]
    simp [readNumeral_written writable stops]
  | .string text, steps + 1, rest, writable, stops, enough => by
    obtain ⟨text, rfl⟩ := Option.isSome_iff_exists.mp writable
    have written : (Json.string (some text)).write ++ rest =
        '"' :: (text.toList.flatMap escape ++ '"' :: rest) := by
      simp [write, writeString]
    rw [written, readValue, skipBlanks_cons (by decide)]
    simp [readString_flatMap]
  | .array [], steps + 1, rest, writable, stops, enough => rfl
  | .array (item :: items), steps + 1, rest, writable, stops, enough => by
    have written : (Json.array (item :: items)).write ++ rest =
        '[' :: (writeItems (item :: items) ++ ']' :: rest) := by
      simp [write]
    have fewer : (writeItems (item :: items)).length < steps := by
      simp [write] at enough
      omega
    have inner := readItems_write item items steps rest writable fewer
    obtain ⟨c, tail, starts, mark, other⟩ := writeItems_eq_cons writable.1 items
    rw [written, readValue, skipBlanks_cons (by decide)]
    rw [starts, List.cons_append] at inner ⊢
    simp [skipBlanks_cons mark, inner, other]
  | .object [], steps + 1, rest, writable, stops, enough => rfl
  | .object (member :: members), steps + 1, rest, writable, stops, enough => by
    have written : (Json.object (member :: members)).write ++ rest =
        '\x7b' :: (writeMembers (member :: members) ++ '\x7d' :: rest) := by
      simp [write]
    have fewer : (writeMembers (member :: members)).length < steps := by
      simp [write] at enough
      omega
    have inner := readMembers_write member members steps rest writable fewer
    obtain ⟨tail, starts⟩ := writeMembers_eq_cons member members
    rw [written, readValue, skipBlanks_cons (by decide)]
    rw [starts, List.cons_append] at inner ⊢
    have mark : isBlank '"' = false := rfl
    simp [skipBlanks_cons mark, inner]

theorem readItems_write : ∀ (item : Json) (items : List Json) (steps : Nat) (rest : List Char),
    WritableItems (item :: items) → (writeItems (item :: items)).length < steps →
      readItems steps (writeItems (item :: items) ++ ']' :: rest) = some (item :: items, rest)
  | item, items, 0, rest, writable, enough => by cases enough
  | item, [], steps + 1, rest, writable, enough => by
    have first := readValue_write item steps (']' :: rest) writable.1 (stops_bracket rest)
      (Nat.lt_succ_iff.mp enough)
    have close : isBlank ']' = false := rfl
    rw [readItems, writeItems, first]
    simp [skipBlanks_cons close]
  | item, next :: items, steps + 1, rest, writable, enough => by
    have written : writeItems (item :: next :: items) ++ ']' :: rest =
        item.write ++ ',' :: (writeItems (next :: items) ++ ']' :: rest) := by
      simp [writeItems]
    have lengths : (writeItems (item :: next :: items)).length =
        item.write.length + 1 + (writeItems (next :: items)).length := by
      simp [writeItems]
      omega
    have first := readValue_write item steps (',' :: (writeItems (next :: items) ++ ']' :: rest))
      writable.1 (stops_comma _) (by omega)
    have others := readItems_write next items steps rest writable.2 (by omega)
    have comma : isBlank ',' = false := rfl
    rw [written, readItems, first]
    simp [skipBlanks_cons comma, others]

theorem readMembers_write : ∀ (member : Option String × Json)
    (members : List (Option String × Json)) (steps : Nat) (rest : List Char),
    WritableMembers (member :: members) → (writeMembers (member :: members)).length < steps →
      readMembers steps (writeMembers (member :: members) ++ '\x7d' :: rest) =
        some (member :: members, rest)
  | member, members, 0, rest, writable, enough => by cases enough
  | (key, value), [], steps + 1, rest, writable, enough => by
    obtain ⟨key, rfl⟩ := Option.isSome_iff_exists.mp writable.1
    have written : writeMembers [(some key, value)] ++ '\x7d' :: rest =
        '"' :: (key.toList.flatMap escape ++ '"' :: ':' :: (value.write ++ '\x7d' :: rest)) := by
      simp [writeMembers, writeString]
    have fewer : value.write.length ≤ steps := by
      simp [writeMembers] at enough
      omega
    have first := readValue_write value steps ('\x7d' :: rest) writable.2.1 (stops_brace rest) fewer
    have quote : isBlank '"' = false := rfl
    have colon : isBlank ':' = false := rfl
    have close : isBlank '\x7d' = false := rfl
    rw [readMembers, written, skipBlanks_cons quote]
    simp [readString_flatMap, skipBlanks_cons colon, first, skipBlanks_cons close]
  | (key, value), next :: members, steps + 1, rest, writable, enough => by
    obtain ⟨key, rfl⟩ := Option.isSome_iff_exists.mp writable.1
    have written : writeMembers ((some key, value) :: next :: members) ++ '\x7d' :: rest =
        '"' :: (key.toList.flatMap escape ++ '"' :: ':' ::
          (value.write ++ ',' :: (writeMembers (next :: members) ++ '\x7d' :: rest))) := by
      simp [writeMembers, writeString]
    have lengths : value.write.length + (writeMembers (next :: members)).length + 1 ≤
        (writeMembers ((some key, value) :: next :: members)).length := by
      simp [writeMembers]
      omega
    have first := readValue_write value steps
      (',' :: (writeMembers (next :: members) ++ '\x7d' :: rest)) writable.2.1 (stops_comma _)
      (by omega)
    have others := readMembers_write next members steps rest writable.2.2 (by omega)
    have quote : isBlank '"' = false := rfl
    have colon : isBlank ':' = false := rfl
    have comma : isBlank ',' = false := rfl
    rw [readMembers, written, skipBlanks_cons quote]
    simp [readString_flatMap, skipBlanks_cons colon, first, skipBlanks_cons comma, others]

end

theorem read_render {value : Json} (writable : value.Writable) :
    read value.render = some value := by
  have first := readValue_write value (2 * value.write.length + 2) [] writable
    (fun c head => by cases head) (by omega)
  rw [List.append_nil] at first
  unfold read render
  rw [String.toList_ofList]
  dsimp only
  rw [first]
  rfl

end Json

end PaymentFees
