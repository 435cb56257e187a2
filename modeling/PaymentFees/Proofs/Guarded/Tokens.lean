import PaymentFees.Proofs.Guarded.Words

namespace PaymentFees.Guarded

open Octets Formula Numeral

structure Entry where
  start : Nat
  token : Option Token
  deriving DecidableEq, Repr

def entries (finish : Nat) (lexemes : List Lexeme) : List Entry :=
  lexemes.map (fun lexeme => ⟨lexeme.start, some lexeme.token⟩) ++ [⟨finish, none⟩]

section

variable (text : String)

/-- Whether the byte at a place is that of a character with the property. -/
def looks (p : Char → Bool) (i : Nat) : Bool := (shown text i).head?.any p

def runStop (p : Char → Bool) (i : Nat) : Nat := i + ((shown text i).takeWhile p).length

def scaleStop (i : Nat) : Guarded Nat :=
  if looks text startsScale i then
    let digits := if looks text isSign (i + 1) then i + 2 else i + 1
    let stop := runStop text Char.isDigit digits
    if stop = digits then throw (.malformed i .malformedExponent) else pure stop
  else pure i

/-- Where the digits of a number end, with a point among them or none; whether there are none. -/
def digitsAt (i : Nat) : Nat × Bool :=
  let whole := runStop text Char.isDigit i
  if looks text (· == '.') whole then
    let fraction := runStop text Char.isDigit (whole + 1)
    (fraction, whole - i == 0 && fraction - whole - 1 == 0)
  else (whole, whole - i == 0)

def numberAt (i : Nat) : Guarded (Float × Nat) := do
  let (mantissa, empty) := digitsAt text i
  if empty then throw (.malformed i (.strayCharacter '.'))
  else
    let stop ← scaleStop text mantissa
    if looks text (fun c => continuesName c || c == '.') stop then
      throw (.malformed stop .malformedNumber)
    else
      let literal ← need (decode? text i stop)
      let numeral ← need (Numeral.ofText? literal.toList)
      return (numeral.decimal.nearest, stop)

def tokenAt (i : Nat) : Guarded (Token × Nat) := do
  match ← need (shown text i).head? with
  | '+' => return (.plus, i + 1)
  | '-' => return (.minus, i + 1)
  | '*' => return if looks text (· == '*') (i + 1) then (.caret, i + 2) else (.star, i + 1)
  | '/' => return (.slash, i + 1)
  | '^' => return (.caret, i + 1)
  | '(' => return (.openParen, i + 1)
  | ')' => return (.closeParen, i + 1)
  | ',' => return (.comma, i + 1)
  | c =>
    if c.isDigit || c == '.' then
      let (value, stop) ← numberAt text i
      return (.number value, stop)
    else if startsName c then
      let stop := runStop text continuesName i
      return (.name (← need (slice? text i stop)), stop)
    else
      let tail ← need (slice? text i text.utf8ByteSize)
      throw (.malformed i (.strayCharacter (tail.toList.head?.getD '?')))

def entriesFrom : Nat → Nat → Guarded (List Entry)
  | 0, i => if i < text.utf8ByteSize then need none else return [⟨text.utf8ByteSize, none⟩]
  | turns + 1, i =>
    if i < text.utf8ByteSize then
      if looks text isBlank i then entriesFrom turns (i + 1)
      else do
        let (token, stop) ← tokenAt text i
        return ⟨i, some token⟩ :: (← entriesFrom turns stop)
    else return [⟨text.utf8ByteSize, none⟩]

def split : Guarded (List Entry) := entriesFrom text text.utf8ByteSize 0

end

section

variable {text : String} {i : Nat} {rest : List Char}

theorem looks_eq {p : Char → Bool} (ascii : Ascii p) (here : At text i rest) :
    looks text p i = rest.head?.any p := here.any_head?_shown ascii

theorem runStop_eq {p : Char → Bool} (ascii : Ascii p) {run : List Char}
    (here : At text i (run ++ rest)) (all : ∀ c ∈ run, p c = true)
    (stop : ∀ c ∈ rest.head?, p c = false) : runStop text p i = i + run.length := by
  rw [runStop, here.takeWhile_shown ascii, takeWhile_run all stop]

theorem scaleStop_eq (here : At text i rest) :
    scaleStop text i = answer ((readScale i rest).map fun (_, last) =>
      i + (rest.length - last.length)) := by
  simp only [scaleStop, looks_eq ascii_startsScale here]
  cases rest with
  | nil => simp [readScale, Except.map]
  | cons letter tail =>
    cases power : startsScale letter with
    | false => simp [readScale, power, Except.map]
    | true =>
      obtain ⟨sign, digits, last, scale⟩ := exists_scale tail
      have after : At text (i + 1) tail := here.next (ascii_startsScale letter power)
      have start : (if looks text isSign (i + 1) then i + 2 else i + 1) = i + 1 + sign.length := by
        rw [looks_eq ascii_sign after]
        rcases scale.signs with ⟨rfl, unsigned⟩ | rfl | rfl
        · have none : tail.head?.any isSign = false := by
            cases first : tail.head? <;> simp_all
          simp [none]
        · simp [scale.parts, isSign]
        · simp [scale.parts, isSign]
      have front : At text (i + 1 + sign.length) (digits ++ last) := by
        rw [scale.parts] at after
        refine after.skip_ascii ?_
        rcases scale.signs with ⟨rfl, -⟩ | rfl | rfl <;> simp
      have stop := runStop_eq ascii_digit front scale.digits scale.last
      have size : (letter :: tail).length = 1 + sign.length + digits.length + last.length := by
        simp [scale.parts]
        omega
      simp only [Option.any_some, List.head?_cons, power, if_true, start, stop, readScale,
        scale.readExponent_eq]
      by_cases empty : digits = []
      · simp [empty, Except.map]
      · have some : 0 < digits.length := List.length_pos_iff.mpr empty
        have other : i + 1 + sign.length + digits.length ≠ i + 1 + sign.length := by omega
        rw [if_neg other, if_neg empty]
        simp only [Except.map, pure_eq, size]
        congr 2
        omega

theorem digitsAt_eq {whole point fraction after : List Char} (here : At text i rest)
    (mantissa : Mantissa rest whole point fraction after) :
    digitsAt text i = (i + (rest.length - after.length), whole.isEmpty && fraction.isEmpty) ∧
      At text (i + (rest.length - after.length)) after := by
  obtain ⟨rfl, digits, places, stops, ends, pointed⟩ := mantissa
  have front : At text (i + whole.length) (point ++ (fraction ++ after)) :=
    here.skip_ascii fun c present => digit_ascii (digits c present)
  have none (cs : List Char) : (cs.length == 0) = cs.isEmpty := by cases cs <;> rfl
  simp only [digitsAt, runStop_eq ascii_digit here digits stops, looks_eq ascii_point front,
    Nat.add_sub_cancel_left, none]
  rcases pointed with ⟨rfl, rfl, unpointed⟩ | rfl
  · have plain : after.head?.any (· == '.') = false := by
      cases first : after.head? <;> simp_all
    simp only [List.nil_append] at front ⊢
    simp [plain, front]
  · have behind : At text (i + whole.length + 1) (fraction ++ after) := front.next (by decide)
    have last := behind.skip_ascii fun c present => digit_ascii (places c present)
    have size : (whole ++ (['.'] ++ (fraction ++ after))).length - after.length =
        whole.length + 1 + fraction.length := by
      simp
      omega
    have digitsOnly : i + whole.length + 1 + fraction.length - (i + whole.length) - 1 =
        fraction.length := by omega
    rw [size, runStop_eq ascii_digit behind places ends, digitsOnly, none,
      show i + (whole.length + 1 + fraction.length) = i + whole.length + 1 + fraction.length by
        omega]
    exact ⟨rfl, last⟩

theorem numberAt_eq (here : At text i rest) :
    numberAt text i = answer ((readNumber i rest).map fun (n, taken) =>
      (n.decimal.nearest, i + taken)) := by
  obtain ⟨whole, point, fraction, after, mantissa⟩ := exists_mantissa rest
  obtain ⟨digits, behind⟩ := digitsAt_eq here mantissa
  have read := mantissa.readNumber_eq i
  simp only [numberAt, digits, scaleStop_eq behind]
  split at read
  · next empty =>
    rw [read, empty]
    rfl
  · next some =>
    rw [if_neg some]
    cases scaled : readScale (i + (rest.length - after.length)) after with
    | error fault =>
      rw [scaled] at read
      rw [read]
      rfl
    | ok parts =>
      obtain ⟨exponent, last⟩ := parts
      obtain ⟨scale, rfl, power⟩ := readScale_ok scaled
      rw [scaled] at read
      have size := congrArg List.length mantissa.parts
      simp only [List.length_append] at size
      have stop : i + (rest.length - (scale ++ last).length) +
          ((scale ++ last).length - last.length) = i + (rest.length - last.length) := by
        simp only [List.length_append]
        omega
      have ends : At text (i + (rest.length - last.length)) last := by
        have next := behind.skip_ascii power.ascii
        rwa [show i + (rest.length - (scale ++ last).length) + scale.length =
          i + (rest.length - last.length) by simp only [List.length_append]; omega] at next
      change readNumber i rest = (if _ then _ else _) at read
      simp only [Except.map, answer_ok_bind, stop, looks_eq ascii_goesOn ends]
      split at read
      · next goesOn =>
        rw [read, if_pos goesOn]
        rfl
      · next apart =>
        obtain ⟨literal, others, same, taken, spelled, -⟩ := readNumber_ok read
        have bytes := (same ▸ here).decode?
        rw [width_ascii spelled.ascii, ← taken] at bytes
        simp only [if_neg apart, read, bytes, need_some, answer_ok_bind, String.toList_ofList,
          spelled.ofText?]
        rfl

theorem tokenAt_unmarked {c : Char} (byte : (shown text i).head? = some c) (other : c ∉ marks) :
    tokenAt text i =
      if c.isDigit || c == '.' then do
        let (value, stop) ← numberAt text i
        return (.number value, stop)
      else if startsName c then do
        let name ← need (slice? text i (runStop text continuesName i))
        return (.name name, runStop text continuesName i)
      else
        need (slice? text i text.utf8ByteSize) >>= fun tail =>
          throw (.malformed i (.strayCharacter (tail.toList.head?.getD '?'))) := by
  simp only [tokenAt, byte, need_some, answer_ok_bind]
  split <;> simp_all [marks]

theorem numberToken_eq {c : Char} (here : At text i (c :: rest)) :
    (do
      let (value, stop) ← numberAt text i
      return (.number value, stop) : Guarded (Token × Nat)) =
      answer (Except.map (fun (token, more) => (token, i + 1 + more)) do
        let (numeral, taken) ← readNumber i (c :: rest)
        return (.number numeral.decimal.nearest, taken - 1)) := by
  rw [numberAt_eq here]
  cases read : readNumber i (c :: rest) with
  | error fault => rfl
  | ok number =>
    obtain ⟨n, taken⟩ := number
    obtain ⟨literal, others, -, rfl, spelled, -⟩ := readNumber_ok read
    have some := List.length_pos_iff.mpr spelled.ne_nil
    have place : i + 1 + (literal.length - 1) = i + literal.length := by omega
    change answer _ = answer (.ok (_, i + 1 + (literal.length - 1)))
    rw [place]

theorem slice?_name {c : Char} (here : At text i (c :: rest)) (first : startsName c = true) :
    let more := rest.takeWhile continuesName
    runStop text continuesName i = i + 1 + more.length ∧
      slice? text i (i + 1 + more.length) = some (String.ofList (c :: more)) := by
  obtain ⟨more, last, rfl, all, stop⟩ := exists_span continuesName rest
  have name : ∀ d ∈ c :: more, continuesName d = true :=
    List.forall_mem_cons.mpr ⟨startsName_continuesName first, all⟩
  have whole : At text i ((c :: more) ++ last) := here
  have place : i + (c :: more).length = i + 1 + more.length := by
    simp
    omega
  have sliced := whole.slice?
  rw [width_ascii fun d present => ascii_continuesName d (name d present), place] at sliced
  rw [takeWhile_run all stop]
  exact ⟨(runStop_eq ascii_continuesName whole name stop).trans place, sliced⟩

theorem slice?_tail {c : Char} (here : At text i (c :: rest)) :
    slice? text i text.utf8ByteSize = some (String.ofList (c :: rest)) := by
  have whole : At text i ((c :: rest) ++ []) := by rwa [List.append_nil]
  rw [← here.size_eq]
  exact whole.slice?

theorem tokenAt_eq {c : Char} (here : At text i (c :: rest)) :
    tokenAt text i = answer ((readToken i c rest).map fun (token, more) =>
      (token, i + 1 + more)) := by
  rcases utf8EncodeChar_cases c with ⟨small, single⟩ | ⟨b, bs, large, byte, several⟩
  · have byte : (shown text i).head? = some c := by simp [here.shown, single]
    by_cases mark : c ∈ marks
    · have next : At text (i + 1) rest := here.next small
      have star : looks text (· == '*') (i + 1) = (rest.head? == some '*') := by
        rw [looks_eq (ascii_beq (by decide)) next]
        cases rest <;> simp
      simp only [marks, List.mem_cons, List.not_mem_nil, or_false] at mark
      rcases mark with rfl | rfl | rfl | rfl | rfl | rfl | rfl | rfl <;>
        simp [tokenAt, byte, readToken, star, Except.map]
      split <;> rfl
    · rw [tokenAt_unmarked byte mark, readToken_unmarked mark]
      split
      · exact numberToken_eq here
      · split
        · next first =>
          obtain ⟨stop, sliced⟩ := slice?_name here first
          simp [stop, sliced, Except.map]
        · simp [slice?_tail here, Except.map]
  · have first : (shown text i).head? = some b := by simp [here.shown, several]
    have other {d : Char} (large : 128 ≤ d.toNat) : d ∉ marks :=
      fun mark => absurd (ascii_marks d mark) (by omega)
    have number := ascii_digit.or ascii_point
    rw [tokenAt_unmarked first (other byte), readToken_unmarked (other large)]
    simp [number.outside byte, number.outside large, ascii_startsName.outside byte,
      ascii_startsName.outside large, slice?_tail here, Except.map]

end

@[simp] theorem entries_nil (finish : Nat) : entries finish [] = [⟨finish, none⟩] := rfl

theorem entriesFrom_eq {text : String} (turns : Nat) {i : Nat} {rest : List Char}
    (here : At text i rest) (enough : rest.length ≤ turns) :
    entriesFrom text turns i = answer ((scan i rest).map (entries text.utf8ByteSize)) := by
  induction turns generalizing i rest with
  | zero =>
    obtain rfl : rest = [] := List.length_eq_zero_iff.mp (Nat.le_zero.mp enough)
    have last : i = text.utf8ByteSize := here.size_eq
    simp [entriesFrom, last, scan, Except.map]
  | succ turns ih =>
    cases rest with
    | nil =>
      have last : i = text.utf8ByteSize := here.size_eq
      simp [entriesFrom, last, scan, Except.map]
    | cons c rest =>
      have inside : i < text.utf8ByteSize := by
        have size := here.size_eq
        have some := length_le_width (c :: rest)
        simp only [List.length_cons] at some
        omega
      have fewer : rest.length ≤ turns := Nat.le_of_succ_le_succ enough
      have first : looks text isBlank i = isBlank c := looks_eq ascii_isBlank here
      rw [entriesFrom, if_pos inside, first, scan]
      by_cases blank : isBlank c = true
      · rw [if_pos blank, if_pos blank]
        exact ih (here.next (ascii_isBlank c blank)) fewer
      · rw [if_neg blank, if_neg blank, tokenAt_eq here]
        cases read : readToken i c rest with
        | error fault => rfl
        | ok found =>
          obtain ⟨token, more⟩ := found
          obtain ⟨taken, last, rfl, rfl, spells, -⟩ := readToken_ok read
          have after : At text (i + 1 + taken.length) last := by
            have next : At text (i + (c :: taken).length) last := here.skip_ascii spells.ascii
            rwa [List.length_cons, Nat.add_comm taken.length, ← Nat.add_assoc] at next
          have room : last.length ≤ turns := by
            rw [List.length_append] at fewer
            omega
          simp only [Except.map, answer_ok_bind, ih after room, ok_bind, List.drop_left]
          cases scan (i + 1 + taken.length) last <;> rfl

/-- No text of whatever length is split in the middle of a character or past its end. -/
theorem split_eq (text : String) :
    split text = answer ((scan 0 text.toList).map (entries text.utf8ByteSize)) := by
  have size := (at_zero text).size_eq
  have enough := length_le_width text.toList
  exact entriesFrom_eq _ (at_zero text) (by omega)

-- A character of two bytes is one stray character.
example : split "x é" = answer (.error (.malformed 2 (.strayCharacter 'é'))) := by rfl

theorem readNumber_error {offset place : Nat} {text : List Char} {why : SyntaxFault}
    (failed : readNumber offset text = .error (.malformed place why)) :
    place ≤ offset + text.length := by
  obtain ⟨whole, point, fraction, after, mantissa⟩ := exists_mantissa text
  rw [mantissa.readNumber_eq] at failed
  split at failed
  · cases failed
    exact Nat.le_add_right ..
  · cases scaled : readScale (offset + (text.length - after.length)) after with
    | error fault =>
      rw [scaled] at failed
      cases failed
      cases after with
      | nil => cases scaled
      | cons letter tail =>
        simp only [readScale] at scaled
        split at scaled
        · split at scaled <;> cases scaled
          omega
        · cases scaled
    | ok parts =>
      rw [scaled] at failed
      change (if _ then _ else _ : Except FormulaError (Numeral × Nat)) = _ at failed
      split at failed <;> cases failed
      omega

theorem readToken_error {offset place : Nat} {c : Char} {rest : List Char} {why : SyntaxFault}
    (failed : readToken offset c rest = .error (.malformed place why)) :
    place ≤ offset + (c :: rest).length := by
  by_cases mark : c ∈ marks
  · simp only [marks, List.mem_cons, List.not_mem_nil, or_false] at mark
    rcases mark with rfl | rfl | rfl | rfl | rfl | rfl | rfl | rfl <;> cases failed
  · rw [readToken_unmarked mark] at failed
    split at failed
    · rcases bind_eq_error.mp failed with read | ⟨number, -, failed⟩
      · exact readNumber_error read
      · cases failed
    · split at failed <;> cases failed
      exact Nat.le_add_right ..

theorem scan_ok {offset : Nat} {text : List Char} {lexemes : List Lexeme}
    (scanned : scan offset text = .ok lexemes) :
    lexemes.length ≤ text.length ∧ ∀ lexeme ∈ lexemes, lexeme.start ≤ offset + text.length := by
  induction offset, text using scan.induct generalizing lexemes with
  | case1 offset =>
    rw [scan] at scanned
    cases scanned
    simp
  | case2 offset c rest blank ih =>
    rw [scan, if_pos blank] at scanned
    obtain ⟨fewer, places⟩ := ih scanned
    simp only [List.length_cons]
    exact ⟨by omega, fun lexeme present => by have := places lexeme present; omega⟩
  | case3 offset c rest visible ih =>
    rw [scan, if_neg visible] at scanned
    obtain ⟨⟨token, more⟩, read, scanned⟩ := bind_eq_ok.mp scanned
    obtain ⟨others, later, same⟩ := bind_eq_ok.mp scanned
    cases same
    obtain ⟨taken, last, rfl, rfl, -⟩ := readToken_ok read
    obtain ⟨fewer, places⟩ := ih taken.length later
    simp only [List.drop_left, List.length_cons, List.length_append, List.forall_mem_cons] at *
    exact ⟨by omega, by omega, fun lexeme present => by have := places lexeme present; omega⟩

theorem scan_error {offset place : Nat} {text : List Char} {why : SyntaxFault}
    (failed : scan offset text = .error (.malformed place why)) :
    place ≤ offset + text.length := by
  induction offset, text using scan.induct with
  | case1 offset =>
    rw [scan] at failed
    cases failed
  | case2 offset c rest blank ih =>
    rw [scan, if_pos blank] at failed
    have := ih failed
    rw [List.length_cons]
    omega
  | case3 offset c rest visible ih =>
    rw [scan, if_neg visible] at failed
    rcases bind_eq_error.mp failed with here | ⟨⟨token, more⟩, read, failed⟩
    · exact readToken_error here
    obtain ⟨taken, last, rfl, rfl, -⟩ := readToken_ok read
    rcases bind_eq_error.mp failed with later | ⟨others, -, failed⟩
    · have := ih taken.length later
      simp only [List.drop_left, List.length_cons, List.length_append] at this ⊢
      omega
    · cases failed

end PaymentFees.Guarded
