import PaymentFees.Proofs.Grammar.Derivation

namespace PaymentFees.Formula

section

variable (finish : Nat)

def reader (left : Nat) : Rank → Reads Expr
  | .atom => readAtom finish (levels finish left)
  | .power => readPower finish (levels finish left)
  | .signed => readSigned finish (levels finish left)
  | .chain .product => readChain productOperator (readSigned finish (levels finish left))
  | .chain .sum =>
    readChain sumOperator (readChain productOperator (readSigned finish (levels finish left)))

theorem reader_chain (left : Nat) (kind : ChainKind) :
    reader finish left (.chain kind) =
      readChain kind.operator (reader finish left kind.operand) := by
  cases kind <;> rfl

theorem enter_levels (left : Nat) (lexemes : List Lexeme) :
    enter finish (levels finish (left + 1)) lexemes =
      .ok ⟨reader finish left .signed, reader finish left (.chain .sum)⟩ := rfl

/-- What it is to read a phrase with a value off the front of the lexemes. -/
def Accepts (left : Nat) : (s : Symbol) → s.Value → List Lexeme → List Lexeme → Prop
  | .expression rank, tree, lexemes, following =>
    reader finish left rank lexemes = .ok (tree, following)
  | .tail kind, complete, lexemes, following =>
    ∀ tree turns, lexemes.length ≤ turns →
      readOperators kind.operator (reader finish left kind.operand) turns tree lexemes =
        .ok (complete tree, following)
  | .operands 0, _, lexemes, following => lexemes = following
  | .operands (_ + 1), trees, lexemes, following =>
    ∀ turns, lexemes.length ≤ turns →
      readOperands (reader finish left (.chain .sum)) turns lexemes = .ok (trees, following)

variable {finish}

theorem nextToken_eq_head? (lexemes : List Lexeme) :
    nextToken lexemes = (lexemes.map (·.token)).head? := by
  simp [nextToken]

theorem nextToken_ne {lexemes : List Lexeme} {s : Symbol} {token : Token}
    (ends : Ends s (lexemes.map (·.token))) (goesOn : token.reach ≤ s.reach) :
    nextToken lexemes ≠ some token := by
  intro next
  rw [nextToken_eq_head?] at next
  exact absurd (ends token next) (Nat.not_lt.mpr goesOn)

theorem operator_none {kind : ChainKind} {lexemes : List Lexeme}
    (ends : Ends (.tail kind) (lexemes.map (·.token))) :
    lexemes.head?.bind (kind.operator ·.token) = none := by
  cases lexemes with
  | nil => rfl
  | cons lexeme lexemes =>
    simp only [List.map_cons, ends_cons] at ends
    cases named : kind.operator lexeme.token with
    | none => simpa using named
    | some op => exact absurd (ChainKind.operator_reach named) (Nat.ne_of_gt ends)

theorem exists_deeper {depth left : Nat} (shallow : depth + 1 ≤ left) :
    ∃ deeper, left = deeper + 1 ∧ depth ≤ deeper :=
  ⟨left - 1, by omega, by omega⟩

theorem ok_bind {α β : Type} (value : α) (next : α → Except FormulaError β) :
    ((.ok value : Except FormulaError α) >>= next) = next value := rfl

theorem readOperands_last {operand : Reads Expr} {tree : Expr} {lexemes following : List Lexeme}
    (turns : Nat) (reads : operand lexemes = .ok (tree, following))
    (noComma : nextToken following ≠ some .comma) :
    readOperands operand turns lexemes = .ok ([tree], following) := by
  cases turns with
  | zero => simp [readOperands, reads, ok_bind, pure, Except.pure]
  | succ turns => simp [readOperands, reads, ok_bind, noComma, pure, Except.pure]

theorem readClosing_cons {closing : Lexeme} (close : closing.token = .closeParen)
    (following : List Lexeme) : readClosing finish (closing :: following) = .ok following :=
  if_pos (congrArg some close)

theorem Derivation.readCall {function : Function} {left count : Nat}
    (arguments : Derivation (.operands count)) (accepted : function.arity.accepts count = true)
    {lexemes following : List Lexeme} (same : lexemes.map (·.token) = arguments.tokens)
    {closing : Lexeme} (close : closing.token = .closeParen)
    (reads : Accepts finish left (.operands count) arguments.tree
      (lexemes ++ closing :: following) (closing :: following)) :
    Formula.readCall finish (levels finish (left + 1)) function.name
      (lexemes ++ closing :: following) = .ok (.call function arguments.tree, following) := by
  simp only [Formula.readCall, ofName?_name, enter_levels, ok_bind]
  cases count with
  | zero =>
    cases arguments
    rw [tokens, List.map_eq_nil_iff] at same
    subst same
    have next : nextToken (closing :: following) = some .closeParen := congrArg some close
    rw [List.nil_append, if_pos next, pure_bind, readClosing_cons close, ok_bind, List.length_nil,
      if_pos accepted]
    rfl
  | succ count =>
    -- No argument starts with the bracket that closes a call.
    have opens : nextToken (lexemes ++ closing :: following) ≠ some .closeParen := by
      rw [nextToken_eq_head?, List.map_append, same, Ne, List.head?_eq_some_iff]
      rintro ⟨others, closes⟩
      exact not_closed arguments closes
    rw [if_neg opens, reads _ (Nat.le_refl _), ok_bind, readClosing_cons close, ok_bind,
      arguments.tree_length, if_pos accepted]
    rfl

variable (finish) in
/-- Lexemes with these tokens are read as this derivation, whatever it does not go on with
follows. -/
def Readable {s : Symbol} (d : Derivation s) : Prop :=
  ∀ {left : Nat} {lexemes following : List Lexeme}, d.depth ≤ left →
    lexemes.map (·.token) = d.tokens → Ends s (following.map (·.token)) →
      Accepts finish left s d.tree (lexemes ++ following) following

theorem readable_chain {kind : ChainKind} {first : Derivation (.expression kind.operand)}
    {rest : Derivation (.tail kind)} (firstReads : Readable finish first)
    (restReads : Readable finish rest) :
    Readable finish (.chain first rest) := by
  intro left lexemes following shallow same ends
  obtain ⟨front, back, rfl, sameFront, sameBack⟩ := List.map_eq_append_iff.mp same
  have ⟨shallowFirst, shallowRest⟩ := Nat.max_le.mp shallow
  have firstEnds : Ends (.expression kind.operand) ((back ++ following).map (·.token)) := by
    rw [List.map_append, sameBack]
    exact ends_of_tail rest ends
  have first := firstReads shallowFirst sameFront firstEnds
  have rest := restReads shallowRest sameBack ends
  simp only [Accepts] at first rest ⊢
  simp only [reader_chain, readChain, List.append_assoc, first, ok_bind]
  exact rest _ _ (Nat.le_refl _)

theorem readable_step {kind : ChainKind} {token : Token} {op : BinaryOp}
    (named : kind.operator token = some op) {operand : Derivation (.expression kind.operand)}
    {rest : Derivation (.tail kind)} (operandReads : Readable finish operand)
    (restReads : Readable finish rest) :
    Readable finish (.step token op named operand rest) := by
  intro left lexemes following shallow same ends
  obtain ⟨lexeme, others, rfl, rfl, sameOthers⟩ := List.map_eq_cons_iff.mp same
  obtain ⟨front, back, rfl, sameFront, sameBack⟩ := List.map_eq_append_iff.mp sameOthers
  have ⟨shallowOperand, shallowRest⟩ := Nat.max_le.mp shallow
  have operandEnds : Ends (.expression kind.operand) ((back ++ following).map (·.token)) := by
    rw [List.map_append, sameBack]
    exact ends_of_tail rest ends
  have operand := operandReads shallowOperand sameFront operandEnds
  have rest := restReads shallowRest sameBack ends
  intro left turns enough
  cases turns with
  | zero => simp at enough
  | succ turns =>
    simp only [Accepts] at operand rest
    simp only [readOperators, List.cons_append, List.head?_cons, Option.bind_some, named,
      List.tail_cons, List.append_assoc, operand, ok_bind]
    apply rest
    simp only [List.length_append, List.length_cons] at enough ⊢
    omega

theorem readable_sign {token : Token} {op : UnaryOp} (named : unaryOperator token = some op)
    {operand : Derivation (.expression .signed)} (operandReads : Readable finish operand) :
    Readable finish (.sign token op named operand) := by
  intro left lexemes following shallow same ends
  obtain ⟨lexeme, others, rfl, rfl, sameOthers⟩ := List.map_eq_cons_iff.mp same
  obtain ⟨left, rfl, inside⟩ := exists_deeper shallow
  have operand := operandReads inside sameOthers ends
  simp only [Accepts] at operand ⊢
  rw [reader, readSigned]
  simp only [nextToken, named, enter_levels, operand, ok_bind, List.cons_append,
    List.head?_cons, Option.map_some, Option.bind_some, List.tail_cons]
  rfl

theorem readable_unsigned {operand : Derivation (.expression .power)}
    (operandReads : Readable finish operand) :
    Readable finish (.unsigned operand) := by
  intro left lexemes following shallow same ends
  obtain ⟨token, others, first, opens⟩ := operand.starts
  have operand := operandReads shallow same ends
  obtain ⟨lexeme, lexemes, rfl, rfl, -⟩ := List.map_eq_cons_iff.mp (same.trans first)
  simp only [Accepts, reader] at operand ⊢
  simp only [readSigned, List.cons_append, nextToken, List.head?_cons, Option.map_some,
    Option.bind_some, unaryOperator_of_opens opens]
  exact operand

theorem readable_raised {base : Derivation (.expression .atom)}
    {exponent : Derivation (.expression .signed)} (baseReads : Readable finish base)
    (exponentReads : Readable finish exponent) :
    Readable finish (.raised base exponent) := by
  intro left lexemes following shallow same ends
  obtain ⟨front, back, rfl, sameFront, sameBack⟩ := List.map_eq_append_iff.mp same
  obtain ⟨lexeme, others, rfl, caret, sameOthers⟩ := List.map_eq_cons_iff.mp sameBack
  have ⟨shallowBase, shallowExponent⟩ := Nat.max_le.mp shallow
  obtain ⟨left, rfl, inside⟩ := exists_deeper shallowExponent
  have baseEnds : Ends (.expression .atom) (((lexeme :: others) ++ following).map (·.token)) := by
    rw [List.cons_append, List.map_cons, caret, ends_cons]
    decide
  have base := baseReads shallowBase sameFront baseEnds
  have exponent := exponentReads inside sameOthers ends
  simp only [Accepts] at base exponent ⊢
  change readPower finish (levels finish (left + 1)) _ = _
  simp only [reader] at base
  simp only [readPower, List.append_assoc, base, ok_bind]
  simp only [List.cons_append, nextToken, List.head?_cons, Option.map_some, caret, if_true,
    List.tail_cons, enter_levels, ok_bind, exponent]
  rfl

theorem readable_var (name : Variable) :
    Readable finish (.var name) := by
  intro left lexemes following shallow same ends
  obtain ⟨⟨start, stop, token⟩, rfl, sameToken⟩ := List.map_eq_singleton_iff.mp same
  subst sameToken
  cases following with
  | nil => cases name <;> rfl
  | cons next following =>
    obtain ⟨nextStart, nextStop, token⟩ := next
    cases token with
    | openParen => exact absurd (ends_cons.mp ends) (Nat.lt_irrefl 0)
    | _ => cases name <;> rfl

theorem readable_call {function : Function} {count : Nat}
    {arguments : Derivation (.operands count)}
    (accepted : function.arity.accepts count = true)
    (argumentsRead : Readable finish arguments) :
    Readable finish (.call function arguments accepted) := by
  intro left lexemes following shallow same ends
  obtain ⟨⟨start, stop, token⟩, others, rfl, sameToken, sameOthers⟩ :=
    List.map_eq_cons_iff.mp same
  obtain ⟨⟨bracket, opened, opening⟩, others, rfl, sameOpening, sameArguments⟩ :=
    List.map_eq_cons_iff.mp sameOthers
  obtain ⟨front, back, rfl, sameFront, sameBack⟩ := List.map_eq_append_iff.mp sameArguments
  obtain ⟨closing, rfl, close⟩ := List.map_eq_singleton_iff.mp sameBack
  subst sameToken sameOpening
  obtain ⟨left, rfl, inside⟩ := exists_deeper shallow
  have argumentsEnds : Ends (.operands count) (([closing] ++ following).map (·.token)) := by
    rw [List.singleton_append, List.map_cons, close, ends_cons]
    exact Nat.lt_succ_self 4
  have reads := argumentsRead inside sameFront argumentsEnds
  simp only [List.cons_append, List.append_assoc, List.nil_append] at reads ⊢
  exact arguments.readCall accepted sameFront close reads

theorem readable_parenthesis {inner : Derivation .sum} (innerReads : Readable finish inner) :
    Readable finish (.parenthesis inner) := by
  intro left lexemes following shallow same ends
  obtain ⟨⟨start, stop, token⟩, others, rfl, sameToken, sameOthers⟩ :=
    List.map_eq_cons_iff.mp same
  obtain ⟨front, back, rfl, sameFront, sameBack⟩ := List.map_eq_append_iff.mp sameOthers
  obtain ⟨closing, rfl, close⟩ := List.map_eq_singleton_iff.mp sameBack
  subst sameToken
  obtain ⟨left, rfl, inside⟩ := exists_deeper shallow
  have innerEnds : Ends .sum (([closing] ++ following).map (·.token)) := by
    rw [List.singleton_append, List.map_cons, close, ends_cons]
    decide
  have reads := innerReads inside sameFront innerEnds
  simp only [Accepts, reader, List.cons_append, List.append_assoc] at reads ⊢
  simp only [readAtom, enter_levels, reader, reads, ok_bind, readClosing_cons close]
  rfl

theorem readable_more {count : Nat} {operand : Derivation .sum}
    {others : Derivation (.operands (count + 1))} (operandReads : Readable finish operand)
    (othersRead : Readable finish others) :
    Readable finish (.more operand others) := by
  intro left lexemes following shallow same ends
  obtain ⟨front, back, rfl, sameFront, sameBack⟩ := List.map_eq_append_iff.mp same
  obtain ⟨comma, back, rfl, sameComma, sameOthers⟩ := List.map_eq_cons_iff.mp sameBack
  have ⟨shallowOperand, shallowOthers⟩ := Nat.max_le.mp shallow
  have operandEnds : Ends .sum (((comma :: back) ++ following).map (·.token)) := by
    rw [List.cons_append, List.map_cons, sameComma, ends_cons]
    decide
  have reads := operandReads shallowOperand sameFront operandEnds
  have rest := othersRead shallowOthers sameOthers ends
  intro turns enough
  cases turns with
  | zero => simp at enough
  | succ turns =>
    simp only [Accepts] at reads rest
    simp only [readOperands, List.append_assoc, reads, ok_bind]
    simp only [List.cons_append, nextToken, List.head?_cons, Option.map_some, sameComma, if_true,
      List.tail_cons]
    rw [rest turns]
    · rfl
    · simp only [List.length_append, List.length_cons] at enough ⊢
      omega

theorem Derivation.readable {s : Symbol} (d : Derivation s) : Readable finish d := by
  induction d with
  | chain first rest firstReads restReads => exact readable_chain firstReads restReads
  | @stop kind =>
    intro left lexemes following shallow same ends
    rw [tokens, List.map_eq_nil_iff] at same
    subst same
    intro tree turns enough
    rw [List.nil_append] at enough ⊢
    cases turns with
    | zero => rfl
    | succ turns => simp only [readOperators, operator_none ends, Derivation.tree]
  | step token op named operand rest operandReads restReads =>
    exact readable_step named operandReads restReads
  | sign token op named operand operandReads => exact readable_sign named operandReads
  | unsigned operand operandReads => exact readable_unsigned operandReads
  | plain base baseReads =>
    intro left lexemes following shallow same ends
    have base := baseReads shallow same (ends.of_le (Nat.zero_le _))
    simp only [Accepts, reader] at base ⊢
    simp only [readPower, base, ok_bind]
    rw [if_neg (nextToken_ne ends (Nat.le_refl _))]
    rfl
  | raised base exponent baseReads exponentReads => exact readable_raised baseReads exponentReads
  | number value =>
    intro left lexemes following shallow same ends
    obtain ⟨lexeme, rfl, token⟩ := List.map_eq_singleton_iff.mp same
    obtain ⟨start, stop, token⟩ := lexeme
    subst token
    rfl
  | var name => exact readable_var name
  | call function arguments accepted argumentsRead => exact readable_call accepted argumentsRead
  | parenthesis inner innerReads => exact readable_parenthesis innerReads
  | nothing =>
    intro left lexemes following shallow same ends
    rw [tokens, List.map_eq_nil_iff] at same
    exact congrArg (· ++ following) same
  | last operand operandReads =>
    intro left lexemes following shallow same ends
    have reads := operandReads shallow same (ends.of_le (by decide))
    intro turns enough
    exact readOperands_last turns reads (nextToken_ne ends (Nat.le_refl _))
  | more operand others operandReads othersRead => exact readable_more operandReads othersRead

theorem Derivation.accepts {s : Symbol} (d : Derivation s) {left : Nat} (shallow : d.depth ≤ left)
    {lexemes following : List Lexeme} (same : lexemes.map (·.token) = d.tokens)
    (ends : Ends s (following.map (·.token))) :
    Accepts finish left s d.tree (lexemes ++ following) following :=
  d.readable shallow same ends

theorem bind_eq_ok {α β : Type} {x : Except FormulaError α} {next : α → Except FormulaError β}
    {value : β} : x >>= next = .ok value ↔ ∃ first, x = .ok first ∧ next first = .ok value := by
  cases x with
  | error error => simp [bind, Except.bind]
  | ok first => simp [ok_bind]

theorem bind_eq_error {α β : Type} {x : Except FormulaError α} {next : α → Except FormulaError β}
    {fault : FormulaError} : x >>= next = .error fault ↔
      x = .error fault ∨ ∃ first, x = .ok first ∧ next first = .error fault := by
  cases x with
  | error error => simp [bind, Except.bind]
  | ok first => simp [ok_bind]

def Derived (left : Nat) (s : Symbol) (holds : s.Value → Prop)
    (lexemes following : List Lexeme) : Prop :=
  ∃ (d : Derivation s) (read : List Lexeme), lexemes = read ++ following ∧
    read.map (·.token) = d.tokens ∧ d.depth ≤ left ∧ holds d.tree

theorem enter_ok {left : Nat} {lexemes : List Lexeme} {level : Level}
    (entered : enter finish (levels finish left) lexemes = .ok level) :
    ∃ deeper, left = deeper + 1 ∧
      level = ⟨reader finish deeper .signed, reader finish deeper (.chain .sum)⟩ := by
  cases left with
  | zero => cases entered
  | succ deeper => exact ⟨deeper, rfl, (Except.ok.inj entered).symm⟩

theorem readClosing_ok {lexemes following : List Lexeme}
    (closed : readClosing finish lexemes = .ok following) :
    ∃ closing, lexemes = closing :: following ∧ closing.token = .closeParen := by
  unfold readClosing at closed
  split at closed
  · next close =>
    cases lexemes with
    | nil => cases close
    | cons closing following => exact ⟨closing, by cases closed; rfl, Option.some.inj close⟩
  · cases closed

theorem variableNamed_ok {name : String} {tree : Expr} (named : variableNamed name = .ok tree) :
    ∃ v : Variable, name = v.name ∧ tree = .var v := by
  unfold variableNamed at named
  split at named
  · next x => exact ⟨.x, x, (Except.ok.inj named).symm⟩
  · split at named
    · next y => exact ⟨.y, y, (Except.ok.inj named).symm⟩
    · cases named

def Sound (finish left : Nat) (rank : Rank) : Prop :=
  ∀ {lexemes following : List Lexeme} {tree : Expr},
    reader finish left rank lexemes = .ok (tree, following) →
      Derived left (.expression rank) (· = tree) lexemes following

theorem derived_operators {left : Nat} {kind : ChainKind} (sound : Sound finish left kind.operand)
    (turns : Nat) {tree result : Expr} {lexemes following : List Lexeme}
    (reads : readOperators kind.operator (reader finish left kind.operand) turns tree lexemes =
      .ok (result, following)) :
    Derived left (.tail kind) (· tree = result) lexemes following := by
  induction turns generalizing tree lexemes with
  | zero =>
    cases reads
    exact ⟨.stop, [], rfl, rfl, Nat.zero_le _, rfl⟩
  | succ turns ih =>
    rw [readOperators] at reads
    split at reads
    · cases reads
      exact ⟨.stop, [], rfl, rfl, Nat.zero_le _, rfl⟩
    · next op named =>
      obtain ⟨lexeme, first, named⟩ := Option.bind_eq_some_iff.mp named
      obtain ⟨others, rfl⟩ := List.head?_eq_some_iff.mp first
      obtain ⟨⟨operand, rest⟩, operandReads, restReads⟩ := bind_eq_ok.mp reads
      obtain ⟨d, read, same, tokens, shallow, rfl⟩ := sound operandReads
      obtain ⟨tail, tailRead, sameTail, tailTokens, tailShallow, holds⟩ := ih restReads
      dsimp only [List.tail_cons] at same
      subst same sameTail
      refine ⟨.step lexeme.token op named d tail, lexeme :: (read ++ tailRead), by simp, ?_,
        Nat.max_le.mpr ⟨shallow, tailShallow⟩, holds⟩
      simp [tokens, tailTokens]

theorem sound_chain {left : Nat} {kind : ChainKind} (sound : Sound finish left kind.operand) :
    Sound finish left (.chain kind) := by
  intro lexemes following tree reads
  rw [reader_chain, readChain] at reads
  obtain ⟨⟨first, rest⟩, firstReads, restReads⟩ := bind_eq_ok.mp reads
  obtain ⟨d, read, same, tokens, shallow, rfl⟩ := sound firstReads
  obtain ⟨tail, tailRead, sameTail, tailTokens, tailShallow, rfl⟩ :=
    derived_operators sound _ restReads
  subst same sameTail
  refine ⟨.chain d tail, read ++ tailRead, by simp, ?_, Nat.max_le.mpr ⟨shallow, tailShallow⟩, rfl⟩
  simp [tokens, tailTokens]

theorem derived_operands {left : Nat} (sound : Sound finish left (.chain .sum)) (turns : Nat)
    {trees : List Expr} {lexemes following : List Lexeme}
    (reads : readOperands (reader finish left (.chain .sum)) turns lexemes =
      .ok (trees, following)) :
    ∃ count, Derived left (.operands (count + 1)) (· = trees) lexemes following := by
  induction turns generalizing trees lexemes with
  | zero =>
    rw [readOperands] at reads
    obtain ⟨⟨only, rest⟩, onlyReads, same⟩ := bind_eq_ok.mp reads
    cases same
    obtain ⟨d, read, same, tokens, shallow, rfl⟩ := sound onlyReads
    exact ⟨0, .last d, read, same, tokens, shallow, rfl⟩
  | succ turns ih =>
    rw [readOperands] at reads
    obtain ⟨⟨first, rest⟩, firstReads, restReads⟩ := bind_eq_ok.mp reads
    obtain ⟨d, read, same, tokens, shallow, rfl⟩ := sound firstReads
    dsimp only at restReads
    split at restReads
    · next comma =>
      obtain ⟨⟨others, last⟩, othersRead, same⟩ := bind_eq_ok.mp restReads
      cases same
      obtain ⟨count, ds, dsRead, sameOthers, othersTokens, othersShallow, rfl⟩ := ih othersRead
      cases rest with
      | nil => cases comma
      | cons lexeme rest =>
        dsimp only [List.tail_cons] at sameOthers
        subst same sameOthers
        refine ⟨count + 1, .more d ds, read ++ lexeme :: dsRead, by simp, ?_,
          Nat.max_le.mpr ⟨shallow, othersShallow⟩, rfl⟩
        simp [tokens, othersTokens, Option.some.inj comma]
    · cases restReads
      exact ⟨0, .last d, read, same, tokens, shallow, rfl⟩

section

variable {left : Nat} (deeper : ∀ below, left = below + 1 → ∀ rank, Sound finish below rank)
include deeper

theorem derived_call {start stop opening opened : Nat} {name : String}
    {lexemes following : List Lexeme} {tree : Expr}
    (reads : readCall finish (levels finish left) name lexemes = .ok (tree, following)) :
    Derived left (.expression .atom) (· = tree)
      (⟨start, stop, .name name⟩ :: ⟨opening, opened, .openParen⟩ :: lexemes) following := by
  unfold readCall at reads
  split at reads
  · cases reads
  next function named =>
  obtain rfl : function.name = name := by simpa using List.find?_some named
  obtain ⟨level, entered, inside⟩ := bind_eq_ok.mp reads
  obtain ⟨below, rfl, rfl⟩ := enter_ok entered
  have ⟨trees, rest, ⟨count, derived⟩, ends⟩ : ∃ trees rest,
      (∃ count, Derived below (.operands count) (· = trees) lexemes rest) ∧
        (do
          let rest ← readClosing finish rest
          if function.arity.accepts trees.length then return (.call function trees, rest)
          else throw (.wrongArity function trees.length) : Except FormulaError _) =
          .ok (tree, following) := by
    dsimp only at inside
    split at inside
    · exact ⟨[], lexemes, ⟨0, .nothing, [], rfl, rfl, Nat.zero_le _, rfl⟩, inside⟩
    · obtain ⟨⟨trees, rest⟩, argumentsRead, ends⟩ := bind_eq_ok.mp inside
      obtain ⟨count, derived⟩ := derived_operands (deeper below rfl _) _ argumentsRead
      exact ⟨trees, rest, ⟨count + 1, derived⟩, ends⟩
  obtain ⟨d, read, rfl, tokens, shallow, rfl⟩ := derived
  obtain ⟨closed, closes, result⟩ := bind_eq_ok.mp ends
  obtain ⟨closing, rfl, close⟩ := readClosing_ok closes
  rw [d.tree_length] at result
  split at result
  · next accepted =>
    cases result
    refine ⟨.call function d accepted,
      ⟨start, stop, .name function.name⟩ :: ⟨opening, opened, .openParen⟩ :: (read ++ [closing]),
      by simp, ?_, Nat.succ_le_succ shallow, rfl⟩
    simp [tokens, close]
  · cases result

theorem sound_atom : Sound finish left .atom := by
  intro lexemes following tree reads
  change readAtom finish (levels finish left) lexemes = _ at reads
  unfold readAtom at reads
  split at reads
  · cases reads
    next start stop value => exact ⟨.number value, [_], rfl, rfl, Nat.zero_le _, rfl⟩
  · exact derived_call deeper reads
  · obtain ⟨tree, named, same⟩ := bind_eq_ok.mp reads
    cases same
    obtain ⟨v, rfl, rfl⟩ := variableNamed_ok named
    exact ⟨.var v, [_], rfl, rfl, Nat.zero_le _, rfl⟩
  · obtain ⟨level, entered, reads⟩ := bind_eq_ok.mp reads
    obtain ⟨below, rfl, rfl⟩ := enter_ok entered
    obtain ⟨⟨inner, rest⟩, innerReads, reads⟩ := bind_eq_ok.mp reads
    obtain ⟨closed, closes, same⟩ := bind_eq_ok.mp reads
    cases same
    obtain ⟨closing, rfl, close⟩ := readClosing_ok closes
    obtain ⟨d, read, rfl, tokens, shallow, rfl⟩ := deeper below rfl (.chain .sum) innerReads
    refine ⟨.parenthesis d, _ :: (read ++ [closing]), by simp; rfl, ?_, Nat.succ_le_succ shallow,
      rfl⟩
    simp [tokens, close]
  · cases reads

theorem sound_power : Sound finish left .power := by
  intro lexemes following tree reads
  change readPower finish (levels finish left) lexemes = _ at reads
  rw [readPower] at reads
  obtain ⟨⟨base, rest⟩, baseReads, reads⟩ := bind_eq_ok.mp reads
  obtain ⟨d, read, rfl, tokens, shallow, rfl⟩ := sound_atom deeper baseReads
  dsimp only at reads
  split at reads
  · next caret =>
    obtain ⟨level, entered, reads⟩ := bind_eq_ok.mp reads
    obtain ⟨below, rfl, rfl⟩ := enter_ok entered
    obtain ⟨⟨exponent, last⟩, exponentReads, same⟩ := bind_eq_ok.mp reads
    cases same
    obtain ⟨e, exponentRead, same, exponentTokens, exponentShallow, rfl⟩ :=
      deeper below rfl .signed exponentReads
    cases rest with
    | nil => cases caret
    | cons lexeme rest =>
      dsimp only [List.tail_cons] at same
      subst same
      refine ⟨.raised d e, read ++ lexeme :: exponentRead, by simp, ?_,
        Nat.max_le.mpr ⟨shallow, Nat.succ_le_succ exponentShallow⟩, rfl⟩
      simp [tokens, exponentTokens, Option.some.inj caret]
  · cases reads
    exact ⟨.plain d, read, rfl, tokens, shallow, rfl⟩

theorem sound_signed : Sound finish left .signed := by
  intro lexemes following tree reads
  change readSigned finish (levels finish left) lexemes = _ at reads
  rw [readSigned] at reads
  split at reads
  · obtain ⟨d, read, same, tokens, shallow, rfl⟩ := sound_power deeper reads
    exact ⟨.unsigned d, read, same, tokens, shallow, rfl⟩
  · next op named =>
    obtain ⟨level, entered, reads⟩ := bind_eq_ok.mp reads
    obtain ⟨below, rfl, rfl⟩ := enter_ok entered
    obtain ⟨⟨operand, last⟩, operandReads, same⟩ := bind_eq_ok.mp reads
    cases same
    obtain ⟨d, read, same, tokens, shallow, rfl⟩ := deeper below rfl .signed operandReads
    cases lexemes with
    | nil => cases named
    | cons lexeme rest =>
      dsimp only [List.tail_cons] at same
      subst same
      refine ⟨.sign lexeme.token op named d, lexeme :: read, rfl, ?_, Nat.succ_le_succ shallow, rfl⟩
      simp [tokens]

theorem sound_of_deeper : (rank : Rank) → Sound finish left rank
  | .atom => sound_atom deeper
  | .power => sound_power deeper
  | .signed => sound_signed deeper
  | .chain .product => sound_chain (sound_signed deeper)
  | .chain .sum => sound_chain (sound_chain (sound_signed deeper))

end

theorem sound (left : Nat) (rank : Rank) : Sound finish left rank := by
  induction left generalizing rank with
  | zero => exact sound_of_deeper (fun below same => absurd same (Nat.succ_ne_zero below).symm) rank
  | succ left ih =>
    apply sound_of_deeper
    intro below same
    cases same
    exact ih

end

theorem readTree_eq_ok_iff {finish : Nat} {lexemes : List Lexeme} {tree : Expr} :
    readTree finish lexemes = .ok tree ↔ ∃ d : Derivation .sum,
      d.tokens = lexemes.map (·.token) ∧ d.depth ≤ 64 ∧ d.tree = tree := by
  have whole : readTree finish lexemes = (reader finish 64 (.chain .sum) lexemes >>= fun read =>
      if read.2.isEmpty then .ok read.1
      else .error (.malformed (offsetOf finish read.2) (.unexpected (nextToken read.2)))) := rfl
  rw [whole, bind_eq_ok]
  constructor
  · rintro ⟨⟨result, rest⟩, reads, ends⟩
    obtain ⟨d, read, rfl, tokens, shallow, rfl⟩ := sound 64 (.chain .sum) reads
    cases rest with
    | nil =>
      cases ends
      exact ⟨d, by rw [List.append_nil, tokens], shallow, rfl⟩
    | cons lexeme rest => cases ends
  · rintro ⟨d, tokens, shallow, rfl⟩
    have reads : reader finish 64 (.chain .sum) (lexemes ++ []) = .ok (d.tree, []) :=
      d.accepts shallow tokens.symm (ends_nil _)
    rw [List.append_nil] at reads
    exact ⟨(d.tree, []), reads, rfl⟩

theorem parse_of_scan {text : String} {lexemes : List Lexeme} (short : text.utf8ByteSize ≤ 4096)
    (scanned : scan 0 text.toList = .ok lexemes) :
    parse text = readTree text.utf8ByteSize lexemes >>= fun tree => .ok ⟨text, tree⟩ := by
  have within : ¬ maxFormulaBytes < text.utf8ByteSize := Nat.not_lt.mpr short
  unfold parse
  rw [if_neg within, scanned]
  rfl

theorem exists_derivation_of_parse {text : String} {formula : Formula}
    (read : parse text = .ok formula) : ∃ (lexemes : List Lexeme) (d : Derivation .sum),
      scan 0 text.toList = .ok lexemes ∧ d.tokens = lexemes.map (·.token) ∧
        formula = ⟨text, d.tree⟩ := by
  by_cases long : maxFormulaBytes < text.utf8ByteSize
  · rw [parse, if_pos long] at read
    cases read
  · cases scanned : scan 0 text.toList with
    | error fault =>
      rw [parse, if_neg long, scanned] at read
      cases read
    | ok lexemes =>
      rw [parse_of_scan (Nat.not_lt.mp long) scanned, bind_eq_ok] at read
      obtain ⟨tree, built, same⟩ := read
      obtain ⟨d, tokens, -, rfl⟩ := readTree_eq_ok_iff.mp built
      exact ⟨lexemes, d, rfl, tokens, (Except.ok.inj same).symm⟩

/-- The tokens of a formula have at most one derivation, and a formula is read exactly if its
tokens have one in which at most 64 signs, exponents, parentheses and calls enclose any one place.
What is read is then the tree of that derivation. -/
theorem parse_eq_ok_iff {text : String} {lexemes : List Lexeme}
    (short : text.utf8ByteSize ≤ 4096) (scanned : scan 0 text.toList = .ok lexemes) :
    (∀ formula, parse text = .ok formula ↔ ∃ d : Derivation .sum,
      d.tokens = lexemes.map (·.token) ∧ d.depth ≤ 64 ∧ formula = ⟨text, d.tree⟩) ∧
    ∀ d d' : Derivation .sum, d.tokens = d'.tokens → d = d' := by
  refine ⟨fun formula => ?_, fun d d' same => ?_⟩
  · rw [parse_of_scan short scanned, bind_eq_ok]
    simp only [readTree_eq_ok_iff]
    constructor
    · rintro ⟨tree, ⟨d, tokens, shallow, rfl⟩, same⟩
      exact ⟨d, tokens, shallow, (Except.ok.inj same).symm⟩
    · rintro ⟨d, tokens, shallow, rfl⟩
      exact ⟨d.tree, ⟨d, tokens, shallow, rfl⟩, rfl⟩
  · have whole : d.tokens ++ [] = d'.tokens ++ [] := congrArg (· ++ []) same
    exact (unambiguous d d' whole (ends_nil _) (ends_nil _)).1

theorem parse_eq_ok_iff_signs :
    let lexemes : List Lexeme := [⟨0, 1, .minus⟩, ⟨1, 2, .name "x"⟩, ⟨2, 3, .caret⟩,
      ⟨3, 4, .minus⟩, ⟨4, 5, .name "y"⟩, ⟨5, 7, .caret⟩, ⟨7, 8, .name "x"⟩]
    "-x^-y**x".utf8ByteSize ≤ 4096 ∧ scan 0 "-x^-y**x".toList = .ok lexemes ∧
      parse "-x^-y**x" = .ok ⟨"-x^-y**x", .unary .minus (.binary .pow (.var .x)
        (.unary .minus (.binary .pow (.var .y) (.var .x))))⟩ := by
  intro lexemes
  have short : "-x^-y**x".utf8ByteSize ≤ 4096 := by decide
  have scanned : scan 0 "-x^-y**x".toList = .ok lexemes := by decide +kernel
  let power : Derivation (.expression .power) := .raised (.var .y) (.unsigned (.plain (.var .x)))
  let signed : Derivation (.expression .signed) :=
    .sign .minus .minus rfl (.unsigned (.raised (.var .x)
      (.sign .minus .minus rfl (.unsigned power))))
  refine ⟨short, scanned, ((parse_eq_ok_iff short scanned).1 _).mpr ?_⟩
  let product := @Derivation.chain .product signed .stop
  exact ⟨@Derivation.chain .sum product .stop, rfl, by decide, rfl⟩

end PaymentFees.Formula
