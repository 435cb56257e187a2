import PaymentFees.Proofs.Grammar.Reading
import PaymentFees.Proofs.Grammar.Sentences

/-!
Where a formula that is split into tokens is malformed. Unless it nests too deeply, the place is
that of the first token that no sentence has there: what stands before it starts a sentence, and
with it no sentence starts.
-/

namespace PaymentFees.Formula

variable {finish : Nat}

def Settled (rank : Rank) (following : List Lexeme) : Prop :=
  ∀ token, nextToken following = some token → token ≠ .openParen → rank.reach < token.reach

def Settles (finish left : Nat) (rank : Rank) : Prop :=
  ∀ {lexemes following : List Lexeme} {tree : Expr},
    reader finish left rank lexemes = .ok (tree, following) → Settled rank following

theorem Settled.power {following : List Lexeme} (other : nextToken following ≠ some .caret) :
    Settled .power following := by
  intro token next opening
  rw [next] at other
  cases token <;> simp_all [Rank.reach, Token.reach]

theorem Settled.chain {kind : ChainKind} {following : List Lexeme}
    (settled : Settled kind.operand following)
    (last : following.head?.bind (kind.operator ·.token) = none) :
    Settled (.chain kind) following := by
  intro token next opening
  have tighter := settled token next opening
  cases following with
  | nil => cases next
  | cons lexeme following =>
    obtain rfl : lexeme.token = token := Option.some.inj next
    have none : kind.operator lexeme.token = none := last
    generalize lexeme.token = token at *
    cases kind <;> cases token <;>
      simp_all [ChainKind.operator, ChainKind.operand, sumOperator, productOperator, Rank.reach,
        ChainKind.reach, Token.reach]

theorem settled_operators {left : Nat} {kind : ChainKind}
    (settles : Settles finish left kind.operand) (turns : Nat) {tree result : Expr}
    {lexemes following : List Lexeme} (here : Settled kind.operand lexemes)
    (enough : lexemes.length ≤ turns)
    (reads : readOperators kind.operator (reader finish left kind.operand) turns tree lexemes =
      .ok (result, following)) : Settled (.chain kind) following := by
  induction turns generalizing tree lexemes with
  | zero =>
    obtain rfl : lexemes = [] := List.length_eq_zero_iff.mp (Nat.le_zero.mp enough)
    cases reads
    exact here.chain rfl
  | succ turns ih =>
    rw [readOperators] at reads
    split at reads
    · next last =>
      cases reads
      exact here.chain last
    · next op named =>
      obtain ⟨⟨operand, rest⟩, operandReads, restReads⟩ := bind_eq_ok.mp reads
      obtain ⟨d, read, same, -⟩ := sound left kind.operand operandReads
      refine ih (settles operandReads) ?_ restReads
      have shorter := congrArg List.length same
      simp only [List.length_append, List.length_tail] at shorter
      omega

theorem settles_chain {left : Nat} {kind : ChainKind}
    (settles : Settles finish left kind.operand) : Settles finish left (.chain kind) := by
  intro lexemes following tree reads
  rw [reader_chain, readChain] at reads
  obtain ⟨⟨first, rest⟩, firstReads, restReads⟩ := bind_eq_ok.mp reads
  exact settled_operators settles _ (settles firstReads) (Nat.le_refl _) restReads

theorem settles_power {left : Nat}
    (deeper : ∀ below, left = below + 1 → Settles finish below .signed) :
    Settles finish left .power := by
  intro lexemes following tree reads
  change readPower finish (levels finish left) lexemes = _ at reads
  rw [readPower] at reads
  obtain ⟨⟨base, rest⟩, -, reads⟩ := bind_eq_ok.mp reads
  dsimp only at reads
  split at reads
  · obtain ⟨level, entered, reads⟩ := bind_eq_ok.mp reads
    obtain ⟨below, rfl, rfl⟩ := enter_ok entered
    obtain ⟨⟨exponent, last⟩, exponentReads, same⟩ := bind_eq_ok.mp reads
    cases same
    exact deeper below rfl exponentReads
  · next plain =>
    cases reads
    exact Settled.power plain

theorem settles_signed {left : Nat}
    (deeper : ∀ below, left = below + 1 → Settles finish below .signed) :
    Settles finish left .signed := by
  intro lexemes following tree reads
  change readSigned finish (levels finish left) lexemes = _ at reads
  rw [readSigned] at reads
  split at reads
  · exact settles_power deeper reads
  · obtain ⟨level, entered, reads⟩ := bind_eq_ok.mp reads
    obtain ⟨below, rfl, rfl⟩ := enter_ok entered
    obtain ⟨⟨operand, last⟩, operandReads, same⟩ := bind_eq_ok.mp reads
    cases same
    exact deeper below rfl operandReads

theorem settles_sum (left : Nat) : Settles finish left (.chain .sum) := by
  have signed : Settles finish left .signed := by
    induction left with
    | zero => exact settles_signed fun below same => absurd same (Nat.succ_ne_zero below).symm
    | succ left ih =>
      apply settles_signed
      intro below same
      cases same
      exact ih
  have product : Settles finish left (.chain .product) := @settles_chain finish left .product signed
  exact @settles_chain finish left .sum product

theorem settled_operands {left : Nat} (turns : Nat) {trees : List Expr}
    {lexemes following : List Lexeme} (enough : lexemes.length ≤ turns)
    (reads : readOperands (reader finish left (.chain .sum)) turns lexemes =
      .ok (trees, following)) :
    Settled (.chain .sum) following ∧ nextToken following ≠ some .comma := by
  induction turns generalizing trees lexemes with
  | zero =>
    obtain rfl : lexemes = [] := List.length_eq_zero_iff.mp (Nat.le_zero.mp enough)
    rw [readOperands] at reads
    obtain ⟨⟨only, rest⟩, onlyReads, same⟩ := bind_eq_ok.mp reads
    cases same
    obtain ⟨d, read, parts, -⟩ := sound left (.chain .sum) onlyReads
    obtain ⟨rfl, rfl⟩ := List.append_eq_nil_iff.mp parts.symm
    exact ⟨settles_sum left onlyReads, by simp [nextToken]⟩
  | succ turns ih =>
    rw [readOperands] at reads
    obtain ⟨⟨first, rest⟩, firstReads, restReads⟩ := bind_eq_ok.mp reads
    dsimp only at restReads
    split at restReads
    · obtain ⟨⟨others, last⟩, othersRead, same⟩ := bind_eq_ok.mp restReads
      cases same
      obtain ⟨d, read, parts, -⟩ := sound left (.chain .sum) firstReads
      obtain ⟨first, others, start, -⟩ := d.starts
      refine ih ?_ othersRead
      have shorter := congrArg List.length parts
      simp only [List.length_append, List.length_tail] at shorter ⊢
      omega
    · next last =>
      cases restReads
      exact ⟨settles_sum left firstReads, last⟩

/-- What stands before the token can be completed to such a phrase, and at the token the machine is
stuck. -/
structure Stuck (s : Symbol) (read : List Token) (token : Option Token) : Prop where
  completed : ∃ completion, Phrase s (read ++ completion)
  stuck : ∀ brackets, (s.entry brackets).run (read.map some ++ [token]) = none

/-- What a reader fails with. Unless it nests too deeply, what is malformed is so at a token that is
wrong after what stands before it. -/
inductive Refused (finish : Nat) (wrong : List Token → Option Token → Prop)
    (lexemes : List Lexeme) : FormulaError → Prop where
  | unknownVariable (name : String) : Refused finish wrong lexemes (.unknownVariable name)
  | unknownFunction (name : String) : Refused finish wrong lexemes (.unknownFunction name)
  | wrongArity (function : Function) (count : Nat) :
    Refused finish wrong lexemes (.wrongArity function count)
  | tooDeep (place : Nat) : Refused finish wrong lexemes (.malformed place .tooDeep)
  | wrongToken {read rest : List Lexeme} {why : SyntaxFault} (parts : lexemes = read ++ rest)
      (here : wrong (read.map (·.token)) (nextToken rest)) :
    Refused finish wrong lexemes (.malformed (offsetOf finish rest) why)

theorem Refused.behind {wrong wider : List Token → Option Token → Prop} (front : List Lexeme)
    {lexemes : List Lexeme} {fault : FormulaError} (refused : Refused finish wrong lexemes fault)
    (still : ∀ read rest, lexemes = read ++ rest → wrong (read.map (·.token)) (nextToken rest) →
      wider ((front ++ read).map (·.token)) (nextToken rest)) :
    Refused finish wider (front ++ lexemes) fault := by
  cases refused with
  | unknownVariable name => exact .unknownVariable name
  | unknownFunction name => exact .unknownFunction name
  | wrongArity function count => exact .wrongArity function count
  | tooDeep place => exact .tooDeep place
  | @wrongToken read rest why parts here =>
    exact .wrongToken (by rw [parts, List.append_assoc]) (still read rest parts here)

theorem Refused.after {s t : Symbol} (front : List Lexeme) {lexemes : List Lexeme}
    {fault : FormulaError} (refused : Refused finish (Stuck t) lexemes fault)
    (completes : ∀ tokens, Phrase t tokens →
      ∃ closing, Phrase s (front.map (·.token) ++ (tokens ++ closing)))
    (runs : ∀ brackets, ∃ others, ∀ tokens, tokens.head? = some (nextToken lexemes) →
      (s.entry brackets).run ((front.map (·.token)).map some ++ tokens) =
        (t.entry others).run tokens) :
    Refused finish (Stuck s) (front ++ lexemes) fault := by
  refine refused.behind front fun read rest parts here => ?_
  obtain ⟨⟨completion, phrase⟩, stuck⟩ := here
  obtain ⟨closing, whole⟩ := completes _ phrase
  refine ⟨⟨completion ++ closing, by simpa using whole⟩, fun brackets => ?_⟩
  obtain ⟨others, same⟩ := runs brackets
  rw [List.map_append, List.map_append, List.append_assoc, same]
  · exact stuck others
  · rw [parts]
    cases read <;> simp [nextToken]

theorem stuck_after {brackets : List Bracket} {rest : List Lexeme}
    (settled : Settled (.chain .sum) rest)
    (closing : nextToken rest = some .closeParen → brackets = [])
    (comma : nextToken rest = some .comma → brackets.head? ≠ some .call)
    (last : nextToken rest = none → brackets ≠ []) :
    Progress.next ⟨.operator, brackets⟩ (nextToken rest) = none := by
  cases found : nextToken rest with
  | none => simp [Progress.next, last found]
  | some token =>
    have loose := settled token found
    rw [found] at closing comma
    cases token <;>
      simp_all [Progress.next, Progress.goOn, Rank.reach, ChainKind.reach, Token.reach]

/-- A phrase is refused where only its closing bracket can follow, and something else does. -/
theorem Refused.unclosed {s : Symbol} {front rest : List Lexeme} {why : SyntaxFault}
    (closed : Phrase s (front.map (·.token) ++ [.closeParen]))
    (settled : Settled (.chain .sum) rest) (other : nextToken rest ≠ some .closeParen)
    (inside : ∀ brackets, ∃ bracket, (nextToken rest = some .comma → bracket = .group) ∧
      (s.entry brackets).run ((front.map (·.token)).map some) =
        some ⟨.operator, bracket :: brackets⟩) :
    Refused finish (Stuck s) (front ++ rest) (.malformed (offsetOf finish rest) why) := by
  refine .wrongToken rfl ⟨⟨[.closeParen], closed⟩, fun brackets => ?_⟩
  obtain ⟨bracket, comma, reads⟩ := inside brackets
  have stuck := @stuck_after (bracket :: brackets) rest settled (fun closes => absurd closes other)
    (fun separates => by simp [comma separates]) fun _ => List.cons_ne_nil _ _
  rw [Progress.run_append reads, Progress.run_cons, stuck]
  rfl

def Refuses (finish left : Nat) (rank : Rank) : Prop :=
  ∀ {lexemes : List Lexeme} {fault : FormulaError},
    reader finish left rank lexemes = .error fault →
      Refused finish (Stuck (.expression rank)) lexemes fault

theorem refused_operators {left : Nat} {kind : ChainKind}
    (refuses : Refuses finish left kind.operand) (turns : Nat) {tree : Expr}
    {lexemes : List Lexeme} {fault : FormulaError}
    (reads : readOperators kind.operator (reader finish left kind.operand) turns tree lexemes =
      .error fault) : Refused finish (Stuck (.tail kind)) lexemes fault := by
  induction turns generalizing tree lexemes with
  | zero => cases reads
  | succ turns ih =>
    rw [readOperators] at reads
    split at reads
    · cases reads
    · next op named =>
      obtain ⟨lexeme, first, named⟩ := Option.bind_eq_some_iff.mp named
      obtain ⟨others, rfl⟩ := List.head?_eq_some_iff.mp first
      rcases bind_eq_error.mp reads with failed | ⟨⟨operand, rest⟩, operandReads, failed⟩
      · refine (refuses failed).after [lexeme] ?_ ?_
        · exact fun tokens phrase => ⟨[], by simpa using Phrase.step named phrase .stop⟩
        · exact fun brackets => ⟨brackets, fun tokens _ =>
            Progress.run_cons_of (Progress.next_operator named brackets) _⟩
      · obtain ⟨d, read, same, tokens, -⟩ := sound left kind.operand operandReads
        dsimp only [List.tail_cons] at same
        subst same
        refine (ih failed).after (lexeme :: read) ?_ ?_
        · intro others phrase
          refine ⟨[], ?_⟩
          rw [List.map_cons, tokens, List.append_nil]
          exact .step named d.phrase phrase
        · refine fun brackets => ⟨brackets, fun others _ => ?_⟩
          rw [List.map_cons, tokens]
          refine (Progress.run_cons_of (Progress.next_operator named brackets) _).trans ?_
          exact Progress.run_append (d.phrase.run brackets) _

theorem refuses_chain {left : Nat} {kind : ChainKind}
    (refuses : Refuses finish left kind.operand) : Refuses finish left (.chain kind) := by
  intro lexemes fault reads
  rw [reader_chain, readChain] at reads
  rcases bind_eq_error.mp reads with failed | ⟨⟨first, rest⟩, firstReads, failed⟩
  · refine (refuses failed).after [] ?_ ?_
    · exact fun tokens phrase => ⟨[], by simpa using Phrase.chain phrase .stop⟩
    · exact fun brackets => ⟨brackets, fun tokens _ => rfl⟩
  · obtain ⟨d, read, rfl, tokens, -⟩ := sound left kind.operand firstReads
    refine (refused_operators refuses _ failed).after read ?_ ?_
    · intro others phrase
      refine ⟨[], ?_⟩
      rw [tokens, List.append_nil]
      exact .chain d.phrase phrase
    · refine fun brackets => ⟨brackets, fun others _ => ?_⟩
      rw [tokens]
      exact Progress.run_append (d.phrase.run brackets) _

theorem refused_operands {left : Nat} (refuses : Refuses finish left (.chain .sum)) (turns : Nat)
    {lexemes : List Lexeme} {fault : FormulaError}
    (reads : readOperands (reader finish left (.chain .sum)) turns lexemes = .error fault) :
    ∃ count, Refused finish (Stuck (.operands (count + 1))) lexemes fault := by
  have only {lexemes : List Lexeme}
      (failed : reader finish left (.chain .sum) lexemes = .error fault) :
      Refused finish (Stuck (.operands 1)) lexemes fault := by
    refine (refuses failed).after [] ?_ ?_
    · exact fun tokens phrase => ⟨[], by simpa using Phrase.last phrase⟩
    · exact fun brackets => ⟨.call :: brackets, fun tokens _ => rfl⟩
  induction turns generalizing lexemes with
  | zero =>
    rw [readOperands] at reads
    rcases bind_eq_error.mp reads with failed | ⟨first, -, failed⟩
    · exact ⟨0, only failed⟩
    · cases failed
  | succ turns ih =>
    rw [readOperands] at reads
    rcases bind_eq_error.mp reads with failed | ⟨⟨first, rest⟩, firstReads, failed⟩
    · exact ⟨0, only failed⟩
    dsimp only at failed
    split at failed
    · next comma =>
      rcases bind_eq_error.mp failed with failed | ⟨others, -, failed⟩
      · obtain ⟨count, refused⟩ := ih failed
        obtain ⟨d, read, rfl, tokens, -⟩ := sound left (.chain .sum) firstReads
        cases rest with
        | nil => cases comma
        | cons lexeme rest =>
          have separator : lexeme.token = .comma := Option.some.inj comma
          have front : (read ++ [lexeme]).map (·.token) = d.tokens ++ [.comma] := by
            rw [List.map_append, tokens, List.map_singleton, separator]
          refine ⟨count + 1, ?_⟩
          rw [List.append_cons]
          refine refused.after (read ++ [lexeme]) ?_ ?_
          · intro others phrase
            refine ⟨[], ?_⟩
            rw [front, List.append_nil, List.append_assoc]
            exact .more d.phrase phrase
          · refine fun brackets => ⟨brackets, fun others _ => ?_⟩
            rw [front, List.map_append, List.append_assoc]
            exact Progress.run_append (d.phrase.run (.call :: brackets)) _
      · cases failed
    · cases failed

theorem readClosing_error {lexemes : List Lexeme} {fault : FormulaError}
    (failed : readClosing finish lexemes = .error fault) :
    nextToken lexemes ≠ some .closeParen ∧
      ∃ why, fault = .malformed (offsetOf finish lexemes) why := by
  unfold readClosing at failed
  split at failed
  · cases failed
  · next other => exact ⟨other, _, (Except.error.inj failed).symm⟩

theorem enter_error {left : Nat} {lexemes : List Lexeme} {fault : FormulaError}
    (failed : enter finish (levels finish left) lexemes = .error fault) :
    fault = .malformed (offsetOf finish lexemes) .tooDeep := by
  cases left with
  | zero => exact (Except.error.inj failed).symm
  | succ left => cases failed

theorem variableNamed_error {name : String} {fault : FormulaError}
    (failed : variableNamed name = .error fault) : fault = .unknownVariable name := by
  unfold variableNamed at failed
  split at failed
  · cases failed
  · split at failed
    · cases failed
    · exact (Except.error.inj failed).symm

section

variable {left : Nat} (deeper : ∀ below, left = below + 1 →
  Refuses finish below .signed ∧ Refuses finish below (.chain .sum))
include deeper

theorem refused_call {start stop opening opened : Nat} {name : String} {lexemes : List Lexeme}
    {fault : FormulaError}
    (reads : readCall finish (levels finish left) name lexemes = .error fault) :
    Refused finish (Stuck (.expression .atom))
      (⟨start, stop, .name name⟩ :: ⟨opening, opened, .openParen⟩ :: lexemes) fault := by
  unfold readCall at reads
  split at reads
  · cases reads
    exact .unknownFunction name
  next function named =>
  obtain rfl : function.name = name := by simpa using List.find?_some named
  -- After the bracket that opens the call.
  have runs (brackets : List Bracket) (tokens : List (Option Token)) :
      (Symbol.entry brackets (.expression .atom)).run
        (some (.name function.name) :: some .openParen :: tokens) =
        Progress.run ⟨.argument, .call :: brackets⟩ tokens :=
    Progress.run_cons_of (Progress.next_function function brackets) _
  rcases bind_eq_error.mp reads with tooDeep | ⟨level, entered, inside⟩
  · rw [enter_error tooDeep]
    exact .tooDeep _
  obtain ⟨below, rfl, rfl⟩ := enter_ok entered
  have arity {trees : List Expr} {rest : List Lexeme}
      (refused : (if function.arity.accepts trees.length then return (Expr.call function trees, rest)
        else throw (.wrongArity function trees.length) : Except FormulaError _) = .error fault) :
      Refused finish (Stuck (.expression .atom)) (⟨start, stop, .name function.name⟩ ::
        ⟨opening, opened, .openParen⟩ :: lexemes) fault := by
    split at refused
    · cases refused
    · cases refused
      exact .wrongArity _ _
  dsimp only at inside
  split at inside
  · next closes =>
    rcases bind_eq_error.mp inside with failed | ⟨_, same, ends⟩
    · cases failed
    cases same
    rcases bind_eq_error.mp ends with failed | ⟨closed, -, failed⟩
    · exact absurd closes (readClosing_error failed).1
    · exact arity failed
  · next opens =>
    rcases bind_eq_error.mp inside with failed | ⟨⟨trees, rest⟩, operandsRead, ends⟩
    · obtain ⟨count, refused⟩ := refused_operands (deeper below rfl).2 _ failed
      refine refused.after [⟨start, stop, .name function.name⟩, ⟨opening, opened, .openParen⟩] ?_ ?_
      · exact fun tokens phrase => ⟨[.closeParen], .call function phrase⟩
      · refine fun brackets => ⟨brackets, fun tokens first => ?_⟩
        exact (runs brackets tokens).trans (Progress.run_argument _ first opens)
    rcases bind_eq_error.mp ends with failed | ⟨closed, -, failed⟩
    · obtain ⟨other, why, rfl⟩ := readClosing_error failed
      obtain ⟨settled, noComma⟩ := settled_operands _ (Nat.le_refl _) operandsRead
      obtain ⟨count, d, read, rfl, tokens, -⟩ :=
        derived_operands (sound below (.chain .sum)) _ operandsRead
      refine @Refused.unclosed finish _ (⟨start, stop, .name function.name⟩ ::
        ⟨opening, opened, .openParen⟩ :: read) rest why ?_ settled other fun brackets => ?_
      · simp only [List.map_cons, tokens]
        exact .call function d.phrase
      · refine ⟨.call, fun comma => absurd comma noComma, ?_⟩
        obtain ⟨token, others, first, -⟩ := d.starts
        have opens : some token ≠ some .closeParen := by
          rintro ⟨⟩
          exact @not_closed _ d [] others (by rw [List.append_nil, first])
        simp only [List.map_cons, tokens]
        refine (runs brackets _).trans ?_
        rw [Progress.run_argument _ (by rw [first]; rfl) opens]
        exact d.phrase.run brackets
    · exact arity failed

theorem refused_atom {lexemes : List Lexeme} {fault : FormulaError}
    (unsigned : (nextToken lexemes).bind unaryOperator = none)
    (reads : reader finish left .atom lexemes = .error fault) :
    Refused finish (Stuck (.expression .atom)) lexemes fault := by
  -- An atom is read only where there is no sign.
  change readAtom finish (levels finish left) lexemes = _ at reads
  unfold readAtom at reads
  split at reads
  · cases reads
  · exact refused_call deeper reads
  · rcases bind_eq_error.mp reads with failed | ⟨tree, -, failed⟩
    · rw [variableNamed_error failed]
      exact .unknownVariable _
    · cases failed
  · next start stop rest =>
    rcases bind_eq_error.mp reads with tooDeep | ⟨level, entered, reads⟩
    · rw [enter_error tooDeep]
      exact .tooDeep _
    obtain ⟨below, rfl, rfl⟩ := enter_ok entered
    rcases bind_eq_error.mp reads with failed | ⟨⟨inner, after⟩, innerReads, reads⟩
    · refine ((deeper below rfl).2 failed).after [⟨start, stop, .openParen⟩] ?_ ?_
      · exact fun tokens phrase => ⟨[.closeParen], .parenthesis phrase⟩
      · exact fun brackets => ⟨.group :: brackets, fun tokens _ => rfl⟩
    rcases bind_eq_error.mp reads with failed | ⟨closed, -, failed⟩
    · obtain ⟨other, why, rfl⟩ := readClosing_error failed
      have settled := settles_sum below innerReads
      obtain ⟨d, read, rfl, tokens, -⟩ := sound below (.chain .sum) innerReads
      refine @Refused.unclosed finish _ (⟨start, stop, .openParen⟩ :: read) after why ?_ settled
        other fun brackets => ⟨.group, fun _ => rfl, ?_⟩
      · rw [List.map_cons, tokens]
        exact .parenthesis d.phrase
      · rw [List.map_cons, tokens]
        exact d.phrase.run (.group :: brackets)
    · cases failed
  · next number name variable_ parenthesis =>
    cases reads
    refine @Refused.wrongToken finish _ lexemes [] _ _ rfl
      ⟨⟨[.number 0.0], .number 0.0⟩, fun brackets => ?_⟩
    cases lexemes with
    | nil => rfl
    | cons lexeme rest =>
      obtain ⟨start, stop, token⟩ := lexeme
      cases token with
      | number value => exact absurd rfl (number _ _ _ _)
      | name text => exact absurd rfl (variable_ _ _ _ _)
      | openParen => exact absurd rfl (parenthesis _ _ _)
      | plus | minus => cases unsigned
      | star | slash | caret | closeParen | comma => rfl

theorem refused_power {lexemes : List Lexeme} {fault : FormulaError}
    (unsigned : (nextToken lexemes).bind unaryOperator = none)
    (reads : reader finish left .power lexemes = .error fault) :
    Refused finish (Stuck (.expression .power)) lexemes fault := by
  change readPower finish (levels finish left) lexemes = _ at reads
  rw [readPower] at reads
  rcases bind_eq_error.mp reads with failed | ⟨⟨base, rest⟩, baseReads, reads⟩
  · refine (refused_atom deeper unsigned failed).after [] ?_ ?_
    · exact fun tokens phrase => ⟨[], by simpa using Phrase.plain phrase⟩
    · exact fun brackets => ⟨brackets, fun tokens _ => rfl⟩
  dsimp only at reads
  split at reads
  · next caret =>
    rcases bind_eq_error.mp reads with tooDeep | ⟨level, entered, reads⟩
    · rw [enter_error tooDeep]
      exact .tooDeep _
    obtain ⟨below, rfl, rfl⟩ := enter_ok entered
    rcases bind_eq_error.mp reads with failed | ⟨exponent, -, failed⟩
    · obtain ⟨d, read, rfl, tokens, -⟩ := sound (below + 1) .atom baseReads
      cases rest with
      | nil => cases caret
      | cons lexeme rest =>
        have raised : lexeme.token = .caret := Option.some.inj caret
        have front : (read ++ [lexeme]).map (·.token) = d.tokens ++ [.caret] := by
          rw [List.map_append, tokens, List.map_singleton, raised]
        rw [List.append_cons]
        refine ((deeper below rfl).1 failed).after (read ++ [lexeme]) ?_ ?_
        · intro others phrase
          refine ⟨[], ?_⟩
          rw [front, List.append_nil, List.append_assoc]
          exact .raised d.phrase phrase
        · refine fun brackets => ⟨brackets, fun others _ => ?_⟩
          rw [front, List.map_append, List.append_assoc]
          exact Progress.run_append (d.phrase.run brackets) _
    · cases failed
  · cases reads

theorem refuses_signed : Refuses finish left .signed := by
  intro lexemes fault reads
  change readSigned finish (levels finish left) lexemes = _ at reads
  rw [readSigned] at reads
  split at reads
  · next unsigned =>
    refine (refused_power deeper unsigned reads).after [] ?_ ?_
    · exact fun tokens phrase => ⟨[], by simpa using Phrase.unsigned phrase⟩
    · exact fun brackets => ⟨brackets, fun tokens _ => rfl⟩
  · next op named =>
    rcases bind_eq_error.mp reads with tooDeep | ⟨level, entered, reads⟩
    · rw [enter_error tooDeep]
      exact .tooDeep _
    obtain ⟨below, rfl, rfl⟩ := enter_ok entered
    rcases bind_eq_error.mp reads with failed | ⟨operand, -, failed⟩
    · cases lexemes with
      | nil => cases named
      | cons lexeme rest =>
        have sign : unaryOperator lexeme.token = some op := named
        refine ((deeper below rfl).1 failed).after [lexeme] ?_ ?_
        · exact fun tokens phrase => ⟨[], by simpa using Phrase.sign sign phrase⟩
        · exact fun brackets => ⟨brackets, fun tokens _ =>
            Progress.run_cons_of (Progress.next_sign sign brackets) _⟩
    · cases failed

theorem refuses_sum_of_deeper : Refuses finish left (.chain .sum) := by
  have product : Refuses finish left (.chain .product) :=
    @refuses_chain finish left .product (refuses_signed deeper)
  exact @refuses_chain finish left .sum product

end

theorem refuses (left : Nat) :
    Refuses finish left .signed ∧ Refuses finish left (.chain .sum) := by
  have level {left : Nat} (deeper : ∀ below, left = below + 1 →
      Refuses finish below .signed ∧ Refuses finish below (.chain .sum)) :
      Refuses finish left .signed ∧ Refuses finish left (.chain .sum) :=
    ⟨refuses_signed deeper, refuses_sum_of_deeper deeper⟩
  induction left with
  | zero => exact level fun below same => absurd same (Nat.succ_ne_zero below).symm
  | succ left ih =>
    apply level
    intro below same
    cases same
    exact ih

/-- The tokens read start some sentence, and with the next one, which may be the end of the text,
none starts. -/
def FirstWrong (read : List Token) (token : Option Token) : Prop :=
  Viable (read.map some) ∧ ¬ Viable (read.map some ++ [token])

theorem Stuck.firstWrong {read : List Token} {token : Option Token} (here : Stuck .sum read token) :
    FirstWrong read token := by
  obtain ⟨⟨completion, sentence⟩, stuck⟩ := here
  exact ⟨⟨_, sentence, completion.map some ++ [none], by simp⟩, not_viable_of_stuck (stuck [])⟩

theorem readTree_refused {lexemes : List Lexeme} {fault : FormulaError}
    (rejected : readTree finish lexemes = .error fault) :
    Refused finish FirstWrong lexemes fault := by
  have whole : readTree finish lexemes = (reader finish 64 (.chain .sum) lexemes >>= fun read =>
      if read.2.isEmpty then .ok read.1
      else .error (.malformed (offsetOf finish read.2) (.unexpected (nextToken read.2)))) := rfl
  rw [whole] at rejected
  rcases bind_eq_error.mp rejected with failed | ⟨⟨tree, rest⟩, reads, failed⟩
  · exact ((refuses 64).2 failed).behind [] fun read rest _ here => here.firstWrong
  · clear rejected
    dsimp only at failed
    have settled := settles_sum 64 reads
    obtain ⟨d, read, rfl, tokens, -⟩ := sound 64 (.chain .sum) reads
    split at failed
    · cases failed
    · next more =>
      cases failed
      refine .wrongToken rfl ⟨⟨d.tokens, d.phrase, [none], by rw [tokens]⟩, ?_⟩
      have left : rest ≠ [] := by simpa using more
      have stuck := stuck_after settled (fun _ => rfl) (fun _ => by simp) fun ends =>
        absurd (by simpa [nextToken] using ends) left
      have whole : Progress.run ⟨.operand, []⟩ (d.tokens.map some) = some ⟨.operator, []⟩ :=
        d.phrase.run []
      apply not_viable_of_stuck
      rw [tokens, Progress.run_append whole, Progress.run_cons, stuck]
      rfl

/-- Unless a text nests too deeply, what is malformed in it after it was split into tokens is so at
the first token, or at the end of the text, that is wrong: the tokens before it start a sentence,
and with it they start none. A sentence may nest to any depth and calls in it may have any number of
operands, but it has no names other than those of the variables and functions. -/
theorem malformed_at_first_wrong_token {text : String} {lexemes : List Lexeme} {place : Nat}
    {why : SyntaxFault} (short : text.utf8ByteSize ≤ 4096)
    (scanned : scan 0 text.toList = .ok lexemes)
    (failed : parse text = .error (.malformed place why)) (shallow : why ≠ .tooDeep) :
    ∃ read rest, lexemes = read ++ rest ∧ place = offsetOf text.utf8ByteSize rest ∧
      FirstWrong (read.map (·.token)) (nextToken rest) := by
  rw [parse_of_scan short scanned] at failed
  rcases bind_eq_error.mp failed with failed | ⟨tree, -, failed⟩
  · cases readTree_refused failed with
    | tooDeep => exact absurd rfl shallow
    | wrongToken parts here => exact ⟨_, _, parts, rfl, here⟩
  · cases failed

theorem malformed_at_first_wrong_token_comma :
    let lexemes : List Lexeme := [⟨0, 3, .name "min"⟩, ⟨3, 4, .openParen⟩, ⟨4, 5, .name "x"⟩,
      ⟨5, 6, .comma⟩, ⟨7, 8, .closeParen⟩]
    "min(x, )".utf8ByteSize ≤ 4096 ∧ scan 0 "min(x, )".toList = .ok lexemes ∧
      parse "min(x, )" = .error (.malformed 7 (.unexpected (some .closeParen))) ∧
      ∃ read rest, lexemes = read ++ rest ∧ 7 = offsetOf 8 rest ∧
        FirstWrong (read.map (·.token)) (nextToken rest) := by
  intro lexemes
  have short : "min(x, )".utf8ByteSize ≤ 4096 := by decide
  have scanned : scan 0 "min(x, )".toList = .ok lexemes := by decide +kernel
  have failed : parse "min(x, )" = .error (.malformed 7 (.unexpected (some .closeParen))) := by
    rw [parse_of_scan short scanned]
    rfl
  exact ⟨short, scanned, failed,
    malformed_at_first_wrong_token short scanned failed (by decide)⟩

end PaymentFees.Formula
