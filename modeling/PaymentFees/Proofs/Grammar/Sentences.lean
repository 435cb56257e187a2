import PaymentFees.Proofs.Grammar.Derivation

/-!
Sentences: what the grammar derives if calls may have any number of operands and nothing nests too
deeply. A machine that remembers which brackets are open, and what it awaits, runs through every
sentence; so where it is stuck, no sentence goes on.
-/

namespace PaymentFees.Formula

/-- The token lists of the grammar, with any number of operands in a call. -/
inductive Phrase : Symbol → List Token → Prop where
  | chain {kind : ChainKind} {first rest : List Token}
      (operand : Phrase (.expression kind.operand) first) (others : Phrase (.tail kind) rest) :
      Phrase (.expression (.chain kind)) (first ++ rest)
  | stop {kind : ChainKind} : Phrase (.tail kind) []
  | step {kind : ChainKind} {token : Token} {op : BinaryOp} {first rest : List Token}
      (named : kind.operator token = some op) (operand : Phrase (.expression kind.operand) first)
      (others : Phrase (.tail kind) rest) : Phrase (.tail kind) (token :: (first ++ rest))
  | sign {token : Token} {op : UnaryOp} {tokens : List Token}
      (named : unaryOperator token = some op) (operand : Phrase (.expression .signed) tokens) :
      Phrase (.expression .signed) (token :: tokens)
  | unsigned {tokens : List Token} (operand : Phrase (.expression .power) tokens) :
      Phrase (.expression .signed) tokens
  | raised {low high : List Token} (base : Phrase (.expression .atom) low)
      (exponent : Phrase (.expression .signed) high) :
      Phrase (.expression .power) (low ++ .caret :: high)
  | plain {tokens : List Token} (base : Phrase (.expression .atom) tokens) :
      Phrase (.expression .power) tokens
  | number (value : Float) : Phrase (.expression .atom) [.number value]
  | var (name : Variable) : Phrase (.expression .atom) [.name name.name]
  | call (function : Function) {count : Nat} {tokens : List Token}
      (arguments : Phrase (.operands count) tokens) :
      Phrase (.expression .atom)
        (.name function.name :: .openParen :: (tokens ++ [.closeParen]))
  | parenthesis {tokens : List Token} (inner : Phrase .sum tokens) :
      Phrase (.expression .atom) (.openParen :: (tokens ++ [.closeParen]))
  | nothing : Phrase (.operands 0) []
  | last {tokens : List Token} (operand : Phrase .sum tokens) : Phrase (.operands 1) tokens
  | more {count : Nat} {first rest : List Token} (operand : Phrase .sum first)
      (others : Phrase (.operands (count + 1)) rest) :
      Phrase (.operands (count + 2)) (first ++ .comma :: rest)

theorem Derivation.phrase {s : Symbol} (d : Derivation s) : Phrase s d.tokens := by
  induction d with
  | chain first rest ihFirst ihRest => exact .chain ihFirst ihRest
  | stop => exact .stop
  | step token op named operand rest ihOperand ihRest => exact .step named ihOperand ihRest
  | sign token op named operand ih => exact .sign named ih
  | unsigned operand ih => exact .unsigned ih
  | raised base exponent ihBase ihExponent => exact .raised ihBase ihExponent
  | plain base ih => exact .plain ih
  | number value => exact .number value
  | var name => exact .var name
  | call function arguments accepted ih => exact .call function ih
  | parenthesis inner ih => exact .parenthesis ih
  | nothing => exact .nothing
  | last operand ih => exact .last ih
  | more operand others ihOperand ihOthers => exact .more ihOperand ihOthers

/-- The tokens of a text, with its end as the last one, start some sentence so. -/
def Viable (tokens : List (Option Token)) : Prop :=
  ∃ sentence, Phrase .sum sentence ∧ tokens <+: sentence.map some ++ [none]

inductive Bracket where
  | group | call
  deriving DecidableEq, Repr

inductive Awaits where
  | operand
  /-- An operand, or the bracket that closes a call at once. -/
  | argument
  | bracket
  /-- An operator, a comma or a closing bracket, or the end. -/
  | operator
  | nothing
  deriving DecidableEq, Repr

/-- How far a sentence has been read, with the innermost open bracket first. -/
structure Progress where
  awaits : Awaits
  brackets : List Bracket
  deriving DecidableEq, Repr

namespace Progress

def startOperand (brackets : List Bracket) : Token → Option Progress
  | .number _ => some ⟨.operator, brackets⟩
  | .name name =>
    if name = "x" ∨ name = "y" then some ⟨.operator, brackets⟩
    else if (Function.ofName? name).isSome then some ⟨.bracket, brackets⟩
    else none
  | .plus | .minus => some ⟨.operand, brackets⟩
  | .openParen => some ⟨.operand, .group :: brackets⟩
  | _ => none

def goOn (brackets : List Bracket) : Token → Option Progress
  | .plus | .minus | .star | .slash | .caret => some ⟨.operand, brackets⟩
  | .comma => if brackets.head? = some .call then some ⟨.operand, brackets⟩ else none
  | .closeParen => if brackets.isEmpty then none else some ⟨.operator, brackets.tail⟩
  | _ => none

def next (progress : Progress) : Option Token → Option Progress
  | none => if progress = ⟨.operator, []⟩ then some ⟨.nothing, []⟩ else none
  | some token =>
    match progress.awaits with
    | .operand => startOperand progress.brackets token
    | .argument =>
      if token = .closeParen then some ⟨.operator, progress.brackets.tail⟩
      else startOperand progress.brackets token
    | .bracket =>
      if token = .openParen then some ⟨.argument, .call :: progress.brackets⟩ else none
    | .operator => goOn progress.brackets token
    | .nothing => none

def run (progress : Progress) (tokens : List (Option Token)) : Option Progress :=
  tokens.foldlM next progress

theorem run_cons (progress : Progress) (token : Option Token) (tokens : List (Option Token)) :
    progress.run (token :: tokens) = (progress.next token).bind (·.run tokens) := rfl

theorem run_append {progress mid : Progress} {front : List (Option Token)}
    (first : progress.run front = some mid) (back : List (Option Token)) :
    progress.run (front ++ back) = mid.run back := by
  unfold run at *
  rw [List.foldlM_append, first]
  rfl

theorem run_cons_of {progress mid : Progress} {token : Option Token}
    (first : progress.next token = some mid) (tokens : List (Option Token)) :
    progress.run (token :: tokens) = mid.run tokens := by
  rw [run_cons, first]
  rfl

theorem run_argument (brackets : List Bracket) {tokens : List (Option Token)}
    {token : Option Token} (first : tokens.head? = some token) (opened : token ≠ some .closeParen) :
    run ⟨.argument, brackets⟩ tokens = run ⟨.operand, brackets⟩ tokens := by
  obtain ⟨others, rfl⟩ := List.head?_eq_some_iff.mp first
  cases token with
  | none => simp [run_cons, next]
  | some token =>
    have other : token ≠ .closeParen := fun closes => opened (congrArg some closes)
    simp only [run_cons, next, if_neg other]

theorem next_operator {kind : ChainKind} {token : Token} {op : BinaryOp}
    (named : kind.operator token = some op) (brackets : List Bracket) :
    next ⟨.operator, brackets⟩ (some token) = some ⟨.operand, brackets⟩ := by
  cases kind <;> cases token <;>
    first
    | rfl
    | simp [ChainKind.operator, sumOperator, productOperator] at named

theorem next_sign {token : Token} {op : UnaryOp} (named : unaryOperator token = some op)
    (brackets : List Bracket) :
    next ⟨.operand, brackets⟩ (some token) = some ⟨.operand, brackets⟩ := by
  cases token <;>
    first
    | rfl
    | simp [unaryOperator] at named

theorem next_function (function : Function) (brackets : List Bracket) :
    next ⟨.operand, brackets⟩ (some (.name function.name)) = some ⟨.bracket, brackets⟩ := by
  cases function <;> rfl

end Progress

def Symbol.entry (brackets : List Bracket) : Symbol → Progress
  | expression _ => ⟨.operand, brackets⟩
  | tail _ => ⟨.operator, brackets⟩
  | operands 0 => ⟨.argument, .call :: brackets⟩
  | operands (_ + 1) => ⟨.operand, .call :: brackets⟩

def Symbol.exit (brackets : List Bracket) : Symbol → Progress
  | expression _ | tail _ => ⟨.operator, brackets⟩
  | operands 0 => ⟨.argument, .call :: brackets⟩
  | operands (_ + 1) => ⟨.operator, .call :: brackets⟩

section

open Progress

theorem run_arguments {count : Nat} {tokens : List Token} {brackets : List Bracket}
    (reads : run (Symbol.entry brackets (.operands count)) (tokens.map some) =
      some (Symbol.exit brackets (.operands count))) :
    run ⟨.argument, .call :: brackets⟩ (tokens.map some ++ [some .closeParen]) =
      some ⟨.operator, brackets⟩ := by
  cases count with
  | zero =>
    simp only [Symbol.entry, Symbol.exit] at reads
    rw [run_append reads]
    rfl
  | succ count =>
    simp only [Symbol.entry, Symbol.exit] at reads
    cases tokens with
    | nil => cases reads
    | cons token tokens =>
      have opened : some token ≠ some .closeParen := by
        rintro ⟨⟩
        cases reads
      rw [List.map_cons, List.cons_append, run_argument _ rfl opened, ← List.cons_append,
        ← List.map_cons, run_append reads]
      rfl

theorem Phrase.run {s : Symbol} {tokens : List Token} (phrase : Phrase s tokens)
    (brackets : List Bracket) :
    run (s.entry brackets) (tokens.map some) = some (s.exit brackets) := by
  induction phrase generalizing brackets with
  | chain operand others ihOperand ihOthers =>
    rw [List.map_append]
    exact (run_append (ihOperand brackets) _).trans (ihOthers brackets)
  | stop => rfl
  | step named operand others ihOperand ihOthers =>
    rw [List.map_cons, List.map_append]
    refine (run_cons_of (next_operator named brackets) _).trans ?_
    exact (run_append (ihOperand brackets) _).trans (ihOthers brackets)
  | sign named operand ih =>
    rw [List.map_cons]
    exact (run_cons_of (next_sign named brackets) _).trans (ih brackets)
  | unsigned operand ih | plain operand ih => exact ih brackets
  | raised base exponent ihBase ihExponent =>
    rw [List.map_append]
    exact (run_append (ihBase brackets) _).trans (ihExponent brackets)
  | number value => rfl
  | var name => cases name <;> rfl
  | call function arguments ih =>
    rw [List.map_cons, List.map_cons, List.map_append]
    exact (run_cons_of (next_function function brackets) _).trans (run_arguments (ih brackets))
  | parenthesis inner ih =>
    rw [List.map_cons, List.map_append]
    exact run_append (ih (.group :: brackets)) _
  | nothing => rfl
  | last operand ih => exact ih (.call :: brackets)
  | more operand others ihOperand ihOthers =>
    rw [List.map_append, List.map_cons]
    exact (run_append (ihOperand (.call :: brackets)) _).trans (ihOthers brackets)

theorem not_viable_of_stuck {tokens : List (Option Token)}
    (stuck : run ⟨.operand, []⟩ tokens = none) : ¬ Viable tokens := by
  rintro ⟨sentence, phrase, rest, same⟩
  have reads : run ⟨.operand, []⟩ (sentence.map some ++ [none]) = some ⟨.nothing, []⟩ :=
    run_append (phrase.run []) [none]
  rw [← same, Progress.run, List.foldlM_append] at reads
  unfold Progress.run at stuck
  rw [stuck] at reads
  cases reads

end

end PaymentFees.Formula
