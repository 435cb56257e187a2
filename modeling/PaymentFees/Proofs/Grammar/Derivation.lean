import Mathlib.Tactic.Common
import PaymentFees.Formula.Basic

namespace PaymentFees

def Variable.name : Variable → String
  | x => "x"
  | y => "y"

namespace Token

def reach : Token → Nat
  | openParen => 0
  | caret => 1
  | star | slash => 2
  | plus | minus => 3
  | comma => 4
  | _ => 5

def Opens : Token → Prop
  | number _ | name _ | openParen => True
  | _ => False

end Token

namespace Formula

inductive ChainKind where
  | sum | product
  deriving DecidableEq, Repr

inductive Rank where
  | atom | power | signed
  | chain (kind : ChainKind)
  deriving DecidableEq, Repr

namespace ChainKind

def operator : ChainKind → Token → Option BinaryOp
  | sum => sumOperator
  | product => productOperator

def operand : ChainKind → Rank
  | sum => .chain .product
  | product => .signed

end ChainKind

/-- What a derivation can be of: an expression, the operators and operands that go on a chain, or
so many operands between commas. -/
inductive Symbol where
  | expression (rank : Rank)
  | tail (kind : ChainKind)
  | operands (count : Nat)
  deriving DecidableEq, Repr

abbrev Symbol.sum : Symbol := .expression (.chain .sum)

/-- What a derivation denotes; a tail awaits the operand on its left. -/
@[reducible] def Symbol.Value : Symbol → Type
  | expression _ => Expr
  | tail _ => Expr → Expr
  | operands _ => List Expr

inductive Derivation : Symbol → Type where
  | chain {kind : ChainKind} (first : Derivation (.expression kind.operand))
      (rest : Derivation (.tail kind)) : Derivation (.expression (.chain kind))
  | stop {kind : ChainKind} : Derivation (.tail kind)
  | step {kind : ChainKind} (token : Token) (op : BinaryOp) (named : kind.operator token = some op)
      (operand : Derivation (.expression kind.operand)) (rest : Derivation (.tail kind)) :
      Derivation (.tail kind)
  | sign (token : Token) (op : UnaryOp) (named : unaryOperator token = some op)
      (operand : Derivation (.expression .signed)) : Derivation (.expression .signed)
  | unsigned (operand : Derivation (.expression .power)) : Derivation (.expression .signed)
  | raised (base : Derivation (.expression .atom))
      (exponent : Derivation (.expression .signed)) : Derivation (.expression .power)
  | plain (base : Derivation (.expression .atom)) : Derivation (.expression .power)
  | number (value : Float) : Derivation (.expression .atom)
  | var (name : Variable) : Derivation (.expression .atom)
  | call (function : Function) {count : Nat} (arguments : Derivation (.operands count))
      (accepted : function.arity.accepts count = true) : Derivation (.expression .atom)
  | parenthesis (inner : Derivation .sum) : Derivation (.expression .atom)
  | nothing : Derivation (.operands 0)
  | last (operand : Derivation .sum) : Derivation (.operands 1)
  | more {count : Nat} (operand : Derivation .sum) (others : Derivation (.operands (count + 1))) :
      Derivation (.operands (count + 2))

namespace Derivation

@[simp] def tokens : {s : Symbol} → Derivation s → List Token
  | _, chain first rest => first.tokens ++ rest.tokens
  | _, stop => []
  | _, step token _ _ operand rest => token :: (operand.tokens ++ rest.tokens)
  | _, sign token _ _ operand => token :: operand.tokens
  | _, unsigned operand => operand.tokens
  | _, raised base exponent => base.tokens ++ .caret :: exponent.tokens
  | _, plain base => base.tokens
  | _, number value => [.number value]
  | _, var name => [.name name.name]
  | _, call function arguments _ =>
    .name function.name :: .openParen :: (arguments.tokens ++ [.closeParen])
  | _, parenthesis inner => .openParen :: (inner.tokens ++ [.closeParen])
  | _, nothing => []
  | _, last operand => operand.tokens
  | _, more operand others => operand.tokens ++ .comma :: others.tokens

/-- The tree that is read; the operators of a chain associate to the left. -/
def tree : {s : Symbol} → Derivation s → s.Value
  | _, chain first rest => rest.tree first.tree
  | _, stop => fun left => left
  | _, step _ op _ operand rest => fun left => rest.tree (.binary op left operand.tree)
  | _, sign _ op _ operand => .unary op operand.tree
  | _, unsigned operand => operand.tree
  | _, raised base exponent => .binary .pow base.tree exponent.tree
  | _, plain base => base.tree
  | _, number value => .literal value
  | _, var name => .var name
  | _, call function arguments _ => .call function arguments.tree
  | _, parenthesis inner => inner.tree
  | _, nothing => []
  | _, last operand => [operand.tree]
  | _, more operand others => operand.tree :: others.tree

/-- The most signs, exponents, parentheses and calls that enclose any one place. -/
def depth : {s : Symbol} → Derivation s → Nat
  | _, chain first rest => max first.depth rest.depth
  | _, stop => 0
  | _, step _ _ _ operand rest => max operand.depth rest.depth
  | _, sign _ _ _ operand => operand.depth + 1
  | _, unsigned operand => operand.depth
  | _, raised base exponent => max base.depth (exponent.depth + 1)
  | _, plain base => base.depth
  | _, number _ => 0
  | _, var _ => 0
  | _, call _ arguments _ => arguments.depth + 1
  | _, parenthesis inner => inner.depth + 1
  | _, nothing => 0
  | _, last operand => operand.depth
  | _, more operand others => max operand.depth others.depth

end Derivation

theorem Derivation.tree_length :
    {count : Nat} → (d : Derivation (.operands count)) → List.length d.tree = count
  | _, nothing => rfl
  | _, last _ => rfl
  | _, more _ others => congrArg (· + 1) (tree_length others)

def ChainKind.reach : ChainKind → Nat
  | product => 2
  | sum => 3

def Rank.reach : Rank → Nat
  | atom => 0
  | power | signed => 1
  | chain kind => kind.reach

def Symbol.reach : Symbol → Nat
  | expression rank => rank.reach
  | tail kind => kind.reach
  | operands _ => 4

/-- What follows does not go on with the phrase. -/
def Ends (s : Symbol) (following : List Token) : Prop :=
  ∀ token, following.head? = some token → s.reach < token.reach

theorem Ends.of_le {s t : Symbol} {following : List Token} (ends : Ends t following)
    (tighter : s.reach ≤ t.reach) : Ends s following :=
  fun token first => Nat.lt_of_le_of_lt tighter (ends token first)

theorem ends_cons {s : Symbol} {token : Token} {following : List Token} :
    Ends s (token :: following) ↔ s.reach < token.reach := by
  simp [Ends]

theorem ends_nil (s : Symbol) : Ends s [] := by simp [Ends]

theorem ChainKind.reach_operand (kind : ChainKind) : kind.operand.reach < kind.reach := by
  cases kind <;> decide

theorem ChainKind.operator_reach {kind : ChainKind} {token : Token} {op : BinaryOp}
    (named : kind.operator token = some op) : token.reach = kind.reach := by
  cases kind <;> cases token <;>
    simp_all [operator, sumOperator, productOperator, Token.reach, reach]

theorem ends_of_tail {kind : ChainKind} (rest : Derivation (.tail kind)) {following : List Token}
    (ends : Ends (.tail kind) following) :
    Ends (.expression kind.operand) (rest.tokens ++ following) := by
  cases rest with
  | stop => exact ends.of_le (Nat.le_of_lt kind.reach_operand)
  | step token op named operand rest =>
    simp only [Derivation.tokens, List.cons_append, ends_cons]
    rw [ChainKind.operator_reach named]
    exact kind.reach_operand

def Symbol.StartsWith : Symbol → Token → Prop
  | expression .atom, token | expression .power, token => token.Opens
  | _, token => token.Opens ∨ (unaryOperator token).isSome = true

theorem Derivation.starts {s : Symbol} (d : Derivation s) :
    match s with
    | .tail _ | .operands 0 => True
    | s => ∃ token others, d.tokens = token :: others ∧ s.StartsWith token := by
  induction d with
  | stop | step | nothing => trivial
  | number | var | call | parenthesis => exact ⟨_, _, rfl, trivial⟩
  | plain base ih => exact ih
  | raised base exponent ih _ =>
    obtain ⟨token, others, same, opens⟩ := ih
    exact ⟨token, _, by rw [tokens, same]; rfl, opens⟩
  | unsigned operand ih =>
    obtain ⟨token, others, same, opens⟩ := ih
    exact ⟨token, others, same, .inl opens⟩
  | sign token op named operand => exact ⟨token, _, rfl, .inr (by rw [named]; rfl)⟩
  | @chain kind first rest ih _ =>
    obtain ⟨token, others, same, opens⟩ : ∃ token others, first.tokens = token :: others ∧
        (token.Opens ∨ (unaryOperator token).isSome = true) := by
      cases kind <;> exact ih
    exact ⟨token, _, by rw [tokens, same]; rfl, opens⟩
  | last operand ih => exact ih
  | more operand others ih _ =>
    obtain ⟨token, others, same, opens⟩ := ih
    exact ⟨token, _, by rw [tokens, same]; rfl, opens⟩

theorem ofName?_name (function : Function) : Function.ofName? function.name = some function := by
  cases function <;> decide

theorem unaryOperator_of_opens {token : Token} (opens : token.Opens) :
    unaryOperator token = none := by
  cases token <;> first | rfl | exact opens.elim

/-- No other derivation has the same tokens before what may follow. -/
def Unambiguous : {s : Symbol} → Derivation s → Prop
  | .operands count, d =>
    ∀ {count' : Nat} (other : Derivation (.operands count')) {after after' : List Token},
      d.tokens ++ .closeParen :: after = other.tokens ++ .closeParen :: after' →
        (⟨count, d⟩ : (n : Nat) × Derivation (.operands n)) = ⟨count', other⟩ ∧ after = after'
  | s, d =>
    ∀ (other : Derivation s) {after after' : List Token},
      d.tokens ++ after = other.tokens ++ after' → Ends s after → Ends s after' →
        d = other ∧ after = after'

theorem not_ends_step {kind : ChainKind} {token : Token} {op : BinaryOp}
    (named : kind.operator token = some op) (after : List Token) :
    ¬ Ends (.tail kind) (token :: after) := by
  rw [ends_cons, ChainKind.operator_reach named]
  exact Nat.lt_irrefl _

theorem not_signed (d : Derivation (.expression .power)) {token : Token} {op : UnaryOp}
    (named : unaryOperator token = some op) {after after' : List Token} :
    d.tokens ++ after ≠ token :: after' := by
  intro same
  obtain ⟨first, others, start, opens⟩ := d.starts
  rw [start] at same
  obtain ⟨rfl, -⟩ := List.cons.inj same
  rw [unaryOperator_of_opens opens] at named
  cases named

theorem not_closed {count : Nat} (d : Derivation (.operands (count + 1)))
    {after after' : List Token} : d.tokens ++ after ≠ .closeParen :: after' := by
  intro same
  obtain ⟨first, others, start, opens⟩ : ∃ token others, d.tokens = token :: others ∧
      (token.Opens ∨ (unaryOperator token).isSome = true) := d.starts
  rw [start] at same
  obtain ⟨rfl, -⟩ := List.cons.inj same
  simp [Token.Opens, unaryOperator] at opens

theorem name_injective {f g : Function} (same : f.name = g.name) : f = g :=
  Option.some.inj ((ofName?_name f).symm.trans ((congrArg _ same).trans (ofName?_name g)))

namespace Unambiguous

variable {kind : ChainKind} {count : Nat}

theorem chain {first : Derivation (.expression kind.operand)} {rest : Derivation (.tail kind)}
    (unique : Unambiguous first) (others : Unambiguous rest) :
    Unambiguous (.chain first rest) := by
  intro other after after' same ends ends'
  cases other with
  | chain first' rest' =>
    simp only [Derivation.tokens, List.append_assoc] at same
    obtain ⟨rfl, sameRest⟩ := unique first' same (ends_of_tail rest ends) (ends_of_tail rest' ends')
    obtain ⟨rfl, rfl⟩ := others rest' sameRest ends ends'
    exact ⟨rfl, rfl⟩

theorem stop : Unambiguous (.stop : Derivation (.tail kind)) := by
  intro other after after' same ends ends'
  cases other with
  | stop => exact ⟨rfl, same⟩
  | step token op named operand rest =>
    cases same
    exact absurd ends (not_ends_step named _)

theorem step {token : Token} {op : BinaryOp} (named : kind.operator token = some op)
    {operand : Derivation (.expression kind.operand)} {rest : Derivation (.tail kind)}
    (unique : Unambiguous operand) (others : Unambiguous rest) :
    Unambiguous (.step token op named operand rest) := by
  intro other after after' same ends ends'
  cases other with
  | stop =>
    cases same
    exact absurd ends' (not_ends_step named _)
  | step token' op' named' operand' rest' =>
    simp only [Derivation.tokens, List.cons_append, List.append_assoc] at same
    obtain ⟨rfl, sameOperand⟩ := List.cons.inj same
    cases named.symm.trans named'
    obtain ⟨rfl, sameRest⟩ :=
      unique operand' sameOperand (ends_of_tail rest ends) (ends_of_tail rest' ends')
    obtain ⟨rfl, rfl⟩ := others rest' sameRest ends ends'
    exact ⟨rfl, rfl⟩

theorem sign {token : Token} {op : UnaryOp} (named : unaryOperator token = some op)
    {operand : Derivation (.expression .signed)} (unique : Unambiguous operand) :
    Unambiguous (.sign token op named operand) := by
  intro other after after' same ends ends'
  cases other with
  | sign token' op' named' operand' =>
    obtain ⟨rfl, sameOperand⟩ := List.cons.inj same
    cases named.symm.trans named'
    obtain ⟨rfl, rfl⟩ := unique operand' sameOperand ends ends'
    exact ⟨rfl, rfl⟩
  | unsigned operand' => exact absurd same.symm (not_signed operand' named)

theorem unsigned {operand : Derivation (.expression .power)} (unique : Unambiguous operand) :
    Unambiguous (.unsigned operand) := by
  intro other after after' same ends ends'
  cases other with
  | sign token' op' named' operand' => exact absurd same (not_signed operand named')
  | unsigned operand' =>
    obtain ⟨rfl, rfl⟩ := unique operand' same ends ends'
    exact ⟨rfl, rfl⟩

theorem atom {base base' : Derivation (.expression .atom)} (unique : Unambiguous base)
    {after after' : List Token} (same : base.tokens ++ after = base'.tokens ++ after')
    (ends : Ends (.expression .power) after ∨ after.head? = some .caret)
    (ends' : Ends (.expression .power) after' ∨ after'.head? = some .caret) :
    base = base' ∧ after = after' := by
  have ending {following : List Token}
      (ends : Ends (.expression .power) following ∨ following.head? = some .caret) :
      Ends (.expression .atom) following := by
    rcases ends with ends | caret
    · exact ends.of_le (Nat.zero_le _)
    · intro token first
      cases caret.symm.trans first
      exact Nat.one_pos
  exact unique base' same (ending ends) (ending ends')

theorem plain {base : Derivation (.expression .atom)} (unique : Unambiguous base) :
    Unambiguous (.plain base) := by
  intro other after after' same ends ends'
  cases other with
  | plain base' =>
    obtain ⟨rfl, rfl⟩ := unique.atom same (.inl ends) (.inl ends')
    exact ⟨rfl, rfl⟩
  | raised base' exponent' =>
    simp only [Derivation.tokens, List.append_assoc, List.cons_append] at same
    obtain ⟨-, rfl⟩ := unique.atom same (.inl ends) (.inr rfl)
    exact absurd (ends_cons.mp ends) (Nat.lt_irrefl 1)

theorem raised {base : Derivation (.expression .atom)} {exponent : Derivation (.expression .signed)}
    (unique : Unambiguous base) (power : Unambiguous exponent) :
    Unambiguous (.raised base exponent) := by
  intro other after after' same ends ends'
  simp only [Derivation.tokens, List.append_assoc, List.cons_append] at same
  cases other with
  | plain base' =>
    obtain ⟨-, rfl⟩ := unique.atom same (.inr rfl) (.inl ends')
    exact absurd (ends_cons.mp ends') (Nat.lt_irrefl 1)
  | raised base' exponent' =>
    simp only [Derivation.tokens, List.append_assoc, List.cons_append] at same
    obtain ⟨rfl, sameExponent⟩ := unique.atom same (.inr rfl) (.inr rfl)
    obtain ⟨rfl, rfl⟩ := power exponent' (List.cons.inj sameExponent).2 ends ends'
    exact ⟨rfl, rfl⟩

theorem number (value : Float) : Unambiguous (.number value) := by
  intro other after after' same ends ends'
  cases other with
  | number value' => cases same; exact ⟨rfl, rfl⟩
  | var | call | parenthesis => cases same

theorem var (name : Variable) : Unambiguous (.var name) := by
  intro other after after' same ends ends'
  cases other with
  | number | parenthesis => cases same
  | var name' => cases name <;> cases name' <;> simp_all [Derivation.tokens, Variable.name]
  | call function' arguments' accepted' =>
    -- A parenthesis would go on with the name.
    obtain ⟨-, rfl⟩ := List.cons.inj same
    exact absurd (ends_cons.mp ends) (Nat.lt_irrefl 0)

theorem call {function : Function} {arguments : Derivation (.operands count)}
    (accepted : function.arity.accepts count = true) (unique : Unambiguous arguments) :
    Unambiguous (.call function arguments accepted) := by
  intro other after after' same ends ends'
  cases other with
  | number | parenthesis => cases same
  | var name' =>
    obtain ⟨-, rfl⟩ := List.cons.inj same
    exact absurd (ends_cons.mp ends') (Nat.lt_irrefl 0)
  | call function' arguments' accepted' =>
    simp only [Derivation.tokens, List.append_assoc, List.cons_append, List.nil_append,
      List.cons.injEq, Token.name.injEq, true_and] at same
    cases name_injective same.1
    obtain ⟨sameArguments, rfl⟩ := unique arguments' same.2
    cases sameArguments
    exact ⟨rfl, rfl⟩

theorem parenthesis {inner : Derivation .sum} (unique : Unambiguous inner) :
    Unambiguous (.parenthesis inner) := by
  intro other after after' same ends ends'
  cases other with
  | number | var | call => cases same
  | parenthesis inner' =>
    simp only [Derivation.tokens, List.append_assoc, List.cons_append, List.nil_append,
      List.cons.injEq, true_and] at same
    obtain ⟨rfl, sameAfter⟩ :=
      unique inner' same (ends_cons.mpr (by decide)) (ends_cons.mpr (by decide))
    exact ⟨rfl, (List.cons.inj sameAfter).2⟩

theorem nothing : Unambiguous .nothing := by
  intro count' other after after' same
  cases other with
  | nothing => cases same; exact ⟨rfl, rfl⟩
  | last | more => exact absurd same.symm (not_closed _)

theorem last {operand : Derivation .sum} (unique : Unambiguous operand) :
    Unambiguous (.last operand) := by
  intro count' other after after' same
  have ends : Ends .sum (.closeParen :: after) := ends_cons.mpr (by decide)
  cases other with
  | nothing => exact absurd same (not_closed (.last operand))
  | last operand' =>
    obtain ⟨rfl, sameAfter⟩ := unique operand' same ends (ends_cons.mpr (by decide))
    exact ⟨rfl, (List.cons.inj sameAfter).2⟩
  | more operand' others' =>
    simp only [Derivation.tokens, List.append_assoc, List.cons_append] at same
    obtain ⟨-, sameAfter⟩ := unique operand' same ends (ends_cons.mpr (by decide))
    cases sameAfter

theorem more {operand : Derivation .sum} {others : Derivation (.operands (count + 1))}
    (unique : Unambiguous operand) (rest : Unambiguous others) :
    Unambiguous (.more operand others) := by
  intro count' other after after' same
  have ends : Ends .sum (.comma :: (others.tokens ++ .closeParen :: after)) :=
    ends_cons.mpr (by decide)
  cases other with
  | nothing => exact absurd same (not_closed (.more operand others))
  | last operand' =>
    simp only [Derivation.tokens, List.append_assoc, List.cons_append] at same
    obtain ⟨-, sameAfter⟩ := unique operand' same ends (ends_cons.mpr (by decide))
    cases sameAfter
  | more operand' others' =>
    simp only [Derivation.tokens, List.append_assoc, List.cons_append] at same
    obtain ⟨rfl, sameOthers⟩ := unique operand' same ends (ends_cons.mpr (by decide))
    obtain ⟨sameArguments, rfl⟩ := rest others' (List.cons.inj sameOthers).2
    cases sameArguments
    exact ⟨rfl, rfl⟩

end Unambiguous

theorem unambiguous {s : Symbol} (d : Derivation s) : Unambiguous d := by
  induction d with
  | chain first rest unique others => exact unique.chain others
  | stop => exact .stop
  | step token op named operand rest unique others => exact unique.step named others
  | sign token op named operand unique => exact unique.sign named
  | unsigned operand unique => exact unique.unsigned
  | plain base unique => exact unique.plain
  | raised base exponent unique power => exact unique.raised power
  | number value => exact .number value
  | var name => exact .var name
  | call function arguments accepted unique => exact unique.call accepted
  | parenthesis inner unique => exact unique.parenthesis
  | nothing => exact Unambiguous.nothing
  | last operand unique => exact unique.last
  | more operand others unique rest => exact unique.more rest

end Formula

end PaymentFees
