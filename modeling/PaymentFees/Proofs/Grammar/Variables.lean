import PaymentFees.Proofs.Grammar.Reading

namespace PaymentFees

namespace Expr

section

variable {x y x' y' : Float}

mutual

theorem eval_congr : ∀ e : Expr, (.var .x ∈ e.steps → x = x') → (.var .y ∈ e.steps → y = y') →
    e.eval x y = e.eval x' y'
  | literal value, _, _ => rfl
  | var .x, here, _ => congrArg Except.ok (here (by simp [steps]))
  | var .y, _, here => congrArg Except.ok (here (by simp [steps]))
  | binary op left right, sameX, sameY => by
    simp only [steps, List.mem_append] at sameX sameY
    have first := eval_congr left (fun m => sameX (.inl (.inl m))) fun m => sameY (.inl (.inl m))
    have second := eval_congr right (fun m => sameX (.inl (.inr m))) fun m => sameY (.inl (.inr m))
    simp only [eval, first, second]
  | unary op operand, sameX, sameY => by
    simp only [steps, List.mem_append] at sameX sameY
    have inner := eval_congr operand (fun m => sameX (.inl m)) fun m => sameY (.inl m)
    simp only [eval, inner]
  | call function arguments, sameX, sameY => by
    simp only [steps, List.mem_append] at sameX sameY
    have inner := evalAll_congr arguments (fun m => sameX (.inl m)) fun m => sameY (.inl m)
    simp only [eval, inner]

theorem evalAll_congr : ∀ es : List Expr, (.var .x ∈ stepsAll es → x = x') →
    (.var .y ∈ stepsAll es → y = y') → evalAll x y es = evalAll x' y' es
  | [], _, _ => rfl
  | e :: es, sameX, sameY => by
    simp only [stepsAll, List.mem_append] at sameX sameY
    have first := eval_congr e (fun m => sameX (.inl m)) fun m => sameY (.inl m)
    have others := evalAll_congr es (fun m => sameX (.inr m)) fun m => sameY (.inr m)
    simp only [evalAll, first, others]

end

end

end Expr

namespace Formula

/-- The variable occurs in what is derived; in a tail it does not come from the left. -/
def Symbol.Uses (v : Variable) : (s : Symbol) → s.Value → Prop
  | .expression _, tree => .var v ∈ tree.steps
  | .tail _, grow => ∃ left : Expr, .var v ∉ left.steps ∧ .var v ∈ (grow left).steps
  | .operands _, trees => .var v ∈ Expr.stepsAll trees

theorem Derivation.named {v : Variable} {s : Symbol} (d : Derivation s) (uses : s.Uses v d.tree) :
    .name v.name ∈ d.tokens := by
  induction d with
  | chain first rest ihFirst ihRest =>
    simp only [tokens, List.mem_append]
    by_cases here : .var v ∈ Expr.steps first.tree
    · exact .inl (ihFirst here)
    · exact .inr (ihRest ⟨first.tree, here, uses⟩)
  | stop =>
    obtain ⟨left, absent, present⟩ := uses
    exact absurd present absent
  | step token op named operand rest ihOperand ihRest =>
    obtain ⟨left, absent, present⟩ := uses
    simp only [tokens, List.mem_cons, List.mem_append]
    by_cases here : .var v ∈ Expr.steps operand.tree
    · exact .inr (.inl (ihOperand here))
    · refine .inr (.inr (ihRest ⟨.binary op left operand.tree, ?_, present⟩))
      simp [Expr.steps, absent, here]
  | sign token op named operand ih =>
    simp only [Symbol.Uses, tree, Expr.steps, List.mem_append, List.mem_singleton, reduceCtorEq,
      or_false] at uses
    exact List.mem_cons_of_mem _ (ih uses)
  | unsigned operand ih | plain operand ih => exact ih uses
  | raised base exponent ihBase ihExponent =>
    simp only [Symbol.Uses, tree, Expr.steps, List.mem_append, List.mem_singleton, reduceCtorEq,
      or_false] at uses
    simp only [tokens, List.mem_append, List.mem_cons]
    exact uses.imp ihBase fun later => .inr (ihExponent later)
  | number value => simp [Symbol.Uses, tree, Expr.steps] at uses
  | var name =>
    simp only [Symbol.Uses, tree, Expr.steps, List.mem_singleton, Expr.Step.var.injEq] at uses
    simp [tokens, uses]
  | call function arguments accepted ih =>
    simp only [Symbol.Uses, tree, Expr.steps, List.mem_append, List.mem_singleton, reduceCtorEq,
      or_false] at uses
    simp [tokens, ih uses]
  | parenthesis inner ih => simp [tokens, ih uses]
  | nothing => simp [Symbol.Uses, tree, Expr.stepsAll] at uses
  | last operand ih =>
    simp only [Symbol.Uses, tree, Expr.stepsAll, List.append_nil] at uses
    exact ih uses
  | more operand others ihOperand ihOthers =>
    simp only [Symbol.Uses, tree, Expr.stepsAll, List.mem_append] at uses
    simp only [tokens, List.mem_append, List.mem_cons]
    exact uses.imp ihOperand fun later => .inr (ihOthers later)

/-- Some token of the text is the name of the variable. -/
def Mentions (text : String) (v : Variable) : Prop :=
  ∃ lexemes, scan 0 text.toList = .ok lexemes ∧ .name v.name ∈ lexemes.map (·.token)

instance (text : String) (v : Variable) : Decidable (Mentions text v) :=
  match scanned : scan 0 text.toList with
  | .ok lexemes =>
    decidable_of_iff (.name v.name ∈ lexemes.map (·.token)) (by simp [Mentions, scanned])
  | .error _ => .isFalse (by simp [Mentions, scanned])

theorem mentions_of_parse {text : String} {formula : Formula} (read : parse text = .ok formula)
    {v : Variable} (occurs : .var v ∈ formula.root.steps) : Mentions text v := by
  obtain ⟨lexemes, d, scanned, tokens, rfl⟩ := exists_derivation_of_parse read
  exact ⟨lexemes, scanned, tokens ▸ d.named occurs⟩

/-- A formula that does not mention the frequency has the same value, or the same error, under
all. -/
theorem eval_of_not_mentions {text : String} (omits : ¬ Mentions text .y) (x y y' : Float) :
    (parse text >>= (·.eval x y)) = (parse text >>= (·.eval x y')) := by
  cases read : parse text with
  | error => rfl
  | ok formula =>
    exact formula.root.eval_congr (fun _ => rfl)
      fun occurs => absurd (mentions_of_parse read occurs) omits

theorem valueOf?_of_not_mentions {text : String} (omits : ¬ Mentions text .y) (x y y' : Float) :
    valueOf? text x y = valueOf? text x y' := by
  unfold valueOf?
  rw [eval_of_not_mentions omits x y y']

end Formula

end PaymentFees
