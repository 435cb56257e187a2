import PaymentFees.Proofs.Guarded.Cursor

namespace PaymentFees

namespace Expr

/-- Each call has as many arguments as its function takes. -/
def Accepted (nodes : List Step) : Prop :=
  ∀ function n, .call function n ∈ nodes → function.arity.accepts n = true

theorem accepted_append {nodes others : List Step} :
    Accepted (nodes ++ others) ↔ Accepted nodes ∧ Accepted others := by
  simp [Accepted, or_imp, forall_and]

theorem accepted_call {function : Function} {n : Nat} :
    Accepted [.call function n] ↔ function.arity.accepts n = true := by
  simp [Accepted]

structure Fits (count : Nat) (nodes : List Step) : Prop where
  few : nodes.length ≤ count
  accepted : Accepted nodes

namespace Fits

variable {count more : Nat} {nodes others : List Step}

theorem nil : Fits 0 [] := ⟨Nat.le_refl 0, by simp [Accepted]⟩

theorem single {node : Step} (accepted : Accepted [node]) : Fits 1 [node] :=
  ⟨Nat.le_refl 1, accepted⟩

theorem append (front : Fits count nodes) (back : Fits more others) :
    Fits (count + more) (nodes ++ others) where
  few := by
    rw [List.length_append]
    exact Nat.add_le_add front.few back.few
  accepted := accepted_append.mpr ⟨front.accepted, back.accepted⟩

theorem mono (fits : Fits count nodes) (fewer : count ≤ more) : Fits more nodes :=
  ⟨Nat.le_trans fits.few fewer, fits.accepted⟩

end Fits

end Expr

namespace Formula

/-- What is derived fits; a tail adds to the nodes that come from the left. -/
def Symbol.Fits (count : Nat) : (s : Symbol) → s.Value → Prop
  | .expression _, tree => Expr.Fits count tree.steps
  | .tail _, grow => ∀ (left : Expr) (before : Nat), Expr.Fits before left.steps →
      Expr.Fits (before + count) (grow left).steps
  | .operands _, trees => Expr.Fits count (Expr.stepsAll trees)

theorem Derivation.fits {s : Symbol} (d : Derivation s) : s.Fits d.tokens.length d.tree := by
  -- Each node has a token of its own.
  induction d with
  | chain first rest ihFirst ihRest =>
    rw [tokens, List.length_append]
    exact ihRest first.tree _ ihFirst
  | stop => exact fun left before fits => fits
  | step token op named operand rest ihOperand ihRest =>
    intro left before fits
    have single : Expr.Fits 1 [.binary op] := .single (by simp [Expr.Accepted])
    have joined := (fits.append ihOperand).append single
    refine (ihRest (.binary op left operand.tree) _ joined).mono ?_
    simp only [tokens, List.length_append, List.length_cons]
    omega
  | sign token op named operand ih => exact ih.append (.single (by simp [Expr.Accepted]))
  | unsigned operand ih | plain operand ih => exact ih
  | raised base exponent ihBase ihExponent =>
    have single : Expr.Fits 1 [.binary .pow] := .single (by simp [Expr.Accepted])
    refine ((ihBase.append ihExponent).append single).mono ?_
    simp only [tokens, List.length_append, List.length_cons]
    omega
  | number value | var name => exact .single (by simp [Expr.Accepted])
  | call function arguments accepted ih =>
    refine (ih.append (.single (Expr.accepted_call.mpr ?_))).mono (by simp)
    rw [arguments.tree_length, accepted]
  | parenthesis inner ih =>
    refine ih.mono ?_
    simp only [tokens, List.length_append, List.length_cons]
    omega
  | nothing => exact .nil
  | last operand ih => exact ih.append .nil
  | more operand others ihOperand ihOthers =>
    exact (ihOperand.append ihOthers).mono (by simp)

theorem fits_of_parse {text : String} {formula : Formula} (read : parse text = .ok formula) :
    Expr.Fits text.utf8ByteSize formula.root.steps := by
  obtain ⟨lexemes, d, scanned, tokens, rfl⟩ := exists_derivation_of_parse read
  refine d.fits.mono ?_
  rw [tokens, List.length_map]
  have size := (Octets.at_zero text).size_eq
  have some := Octets.length_le_width text.toList
  have few := (Guarded.scan_ok scanned).1
  omega

end Formula

def FormulaError.Numeric : FormulaError → Prop
  | outsideDomain _ | overflow => True
  | _ => False

namespace Guarded

def applyAt (function : Function) (values : List Float) : Guarded Float := do
  let first ← need values[0]?
  match function with
  | .abs => return first.abs
  | .min => return pick (· < ·) first (← need values.tail?)
  | .max => return pick (· > ·) first (← need values.tail?)
  | .sqrt => if first < 0.0 then throw (.outsideDomain .sqrt) else return first.sqrt
  | .log =>
    if first ≤ 0.0 then throw (.outsideDomain .log)
    else
      match values[1]? with
      | none => return first.log
      | some base =>
        if base ≤ 0.0 || base == 1.0 then throw (.outsideDomain .log)
        else return first.log / base.log
  | .sin => if first.isInf then throw (.outsideDomain .sin) else return first.sin
  | .cos => if first.isInf then throw (.outsideDomain .cos) else return first.cos

/-- The lists of arguments that functions take. -/
inductive Takes : Function → List Float → Prop where
  | abs (value : Float) : Takes .abs [value]
  | sqrt (value : Float) : Takes .sqrt [value]
  | sin (value : Float) : Takes .sin [value]
  | cos (value : Float) : Takes .cos [value]
  | log (value : Float) : Takes .log [value]
  | logTo (value base : Float) : Takes .log [value, base]
  | min (first : Float) (others : List Float) : Takes .min (first :: others)
  | max (first : Float) (others : List Float) : Takes .max (first :: others)

theorem takes_of_accepts {function : Function} {values : List Float}
    (accepted : function.arity.accepts values.length = true) : Takes function values := by
  match function, values, accepted with
  | .abs, [value], _ => exact .abs value
  | .sqrt, [value], _ => exact .sqrt value
  | .sin, [value], _ => exact .sin value
  | .cos, [value], _ => exact .cos value
  | .log, [value], _ => exact .log value
  | .log, [value, base], _ => exact .logTo value base
  | .min, first :: others, _ => exact .min first others
  | .max, first :: others, _ => exact .max first others

theorem applyAt_eq {function : Function} {values : List Float} (takes : Takes function values) :
    applyAt function values = answer (function.apply values) := by
  cases takes with
  | abs | min | max => rfl
  | sqrt | sin | cos | log =>
    simp only [applyAt, List.getElem?_cons_zero, need_some, answer_ok_bind, Function.apply]
    split <;> rfl
  | logTo value base =>
    simp only [applyAt, List.getElem?_cons_zero, List.getElem?_cons_succ, need_some,
      answer_ok_bind, Function.apply]
    by_cases low : value ≤ 0.0
    · simp [low]
    · simp only [low, if_false, decide_false, Bool.false_or]
      split <;> rfl

theorem Takes.apply_error {function : Function} {values : List Float} {fault : FormulaError}
    (takes : Takes function values) (failed : function.apply values = .error fault) :
    fault.Numeric := by
  cases takes with
  | abs | min | max => cases failed
  | sqrt | sin | cos | log | logTo =>
    simp only [Function.apply] at failed
    split at failed <;> cases failed
    trivial

end Guarded

theorem BinaryOp.apply_error {op : BinaryOp} {a b : Float} {fault : FormulaError}
    (failed : op.apply a b = .error fault) : fault.Numeric := by
  cases op with
  | pow =>
    simp only [apply] at failed
    split at failed <;> cases failed
    trivial
  | _ => cases failed

namespace Expr

open Formula Guarded

mutual

def evalAt (x y : Float) : Expr → Guarded Float
  | literal value => return value
  | var .x => return x
  | var .y => return y
  | binary op left right => do
    let first ← left.evalAt x y
    answer (op.apply first (← right.evalAt x y))
  | unary op operand => return op.apply (← operand.evalAt x y)
  | call function arguments => do applyAt function (← evalAllAt x y arguments)

def evalAllAt (x y : Float) : List Expr → Guarded (List Float)
  | [] => return []
  | e :: es => do
    let value ← e.evalAt x y
    return value :: (← evalAllAt x y es)

end

theorem evalAll_length {x y : Float} {es : List Expr} {values : List Float}
    (evaluated : evalAll x y es = .ok values) : values.length = es.length := by
  induction es generalizing values with
  | nil =>
    cases evaluated
    rfl
  | cons e es ih =>
    obtain ⟨value, -, rest⟩ := bind_eq_ok.mp evaluated
    obtain ⟨others, later, same⟩ := bind_eq_ok.mp rest
    cases same
    exact congrArg (· + 1) (ih later)

section

variable {x y : Float}

mutual

theorem evalAt_eq : ∀ e : Expr, Accepted e.steps → e.evalAt x y = answer (e.eval x y)
  | literal value, _ => rfl
  | var .x, _ => rfl
  | var .y, _ => rfl
  | binary op left right, accepted => by
    rw [steps, accepted_append] at accepted
    have first := evalAt_eq left (accepted_append.mp accepted.1).1
    have second := evalAt_eq right (accepted_append.mp accepted.1).2
    simp only [evalAt, eval, first, second, answer_bind]
  | unary op operand, accepted => by
    rw [steps, accepted_append] at accepted
    have inner := evalAt_eq operand accepted.1
    simp only [evalAt, eval, inner, answer_bind]
    rfl
  | call function arguments, accepted => by
    rw [steps, accepted_append] at accepted
    have inner := evalAllAt_eq arguments accepted.1
    simp only [evalAt, eval, inner]
    cases evaluated : evalAll x y arguments with
    | error fault => rfl
    | ok values =>
      have count := evalAll_length evaluated
      exact applyAt_eq (takes_of_accepts (count ▸ accepted_call.mp accepted.2))

theorem evalAllAt_eq : ∀ es : List Expr, Accepted (stepsAll es) →
    evalAllAt x y es = answer (evalAll x y es)
  | [], _ => rfl
  | e :: es, accepted => by
    rw [stepsAll, accepted_append] at accepted
    have first := evalAt_eq e accepted.1
    have others := evalAllAt_eq es accepted.2
    simp only [evalAllAt, evalAll, first, others, answer_bind]
    rfl

end

mutual

theorem eval_error {fault : FormulaError} : ∀ e : Expr, Accepted e.steps →
    e.eval x y = .error fault → fault.Numeric
  | literal value, _, failed => by cases failed
  | var .x, _, failed => by cases failed
  | var .y, _, failed => by cases failed
  | binary op left right, accepted, failed => by
    rw [steps, accepted_append] at accepted
    rcases bind_eq_error.mp failed with first | ⟨a, -, failed⟩
    · exact eval_error left (accepted_append.mp accepted.1).1 first
    rcases bind_eq_error.mp failed with second | ⟨b, -, failed⟩
    · exact eval_error right (accepted_append.mp accepted.1).2 second
    · exact BinaryOp.apply_error failed
  | unary op operand, accepted, failed => by
    rw [steps, accepted_append] at accepted
    rcases bind_eq_error.mp failed with inner | ⟨value, -, failed⟩
    · exact eval_error operand accepted.1 inner
    · cases failed
  | call function arguments, accepted, failed => by
    rw [steps, accepted_append] at accepted
    rcases bind_eq_error.mp failed with inner | ⟨values, evaluated, failed⟩
    · exact evalAll_error arguments accepted.1 inner
    · have count := evalAll_length evaluated
      have takes := takes_of_accepts (count ▸ accepted_call.mp accepted.2)
      exact takes.apply_error failed

theorem evalAll_error {fault : FormulaError} : ∀ es : List Expr, Accepted (stepsAll es) →
    evalAll x y es = .error fault → fault.Numeric
  | [], _, failed => by cases failed
  | e :: es, accepted, failed => by
    rw [stepsAll, accepted_append] at accepted
    rcases bind_eq_error.mp failed with first | ⟨value, -, failed⟩
    · exact eval_error e accepted.1 first
    rcases bind_eq_error.mp failed with others | ⟨values, -, failed⟩
    · exact evalAll_error es accepted.2 others
    · cases failed

end

end

end Expr

namespace Guarded

def parse (text : String) : Guarded Formula := do
  if maxFormulaBytes < text.utf8ByteSize then
    throw (.malformed maxFormulaBytes .tooLong)
  let tokens ← split text
  return ⟨text, ← walkTree tokens⟩

theorem split_follows (text : String) :
    Follows text.utf8ByteSize
      (fun tokens lexemes => tokens = entries text.utf8ByteSize lexemes ∧
        ∀ lexeme ∈ lexemes, lexeme.start ≤ text.utf8ByteSize)
      (split text) (Formula.scan 0 text.toList) := by
  have size := (Octets.at_zero text).size_eq
  have few := Octets.length_le_width text.toList
  rw [split_eq]
  cases scanned : Formula.scan 0 text.toList with
  | error fault =>
    refine .fails ?_
    rintro place why rfl
    have place := scan_error scanned
    omega
  | ok lexemes =>
    refine .gives ⟨rfl, fun lexeme present => ?_⟩
    have start := (scan_ok scanned).2 lexeme present
    omega

theorem parse_follows (text : String) :
    Follows text.utf8ByteSize Eq (parse text) (Formula.parse text) := by
  rw [parse, Formula.parse]
  refine Follows.ite (fun long => .fails ?_) fun short => ?_
  · rintro place why ⟨⟩
    exact Nat.le_of_lt long
  · refine (split_follows text).bind ?_
    rintro _ lexemes ⟨rfl, within⟩
    refine (walkTree_follows within).bind ?_
    rintro tree _ rfl
    exact .gives rfl

/-- Splitting a text of any length is never stuck, nor is reading or evaluating a formula: no
character is cut, no number that was scanned fails to be one, no token is looked for past the end,
where the cursor stays, and no argument is missing. A formula has no more nodes than its text has
bytes, its evaluation fails only by its numbers, and a text is malformed nowhere after its end. -/
theorem never_stuck (text : String) :
    split text = answer ((Formula.scan 0 text.toList).map (entries text.utf8ByteSize)) ∧
    (∀ tokens, split text = answer (.ok tokens) → ∀ pos < tokens.length,
      ∃ next < tokens.length, bump tokens pos = answer (.ok next)) ∧
    parse text = answer (Formula.parse text) ∧
    (∀ place why, Formula.parse text = .error (.malformed place why) →
      place ≤ text.utf8ByteSize) ∧
    ∀ formula, Formula.parse text = .ok formula →
      formula.root.steps.length ≤ text.utf8ByteSize ∧
      Expr.Accepted formula.root.steps ∧
      ∀ x y, formula.root.evalAt x y = answer (formula.eval x y) ∧
        ∀ fault, formula.eval x y = .error fault → fault.Numeric := by
  refine ⟨split_eq text, fun tokens found pos inside => ?_, (parse_follows text).eq_answer,
    fun place why failed => (parse_follows text).place_le failed, fun formula read => ?_⟩
  · obtain ⟨lexemes, -, rfl, -⟩ := (split_follows text).exists_of_answer found
    obtain ⟨next, moves, there⟩ := (Stands.of_inside inside).bump text.utf8ByteSize
    exact ⟨next, there.inside _, moves⟩
  · have fits := Formula.fits_of_parse read
    exact ⟨fits.few, fits.accepted, fun x y => ⟨formula.root.evalAt_eq fits.accepted,
      fun fault failed => formula.root.eval_error fits.accepted failed⟩⟩

theorem never_stuck_log :
    let root : Expr := .binary .mul (.call .log [.var .x, .var .y]) (.unary .minus (.var .y))
    Formula.parse "log(x, y) * -y" = .ok ⟨"log(x, y) * -y", root⟩ ∧
      root.steps.length ≤ "log(x, y) * -y".utf8ByteSize ∧
      ∀ x y, root.evalAt x y = answer (root.eval x y) := by
  intro root
  have walked : parse "log(x, y) * -y" = answer (.ok ⟨"log(x, y) * -y", root⟩) := rfl
  obtain ⟨_, read, rfl⟩ := (parse_follows "log(x, y) * -y").exists_of_answer walked
  obtain ⟨few, -, values⟩ := (never_stuck "log(x, y) * -y").2.2.2.2 _ read
  exact ⟨read, few, fun x y => (values x y).1⟩

end Guarded

end PaymentFees
