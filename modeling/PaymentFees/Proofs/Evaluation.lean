import Mathlib.Data.List.Forall2
import PaymentFees.Proofs.Grammar.WrongTokens
import PaymentFees.Proofs.Guarded.Values

/-!
How evaluations end. A formula has a value unless one of its nodes fails on the values of its
operands, and then the error is that of the first such node, where operands come before their node
and from left to right. Only powers overflow, and only functions with a domain are asked for a value
outside it; neither happens to a formula while it is read.
-/

namespace PaymentFees

open Formula Guarded

namespace Expr

mutual

def nodes : Expr → List Expr
  | literal value => [literal value]
  | var name => [var name]
  | binary op left right => left.nodes ++ right.nodes ++ [binary op left right]
  | unary op operand => operand.nodes ++ [unary op operand]
  | call function arguments => nodesAll arguments ++ [call function arguments]

def nodesAll : List Expr → List Expr
  | [] => []
  | e :: es => e.nodes ++ nodesAll es

end

def step : Expr → Step
  | literal value => .literal value
  | var name => .var name
  | binary op _ _ => .binary op
  | unary op _ => .unary op
  | call function arguments => .call function arguments.length

mutual

theorem steps_eq : ∀ e : Expr, e.steps = e.nodes.map step
  | literal value => rfl
  | var name => rfl
  | binary op left right => by
    simp only [steps, nodes, List.map_append, steps_eq left, steps_eq right]
    rfl
  | unary op operand => by
    simp only [steps, nodes, List.map_append, steps_eq operand]
    rfl
  | call function arguments => by
    simp only [steps, nodes, List.map_append, stepsAll_eq arguments]
    rfl

theorem stepsAll_eq : ∀ es : List Expr, stepsAll es = (nodesAll es).map step
  | [] => rfl
  | e :: es => by simp only [stepsAll, nodesAll, List.map_append, steps_eq e, stepsAll_eq es]

end

theorem accepts_of_mem_nodes {e : Expr} (accepted : Accepted e.steps) {function : Function}
    {arguments : List Expr} (present : call function arguments ∈ e.nodes) :
    function.arity.accepts arguments.length = true := by
  rw [steps_eq] at accepted
  exact accepted function arguments.length (List.mem_map.mpr ⟨_, present, rfl⟩)

section

-- The point at which trees are evaluated.
variable (x y : Float)

/-- The tree has the value: its operands have values, and its node gives one for them. -/
inductive Yields : Expr → Float → Prop where
  | literal (value : Float) : Yields (.literal value) value
  | size : Yields (.var .x) x
  | frequency : Yields (.var .y) y
  | binary {op : BinaryOp} {left right : Expr} {a b value : Float} (first : Yields left a)
      (second : Yields right b) (applied : op.apply a b = .ok value) :
      Yields (.binary op left right) value
  | unary {op : UnaryOp} {operand : Expr} {value : Float} (inner : Yields operand value) :
      Yields (.unary op operand) (op.apply value)
  | call {function : Function} {arguments : List Expr} {values : List Float} {value : Float}
      (inner : List.Forall₂ Yields arguments values)
      (applied : function.apply values = .ok value) : Yields (.call function arguments) value

/-- The operands of a node have values, and the node fails on them. -/
inductive Fails : Expr → FormulaError → Prop where
  | binary {op : BinaryOp} {left right : Expr} {a b : Float} {fault : FormulaError}
      (first : Yields x y left a) (second : Yields x y right b)
      (applied : op.apply a b = .error fault) : Fails (.binary op left right) fault
  | call {function : Function} {arguments : List Expr} {values : List Float}
      {fault : FormulaError} (inner : List.Forall₂ (Yields x y) arguments values)
      (applied : function.apply values = .error fault) : Fails (.call function arguments) fault

def Quiet (nodes : List Expr) : Prop := ∀ node ∈ nodes, ∀ fault, ¬ Fails x y node fault

/-- The node fails so, and none before it in the list does. -/
def FirstFailure (nodes : List Expr) (node : Expr) (fault : FormulaError) : Prop :=
  ∃ before after, nodes = before ++ node :: after ∧ Quiet x y before ∧ Fails x y node fault

/-- The ways in which a node of a tree that was read can fail: a power of finite numbers is
infinite, or a function with a domain is called outside it. -/
inductive Arises : Expr → FormulaError → Prop where
  | power {left right : Expr} {a b : Float} (first : Yields x y left a)
      (second : Yields x y right b) (finite : a.isFinite = true ∧ b.isFinite = true)
      (infinite : (a.pow b).isInf = true) : Arises (.binary .pow left right) .overflow
  | domain {function : Function} (limited : function ∈ [.sqrt, .log, .sin, .cos])
      (arguments : List Expr) : Arises (.call function arguments) (.outsideDomain function)

end

variable {x y : Float}

theorem quiet_append {nodes others : List Expr} :
    Quiet x y (nodes ++ others) ↔ Quiet x y nodes ∧ Quiet x y others := by
  simp [Quiet, or_imp, forall_and]

theorem FirstFailure.append {nodes : List Expr} {node : Expr} {fault : FormulaError}
    (first : FirstFailure x y nodes node fault) (others : List Expr) :
    FirstFailure x y (nodes ++ others) node fault := by
  obtain ⟨before, after, rfl, quiet, fails⟩ := first
  exact ⟨before, after ++ others, by simp, quiet, fails⟩

theorem FirstFailure.behind {front nodes : List Expr} {node : Expr} {fault : FormulaError}
    (quiet : Quiet x y front) (first : FirstFailure x y nodes node fault) :
    FirstFailure x y (front ++ nodes) node fault := by
  obtain ⟨before, after, rfl, quieter, fails⟩ := first
  exact ⟨front ++ before, after, by simp, quiet_append.mpr ⟨quiet, quieter⟩, fails⟩

theorem Fails.first {node : Expr} {fault : FormulaError} (fails : Fails x y node fault) :
    FirstFailure x y [node] node fault :=
  ⟨[], [], rfl, by simp [Quiet], fails⟩

theorem FirstFailure.not_quiet {nodes : List Expr} {node : Expr} {fault : FormulaError}
    (first : FirstFailure x y nodes node fault) : ¬ Quiet x y nodes := by
  obtain ⟨before, after, rfl, -, fails⟩ := first
  exact fun quiet => quiet node (by simp) fault fails

mutual

theorem eval_eq_ok_iff : ∀ (e : Expr) (value : Float), e.eval x y = .ok value ↔ Yields x y e value
  | literal number, value => by
    refine ⟨fun evaluated => ?_, fun yields => ?_⟩
    · cases evaluated
      exact .literal _
    · cases yields
      rfl
  | var .x, value => by
    refine ⟨fun evaluated => ?_, fun yields => ?_⟩
    · cases evaluated
      exact .size
    · cases yields
      rfl
  | var .y, value => by
    refine ⟨fun evaluated => ?_, fun yields => ?_⟩
    · cases evaluated
      exact .frequency
    · cases yields
      rfl
  | binary op left right, value => by
    refine ⟨fun evaluated => ?_, fun yields => ?_⟩
    · obtain ⟨a, first, evaluated⟩ := bind_eq_ok.mp evaluated
      obtain ⟨b, second, applied⟩ := bind_eq_ok.mp evaluated
      exact .binary ((eval_eq_ok_iff left a).mp first) ((eval_eq_ok_iff right b).mp second) applied
    · cases yields with
      | @binary _ _ _ a b _ first second applied =>
        have first := (eval_eq_ok_iff left a).mpr first
        have second := (eval_eq_ok_iff right b).mpr second
        rw [eval, first, second]
        exact applied
  | unary op operand, value => by
    refine ⟨fun evaluated => ?_, fun yields => ?_⟩
    · obtain ⟨inner, found, same⟩ := bind_eq_ok.mp evaluated
      cases same
      exact .unary ((eval_eq_ok_iff operand inner).mp found)
    · cases yields with
      | @unary _ _ inner found =>
        have found := (eval_eq_ok_iff operand inner).mpr found
        rw [eval, found]
        rfl
  | call function arguments, value => by
    refine ⟨fun evaluated => ?_, fun yields => ?_⟩
    · obtain ⟨values, found, applied⟩ := bind_eq_ok.mp evaluated
      exact .call ((evalAll_eq_ok_iff arguments values).mp found) applied
    · cases yields with
      | @call _ _ values _ found applied =>
        have found := (evalAll_eq_ok_iff arguments values).mpr found
        rw [eval, found]
        exact applied

theorem evalAll_eq_ok_iff : ∀ (es : List Expr) (values : List Float),
    evalAll x y es = .ok values ↔ List.Forall₂ (Yields x y) es values
  | [], values => by
    refine ⟨fun evaluated => ?_, fun yields => ?_⟩
    · cases evaluated
      exact .nil
    · cases yields
      rfl
  | e :: es, values => by
    refine ⟨fun evaluated => ?_, fun yields => ?_⟩
    · obtain ⟨value, first, evaluated⟩ := bind_eq_ok.mp evaluated
      obtain ⟨others, later, same⟩ := bind_eq_ok.mp evaluated
      cases same
      exact .cons ((eval_eq_ok_iff e value).mp first) ((evalAll_eq_ok_iff es others).mp later)
    · cases yields with
      | @cons _ value _ others first later =>
        have first := (eval_eq_ok_iff e value).mpr first
        have later := (evalAll_eq_ok_iff es others).mpr later
        rw [evalAll, first, later]
        rfl

end

theorem Fails.eval_eq {node : Expr} {fault : FormulaError} (fails : Fails x y node fault) :
    node.eval x y = .error fault := by
  cases fails with
  | @binary op left right a b _ first second applied =>
    have first := (eval_eq_ok_iff left a).mpr first
    have second := (eval_eq_ok_iff right b).mpr second
    rw [eval, first, second]
    exact applied
  | @call function arguments values _ inner applied =>
    have inner := (evalAll_eq_ok_iff arguments values).mpr inner
    rw [eval, inner]
    exact applied

theorem quiet_of_eval {node : Expr} {value : Float} (evaluated : node.eval x y = .ok value) :
    Quiet x y [node] := by
  intro other present fault fails
  rw [List.mem_singleton.mp present] at fails
  rw [fails.eval_eq] at evaluated
  cases evaluated

theorem Quiet.length_le {before after earlier later : List Expr} {node other : Expr}
    {wrong : FormulaError} (quiet : Quiet x y before) (fails : Fails x y other wrong)
    (same : before ++ node :: after = earlier ++ other :: later) :
    before.length ≤ earlier.length := by
  by_contra longer
  have there := congrArg (·[earlier.length]?) same
  simp only [List.getElem?_append_left (Nat.lt_of_not_le longer), List.getElem?_append_right,
    Nat.le_refl, Nat.sub_self, List.getElem?_cons_zero] at there
  exact quiet other (List.mem_of_getElem? there) wrong fails

theorem FirstFailure.unique {nodes : List Expr} {node other : Expr} {fault wrong : FormulaError}
    (first : FirstFailure x y nodes node fault) (second : FirstFailure x y nodes other wrong) :
    node = other ∧ fault = wrong := by
  obtain ⟨before, after, rfl, quiet, fails⟩ := first
  obtain ⟨earlier, later, same, quieter, failsToo⟩ := second
  have place : before.length = earlier.length :=
    Nat.le_antisymm (quiet.length_le failsToo same) (quieter.length_le fails same.symm)
  obtain ⟨rfl, rest⟩ := List.append_inj same place
  obtain ⟨rfl, rfl⟩ := List.cons.inj rest
  exact ⟨rfl, Except.error.inj (fails.eval_eq.symm.trans failsToo.eval_eq)⟩

mutual

/-- Where a tree has a value, none of its nodes fails. -/
theorem quiet_nodes : ∀ (e : Expr) {value : Float}, e.eval x y = .ok value → Quiet x y e.nodes
  | literal number, value, evaluated => quiet_of_eval evaluated
  | var name, value, evaluated => quiet_of_eval evaluated
  | binary op left right, value, evaluated => by
    have node := quiet_of_eval evaluated
    obtain ⟨a, first, evaluated⟩ := bind_eq_ok.mp evaluated
    obtain ⟨b, second, -⟩ := bind_eq_ok.mp evaluated
    have operands := quiet_append.mpr ⟨quiet_nodes left first, quiet_nodes right second⟩
    exact quiet_append.mpr ⟨operands, node⟩
  | unary op operand, value, evaluated => by
    have node := quiet_of_eval evaluated
    obtain ⟨inner, found, -⟩ := bind_eq_ok.mp evaluated
    exact quiet_append.mpr ⟨quiet_nodes operand found, node⟩
  | call function arguments, value, evaluated => by
    have node := quiet_of_eval evaluated
    obtain ⟨values, found, -⟩ := bind_eq_ok.mp evaluated
    exact quiet_append.mpr ⟨quiet_nodesAll arguments found, node⟩

theorem quiet_nodesAll : ∀ (es : List Expr) {values : List Float},
    evalAll x y es = .ok values → Quiet x y (nodesAll es)
  | [], values, evaluated => by simp [Quiet, nodesAll]
  | e :: es, values, evaluated => by
    obtain ⟨value, first, evaluated⟩ := bind_eq_ok.mp evaluated
    obtain ⟨others, later, -⟩ := bind_eq_ok.mp evaluated
    exact quiet_append.mpr ⟨quiet_nodes e first, quiet_nodesAll es later⟩

end

mutual

theorem firstFailure_nodes : ∀ (e : Expr) {fault : FormulaError}, e.eval x y = .error fault →
    ∃ node, FirstFailure x y e.nodes node fault
  | literal number, fault, failed => by cases failed
  | var .x, fault, failed => by cases failed
  | var .y, fault, failed => by cases failed
  | binary op left right, fault, failed => by
    rcases bind_eq_error.mp failed with failed | ⟨a, first, failed⟩
    · obtain ⟨node, found⟩ := firstFailure_nodes left failed
      exact ⟨node, (found.append _).append _⟩
    have before := quiet_nodes left first
    rcases bind_eq_error.mp failed with failed | ⟨b, second, applied⟩
    · obtain ⟨node, found⟩ := firstFailure_nodes right failed
      exact ⟨node, (found.behind before).append _⟩
    · have operands := quiet_append.mpr ⟨before, quiet_nodes right second⟩
      have fails : Fails x y (binary op left right) fault :=
        .binary ((eval_eq_ok_iff left a).mp first) ((eval_eq_ok_iff right b).mp second) applied
      exact ⟨_, fails.first.behind operands⟩
  | unary op operand, fault, failed => by
    rcases bind_eq_error.mp failed with failed | ⟨value, -, same⟩
    · obtain ⟨node, found⟩ := firstFailure_nodes operand failed
      exact ⟨node, found.append _⟩
    · cases same
  | call function arguments, fault, failed => by
    rcases bind_eq_error.mp failed with failed | ⟨values, found, applied⟩
    · obtain ⟨node, found⟩ := firstFailure_nodesAll arguments failed
      exact ⟨node, found.append _⟩
    · have fails : Fails x y (call function arguments) fault :=
        .call ((evalAll_eq_ok_iff arguments values).mp found) applied
      exact ⟨_, fails.first.behind (quiet_nodesAll arguments found)⟩

theorem firstFailure_nodesAll : ∀ (es : List Expr) {fault : FormulaError},
    evalAll x y es = .error fault → ∃ node, FirstFailure x y (nodesAll es) node fault
  | [], fault, failed => by cases failed
  | e :: es, fault, failed => by
    rcases bind_eq_error.mp failed with failed | ⟨value, first, failed⟩
    · obtain ⟨node, found⟩ := firstFailure_nodes e failed
      exact ⟨node, found.append _⟩
    rcases bind_eq_error.mp failed with failed | ⟨others, -, same⟩
    · obtain ⟨node, found⟩ := firstFailure_nodesAll es failed
      exact ⟨node, found.behind (quiet_nodes e first)⟩
    · cases same

end

theorem eval_eq_error_iff (e : Expr) (fault : FormulaError) :
    e.eval x y = .error fault ↔ ∃ node, FirstFailure x y e.nodes node fault := by
  refine ⟨firstFailure_nodes e, fun ⟨node, first⟩ => ?_⟩
  cases evaluated : e.eval x y with
  | ok value => exact absurd (quiet_nodes e evaluated) first.not_quiet
  | error other =>
    obtain ⟨_, found⟩ := firstFailure_nodes e evaluated
    rw [(found.unique first).2]

theorem exists_eval_error_iff (e : Expr) :
    (∃ fault, e.eval x y = .error fault) ↔ ∃ node ∈ e.nodes, ∃ fault, Fails x y node fault := by
  refine ⟨fun ⟨fault, failed⟩ => ?_, fun ⟨node, present, fault, fails⟩ => ?_⟩
  · obtain ⟨node, before, after, parts, -, fails⟩ := firstFailure_nodes e failed
    exact ⟨node, by simp [parts], fault, fails⟩
  · cases evaluated : e.eval x y with
    | ok value => exact absurd fails (quiet_nodes e evaluated node present fault)
    | error other => exact ⟨other, rfl⟩

theorem arises_of_binary {op : BinaryOp} {left right : Expr} {a b : Float} {fault : FormulaError}
    (first : Yields x y left a) (second : Yields x y right b)
    (applied : op.apply a b = .error fault) : Arises x y (binary op left right) fault := by
  cases op with
  | pow =>
    simp only [BinaryOp.apply] at applied
    split at applied
    · next finite =>
      cases applied
      simp only [Bool.and_eq_true] at finite
      exact .power first second ⟨finite.1.2, finite.2⟩ finite.1.1
    · cases applied
  | add | sub | mul | div => cases applied

theorem arises_of_takes {function : Function} {values : List Float} {fault : FormulaError}
    (takes : Takes function values) (applied : function.apply values = .error fault)
    (arguments : List Expr) : Arises x y (call function arguments) fault := by
  cases takes with
  | abs | min | max => cases applied
  | sqrt | sin | cos | log | logTo =>
    simp only [Function.apply] at applied
    split at applied <;> cases applied
    exact .domain (by simp) arguments

theorem Fails.arises {e node : Expr} {fault : FormulaError} (accepted : Accepted e.steps)
    (present : node ∈ e.nodes) (fails : Fails x y node fault) : Arises x y node fault := by
  cases fails with
  | binary first second applied => exact arises_of_binary first second applied
  | call inner applied =>
    have takes := takes_of_accepts (inner.length_eq ▸ accepts_of_mem_nodes accepted present)
    exact arises_of_takes takes applied _

theorem Arises.numeric {node : Expr} {fault : FormulaError} (arises : Arises x y node fault) :
    fault.Numeric := by
  cases arises <;> trivial

def IsPlain : Expr → Prop
  | binary op _ _ => op ≠ .pow
  | call function _ => function ∈ [.abs, .min, .max]
  | _ => True

theorem Arises.not_isPlain {node : Expr} {fault : FormulaError} (arises : Arises x y node fault) :
    ¬ node.IsPlain := by
  intro plain
  cases arises with
  | power => exact plain rfl
  | domain limited arguments =>
    have total : _ ∈ [Function.abs, .min, .max] := plain
    simp only [List.mem_cons, List.not_mem_nil, or_false] at limited total
    rcases limited with rfl | rfl | rfl | rfl <;> simp at total

end Expr

namespace Formula

theorem readScale_error {offset : Nat} {text : List Char} {fault : FormulaError}
    (failed : readScale offset text = .error fault) : ¬ fault.Numeric := by
  cases text with
  | nil => cases failed
  | cons c rest =>
    simp only [readScale] at failed
    split at failed
    · split at failed <;> cases failed
      exact id
    · cases failed

theorem readToken_not_numeric {offset : Nat} {c : Char} {rest : List Char} {fault : FormulaError}
    (failed : readToken offset c rest = .error fault) : ¬ fault.Numeric := by
  by_cases mark : c ∈ marks
  · simp only [marks, List.mem_cons, List.not_mem_nil, or_false] at mark
    rcases mark with rfl | rfl | rfl | rfl | rfl | rfl | rfl | rfl <;> cases failed
  · rw [readToken_unmarked mark] at failed
    split at failed
    · rcases bind_eq_error.mp failed with failed | ⟨number, -, same⟩
      · obtain ⟨whole, point, fraction, after, mantissa⟩ := exists_mantissa (c :: rest)
        rw [mantissa.readNumber_eq] at failed
        split at failed
        · cases failed
          exact id
        rcases bind_eq_error.mp failed with failed | ⟨⟨exponent, others⟩, -, failed⟩
        · exact readScale_error failed
        · dsimp only at failed
          split at failed <;> cases failed
          exact id
      · cases same
    · split at failed <;> cases failed
      exact id

theorem scan_not_numeric {offset : Nat} {text : List Char} {fault : FormulaError}
    (failed : scan offset text = .error fault) : ¬ fault.Numeric := by
  induction offset, text using scan.induct with
  | case1 offset =>
    rw [scan] at failed
    cases failed
  | case2 offset c rest blank ih =>
    rw [scan, if_pos blank] at failed
    exact ih failed
  | case3 offset c rest visible ih =>
    rw [scan, if_neg visible] at failed
    rcases bind_eq_error.mp failed with failed | ⟨⟨token, more⟩, -, failed⟩
    · exact readToken_not_numeric failed
    rcases bind_eq_error.mp failed with failed | ⟨others, -, same⟩
    · exact ih more failed
    · cases same

theorem parse_not_numeric {text : String} {fault : FormulaError}
    (failed : parse text = .error fault) : ¬ fault.Numeric := by
  by_cases short : text.utf8ByteSize ≤ maxFormulaBytes
  · cases scanned : scan 0 text.toList with
    | error other =>
      rw [parse, if_neg (by omega), scanned] at failed
      cases failed
      exact scan_not_numeric scanned
    | ok lexemes =>
      rw [parse_of_scan short scanned] at failed
      rcases bind_eq_error.mp failed with failed | ⟨tree, -, same⟩
      · cases readTree_refused failed <;> exact id
      · cases same
  · rw [parse, if_pos (by omega)] at failed
    cases failed
    exact id

/-- A formula has a value at a point if each of its nodes gives one for those of its operands. Else
the error is that of the first node that fails there, with operands before their node and from left
to right. An overflow is that of a power of finite numbers, and a value outside a domain is asked of
`sqrt`, `log`, `sin` or `cos`, by that name; so a formula without powers and these functions has a
value everywhere. No formula is refused for such an error, and evaluation ends with no other. -/
theorem evaluation_ends (text : String) :
    (∀ formula, parse text = .ok formula → ∀ x y,
      (∀ value, formula.eval x y = .ok value ↔ formula.root.Yields x y value) ∧
      ((∃ fault, formula.eval x y = .error fault) ↔
        ∃ node ∈ formula.root.nodes, ∃ fault, node.Fails x y fault) ∧
      (∀ fault, formula.eval x y = .error fault ↔
        ∃ node, Expr.FirstFailure x y formula.root.nodes node fault) ∧
      (∀ node ∈ formula.root.nodes, ∀ fault, node.Fails x y fault → node.Arises x y fault) ∧
      ((∀ node ∈ formula.root.nodes, node.IsPlain) → ∃ value, formula.eval x y = .ok value) ∧
      ∀ fault, formula.eval x y = .error fault → fault.Numeric) ∧
    ∀ fault, parse text = .error fault → ¬ fault.Numeric := by
  refine ⟨fun formula read x y => ?_, fun fault => parse_not_numeric⟩
  have accepted := (fits_of_parse read).accepted
  have arise : ∀ node ∈ formula.root.nodes, ∀ fault, node.Fails x y fault →
      node.Arises x y fault := fun node present fault fails => fails.arises accepted present
  refine ⟨formula.root.eval_eq_ok_iff, formula.root.exists_eval_error_iff,
    formula.root.eval_eq_error_iff, arise, fun plain => ?_, fun fault failed => ?_⟩
  · cases evaluated : formula.eval x y with
    | ok value => exact ⟨value, rfl⟩
    | error fault =>
      obtain ⟨node, present, other, fails⟩ :=
        formula.root.exists_eval_error_iff.mp ⟨fault, evaluated⟩
      exact absurd (plain node present) (arise node present other fails).not_isPlain
  · exact formula.root.eval_error accepted failed

theorem evaluation_ends_first_of_two :
    let root : Expr := .binary .add (.call .sqrt [.var .x]) (.call .log [.var .y])
    parse "sqrt(x) + log(y)" = .ok ⟨"sqrt(x) + log(y)", root⟩ ∧
      Expr.FirstFailure (-1.0) 0.0 root.nodes (.call .sqrt [.var .x]) (.outsideDomain .sqrt) ∧
      Expr.Fails (-1.0) 0.0 (.call .log [.var .y]) (.outsideDomain .log) ∧
      root.eval (-1.0) 0.0 = .error (.outsideDomain .sqrt) := by
  intro root
  have walked : Guarded.parse "sqrt(x) + log(y)" = answer (.ok ⟨"sqrt(x) + log(y)", root⟩) := rfl
  obtain ⟨_, read, rfl⟩ := (parse_follows "sqrt(x) + log(y)").exists_of_answer walked
  have quiet : Expr.Quiet (-1.0) 0.0 [.var .x] := Expr.quiet_of_eval rfl
  have first : Expr.Fails (-1.0) 0.0 (.call .sqrt [.var .x]) (.outsideDomain .sqrt) :=
    .call (.cons .size .nil) (by rw [Function.apply, if_pos (by decide +kernel)])
  have second : Expr.Fails (-1.0) 0.0 (.call .log [.var .y]) (.outsideDomain .log) :=
    .call (.cons .frequency .nil) (by rw [Function.apply, if_pos (by decide +kernel)])
  have found : Expr.FirstFailure (-1.0) 0.0 root.nodes (.call .sqrt [.var .x])
      (.outsideDomain .sqrt) := ⟨_, _, rfl, quiet, first⟩
  obtain ⟨-, -, errors, -⟩ := (evaluation_ends "sqrt(x) + log(y)").1 _ read (-1.0) 0.0
  exact ⟨read, found, second, (errors _).mpr ⟨_, found⟩⟩

end Formula

end PaymentFees
