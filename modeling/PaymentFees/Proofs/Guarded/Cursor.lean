import PaymentFees.Proofs.Guarded.Tokens

/-!
Formulas read with a cursor in the list of their tokens. A look past the list is stuck, and so is a
loop that runs out of turns. The cursor does not move on from the end of the text, and so it never
leaves the list; what is read is what is read off the front of the lexemes.
-/

namespace PaymentFees.Guarded

open Formula

abbrev Walks (α : Type) := Nat → Guarded (α × Nat)

structure Stage where
  signed : Walks Expr
  sum : Walks Expr

section

variable (tokens : List Entry)

def peek (pos : Nat) : Guarded (Option Token) := return (← need tokens[pos]?).token

def offset (pos : Nat) : Guarded Nat := return (← need tokens[pos]?).start

/-- The next place, or the same one at the end of the text. -/
def bump (pos : Nat) : Guarded Nat := return if (← peek tokens pos).isSome then pos + 1 else pos

def expect (wanted : Token) (pos : Nat) : Guarded Nat := do
  let found ← peek tokens pos
  if found = some wanted then bump tokens pos
  else throw (.malformed (← offset tokens pos) (.expected wanted found))

def descend (inner : Option Stage) (pos : Nat) : Guarded Stage :=
  match inner with
  | some stage => return stage
  | none => do throw (.malformed (← offset tokens pos) .tooDeep)

def walkOperators (operator : Token → Option BinaryOp) (operand : Walks Expr) :
    Nat → Expr → Walks Expr
  | 0, _, _ => need none
  | turns + 1, left, pos => do
    match (← peek tokens pos).bind operator with
    | none => return (left, pos)
    | some op =>
      let (right, next) ← operand (← bump tokens pos)
      walkOperators operator operand turns (.binary op left right) next

def walkChain (operator : Token → Option BinaryOp) (operand : Walks Expr) : Walks Expr :=
  fun pos => do
    let (first, next) ← operand pos
    walkOperators tokens operator operand tokens.length first next

def walkOperands (operand : Walks Expr) : Nat → Walks (List Expr)
  | 0, _ => need none
  | turns + 1, pos => do
    let (first, next) ← operand pos
    if (← peek tokens next) = some .comma then
      let (others, last) ← walkOperands operand turns (← bump tokens next)
      return (first :: others, last)
    else return ([first], next)

def walkArguments (operand : Walks Expr) : Walks (List Expr) := fun pos => do
  if (← peek tokens pos) = some .closeParen then return ([], pos)
  else walkOperands tokens operand tokens.length pos

def walkCall (inner : Option Stage) (name : String) : Walks Expr := fun pos =>
  match Function.ofName? name with
  | none => throw (.unknownFunction name)
  | some function => do
    let opened ← expect tokens .openParen pos
    let stage ← descend tokens inner opened
    let (arguments, next) ← walkArguments tokens stage.sum opened
    let closed ← expect tokens .closeParen next
    if function.arity.accepts arguments.length then return (.call function arguments, closed)
    else throw (.wrongArity function arguments.length)

def walkAtom (inner : Option Stage) : Walks Expr := fun pos => do
  let start ← offset tokens pos
  let token ← peek tokens pos
  let next ← bump tokens pos
  match token with
  | some (.number value) => return (.literal value, next)
  | some (.name name) =>
    if (← peek tokens next) = some .openParen then walkCall tokens inner name next
    else return (← answer (variableNamed name), next)
  | some .openParen =>
    let stage ← descend tokens inner next
    let (value, last) ← stage.sum next
    return (value, ← expect tokens .closeParen last)
  | other => throw (.malformed start (.unexpected other))

def walkPower (inner : Option Stage) : Walks Expr := fun pos => do
  let (base, next) ← walkAtom tokens inner pos
  if (← peek tokens next) = some .caret then
    let raised ← bump tokens next
    let stage ← descend tokens inner raised
    let (exponent, last) ← stage.signed raised
    return (.binary .pow base exponent, last)
  else return (base, next)

def walkSigned (inner : Option Stage) : Walks Expr := fun pos => do
  match (← peek tokens pos).bind unaryOperator with
  | none => walkPower tokens inner pos
  | some op =>
    let next ← bump tokens pos
    let stage ← descend tokens inner next
    let (operand, last) ← stage.signed next
    return (.unary op operand, last)

def stageAround (inner : Option Stage) : Stage where
  signed := walkSigned tokens inner
  sum := walkChain tokens sumOperator (walkChain tokens productOperator (walkSigned tokens inner))

def stages : Nat → Option Stage
  | 0 => none
  | left + 1 => some (stageAround tokens (stages left))

def walkTree : Guarded Expr := do
  let (tree, pos) ← (stageAround tokens (stages tokens maxDepth)).sum 0
  match ← peek tokens pos with
  | none => return tree
  | other => throw (.malformed (← offset tokens pos) (.unexpected other))

end

/-- The computation is not stuck: it ends with the same error, of a place in the text, or with a
value that is related. -/
inductive Follows (finish : Nat) {α β : Type} (related : α → β → Prop) :
    Guarded α → Except FormulaError β → Prop where
  | fails {fault : FormulaError}
      (within : ∀ place why, fault = .malformed place why → place ≤ finish) :
      Follows finish related (answer (.error fault)) (.error fault)
  | gives {a : α} {b : β} (same : related a b) :
      Follows finish related (answer (.ok a)) (.ok b)

namespace Follows

variable {finish : Nat} {α β γ δ : Type} {R : α → β → Prop} {S : γ → δ → Prop}

theorem bind {x : Guarded α} {r : Except FormulaError β} {f : α → Guarded γ}
    {g : β → Except FormulaError δ} (first : Follows finish R x r)
    (next : ∀ a b, R a b → Follows finish S (f a) (g b)) :
    Follows finish S (x >>= f) (r >>= g) := by
  cases first with
  | fails within => exact .fails within
  | gives same => exact next _ _ same

theorem mono {R' : α → β → Prop} {x : Guarded α} {r : Except FormulaError β}
    (follows : Follows finish R x r) (weaker : ∀ a b, R a b → R' a b) : Follows finish R' x r := by
  cases follows with
  | fails within => exact .fails within
  | gives same => exact .gives (weaker _ _ same)

theorem ite {c : Prop} {d d' : Decidable c} {x y : Guarded α} {r s : Except FormulaError β}
    (yes : c → Follows finish R x r) (no : ¬ c → Follows finish R y s) :
    Follows finish R (@ite _ c d x y) (@ite _ c d' r s) := by
  by_cases holds : c
  · rw [if_pos holds, if_pos holds]
    exact yes holds
  · rw [if_neg holds, if_neg holds]
    exact no holds

theorem ite_bind {c : Prop} [Decidable c] {x : Guarded α} {r s : Except FormulaError β}
    {f : α → Guarded γ} {g : β → Except FormulaError δ}
    (first : Follows finish R x (if c then r else s))
    (next : ∀ a b, R a b → Follows finish S (f a) (g b)) :
    Follows finish S (x >>= f) (if c then r >>= g else s >>= g) := by
  split <;> simp_all only [if_true, if_false] <;> exact first.bind next

theorem eq_answer {x : Guarded α} {r : Except FormulaError α} (follows : Follows finish Eq x r) :
    x = answer r := by
  cases follows with
  | fails => rfl
  | gives same => rw [same]

theorem exists_of_answer {x : Guarded α} {r : Except FormulaError β} {a : α}
    (follows : Follows finish R x r) (gave : x = answer (.ok a)) : ∃ b, r = .ok b ∧ R a b := by
  cases follows with
  | fails => cases gave
  | gives same =>
    cases gave
    exact ⟨_, rfl, same⟩

theorem place_le {x : Guarded α} {r : Except FormulaError β} {place : Nat} {why : SyntaxFault}
    (follows : Follows finish R x r) (failed : r = .error (.malformed place why)) :
    place ≤ finish := by
  cases follows with
  | fails within => exact within place why (Except.error.inj failed)
  | gives => cases failed

end Follows

/-- The cursor stands where these lexemes are left. -/
def Stands (lexemes : List Lexeme) (pos : Nat) (rest : List Lexeme) : Prop :=
  ∃ before, lexemes = before ++ rest ∧ pos = before.length

/-- The same is read, and the cursor stands where the reader stops, no earlier than before. -/
inductive Reaches (lexemes start : List Lexeme) {α : Type} : α × Nat → α × List Lexeme → Prop where
  | mk (value : α) (pos : Nat) (rest : List Lexeme) (here : Stands lexemes pos rest)
      (fewer : rest.length ≤ start.length) : Reaches lexemes start (value, pos) (value, rest)

theorem Reaches.mono {lexemes start start' : List Lexeme} {α : Type} {walked : α × Nat}
    {read : α × List Lexeme} (reaches : Reaches lexemes start walked read)
    (earlier : start.length ≤ start'.length) : Reaches lexemes start' walked read := by
  obtain ⟨value, pos, rest, here, fewer⟩ := reaches
  exact ⟨value, pos, rest, here, Nat.le_trans fewer earlier⟩

section

variable {finish : Nat} {lexemes : List Lexeme}

namespace Stands

variable {pos : Nat} {rest : List Lexeme}

theorem start (lexemes : List Lexeme) : Stands lexemes 0 lexemes := ⟨[], rfl, rfl⟩

theorem entry (here : Stands lexemes pos rest) :
    (entries finish lexemes)[pos]? = some ⟨offsetOf finish rest, nextToken rest⟩ := by
  obtain ⟨before, rfl, rfl⟩ := here
  induction before with
  | nil => cases rest <;> rfl
  | cons lexeme before ih => exact ih

@[simp] theorem peek (here : Stands lexemes pos rest) :
    peek (entries finish lexemes) pos = answer (.ok (nextToken rest)) := by
  simp [Guarded.peek, here.entry]

@[simp] theorem offset (here : Stands lexemes pos rest) :
    offset (entries finish lexemes) pos = answer (.ok (offsetOf finish rest)) := by
  simp [Guarded.offset, here.entry]

theorem inside (here : Stands lexemes pos rest) (finish : Nat) :
    pos < (entries finish lexemes).length := by
  obtain ⟨before, rfl, rfl⟩ := here
  simp [entries]

theorem of_inside {finish : Nat} (inside : pos < (entries finish lexemes).length) :
    Stands lexemes pos (lexemes.drop pos) := by
  have within : pos ≤ lexemes.length := by
    simp only [entries, List.length_append, List.length_map, List.length_singleton] at inside
    omega
  exact ⟨lexemes.take pos, (List.take_append_drop pos lexemes).symm,
    (List.length_take_of_le within).symm⟩

theorem bump (here : Stands lexemes pos rest) (finish : Nat) : ∃ next,
    bump (entries finish lexemes) pos = answer (.ok next) ∧ Stands lexemes next rest.tail := by
  cases rest with
  | nil => exact ⟨pos, by simp [Guarded.bump, here.peek, nextToken], here⟩
  | cons lexeme rest =>
    refine ⟨pos + 1, by simp [Guarded.bump, here.peek, nextToken], ?_⟩
    obtain ⟨before, rfl, rfl⟩ := here
    exact ⟨before ++ [lexeme], by simp, by simp⟩

end Stands

theorem readAtom_name (finish : Nat) (level : Option Level) (start stop : Nat) (name : String)
    (rest : List Lexeme) :
    readAtom finish level (⟨start, stop, .name name⟩ :: rest) =
      if nextToken rest = some .openParen then readCall finish level name rest.tail
      else do return (← variableNamed name, rest) := by
  cases rest with
  | nil => rfl
  | cons lexeme rest =>
    obtain ⟨opening, opened, token⟩ := lexeme
    cases token <;> simp [readAtom, nextToken]

theorem nextToken_cons (lexeme : Lexeme) (rest : List Lexeme) :
    nextToken (lexeme :: rest) = some lexeme.token := rfl

theorem length_tail_lt {rest : List Lexeme} {token : Token} (next : nextToken rest = some token) :
    rest.tail.length < rest.length := by
  cases rest with
  | nil => cases next
  | cons lexeme rest => simp

def Tracks (finish : Nat) (lexemes : List Lexeme) {α : Type} (walk : Walks α)
    (reads : Reads α) : Prop :=
  ∀ {pos rest}, Stands lexemes pos rest →
    Follows finish (Reaches lexemes rest) (walk pos) (reads rest)

structure StageTracks (finish : Nat) (lexemes : List Lexeme) (stage : Stage)
    (level : Level) : Prop where
  signed : Tracks finish lexemes stage.signed level.signed
  sum : Tracks finish lexemes stage.sum level.sum

section

variable (within : ∀ lexeme ∈ lexemes, lexeme.start ≤ finish) {pos : Nat} {rest : List Lexeme}
include within

theorem follows_malformed (here : Stands lexemes pos rest) {α β : Type} {R : α → β → Prop}
    (why : SyntaxFault) :
    Follows finish R (answer (.error (.malformed (offsetOf finish rest) why)))
      (.error (.malformed (offsetOf finish rest) why)) := by
  refine .fails ?_
  rintro place why ⟨⟩
  obtain ⟨before, rfl, -⟩ := here
  cases rest with
  | nil => exact Nat.le_refl _
  | cons lexeme rest => exact within lexeme (by simp)

omit within in
theorem variableNamed_follows (name : String) :
    Follows finish Eq (answer (variableNamed name)) (variableNamed name) := by
  unfold variableNamed
  split
  · exact .gives rfl
  · split
    · exact .gives rfl
    · refine .fails ?_
      rintro place why ⟨⟩

theorem expect_follows (here : Stands lexemes pos rest) :
    Follows finish (fun next after => Stands lexemes next after ∧ after.length ≤ rest.length)
      (expect (entries finish lexemes) .closeParen pos) (readClosing finish rest) := by
  simp only [expect, here.peek, answer_ok_bind, readClosing]
  refine Follows.ite (fun closes => ?_) (fun other => ?_)
  · obtain ⟨next, moves, there⟩ := here.bump finish
    rw [moves]
    exact .gives ⟨there, by simp⟩
  · rw [here.offset]
    exact follows_malformed within here _

theorem descend_follows {inner : Option Stage} {level : Option Level}
    (tracks : Option.Rel (StageTracks finish lexemes) inner level)
    (here : Stands lexemes pos rest) :
    Follows finish (StageTracks finish lexemes) (descend (entries finish lexemes) inner pos)
      (enter finish level rest) := by
  cases tracks with
  | some tracks => exact .gives tracks
  | none =>
    rw [descend, here.offset]
    exact follows_malformed within here _

omit within in
theorem walkOperators_follows {operator : Token → Option BinaryOp} {walk : Walks Expr}
    {reads : Reads Expr} (operand : Tracks finish lexemes walk reads) {turns more : Nat}
    (left : Expr) (here : Stands lexemes pos rest) (enough : rest.length ≤ turns)
    (spare : rest.length < more) :
    Follows finish (Reaches lexemes rest)
      (walkOperators (entries finish lexemes) operator walk more left pos)
      (readOperators operator reads turns left rest) := by
  -- Each operator is a token, so the turns are enough.
  induction more generalizing turns left pos rest with
  | zero => exact absurd spare (Nat.not_lt_zero _)
  | succ more ih =>
    rw [walkOperators, here.peek, answer_ok_bind]
    cases rest with
    | nil =>
      cases turns <;> exact .gives (.mk _ _ _ here (Nat.le_refl _))
    | cons lexeme rest =>
      cases turns with
      | zero => simp at enough
      | succ turns =>
        simp only [readOperators, nextToken, List.head?_cons, Option.map_some, Option.bind_some]
        cases operator lexeme.token with
        | none => exact .gives (.mk _ _ _ here (Nat.le_refl _))
        | some op =>
          obtain ⟨second, moves, behind⟩ := here.bump finish
          simp only [moves, answer_ok_bind]
          refine (operand behind).bind ?_
          rintro _ _ ⟨right, next, after, there, fewer⟩
          simp only [List.length_cons, List.tail_cons] at enough spare fewer
          refine (ih _ there (by omega) (by omega)).mono fun _ _ reaches => reaches.mono ?_
          rw [List.length_cons]
          omega

omit within in
theorem walkChain_tracks {operator : Token → Option BinaryOp} {walk : Walks Expr}
    {reads : Reads Expr} (operand : Tracks finish lexemes walk reads) :
    Tracks finish lexemes (walkChain (entries finish lexemes) operator walk)
      (readChain operator reads) := by
  intro pos rest here
  refine (operand here).bind ?_
  rintro _ _ ⟨value, next, after, there, fewer⟩
  refine (walkOperators_follows operand _ there (Nat.le_refl _) ?_).mono
    fun _ _ reaches => reaches.mono fewer
  obtain ⟨before, rfl, -⟩ := there
  simp [entries]
  omega

omit within in
theorem walkOperands_follows {walk : Walks Expr} {reads : Reads Expr}
    (operand : Tracks finish lexemes walk reads) {turns more : Nat}
    (here : Stands lexemes pos rest) (enough : rest.length ≤ turns) (spare : rest.length < more) :
    Follows finish (Reaches lexemes rest)
      (walkOperands (entries finish lexemes) walk more pos) (readOperands reads turns rest) := by
  induction more generalizing turns pos rest with
  | zero => exact absurd spare (Nat.not_lt_zero _)
  | succ more ih =>
    rw [walkOperands]
    cases turns with
    | zero =>
      rw [readOperands]
      refine (operand here).bind ?_
      rintro _ _ ⟨value, next, after, there, fewer⟩
      have last : nextToken after ≠ some .comma :=
        fun comma => absurd (length_tail_lt comma) (by omega)
      simp only [there.peek, answer_ok_bind, if_neg last]
      exact .gives (.mk _ _ _ there fewer)
    | succ turns =>
      rw [readOperands]
      refine (operand here).bind ?_
      rintro _ _ ⟨value, next, after, there, fewer⟩
      simp only [there.peek, answer_ok_bind]
      refine Follows.ite (fun comma => ?_) fun last => .gives (.mk _ _ _ there fewer)
      obtain ⟨second, moves, behind⟩ := there.bump finish
      simp only [moves, answer_ok_bind]
      have shorter := length_tail_lt comma
      refine (ih behind (by omega) (by omega)).bind ?_
      rintro _ _ ⟨others, last, remaining, stops, fewest⟩
      exact .gives (.mk _ _ _ stops (Nat.le_trans fewest (by omega)))

omit within in
theorem walkArguments_follows {walk : Walks Expr} {reads : Reads Expr}
    (operand : Tracks finish lexemes walk reads) (here : Stands lexemes pos rest) :
    Follows finish (Reaches lexemes rest) (walkArguments (entries finish lexemes) walk pos)
      (if nextToken rest = some .closeParen then pure ([], rest)
        else readOperands reads rest.length rest) := by
  simp only [walkArguments, here.peek, answer_ok_bind]
  refine Follows.ite (fun closed => .gives (.mk _ _ _ here (Nat.le_refl _))) fun opened => ?_
  refine walkOperands_follows operand here (Nat.le_refl _) ?_
  obtain ⟨before, rfl, -⟩ := here
  simp [entries]
  omega

theorem walkCall_follows {inner : Option Stage} {level : Option Level}
    (tracks : Option.Rel (StageTracks finish lexemes) inner level) (name : String)
    {opening : Lexeme} (opens : opening.token = .openParen)
    (here : Stands lexemes pos (opening :: rest)) :
    Follows finish (Reaches lexemes rest) (walkCall (entries finish lexemes) inner name pos)
      (readCall finish level name rest) := by
  obtain ⟨next, moves, there⟩ := here.bump finish
  have opened : expect (entries finish lexemes) .openParen pos = answer (.ok next) := by
    simp [expect, here.peek, nextToken, opens, moves]
  rw [walkCall, readCall]
  cases Function.ofName? name with
  | none =>
    refine .fails ?_
    rintro place why ⟨⟩
  | some function =>
    simp only [opened, answer_ok_bind]
    refine (descend_follows within tracks there).bind ?_
    intro stage level same
    refine (walkArguments_follows same.sum there).ite_bind ?_
    rintro _ _ ⟨arguments, last, after, stops, fewer⟩
    refine (expect_follows within stops).bind ?_
    rintro closed remaining ⟨ends, fewest⟩
    refine Follows.ite (fun accepted => ?_) fun refused => .fails ?_
    · exact .gives (.mk _ _ _ ends (Nat.le_trans fewest fewer))
    · rintro place why ⟨⟩

theorem walkAtom_tracks {inner : Option Stage} {level : Option Level}
    (tracks : Option.Rel (StageTracks finish lexemes) inner level) :
    Tracks finish lexemes (walkAtom (entries finish lexemes) inner) (readAtom finish level) := by
  intro pos rest here
  obtain ⟨next, moves, there⟩ := here.bump finish
  simp only [walkAtom, here.offset, here.peek, moves, answer_ok_bind]
  cases rest with
  | nil => exact follows_malformed within here _
  | cons lexeme rest =>
    obtain ⟨start, stop, token⟩ := lexeme
    rw [List.tail_cons] at there
    have fewer : rest.length ≤ rest.length + 1 := Nat.le_succ _
    cases token with
    | number value => exact .gives (.mk _ _ _ there fewer)
    | name name =>
      simp only [readAtom_name, nextToken_cons, there.peek, answer_ok_bind]
      refine Follows.ite (fun opens => ?_) fun other => ?_
      · cases rest with
        | nil => cases opens
        | cons opening rest =>
          refine (walkCall_follows within tracks name (Option.some.inj opens) there).mono
            fun _ _ reaches => reaches.mono ?_
          simp
          omega
      · refine (variableNamed_follows name).bind ?_
        rintro tree _ rfl
        exact .gives (.mk _ _ _ there fewer)
    | openParen =>
      simp only [readAtom, nextToken_cons]
      refine (descend_follows within tracks there).bind ?_
      intro stage level same
      refine (same.sum there).bind ?_
      rintro _ _ ⟨inside, last, after, stops, fewer⟩
      refine (expect_follows within stops).bind ?_
      rintro closed remaining ⟨ends, fewest⟩
      refine .gives (.mk _ _ _ ends ?_)
      simp only [List.length_cons]
      omega
    | _ => exact follows_malformed within here _

theorem walkPower_tracks {inner : Option Stage} {level : Option Level}
    (tracks : Option.Rel (StageTracks finish lexemes) inner level) :
    Tracks finish lexemes (walkPower (entries finish lexemes) inner) (readPower finish level) := by
  intro pos rest here
  rw [walkPower, readPower]
  refine (walkAtom_tracks within tracks here).bind ?_
  rintro _ _ ⟨base, next, after, there, fewer⟩
  simp only [there.peek, answer_ok_bind]
  refine Follows.ite (fun caret => ?_) fun other => .gives (.mk _ _ _ there fewer)
  obtain ⟨raised, moves, above⟩ := there.bump finish
  simp only [moves, answer_ok_bind]
  refine (descend_follows within tracks above).bind ?_
  intro stage level same
  refine (same.signed above).bind ?_
  rintro _ _ ⟨exponent, last, remaining, stops, fewest⟩
  have shorter := length_tail_lt caret
  exact .gives (.mk _ _ _ stops (Nat.le_trans fewest (by omega)))

theorem walkSigned_tracks {inner : Option Stage} {level : Option Level}
    (tracks : Option.Rel (StageTracks finish lexemes) inner level) :
    Tracks finish lexemes (walkSigned (entries finish lexemes) inner)
      (readSigned finish level) := by
  intro pos rest here
  simp only [walkSigned, here.peek, answer_ok_bind, readSigned]
  cases (nextToken rest).bind unaryOperator with
  | none => exact walkPower_tracks within tracks here
  | some op =>
    obtain ⟨next, moves, there⟩ := here.bump finish
    simp only [moves, answer_ok_bind]
    refine (descend_follows within tracks there).bind ?_
    intro stage level same
    refine (same.signed there).bind ?_
    rintro _ _ ⟨operand, last, after, stops, fewer⟩
    exact .gives (.mk _ _ _ stops (Nat.le_trans fewer (by simp)))

theorem stageAround_tracks {inner : Option Stage} {level : Option Level}
    (tracks : Option.Rel (StageTracks finish lexemes) inner level) :
    StageTracks finish lexemes (stageAround (entries finish lexemes) inner)
      (levelAround finish level) where
  signed := walkSigned_tracks within tracks
  sum := walkChain_tracks (walkChain_tracks (walkSigned_tracks within tracks))

theorem stages_track (left : Nat) : Option.Rel (StageTracks finish lexemes)
    (stages (entries finish lexemes) left) (levels finish left) := by
  induction left with
  | zero => exact .none
  | succ left ih => exact .some (stageAround_tracks within ih)

theorem walkTree_follows :
    Follows finish Eq (walkTree (entries finish lexemes)) (readTree finish lexemes) := by
  rw [walkTree, readTree]
  refine ((stageAround_tracks within (stages_track within maxDepth)).sum (.start lexemes)).bind ?_
  rintro _ _ ⟨tree, last, rest, here, fewer⟩
  simp only [here.peek, answer_ok_bind]
  cases rest with
  | nil => exact .gives rfl
  | cons lexeme rest =>
    rw [here.offset]
    exact follows_malformed within here _

end

end

end PaymentFees.Guarded
