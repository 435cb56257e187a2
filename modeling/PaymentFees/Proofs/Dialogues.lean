import Mathlib.Data.List.Forall2
import PaymentFees.CommandLine.Run
import PaymentFees.Proofs.Json.Lines
import PaymentFees.Proofs.Retiming

namespace PaymentFees

theorem Json.readNumeral_blank {cs : List Char} (first : ∀ c ∈ cs.head?, c.isDigit = false) :
    readNumeral cs = none := by
  have digits : cs.span Char.isDigit = ([], cs) := @span_digits [] cs (by simp) first
  unfold readNumeral
  rw [digits]
  rfl

theorem isDigit_of_isWhiteSpace {c : Char} (white : isWhiteSpace c = true) :
    c.isDigit = false := by
  rw [Bool.eq_false_iff]
  intro digit
  simp only [Char.isDigit, Bool.and_eq_true, decide_eq_true_eq] at digit
  have least : 48 ≤ c.toNat := digit.1
  have most : c.toNat ≤ 57 := digit.2
  simp [isWhiteSpace, whiteSpaceRuns] at white
  omega

theorem Json.readValue_blank {cs : List Char} (blank : ∀ c ∈ cs, isWhiteSpace c = true)
    (steps : Nat) : readValue steps cs = none := by
  -- White space that is not skipped starts no value.
  cases steps with
  | zero => rfl
  | succ steps =>
    have first : ∀ c ∈ (skipBlanks cs).head?, isWhiteSpace c = true := fun c present =>
      blank c ((List.dropWhile_sublist _).mem (List.mem_of_mem_head? present))
    -- Only four of the white spaces are skipped, so one of the others may come first.
    rw [readValue]
    generalize skipBlanks cs = rest at first
    have absent {c : Char} {tail : List Char} (mark : isWhiteSpace c = false) :
        rest ≠ c :: tail := by
      rintro rfl
      exact Bool.false_ne_true (mark.symm.trans (first c rfl))
    split
    case h_8 =>
      rw [readNumeral_blank fun c present => isDigit_of_isWhiteSpace (first c present)]
      rfl
    all_goals exact absurd rfl (absent rfl)

namespace CommandLine

theorem Command.read?_blank {line : String} (blank : Dialogue.isBlankLine line = true) :
    Command.read? line = none := by
  have nothing : Json.read line = none := by
    unfold Json.read
    dsimp only
    rw [Json.readValue_blank (List.all_eq_true.mp blank)]
    rfl
  unfold read?
  rw [nothing]
  rfl

namespace Dialogue

variable {α : Type} (config : Config) (refusal : String → String)

def heard (text : α → String) (lines : List α) : List α :=
  (lines.takeWhile fun line => Command.read? (text line) ≠ some .quit).filter fun line =>
    !isBlankLine (text line)

def answer (line : Instant × String) : StateM Store Json :=
  match Command.read? line.2 with
  | none => return errorJson (refusal line.2)
  | some command => do
    match ← (command.respond config line.1).run with
    | .ok value => return value
    | .error failure => return errorJson failure.message

section

variable {text : α → String} {line : α} (lines : List α)

theorem heard_quit (quits : Command.read? (text line) = some .quit) :
    heard text (line :: lines) = [] := by
  simp [heard, quits]

theorem heard_blank (blank : isBlankLine (text line) = true) :
    heard text (line :: lines) = heard text lines := by
  simp [heard, Command.read?_blank blank, blank]

theorem heard_cons (goesOn : Command.read? (text line) ≠ some .quit)
    (holds : isBlankLine (text line) = false) :
    heard text (line :: lines) = line :: heard text lines := by
  simp [heard, goesOn, holds]

end

section

variable {now : Instant} {line : String} (lines : List (Instant × String)) (store : Store)

theorem converse_quit (quits : Command.read? line = some .quit) :
    converse config refusal ((now, line) :: lines) store = ([], store) := by
  have holds : isBlankLine line = false := by
    rw [Bool.eq_false_iff]
    intro blank
    cases (Command.read?_blank blank).symm.trans quits
  simp only [converse, step, holds, quits]
  rfl

theorem converse_blank (blank : isBlankLine line = true) :
    converse config refusal ((now, line) :: lines) store = converse config refusal lines store := by
  simp only [converse, step, blank]
  rfl

theorem converse_cons (goesOn : Command.read? line ≠ some .quit)
    (holds : isBlankLine line = false) :
    converse config refusal ((now, line) :: lines) store =
      let first := answer config refusal (now, line) store
      let others := converse config refusal lines first.2
      (first.1 :: others.1, others.2) := by
  have stepped : step config refusal now line = .answer <$> answer config refusal (now, line) := by
    unfold step answer
    simp only [holds, Bool.false_eq_true, if_false]
    split
    · next read =>
      rw [read]
      rfl
    · next read => exact absurd read goesOn
    · next command _ read =>
      rw [read, map_bind]
      exact bind_congr fun result => by cases result <;> rfl
  rw [converse, stepped, bind_map_left]
  rfl

end

theorem converse_eq_mapM (lines : List (Instant × String)) :
    converse config refusal lines = (heard Prod.snd lines).mapM (answer config refusal) := by
  induction lines with
  | nil => rfl
  | cons line lines ih =>
    obtain ⟨now, line⟩ := line
    funext store
    -- Unifying `text line` with the line would look into the reader, so `Prod.snd` is given.
    by_cases quits : Command.read? line = some .quit
    · rw [converse_quit config refusal lines store quits,
        @heard_quit _ Prod.snd (now, line) lines quits]
      rfl
    cases holds : isBlankLine line with
    | true =>
      rw [converse_blank config refusal lines store holds, ih,
        @heard_blank _ Prod.snd (now, line) lines holds]
    | false =>
      rw [converse_cons config refusal lines store quits holds, ih,
        @heard_cons _ Prod.snd (now, line) lines quits holds, List.mapM_cons]
      rfl

theorem forall₂_mapM {σ β : Type} (f : α → StateM σ β) (values : List α) (state : σ) :
    List.Forall₂ (fun value result => ∃ mid, (f value mid).1 = result) values
      (values.mapM f state).1 := by
  induction values generalizing state with
  | nil => exact .nil
  | cons value values ih =>
    rw [List.mapM_cons]
    exact .cons ⟨state, rfl⟩ (ih (f value state).2)

/-- Each line that is heard is answered in its turn, whatever it holds, and each answer is one line
that is read as that answer. -/
structure Answered (lines : List (Instant × String)) (store : Store) : Prop where
  in_order : converse config refusal lines store =
    (heard Prod.snd lines).mapM (answer config refusal) store
  count : (converse config refusal lines store).1.length = (heard Prod.snd lines).length
  one_line : ∀ value ∈ (converse config refusal lines store).1,
    '\n' ∉ value.render.toList ∧ Json.read value.render = some value

theorem errorJson_writable (message : String) : (errorJson message).Writable :=
  ⟨rfl, rfl, trivial⟩

theorem answer_of_none {line : String} (noCommand : Command.read? line = none) (now : Instant)
    (store : Store) :
    answer config refusal (now, line) store = (errorJson (refusal line), store) := by
  simp only [answer, noCommand]
  rfl

theorem answer_of_some {line : String} {command : Command}
    (read : Command.read? line = some command) (now : Instant) (store : Store) :
    answer config refusal (now, line) store =
      match (command.respond config now).run store with
      | (.ok value, after) => (value, after)
      | (.error failure, after) => (errorJson failure.message, after) := by
  let ending : Except Failure Json → StateM Store Json
    | .ok value => return value
    | .error failure => return errorJson failure.message
  have ran : answer config refusal (now, line) store =
      ending ((command.respond config now).run store).1
        ((command.respond config now).run store).2 := by
    simp only [answer, read]
    rfl
  rw [ran]
  rcases (command.respond config now).run store with ⟨_ | _, after⟩ <;> rfl

theorem answer_writable (line : Instant × String) (store : Store) :
    (answer config refusal line store).1.Writable := by
  obtain ⟨now, line⟩ := line
  cases read : Command.read? line with
  | none =>
    rw [answer_of_none config refusal read]
    exact errorJson_writable _
  | some command =>
    rw [answer_of_some config refusal read]
    rcases ran : (command.respond config now).run store with ⟨failure | value, after⟩
    · exact errorJson_writable _
    · exact Command.respond_writable ran

theorem converse_writable (lines : List (Instant × String)) (store : Store) :
    ∀ value ∈ (converse config refusal lines store).1, value.Writable := by
  have answers := forall₂_mapM (answer config refusal) (heard Prod.snd lines) store
  rw [← converse_eq_mapM] at answers
  generalize (converse config refusal lines store).1 = values at answers
  generalize heard Prod.snd lines = lines at answers
  induction answers with
  | nil => simp
  | cons first rest ih =>
    obtain ⟨mid, rfl⟩ := first
    exact List.forall_mem_cons.mpr ⟨answer_writable config refusal _ mid, ih⟩

theorem answered (lines : List (Instant × String)) (store : Store) :
    Answered config refusal lines store := by
  have same := congrFun (converse_eq_mapM config refusal lines) store
  have answers := forall₂_mapM (answer config refusal) (heard Prod.snd lines) store
  refine ⟨same, ?_, fun value present => ?_⟩
  · rw [same]
    exact answers.length_eq.symm
  · have writable := converse_writable config refusal lines store value present
    exact ⟨Json.newline_notMem_render writable, Json.read_render writable⟩

/-- A line, the time at which it is read, and the time at which it is read if others are left out,
none if it is left out itself. -/
structure MarkedLine where
  text : String
  time : Instant
  later : Option Instant
  deriving DecidableEq, Repr

namespace MarkedLine

def given (line : MarkedLine) : Instant × String := (line.time, line.text)

def kept? (line : MarkedLine) : Option (Instant × String) := line.later.map (·, line.text)

/-- The line is blank or is no command. -/
def IsIdle (line : MarkedLine) : Prop :=
  isBlankLine line.text = true ∨ Command.read? line.text = none

end MarkedLine

def keptAnswers (lines : List MarkedLine) (answers : List Json) : List Json :=
  (((heard MarkedLine.text lines).zip answers).filter (·.1.later.isSome)).map (·.2)

theorem heard_given (lines : List MarkedLine) :
    heard Prod.snd (lines.map MarkedLine.given) =
      (heard MarkedLine.text lines).map MarkedLine.given := by
  simp only [heard, List.takeWhile_map, List.filter_map]
  rfl

section

variable {line : MarkedLine} {lines : List MarkedLine} {now : Instant}

theorem keptAnswers_blank (blank : isBlankLine line.text = true) (answers : List Json) :
    keptAnswers (line :: lines) answers = keptAnswers lines answers := by
  unfold keptAnswers
  rw [@heard_blank _ MarkedLine.text line lines blank]

theorem keptAnswers_cons (goesOn : Command.read? line.text ≠ some .quit)
    (holds : isBlankLine line.text = false) (value : Json) (answers : List Json) :
    keptAnswers (line :: lines) (value :: answers) =
      if line.later.isSome then value :: keptAnswers lines answers
      else keptAnswers lines answers := by
  unfold keptAnswers
  rw [@heard_cons _ MarkedLine.text line lines goesOn holds, List.zip_cons_cons, List.filter_cons]
  split <;> rfl

theorem filterMap_kept (kept : line.later = some now) :
    (line :: lines).filterMap MarkedLine.kept? =
      (now, line.text) :: lines.filterMap MarkedLine.kept? := by
  simp [MarkedLine.kept?, kept]

theorem filterMap_left_out (leftOut : line.later = none) :
    (line :: lines).filterMap MarkedLine.kept? = lines.filterMap MarkedLine.kept? := by
  simp [MarkedLine.kept?, leftOut]

end

section

variable {γ δ : Type} {seen : Json → γ} {look : Store → δ} {line : MarkedLine}
  {lines : List MarkedLine} {now : Instant} {store store' : Store}

variable (seen look lines store store') in
/-- The dialogue without the lines that are left out, from another store, gives the other answers,
and its store in the end is the same, as far as one looks. -/
structure Resembles : Prop where
  answers : (converse config refusal (lines.filterMap MarkedLine.kept?) store').1.map seen =
    (keptAnswers lines (converse config refusal (lines.map MarkedLine.given) store).1).map seen
  stores : look (converse config refusal (lines.filterMap MarkedLine.kept?) store').2 =
    look (converse config refusal (lines.map MarkedLine.given) store).2

theorem Resembles.quit (quits : Command.read? line.text = some .quit)
    (kept : line.later = some now) (same : look store' = look store) :
    Resembles config refusal seen look (line :: lines) store store' := by
  have all : converse config refusal ((line :: lines).map MarkedLine.given) store = ([], store) :=
    converse_quit config refusal _ store quits
  constructor <;> rw [all, filterMap_kept kept, converse_quit config refusal _ store' quits]
  · simp [keptAnswers]
  · exact same

theorem Resembles.blank (blank : isBlankLine line.text = true)
    (rest : Resembles config refusal seen look lines store store') :
    Resembles config refusal seen look (line :: lines) store store' := by
  have all : converse config refusal ((line :: lines).map MarkedLine.given) store =
      converse config refusal (lines.map MarkedLine.given) store :=
    converse_blank config refusal _ store blank
  have others : converse config refusal ((line :: lines).filterMap MarkedLine.kept?) store' =
      converse config refusal (lines.filterMap MarkedLine.kept?) store' := by
    cases kept : line.later with
    | none => rw [filterMap_left_out kept]
    | some later => rw [filterMap_kept kept, converse_blank config refusal _ store' blank]
  constructor <;> rw [all, others]
  · rw [keptAnswers_blank blank]
    exact rest.answers
  · exact rest.stores

theorem Resembles.left_out (noCommand : Command.read? line.text = none)
    (holds : isBlankLine line.text = false) (leftOut : line.later = none)
    (rest : Resembles config refusal seen look lines store store') :
    Resembles config refusal seen look (line :: lines) store store' := by
  have goesOn : Command.read? line.text ≠ some .quit := by simp [noCommand]
  have all := @converse_cons config refusal line.time line.text (lines.map MarkedLine.given) store
    goesOn holds
  rw [answer_of_none config refusal noCommand] at all
  constructor <;> rw [List.map_cons, MarkedLine.given, all, filterMap_left_out leftOut]
  · rw [keptAnswers_cons goesOn holds, leftOut]
    exact rest.answers
  · exact rest.stores

theorem Resembles.kept (goesOn : Command.read? line.text ≠ some .quit)
    (holds : isBlankLine line.text = false) (kept : line.later = some now)
    (first : seen (answer config refusal (now, line.text) store').1 =
      seen (answer config refusal line.given store).1)
    (rest : Resembles config refusal seen look lines (answer config refusal line.given store).2
      (answer config refusal (now, line.text) store').2) :
    Resembles config refusal seen look (line :: lines) store store' := by
  constructor <;>
    rw [List.map_cons, MarkedLine.given, filterMap_kept kept,
      converse_cons config refusal _ _ goesOn holds, converse_cons config refusal _ _ goesOn holds]
  · rw [keptAnswers_cons goesOn holds, kept, Option.isSome_some, if_pos rfl, List.map_cons,
      List.map_cons, first, rest.answers]
    rfl
  · exact rest.stores

/-- It is enough that each kept line gives from stores that look the same answers and stores that
look the same. -/
theorem resembles (idle : ∀ line ∈ lines, line.later = none → line.IsIdle)
    (alike : ∀ line ∈ lines, ∀ later ∈ line.later, ∀ {store store' : Store},
      look store' = look store →
        seen (answer config refusal (later, line.text) store').1 =
            seen (answer config refusal line.given store).1 ∧
          look (answer config refusal (later, line.text) store').2 =
            look (answer config refusal line.given store).2)
    (same : look store' = look store) : Resembles config refusal seen look lines store store' := by
  induction lines generalizing store store' with
  | nil => exact ⟨rfl, same⟩
  | cons line lines ih =>
    obtain ⟨idle, idleLater⟩ := List.forall_mem_cons.mp idle
    obtain ⟨alike, alikeLater⟩ := List.forall_mem_cons.mp alike
    have go {store store' : Store} (same : look store' = look store) :
        Resembles config refusal seen look lines store store' := ih idleLater alikeLater same
    cases holds : isBlankLine line.text with
    | true => exact .blank config refusal holds (go same)
    | false =>
      cases kept : line.later with
      | none =>
        have noCommand := (idle kept).resolve_left (by simp [holds])
        exact .left_out config refusal noCommand holds kept (go same)
      | some later =>
        by_cases quits : Command.read? line.text = some .quit
        · exact .quit config refusal quits kept same
        · obtain ⟨first, after⟩ := alike later kept same
          exact .kept config refusal quits holds kept first (go after)

end

/-- The answers to lines that are left out are errors, and without those lines the dialogue has the
other answers and leaves the same store: the very same if the lines are read at the same times, and
the same but for times if they are read at others, which can be read back if those could. -/
structure LeftOut (lines : List MarkedLine) (store : Store) : Prop where
  errors : ∀ pair ∈ (heard MarkedLine.text lines).zip
      (converse config refusal (lines.map MarkedLine.given) store).1,
    pair.1.later = none → pair.2 = errorJson (refusal pair.1.text)
  same_times : (∀ line ∈ lines, ∀ later ∈ line.later, later = line.time) →
    let all := converse config refusal (lines.map MarkedLine.given) store
    converse config refusal (lines.filterMap MarkedLine.kept?) store =
      (keptAnswers lines all.1, all.2)
  other_times :
    (∀ line ∈ lines, ∀ later ∈ line.later, (stamp later).isSome = (stamp line.time).isSome) →
      Resembles config refusal Json.untimed Store.untimed lines store store

theorem answer_untimed {text : String} {now later : Instant}
    (alike : (stamp later).isSome = (stamp now).isSome) {store store' : Store}
    (same : store'.untimed = store.untimed) :
    (answer config refusal (later, text) store').1.untimed =
        (answer config refusal (now, text) store).1.untimed ∧
      (answer config refusal (later, text) store').2.untimed =
        (answer config refusal (now, text) store).2.untimed := by
  cases read : Command.read? text with
  | none =>
    rw [answer_of_none config refusal read, answer_of_none config refusal read]
    exact ⟨rfl, same⟩
  | some command =>
    obtain ⟨answers, stores⟩ := command.respond_untimed config alike same
    rw [answer_of_some config refusal read, answer_of_some config refusal read]
    generalize (command.respond config later).run store' = ran' at answers stores ⊢
    generalize (command.respond config now).run store = ran at answers stores ⊢
    obtain ⟨failure' | value', after'⟩ := ran' <;> obtain ⟨failure | value, after⟩ := ran
    · cases answers
      exact ⟨rfl, stores⟩
    · cases answers
    · cases answers
    · exact ⟨Except.ok.inj answers, stores⟩

theorem heard_holds {text : α → String} {lines : List α} {line : α}
    (present : line ∈ heard text lines) : line ∈ lines ∧ isBlankLine (text line) = false := by
  obtain ⟨before, holds⟩ := List.mem_filter.mp present
  exact ⟨(List.takeWhile_sublist _).mem before, by simpa using holds⟩

/-- A dialogue is transparent to lines that are blank or no command. Each line before the first that
asks to quit has one answer of one line, in order, if it is not blank. Leaving out lines that are
blank or no command takes the errors that answer them out of the answers, and does nothing else. -/
theorem dialogue_transparent (lines : List MarkedLine) (store : Store)
    (idle : ∀ line ∈ lines, line.later = none → line.IsIdle) :
    Answered config refusal (lines.map MarkedLine.given) store ∧
      LeftOut config refusal lines store := by
  refine ⟨answered config refusal _ store, ?_, fun times => ?_, fun times => ?_⟩
  · have answers := forall₂_mapM (answer config refusal)
      (heard Prod.snd (lines.map MarkedLine.given)) store
    rw [← converse_eq_mapM, heard_given, List.forall₂_map_left_iff] at answers
    rintro ⟨line, value⟩ present leftOut
    obtain ⟨mid, rfl⟩ := List.forall₂_zip answers present
    obtain ⟨member, holds⟩ := heard_holds (List.of_mem_zip present).1
    have noCommand := (idle line member leftOut).resolve_left (by simp [holds])
    exact congrArg Prod.fst (answer_of_none config refusal noCommand _ mid)
  · have same : Resembles config refusal id id lines store store := by
      apply resembles config refusal idle _ rfl
      rintro line member later kept store store' rfl
      rw [times line member later kept]
      exact ⟨rfl, rfl⟩
    exact Prod.ext (by simpa using same.answers) same.stores
  · apply resembles config refusal idle _ rfl
    intro line member later kept store store' same
    exact answer_untimed config refusal (times line member later kept) same

theorem dialogue_transparent_talk :
    let lines : List MarkedLine := [
      ⟨"[\"record_payment\",1,10]", ⟨0, 0⟩, some ⟨7, 0⟩⟩, ⟨" ", ⟨1, 0⟩, none⟩,
      ⟨"[\"pay\",1,10]", ⟨2, 0⟩, none⟩, ⟨"[\"delete_payment\",2]", ⟨3, 0⟩, some ⟨8, 0⟩⟩,
      ⟨"[\"list_payments\",1]", ⟨4, 0⟩, some ⟨9, 0⟩⟩, ⟨"[\"quit\"]", ⟨5, 0⟩, some ⟨10, 0⟩⟩,
      ⟨"[\"list_payments\",1]", ⟨6, 0⟩, some ⟨11, 0⟩⟩]
    let refusal (line : String) := "no command: " ++ line
    let all := converse .standard refusal (lines.map MarkedLine.given) Store.fresh
    let rest := converse .standard refusal (lines.filterMap MarkedLine.kept?) Store.fresh
    (∀ line ∈ lines, line.later = none → line.IsIdle) ∧
      all.1.length = 4 ∧ (∀ value ∈ all.1, Json.read value.render = some value) ∧
      (keptAnswers lines all.1).length = 3 ∧
      rest.1.map Json.untimed = (keptAnswers lines all.1).map Json.untimed ∧
      rest.2 ≠ all.2 ∧ rest.2.untimed = all.2.untimed := by
  intro lines refusal all rest
  have idle : ∀ line ∈ lines, line.later = none → line.IsIdle := by
    unfold MarkedLine.IsIdle
    decide +kernel
  obtain ⟨answered, leftOut⟩ := dialogue_transparent .standard refusal lines Store.fresh idle
  have four : (heard Prod.snd (lines.map MarkedLine.given)).length = 4 := by decide +kernel
  obtain ⟨answers, stores⟩ := leftOut.other_times (by decide +kernel)
  refine ⟨idle, answered.count.trans four, ?_, ?_, answers, ?_, stores⟩
  · exact fun value present => (answered.one_line value present).2
  · decide +kernel
  · decide +kernel

end Dialogue

end CommandLine

end PaymentFees
