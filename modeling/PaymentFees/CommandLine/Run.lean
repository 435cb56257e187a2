import PaymentFees.CommandLine.Batch
import PaymentFees.CommandLine.Dialogue

namespace PaymentFees.CommandLine

/-- What a run reads: the texts of the files that it names, if they can be read, the lines it is
given, and what stands at the path of its database; and what it says of lines that are no
commands. -/
structure Inputs where
  configText : Option String
  planText : Option String
  lines : List String
  fileAt : String → FileState
  refusal : String → String := Dialogue.plainRefusal

/-- What a run leaves behind; no book if it did not come to open one. -/
structure Outcome where
  succeeded : Bool
  output : List String
  book : Option Book

def Outcome.refused : Outcome := ⟨false, [], none⟩

def bannerLines (options : Options) : List String :=
  ["FeeBook fee-runner",
    s!"  seed:      {options.seed}",
    s!"  payments:  {options.payments}",
    s!"  user:      {options.user}",
    s!"  db:        {options.database}",
    ""]

def configOf (options : Options) (text : Option String) : Except LoadFault Config :=
  if options.configFile.isSome then Config.load text else .ok .standard

def planOf? (options : Options) (config : Config) (text : Option String) : Option FeePlan :=
  if options.planFile.isSome then text >>= FeePlan.read? else some (standardPlan config)

def openStore? (name : String) (fileAt : String → FileState) : Option Store := do
  let book ← (← Database.ofName? name).book? fileAt
  return .onBook { book with hasTables := true }

def runBatch (options : Options) (planText : Option String) (config : Config) (now : Instant)
    (store : Store) : Outcome :=
  let banner := bannerLines options
  match planOf? options config planText with
  | none => ⟨false, banner, store.book⟩
  | some plan =>
    let batch := Batch.runSeeded config now options.user options.seed options.payments plan
    match batch.run store with
    | (.ok summary, store) => ⟨true, banner ++ summary.lines, store.book⟩
    | (.error _, store) => ⟨false, banner, store.book⟩

def runDialogue (inputs : Inputs) (config : Config) (now : Instant) (store : Store) : Outcome :=
  let (answers, store) := Dialogue.converse config inputs.refusal (inputs.lines.map (now, ·)) store
  ⟨true, answers.map Json.render, store.book⟩

/-- Settings that cannot be loaded refuse a run, and so does a database that cannot be opened. -/
def run (options : Options) (inputs : Inputs) (now : Instant) : Outcome :=
  match configOf options inputs.configText with
  | .error _ => .refused
  | .ok config =>
    match openStore? options.database inputs.fileAt with
    | none => .refused
    | some store =>
      if options.dialogue then runDialogue inputs config now store
      else runBatch options inputs.planText config now store

end PaymentFees.CommandLine
