import PaymentFees.Book.Archive
import PaymentFees.CommandLine.Run
import Std.Time.DateTime.Timestamp

open PaymentFees CommandLine

def currentInstant : IO Instant := do
  let time := (← Std.Time.Timestamp.now).val
  return ⟨time.second.val, time.nano.val.toNat⟩

def fileBytes (path : String) : IO (Option ByteArray) := do
  try some <$> IO.FS.readBinFile path catch _ => return none

def fileText (path : Option String) : IO (Option String) := do
  match path with
  | none => return none
  | some path => return (← fileBytes path) >>= String.fromUTF8?

def stateOfBytes (bytes : ByteArray) : FileState :=
  match String.fromUTF8? bytes >>= Book.ofArchive? with
  | some book => .book book
  | none => .foreign bytes

def fileState (path : String) : IO FileState := do
  try let _ ← IO.FS.Handle.mk path .read catch _ => return .missing true
  return ((← fileBytes path).map stateOfBytes).getD .directory

def databaseState (options : Options) : IO (String → FileState) := do
  match Database.ofName? options.database with
  | some (.file path _ model) =>
    let kept ← fileState path
    let model ← fileState (model.getD path)
    return fun other => if other = path then kept else model
  | _ => return fun _ => .missing false

def saveBook (options : Options) (book : Book) : IO Unit := do
  match Database.ofName? options.database with
  | some (.file path _ _) => IO.FS.writeFile path book.archive
  | _ => return

def talk (options : Options) (config : Config) (refusal : String → String) (opened : Store) :
    IO Unit := do
  let input ← IO.getStdin
  let output ← IO.getStdout
  let mut store := opened
  repeat
    let line ← input.getLine
    if line.isEmpty then break
    let (response, after) := Dialogue.step config refusal (← currentInstant) line store
    store := after
    match response with
    | .silence => pure ()
    | .stop => break
    | .answer value =>
      saveBook options store.book
      output.putStrLn value.render
      output.flush

/-- Opens the database, so that one that cannot be written fails at once. -/
def openDatabase (options : Options) (fileAt : String → FileState) : IO (Option Store) := do
  match openStore? options.database fileAt with
  | none => return none
  | some store => try saveBook options store.book; return some store catch _ => return none

def main (arguments : List String) : IO UInt32 := do
  let options := Options.ofArguments arguments
  let configText ← fileText options.configFile
  let .ok config := configOf options configText | return 1
  let some store ← openDatabase options (← databaseState options) | return 1
  if options.dialogue then
    talk options config Dialogue.plainRefusal store
    return 0
  else
    let outcome := runBatch options (← fileText options.planFile) config (← currentInstant) store
    outcome.book.forM (saveBook options)
    outcome.output.forM IO.println
    return if outcome.succeeded then 0 else 1
