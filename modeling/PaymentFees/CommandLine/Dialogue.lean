import PaymentFees.CommandLine.Command
import PaymentFees.Text.Blank

namespace PaymentFees.CommandLine

inductive Response where
  | silence
  | answer (value : Json)
  | stop

namespace Dialogue

def errorJson (message : String) : Json := .record [("error", .text message)]

def isBlankLine (line : String) : Bool := line.toList.all isWhiteSpace

def plainRefusal (_line : String) : String := "the line is no command"

/-- A line that is no command and a command that fails both answer with an error. What is said of
the former is a matter of the reader. -/
def step (config : Config) (refusal : String → String) (now : Instant) (line : String) :
    StateM Store Response := do
  if isBlankLine line then return .silence
  match Command.read? line with
  | none => return .answer (errorJson (refusal line))
  | some .quit => return .stop
  | some command =>
    match ← (command.respond config now).run with
    | .ok value => return .answer value
    | .error failure => return .answer (errorJson failure.message)

/-- The answers to lines, in order. Each line comes with the time at which it is read. -/
def converse (config : Config) (refusal : String → String) :
    List (Instant × String) → StateM Store (List Json)
  | [] => return []
  | (now, line) :: lines => do
    match ← step config refusal now line with
    | .silence => converse config refusal lines
    | .answer value => return value :: (← converse config refusal lines)
    | .stop => return []

end Dialogue

end PaymentFees.CommandLine
