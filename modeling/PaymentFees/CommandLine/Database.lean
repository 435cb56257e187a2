import PaymentFees.Book.Basic
import PaymentFees.CommandLine.EmptyFile
import PaymentFees.Text.Hexadecimal

/-!
The names of databases. A name is a path, or a URI of the form

    file: ('//' host)? path ('?' name '=' value ('&' name '=' value)*)? ('#' any)?

and some names stand for a database that is kept in no file.
-/

namespace PaymentFees.CommandLine

/-- Where a database is kept. A file may be made if there is none, with the permissions of a
`model` if one is named. -/
inductive Database where
  | temporary
  | file (path : String) (mayCreate : Bool) (model : Option String)
  deriving DecidableEq, Repr

namespace Database

def memoryName : String := ":memory:"

def ofPath (path : String) (mayCreate : Bool) (model : Option String) : Database :=
  if path.isEmpty ∨ path = memoryName then temporary else file path mayCreate model

inductive Access where
  | read | write | create | memory
  deriving DecidableEq, Repr

namespace Access

def ofName? : String → Option Access
  | "ro" => some read
  | "rw" => some write
  | "rwc" => some create
  | "memory" => some memory
  | _ => none

/-- Whether what is allowed so far may be changed to something else: it never grows. -/
def admits : Access → Access → Bool
  | read, next => next == read || next == memory
  | write, next => next != create
  | create, _ | memory, _ => true

end Access

structure Settings where
  access : Access
  fileSystem : String
  immutable : Option Bool
  model : Option String
  deriving DecidableEq, Repr

namespace Settings

def standard : Settings := ⟨.create, "unix", none, none⟩

def leadingNumber? (text : List Char) : Option Nat :=
  let digits := text.takeWhile Char.isDigit
  let hexDigits := (text.drop 2).takeWhile fun c => (hexValue? c).isSome
  if digits.isEmpty then none
  else if (text.take 2 == ['0', 'x'] || text.take 2 == ['0', 'X']) && !hexDigits.isEmpty then
    some (hexNumberOf hexDigits)
  else some (numberOf digits)

/-- A word of consent, or a number whose low byte is not zero; one of more than 31 bits counts as
zero. -/
def isYes (value : String) : Bool :=
  match leadingNumber? value.toList with
  | none => ["on", "yes", "true"].contains value.toLower
  | some n => n < 2147483648 && n % 256 != 0

/-- Of a setting that is given again the last value counts, but the first one of `immutable` and
of `modeof`. Other names mean nothing. -/
def apply (settings : Settings) (name value : String) : Option Settings :=
  match name with
  | "mode" => do
    let access ← Access.ofName? value
    if settings.access.admits access then some { settings with access := access } else none
  | "cache" => if value = "shared" ∨ value = "private" then some settings else none
  | "vfs" => some { settings with fileSystem := value }
  | "immutable" => some { settings with immutable := settings.immutable <|> some (isYes value) }
  | "modeof" => some { settings with model := settings.model <|> some value }
  | _ => some settings

def read? (settings : Settings) (text : String) : Option Settings := do
  let (name, value) := text.toList.span (· != '=')
  if name.isEmpty then return settings
  settings.apply (percentDecoded name) (percentDecoded value.tail)

def memoryFileSystem : String := "memdb"

def fileSystems : List String :=
  ["unix", "unix-none", "unix-dotfile", "unix-excl", memoryFileSystem]

/-- Nothing can be done with a database that cannot be written. One that is in no file is never
immutable. -/
def database? (settings : Settings) (path : String) : Option Database :=
  if settings.access = .read ∨ settings.fileSystem ∉ fileSystems then none
  else if settings.access = .memory then some temporary
  else
    match ofPath path (settings.access == .create) settings.model with
    | temporary => some temporary
    | database =>
      if settings.immutable.getD false then none
      else if settings.fileSystem = memoryFileSystem then some temporary
      else some database

end Settings

def skipHost? : List Char → Option (List Char)
  | '/' :: '/' :: rest =>
    let (host, path) := rest.span (· != '/')
    if host.isEmpty ∨ host = "localhost".toList then some path else none
  | path => some path

def ofUri? (text : List Char) : Option Database := do
  let text ← skipHost? text
  let (path, query) := (text.takeWhile (· != '#')).span (· != '?')
  let settings ←
    ((String.ofList query.tail).splitOn "&").foldlM Settings.read? Settings.standard
  settings.database? (percentDecoded path)

def ofName? (name : String) : Option Database :=
  match name.toList with
  | 'f' :: 'i' :: 'l' :: 'e' :: ':' :: rest => ofUri? rest
  | _ => some (ofPath name true none)

end Database

/-- What stands at a path: nothing, where a file can be made or not; a directory; a file that no
run has written; or a book. -/
inductive FileState where
  | missing (canBeMade : Bool)
  | directory
  | foreign (content : ByteArray)
  | book (kept : Book)

namespace FileState

def isMissing : FileState → Bool
  | missing _ => true
  | _ => false

def book? (mayCreate : Bool) : FileState → Option Book
  | missing canBeMade => if mayCreate && canBeMade then some .blank else none
  | directory => none
  | foreign content => if holdsNothing content then some .blank else none
  | book kept => some kept

end FileState

def Database.book? (fileAt : String → FileState) : Database → Option Book
  | temporary => some .blank
  | file path mayCreate model =>
    if model.any fun path => (fileAt path).isMissing then none else (fileAt path).book? mayCreate

end PaymentFees.CommandLine
