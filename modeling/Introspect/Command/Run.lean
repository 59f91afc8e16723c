import Introspect.Command.Arguments
import Introspect.Config.File
import Introspect.Engine
import Introspect.Manual
import Introspect.Source.Listing
import Introspect.Source.Snapshot

/-!
The command line: what each action reads, and what it prints. Reading is left to a host, so that
the same rules hold wherever the texts come from.
-/
namespace Introspect.Command

/-- Why a text cannot be read. -/
inductive FileError where
  | missing
  | denied
  | notDirectory
  | directory
  | nameTooLong
  | nameInvalid
  | notText
  | other (message : String)
deriving DecidableEq

def FileError.message : FileError → String
  | missing => "No such file or directory (os error 2)"
  | denied => "Permission denied (os error 13)"
  | notDirectory => "Not a directory (os error 20)"
  | directory => "Is a directory (os error 21)"
  | nameTooLong => "File name too long (os error 36)"
  | nameInvalid => "file name contained an unexpected NUL byte"
  | notText => "stream did not contain valid UTF-8"
  | other message => message

/-- Why a configuration cannot be had. -/
inductive ConfigError where
  | unreadable (path : String) (e : FileError)
  | invalid
deriving DecidableEq

def ConfigError.message : ConfigError → String
  | unreadable path e => s!"could not read config file '{path}': {e.message}"
  | invalid => "invalid config: the document does not hold a configuration"

inductive Error where
  | query (e : SyntaxError)
  | snapshot
  | config (e : ConfigError)
  | file (e : FileError)
  | category (name : String)
deriving DecidableEq

def Error.message : Error → String
  | query e => s!"Query error: {e.message}"
  | snapshot => "Invalid snapshot JSON: the document is not JSON"
  | config e => s!"Config error: {e.message}"
  | file e => s!"IO error: {e.message}"
  | category name => Manual.unknownMessage name

/-! ### Running a query -/

/-- What running a query against a snapshot comes to. -/
inductive Outcome where
  | valid (q : Query) (warnings : List LexWarning)
  | executed (e : Execution)

/-- Runs a query against the text of a snapshot, or only checks it. The snapshot has to be JSON in
either case. -/
def runQuery (config : Config) (clock : Clock) (snapshot : Option String) (syntaxOnly : Bool)
    (query : String) : Except Error Outcome :=
  match Registry.ofSnapshot? (σ := Unit) snapshot with
  | none => .error .snapshot
  | some registry =>
    let engine : Engine Unit := ⟨registry, config⟩
    if syntaxOnly then
      match engine.check query with
      | .ok (q, warnings) => .ok (.valid q warnings)
      | .error e => .error (.query e)
    else .ok (.executed (engine.run clock () query))

/-! ### Actions -/

/-- Where the texts come from. -/
structure Host (m : Type → Type) where
  fileText : String → m (Except FileError String)
  /-- The standard input, unless it is a terminal. -/
  inputText : m (Except FileError (Option String))
  clock : m Clock

structure Output where
  stdout : String
  stderr : String
  code : UInt8
deriving DecidableEq

namespace Output

def line (s : String) : String := s ++ "\n"

def printed (stdout : String) : Output :=
  ⟨stdout, "", 0⟩

def failed (e : Error) : Output :=
  ⟨"", line e.message, 1⟩

/-- The text of an outcome. What was mended goes to the error output. -/
def ofOutcome (pretty : Bool) : Outcome → Output
  | .valid q warnings =>
    ⟨line s!"Syntax is valid: {q.render}",
      String.join (warnings.map fun w => line s!"warning: {w.message}"), 0⟩
  | .executed e =>
    printed (line (if pretty then e.result.toJson.pretty else e.result.toJson.compact))

end Output

variable {m : Type → Type} [Monad m]

/-- The text of a file. No file has a name with a NUL in it. -/
def Host.readText (host : Host m) (path : String) : m (Except FileError String) :=
  if path.toList.contains '\x00' then return .error .nameInvalid else host.fileText path

/-- The configuration of a file, or the default one. -/
def loadConfig (host : Host m) : Option String → m (Except ConfigError Config)
  | none => return .ok Config.default
  | some path => do
    match ← host.readText path with
    | .error e => return .error (.unreadable path e)
    | .ok text =>
      match Config.ofText? text with
      | some config => return .ok config
      | none => return .error .invalid

/-- The text of a snapshot: of a file, or of the standard input. -/
def readSnapshot (host : Host m) : Option String → m (Except FileError (Option String))
  | some path => return (← host.readText path).map some
  | none => host.inputText

def perform (host : Host m) (call : Invocation) : m (Except Error Output) := do
  match call.action with
  | .run query path pretty syntaxOnly strict =>
    match ← loadConfig host call.config with
    | .error e => return .error (.config e)
    | .ok config =>
      let config := if strict then { config with mode := .strict } else config
      match ← if syntaxOnly then pure (.ok none) else readSnapshot host path with
      | .error e => return .error (.file e)
      | .ok snapshot =>
        let outcome := runQuery config (← host.clock) snapshot syntaxOnly query
        return outcome.map (Output.ofOutcome pretty)
  | .sources path =>
    match ← readSnapshot host path with
    | .error e => return .error (.file e)
    | .ok snapshot =>
      match Registry.ofSnapshot? (σ := Unit) snapshot with
      | none => return .error .snapshot
      | some registry =>
        return .ok (.printed (String.join (registry.listing.map fun l => Output.line l.line)))
  | .docs => return .ok (.printed Manual.overview)
  | .doc name =>
    match Manual.Topic.ofName? name with
    | some topic => return .ok (.printed topic.page)
    | none => return .error (.category name)

def execute (host : Host m) (call : Invocation) : m Output := do
  match ← perform host call with
  | .ok output => return output
  | .error e => return .failed e

end Introspect.Command
