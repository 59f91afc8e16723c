import Introspect.Config.Basic
import Introspect.Dispatch
import Introspect.Parser
import Introspect.Result

/-!
The engine takes the text of a query to its result. Whatever goes wrong on the way, the outcome is
a result.
-/
namespace Introspect

/-- The measurements of a run: the point in time at its end, and the nanoseconds that pass in all
while reads are waited for. -/
structure Clock where
  now : Timestamp
  elapsed : (waited : Nat) → UInt64

/-- A result together with the reads that were started for it. -/
structure Execution where
  result : Result
  reads : List (SourceKind × String)

/-- What can be wrong with a query as a whole. -/
inductive QueryError where
  | malformed (e : SyntaxError)
  | unknownSource (name : String)
deriving DecidableEq

def QueryError.message : QueryError → String
  | malformed e => e.message
  | unknownSource name => SourceKind.unknownMessage name

/-- The result of a query to an available source, by what its fields came to. -/
def Result.ofDispatch (clock : Clock) (kind : SourceKind) (q : Query) (text : String)
    (d : Dispatch) : Result :=
  let elapsed := Latency.millisOfNanos (clock.elapsed d.waited).toNat
  { query := text
    fields := d.fields
    source := kind.name
    timestamp := clock.now
    elapsed
    constraintsSatisfied := !d.missedDeadline && Constraints.allSatisfied q.constraints elapsed
    depth := q.depth
    options := q.options }

def SourceKind.unavailableMessage (kind : SourceKind) (reason : String) : String :=
  s!"Source '{kind.name}' is unavailable: {reason}"

/-- The result of a query to an unavailable source. -/
def Result.unavailable (clock : Clock) (kind : SourceKind) (reason : String) (q : Query)
    (text : String) : Result where
  query := text
  fields := errorFields (kind.unavailableMessage reason)
  source := kind.name
  timestamp := clock.now
  elapsed := Binary64.zero false
  constraintsSatisfied := Constraints.allSatisfied q.constraints (Binary64.zero false)
  depth := q.depth
  options := q.options

/-- The accessors of a source at work, with a note of each call. -/
def SourceKind.noting [Monad m] [MonadStateOf (List (SourceKind × String)) m] (state : σ)
    (kind : SourceKind) (table : FieldTable σ) : Calls m :=
  table.calls state (noteCall (kind, ·))

namespace Registry

/-- Executes a query that stands for `text`. It fails only if it names no source. -/
def executeM [Monad m] (calls : SourceKind → FieldTable σ → Calls m) (spawn : String → m Bool)
    (registry : Registry σ) (config : Config) (clock : Clock) (q : Query) (text : String) :
    m (Except QueryError Result) := do
  match registry.lookup? q.source with
  | none => return .error (.unknownSource q.source)
  | some (kind, .available table) =>
    let timeout := config.fieldTimeout q.constraints
    let d ← Dispatch.perform (calls kind table) spawn timeout q.fields
    return .ok (.ofDispatch clock kind q text d)
  | some (kind, .unavailable reason) => return .ok (.unavailable clock kind reason q text)

/-- Executes a query where every thread is granted. -/
def execute (registry : Registry σ) (config : Config) (clock : Clock) (state : σ) (q : Query)
    (text : String) : Except QueryError Execution :=
  let calls := SourceKind.noting (m := StateM (List (SourceKind × String))) state
  let (outcome, reads) :=
    Id.run ((registry.executeM calls (fun _ => pure true) config clock q text).run [])
  outcome.map fun result => ⟨result, reads⟩

end Registry

/-- A registry with the configuration to run queries under. -/
structure Engine (σ : Type) where
  registry : Registry σ
  config : Config

namespace Engine

/-- The query that a text stands for, and what was mended in the text. -/
def check (engine : Engine σ) (text : String) : Except SyntaxError (Query × List LexWarning) :=
  Query.check text engine.config.mode

/-- Reads and executes a query. -/
def attempt (engine : Engine σ) (clock : Clock) (state : σ) (text : String) :
    Except QueryError Execution :=
  match engine.check text with
  | .error e => .error (.malformed e)
  | .ok (q, _) => engine.registry.execute engine.config clock state q text

/-- Runs a query from end to end; a failure is a result too. -/
def run (engine : Engine σ) (clock : Clock) (state : σ) (text : String) : Execution :=
  match engine.attempt clock state text with
  | .ok execution => execution
  | .error e => ⟨Result.failure text e.message clock.now, []⟩

end Engine

/-- Runs a query under the default configuration. -/
def Registry.run (registry : Registry σ) (clock : Clock) (state : σ) (text : String) : Execution :=
  Engine.run ⟨registry, Config.default⟩ clock state text

end Introspect
