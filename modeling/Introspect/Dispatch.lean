import Introspect.Latency
import Introspect.Source.Registry

/-!
Dispatch of a query to a source: each selected name is read once, for itself. A field that fails,
panics or misses its deadline leaves the others as they are.

Accessors are called in a monad, and threads are asked for in it. So calls can be noted where they
are made, and a host can refuse a thread or panic over its name.
-/
namespace Introspect

/-- What a requested field comes to. -/
inductive FieldOutcome where
  | resolved (value : Json)
  /-- The source has no such field. -/
  | unknown
  | failed (e : FieldError)

namespace FieldOutcome

/-- The value that stands for an outcome in a result. -/
def toJson : FieldOutcome → Json
  | resolved value => value
  | unknown => .null
  | failed e => .object [("error", .string e.message)]

def isMissedDeadline : FieldOutcome → Bool
  | failed (.deadline ..) => true
  | _ => false

/-- The outcome of a read that was waited for. -/
def ofAnswer (name : String) : Answer → FieldOutcome
  | .value j => resolved j
  | .failure e => failed e
  | .panic => failed (.panicked name)

end FieldOutcome

namespace Reading

/-- Whether an answer comes before the time runs out. -/
def completes (r : Reading) (timeout : Nat) : Bool :=
  match r.latency with
  | some latency => latency < timeout
  | none => false

/-- The outcome of a read that is waited for as long as it takes. -/
def await (r : Reading) (name : String) : FieldOutcome :=
  .ofAnswer name r.answer

/-- The outcome of a read that is given up when the time runs out. -/
def awaitWithin (r : Reading) (timeout : Nat) (name : String) : FieldOutcome :=
  if r.completes timeout then .ofAnswer name r.answer
  else .failed (.deadline name (Latency.millisOfNanos timeout))

/-- The nanoseconds that are spent on waiting. -/
def waiting (r : Reading) (timeout : Option Nat) : Nat :=
  match timeout, r.latency with
  | none, latency => latency.getD 0
  | some timeout, some latency => min timeout latency
  | some timeout, none => timeout

end Reading

/-- What resolving a name comes to. -/
structure Resolution where
  outcome : FieldOutcome
  /-- The nanoseconds that were spent on waiting. -/
  waited : Nat

/-- The accessors of a source at work. Each entry is a call. -/
abbrev Calls (m : Type → Type) := Bindings (m Reading)

/-- The name of the thread that a field is read on. -/
def threadName (field : String) : String :=
  s!"iql-field-{field}"

section Calls

variable {m : Type → Type} [Monad m]

/-- Makes a call in place and waits as long as it takes. -/
def Resolution.inPlace (call : m Reading) (name : String) : m Resolution := do
  let r ← call
  return ⟨r.await name, r.waiting none⟩

/-- Makes a call on a thread of its own, and gives it up when the time runs out. If the thread is not
granted, the call is made in place. -/
def Resolution.onThread (spawn : String → m Bool) (call : m Reading) (nanos : Nat)
    (name : String) : m Resolution := do
  if ← spawn (threadName name) then
    let r ← call
    return ⟨r.awaitWithin nanos name, r.waiting (some nanos)⟩
  else
    inPlace call name

/-- Resolves a name by a call, if the source has an accessor for it. -/
def Calls.resolve (calls : Calls m) (spawn : String → m Bool) (timeout : Option Nat)
    (name : String) : m Resolution :=
  match calls.get? name with
  | none => return ⟨.unknown, 0⟩
  | some call =>
    match timeout with
    | none => Resolution.inPlace call name
    | some nanos => Resolution.onThread spawn call nanos name

/-- The accessors of a table at work on a state of the subsystems. Each call is noted by its name
before anything comes of it. -/
def FieldTable.calls (table : FieldTable σ) (state : σ) (note : String → m Unit) : Calls m :=
  table.mapNamed fun name accessor => do
    note name
    return accessor state

/-- Notes a call. -/
def noteCall [MonadStateOf (List α) m] (label : String → α) (name : String) : m Unit :=
  modify (· ++ [label name])

end Calls

/-- What a name comes to in a table, with the subsystems in a given state and every thread
granted. -/
def FieldTable.resolution (table : FieldTable σ) (state : σ) (timeout : Option Nat)
    (name : String) : Resolution :=
  Id.run ((table.calls state fun _ => pure ()).resolve (fun _ => pure true) timeout name)

def FieldTable.resolve (table : FieldTable σ) (state : σ) (timeout : Option Nat) (name : String) :
    FieldOutcome :=
  (table.resolution state timeout name).outcome

/-- A dispatch part way through the selected names. -/
structure Dispatch where
  fields : Bindings Json
  missedDeadline : Bool
  /-- The nanoseconds that were spent on waiting. -/
  waited : Nat

namespace Dispatch

def start : Dispatch :=
  ⟨∅, false, 0⟩

/-- Enters what a name came to. -/
def record (d : Dispatch) (name : String) (r : Resolution) : Dispatch where
  fields := d.fields.insert name r.outcome.toJson
  missedDeadline := d.missedDeadline || r.outcome.isMissedDeadline
  waited := d.waited + r.waited

section Calls

variable {m : Type → Type} [Monad m] (calls : Calls m) (spawn : String → m Bool)
  (timeout : Option Nat)

/-- Resolves one more name, unless it has a value already. -/
def step (d : Dispatch) (name : String) : m Dispatch := do
  if d.fields.contains name then
    return d
  else
    return d.record name (← calls.resolve spawn timeout name)

/-- Resolves the selected names one after another. -/
def perform (names : List String) : m Dispatch :=
  names.foldlM (step calls spawn timeout) start

end Calls

/-- A dispatch to a table, with the subsystems in a given state and every thread granted. -/
def run (table : FieldTable σ) (state : σ) (timeout : Option Nat) (names : List String) :
    Dispatch :=
  Id.run (perform (table.calls state fun _ => pure ()) (fun _ => pure true) timeout names)

end Dispatch

/-! ### Hosts -/

/-- The threads that a host grants, by their names. -/
abbrev Threads := String → Bool

/-- The panic over the name of a thread. Nothing catches it. -/
structure ThreadPanic where
  name : String
deriving DecidableEq

/-- No thread has a name with a NUL in it. -/
def checkThreadName [Monad m] (name : String) : ExceptT ThreadPanic m Unit :=
  if name.toList.contains '\x00' then throw ⟨name⟩ else return ()

/-- Asks for a thread. -/
def Threads.spawn [Monad m] (threads : Threads) (name : String) : ExceptT ThreadPanic m Bool := do
  checkThreadName name
  return threads name

end Introspect
