import Introspect.Config.Basic
import Introspect.Toml.Document

/-!
Configurations as TOML documents. Every setting may be left out, names that are no settings are
passed over, and a setting has to be of its type.
-/
namespace Introspect

namespace Toml.Value

/-- The members of a record: by name in a table, by place in an array. A date or time is a record
without any of them. -/
def record? (names : List String) : Value → Option (List (Option Value))
  | table entries => some (names.map fun name => entries.lookup name)
  | array elements => some ((List.range names.length).map fun i => elements[i]?)
  | moment _ => some (names.map fun _ => none)
  | _ => none

def isEmptyContainer : Value → Bool
  | array [] | table [] => true
  | _ => false

def boolean? : Value → Option Bool
  | boolean b => some b
  | _ => none

/-- An integer that is not negative. -/
def natural? : Value → Option UInt64
  | integer n => if 0 ≤ n.toInt then some (UInt64.ofNat n.toInt.toNat) else none
  | _ => none

end Toml.Value

namespace Config

open Toml (Value)

/-- A setting that may be left out. -/
def setting (read : Value → Option α) (fallback : α) : Option Value → Option α
  | none => some fallback
  | some v => read v

def modeOfName? (name : String) : Option Mode :=
  if name = "lenient" then some .lenient
  else if name = "strict" then some .strict
  else none

/-- A mode is its name, or a table in which its name is the only entry and stands for nothing. -/
def mode? : Value → Option Mode
  | .string name => modeOfName? name
  | .table [(name, v)] => if v.isEmptyContainer then modeOfName? name else none
  | _ => none

/-- The settings of the lexer. -/
def lexer? (v : Value) : Option Mode := do
  let members ← v.record? ["mode"]
  setting mode? default.mode (members[0]?.join)

/-- The settings of dispatch. -/
def executor? (v : Value) : Option (Bool × Option UInt64) := do
  let members ← v.record? ["enforce_deadlines", "default_field_timeout_ms"]
  let enforce ← setting Value.boolean? default.enforceDeadlines (members[0]?.join)
  let timeout ← setting (fun v => v.natural?.map some) default.defaultTimeoutMs (members[1]?.join)
  return (enforce, timeout)

def ofEntries? (entries : List (String × Value)) : Option Config := do
  let mode ← setting lexer? default.mode (entries.lookup "lexer")
  let (enforceDeadlines, defaultTimeoutMs) ←
    setting executor? (default.enforceDeadlines, default.defaultTimeoutMs)
      (entries.lookup "executor")
  return { mode, enforceDeadlines, defaultTimeoutMs }

def ofText? (text : String) : Option Config :=
  (Toml.Document.ofText? text).bind ofEntries?

/-- The defaults as a document to start from. -/
def shipped : String :=
  "\n".intercalate [
    "# Defaults for the IQL engine. Every key may be overridden by a user config.",
    "",
    "[lexer]",
    "# \"lenient\" drops unknown characters and closes unterminated strings at end",
    "# of input; \"strict\" rejects both.",
    "mode = \"lenient\"",
    "",
    "[executor]",
    "# Wait for each accessor no longer than the query's max_latency budget.",
    "enforce_deadlines = true",
    "",
    "# Uncomment to bound accessors for queries without a max_latency constraint.",
    "# default_field_timeout_ms = 1000",
    ""]

end Config
end Introspect
