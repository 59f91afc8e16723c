import Introspect.Latency
import Introspect.Lexer

/-! How queries are run: how strictly they are read, and how long a field is waited for. -/
namespace Introspect

structure Config where
  mode : Mode
  /-- Whether a field is given up when its time runs out. -/
  enforceDeadlines : Bool
  /-- The time for each field, in milliseconds, of queries that declare none. -/
  defaultTimeoutMs : Option UInt64
deriving DecidableEq

namespace Config

def default : Config :=
  ⟨.lenient, true, none⟩

/-- The nanoseconds that each field is waited for, if there is a bound. -/
def fieldTimeout (config : Config) (constraints : Bindings Literal) : Option Nat :=
  if config.enforceDeadlines then
    (Constraints.deadline? constraints).or
      (config.defaultTimeoutMs.map fun ms => ms.toNat * 1000000)
  else none

end Config

end Introspect
