import Introspect.Text.Blank
import Introspect.Binary64.Arithmetic
import Introspect.Bindings
import Introspect.Literal

/-!
Constraints on a query. Only `max_latency` has a meaning: the milliseconds that reading the fields
may take. Other names are accepted and ignored, so that queries that know more still run.
-/
namespace Introspect

namespace Latency

/-- The name of the one constraint with a meaning. -/
def constraintName : String := "max_latency"

/-- Past an optional unit of milliseconds. -/
def dropUnit : List Char → List Char
  | 'm' :: 's' :: rest => rest
  | rest => rest

/-- Milliseconds as a text: digits with at most one point after the first of them, an optional
unit, and blanks around both. -/
def ofChars? (cs : List Char) : Option Binary64 :=
  let cs := Text.dropBlanks cs
  let whole := cs.takeWhile Char.isDigit
  let (fraction, rest) := match cs.dropWhile Char.isDigit with
    | '.' :: rest => (rest.takeWhile Char.isDigit, rest.dropWhile Char.isDigit)
    | rest => ([], rest)
  if whole.isEmpty ∨ !(Text.dropBlanks (dropUnit (Text.dropBlanks rest))).isEmpty then none
  else
    let d : Decimal := ⟨Nat.ofDigitChars 10 (whole ++ fraction) 0, -fraction.length⟩
    some (d.toBinary64 false)

/-- The milliseconds that a value stands for, if it can be read as such. -/
def ofLiteral? : Literal → Option Binary64
  | .integer n => some (Binary64.ofInt n.toInt)
  | .float x => some x
  | .text s => ofChars? s.toList

/-- Whole nanoseconds nearest to a number of seconds; none for negative numbers and for those of 64
bits and more. -/
def nanosOfSeconds? : Binary64 → Option Nat
  | .finite negative rank =>
    let inUnits := Binary64.units rank
    if negative ∧ inUnits ≠ 0 ∨ 0x10000000000000000 * Binary64.unitsPerOne ≤ inUnits then none
    else some (roundDiv .even (inUnits * 1000000000) Binary64.unitsPerOne)
  | _ => none

def nanosOfMillis? (ms : Binary64) : Option Nat :=
  nanosOfSeconds? (ms.div (Binary64.ofInt 1000))

/-- A span of nanoseconds in milliseconds. Whole seconds and the rest are rounded apart. -/
def millisOfNanos (nanos : Nat) : Binary64 :=
  let seconds := (Binary64.ofInt (nanos / 1000000000 : Nat)).add
    ((Binary64.ofInt (nanos % 1000000000 : Nat)).div (Binary64.ofInt 1000000000))
  seconds.mul (Binary64.ofInt 1000)

end Latency

/-- What became of one constraint. -/
inductive ConstraintOutcome where
  | satisfied
  | violated (limit actual : Binary64)
  /-- The value cannot be read as a latency. -/
  | malformed (value : Literal)
  | ignored
deriving DecidableEq

namespace ConstraintOutcome

def isSatisfied : ConstraintOutcome → Bool
  | satisfied | ignored => true
  | violated .. | malformed _ => false

end ConstraintOutcome

namespace Constraints

/-- The declared limit in milliseconds. -/
def limit? (constraints : Bindings Literal) : Option Binary64 :=
  (constraints.get? Latency.constraintName).bind Latency.ofLiteral?

/-- The declared limit as a span of nanoseconds. -/
def deadline? (constraints : Bindings Literal) : Option Nat :=
  (limit? constraints).bind Latency.nanosOfMillis?

/-- A latency constraint is violated by a time above its limit. -/
def judge (elapsed : Binary64) (name : String) (value : Literal) : ConstraintOutcome :=
  if name = Latency.constraintName then
    match Latency.ofLiteral? value with
    | none => .malformed value
    | some limit => if limit.lt elapsed then .violated limit elapsed else .satisfied
  else .ignored

/-- The outcome of each constraint after the milliseconds that a query took. -/
def evaluate (constraints : Bindings Literal) (elapsed : Binary64) :
    List (String × ConstraintOutcome) :=
  constraints.pairs.map fun (name, value) => (name, judge elapsed name value)

def allSatisfied (constraints : Bindings Literal) (elapsed : Binary64) : Bool :=
  (evaluate constraints elapsed).all fun (_, outcome) => outcome.isSatisfied

end Constraints
end Introspect
