import Introspect.Binary64.Arithmetic
import Introspect.Binary64.Layout

/-! Literals: the values a query text can give to a name. -/
namespace Introspect

/-- A number is a float only if it was written with a point or is too large for an integer. -/
inductive Literal where
  | integer (n : Int64)
  | float (x : Binary64)
  | text (s : String)
deriving DecidableEq

namespace Literal

def toFloat? : Literal → Option Binary64
  | integer n => some (Binary64.ofInt n.toInt)
  | float x => some x
  | text _ => none

/-- The literal as an integer, without its fraction. -/
def toInt? : Literal → Option Int64
  | integer n => some n
  | float x => some x.truncate
  | text _ => none

def text? : Literal → Option String
  | text s => some s
  | _ => none

def isNumber : Literal → Bool
  | text _ => false
  | _ => true

/-- Equality up to the numeric equality of floats. -/
def same : Literal → Literal → Bool
  | integer m, integer n => m == n
  | float x, float y => x.sameNumber y
  | text s, text t => s == t
  | _, _ => false

/-- The bare value, for a message. -/
def display : Literal → String
  | integer n => n.toInt.repr
  | float x => String.ofList x.plainText
  | text s => s

/-- The quote that a text is written in: double, unless one occurs in it. -/
def quoteFor (s : String) : Char :=
  if s.toList.contains '"' then '\'' else '"'

/-- The literal as it is written in a query. Floats always have a point. -/
def render : Literal → String
  | integer n => n.toInt.repr
  | float x => String.ofList (Binary64.withPoint x.plainText)
  | text s => String.singleton (quoteFor s) ++ s ++ String.singleton (quoteFor s)

end Literal
end Introspect
