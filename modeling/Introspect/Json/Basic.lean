import Introspect.Bindings
import Introspect.Binary64.Layout

/-!
JSON values and their text. A number is an integer or a float, and stays what it is when it is
written and read again.
-/
namespace Introspect

inductive Json where
  | null
  | bool (b : Bool)
  | integer (n : Int)
  | float (x : Binary64)
  | string (s : String)
  | array (elements : List Json)
  | object (members : List (String × Json))

namespace Json

instance : Inhabited Json := ⟨null⟩

/-- The members of an object, if the value is one. -/
def members? : Json → Option (List (String × Json))
  | object members => some members
  | _ => none

def string? : Json → Option String
  | string s => some s
  | _ => none

def bool? : Json → Option Bool
  | bool b => some b
  | _ => none

/-- A number, as a float. -/
def float? : Json → Option Binary64
  | integer n => some (Binary64.ofInt n)
  | float x => some x
  | _ => none

/-- An object with each name once, in the order of the names. -/
def ofBindings (b : Bindings Json) : Json :=
  object b.pairs

end Json
end Introspect
