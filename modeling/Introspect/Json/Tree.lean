import Introspect.Json.Token

/-!
The tree of a JSON text, built from its tokens with a stack of the containers that are still open.
A tree exists for every text that keeps to the grammar. Whether its numbers and strings stand for
anything, and whether it is nested too deeply, is seen only when its value is asked for.
-/
namespace Introspect.Json

inductive Tree where
  | null
  | bool (b : Bool)
  | number (n : Numeral)
  | string (s : RawString)
  | array (elements : List Tree)
  | object (members : List (RawString × Tree))

namespace Tree

/-- A container whose end is still to come, with what it holds so far, last first. -/
inductive Frame where
  | array (done : List Tree)
  | object (done : List (RawString × Tree)) (name : RawString)

/-- What may come next. -/
inductive State where
  | value (stack : List Frame)
  | firstElement (stack : List Frame)
  | elementEnd (done : List Tree) (stack : List Frame)
  | firstName (stack : List Frame)
  | name (done : List (RawString × Tree)) (stack : List Frame)
  | nameEnd (done : List (RawString × Tree)) (name : RawString) (stack : List Frame)
  | memberEnd (done : List (RawString × Tree)) (stack : List Frame)
  | complete (tree : Tree)

/-- Hands a finished tree to the container around it. -/
def deliver (tree : Tree) : List Frame → State
  | [] => .complete tree
  | .array done :: stack => .elementEnd (tree :: done) stack
  | .object done name :: stack => .memberEnd ((name, tree) :: done) stack

/-- The state after a token that starts a value. -/
def beginValue (stack : List Frame) : Token → Option State
  | .null => some (deliver null stack)
  | .bool b => some (deliver (bool b) stack)
  | .number n => some (deliver (number n) stack)
  | .string s => some (deliver (string s) stack)
  | .punctuation .beginArray => some (.firstElement stack)
  | .punctuation .beginObject => some (.firstName stack)
  | .punctuation _ => none

def step : State → Token → Option State
  | .firstElement stack, .punctuation .endArray => some (deliver (array []) stack)
  | .firstElement stack, t => beginValue (.array [] :: stack) t
  | .value stack, t => beginValue stack t
  | .elementEnd done stack, .punctuation .valueSeparator => some (.value (.array done :: stack))
  | .elementEnd done stack, .punctuation .endArray => some (deliver (array done.reverse) stack)
  | .firstName stack, .punctuation .endObject => some (deliver (object []) stack)
  | .firstName stack, .string s => some (.nameEnd [] s stack)
  | .name done stack, .string s => some (.nameEnd done s stack)
  | .nameEnd done s stack, .punctuation .nameSeparator => some (.value (.object done s :: stack))
  | .memberEnd done stack, .punctuation .valueSeparator => some (.name done stack)
  | .memberEnd done stack, .punctuation .endObject => some (deliver (object done.reverse) stack)
  | _, _ => none

def ofTokens? (tokens : List Token) : Option Tree :=
  match tokens.foldlM step (.value []) with
  | some (.complete tree) => some tree
  | _ => none

def ofText? (text : String) : Option Tree :=
  (Token.ofText? text).bind ofTokens?

mutual

/-- The value of a tree with at most `levels` containers around each other. In an object the last
member of a name counts. -/
def value? (levels : Nat) : Tree → Option Json
  | null => some .null
  | bool b => some (.bool b)
  | number n => n.value?
  | string s => s.text?.map .string
  | array elements =>
    if levels = 0 then none else (elements? (levels - 1) elements).map .array
  | object members =>
    if levels = 0 then none
    else (members? (levels - 1) members).map fun ms => .ofBindings (Bindings.ofList ms)

def elements? (levels : Nat) : List Tree → Option (List Json)
  | [] => some []
  | t :: rest => do return (← value? levels t) :: (← elements? levels rest)

def members? (levels : Nat) : List (RawString × Tree) → Option (List (String × Json))
  | [] => some []
  | (name, t) :: rest => do
    return (← name.text?, ← value? levels t) :: (← members? levels rest)

end

end Tree

/-- How many containers a text may nest. -/
def levelLimit : Nat := 127

/-- The value of a JSON text. -/
def ofText? (text : String) : Option Json :=
  (Tree.ofText? text).bind (Tree.value? levelLimit)

end Introspect.Json
