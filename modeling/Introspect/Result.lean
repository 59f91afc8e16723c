import Introspect.Json.Printer
import Introspect.Json.Tree
import Introspect.Query
import Introspect.Timestamp

/-! Results of queries, and their JSON form. -/
namespace Introspect

/-- What a query comes to. It is plain data, also when the query failed. -/
structure Result where
  query : String
  fields : Bindings Json
  source : String
  timestamp : Timestamp
  /-- Milliseconds spent on reading fields. -/
  elapsed : Binary64
  constraintsSatisfied : Bool
  depth : UInt32
  options : Bindings Literal

namespace Literal

/-- The JSON form of a literal. Floats that are not finite have none and become `null`. -/
def toJson : Literal → Json
  | integer n => .integer n.toInt
  | float x => if x.isFinite then .float x else .null
  | text s => .string s

/-- Integers of 64 bits are integers, all other numbers floats. -/
def ofJson? : Json → Option Literal
  | .integer n =>
    if Int64.minValue.toInt ≤ n ∧ n ≤ Int64.maxValue.toInt then some (integer (Int64.ofInt n))
    else some (float (Binary64.ofInt n))
  | .float x => some (float x)
  | .string s => some (text s)
  | _ => none

end Literal

namespace Result

/-- The source that a failed query reports. -/
def errorSource : String := "error"

/-- The name of the one field of a failure. -/
def errorField : String := "error"

def errorFields (message : String) : Bindings Json :=
  Bindings.empty.insert errorField (.string message)

/-- A query that failed before it reached a source. -/
def failure (query message : String) (now : Timestamp) : Result where
  query
  fields := errorFields message
  source := errorSource
  timestamp := now
  elapsed := Binary64.zero false
  constraintsSatisfied := false
  depth := Query.defaultDepth
  options := ∅

def field? (r : Result) (name : String) : Option Json :=
  r.fields.get? name

/-- The text of the error field, if there is one. -/
def error? (r : Result) : Option String :=
  (r.field? errorField).bind Json.string?

/-- Whether the query itself failed. -/
def isError (r : Result) : Bool :=
  r.source == errorSource

/-! ### JSON form -/

def memberNames : List String :=
  ["query", "fields", "source", "timestamp", "execution_time_ms", "constraints_satisfied",
    "metadata"]

def metadataNames : List String :=
  ["depth", "with_options"]

def metadata (r : Result) : Json :=
  .object (metadataNames.zip
    [.integer r.depth.toNat, .ofBindings (r.options.mapValues Literal.toJson)])

def toJson (r : Result) : Json :=
  .object (memberNames.zip
    [.string r.query, .ofBindings r.fields, .string r.source, .string r.timestamp.render,
      if r.elapsed.isFinite then .float r.elapsed else .null, .bool r.constraintsSatisfied,
      r.metadata])

/-- The options of the members of an object. Each member has to be a literal, also where a later one
of its name takes its place. -/
def options? (members : List (String × Json)) : Option (Bindings Literal) :=
  (members.mapM fun p => (Literal.ofJson? p.2).map (p.1, ·)).map Bindings.ofList

/-- A result from the values of its members and of those of its metadata. -/
def ofParts? : List Json → (depth : Json) → (options : List (String × Json)) → Option Result
  | [.string query, .object fields, .string source, .string time, elapsed, .bool satisfied],
    .integer depth, options => do
    let timestamp ← Timestamp.ofText? time
    let elapsed ← elapsed.float?
    let options ← options? options
    if 0 ≤ depth ∧ depth < UInt32.size then
      some ⟨query, Bindings.ofList fields, source, timestamp, elapsed, satisfied,
        UInt32.ofNat depth.toNat, options⟩
    else none
  | _, _, _ => none

/-- The members of the given names, each of which has to occur once. Others are passed over. -/
def pick? (names : List String) (members : List (String × α)) : Option (List α) :=
  names.mapM fun name =>
    match members.filter (·.1 == name) with
    | [(_, a)] => some a
    | _ => none

/-- A record is an object, or an array with the values of its members in their order. -/
def record? (names : List String) : Json → Option (List Json)
  | .object members => pick? names members
  | .array elements => if elements.length = names.length then some elements else none
  | _ => none

def ofJson? (j : Json) : Option Result := do
  let parts ← record? memberNames j
  match ← record? metadataNames (← parts.getLast?) with
  | [depth, .object options] => ofParts? parts.dropLast depth options
  | _ => none

/-- A record of a text. The values of members that are passed over need no more than to be
grammatical. -/
def recordOfTree? (names : List String) : Json.Tree → Option (List Json.Tree)
  | .object members => do
    pick? names (← members.mapM fun (name, t) => name.text?.map (·, t))
  | .array elements => if elements.length = names.length then some elements else none
  | _ => none

/-- Reads the JSON text of a result. The containers of the record count towards the nesting. -/
def ofText? (text : String) : Option Result := do
  let parts ← recordOfTree? memberNames (← Json.Tree.ofText? text)
  match ← recordOfTree? metadataNames (← parts.getLast?) with
  | [depth, .object options] =>
    ofParts? (← parts.dropLast.mapM (·.value? (Json.levelLimit - 1)))
      (← depth.value? (Json.levelLimit - 2)) (← Json.Tree.members? (Json.levelLimit - 3) options)
  | _ => none

end Result
end Introspect
