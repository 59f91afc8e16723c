import Introspect.Bindings
import Introspect.Literal

/-! Queries, and the shortest text of a query. -/
namespace Introspect

/-- A query asks one source for some of its fields. Fields keep their order and repetitions; in
each clause of pairs a name keeps its last value. -/
structure Query where
  fields : List String
  source : String
  filter : Bindings Literal
  depth : UInt32
  options : Bindings Literal
  constraints : Bindings Literal
deriving DecidableEq

namespace Query

/-- The depth of a query that names none. -/
def defaultDepth : UInt32 := 1

/-- A query without optional clauses. -/
def plain (fields : List String) (source : String) : Query :=
  ⟨fields, source, ∅, defaultDepth, ∅, ∅⟩

def renderPairs (keyword : String) (pairs : Bindings Literal) : String :=
  if pairs.isEmpty then ""
  else " " ++ keyword ++ String.join (pairs.pairs.map fun p => " " ++ p.1 ++ " = " ++ p.2.render)

/-- Clauses that say nothing are left out. -/
def render (q : Query) : String :=
  "INTROSPECT \x7b SELECT " ++ ", ".intercalate q.fields ++ " FROM " ++ q.source
    ++ renderPairs "WHERE" q.filter
    ++ (if q.depth = defaultDepth then "" else " DEPTH " ++ q.depth.toNat.repr)
    ++ renderPairs "WITH" q.options
    ++ renderPairs "CONSTRAINT" q.constraints
    ++ " \x7d"

def samePairs (a b : Bindings Literal) : Bool :=
  a.names == b.names && (a.pairs.zip b.pairs).all fun p => p.1.2.same p.2.2

/-- Equality up to the numeric equality of floats. -/
def same (a b : Query) : Bool :=
  a.fields == b.fields && a.source == b.source && samePairs a.filter b.filter
    && a.depth == b.depth && samePairs a.options b.options
    && samePairs a.constraints b.constraints

end Query
end Introspect
