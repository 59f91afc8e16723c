/-! The sources that a query can name. -/
namespace Introspect

inductive SourceKind where
  | cognitiveState
  | restraints
  | council
  | twin
  | narrative
  | memory
deriving DecidableEq

namespace SourceKind

/-- All sources, in the order in which they are listed. -/
def all : List SourceKind :=
  [cognitiveState, restraints, council, twin, narrative, memory]

def name : SourceKind → String
  | cognitiveState => "current_cognitive_state"
  | restraints => "restraints"
  | council => "council"
  | twin => "twin"
  | narrative => "narrative"
  | memory => "memory"

def ofName? (name : String) : Option SourceKind :=
  all.find? fun kind => kind.name == name

/-- The complaint about a name that is none of a source. -/
def unknownMessage (name : String) : String :=
  s!"Unknown source: '{name}'"

end SourceKind
end Introspect
