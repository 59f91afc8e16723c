import Introspect.Json.Printer
import Introspect.Json.Tree
import Introspect.Source.Registry

/-!
Sources from a captured JSON document, which maps names of sources to objects of field values. An
entry that is no object stands for a source that is not there. Entries of other names are passed
over.
-/
namespace Introspect

/-- One source of a document, with its entry. -/
structure Snapshot where
  kind : SourceKind
  entry : Json

namespace Snapshot

/-- The sources that a document knows, in the order of its names. -/
def ofDocument (document : Json) : List Snapshot :=
  (document.members?.getD []).filterMap fun (name, entry) =>
    (SourceKind.ofName? name).map fun kind => ⟨kind, entry⟩

/-- Why the source is not there. -/
def probe (s : Snapshot) : Option String :=
  match s.entry with
  | .object _ => none
  | .null => some s!"snapshot reports '{s.kind.name}' as absent"
  | entry => some s!"snapshot entry for '{s.kind.name}' is not an object: {entry.compact}"

/-- Each field answers at once with its value in the document. -/
def fieldTable (s : Snapshot) : FieldTable σ :=
  Bindings.ofList ((s.entry.members?.getD []).map fun (name, value) =>
    (name, fun _ => ⟨.value value, some 0⟩))

def provider (s : Snapshot) : Provider Id σ :=
  ⟨s.kind, s.probe, s.fieldTable⟩

end Snapshot

/-- Registers every source of a document. -/
def Registry.addDocument (registry : Registry σ) (document : Json) : Registry σ :=
  (Snapshot.ofDocument document).foldl (fun registry s => (registry.register s.provider).run)
    registry

/-- The registry behind the text of a document, if it is JSON. Without a document nothing is
registered. -/
def Registry.ofSnapshot? : Option String → Option (Registry σ)
  | none => some ∅
  | some text => (Json.ofText? text).map (Registry.addDocument ∅)

end Introspect
