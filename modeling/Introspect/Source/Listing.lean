import Introspect.Source.Registry
import Introspect.Text.Quoted

/-! The listing of sources: whether each is available, and its fields or the reason why not. -/
namespace Introspect

structure Listing where
  kind : SourceKind
  available : Bool
  /-- Names of the fields, or the reason. -/
  detail : String
deriving DecidableEq

namespace Listing

/-- A text with spaces after it up to a width. -/
def padRight (width : Nat) (s : String) : String :=
  s ++ String.ofList (List.replicate (width - s.length) ' ')

def line (l : Listing) : String :=
  padRight 24 l.kind.name ++ " "
    ++ padRight 12 (if l.available then "available" else "unavailable") ++ " " ++ l.detail

end Listing

/-- The names in a table, quoted, for a reader. -/
def FieldTable.describe (table : FieldTable σ) : String :=
  "\x7b" ++ ", ".intercalate (table.names.map Text.quoted) ++ "\x7d"

/-- One entry for every source. -/
def Registry.listing (registry : Registry σ) : List Listing :=
  SourceKind.all.map fun kind =>
    match registry.slot kind with
    | .available table => ⟨kind, true, ", ".intercalate table.names⟩
    | .unavailable reason => ⟨kind, false, reason⟩

end Introspect
