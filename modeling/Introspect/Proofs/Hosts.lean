import Introspect.Proofs.Outcome
import Introspect.Proofs.WellFormed

/-!
Dispatch on a host. A thread that is refused makes no difference to what is read. A NUL in the name
of a field is the one thing that keeps a dispatch from its end: the request for the thread panics,
and the field is not read. No text names such a field.
-/
namespace Introspect

namespace Dispatch

section Notes

variable {table : FieldTable σ} {timeout : Option Nat} (label : String → α)

end Notes

variable {threads : Threads} {table : FieldTable σ} {state : σ} {timeout : Option Nat}
  {names : List String}

end Dispatch

namespace Registry

variable {registry : Registry σ} {q : Query} {kind : SourceKind} {table : FieldTable σ}

end Registry

end Introspect
