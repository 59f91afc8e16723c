import Introspect.Main
import Introspect.Proofs.Tiling
import Introspect.Proofs.Viable
import Introspect.Proofs.Writing
import Introspect.Proofs.Modes
import Introspect.Proofs.Dispatch
import Introspect.Proofs.Outcome
import Introspect.Proofs.Hosts
import Introspect.Proofs.Registry
import Introspect.Proofs.Verdict
import Introspect.Proofs.Deadline
import Introspect.Proofs.Snapshot
import Introspect.Proofs.Lenient
import Introspect.Proofs.ErrorField
import Introspect.Proofs.Checking
import Introspect.Proofs.Encoding
import Introspect.Proofs.Dropped
import Introspect.Proofs.Separated
import Introspect.Proofs.Session
import Introspect.Proofs.Resumption
import Introspect.Proofs.Unclosed
import Introspect.Proofs.Constraints
import Introspect.Proofs.Budget
import Introspect.Proofs.LatencyText
import Introspect.Proofs.Casing
import Introspect.Proofs.Listing
import Introspect.Proofs.Depth
import Introspect.Proofs.LetterCase
