import Introspect.Source.Listing
import Introspect.Proofs.Dispatch
import Introspect.Proofs.Registry

/-!
The listing of sources and the execution of queries read the registry apart from each other. An entry
of the listing tells what every query to its source comes to: which names it can read, or the one
error that it is answered with.
-/
namespace Introspect

theorem Bindings.pairwise_names (b : Bindings α) : b.names.Pairwise (· < ·) :=
  List.pairwise_map.2 b.ordered

theorem FieldOutcome.ofAnswer_ne_unknown (name : String) (answer : Answer) :
    ofAnswer name answer ≠ .unknown := by
  cases answer <;> simp [ofAnswer]

theorem Reading.resolution_ne_unknown (r : Reading) (timeout : Option Nat) (name : String) :
    (r.resolution timeout name).outcome ≠ .unknown := by
  cases timeout with
  | none => exact FieldOutcome.ofAnswer_ne_unknown name r.answer
  | some nanos =>
    simp only [resolution, awaitWithin]
    split
    · exact FieldOutcome.ofAnswer_ne_unknown name r.answer
    · exact FieldOutcome.noConfusion

/-- A table knows the names it holds, in every state and whatever the time to wait. -/
theorem FieldTable.resolve_eq_unknown_iff {table : FieldTable σ} {state : σ} {timeout : Option Nat}
    {name : String} : table.resolve state timeout name = .unknown ↔ name ∉ table.names := by
  rw [Bindings.mem_names_iff, Option.not_isSome_iff_eq_none]
  refine ⟨fun h => ?_, fun h => resolve_of_absent h state timeout⟩
  rw [resolve_eq, reading?] at h
  cases hread : table.get? name with
  | none => rfl
  | some accessor =>
    rw [hread] at h
    exact absurd h (Reading.resolution_ne_unknown (accessor state) timeout name)

/-- The result of an unavailable source: one error, and nothing was read for it. -/
structure Execution.IsDeclined (x : Execution) (kind : SourceKind) (reason : String) : Prop where
  source : x.result.source = kind.name
  fields : x.result.fields.pairs =
    [("error", .string s!"Source '{kind.name}' is unavailable: {reason}")]
  reads : x.reads = []

namespace Registry

variable {config : Config} {clock : Clock} {state : σ} {kind : SourceKind} {q : Query}
  {text : String}

theorem isDeclined_decline (reason : String) :
    (decline clock kind reason q text).IsDeclined kind reason :=
  ⟨rfl, rfl, rfl⟩

theorem count_reads_dispatch (table : FieldTable σ) (source : SourceKind) (name : String) :
    (dispatch config clock state kind table q text).reads.count (source, name) =
      if source = kind ∧ name ∈ q.fields ∧ name ∈ table.names then 1 else 0 := by
  unfold dispatch
  rw [Dispatch.count_reads_of, Dispatch.count_reads, ← ite_and]

/-- A dispatched query never looks like one that was declined: a single error among its fields
would have been read. -/
theorem not_isDeclined_dispatch (table : FieldTable σ) (reason : String) :
    ¬ (dispatch config clock state kind table q text).IsDeclined kind reason := by
  intro h
  let timeout := config.fieldTimeout q.constraints
  have hfield : (Dispatch.run table state timeout q.fields).fields.get? "error" =
      some (.string s!"Source '{kind.name}' is unavailable: {reason}") := by
    have hpairs := h.fields
    unfold Bindings.get?
    rw [show (Dispatch.run table state timeout q.fields).fields.pairs = _ from hpairs]
    rfl
  rw [Dispatch.get?_run] at hfield
  split at hfield
  · rename_i hselected
    have hknown : "error" ∈ table.names := by
      by_contra hunknown
      rw [FieldTable.resolve_eq_unknown_iff.2 hunknown] at hfield
      cases hfield
    have hread := @count_reads_dispatch σ config clock state kind q text table kind "error"
    rw [if_pos ⟨rfl, hselected, hknown⟩, h.reads] at hread
    cases hread
  · cases hfield

end Registry

namespace Listing

/-- What an entry of the listing has to do with the queries to its source. -/
structure Agrees (registry : Registry σ) (entry : Listing) : Prop where
  available : entry.available = true ↔ entry.kind ∈ registry.available
  /-- The source is listed as available just if a query to it is not declined. -/
  answered : ∀ config clock state q text, q.source = entry.kind.name →
    ∃ x, registry.execute config clock state q text = .ok x ∧
      (entry.available = true ↔ ¬ ∃ reason, x.IsDeclined entry.kind reason)
  /-- The listed names are those that a query to the source can read. -/
  names : entry.available = true →
    ∃ table names, registry.slot entry.kind = .available table ∧
      entry.detail = ", ".intercalate names ∧ names.Pairwise (· < ·) ∧
      (∀ state timeout name, name ∈ names ↔ table.resolve state timeout name ≠ .unknown) ∧
      ∀ config clock state q text, q.source = entry.kind.name →
        ∃ x, registry.execute config clock state q text = .ok x ∧
          x.result.source = entry.kind.name ∧
          x.result.fields =
            (Dispatch.run table state (config.fieldTimeout q.constraints) q.fields).fields ∧
          ∀ source name, x.reads.count (source, name) =
            if source = entry.kind ∧ name ∈ q.fields ∧ name ∈ names then 1 else 0
  /-- The listed reason is the one that every query to the source is declined with. -/
  reason : entry.available = false →
    ∀ config clock state q text, q.source = entry.kind.name →
      ∃ x, registry.execute config clock state q text = .ok x ∧
        x.IsDeclined entry.kind entry.detail

variable {registry : Registry σ} {kind : SourceKind}

theorem agrees_of_available {table : FieldTable σ} (h : registry.slot kind = .available table) :
    Agrees registry ⟨kind, true, ", ".intercalate table.names⟩ := by
  have hexecute (config : Config) (clock : Clock) (state : σ) (q : Query) (text : String)
      (named : q.source = kind.name) : registry.execute config clock state q text =
        .ok (Registry.dispatch config clock state kind table q text) := by
    rw [registry.execute_of_named named, h]
  constructor
  case available =>
    rw [Registry.mem_available_iff]
    exact iff_of_true rfl ⟨table, h⟩
  case answered =>
    intro config clock state q text named
    refine ⟨_, hexecute config clock state q text named, iff_of_true rfl ?_⟩
    rintro ⟨reason, hdeclined⟩
    exact Registry.not_isDeclined_dispatch table reason hdeclined
  case names =>
    intro _
    refine ⟨table, table.names, h, rfl, table.pairwise_names, ?_, ?_⟩
    · intro state timeout name
      rw [ne_eq, FieldTable.resolve_eq_unknown_iff, not_not]
    · intro config clock state q text named
      exact ⟨_, hexecute config clock state q text named, rfl, rfl,
        Registry.count_reads_dispatch table⟩
  case reason =>
    intro hfalse
    cases hfalse

theorem agrees_of_unavailable {reason : String}
    (h : registry.slot kind = .unavailable reason) : Agrees registry ⟨kind, false, reason⟩ := by
  have hexecute (config : Config) (clock : Clock) (state : σ) (q : Query) (text : String)
      (named : q.source = kind.name) : registry.execute config clock state q text =
        .ok (Registry.decline clock kind reason q text) := by
    rw [registry.execute_of_named named, h]
  constructor
  case available =>
    rw [Registry.mem_available_iff]
    refine iff_of_false Bool.false_ne_true ?_
    rintro ⟨table, hslot⟩
    cases h.symm.trans hslot
  case answered =>
    intro config clock state q text named
    refine ⟨_, hexecute config clock state q text named, iff_of_false Bool.false_ne_true ?_⟩
    exact not_not.2 ⟨reason, Registry.isDeclined_decline reason⟩
  case names =>
    intro htrue
    cases htrue
  case reason =>
    intro _ config clock state q text named
    exact ⟨_, hexecute config clock state q text named, Registry.isDeclined_decline reason⟩

/-- The listing has one entry for each source, in the order of the sources, and each of them agrees
with the execution of queries to its source. -/
theorem listing_agrees_with_execution (registry : Registry σ) :
    registry.listing.map (·.kind) =
        [.cognitiveState, .restraints, .council, .twin, .narrative, .memory] ∧
      ∀ entry ∈ registry.listing, entry.Agrees registry := by
  constructor
  · unfold Registry.listing
    rw [List.map_map]
    refine (List.map_congr_left fun kind _ => ?_).trans (List.map_id SourceKind.all)
    simp only [Function.comp_apply]
    cases registry.slot kind <;> rfl
  · intro entry hentry
    obtain ⟨kind, -, rfl⟩ := List.mem_map.1 hentry
    cases hslot : registry.slot kind with
    | available table => exact agrees_of_available hslot
    | unavailable reason => exact agrees_of_unavailable hslot

/-- A source with two fields, one that was marked as unavailable, and one that nothing was done
with. -/
theorem listing_agrees_with_memory :
    let table : FieldTable Unit := .ofList [("votes", fun _ => ⟨.panic, some 0⟩),
      ("size", fun _ => ⟨.value (.integer 7), none⟩), ("votes", fun _ => ⟨.value .null, some 0⟩)]
    let registry := ((∅ : Registry Unit).registerTable .memory table).markUnavailable .twin "gone"
    let memory : Listing := ⟨.memory, true, "size, votes"⟩
    let twin : Listing := ⟨.twin, false, "gone"⟩
    let council : Listing := ⟨.council, false, "no subsystem registered for 'council'"⟩
    registry.listing.map (·.kind) = SourceKind.all ∧
      memory ∈ registry.listing ∧ twin ∈ registry.listing ∧ council ∈ registry.listing ∧
      memory.Agrees registry ∧ twin.Agrees registry ∧ council.Agrees registry := by
  intro table registry memory twin council
  obtain ⟨hkinds, hagrees⟩ := listing_agrees_with_execution registry
  have hmemory : memory ∈ registry.listing := by decide +kernel
  have htwin : twin ∈ registry.listing := by decide +kernel
  have hcouncil : council ∈ registry.listing := by decide +kernel
  exact ⟨hkinds, hmemory, htwin, hcouncil, hagrees _ hmemory, hagrees _ htwin,
    hagrees _ hcouncil⟩

end Listing
end Introspect
