import Introspect.Proofs.Dispatch
import Introspect.Proofs.Outcome

/-!
The error of a result is the text of its field `error`. A query that failed has one and so has one
whose source is unavailable; but the name is free for fields of sources too.
-/
namespace Introspect

/-- Only a text that was read from the source passes for an error. -/
theorem FieldOutcome.string?_toJson_eq_some_iff {outcome : FieldOutcome} {message : String} :
    outcome.toJson.string? = some message ↔ outcome = .resolved (.string message) := by
  cases outcome with
  | resolved value => cases value <;> simp [toJson, Json.string?]
  | unknown => simp [toJson, Json.string?]
  | failed e => simp [toJson, Json.string?]

namespace Result

theorem error?_eq_of_pairs {r : Result} {message : String}
    (h : r.fields.pairs = [("error", .string message)]) : r.error? = some message := by
  unfold error? field? Bindings.get?
  rw [h]
  rfl

end Result

namespace Engine

variable {σ : Type} {engine : Engine σ} {clock : Clock} {state : σ} {text message reason : String}
  {x : Execution} {q : Query} {kind : SourceKind} {table : FieldTable σ}

theorem Failed.error? (h : Failed engine clock text x message) : x.result.error? = some message :=
  Result.error?_eq_of_pairs h.fields

theorem Declined.error? (h : Declined engine clock text x q kind reason) :
    x.result.error? = some s!"Source '{kind.name}' is unavailable: {reason}" :=
  Result.error?_eq_of_pairs h.fields

/-- A dispatched query has an error if it selects a field of that name which holds a text. -/
theorem Dispatched.error?_eq_some_iff (h : Dispatched engine state text x q kind table) :
    x.result.error? = some message ↔ "error" ∈ q.fields ∧
      table.resolve state (engine.config.fieldTimeout q.constraints) "error" =
        .resolved (.string message) := by
  unfold Result.error? Result.field?
  rw [h.fields, Dispatch.get?_run]
  split
  · rename_i hmem
    have hname : "error" ∈ q.fields := hmem
    simp [hname, FieldOutcome.string?_toJson_eq_some_iff, Result.errorField]
  · rename_i hmem
    have hname : "error" ∉ q.fields := hmem
    simp [hname]

/-- A result has an error if the query failed or its source is unavailable, and else just where a
text was read from a selected field of that name. -/
theorem error_iff_failed_or_read (engine : Engine σ) (clock : Clock) (state : σ)
    (text message : String) :
    let x := engine.run clock state text
    x.result.error? = some message ↔
      Failed engine clock text x message ∨
      (∃ q kind reason, Declined engine clock text x q kind reason ∧
        message = s!"Source '{kind.name}' is unavailable: {reason}") ∨
      ∃ q kind table, Dispatched engine state text x q kind table ∧ "error" ∈ q.fields ∧
        table.resolve state (engine.config.fieldTimeout q.constraints) "error" =
          .resolved (.string message) := by
  intro x
  constructor
  · intro herror
    obtain ⟨m, h⟩ | ⟨q, kind, parsed, named⟩ := fault_or_named engine.config.mode text
    · have hfailed : Failed engine clock text x m := failed_of_fault engine clock state h
      have hmessage : m = message := Option.some.inj (hfailed.error?.symm.trans herror)
      exact .inl (hmessage ▸ hfailed)
    · cases hslot : engine.registry.slot kind with
      | available table =>
        have h : Dispatched engine state text x q kind table :=
          dispatched_of_available clock state parsed named hslot
        exact .inr (.inr ⟨q, kind, table, h, h.error?_eq_some_iff.1 herror⟩)
      | unavailable reason =>
        have h : Declined engine clock text x q kind reason :=
          declined_of_unavailable clock state parsed named hslot
        exact .inr (.inl ⟨q, kind, reason, h, Option.some.inj (herror.symm.trans h.error?)⟩)
  · rintro (h | ⟨q, kind, reason, h, rfl⟩ | ⟨q, kind, table, h, hread⟩)
    · exact h.error?
    · exact h.error?
    · exact h.error?_eq_some_iff.2 hread

/-- A dispatched query with an error: its source has a field of that name. -/
theorem error_of_dispatched_memory :
    let clock : Clock :=
      ⟨⟨⟨2024, 1, 1, 0, 0, 0, 0⟩, by decide⟩, fun waited => UInt64.ofNat waited⟩
    let table : FieldTable Unit :=
      .ofList [("error", fun _ => ⟨.value (.string "low disk"), some 0⟩)]
    let engine : Engine Unit := ⟨(∅ : Registry Unit).registerTable .memory table, Config.default⟩
    let text := "INTROSPECT \x7b SELECT error FROM memory \x7d"
    let x := engine.run clock () text
    (∃ q, Dispatched engine () text x q .memory table) ∧ x.result.isError = false ∧
      x.result.error? = some "low disk" := by
  intro clock table engine text x
  have hparsed : Query.parse text .lenient = .ok (Query.plain ["error"] "memory") := by
    decide +kernel
  refine ⟨⟨_, dispatched_of_available clock () hparsed rfl rfl⟩, ?_, ?_⟩
  · decide +kernel
  · decide +kernel

end Engine
end Introspect
