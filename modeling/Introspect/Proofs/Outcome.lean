import Introspect.Proofs.Dispatch
import Introspect.Proofs.Run

/-!
How a run can come out. Whatever the text, the registry and the configuration, there is a result,
and it is of one of three sorts: the query failed, its source is unavailable, or it was dispatched.
-/
namespace Introspect

namespace SourceKind

theorem ofName?_eq_some_iff {name : String} {kind : SourceKind} :
    ofName? name = some kind ↔ kind.name = name := by
  constructor
  · intro h
    simpa using List.find?_some h
  · rintro rfl
    cases kind <;> decide

theorem ofName?_eq_none_iff {name : String} :
    ofName? name = none ↔ ∀ kind : SourceKind, kind.name ≠ name := by
  rw [Option.eq_none_iff_forall_ne_some]
  simp only [ne_eq, ofName?_eq_some_iff]

/-- No source has the name that failures report. -/
theorem name_ne_error (kind : SourceKind) : kind.name ≠ Result.errorSource := by
  cases kind <;> decide

theorem name_injective {kind kind' : SourceKind} (h : kind.name = kind'.name) : kind = kind' := by
  have hkind := ofName?_eq_some_iff.2 h
  rw [ofName?_eq_some_iff.2 rfl] at hkind
  exact (Option.some.inj hkind).symm

end SourceKind

namespace Registry

theorem lookup?_name (registry : Registry σ) (kind : SourceKind) :
    registry.lookup? kind.name = some (kind, registry.slot kind) := by
  unfold lookup?
  rw [SourceKind.ofName?_eq_some_iff.2 rfl, Option.map_some]

theorem execute_of_unnamed (registry : Registry σ) {q : Query}
    (unknown : ∀ kind : SourceKind, kind.name ≠ q.source) (config : Config) (clock : Clock)
    (state : σ) (text : String) :
    registry.execute config clock state q text = .error (.unknownSource q.source) := by
  unfold execute executeM lookup?
  rw [SourceKind.ofName?_eq_none_iff.2 unknown]
  rfl

/-- What a query to an available source comes to. -/
def dispatch (config : Config) (clock : Clock) (state : σ) (kind : SourceKind)
    (table : FieldTable σ) (q : Query) (text : String) : Execution where
  result := .ofDispatch clock kind q text
    (Dispatch.run table state (config.fieldTimeout q.constraints) q.fields)
  reads := (Dispatch.reads table q.fields).map (kind, ·)

/-- What a query to an unavailable source comes to. -/
def decline (clock : Clock) (kind : SourceKind) (reason : String) (q : Query) (text : String) :
    Execution :=
  ⟨.unavailable clock kind reason q text, []⟩

theorem execute_of_available {registry : Registry σ} {q : Query} {kind : SourceKind}
    {table : FieldTable σ} (h : registry.lookup? q.source = some (kind, .available table))
    (config : Config) (clock : Clock) (state : σ) (text : String) :
    registry.execute config clock state q text =
      .ok (dispatch config clock state kind table q text) := by
  unfold execute executeM
  simp only [h, SourceKind.noting, StateT.run_bind, Dispatch.run_perform]
  rfl

/-- A query that names a source is left to the slot of the source. -/
theorem execute_of_named (registry : Registry σ) {q : Query} {kind : SourceKind}
    (named : q.source = kind.name) (config : Config) (clock : Clock) (state : σ) (text : String) :
    registry.execute config clock state q text = .ok
      (match registry.slot kind with
      | .available table => dispatch config clock state kind table q text
      | .unavailable reason => decline clock kind reason q text) := by
  have hlookup := registry.lookup?_name kind
  rw [← named] at hlookup
  cases hslot : registry.slot kind with
  | unavailable reason =>
    unfold execute executeM
    rw [hlookup, hslot]
    rfl
  | available table =>
    rw [hslot] at hlookup
    exact execute_of_available hlookup config clock state text

end Registry

/-- `Fault mode text message`: the first thing that is wrong with a text as a query. Its tokens
cannot be read, they are no query, or the query names none of the sources. -/
inductive Fault (mode : Mode) (text : String) : String → Prop
  | lex {e : LexError} (refused : tokenize text mode = .error e) : Fault mode text e.message
  | parse {ts : List Token} {ws : List LexWarning} {e : ParseError}
      (lexed : tokenize text mode = .ok (ts, ws))
      (refused : (Parser.ofTokens ts).query.1 = .error e) : Fault mode text e.message
  | source {q : Query} (parsed : Query.parse text mode = .ok q)
      (unknown : ∀ kind : SourceKind, kind.name ≠ q.source) :
      Fault mode text s!"Unknown source: '{q.source}'"

/-- A text with a fault does not come to the query of a source. -/
theorem Fault.name_ne {mode : Mode} {text message : String} {q : Query}
    (h : Fault mode text message) (parsed : Query.parse text mode = .ok q) (kind : SourceKind) :
    kind.name ≠ q.source := by
  cases h with
  | lex refused =>
    obtain ⟨ts, ws, lexed, -⟩ := Query.parse_eq_ok_iff.1 parsed
    rw [refused] at lexed
    cases lexed
  | parse lexed refused =>
    rw [Query.parse_eq_parse_error_iff.2 ⟨_, _, lexed, refused⟩] at parsed
    cases parsed
  | source parsed' unknown =>
    rw [parsed'] at parsed
    cases parsed
    exact unknown kind

theorem fault_or_named (mode : Mode) (text : String) : (∃ message, Fault mode text message) ∨
    ∃ (q : Query) (kind : SourceKind), Query.parse text mode = .ok q ∧ q.source = kind.name := by
  cases parsed : Query.parse text mode with
  | error e =>
    rw [Query.parse_eq_error_iff, Query.check_eq_error_iff] at parsed
    obtain ⟨_, refused, -⟩ | ⟨_, _, _, lexed, refused, -⟩ := parsed
    · exact .inl ⟨_, .lex refused⟩
    · exact .inl ⟨_, .parse lexed refused⟩
  | ok q =>
    cases hname : SourceKind.ofName? q.source with
    | none => exact .inl ⟨_, .source parsed (SourceKind.ofName?_eq_none_iff.1 hname)⟩
    | some kind => exact .inr ⟨q, kind, rfl, (SourceKind.ofName?_eq_some_iff.1 hname).symm⟩

namespace Engine

variable {σ : Type}

/-- The query failed. The result says why in its one field, and no source had a part in it. -/
structure Failed (engine : Engine σ) (clock : Clock) (text : String) (x : Execution)
    (message : String) : Prop where
  fault : Fault engine.config.mode text message
  source : x.result.source = "error"
  fields : x.result.fields.pairs = [("error", .string message)]
  elapsed : x.result.elapsed = Binary64.zero false
  unsatisfied : x.result.constraintsSatisfied = false
  depth : x.result.depth = 1
  options : x.result.options = ∅
  reads : x.reads = []
  untouched : ∀ (registry : Registry σ) (state : σ),
    run ⟨registry, engine.config⟩ clock state text = x

/-- The source of the query is unavailable. The result says why in its one field, and no source had
a part in it. -/
structure Declined (engine : Engine σ) (clock : Clock) (text : String) (x : Execution) (q : Query)
    (kind : SourceKind) (reason : String) : Prop where
  parsed : Query.parse text engine.config.mode = .ok q
  named : q.source = kind.name
  unavailable : engine.registry.slot kind = .unavailable reason
  source : x.result.source = kind.name
  fields : x.result.fields.pairs =
    [("error", .string s!"Source '{kind.name}' is unavailable: {reason}")]
  elapsed : x.result.elapsed = Binary64.zero false
  depth : x.result.depth = q.depth
  options : x.result.options = q.options
  reads : x.reads = []
  untouched : ∀ (registry : Registry σ) (state : σ), registry.slot kind = .unavailable reason →
    run ⟨registry, engine.config⟩ clock state text = x

/-- The query was dispatched to its source. -/
structure Dispatched (engine : Engine σ) (state : σ) (text : String) (x : Execution) (q : Query)
    (kind : SourceKind) (table : FieldTable σ) : Prop where
  parsed : Query.parse text engine.config.mode = .ok q
  named : q.source = kind.name
  available : engine.registry.slot kind = .available table
  source : x.result.source = kind.name
  fields : x.result.fields =
    (Dispatch.run table state (engine.config.fieldTimeout q.constraints) q.fields).fields
  depth : x.result.depth = q.depth
  options : x.result.options = q.options

theorem run_of_fault (engine : Engine σ) {text message : String}
    (h : Fault engine.config.mode text message) (clock : Clock) (state : σ) :
    engine.run clock state text = ⟨Result.failure text message clock.now, []⟩ := by
  unfold run attempt check
  cases h with
  | lex refused =>
    rw [Query.check_eq_error_iff.2 (.inl ⟨_, refused, rfl⟩)]
    rfl
  | parse lexed refused =>
    rw [Query.check_eq_error_iff.2 (.inr ⟨_, _, _, lexed, refused, rfl⟩)]
    rfl
  | source parsed unknown =>
    obtain ⟨ws, hcheck⟩ := Query.parse_eq_ok_iff_check.1 parsed
    simp only [hcheck, Registry.execute_of_unnamed engine.registry unknown]
    rfl

/-- What is read as a query of a source comes to what the slot of the source makes of it. -/
theorem run_of_named (engine : Engine σ) {text : String} {q : Query} {kind : SourceKind}
    (parsed : Query.parse text engine.config.mode = .ok q) (named : q.source = kind.name)
    (clock : Clock) (state : σ) : engine.run clock state text =
      match engine.registry.slot kind with
      | .available table => Registry.dispatch engine.config clock state kind table q text
      | .unavailable reason => Registry.decline clock kind reason q text := by
  obtain ⟨ws, hcheck⟩ := Query.parse_eq_ok_iff_check.1 parsed
  unfold run attempt check
  simp only [hcheck, Registry.execute_of_named engine.registry named]

theorem failed_of_fault (engine : Engine σ) (clock : Clock) (state : σ) {text message : String}
    (h : Fault engine.config.mode text message) :
    Failed engine clock text (engine.run clock state text) message := by
  have hrun := run_of_fault engine h clock state
  constructor
  case fault => exact h
  case untouched =>
    intro registry state'
    rw [run_of_fault ⟨registry, engine.config⟩ h, hrun]
  case reads => rw [hrun]
  all_goals
    rw [hrun]
    rfl

theorem declined_of_unavailable {engine : Engine σ} (clock : Clock) (state : σ) {text : String}
    {q : Query} {kind : SourceKind} {reason : String}
    (parsed : Query.parse text engine.config.mode = .ok q) (named : q.source = kind.name)
    (unavailable : engine.registry.slot kind = .unavailable reason) :
    Declined engine clock text (engine.run clock state text) q kind reason := by
  have hrun := run_of_named engine parsed named clock state
  rw [unavailable] at hrun
  constructor
  case parsed => exact parsed
  case named => exact named
  case unavailable => exact unavailable
  case untouched =>
    intro registry state' hslot
    rw [run_of_named ⟨registry, engine.config⟩ parsed named, hslot, hrun]
  all_goals
    rw [hrun]
    rfl

theorem dispatched_of_available {engine : Engine σ} (clock : Clock) (state : σ) {text : String}
    {q : Query} {kind : SourceKind} {table : FieldTable σ}
    (parsed : Query.parse text engine.config.mode = .ok q) (named : q.source = kind.name)
    (available : engine.registry.slot kind = .available table) :
    Dispatched engine state text (engine.run clock state text) q kind table := by
  have hrun := run_of_named engine parsed named clock state
  rw [available] at hrun
  constructor
  case parsed => exact parsed
  case named => exact named
  case available => exact available
  all_goals
    rw [hrun]
    rfl

theorem result_query (engine : Engine σ) (clock : Clock) (state : σ) (text : String) :
    (engine.run clock state text).result.query = text := by
  obtain ⟨_, h⟩ | ⟨q, kind, parsed, named⟩ := fault_or_named engine.config.mode text
  · rw [run_of_fault engine h]
    rfl
  · rw [run_of_named engine parsed named]
    cases engine.registry.slot kind <;> rfl

variable {engine : Engine σ} {clock : Clock} {state : σ} {text message reason : String}
  {x : Execution} {q q' : Query} {kind kind' : SourceKind} {table : FieldTable σ}

theorem Failed.not_declined (h : Failed engine clock text x message) :
    ¬ Declined engine clock text x q kind reason :=
  fun h' => h.fault.name_ne h'.parsed kind h'.named.symm

theorem Failed.not_dispatched (h : Failed engine clock text x message) :
    ¬ Dispatched engine state text x q kind table :=
  fun h' => h.fault.name_ne h'.parsed kind h'.named.symm

theorem Declined.not_dispatched (h : Declined engine clock text x q kind reason) :
    ¬ Dispatched engine state text x q' kind' table := by
  intro h'
  have hq : q = q' := Except.ok.inj (h.parsed.symm.trans h'.parsed)
  subst hq
  have hkind : kind = kind' := SourceKind.name_injective (h.named.symm.trans h'.named)
  subst hkind
  have hslot := h.unavailable.symm.trans h'.available
  cases hslot

theorem Failed.isError (h : Failed engine clock text x message) : x.result.isError = true :=
  beq_iff_eq.2 h.source

theorem not_isError_of_source (h : x.result.source = kind.name) : ¬ x.result.isError = true := by
  unfold Result.isError
  rw [h, beq_iff_eq]
  exact kind.name_ne_error

/-- A run has a result for every text, and it is of just one of the three sorts. Those that failed
are the ones that are errors. -/
theorem run_has_one_outcome (engine : Engine σ) (clock : Clock) (state : σ) (text : String) :
    let x := engine.run clock state text
    let failed := ∃ message, Failed engine clock text x message
    let declined := ∃ q kind reason, Declined engine clock text x q kind reason
    let dispatched := ∃ q kind table, Dispatched engine state text x q kind table
    x.result.query = text ∧ (failed ∨ declined ∨ dispatched) ∧
      ¬ (failed ∧ declined) ∧ ¬ (failed ∧ dispatched) ∧ ¬ (declined ∧ dispatched) ∧
      (x.result.isError = true ↔ failed) := by
  intro x failed declined dispatched
  have houtcome : failed ∨ declined ∨ dispatched := by
    obtain ⟨message, h⟩ | ⟨q, kind, parsed, named⟩ := fault_or_named engine.config.mode text
    · exact .inl ⟨message, failed_of_fault engine clock state h⟩
    · cases hslot : engine.registry.slot kind with
      | available table =>
        exact .inr (.inr ⟨q, kind, table, dispatched_of_available clock state parsed named hslot⟩)
      | unavailable reason =>
        exact .inr (.inl ⟨q, kind, reason, declined_of_unavailable clock state parsed named hslot⟩)
  refine ⟨result_query engine clock state text, houtcome, ?_, ?_, ?_, ?_⟩
  · rintro ⟨⟨_, h⟩, _, _, _, h'⟩
    exact h.not_declined h'
  · rintro ⟨⟨_, h⟩, _, _, _, h'⟩
    exact h.not_dispatched h'
  · rintro ⟨⟨_, _, _, h⟩, _, _, _, h'⟩
    exact h.not_dispatched h'
  · constructor
    · intro herror
      obtain h | ⟨_, _, _, h⟩ | ⟨_, _, _, h⟩ := houtcome
      · exact h
      · exact absurd herror (not_isError_of_source h.source)
      · exact absurd herror (not_isError_of_source h.source)
    · rintro ⟨_, h⟩
      exact h.isError

/-- A query without a source, one to a source that nothing stands behind, and one that is read. -/
theorem run_outcomes_of_memory :
    let clock : Clock :=
      ⟨⟨⟨2024, 1, 1, 0, 0, 0, 0⟩, by decide⟩, fun waited => UInt64.ofNat waited⟩
    let table : FieldTable Unit := .ofList [("size", fun _ => ⟨.value (.integer 7), some 0⟩)]
    let engine : Engine Unit := ⟨(∅ : Registry Unit).registerTable .memory table, Config.default⟩
    let run := engine.run clock ()
    let missing := "INTROSPECT \x7b SELECT size \x7d"
    let absent := "INTROSPECT \x7b SELECT size FROM twin \x7d"
    let present := "INTROSPECT \x7b SELECT size FROM memory \x7d"
    (∃ message, Failed engine clock missing (run missing) message) ∧
      (∃ q kind reason, Declined engine clock absent (run absent) q kind reason) ∧
      ∃ q kind table, Dispatched engine () present (run present) q kind table := by
  intro clock table engine run missing absent present
  have hmissing := run_has_one_outcome engine clock () missing
  have habsent := run_has_one_outcome engine clock () absent
  have hpresent := run_has_one_outcome engine clock () present
  refine ⟨?_, ?_, ?_⟩
  · apply hmissing.2.2.2.2.2.1
    decide +kernel
  · obtain h | h | ⟨q, kind, table', h⟩ := habsent.2.1
    · exact absurd (habsent.2.2.2.2.2.2 h) (by decide +kernel)
    · exact h
    · have hsource : (run absent).result.source = SourceKind.twin.name := by decide +kernel
      cases SourceKind.name_injective (hsource.symm.trans h.source)
      cases h.available
  · obtain h | ⟨q, kind, reason, h⟩ | h := hpresent.2.1
    · exact absurd (hpresent.2.2.2.2.2.2 h) (by decide +kernel)
    · have hsource : (run present).result.source = SourceKind.memory.name := by decide +kernel
      cases SourceKind.name_injective (hsource.symm.trans h.source)
      cases h.unavailable
    · exact h

end Engine
end Introspect
