import Introspect.Command.Run
import Introspect.Proofs.Modes
import Introspect.Proofs.Outcome
import Introspect.Proofs.Writing

/-!
Checking a query tells what running it would come to. A text that is refused fails with the same
message, one that is valid does not fail over its text, and its canonical text is run like it.
-/
namespace Introspect

/-- Texts that start apart are different. -/
theorem append_ne_append {p q : String} (n : Nat) (hp : n ≤ p.toList.length)
    (hq : n ≤ q.toList.length) (h : p.toList.take n ≠ q.toList.take n) (s t : String) :
    p ++ s ≠ q ++ t := by
  intro heq
  have htake := congrArg (·.toList.take n) heq
  simp only [String.toList_append, List.take_append_of_le_length hp,
    List.take_append_of_le_length hq] at htake
  exact h htake

/-- No complaint about a text reads like the one about the name of a source. -/
theorem SyntaxError.message_ne (e : SyntaxError) (name : String) :
    e.message ≠ SourceKind.unknownMessage name := by
  unfold SourceKind.unknownMessage
  rw [String.append_assoc]
  cases e with
  | lex e =>
    cases e
    all_goals
      unfold message LexError.message
      simp only [String.append_assoc]
      exact append_ne_append 3 (by decide +kernel) (by decide +kernel) (by decide +kernel) _ _
  | parse e =>
    cases e
    all_goals
      unfold message ParseError.message
      simp only [String.append_assoc]
      exact append_ne_append 3 (by decide +kernel) (by decide +kernel) (by decide +kernel) _ _

/-- The text of a query that was read is valid as it stands, in either mode. -/
theorem Query.check_render {text : String} {mode : Mode} {q : Query}
    (h : Query.parse text mode = .ok q) (mode' : Mode) :
    Query.check q.render mode' = .ok (q, []) := by
  have hrender := Grammar.parse_render (Grammar.wellFormed_of_parse h)
  obtain ⟨ws, hstrict⟩ := Query.parse_eq_ok_iff_check.1 hrender
  obtain ⟨rfl, hlenient⟩ := check_strict_eq_ok_iff.1 hstrict
  cases mode' with
  | lenient => exact hlenient
  | strict => exact hstrict

/-- Waiting does not depend on how texts are read. -/
theorem Config.fieldTimeout_withMode (config : Config) (mode : Mode) :
    Config.fieldTimeout { config with mode } = config.fieldTimeout := rfl

namespace Engine

variable {σ : Type}

/-- What running a valid query comes to. -/
structure Carries (q : Query) (text : String) (now : Timestamp) (x : Execution) : Prop where
  readable : ∀ e : SyntaxError, ¬ (x.result.isError = true ∧ x.result.error? = some e.message)
  named : ∀ kind : SourceKind, kind.name = q.source →
    x.result.source = q.source ∧ x.result.depth = q.depth ∧ x.result.options = q.options
  unknown : (∀ kind : SourceKind, kind.name ≠ q.source) →
    x = ⟨Result.failure text s!"Unknown source: '{q.source}'" now, []⟩

theorem run_of_check_error (engine : Engine σ) (clock : Clock) (state : σ) {text : String}
    {e : SyntaxError} (h : engine.check text = .error e) :
    engine.run clock state text = ⟨Result.failure text e.message clock.now, []⟩ := by
  unfold run attempt
  rw [h]
  rfl

theorem carries_run (engine : Engine σ) (clock : Clock) (state : σ) {text : String} {q : Query}
    (parsed : Query.parse text engine.config.mode = .ok q) :
    Carries q text clock.now (engine.run clock state text) := by
  cases hname : SourceKind.ofName? q.source with
  | none =>
    have unknown := SourceKind.ofName?_eq_none_iff.1 hname
    have hrun := run_of_fault engine (.source parsed unknown) clock state
    refine ⟨?_, fun kind hkind => absurd hkind (unknown kind), fun _ => hrun⟩
    rintro e ⟨-, herror⟩
    rw [hrun] at herror
    have hmessage : SourceKind.unknownMessage q.source = e.message := Option.some.inj herror
    exact e.message_ne q.source hmessage.symm
  | some kind =>
    have named := (SourceKind.ofName?_eq_some_iff.1 hname).symm
    have hrun := run_of_named engine parsed named clock state
    have hresult : (engine.run clock state text).result.source = q.source ∧
        (engine.run clock state text).result.depth = q.depth ∧
        (engine.run clock state text).result.options = q.options := by
      rw [hrun, named]
      cases engine.registry.slot kind <;> exact ⟨rfl, rfl, rfl⟩
    refine ⟨?_, fun _ _ => hresult, fun unknown => absurd named.symm (unknown kind)⟩
    rintro e ⟨herror, -⟩
    exact not_isError_of_source (hresult.1.trans named) herror

/-- The text of a query is run like any other text that stands for it. -/
theorem run_render (engine : Engine σ) (clock : Clock) (state : σ) {text : String} {q : Query}
    (parsed : Query.parse text engine.config.mode = .ok q) {config : Config}
    (hconfig : config = engine.config ∨ config = { engine.config with mode := .strict }) :
    run ⟨engine.registry, config⟩ clock state q.render =
      { engine.run clock state text with
        result := { (engine.run clock state text).result with query := q.render } } := by
  have parsed' : Query.parse q.render config.mode = .ok q :=
    Query.parse_eq_ok_iff_check.2 ⟨[], Query.check_render parsed config.mode⟩
  have htimeout : config.fieldTimeout = engine.config.fieldTimeout := by
    rcases hconfig with rfl | rfl
    · rfl
    · exact Config.fieldTimeout_withMode _ _
  cases hname : SourceKind.ofName? q.source with
  | none =>
    have unknown := SourceKind.ofName?_eq_none_iff.1 hname
    rw [run_of_fault engine (.source parsed unknown),
      run_of_fault ⟨engine.registry, config⟩ (.source parsed' unknown)]
    rfl
  | some kind =>
    have named := (SourceKind.ofName?_eq_some_iff.1 hname).symm
    rw [run_of_named engine parsed named, run_of_named ⟨engine.registry, config⟩ parsed' named]
    cases engine.registry.slot kind with
    | available table => simp only [Registry.dispatch, Result.ofDispatch, htimeout]
    | unavailable reason => rfl

end Engine

namespace Command

/-- Checking and running agree. Either both fail over the snapshot; or the text is refused, and the
run fails with the same message; or it is valid, and the run is that of the query it stands for.
Then the text of the query is valid too, without a note, and comes to the same fields, source,
depth, options and constraints, also when it is read strictly. -/
theorem check_tells_run (config : Config) (clock : Clock) (snapshot : Option String)
    (text : String) :
    (∀ syntaxOnly, runQuery config clock snapshot syntaxOnly text = .error .snapshot) ∨
    ∃ x, runQuery config clock snapshot false text = .ok (.executed x) ∧
      ((∃ e, runQuery config clock snapshot true text = .error (.query e) ∧
        x = ⟨Result.failure text e.message clock.now, []⟩) ∨
      ∃ q ws, runQuery config clock snapshot true text = .ok (.valid q ws) ∧
        Engine.Carries q text clock.now x ∧
        ∀ config', config' = config ∨ config' = { config with mode := .strict } →
          runQuery config' clock snapshot true q.render = .ok (.valid q []) ∧
          runQuery config' clock snapshot false q.render =
            .ok (.executed { x with result := { x.result with query := q.render } })) := by
  cases hsnapshot : Registry.ofSnapshot? (σ := Unit) snapshot with
  | none =>
    left
    intro syntaxOnly
    simp only [runQuery, hsnapshot]
  | some registry =>
    right
    refine ⟨Engine.run ⟨registry, config⟩ clock () text, by simp [runQuery, hsnapshot], ?_⟩
    cases hcheck : Engine.check ⟨registry, config⟩ text with
    | error e =>
      left
      exact ⟨e, by simp [runQuery, hsnapshot, hcheck], Engine.run_of_check_error _ _ _ hcheck⟩
    | ok p =>
      obtain ⟨q, ws⟩ := p
      have parsed : Query.parse text config.mode = .ok q :=
        Query.parse_eq_ok_iff_check.2 ⟨ws, hcheck⟩
      right
      refine ⟨q, ws, by simp [runQuery, hsnapshot, hcheck],
        Engine.carries_run ⟨registry, config⟩ clock () parsed, ?_⟩
      intro config' hconfig
      have hvalid : Engine.check ⟨registry, config'⟩ q.render = .ok (q, []) :=
        Query.check_render parsed config'.mode
      constructor
      · simp [runQuery, hsnapshot, hvalid]
      · simp only [runQuery, hsnapshot, Bool.false_eq_true, if_false]
        rw [Engine.run_render ⟨registry, config⟩ clock () parsed hconfig]

/-- A text with a character too many that names no source: valid, and yet it fails. -/
theorem check_tells_run_nowhere :
    let clock : Clock :=
      ⟨⟨⟨2024, 1, 1, 0, 0, 0, 0⟩, by decide⟩, fun waited => UInt64.ofNat waited⟩
    let text := "introspect \x7b select mood from $ nowhere \x7d"
    let q := Query.plain ["mood"] "nowhere"
    runQuery Config.default clock none true text = .ok (.valid q [.dropped '$' 30]) ∧
      runQuery Config.default clock none false text =
        .ok (.executed ⟨Result.failure text "Unknown source: 'nowhere'" clock.now, []⟩) ∧
      runQuery { Config.default with mode := .strict } clock none true q.render =
        .ok (.valid q []) := by
  intro clock text q
  have hcheck : Query.check text .lenient = .ok (q, [.dropped '$' 30]) := by
    decide +kernel
  have hvalid : runQuery Config.default clock none true text =
      .ok (.valid q [.dropped '$' 30]) := by
    unfold runQuery Engine.check
    simp only [Registry.ofSnapshot?, Config.default, if_true, hcheck]
  obtain hfails | ⟨x, hrun, ⟨e, he, -⟩ | ⟨q', ws, hvalid', hcarries, hrender⟩⟩ :=
    check_tells_run Config.default clock none text
  · rw [hfails true] at hvalid
    cases hvalid
  · rw [he] at hvalid
    cases hvalid
  · rw [hvalid] at hvalid'
    cases hvalid'
    rw [hrun, hcarries.unknown (SourceKind.ofName?_eq_none_iff.1 (by decide +kernel))]
    exact ⟨hvalid, rfl, (hrender _ (.inr rfl)).1⟩

end Command
end Introspect
