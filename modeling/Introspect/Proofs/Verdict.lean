import Introspect.Proofs.Dispatch
import Introspect.Proofs.Registry

/-!
When the constraints of a query count as satisfied: no field missed its deadline, and the time that
was measured is within the declared limit. Whatever else a query declares is not looked at.
-/
namespace Introspect

namespace Constraints

variable {constraints : Bindings Literal} {elapsed : Binary64}

theorem isSatisfied_judge_iff {name : String} {value : Literal} :
    (judge elapsed name value).isSatisfied = true ↔
      (name = Latency.constraintName →
        ∃ limit, Latency.ofLiteral? value = some limit ∧ limit.lt elapsed = false) := by
  unfold judge
  split
  · rename_i hname
    cases hlimit : Latency.ofLiteral? value with
    | none => simp [hname, ConstraintOutcome.isSatisfied]
    | some limit =>
      cases hlt : limit.lt elapsed <;> simp [hname, hlt, ConstraintOutcome.isSatisfied]
  · rename_i hname
    simp [hname, ConstraintOutcome.isSatisfied]

theorem allSatisfied_iff : allSatisfied constraints elapsed = true ↔
    ∀ value, constraints.get? Latency.constraintName = some value →
      ∃ limit, Latency.ofLiteral? value = some limit ∧ limit.lt elapsed = false := by
  simp only [allSatisfied, evaluate, List.all_map, List.all_eq_true, Function.comp_apply,
    isSatisfied_judge_iff]
  constructor
  · intro h value hvalue
    exact h (Latency.constraintName, value) (Bindings.mem_pairs_iff.2 hvalue) rfl
  · rintro h ⟨name, value⟩ hmem rfl
    exact h value (Bindings.mem_pairs_iff.1 hmem)

theorem allSatisfied_iff_limit : allSatisfied constraints elapsed = true ↔
    constraints.get? Latency.constraintName = none ∨
      ∃ value limit, constraints.get? Latency.constraintName = some value ∧
        Latency.ofLiteral? value = some limit ∧ limit.lt elapsed = false := by
  rw [allSatisfied_iff]
  cases constraints.get? Latency.constraintName <;> simp

variable {constraints' : Bindings Literal}

theorem allSatisfied_congr
    (h : constraints.get? Latency.constraintName = constraints'.get? Latency.constraintName)
    (elapsed : Binary64) :
    allSatisfied constraints elapsed = allSatisfied constraints' elapsed := by
  rw [Bool.eq_iff_iff, allSatisfied_iff, allSatisfied_iff, h]

theorem fieldTimeout_congr
    (h : constraints.get? Latency.constraintName = constraints'.get? Latency.constraintName)
    (config : Config) : config.fieldTimeout constraints = config.fieldTimeout constraints' := by
  unfold Config.fieldTimeout deadline? limit?
  rw [h]

end Constraints

theorem FieldOutcome.ofAnswer_eq_deadline_iff {name field : String} {answer : Answer}
    {budget : Binary64} :
    ofAnswer name answer = .failed (.deadline field budget) ↔
      answer = .failure (.deadline field budget) := by
  cases answer <;> simp [ofAnswer]

/-- A field misses its deadline if its answer is not there when the time runs out, or if the answer
itself reports a missed deadline. -/
theorem FieldTable.resolve_eq_deadline_iff {table : FieldTable σ} {state : σ}
    {timeout : Option Nat} {name : String} :
    (∃ field budget, table.resolve state timeout name = .failed (.deadline field budget)) ↔
      ∃ r, table.reading? state name = some r ∧
        ((∃ nanos, timeout = some nanos ∧ r.completes nanos = false) ∨
          ∃ field budget, r.answer = .failure (.deadline field budget)) := by
  rw [resolve_eq]
  cases table.reading? state name with
  | none => simp
  | some r =>
    cases timeout with
    | none => simp [Reading.resolution, Reading.await, FieldOutcome.ofAnswer_eq_deadline_iff]
    | some nanos =>
      cases hcompletes : r.completes nanos with
      | false => simp [Reading.resolution, Reading.awaitWithin, hcompletes]
      | true =>
        simp [Reading.resolution, Reading.awaitWithin, hcompletes,
          FieldOutcome.ofAnswer_eq_deadline_iff]

namespace Registry

/-- No selected field comes to a missed deadline. Of an unavailable source no field is read. -/
def InTime (registry : Registry σ) (config : Config) (state : σ) (q : Query) (kind : SourceKind) :
    Prop :=
  ∀ table, registry.slot kind = .available table → ∀ f ∈ q.fields, ∀ field budget,
    table.resolve state (config.fieldTimeout q.constraints) f ≠ .failed (.deadline field budget)

variable {registry : Registry σ} {config : Config} {state : σ} {q : Query} {kind : SourceKind}

theorem inTime_of_available {table : FieldTable σ}
    (available : registry.slot kind = .available table) : registry.InTime config state q kind ↔
      (Dispatch.run table state (config.fieldTimeout q.constraints) q.fields).missedDeadline =
        false := by
  rw [Bool.eq_false_iff, ne_eq, Dispatch.missedDeadline_iff]
  unfold InTime
  rw [available]
  constructor
  · rintro h ⟨f, hf, field, budget, hmissed⟩
    exact h table rfl f hf field budget hmissed
  · intro h table' htable f hf field budget hmissed
    cases htable
    exact h ⟨f, hf, field, budget, hmissed⟩

theorem inTime_iff : registry.InTime config state q kind ↔
    ∀ table, registry.slot kind = .available table → ∀ f ∈ q.fields, ∀ r,
      table.reading? state f = some r →
        (∀ nanos, config.fieldTimeout q.constraints = some nanos → r.completes nanos = true) ∧
          ∀ field budget, r.answer ≠ .failure (.deadline field budget) := by
  unfold InTime
  refine forall₄_congr fun table _ f _ => ?_
  have hdeadline : (¬ ∃ field budget, table.resolve state (config.fieldTimeout q.constraints) f =
      .failed (.deadline field budget)) ↔ _ :=
    FieldTable.resolve_eq_deadline_iff.not
  simpa using hdeadline

theorem execute_verdict (named : q.source = kind.name) (clock : Clock) (text : String) :
    ∃ x, registry.execute config clock state q text = .ok x ∧
      x.result.elapsed = (match registry.slot kind with
        | .unavailable _ => Binary64.zero false
        | .available table => Latency.millisOfNanos (clock.elapsed
            (Dispatch.run table state (config.fieldTimeout q.constraints) q.fields).waited).toNat) ∧
      (x.result.constraintsSatisfied = true ↔ registry.InTime config state q kind ∧
        Constraints.allSatisfied q.constraints x.result.elapsed = true) := by
  rw [execute_of_named registry named]
  refine ⟨_, rfl, ?_, ?_⟩
  · cases registry.slot kind with
    | unavailable reason => simp only [decline, Result.unavailable]
    | available table => simp only [dispatch, Result.ofDispatch]
  · cases hslot : registry.slot kind with
    | unavailable reason =>
      have hintime : registry.InTime config state q kind := by
        intro table htable
        rw [hslot] at htable
        cases htable
      rw [and_iff_right hintime]
      simp only [decline, Result.unavailable]
    | available table =>
      rw [inTime_of_available hslot, ← Bool.not_eq_true', ← Bool.and_eq_true]
      simp only [dispatch, Result.ofDispatch]

/-- Of the constraints an execution looks at the latency alone. -/
theorem execute_constraints_congr (named : q.source = kind.name) {constraints : Bindings Literal}
    (h : constraints.get? Latency.constraintName = q.constraints.get? Latency.constraintName)
    (clock : Clock) (text : String) :
    registry.execute config clock state { q with constraints } text =
      registry.execute config clock state q text := by
  have named' : ({ q with constraints } : Query).source = kind.name := named
  rw [execute_of_named registry named, execute_of_named registry named']
  cases registry.slot kind with
  | unavailable reason => simp only [decline, Result.unavailable, Constraints.allSatisfied_congr h]
  | available table =>
    simp only [dispatch, Result.ofDispatch, Constraints.allSatisfied_congr h,
      Constraints.fieldTimeout_congr h]

end Registry

/-- When the constraints of a query to a source count as satisfied: no selected field missed its
deadline, and the query either declares no latency or one that can be read and that the measured
time does not exceed. For an unavailable source that time is zero. No other constraint has any
effect. A field misses its deadline by a late answer or one that reports a missed deadline; values,
panics and errors of other sorts do not count. -/
theorem constraintsSatisfied_iff {σ : Type} (registry : Registry σ) (config : Config)
    (clock : Clock) (state : σ) (q : Query) (text : String) (kind : SourceKind)
    (named : q.source = kind.name) :
    ∃ x, registry.execute config clock state q text = .ok x ∧
      x.result.elapsed = (match registry.slot kind with
        | .unavailable _ => Binary64.zero false
        | .available table => Latency.millisOfNanos (clock.elapsed
            (Dispatch.run table state (config.fieldTimeout q.constraints) q.fields).waited).toNat) ∧
      (x.result.constraintsSatisfied = true ↔ registry.InTime config state q kind ∧
        (q.constraints.get? "max_latency" = none ∨
          ∃ value limit, q.constraints.get? "max_latency" = some value ∧
            Latency.ofLiteral? value = some limit ∧ limit.lt x.result.elapsed = false)) ∧
      (∀ constraints : Bindings Literal,
        constraints.get? "max_latency" = q.constraints.get? "max_latency" →
        registry.execute config clock state { q with constraints } text = .ok x) ∧
      (registry.InTime config state q kind ↔
        ∀ table, registry.slot kind = .available table → ∀ f ∈ q.fields, ∀ r,
          table.reading? state f = some r →
            (∀ nanos, config.fieldTimeout q.constraints = some nanos → r.completes nanos = true) ∧
              ∀ field budget, r.answer ≠ .failure (.deadline field budget)) := by
  obtain ⟨x, hx, helapsed, hverdict⟩ := Registry.execute_verdict named clock text
  refine ⟨x, hx, helapsed, ?_, ?_, Registry.inTime_iff⟩
  · rw [hverdict, Constraints.allSatisfied_iff_limit]
    rfl
  · intro constraints hlatency
    rw [Registry.execute_constraints_congr named hlatency, hx]

/-- Neither a panic nor a name that the source does not have stands in the way of the verdict, and a
second constraint may come or go. -/
theorem panic_within_limit :
    let clock : Clock :=
      ⟨⟨⟨2024, 1, 1, 0, 0, 0, 0⟩, by decide⟩, fun waited => UInt64.ofNat (waited + 1000)⟩
    let table : FieldTable Unit := .ofList [("size", fun _ => ⟨.value (.integer 7), some 10⟩),
      ("votes", fun _ => ⟨.panic, some 20⟩)]
    let registry := (∅ : Registry Unit).registerTable .memory table
    let latency := ("max_latency", Literal.text "50ms")
    let q : Query := ⟨["size", "votes", "gone"], "memory", ∅, 1, ∅,
      .ofList [latency, ("max_memory", .text "1kb")]⟩
    ∃ x, registry.execute Config.default clock () q "" = .ok x ∧
      x.result.constraintsSatisfied = true ∧
      registry.execute Config.default clock () { q with constraints := .ofList [latency] } "" =
        .ok x := by
  intro clock table registry latency q
  obtain ⟨x, hx, helapsed, hverdict, hcongr, -⟩ :=
    constraintsSatisfied_iff registry Config.default clock () q "" .memory rfl
  refine ⟨x, hx, hverdict.2 ⟨?_, .inr ⟨.text "50ms", Binary64.ofInt 50, ?_, ?_, ?_⟩⟩, ?_⟩
  · exact (Registry.inTime_of_available rfl).2 (by decide +kernel)
  · decide +kernel
  · decide +kernel
  · rw [helapsed]
    decide +kernel
  · apply hcongr
    decide +kernel

end Introspect
