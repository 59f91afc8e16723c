import Introspect.Engine
import Introspect.Proofs.Constraints
import Introspect.Proofs.Deadline
import Introspect.Proofs.Rounding

/-!
Declared and default times. A query that declares a latency is given that time for each field,
unless the time is no span: as seconds, rounded, it has to fit into 64 bits. From half-way below
that range on, the declared time is dropped and the default one is given.
-/
namespace Introspect

namespace Binary64

attribute [local irreducible] unitsPerOne

/-- At least a whole number. -/
def Reaches (x : Binary64) (n : Nat) : Prop :=
  x = .infinite false ∨ ∃ rank, x = .finite false rank ∧ n * unitsPerOne ≤ units rank

theorem reaches_finite_iff {n : Nat} {rank : Fin finiteCount} :
    (finite false rank).Reaches n ↔ n * unitsPerOne ≤ units rank := by
  simp [Reaches]

/-- A thousand is a number. -/
theorem ofInt_thousand : ∃ rank : Fin finiteCount,
    ofInt 1000 = .finite false rank ∧ units rank = 1000 * unitsPerOne :=
  ⟨⟨0x408f400000000000, by decide⟩, by decide +kernel, by decide +kernel⟩

theorem finite_div_thousand (rank : Fin finiteCount) :
    (finite false rank).div (ofInt 1000) = ofRatio false (units rank) (1000 * unitsPerOne) := by
  obtain ⟨thousand, hthousand, hunits⟩ := ofInt_thousand
  have hne : units thousand ≠ 0 := by
    rw [hunits]
    exact Nat.ne_of_gt (Nat.mul_pos (by decide) unitsPerOne_pos)
  rw [hthousand, Binary64.div, if_pos hne, hunits]
  rfl

/-- What is not negative is negative zero or has the sign of the positive. -/
theorem zero_le_iff {x : Binary64} : (zero false).le x = true ↔
    x = zero true ∨ (∃ rank, x = .finite false rank) ∨ x = .infinite false := by
  rw [le_iff]
  cases x with
  | finite negative rank => cases negative <;> simp [place?, zero]
  | infinite negative => cases negative <;> simp [place?, zero, finiteCount]
  | nan => simp [place?, zero]

end Binary64

namespace Latency

open Binary64

/-- The milliseconds from which on the seconds, rounded, take more than 64 bits. -/
def pastRange : Nat :=
  1000 * (2 ^ 64 - 2 ^ 10)

theorem nanosOfSeconds?_finite_eq_none_iff {rank : Fin finiteCount} :
    nanosOfSeconds? (.finite false rank) = none ↔ (10 + 1077) * 0x10000000000000 ≤ rank.val := by
  have hpower : 2 ^ 64 * unitsPerOne ≤ units rank ↔ (10 + 1077) * 0x10000000000000 ≤ rank.val := by
    rw [← Nat.not_lt, ← units_two_pow 64, units_lt_iff, Nat.not_lt]
  rw [← hpower]
  simp [nanosOfSeconds?]

theorem nanosOfSeconds?_ofRatio_eq_none_iff {num den : Nat} (hden : 0 < den) :
    nanosOfSeconds? (ofRatio false num den) = none ↔ (2 ^ 64 - 2 ^ 10) * den ≤ num := by
  have hhalf : 2 ^ 64 - 2 ^ 10 = (2 ^ 54 - 1) * 2 ^ 10 := by decide
  rw [hhalf, ← Nat.not_lt, ← nearestRank_lt_power_iff hden, Nat.not_lt]
  by_cases hrank : nearestRank num den < finiteCount
  · rw [ofRatio, dif_pos hrank, nanosOfSeconds?_finite_eq_none_iff]
  · -- What is no finite number is far out of the range.
    rw [ofRatio, dif_neg hrank]
    rw [finiteCount_eq] at hrank
    exact iff_of_true rfl (by omega)

/-- A time is no span if it is past the range. -/
theorem nanosOfMillis?_eq_none_iff {limit : Binary64} (h : (zero false).le limit = true) :
    nanosOfMillis? limit = none ↔ limit.Reaches pastRange := by
  unfold nanosOfMillis?
  rcases zero_le_iff.1 h with rfl | ⟨rank, rfl⟩ | rfl
  · have hzero : nanosOfSeconds? ((zero true).div (ofInt 1000)) = some 0 := by decide +kernel
    rw [hzero]
    simp [Reaches, zero]
  · rw [finite_div_thousand, nanosOfSeconds?_ofRatio_eq_none_iff
      (Nat.mul_pos (by decide) unitsPerOne_pos), reaches_finite_iff, pastRange, ← Nat.mul_assoc,
      Nat.mul_comm _ 1000]
  · obtain ⟨thousand, hthousand, -⟩ := ofInt_thousand
    rw [hthousand]
    exact iff_of_true rfl (.inl rfl)

end Latency

/-- The default stands in for a limit that is no span, as for none. -/
theorem Config.fieldTimeout_of_limit {config : Config} {constraints : Bindings Literal}
    {limit : Binary64} (enforced : config.enforceDeadlines = true)
    (h : Constraints.limit? constraints = some limit) :
    config.fieldTimeout constraints = (Latency.nanosOfMillis? limit).or
      (config.defaultTimeoutMs.map fun ms => ms.toNat * 1000000) := by
  rw [fieldTimeout, if_pos enforced, Constraints.deadline?, h, Option.bind_some]

/-- Of a configuration an execution looks at the time for each field alone. -/
theorem Registry.execute_config_congr {σ : Type} {registry : Registry σ} {config config' : Config}
    {q : Query} (h : config.fieldTimeout q.constraints = config'.fieldTimeout q.constraints)
    (clock : Clock) (state : σ) (text : String) :
    registry.execute config clock state q text = registry.execute config' clock state q text := by
  unfold execute executeM
  rw [h]

/-- A query that declares a latency which is not negative and short of the range is given it for
each field, whatever the default time, so that it runs alike under any. Past the range the default
time is given as if none had been declared. -/
theorem default_timeout_only_past_range {σ : Type} (registry : Registry σ) (config : Config)
    (default? : Option UInt64) (clock : Clock) (state : σ) (q : Query) (text : String)
    (value : Literal) (limit : Binary64) (enforced : config.enforceDeadlines = true)
    (declared : q.constraints.get? "max_latency" = some value)
    (reads : Latency.ofLiteral? value = some limit)
    (nonnegative : (Binary64.zero false).le limit = true) :
    let config' := { config with defaultTimeoutMs := default? }
    (¬ limit.Reaches Latency.pastRange →
      (∃ nanos, Latency.nanosOfMillis? limit = some nanos ∧
        config.fieldTimeout q.constraints = some nanos ∧
        config'.fieldTimeout q.constraints = some nanos) ∧
      registry.execute config clock state q text = registry.execute config' clock state q text) ∧
    (limit.Reaches Latency.pastRange →
      config.fieldTimeout q.constraints =
        config.defaultTimeoutMs.map (fun ms => ms.toNat * 1000000) ∧
      config'.fieldTimeout q.constraints = default?.map fun ms => ms.toNat * 1000000) := by
  intro config'
  have hlimit : Constraints.limit? q.constraints = some limit := by
    rw [Constraints.limit?, ← reads]
    exact congrArg (·.bind Latency.ofLiteral?) declared
  have henforced : config'.enforceDeadlines = true := enforced
  have hnone := Latency.nanosOfMillis?_eq_none_iff nonnegative
  constructor
  · intro hshort
    obtain ⟨nanos, hnanos⟩ := Option.ne_none_iff_exists'.1 (mt hnone.1 hshort)
    have hgiven {c : Config} (h : c.enforceDeadlines = true) :
        c.fieldTimeout q.constraints = some nanos := by
      rw [Config.fieldTimeout_of_limit h hlimit, hnanos, Option.some_or]
    refine ⟨⟨nanos, hnanos, hgiven enforced, hgiven henforced⟩, ?_⟩
    apply Registry.execute_config_congr
    rw [hgiven enforced, hgiven henforced]
  · intro hpast
    rw [Config.fieldTimeout_of_limit enforced hlimit, Config.fieldTimeout_of_limit henforced hlimit,
      hnone.2 hpast]
    exact ⟨rfl, rfl⟩

/-- A default of one millisecond beside fifty that are declared, and beside more than there is. -/
theorem default_timeout_beside_declared :
    let clock : Clock :=
      ⟨⟨⟨2024, 1, 1, 0, 0, 0, 0⟩, by decide⟩, fun waited => UInt64.ofNat waited⟩
    let table : FieldTable Unit := .ofList [("slow", fun _ => ⟨.value (.integer 7), some 8000000⟩)]
    let registry := (∅ : Registry Unit).registerTable .memory table
    let config := { Config.default with defaultTimeoutMs := some 1 }
    let q (latency : String) : Query :=
      ⟨["slow"], "memory", ∅, 1, ∅, .ofList [("max_latency", .text latency)]⟩
    (Config.default.fieldTimeout (q "50ms").constraints = some 50000000 ∧
      config.fieldTimeout (q "50ms").constraints = some 50000000 ∧
      registry.execute Config.default clock () (q "50ms") "" =
        registry.execute config clock () (q "50ms") "") ∧
    Config.default.fieldTimeout (q "99999999999999999999999999ms").constraints = none ∧
      config.fieldTimeout (q "99999999999999999999999999ms").constraints = some 1000000 := by
  intro clock table registry config q
  have hlatency (latency : String) :
      (q latency).constraints.get? "max_latency" = some (.text latency) := by
    simp [q, Bindings.get?_ofList]
  constructor
  · have hnanos : Latency.nanosOfMillis? (Binary64.ofInt 50) = some 50000000 := by decide +kernel
    have hnonnegative : (Binary64.zero false).le (Binary64.ofInt 50) = true := by decide +kernel
    obtain ⟨hshort, -⟩ := default_timeout_only_past_range registry Config.default (some 1) clock ()
      (q "50ms") "" (.text "50ms") (Binary64.ofInt 50) rfl (hlatency "50ms") (by decide +kernel)
      hnonnegative
    have hwithin : ¬ (Binary64.ofInt 50).Reaches Latency.pastRange := by
      rw [← Latency.nanosOfMillis?_eq_none_iff hnonnegative, hnanos]
      exact Option.some_ne_none _
    obtain ⟨⟨nanos, hread, hgiven, hgiven'⟩, hexecute⟩ := hshort hwithin
    obtain rfl := Option.some.inj (hnanos.symm.trans hread)
    exact ⟨hgiven, hgiven', hexecute⟩
  · have hnonnegative : (Binary64.zero false).le
        (Binary64.ofInt 99999999999999999999999999) = true := by
      decide +kernel
    obtain ⟨-, hpast⟩ := default_timeout_only_past_range registry Config.default (some 1) clock ()
      (q "99999999999999999999999999ms") "" (.text "99999999999999999999999999ms")
      (Binary64.ofInt 99999999999999999999999999) rfl (hlatency _) (by decide +kernel) hnonnegative
    have hnone : Latency.nanosOfMillis? (Binary64.ofInt 99999999999999999999999999) = none := by
      decide +kernel
    rw [Latency.nanosOfMillis?_eq_none_iff hnonnegative] at hnone
    exact hpast hnone

/-- A field that takes eight milliseconds is given up after one, though the query declares a latency
that is as good as endless. -/
theorem endless_latency_cut_short :
    let clock : Clock :=
      ⟨⟨⟨2024, 1, 1, 0, 0, 0, 0⟩, by decide⟩, fun waited => UInt64.ofNat waited⟩
    let table : FieldTable Unit := .ofList [("slow", fun _ => ⟨.value (.integer 7), some 8000000⟩)]
    let engine (defaultTimeoutMs : Option UInt64) : Engine Unit :=
      ⟨(∅ : Registry Unit).registerTable .memory table, { Config.default with defaultTimeoutMs }⟩
    let latency := "99999999999999999999999999ms"
    let text := "INTROSPECT \x7b SELECT slow FROM memory CONSTRAINT max_latency = '" ++ latency ++
      "' \x7d"
    let result (defaultTimeoutMs : Option UInt64) :=
      ((engine defaultTimeoutMs).run clock () text).result
    (∃ q limit, Query.parse text .lenient = .ok q ∧
      q.constraints.get? "max_latency" = some (.text latency) ∧
      Latency.ofLiteral? (.text latency) = some limit ∧ (Binary64.zero false).le limit = true ∧
      (engine none).config.fieldTimeout q.constraints ≠
        (engine (some 1)).config.fieldTimeout q.constraints) ∧
    ((result none).field? "slow" = some (.integer 7) ∧
      (result none).constraintsSatisfied = true) ∧
    (result (some 1)).field? "slow" =
      some (FieldOutcome.failed (.deadline "slow" (Latency.millisOfNanos 1000000))).toJson ∧
    (result (some 1)).constraintsSatisfied = false := by
  intro clock table engine latency text result
  let q : Query := ⟨["slow"], "memory", ∅, 1, ∅, .ofList [("max_latency", .text latency)]⟩
  have hparsed : Query.parse text .lenient = .ok q := by decide +kernel
  have hnone : (engine none).config.fieldTimeout q.constraints = none := by decide +kernel
  have hsome : (engine (some 1)).config.fieldTimeout q.constraints = some 1000000 := by
    decide +kernel
  have haccessor : table.get? "slow" = some fun _ => ⟨.value (.integer 7), some 8000000⟩ := by
    simp [table, Bindings.get?_ofList]
  have hresult (d : Option UInt64) : result d =
      (Registry.dispatch (engine d).config clock () .memory table q text).result := by
    have named : q.source = SourceKind.memory.name := rfl
    exact congrArg Execution.result (Engine.run_of_named (engine d) hparsed named clock ())
  have hfield (d : Option UInt64) : (result d).field? "slow" = some
      (table.resolve () ((engine d).config.fieldTimeout q.constraints) "slow").toJson := by
    rw [hresult]
    exact Dispatch.get?_run.trans (if_pos (by decide))
  refine ⟨⟨q, Binary64.ofInt 99999999999999999999999999, hparsed, ?_, ?_, ?_, ?_⟩, ⟨?_, ?_⟩, ?_, ?_⟩
  · decide +kernel
  · decide +kernel
  · decide +kernel
  · rw [hnone, hsome]
    exact (Option.some_ne_none _).symm
  · rw [hfield, hnone, FieldTable.resolve_inline haccessor]
    rfl
  · rw [hresult]
    decide +kernel
  · have hlate : (⟨.value (.integer 7), some 8000000⟩ : Reading).completes 1000000 = false := by
      decide
    rw [hfield, hsome, FieldTable.resolve_within haccessor, Reading.callWithDeadline_of_late hlate]
    rfl
  · rw [hresult]
    decide +kernel

end Introspect
