import Introspect.Proofs.Verdict

/-!
What is asked of the constraints of a query is answered alike everywhere. Each name has one outcome,
in the order of the names. That of the latency compares the measured time with the declared limit,
so a shorter time never does worse. Of the other names nothing is asked.
-/
namespace Introspect

namespace Binary64

variable {x y z : Binary64}

/-- Numeric order with equality; NaN is not even at most itself. -/
def le (x y : Binary64) : Bool :=
  x.lt y || x.sameNumber y

theorem lt_iff :
    x.lt y = true ↔ ∃ a b, x.place? = some a ∧ y.place? = some b ∧ a < b := by
  unfold lt
  cases x.place? <;> cases y.place? <;> simp

theorem le_iff :
    x.le y = true ↔ ∃ a b, x.place? = some a ∧ y.place? = some b ∧ a ≤ b := by
  unfold le lt sameNumber
  cases x.place? <;> cases y.place? <;> simp [Int.le_iff_lt_or_eq]

theorem lt_of_lt_of_le (h : x.lt y = true) (h' : y.le z = true) : x.lt z = true := by
  obtain ⟨a, b, ha, hb, hlt⟩ := lt_iff.1 h
  obtain ⟨b', c, hb', hc, hle⟩ := le_iff.1 h'
  cases hb.symm.trans hb'
  exact lt_iff.2 ⟨a, c, ha, hc, Int.lt_of_lt_of_le hlt hle⟩

end Binary64

namespace Constraints

variable {constraints constraints' : Bindings Literal} {elapsed elapsed' : Binary64}
  {name : String} {outcome : ConstraintOutcome} {value : Literal}

theorem map_fst_evaluate : (evaluate constraints elapsed).map Prod.fst = constraints.names := by
  unfold evaluate Bindings.names
  rw [List.map_map]
  rfl

theorem mem_evaluate_iff : (name, outcome) ∈ evaluate constraints elapsed ↔
    ∃ value, constraints.get? name = some value ∧ outcome = judge elapsed name value := by
  simp only [evaluate, List.mem_map, Prod.exists, Bindings.mem_pairs_iff, Prod.mk.injEq]
  constructor
  · rintro ⟨_, value, hvalue, rfl, rfl⟩
    exact ⟨value, hvalue, rfl⟩
  · rintro ⟨value, hvalue, rfl⟩
    exact ⟨name, value, hvalue, rfl, rfl⟩

theorem judge_of_ne (h : name ≠ Latency.constraintName) :
    judge elapsed name value = .ignored := by
  rw [judge, if_neg h]

/-- A latency is judged by the limit that was declared with it. -/
theorem judge_limit (h : constraints.get? Latency.constraintName = some value) :
    judge elapsed Latency.constraintName value = (limit? constraints).elim (.malformed value)
      fun limit => if limit.lt elapsed then .violated limit elapsed else .satisfied := by
  rw [judge, if_pos rfl, limit?, h, Option.bind_some]
  cases Latency.ofLiteral? value <;> rfl

theorem judge_eq_malformed_iff (h : constraints.get? Latency.constraintName = some value)
    (value' : Literal) : judge elapsed Latency.constraintName value = .malformed value' ↔
      limit? constraints = none ∧ value = value' := by
  rw [judge_limit h]
  cases limit? constraints with
  | none => simp
  | some limit => by_cases hlt : limit.lt elapsed = true <;> simp [hlt]

theorem judge_eq_violated_iff (h : constraints.get? Latency.constraintName = some value)
    (limit actual : Binary64) :
    judge elapsed Latency.constraintName value = .violated limit actual ↔
      limit? constraints = some limit ∧ limit.lt elapsed = true ∧ actual = elapsed := by
  rw [judge_limit h]
  cases limit? constraints with
  | none => simp
  | some limit' =>
    by_cases hlt : limit'.lt elapsed = true
    · rw [Option.elim_some, if_pos hlt, ConstraintOutcome.violated.injEq, Option.some.injEq]
      constructor
      · rintro ⟨rfl, rfl⟩
        exact ⟨rfl, hlt, rfl⟩
      · rintro ⟨rfl, -, rfl⟩
        exact ⟨rfl, rfl⟩
    · rw [Option.elim_some, if_neg hlt]
      constructor
      · rintro ⟨⟩
      · rintro ⟨⟨⟩, hlt', -⟩
        exact absurd hlt' hlt

theorem judge_eq_satisfied_iff (h : constraints.get? Latency.constraintName = some value) :
    judge elapsed Latency.constraintName value = .satisfied ↔
      ∃ limit, limit? constraints = some limit ∧ limit.lt elapsed = false := by
  rw [judge_limit h]
  cases limit? constraints with
  | none => simp
  | some limit => cases hlt : limit.lt elapsed <;> simp [hlt]

/-- A limit that is kept to in some time is kept to in less. -/
theorem allSatisfied_antitone (hle : elapsed'.le elapsed = true)
    (h : allSatisfied constraints elapsed = true) : allSatisfied constraints elapsed' = true := by
  rw [allSatisfied_iff] at h ⊢
  intro value hvalue
  obtain ⟨limit, hlimit, hkept⟩ := h value hvalue
  refine ⟨limit, hlimit, Bool.eq_false_iff.2 fun hlt => ?_⟩
  rw [Binary64.lt_of_lt_of_le hlt hle] at hkept
  cases hkept

theorem limit?_congr
    (h : constraints.get? Latency.constraintName = constraints'.get? Latency.constraintName) :
    limit? constraints = limit? constraints' := by
  rw [limit?, h, limit?]

theorem deadline?_congr
    (h : constraints.get? Latency.constraintName = constraints'.get? Latency.constraintName) :
    deadline? constraints = deadline? constraints' := by
  rw [deadline?, limit?_congr h, deadline?]

/-- Each constraint has one outcome, in the order of the names. That of the latency is malformed
just if there is no limit, violated just if the time is above the limit, and satisfied otherwise;
all others are ignored. What is satisfied stays so in a shorter time, and neither this nor the limit
nor the deadline depends on anything but the latency. -/
theorem outcomes_follow_limit (constraints : Bindings Literal) (elapsed : Binary64) :
    ((evaluate constraints elapsed).map Prod.fst = constraints.names ∧
      constraints.names.Pairwise (· < ·) ∧
      ∀ name, name ∈ constraints.names ↔ (constraints.get? name).isSome) ∧
    (∀ name outcome, (name, outcome) ∈ evaluate constraints elapsed →
      (name ≠ "max_latency" → outcome = .ignored) ∧
      (name = "max_latency" →
        (∀ value, outcome = .malformed value ↔
          limit? constraints = none ∧ constraints.get? name = some value) ∧
        (∀ limit actual, outcome = .violated limit actual ↔
          limit? constraints = some limit ∧ limit.lt elapsed = true ∧ actual = elapsed) ∧
        (outcome = .satisfied ↔
          ∃ limit, limit? constraints = some limit ∧ limit.lt elapsed = false))) ∧
    (∀ elapsed' : Binary64, elapsed'.le elapsed = true →
      allSatisfied constraints elapsed = true → allSatisfied constraints elapsed' = true) ∧
    ∀ constraints' : Bindings Literal,
      constraints.get? "max_latency" = constraints'.get? "max_latency" →
      limit? constraints = limit? constraints' ∧ deadline? constraints = deadline? constraints' ∧
      ∀ time, allSatisfied constraints time = allSatisfied constraints' time := by
  refine ⟨⟨map_fst_evaluate, ?_, fun name => Bindings.mem_names_iff⟩, ?_, ?_, ?_⟩
  · exact List.pairwise_map.2 constraints.ordered
  · intro name outcome hmem
    obtain ⟨value, hvalue, rfl⟩ := mem_evaluate_iff.1 hmem
    refine ⟨judge_of_ne, ?_⟩
    rintro rfl
    refine ⟨fun value' => ?_, judge_eq_violated_iff hvalue, judge_eq_satisfied_iff hvalue⟩
    rw [hvalue, Option.some.injEq]
    exact judge_eq_malformed_iff hvalue value'
  · exact fun _ => allSatisfied_antitone
  · exact fun _ h => ⟨limit?_congr h, deadline?_congr h, allSatisfied_congr h⟩

/-- Two constraints after 40 milliseconds, where the limit is 50: the outcomes, those of a shorter
time, and those without the second. -/
theorem outcomes_within_fifty :
    let constraints : Bindings Literal :=
      .ofList [("max_memory", .text "1kb"), ("max_latency", .text "50ms")]
    let alone : Bindings Literal := .ofList [("max_latency", .text "50ms")]
    (evaluate constraints (Binary64.ofInt 40)).map Prod.fst = ["max_latency", "max_memory"] ∧
      ("max_latency", ConstraintOutcome.satisfied) ∈ evaluate constraints (Binary64.ofInt 40) ∧
      (∀ outcome, ("max_memory", outcome) ∈ evaluate constraints (Binary64.ofInt 40) →
        outcome = .ignored) ∧
      allSatisfied constraints (Binary64.ofInt 30) = true ∧
      deadline? alone = some 50000000 ∧ allSatisfied alone (Binary64.ofInt 60) = false := by
  intro constraints alone
  obtain ⟨⟨hnames, -, -⟩, houtcomes, hantitone, hcongr⟩ :=
    outcomes_follow_limit constraints (Binary64.ofInt 40)
  obtain ⟨-, hdeadline, hsatisfied⟩ := hcongr alone (by decide +kernel)
  refine ⟨?_, ?_, ?_, ?_, ?_, ?_⟩
  · rw [hnames]
    decide +kernel
  · decide +kernel
  · exact fun outcome hmem => (houtcomes _ outcome hmem).1 (by decide)
  · exact hantitone _ (by decide +kernel) (by decide +kernel)
  · rw [← hdeadline]
    decide +kernel
  · rw [← hsatisfied]
    decide +kernel

end Constraints
end Introspect
