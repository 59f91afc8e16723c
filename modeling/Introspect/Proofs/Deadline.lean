import Introspect.Proofs.Dispatch
import Introspect.Proofs.Outcome

/-!
Reads with a deadline. Such a read runs on a worker of its own, which sends what the accessor
returns over a channel and hangs up; a panic ends the worker before it can send. Whoever waits takes
what comes first and gives up when the time is over. A read in place waits as long as it takes, and
catches a panic where it happens. As long as answers come in time, nothing tells the two apart.
-/
namespace Introspect

/-- What an accessor returns to its caller, unless it panics. -/
def Answer.returned? : Answer → Option (Except FieldError Json)
  | .value j => some (.ok j)
  | .failure e => some (.error e)
  | .panic => none

def FieldOutcome.ofRead : Except FieldError Json → FieldOutcome
  | .ok value => resolved value
  | .error e => failed e

/-- What waiting at a channel comes to. -/
inductive Receipt where
  | message (read : Except FieldError Json)
  | disconnected
  | timeout

/-- The channel from a worker to the one who waits for it. -/
structure Channel where
  /-- The messages that are on their way. -/
  sent : List (Except FieldError Json)
  /-- Whether the worker has hung up. -/
  closed : Bool

namespace Channel

def opened : Channel :=
  ⟨[], false⟩

def send (c : Channel) (read : Except FieldError Json) : Channel :=
  { c with sent := c.sent ++ [read] }

def hangUp (c : Channel) : Channel :=
  { c with closed := true }

/-- What can be received without waiting. Messages come before the news that there are no more. -/
def poll? (c : Channel) : Option Receipt :=
  match c.sent, c.closed with
  | read :: _, _ => some (.message read)
  | [], true => some .disconnected
  | [], false => none

/-- Waits for `left` more nanoseconds at a channel that changes with time. -/
def receive (channel : Nat → Channel) : (elapsed left : Nat) → Receipt
  | _, 0 => .timeout
  | elapsed, left + 1 => (channel elapsed).poll?.getD (receive channel (elapsed + 1) left)

variable {channel : Nat → Channel} {elapsed left wait : Nat} {receipt : Receipt}

theorem receive_add (hsilent : ∀ wait' < wait, (channel (elapsed + wait')).poll? = none)
    (left : Nat) :
    receive channel elapsed (wait + left) = receive channel (elapsed + wait) left := by
  -- `elapsed` stays general: every step of the wait is one at a later point in time.
  induction wait generalizing elapsed with
  | zero => rw [Nat.zero_add, Nat.add_zero]
  | succ wait ih =>
    have hnow : (channel elapsed).poll? = none := hsilent 0 (Nat.succ_pos wait)
    have hlater : receive channel (elapsed + 1) (wait + left) =
        receive channel (elapsed + 1 + wait) left := by
      apply ih
      intro wait' hwait'
      rw [Nat.add_assoc, Nat.add_comm 1]
      exact hsilent (wait' + 1) (Nat.succ_lt_succ hwait')
    rw [Nat.add_right_comm, receive, hnow, Option.getD_none, hlater, Nat.add_assoc, Nat.add_comm 1]

theorem receive_of_silent (hsilent : ∀ wait < left, (channel (elapsed + wait)).poll? = none) :
    receive channel elapsed left = .timeout :=
  receive_add hsilent 0

/-- What comes first is received, if it comes before the time is over. -/
theorem receive_of_first (hwait : wait < left)
    (hsilent : ∀ wait' < wait, (channel (elapsed + wait')).poll? = none)
    (hfirst : (channel (elapsed + wait)).poll? = some receipt) :
    receive channel elapsed left = receipt := by
  obtain ⟨rest, rfl⟩ := Nat.exists_eq_add_of_lt hwait
  rw [Nat.add_assoc, receive_add hsilent, receive, hfirst, Option.getD_some]

end Channel

namespace Reading

variable {r : Reading} {name : String} {nanos : Nat}

/-- Reads in place. A panic is caught and becomes an error of the field. -/
def callInline (r : Reading) (name : String) : Except FieldError Json :=
  r.answer.returned?.getD (.error (.panicked name))

/-- The channel of a worker that has been reading for some nanoseconds. -/
def channelAt (r : Reading) (elapsed : Nat) : Channel :=
  match r.latency with
  | none => .opened
  | some latency =>
    if elapsed < latency then .opened
    else
      match r.answer.returned? with
      | some read => (Channel.opened.send read).hangUp
      | none => Channel.opened.hangUp

/-- Reads on a worker and waits for it. -/
def callWithDeadline (r : Reading) (name : String) (nanos : Nat) : Except FieldError Json :=
  match Channel.receive r.channelAt 0 nanos with
  | .message read => read
  | .disconnected => .error (.panicked name)
  | .timeout => .error (.deadline name (Latency.millisOfNanos nanos))

theorem poll?_channelAt_of_lt {latency elapsed : Nat} (hlatency : r.latency = some latency)
    (h : elapsed < latency) : (r.channelAt elapsed).poll? = none := by
  unfold channelAt
  simp only [hlatency, if_pos h]
  rfl

theorem poll?_channelAt_latency {latency : Nat} (hlatency : r.latency = some latency) :
    (r.channelAt latency).poll? = some
      (match r.answer.returned? with
      | some read => .message read
      | none => .disconnected) := by
  unfold channelAt
  simp only [hlatency, if_neg (Nat.lt_irrefl latency)]
  cases r.answer.returned? <;> rfl

/-- An answer in time is the answer of a read in place, also if it is a panic. -/
theorem callWithDeadline_of_completes (h : r.completes nanos = true) :
    r.callWithDeadline name nanos = r.callInline name := by
  unfold completes at h
  cases hlatency : r.latency with
  | none => simp [hlatency] at h
  | some latency =>
    have hlt : latency < nanos := by simpa [hlatency] using h
    have hreceive : Channel.receive r.channelAt 0 nanos = _ :=
      Channel.receive_of_first hlt
        (fun wait hwait => poll?_channelAt_of_lt hlatency (by rwa [Nat.zero_add]))
        (by rw [Nat.zero_add]; exact poll?_channelAt_latency hlatency)
    unfold callWithDeadline callInline
    rw [hreceive]
    cases r.answer.returned? <;> rfl

theorem callWithDeadline_of_late (h : r.completes nanos = false) :
    r.callWithDeadline name nanos = .error (.deadline name (Latency.millisOfNanos nanos)) := by
  have hreceive : Channel.receive r.channelAt 0 nanos = .timeout := by
    apply Channel.receive_of_silent
    intro wait hwait
    unfold completes at h
    cases hlatency : r.latency with
    | none =>
      unfold channelAt
      simp only [hlatency]
      rfl
    | some latency =>
      have hle : nanos ≤ latency := by simpa [hlatency] using h
      apply poll?_channelAt_of_lt hlatency
      omega
  unfold callWithDeadline
  rw [hreceive]

theorem await_eq (r : Reading) (name : String) : r.await name = .ofRead (r.callInline name) := by
  unfold await callInline
  cases r.answer <;> rfl

theorem awaitWithin_eq (r : Reading) (nanos : Nat) (name : String) :
    r.awaitWithin nanos name = .ofRead (r.callWithDeadline name nanos) := by
  unfold awaitWithin
  cases h : r.completes nanos with
  | false => rw [callWithDeadline_of_late h]; rfl
  | true => rw [callWithDeadline_of_completes h, ← await_eq]; rfl

end Reading

namespace FieldTable

variable {table : FieldTable σ} {state : σ} {name : String}

theorem resolve_inline {accessor : Accessor σ} (h : table.get? name = some accessor) :
    table.resolve state none name = .ofRead ((accessor state).callInline name) := by
  rw [resolve_eq, reading?, h]
  exact Reading.await_eq _ name

theorem resolve_within {accessor : Accessor σ} (h : table.get? name = some accessor)
    (nanos : Nat) : table.resolve state (some nanos) name =
      .ofRead ((accessor state).callWithDeadline name nanos) := by
  rw [resolve_eq, reading?, h]
  exact Reading.awaitWithin_eq _ nanos name

/-- Whether a name is read in time, where there is a time to keep to. -/
def Completes (table : FieldTable σ) (state : σ) (timeout : Option Nat) (name : String) : Prop :=
  ∀ r, table.reading? state name = some r → ∀ nanos, timeout = some nanos →
    r.completes nanos = true

theorem resolve_of_completes {timeout : Option Nat} (h : table.Completes state timeout name) :
    table.resolve state timeout name = table.resolve state none name := by
  cases timeout with
  | none => rfl
  | some nanos =>
    cases hread : table.get? name with
    | none => rw [resolve_of_absent hread, resolve_of_absent hread]
    | some accessor =>
      have hcompletes : (accessor state).completes nanos = true := by
        apply h _ _ nanos rfl
        rw [reading?, hread, Option.map_some]
      rw [resolve_inline hread, resolve_within hread,
        Reading.callWithDeadline_of_completes hcompletes]

theorem resolve_of_late {r : Reading} {nanos : Nat} (hread : table.reading? state name = some r)
    (hlate : r.completes nanos = false) : table.resolve state (some nanos) name =
      .failed (.deadline name (Latency.millisOfNanos nanos)) := by
  obtain ⟨accessor, haccessor, rfl⟩ := Option.map_eq_some_iff.1 hread
  rw [resolve_within haccessor, Reading.callWithDeadline_of_late hlate]
  rfl

theorem completes_of_resolve_ne {timeout : Option Nat}
    (h : ∀ field budget, table.resolve state timeout name ≠ .failed (.deadline field budget)) :
    table.Completes state timeout name := by
  rintro r hread nanos rfl
  by_contra hlate
  exact h _ _ (resolve_of_late hread (Bool.eq_false_iff.2 hlate))

/-- In place, how long an answer takes makes no difference. -/
theorem resolve_inline_congr {state' : σ}
    (h : (table.reading? state name).map Reading.answer =
      (table.reading? state' name).map Reading.answer) :
    table.resolve state none name = table.resolve state' none name := by
  cases hread : table.get? name with
  | none => rw [resolve_of_absent hread, resolve_of_absent hread]
  | some accessor =>
    have hanswer : (accessor state).answer = (accessor state').answer := by
      simpa [reading?, hread] using h
    rw [resolve_inline hread, resolve_inline hread, Reading.callInline, Reading.callInline, hanswer]

end FieldTable

namespace Registry

variable {registry : Registry σ} {config config' : Config} {state state' : σ} {q : Query}

/-- Whether every selected field is read in time, where there is a time to keep to. -/
def Completes (registry : Registry σ) (config : Config) (state : σ) (q : Query) : Prop :=
  ∀ (kind : SourceKind) (table : FieldTable σ), kind.name = q.source →
    registry.slot kind = .available table → ∀ f ∈ q.fields,
      table.Completes state (config.fieldTimeout q.constraints) f

/-- Whether every selected field answers the same in two states, however long it takes. -/
def SameAnswers (registry : Registry σ) (state state' : σ) (q : Query) : Prop :=
  ∀ (kind : SourceKind) (table : FieldTable σ), kind.name = q.source →
    registry.slot kind = .available table → ∀ f ∈ q.fields,
      (table.reading? state f).map Reading.answer = (table.reading? state' f).map Reading.answer

theorem execute_of_completes (h : registry.Completes config state q)
    (h' : registry.Completes config' state' q) (hanswers : registry.SameAnswers state state' q)
    (clock clock' : Clock) (text : String) :
    (registry.execute config clock state q text).map (fun x =>
      (x.result.fields, x.result.source, x.result.depth, x.result.options)) =
    (registry.execute config' clock' state' q text).map (fun x =>
      (x.result.fields, x.result.source, x.result.depth, x.result.options)) := by
  cases hname : SourceKind.ofName? q.source with
  | none =>
    have unknown := SourceKind.ofName?_eq_none_iff.1 hname
    rw [execute_of_unnamed registry unknown, execute_of_unnamed registry unknown]
  | some kind =>
    have named := SourceKind.ofName?_eq_some_iff.1 hname
    rw [execute_of_named registry named.symm, execute_of_named registry named.symm]
    cases hslot : registry.slot kind with
    | unavailable reason => rfl
    | available table =>
      let run := Dispatch.run table
      have hfields : (run state (config.fieldTimeout q.constraints) q.fields).fields =
          (run state' (config'.fieldTimeout q.constraints) q.fields).fields := by
        -- Both come down to reads in place, where only the answers count.
        apply Dispatch.fields_congr
        intro f hf
        rw [FieldTable.resolve_of_completes (h kind table named hslot f hf),
          FieldTable.resolve_of_completes (h' kind table named hslot f hf)]
        exact FieldTable.resolve_inline_congr (hanswers kind table named hslot f hf)
      simp only [run] at hfields
      simp only [Except.map, dispatch, Result.ofDispatch, hfields]

end Registry

/-- A deadline makes no difference to what is read in time. A read with a deadline that completes
comes to the same as one in place, and one that does not to a missed deadline; both are what a table
resolves a name to. In a dispatch a late field is the only one to change. So two executions of a
query under any configurations, in which each selected field answers the same and completes in the
time it is given, if any, agree in fields, source, depth and options. -/
theorem deadline_refines_inline {σ : Type} :
    (∀ (r : Reading) (name : String) (nanos : Nat),
      (r.completes nanos = true → r.callWithDeadline name nanos = r.callInline name) ∧
      (r.completes nanos = false → r.callWithDeadline name nanos =
        .error (.deadline name (Latency.millisOfNanos nanos)))) ∧
    (∀ (table : FieldTable σ) (state : σ) (name : String) (accessor : Accessor σ),
      table.get? name = some accessor →
      table.resolve state none name = .ofRead ((accessor state).callInline name) ∧
      ∀ nanos, table.resolve state (some nanos) name =
        .ofRead ((accessor state).callWithDeadline name nanos)) ∧
    (∀ (table : FieldTable σ) (state : σ) (names : List String) (nanos : Nat), ∀ f ∈ names,
      let timed := (Dispatch.run table state (some nanos) names).fields.get? f
      (table.Completes state (some nanos) f →
        timed = (Dispatch.run table state none names).fields.get? f) ∧
      ∀ r, table.reading? state f = some r → r.completes nanos = false → timed =
        some (FieldOutcome.failed (.deadline f (Latency.millisOfNanos nanos))).toJson) ∧
    ∀ (registry : Registry σ) (config config' : Config) (clock clock' : Clock) (state state' : σ)
      (q : Query) (text : String),
      registry.Completes config state q → registry.Completes config' state' q →
      registry.SameAnswers state state' q →
      (registry.execute config clock state q text).map (fun x =>
        (x.result.fields, x.result.source, x.result.depth, x.result.options)) =
      (registry.execute config' clock' state' q text).map (fun x =>
        (x.result.fields, x.result.source, x.result.depth, x.result.options)) := by
  refine ⟨?_, ?_, ?_, ?_⟩
  · intro r name nanos
    exact ⟨Reading.callWithDeadline_of_completes, Reading.callWithDeadline_of_late⟩
  · intro table state name accessor haccessor
    exact ⟨FieldTable.resolve_inline haccessor, FieldTable.resolve_within haccessor⟩
  · intro table state names nanos f hf timed
    have htimed : timed = some (table.resolve state (some nanos) f).toJson :=
      Dispatch.get?_run.trans (if_pos hf)
    constructor
    · intro hcompletes
      rw [htimed, Dispatch.get?_run, if_pos hf,
        FieldTable.resolve_of_completes hcompletes]
    · intro r hread hlate
      rw [htimed, FieldTable.resolve_of_late hread hlate]
  · intro registry config config' clock clock' state state' q text h h' hanswers
    exact Registry.execute_of_completes h h' hanswers clock clock' text

/-- A panic in time beside a field that never answers; then the panic in a query, with a deadline
and without. -/
theorem panic_alike_with_deadline :
    let clock : Clock :=
      ⟨⟨⟨2024, 1, 1, 0, 0, 0, 0⟩, by decide⟩, fun waited => UInt64.ofNat waited⟩
    let votes : Reading := ⟨.panic, some 20⟩
    let slow : Reading := ⟨.value .null, none⟩
    let table : FieldTable Unit := .ofList [("slow", fun _ => slow), ("votes", fun _ => votes)]
    let names := ["slow", "votes"]
    let timed := (Dispatch.run table () (some 1000) names).fields
    let registry := (∅ : Registry Unit).registerTable .memory table
    let q := Query.plain ["votes", "gone"] "memory"
    votes.callWithDeadline "votes" 1000 = votes.callInline "votes" ∧
      slow.callWithDeadline "slow" 1000 =
        .error (.deadline "slow" (Latency.millisOfNanos 1000)) ∧
      table.resolve () none "votes" = .ofRead (votes.callInline "votes") ∧
      timed.get? "votes" = (Dispatch.run table () none names).fields.get? "votes" ∧
      timed.get? "slow" =
        some (FieldOutcome.failed (.deadline "slow" (Latency.millisOfNanos 1000))).toJson ∧
      (registry.execute ⟨.strict, true, some 250⟩ clock () q "").map (fun x =>
        (x.result.fields, x.result.source, x.result.depth, x.result.options)) =
      (registry.execute ⟨.strict, false, none⟩ clock () q "").map (fun x =>
        (x.result.fields, x.result.source, x.result.depth, x.result.options)) := by
  intro clock votes slow table names timed registry q
  obtain ⟨hcall, hresolve, hdispatch, hexecute⟩ := @deadline_refines_inline Unit
  have hslow : table.reading? () "slow" = some slow := by
    simp [table, FieldTable.reading?, Bindings.get?_ofList, Bindings.lookup_pair]
  have hvotes : table.get? "votes" = some fun _ => votes := by
    simp [table, Bindings.get?_ofList]
  have hgone : table.get? "gone" = none := by
    simp [table, Bindings.get?_ofList]
  have hcompletes {timeout : Option Nat} (h : ∀ nanos, timeout = some nanos → 20 < nanos) :
      table.Completes () timeout "votes" := by
    intro r hread nanos hnanos
    rw [FieldTable.reading?, hvotes] at hread
    cases hread
    exact decide_eq_true (h nanos hnanos)
  refine ⟨(hcall votes "votes" 1000).1 (by decide), (hcall slow "slow" 1000).2 (by decide),
    (hresolve table () "votes" (fun _ => votes) hvotes).1, ?_, ?_, ?_⟩
  · apply (hdispatch table () names 1000 "votes" (by decide)).1
    apply hcompletes
    rintro nanos ⟨⟩
    decide
  · exact (hdispatch table () names 1000 "slow" (by decide)).2 slow hslow (by decide)
  · apply hexecute
    · intro kind table' named available f hf
      have hkind : kind = .memory := SourceKind.name_injective named
      subst hkind
      cases available
      rcases List.mem_pair.1 hf with rfl | rfl
      · apply hcompletes
        rintro nanos ⟨⟩
        decide
      · intro r hread
        rw [FieldTable.reading?, hgone] at hread
        cases hread
    · intro kind table' named available f hf r hread nanos hnanos
      cases hnanos
    · intro kind table' named available f hf
      rfl

end Introspect
