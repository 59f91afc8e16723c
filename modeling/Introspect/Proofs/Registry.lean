import Introspect.Proofs.Outcome

/-!
The registry over time. A history is any list of operations on the initial slots; the providers in
it may act on a world of their own and answer differently each time. No operation loses a slot, so
that the slots of a history make a registry at each point. What a source goes by is what the last
operation on it put there.
-/
namespace Introspect

namespace SourceKind

theorem mem_all (kind : SourceKind) : kind ∈ all := by
  cases kind <;> decide

theorem nodup_all : all.Nodup := by decide

theorem ofName?_isSome_iff {name : String} :
    (ofName? name).isSome = true ↔ name ∈ all.map SourceKind.name := by
  simp only [Option.isSome_iff_exists, ofName?_eq_some_iff, List.mem_map]
  constructor
  · rintro ⟨kind, h⟩
    exact ⟨kind, kind.mem_all, h⟩
  · rintro ⟨kind, -, h⟩
    exact ⟨kind, h⟩

end SourceKind

namespace Slot

theorem isAvailable_iff {slot : Slot σ} :
    slot.isAvailable = true ↔ ∃ table, slot = .available table := by
  cases slot <;> simp [isAvailable]

end Slot

namespace Registry

theorem get?_slots (registry : Registry σ) (kind : SourceKind) :
    registry.slots.get? kind = some (registry.slot kind) :=
  (Option.some_get _).symm

theorem slot_eq_iff {registry : Registry σ} {kind : SourceKind} {slot : Slot σ} :
    registry.slot kind = slot ↔ registry.slots.get? kind = some slot := by
  rw [get?_slots, Option.some_inj]

theorem slot_empty (kind : SourceKind) :
    (∅ : Registry σ).slot kind = .unavailable (Slots.unregistered kind) :=
  slot_eq_iff.2 (Slots.get?_initial kind)

theorem slot_set_self (registry : Registry σ) (kind : SourceKind) (slot : Slot σ) :
    (registry.set kind slot).slot kind = slot :=
  slot_eq_iff.2 (if_pos rfl)

theorem slot_set_of_ne (registry : Registry σ) {kind kind' : SourceKind} (hne : kind' ≠ kind)
    (slot : Slot σ) : (registry.set kind slot).slot kind' = registry.slot kind' :=
  slot_eq_iff.2 ((if_neg hne).trans (registry.get?_slots kind'))

end Registry

/-- What a provider can be asked for. -/
inductive Request where
  | probe
  | fieldTable
deriving DecidableEq

/-- The provider with a note of each request, made before the provider sees it. -/
def Provider.noting (p : Provider (StateM ω) σ) :
    Provider (StateT (List Request) (StateM ω)) σ where
  kind := p.kind
  probe := do
    modify (· ++ [.probe])
    p.probe
  fieldTable := do
    modify (· ++ [.fieldTable])
    p.fieldTable

namespace Provider

variable {p : Provider (StateM ω) σ} {world world' : ω}

theorem run_noting_probe {answer : Option String} (h : p.probe.run world = (answer, world'))
    (requests : List Request) :
    (p.noting.probe.run requests).run world = ((answer, requests ++ [.probe]), world') :=
  congrArg (fun r : Option String × ω => ((r.1, requests ++ [Request.probe]), r.2)) h

theorem run_noting_fieldTable {table : FieldTable σ}
    (h : p.fieldTable.run world = (table, world')) (requests : List Request) :
    (p.noting.fieldTable.run requests).run world =
      ((table, requests ++ [.fieldTable]), world') :=
  congrArg (fun r : FieldTable σ × ω => ((r.1, requests ++ [Request.fieldTable]), r.2)) h

end Provider

/-- What can be done to a registry. -/
inductive Operation (ω σ : Type) where
  | register (provider : Provider (StateM ω) σ)
  | registerTable (kind : SourceKind) (table : FieldTable σ)
  | markUnavailable (kind : SourceKind) (reason : String)

namespace Operation

def kind : Operation ω σ → SourceKind
  | register provider => provider.kind
  | registerTable kind _ | markUnavailable kind _ => kind

/-- Performs an operation on slots, with a note of what providers are asked for. -/
def perform (slots : Slots σ) : Operation ω σ → StateT (List Request) (StateM ω) (Slots σ)
  | register provider => slots.register provider.noting
  | registerTable kind table => return slots.registerTable kind table
  | markUnavailable kind reason => return slots.markUnavailable kind reason

/-- Performs an operation on a registry. -/
def performOn (registry : Registry σ) :
    Operation ω σ → StateT (List Request) (StateM ω) (Registry σ)
  | register provider => registry.register provider.noting
  | registerTable kind table => return registry.registerTable kind table
  | markUnavailable kind reason => return registry.markUnavailable kind reason

/-- An operation does to a registry what it does to the slots. -/
theorem run_perform_slots (op : Operation ω σ) (registry : Registry σ) (requests : List Request)
    (world : ω) : ((op.perform registry.slots).run requests).run world =
      let done := ((op.performOn registry).run requests).run world
      ((done.1.1.slots, done.1.2), done.2) := by
  cases op <;> rfl

/-- `Yields op world slot requests world'`: in a world, an operation comes to a slot for its source
by way of some requests, and leaves another world behind. -/
inductive Yields : Operation ω σ → ω → Slot σ → List Request → ω → Prop
  | there {provider : Provider (StateM ω) σ} {world world' world'' : ω} {table : FieldTable σ}
      (probed : provider.probe.run world = (none, world'))
      (built : provider.fieldTable.run world' = (table, world'')) :
      Yields (register provider) world (.available table) [.probe, .fieldTable] world''
  | absent {provider : Provider (StateM ω) σ} {world world' : ω} {reason : String}
      (probed : provider.probe.run world = (some reason, world')) :
      Yields (register provider) world (.unavailable reason) [.probe] world'
  | table {kind : SourceKind} {table : FieldTable σ} {world : ω} :
      Yields (registerTable kind table) world (.available table) [] world
  | reason {kind : SourceKind} {reason : String} {world : ω} :
      Yields (markUnavailable kind reason) world (.unavailable reason) [] world

end Operation

/-- Where a history has come to. -/
structure History (ω σ : Type) where
  slots : Slots σ
  /-- What providers were asked for so far, in order. -/
  requests : List Request
  world : ω

namespace History

def step (h : History ω σ) (op : Operation ω σ) : History ω σ :=
  let ((slots, requests), world) := ((op.perform h.slots).run h.requests).run h.world
  ⟨slots, requests, world⟩

/-- Performs operations on the initial slots. -/
def run (ops : List (Operation ω σ)) (world : ω) : History ω σ :=
  ops.foldl step ⟨.initial, [], world⟩

theorem run_bind (x : StateT (List Request) (StateM ω) α)
    (f : α → StateT (List Request) (StateM ω) β) (requests : List Request) (world : ω) :
    ((x >>= f).run requests).run world =
      let r := (x.run requests).run world
      ((f r.1.1).run r.1.2).run r.2 := rfl

/-- An operation puts one slot in the place of its source, and does nothing else to the slots. -/
theorem exists_step (h : History ω σ) (op : Operation ω σ) :
    ∃ slot requests world', op.Yields h.world slot requests world' ∧
      h.step op = ⟨h.slots.insert op.kind slot, h.requests ++ requests, world'⟩ := by
  cases op with
  | register provider =>
    cases probed : provider.probe.run h.world with
    | mk answer world' =>
      have hprobe := Provider.run_noting_probe probed h.requests
      cases answer with
      | none =>
        cases built : provider.fieldTable.run world' with
        | mk table world'' =>
          have htable := Provider.run_noting_fieldTable built (h.requests ++ [.probe])
          refine ⟨_, _, _, .there probed built, ?_⟩
          unfold step Operation.perform Slots.register Provider.slot
          rw [run_bind, run_bind, hprobe]
          dsimp only
          rw [run_bind, htable, List.append_assoc]
          rfl
      | some reason =>
        refine ⟨_, _, _, .absent probed, ?_⟩
        unfold step Operation.perform Slots.register Provider.slot
        rw [run_bind, run_bind, hprobe]
        rfl
  | registerTable kind table =>
    refine ⟨_, _, _, .table, ?_⟩
    rw [List.append_nil]
    rfl
  | markUnavailable kind reason =>
    refine ⟨_, _, _, .reason, ?_⟩
    rw [List.append_nil]
    rfl

/-! No slot is lost. -/

theorem complete_step {h : History ω σ} (complete : h.slots.Complete) (op : Operation ω σ) :
    (h.step op).slots.Complete := by
  obtain ⟨slot, requests, world', -, hstep⟩ := h.exists_step op
  rw [hstep]
  exact complete.insert op.kind slot

theorem complete_foldl {h : History ω σ} (complete : h.slots.Complete)
    (ops : List (Operation ω σ)) : (ops.foldl step h).slots.Complete := by
  induction ops generalizing h with
  | nil => exact complete
  | cons op ops ih => exact ih (complete_step complete op)

theorem complete_run (ops : List (Operation ω σ)) (world : ω) : (run ops world).slots.Complete :=
  complete_foldl Slots.complete_initial ops

/-- The registry that a history has led to. -/
def registry (ops : List (Operation ω σ)) (world : ω) : Registry σ :=
  ⟨(run ops world).slots, complete_run ops world⟩

/-! The last operation on a source counts. -/

theorem get?_step_of_ne (h : History ω σ) {op : Operation ω σ} {kind : SourceKind}
    (hne : kind ≠ op.kind) : (h.step op).slots.get? kind = h.slots.get? kind := by
  obtain ⟨slot, requests, world', -, hstep⟩ := h.exists_step op
  rw [hstep, Slots.get?_insert, if_neg hne]

theorem get?_foldl_of_untouched (h : History ω σ) {ops : List (Operation ω σ)} {kind : SourceKind}
    (untouched : ∀ op ∈ ops, op.kind ≠ kind) :
    (ops.foldl step h).slots.get? kind = h.slots.get? kind := by
  induction ops generalizing h with
  | nil => rfl
  | cons op ops ih =>
    obtain ⟨hop, hops⟩ := List.forall_mem_cons.1 untouched
    rw [List.foldl_cons, ih (h.step op) hops, get?_step_of_ne h hop.symm]

theorem run_concat (ops : List (Operation ω σ)) (op : Operation ω σ) (world : ω) :
    run (ops ++ [op]) world = (run ops world).step op := by
  unfold run
  rw [List.foldl_append, List.foldl_cons, List.foldl_nil]

theorem run_split (before after : List (Operation ω σ)) (op : Operation ω σ) (world : ω) :
    run (before ++ op :: after) world = after.foldl step (run (before ++ [op]) world) := by
  rw [List.append_cons]
  exact List.foldl_append

end History

namespace Registry

variable {registry : Registry σ}

theorem lookup?_isSome_iff {name : String} :
    (registry.lookup? name).isSome = true ↔ name ∈ SourceKind.all.map SourceKind.name := by
  unfold lookup?
  rw [Option.isSome_map, SourceKind.ofName?_isSome_iff]

theorem mem_available_iff {kind : SourceKind} :
    kind ∈ registry.available ↔ ∃ table, registry.slot kind = .available table := by
  unfold available Slots.available
  rw [List.mem_filter, and_iff_right kind.mem_all, get?_slots, Option.any_some,
    Slot.isAvailable_iff]

theorem nodup_available (registry : Registry σ) : registry.available.Nodup := by
  unfold available Slots.available
  exact SourceKind.nodup_all.filter _

/-- A query goes by what is recorded of its source. -/
theorem execute_congr {other : Registry σ} {q : Query}
    (h : ∀ kind : SourceKind, kind.name = q.source → other.slot kind = registry.slot kind)
    (config : Config) (clock : Clock) (state : σ) (text : String) :
    other.execute config clock state q text = registry.execute config clock state q text := by
  have hlookup : other.lookup? q.source = registry.lookup? q.source := by
    unfold lookup?
    cases hname : SourceKind.ofName? q.source with
    | none => rfl
    | some kind =>
      have hslot := h kind (SourceKind.ofName?_eq_some_iff.1 hname)
      rw [Option.map_some, Option.map_some, hslot]
  unfold execute executeM
  rw [hlookup]

end Registry

/-- Whatever happens to the slots, each source has one, so that no index misses and the slots make a
registry. A slot is found by just the six names. Each operation asks its provider for no more than a
probe and, if that succeeds, the table; it changes the slot of its own source alone, and what it
puts there stays until the next operation on that source. A source without an operation is not
registered. Operations on the registry are operations on its slots. A query goes by the recorded
slot, so that no provider has a part in it. -/
theorem registry_follows_history {ω σ : Type} (ops : List (Operation ω σ)) (world : ω) :
    let slots := (History.run ops world).slots
    let registry := History.registry ops world
    (∀ kind, slots.get? kind = some (registry.slot kind)) ∧
    (∀ name, slots.lookup? name = (registry.lookup? name).map fun p => (p.1, some p.2)) ∧
    (∀ kind, registry.lookup? kind.name = some (kind, registry.slot kind)) ∧
    (∀ name, (registry.lookup? name).isSome = true ↔ name ∈
      ["current_cognitive_state", "restraints", "council", "twin", "narrative", "memory"]) ∧
    (∀ before op after, ops = before ++ op :: after →
      let h := History.run before world
      let h' := History.run (before ++ [op]) world
      ∃ slot requests, op.Yields h.world slot requests h'.world ∧
        h'.requests = h.requests ++ requests ∧
        (∀ kind, kind ≠ op.kind → h'.slots.get? kind = h.slots.get? kind) ∧
        ((∀ op' ∈ after, op'.kind ≠ op.kind) → slots.get? op.kind = some slot)) ∧
    (∀ kind, (∀ op ∈ ops, op.kind ≠ kind) →
      slots.get? kind = some (.unavailable s!"no subsystem registered for '{kind.name}'")) ∧
    registry.available.Nodup ∧
    (∀ kind, kind ∈ registry.available ↔ ∃ table, slots.get? kind = some (.available table)) ∧
    (∀ (op : Operation ω σ) (requests : List Request) (world' : ω),
      ((op.perform slots).run requests).run world' =
        let done := ((op.performOn registry).run requests).run world'
        ((done.1.1.slots, done.1.2), done.2)) ∧
    ∀ (other : Registry σ) (q : Query),
      (∀ kind : SourceKind, kind.name = q.source → other.slot kind = registry.slot kind) →
      ∀ (config : Config) (clock : Clock) (state : σ) (text : String),
        other.execute config clock state q text = registry.execute config clock state q text := by
  intro slots registry
  have hslot : ∀ kind, slots.get? kind = some (registry.slot kind) := registry.get?_slots
  refine ⟨hslot, ?_, registry.lookup?_name, fun _ => Registry.lookup?_isSome_iff, ?_, ?_,
    registry.nodup_available, ?_, fun op => op.run_perform_slots registry,
    fun _ _ => Registry.execute_congr⟩
  · intro name
    unfold Slots.lookup? Registry.lookup?
    rw [Option.map_map]
    simp only [hslot]
    rfl
  · intro before op after hops h h'
    obtain ⟨slot, requests, world', hyields, hstep⟩ := h.exists_step op
    have hrun : h' = ⟨h.slots.insert op.kind slot, h.requests ++ requests, world'⟩ :=
      (History.run_concat before op world).trans hstep
    refine ⟨slot, requests, ?_, ?_, ?_, ?_⟩
    · rw [hrun]
      exact hyields
    · rw [hrun]
    · intro kind hne
      rw [hrun, Slots.get?_insert, if_neg hne]
    · intro hlast
      have hput : h'.slots.get? op.kind = some slot := by
        rw [hrun, Slots.get?_insert, if_pos rfl]
      rw [← hput, ← History.get?_foldl_of_untouched h' hlast, ← History.run_split, ← hops]
  · intro kind huntouched
    exact (History.get?_foldl_of_untouched _ huntouched).trans (Slots.get?_initial kind)
  · intro kind
    rw [Registry.mem_available_iff]
    simp only [hslot, Option.some_inj]

/-- A provider that is absent when it is probed first. The second of its registrations counts, and a
query to it goes as if its table had been there from the start. -/
theorem late_provider_counts :
    let table : FieldTable Unit := .ofList [("size", fun _ => ⟨.value (.integer 7), some 0⟩)]
    let provider : Provider (StateM Nat) Unit :=
      ⟨.memory, fun probes => (if probes = 0 then some "asleep" else none, probes + 1), pure table⟩
    let before : List (Operation Nat Unit) :=
      [.registerTable .twin table, .register provider, .markUnavailable .twin "gone"]
    let after : List (Operation Nat Unit) := [.markUnavailable .council "closed"]
    let registry := History.registry (before ++ .register provider :: after) 0
    registry.slots.get? .memory = some (.available table) ∧
      registry.slots.get? .narrative =
        some (.unavailable "no subsystem registered for 'narrative'") ∧
      ∀ (clock : Clock) (text : String),
        ((∅ : Registry Unit).registerTable .memory table).execute Config.default clock ()
          (Query.plain ["size"] "memory") text =
        registry.execute Config.default clock () (Query.plain ["size"] "memory") text := by
  intro table provider before after registry
  obtain ⟨-, -, -, -, hlast, huntouched, -, -, -, hexecute⟩ :=
    registry_follows_history (before ++ .register provider :: after) 0
  have hmemory : registry.slots.get? .memory = some (.available table) := by
    obtain ⟨slot, requests, hyields, -, -, hslot⟩ := hlast before _ after rfl
    rw [show registry.slots.get? .memory = some slot from
      hslot (by simp [after, Operation.kind, provider])]
    cases hyields with
    | there probed built =>
      cases probed
      cases built
      rfl
    | absent probed => cases probed
  refine ⟨hmemory, ?_, ?_⟩
  · exact huntouched .narrative (by simp [before, after, Operation.kind, provider])
  · intro clock text
    apply hexecute
    intro kind hkind
    have hkind : kind = .memory := SourceKind.name_injective hkind
    rw [hkind, Registry.slot_eq_iff.2 hmemory]
    rfl

end Introspect
