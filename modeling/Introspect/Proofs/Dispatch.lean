import Introspect.Engine
import Introspect.Proofs.Bindings
import Mathlib.Data.List.Count

/-!
What a dispatch comes to. In any monad it makes the calls of the selected names that the source has,
each once and in the order in which they are selected first, and nothing else; its fields are those
of a fold over the names. So the value of a name and whether it missed its deadline depend on its
own reading alone, whatever stands beside it.
-/
namespace Introspect

/-- What a name in a table answers with, in a state of the subsystems. -/
def FieldTable.reading? (table : FieldTable σ) (state : σ) (name : String) : Option Reading :=
  (table.get? name).map fun accessor => accessor state

/-- What a reading comes to for one who waits for it. -/
def Reading.resolution (r : Reading) (timeout : Option Nat) (name : String) : Resolution :=
  match timeout with
  | none => ⟨r.await name, r.waiting none⟩
  | some nanos => ⟨r.awaitWithin nanos name, r.waiting (some nanos)⟩

/-! ### One name -/

/-- The time that a field is given on a host. One that is read in place is given all it takes. -/
def Threads.limit (threads : Threads) (timeout : Option Nat) (name : String) : Option Nat :=
  if threads (threadName name) then timeout else none

namespace FieldTable

variable {table : FieldTable σ} {state : σ} {timeout : Option Nat} {name : String}

/-- What is done over a name besides waiting for it: if the table has it, a thread is asked for
where there is a deadline, and the call is noted. -/
def ask [Monad m] (table : FieldTable σ) (request note : String → m Unit) (timeout : Option Nat)
    (name : String) : m Unit := do
  if table.contains name then
    if timeout.isSome then
      request (threadName name)
    note name

theorem get?_calls [Monad m] (table : FieldTable σ) (state : σ) (note : String → m Unit)
    (name : String) : (table.calls state note).get? name =
      (table.reading? state name).map fun r => do note name; return r := by
  unfold calls reading?
  rw [Bindings.get?_mapNamed, Option.map_map]
  rfl

theorem contains_iff_reading? (state : σ) :
    table.contains name = (table.reading? state name).isSome := by
  unfold Bindings.contains reading?
  rw [Option.isSome_map]

theorem resolution_eq : table.resolution state timeout name =
    ((table.reading? state name).map (·.resolution timeout name)).getD ⟨.unknown, 0⟩ := by
  unfold resolution Calls.resolve
  rw [get?_calls]
  cases table.reading? state name <;> cases timeout <;> rfl

theorem resolve_eq : table.resolve state timeout name =
    ((table.reading? state name).map (·.resolution timeout name |>.outcome)).getD .unknown := by
  unfold resolve
  rw [resolution_eq]
  cases table.reading? state name <;> rfl

/-- Resolving a name in a monad does what there is to do over it and comes to its resolution. -/
theorem resolve_calls [Monad m] [LawfulMonad m] (threads : Threads)
    (request note : String → m Unit) :
    (table.calls state note).resolve (fun thread => do request thread; return threads thread)
      timeout name = do
        table.ask request note timeout name
        return table.resolution state (threads.limit timeout name) name := by
  unfold Calls.resolve ask
  rw [get?_calls, contains_iff_reading? state, resolution_eq]
  cases table.reading? state name with
  | none => simp
  | some r =>
    cases timeout with
    | none => simp [Resolution.inPlace, Reading.resolution, Threads.limit]
    | some nanos =>
      cases hthread : threads (threadName name) <;>
        simp [Resolution.onThread, Resolution.inPlace, Reading.resolution, Threads.limit, hthread]

theorem resolve_of_absent (h : table.get? name = none) (state : σ) (timeout : Option Nat) :
    table.resolve state timeout name = .unknown := by
  rw [resolve_eq, reading?, h]
  rfl

/-- What a name comes to depends on its reading alone. -/
theorem resolution_congr {table' : FieldTable τ} {state' : τ}
    (h : table.reading? state name = table'.reading? state' name) (timeout : Option Nat) :
    table.resolution state timeout name = table'.resolution state' timeout name := by
  rw [resolution_eq, resolution_eq, h]

theorem resolve_congr {table' : FieldTable τ} {state' : τ}
    (h : table.reading? state name = table'.reading? state' name) (timeout : Option Nat) :
    table.resolve state timeout name = table'.resolve state' timeout name :=
  congrArg Resolution.outcome (resolution_congr h timeout)

end FieldTable

theorem FieldOutcome.isMissedDeadline_iff {outcome : FieldOutcome} :
    outcome.isMissedDeadline = true ↔
      ∃ field budget, outcome = .failed (.deadline field budget) := by
  cases outcome with
  | failed e => cases e <;> simp [isMissedDeadline]
  | _ => simp [isMissedDeadline]

namespace Dispatch

/-! ### All names -/

/-- The names that are none of those seen, each where it comes first. -/
def fresh (seen : List String) : List String → List String
  | [] => []
  | name :: names =>
    if name ∈ seen then fresh seen names else name :: fresh (name :: seen) names

theorem mem_fresh_iff {seen names : List String} {name : String} :
    name ∈ fresh seen names ↔ name ∈ names ∧ name ∉ seen := by
  induction names generalizing seen with
  | nil => simp [fresh]
  | cons n names ih =>
    unfold fresh
    by_cases hname : name = n
    · subst hname
      split <;> simp_all
    · split <;> simp_all

theorem nodup_fresh (seen names : List String) : (fresh seen names).Nodup := by
  induction names generalizing seen with
  | nil => exact List.nodup_nil
  | cons n names ih =>
    unfold fresh
    split
    · exact ih seen
    · refine List.nodup_cons.2 ⟨?_, ih _⟩
      simp [mem_fresh_iff]

/-- Enters what each of some names came to. -/
def collect (f : String → Resolution) (names : List String) (d : Dispatch) : Dispatch :=
  names.foldl (fun d name => d.record name (f name)) d

section Calls

variable [Monad m] [LawfulMonad m]

/-- Names that have a value already are passed over. -/
theorem foldlM_step (calls : Calls m) (spawn : String → m Bool) (timeout : Option Nat)
    {seen : List String} {d : Dispatch} (h : ∀ name, d.fields.contains name = true ↔ name ∈ seen)
    (names : List String) : names.foldlM (step calls spawn timeout) d =
      (fresh seen names).foldlM
        (fun d name => return d.record name (← calls.resolve spawn timeout name)) d := by
  induction names generalizing seen d with
  | nil => rfl
  | cons n names ih =>
    rw [List.foldlM_cons, step, fresh]
    by_cases hn : n ∈ seen
    · rw [if_pos ((h n).2 hn), if_pos hn, pure_bind, ih h]
    · rw [if_neg (mt (h n).1 hn), if_neg hn, List.foldlM_cons, bind_assoc, bind_assoc]
      apply bind_congr
      intro r
      rw [pure_bind, pure_bind]
      apply ih
      intro name
      have hcontains := h name
      unfold Bindings.contains at hcontains ⊢
      by_cases hname : name = n <;> simp [record, hname, hcontains]

theorem foldlM_record (ask : String → m Unit) (f : String → Resolution) (names : List String)
    (d : Dispatch) :
    names.foldlM (fun d name => do
        let r ← (do ask name; pure (f name))
        return d.record name r) d = do
      names.forM ask
      return collect f names d := by
  induction names generalizing d with
  | nil => simp [collect]
  | cons n names ih =>
    simp only [bind_assoc, pure_bind, List.forM_eq_forM] at ih ⊢
    simp only [List.foldlM_cons, List.forM_cons, bind_assoc, pure_bind, ih]
    rfl

/-- A dispatch in a monad does what there is to do over each name once. What it comes to is
collected from what the names come to. -/
theorem perform_eq (table : FieldTable σ) (state : σ) (timeout : Option Nat) (threads : Threads)
    (request note : String → m Unit) (names : List String) :
    perform (table.calls state note) (fun thread => do request thread; return threads thread)
      timeout names = do
        (fresh [] names).forM (table.ask request note timeout)
        return collect (fun name => table.resolution state (threads.limit timeout name) name)
          (fresh [] names) start := by
  have hstart (name : String) : start.fields.contains name = true ↔ name ∈ [] :=
    iff_of_false Bool.false_ne_true List.not_mem_nil
  unfold perform
  rw [foldlM_step _ _ _ hstart]
  simp only [FieldTable.resolve_calls]
  exact foldlM_record _ _ _ _

/-- Where every thread is granted, only the calls are left to be done. -/
theorem perform_granted (table : FieldTable σ) (state : σ) (timeout : Option Nat)
    (note : String → m Unit) (names : List String) :
    perform (table.calls state note) (fun _ => pure true) timeout names = do
      (fresh [] names).forM (table.ask (fun _ => pure ()) note timeout)
      return collect (table.resolution state timeout) (fresh [] names) start := by
  have hperform := perform_eq table state timeout (fun _ => true) (fun _ => pure ()) note names
  simpa [Threads.limit] using hperform

end Calls

/-! ### What is read -/

/-- The names that are read: those that the table has, each where it is selected first. -/
def reads (table : FieldTable σ) (names : List String) : List String :=
  (fresh [] names).filter table.contains

theorem mem_reads_iff {table : FieldTable σ} {names : List String} {name : String} :
    name ∈ reads table names ↔ name ∈ names ∧ name ∈ table.names := by
  unfold reads
  rw [List.mem_filter, mem_fresh_iff, Bindings.mem_names_iff]
  simp [Bindings.contains]

theorem nodup_reads (table : FieldTable σ) (names : List String) : (reads table names).Nodup :=
  (nodup_fresh [] names).filter _

theorem count_reads (table : FieldTable σ) (names : List String) (name : String) :
    (reads table names).count name = if name ∈ names ∧ name ∈ table.names then 1 else 0 := by
  rw [(nodup_reads table names).count]
  simp only [mem_reads_iff]

theorem count_reads_of (kind source : SourceKind) (name : String) (names : List String) :
    (names.map (kind, ·)).count (source, name) = if source = kind then names.count name else 0 := by
  split
  · rename_i hsource
    subst hsource
    exact List.count_map_of_injective names (source, ·) (Prod.mk_right_injective source) name
  · rename_i hsource
    rw [List.count_eq_zero]
    intro hmem
    obtain ⟨_, -, heq⟩ := List.mem_map.1 hmem
    exact hsource (Prod.mk.inj heq).1.symm

theorem run_eq (table : FieldTable σ) (state : σ) (timeout : Option Nat) (names : List String) :
    run table state timeout names =
      collect (table.resolution state timeout) (fresh [] names) start := by
  unfold run
  rw [perform_granted]
  rfl

theorem run_forM_ask (table : FieldTable σ) (timeout : Option Nat) (label : String → α)
    (names : List String) (log : List α) :
    (names.forM (table.ask (m := StateM (List α)) (fun _ => pure ()) (noteCall label)
      timeout)).run log = pure ((), log ++ (names.filter table.contains).map label) := by
  induction names generalizing log with
  | nil => simp
  | cons n names ih =>
    rw [List.forM_eq_forM] at ih ⊢
    cases hn : table.contains n <;> simp [FieldTable.ask, noteCall, hn, ih]

/-- A dispatch whose calls are noted comes to the same, and the notes are the names that are
read. -/
theorem run_perform (table : FieldTable σ) (state : σ) (timeout : Option Nat)
    (label : String → α) (names : List String) (log : List α) :
    (perform (m := StateM (List α)) (table.calls state (noteCall label)) (fun _ => pure true)
      timeout names).run log =
        pure (run table state timeout names, log ++ (reads table names).map label) := by
  rw [perform_granted, run_eq, StateT.run_bind, run_forM_ask, pure_bind]
  rfl

/-! ### What it comes to -/

section Collect

variable {f : String → Resolution} {names : List String} {d : Dispatch}

theorem get?_collect {key : String} : (collect f names d).fields.get? key =
    if key ∈ names then some (f key).outcome.toJson else d.fields.get? key := by
  induction names generalizing d with
  | nil => rfl
  | cons n names ih =>
    have hcons : collect f (n :: names) d = collect f names (d.record n (f n)) := rfl
    rw [hcons, ih]
    by_cases hkey : key = n <;> simp [hkey, record]

theorem missedDeadline_collect_iff : (collect f names d).missedDeadline = true ↔
    (∃ name ∈ names, (f name).outcome.isMissedDeadline = true) ∨ d.missedDeadline = true := by
  induction names generalizing d with
  | nil => simp [collect]
  | cons n names ih =>
    have hcons : collect f (n :: names) d = collect f names (d.record n (f n)) := rfl
    rw [hcons, ih, List.exists_mem_cons_iff, record, Bool.or_eq_true, ← or_assoc, or_comm,
      ← or_assoc]

end Collect

variable {table : FieldTable σ} {state : σ} {timeout : Option Nat} {names : List String}

theorem get?_run {name : String} : (run table state timeout names).fields.get? name =
    if name ∈ names then some (table.resolve state timeout name).toJson else none := by
  rw [run_eq, get?_collect]
  simp only [mem_fresh_iff, List.not_mem_nil, not_false_eq_true, and_true]
  rfl

/-- The flag is up if a selected name misses its deadline. -/
theorem missedDeadline_iff : (run table state timeout names).missedDeadline = true ↔
    ∃ f ∈ names, ∃ field budget,
      table.resolve state timeout f = .failed (.deadline field budget) := by
  rw [run_eq, missedDeadline_collect_iff]
  simp only [mem_fresh_iff, List.not_mem_nil, not_false_eq_true, and_true,
    FieldOutcome.isMissedDeadline_iff, start, Bool.false_eq_true, or_false]
  rfl

/-- The fields of a dispatch depend on the outcomes of the selected names alone. -/
theorem fields_congr {table' : FieldTable τ} {state' : τ} {timeout' : Option Nat}
    (h : ∀ name ∈ names,
      table.resolve state timeout name = table'.resolve state' timeout' name) :
    (run table state timeout names).fields = (run table' state' timeout' names).fields := by
  apply Bindings.ext_get?
  intro key
  rw [get?_run, get?_run]
  split
  · rename_i hkey
    rw [h key hkey]
  · rfl

/-- Neither order nor repetition of the names matters. -/
theorem run_eq_of_mem_iff {names' : List String} (h : ∀ name, name ∈ names ↔ name ∈ names') :
    (run table state timeout names).fields = (run table state timeout names').fields ∧
      (run table state timeout names).missedDeadline =
        (run table state timeout names').missedDeadline := by
  constructor
  · apply Bindings.ext_get?
    intro key
    rw [get?_run, get?_run]
    simp only [h]
  · rw [Bool.eq_iff_iff, missedDeadline_iff, missedDeadline_iff]
    simp only [h]

end Dispatch

/-- A field is isolated from those selected with it. Its value depends on its own reading alone,
whichever names are selected beside it and whatever becomes of them. Selections of the same names
come to the same fields, and to the same flag; it is up if a selected name misses its deadline. -/
theorem fields_isolated {σ : Type} :
    (∀ (table table' : FieldTable σ) (state state' : σ) (timeout : Option Nat)
      (names names' : List String) (f : String), f ∈ names → f ∈ names' →
      table.reading? state f = table'.reading? state' f →
      ∃ value, value = (table.resolve state timeout f).toJson ∧
        (Dispatch.run table state timeout names).fields.get? f = some value ∧
        (Dispatch.run table' state' timeout names').fields.get? f = some value) ∧
    (∀ (table : FieldTable σ) (state : σ) (timeout : Option Nat) (names names' : List String),
      (∀ name, name ∈ names ↔ name ∈ names') →
      (Dispatch.run table state timeout names).fields =
        (Dispatch.run table state timeout names').fields ∧
      (Dispatch.run table state timeout names).missedDeadline =
        (Dispatch.run table state timeout names').missedDeadline) ∧
    ∀ (table : FieldTable σ) (state : σ) (timeout : Option Nat) (names : List String),
      (Dispatch.run table state timeout names).missedDeadline = true ↔
        ∃ f ∈ names, ∃ field budget,
          table.resolve state timeout f = .failed (.deadline field budget) := by
  refine ⟨?_, fun _ _ _ _ _ => Dispatch.run_eq_of_mem_iff, fun _ _ _ _ =>
    Dispatch.missedDeadline_iff⟩
  intro table table' state state' timeout names names' f hf hf' hreading
  refine ⟨_, rfl, ?_, ?_⟩
  · rw [Dispatch.get?_run, if_pos hf]
  · rw [Dispatch.get?_run, if_pos hf', FieldTable.resolve_congr hreading]

/-- A fast field beside a slow one, and beside one that panics. -/
theorem fast_field_isolated :
    let table : FieldTable Unit := .ofList [("fast", fun _ => ⟨.value (.integer 7), some 10⟩),
      ("slow", fun _ => ⟨.value .null, none⟩), ("votes", fun _ => ⟨.panic, some 0⟩)]
    let run := Dispatch.run table () (some 1000)
    (∃ value, value = (table.resolve () (some 1000) "fast").toJson ∧
      (run ["slow", "fast"]).fields.get? "fast" = some value ∧
      (run ["votes", "fast", "gone"]).fields.get? "fast" = some value) ∧
    (run ["slow", "fast"]).fields = (run ["fast", "slow", "fast"]).fields ∧
    (run ["slow", "fast"]).missedDeadline = true := by
  intro table run
  obtain ⟨hvalue, hsame, hmissed⟩ := @fields_isolated Unit
  refine ⟨?_, ?_, ?_⟩
  · exact hvalue table table () () (some 1000) _ _ "fast" (by decide) (by decide) rfl
  · refine (hsame table () (some 1000) _ _ ?_).1
    intro name
    simp [or_comm]
  · exact (hmissed table () (some 1000) _).2 ⟨"slow", by decide, "slow", _, rfl⟩

end Introspect
