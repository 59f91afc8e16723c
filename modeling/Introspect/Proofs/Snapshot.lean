import Introspect.Proofs.Deadline
import Introspect.Proofs.Verdict
import Introspect.Source.Snapshot

/-!
Queries against a captured document. What a query gets is what stands in the document's entry of its
source, and only that entry has a part in it.
-/
namespace Introspect

/-- The value of a name in an object; of members that share it the last one counts. Other values
have none. -/
def Json.member? (j : Json) (name : String) : Option Json :=
  (j.members?.getD []).reverse.lookup name

theorem Json.member?_of_not_object {j : Json} (h : j.members? = none) (name : String) :
    j.member? name = none := by
  unfold member?
  rw [h]
  rfl

theorem Json.member?_object (members : List (String × Json)) (name : String) :
    (object members).member? name = members.reverse.lookup name := rfl

namespace Snapshot

/-- The source that a member of a document is about, if it is about one. -/
def ofMember? (p : String × Json) : Option Snapshot :=
  (SourceKind.ofName? p.1).map fun kind => ⟨kind, p.2⟩

theorem ofDocument_eq (document : Json) :
    ofDocument document = (document.members?.getD []).filterMap ofMember? := rfl

/-- What registration makes of a source. -/
def slot (s : Snapshot) : Slot σ :=
  match s.probe with
  | none => .available s.fieldTable
  | some reason => .unavailable reason

theorem slot_eq_available_iff {s : Snapshot} {table : FieldTable σ} :
    s.slot = .available table ↔ s.probe = none ∧ s.fieldTable = table := by
  unfold slot
  cases s.probe <;> simp

theorem slot_of_not_object {s : Snapshot} (hnull : s.entry ≠ .null)
    (hmembers : s.entry.members? = none) : s.slot (σ := σ) = .unavailable
      s!"snapshot entry for '{s.kind.name}' is not an object: {s.entry.compact}" := by
  obtain ⟨kind, entry⟩ := s
  cases entry with
  | null => exact absurd rfl hnull
  | object => cases hmembers
  | _ => rfl

theorem run_register (registry : Registry σ) (s : Snapshot) :
    (registry.register s.provider).run = registry.set s.kind s.slot := by
  unfold Registry.register slot provider
  cases s.probe <;> rfl

theorem get?_fieldTable (s : Snapshot) (name : String) :
    (s.fieldTable (σ := σ)).get? name =
      (s.entry.member? name).map fun value _ => ⟨.value value, some 0⟩ := by
  unfold fieldTable Json.member?
  rw [Bindings.get?_ofList, ← List.map_reverse]
  exact Bindings.lookup_map (fun _ value (_ : σ) => Reading.mk (.value value) (some 0)) _ name

/-- A field in time has the value that the document gives it, and `null` if there is none. -/
theorem toJson_resolve (s : Snapshot) {state : σ} {timeout : Option Nat} {name : String}
    (inTime : ∀ field budget,
      s.fieldTable.resolve state timeout name ≠ .failed (.deadline field budget)) :
    (s.fieldTable.resolve state timeout name).toJson = (s.entry.member? name).getD .null := by
  rw [FieldTable.resolve_of_completes (FieldTable.completes_of_resolve_ne inTime),
    FieldTable.resolve_eq, FieldTable.reading?, get?_fieldTable]
  cases s.entry.member? name <;> rfl

end Snapshot

namespace Registry

/-- A document decides on the slots of the sources that it has an entry for. -/
theorem slot_addDocument (registry : Registry σ) (document : Json) (kind : SourceKind) :
    (registry.addDocument document).slot kind =
      ((document.member? kind.name).map fun entry => Snapshot.slot ⟨kind, entry⟩).getD
        (registry.slot kind) := by
  unfold addDocument Json.member?
  rw [Snapshot.ofDocument_eq]
  -- The registry stays general: a member is registered before those behind it, so that the last
  -- one of a name decides.
  generalize document.members?.getD [] = members
  induction members generalizing registry with
  | nil => rfl
  | cons p rest ih =>
    rw [Bindings.lookup_reverse_cons]
    cases hname : SourceKind.ofName? p.1 with
    | none =>
      have hne : kind.name ≠ p.1 := SourceKind.ofName?_eq_none_iff.1 hname kind
      have hskip : Snapshot.ofMember? p = none := by
        rw [Snapshot.ofMember?, hname, Option.map_none]
      rw [List.filterMap_cons_none hskip, ih, if_neg hne, Option.or_none]
    | some source =>
      have hsource : source.name = p.1 := SourceKind.ofName?_eq_some_iff.1 hname
      have hload : Snapshot.ofMember? p = some ⟨source, p.2⟩ := by
        rw [Snapshot.ofMember?, hname, Option.map_some]
      rw [List.filterMap_cons_some hload, List.foldl_cons, ih, Snapshot.run_register]
      by_cases hkind : kind = source
      · subst hkind
        rw [if_pos hsource]
        cases rest.reverse.lookup kind.name with
        | none => exact slot_set_self registry kind _
        | some entry => rfl
      · have hne : kind.name ≠ p.1 := by
          rw [← hsource]
          exact mt SourceKind.name_injective hkind
        rw [if_neg hne, Option.or_none, slot_set_of_ne registry hkind]

theorem slot_ofDocument (document : Json) (kind : SourceKind) :
    ((∅ : Registry σ).addDocument document).slot kind =
      match document.member? kind.name with
      | some entry => Snapshot.slot ⟨kind, entry⟩
      | none => .unavailable (Slots.unregistered kind) := by
  rw [slot_addDocument, slot_empty]
  cases document.member? kind.name <;> rfl

/-- A document is read in time unless there is no time at all. -/
theorem inTime_ofDocument {document : Json} {config : Config} {state : σ} {q : Query}
    {kind : SourceKind}
    (h : ∀ nanos, config.fieldTimeout q.constraints = some nanos → 0 < nanos) :
    ((∅ : Registry σ).addDocument document).InTime config state q kind := by
  rw [inTime_iff]
  intro table available f hf r hread
  rw [slot_ofDocument] at available
  cases hentry : document.member? kind.name with
  | none =>
    rw [hentry] at available
    cases available
  | some entry =>
    rw [hentry] at available
    obtain ⟨-, rfl⟩ := Snapshot.slot_eq_available_iff.1 available
    rw [FieldTable.reading?, Snapshot.get?_fieldTable] at hread
    obtain ⟨value, -, rfl⟩ : ∃ value, entry.member? f = some value ∧
        Reading.mk (.value value) (some 0) = r := by
      simpa using hread
    constructor
    · intro nanos hnanos
      exact decide_eq_true (h nanos hnanos)
    · intro field budget
      exact Answer.noConfusion

end Registry

/-- What a query to a source gets from a document. If the entry of the source is an object, each
selected name has its value there, or `null`; otherwise the source is unavailable, and the result
says whether the document reports it absent, holds something else in its place or does not mention
it. Nothing else in the document matters. -/
theorem snapshot_answers {σ : Type} (document : Json) (config : Config) (clock : Clock) (state : σ)
    {text : String} {q : Query} {kind : SourceKind}
    (parsed : Query.parse text config.mode = .ok q) (named : q.source = kind.name) :
    let engine : Engine σ := ⟨(∅ : Registry σ).addDocument document, config⟩
    let x := engine.run clock state text
    (∀ members, document.member? kind.name = some (.object members) →
      engine.registry.InTime config state q kind →
      x.result.source = kind.name ∧ ∀ name, x.result.fields.get? name =
        if name ∈ q.fields then some (((Json.object members).member? name).getD .null) else none) ∧
    (document.member? kind.name = some .null →
      engine.Declined clock text x q kind s!"snapshot reports '{kind.name}' as absent") ∧
    (∀ entry, document.member? kind.name = some entry → entry ≠ .null → entry.members? = none →
      engine.Declined clock text x q kind
        s!"snapshot entry for '{kind.name}' is not an object: {entry.compact}") ∧
    (document.members? = none ∨ document.member? kind.name = none →
      engine.Declined clock text x q kind s!"no subsystem registered for '{kind.name}'") ∧
    ∀ other : Json, other.member? kind.name = document.member? kind.name →
      Engine.run ⟨(∅ : Registry σ).addDocument other, config⟩ clock state text = x := by
  intro engine x
  have hslot := Registry.slot_ofDocument (σ := σ) document kind
  have hdeclined {reason : String} (h : engine.registry.slot kind = .unavailable reason) :
      engine.Declined clock text x q kind reason :=
    Engine.declined_of_unavailable clock state parsed named h
  refine ⟨?_, ?_, ?_, ?_, ?_⟩
  · intro members hentry inTime
    rw [hentry] at hslot
    have hdispatched : engine.Dispatched state text x q kind _ :=
      Engine.dispatched_of_available clock state parsed named hslot
    refine ⟨hdispatched.source, ?_⟩
    intro name
    rw [hdispatched.fields, Dispatch.get?_run]
    split
    · rename_i hname
      rw [Snapshot.toJson_resolve ⟨kind, .object members⟩ (inTime _ hslot name hname)]
    · rfl
  · intro hentry
    rw [hentry] at hslot
    exact hdeclined hslot
  · intro entry hentry hnull hmembers
    rw [hentry] at hslot
    exact hdeclined (hslot.trans (Snapshot.slot_of_not_object hnull hmembers))
  · intro hmissing
    have hentry : document.member? kind.name = none := by
      obtain hmembers | hentry := hmissing
      · exact Json.member?_of_not_object hmembers _
      · exact hentry
    rw [hentry] at hslot
    exact hdeclined hslot
  · intro other hother
    have hslot' := Registry.slot_ofDocument (σ := σ) other kind
    rw [hother] at hslot'
    have hsame : ((∅ : Registry σ).addDocument other).slot kind =
        ((∅ : Registry σ).addDocument document).slot kind :=
      hslot'.trans hslot.symm
    rw [Engine.run_of_named _ parsed named, hsame]
    exact (Engine.run_of_named engine parsed named clock state).symm

/-- One document for queries to four of its sources: one that is there, one that is reported absent,
one with a number in its place, and one that it does not mention. What it says of the weather may
change. -/
theorem snapshot_answers_four_sources :
    let memory := ("memory", Json.object [("size", .integer 7), ("tags", .array [.string "a"])])
    let document := Json.object
      [("council", .integer 3), memory, ("twin", .null), ("weather", .bool true)]
    let other := Json.object [memory, ("weather", .bool false)]
    let config : Config := ⟨.strict, true, some 250⟩
    let clock : Clock :=
      ⟨⟨⟨2024, 1, 1, 0, 0, 0, 0⟩, by decide⟩, fun waited => UInt64.ofNat waited⟩
    let engine : Engine Unit := ⟨(∅ : Registry Unit).addDocument document, config⟩
    let text (source : String) := "INTROSPECT \x7b SELECT tags, gone FROM " ++ source ++ " \x7d"
    let run (source : String) := engine.run clock () (text source)
    let q := Query.plain ["tags", "gone"]
    ((run "memory").result.fields.get? "tags" = some (.array [.string "a"]) ∧
      (run "memory").result.fields.get? "gone" = some .null ∧
      (run "memory").result.fields.get? "size" = none) ∧
    engine.Declined clock (text "twin") (run "twin") (q "twin") .twin
      "snapshot reports 'twin' as absent" ∧
    engine.Declined clock (text "council") (run "council") (q "council") .council
      "snapshot entry for 'council' is not an object: 3" ∧
    engine.Declined clock (text "narrative") (run "narrative") (q "narrative") .narrative
      "no subsystem registered for 'narrative'" ∧
    Engine.run ⟨(∅ : Registry Unit).addDocument other, config⟩ clock () (text "memory") =
      run "memory" := by
  intro memory document other config clock engine text run q
  have hanswers (kind : SourceKind)
      (parsed : Query.parse (text kind.name) config.mode = .ok (q kind.name)) :=
    snapshot_answers document config clock () parsed rfl
  obtain ⟨hobject, -, -, -, hother⟩ := hanswers .memory (by decide +kernel)
  obtain ⟨-, habsent, -⟩ := hanswers .twin (by decide +kernel)
  obtain ⟨-, -, hplaced, -⟩ := hanswers .council (by decide +kernel)
  obtain ⟨-, -, -, hunmentioned, -⟩ := hanswers .narrative (by decide +kernel)
  have hmemory : document.member? SourceKind.memory.name = some memory.2 := by
    simp [document, memory, Json.member?_object, Bindings.lookup_pair, SourceKind.name]
  have hinTime : engine.registry.InTime config () (q "memory") .memory := by
    apply Registry.inTime_ofDocument
    have htimeout : config.fieldTimeout (q "memory").constraints = some 250000000 := by
      decide +kernel
    rw [htimeout]
    rintro nanos ⟨⟩
    decide
  have hfields (name : String) : (run "memory").result.fields.get? name =
      if name ∈ ["tags", "gone"] then some ((memory.2.member? name).getD .null) else none :=
    (hobject _ hmemory hinTime).2 name
  refine ⟨⟨?_, ?_, ?_⟩, ?_, ?_, ?_, ?_⟩
  · rw [hfields]
    simp [memory, Json.member?_object]
  · rw [hfields]
    simp [memory, Json.member?_object, Bindings.lookup_pair]
  · exact (hfields "size").trans (if_neg (by decide))
  · apply habsent
    simp [document, memory, Json.member?_object, Bindings.lookup_pair, SourceKind.name]
  · apply hplaced (.integer 3)
    · simp [document, memory, Json.member?_object, Bindings.lookup_pair, SourceKind.name]
    · exact Json.noConfusion
    · rfl
  · apply hunmentioned
    simp [document, memory, Json.member?_object, Bindings.lookup_pair, SourceKind.name]
  · apply hother
    rw [hmemory]
    simp [other, memory, Json.member?_object, Bindings.lookup_pair, SourceKind.name]

end Introspect
