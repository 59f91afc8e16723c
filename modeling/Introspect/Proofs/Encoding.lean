import Introspect.Proofs.Instants
import Introspect.Proofs.JsonText
import Introspect.Proofs.Outcome
import Introspect.Proofs.Rounding
import Introspect.Proofs.WellFormed

/-!
Results are decoded from what they are encoded as. Of a result that an engine returns this holds
for its JSON value, and for both texts of the value as far as floats are read back from theirs.
-/
namespace Introspect

/-! ### Literals -/

namespace Literal

/-- A literal that there is a JSON value for. -/
def Encodable : Literal → Prop
  | float x => x.isFinite = true
  | _ => True

theorem Writable.encodable {l : Literal} (h : l.Writable) : l.Encodable := by
  cases l with
  | integer n => trivial
  | float x =>
    obtain ⟨rank, rfl⟩ := h
    rfl
  | text s => trivial

/-- A literal is decoded as what it was. An integer stays one, and so does a float that is whole. -/
theorem ofJson?_toJson {l : Literal} (h : l.Encodable) : ofJson? l.toJson = some l := by
  cases l with
  | integer n =>
    rw [toJson, ofJson?, if_pos ⟨n.minValue_le_toInt, n.toInt_le⟩, Int64.ofInt_toInt]
  | float x =>
    have hfinite : x.isFinite = true := h
    rw [toJson, if_pos hfinite]
    rfl
  | text s => rfl

theorem isProper_toJson (l : Literal) : l.toJson.isProper = true := by
  cases l with
  | integer n =>
    have hlow := n.le_toInt
    have hhigh := n.toInt_lt
    refine decide_eq_true ?_
    unfold Json.Numeral.Fits
    omega
  | float x =>
    rw [toJson]
    split <;> rfl
  | text s => rfl

theorem levels_toJson (l : Literal) : l.toJson.levels = 0 := by
  cases l with
  | integer n => rfl
  | float x =>
    rw [toJson]
    split <;> rfl
  | text s => rfl

end Literal

theorem mapM_of_forall₂ {f : α → Option β} {as : List α} {bs : List β}
    (h : List.Forall₂ (fun a b => f a = some b) as bs) : as.mapM f = some bs := by
  induction h with
  | nil => rfl
  | cons hab _ ih =>
    rw [List.mapM_cons, hab, ih]
    rfl

/-! ### Records -/

namespace Result

theorem filter_name {members : List (String × α)} (h : (members.map Prod.fst).Nodup)
    {p : String × α} (hp : p ∈ members) : members.filter (·.1 == p.1) = [p] := by
  induction members with
  | nil => cases hp
  | cons q members ih =>
    obtain ⟨hq, hmembers⟩ := List.nodup_cons.1 h
    rcases List.mem_cons.1 hp with rfl | hp
    · have hothers : members.filter (·.1 == p.1) = [] := by
        rw [List.filter_eq_nil_iff]
        intro q hmem hname
        exact hq (beq_iff_eq.1 hname ▸ List.mem_map_of_mem hmem)
      rw [List.filter_cons_of_pos (by simp), hothers]
    · have hname : q.1 ≠ p.1 := fun hname => hq (hname ▸ List.mem_map_of_mem hp)
      rw [List.filter_cons_of_neg (by simpa using hname), ih hmembers hp]

/-- The members of a record are picked by their names. -/
theorem pick?_zip {names : List String} {values : List α} (hnames : names.Nodup)
    (hlength : names.length = values.length) : pick? names (names.zip values) = some values := by
  refine mapM_of_forall₂ (List.forall₂_iff_zip.2 ⟨hlength, fun {name a} hmem => ?_⟩)
  have hnodup : ((names.zip values).map Prod.fst).Nodup := by
    rwa [List.map_fst_zip (Nat.le_of_eq hlength)]
  rw [filter_name hnodup hmem]

theorem record?_zip {names : List String} {values : List Json} (hnames : names.Nodup)
    (hlength : names.length = values.length) :
    record? names (.object (names.zip values)) = some values :=
  pick?_zip hnames hlength

theorem text?_treeMembers (members : List (String × Json)) :
    (Json.treeMembers members).mapM (fun (name, t) => name.text?.map (·, t)) =
      some (members.map (Prod.map id Json.tree)) := by
  induction members with
  | nil => rfl
  | cons p members ih =>
    simp only [Json.treeMembers, List.mapM_cons, Json.RawString.text?_ofText, ih]
    rfl

theorem recordOfTree?_tree {names : List String} {values : List Json} (hnames : names.Nodup)
    (hlength : names.length = values.length) :
    recordOfTree? names (Json.tree (.object (names.zip values))) =
      some (values.map Json.tree) := by
  rw [Json.tree, recordOfTree?, text?_treeMembers, ← List.zip_map_right]
  exact pick?_zip hnames (by rwa [List.length_map])

theorem options?_toJson {b : Bindings Literal} (h : ∀ p ∈ b.pairs, p.2.Encodable) :
    options? (b.mapValues Literal.toJson).pairs = some b := by
  have hpairs : ((b.mapValues Literal.toJson).pairs.mapM fun p =>
      (Literal.ofJson? p.2).map (p.1, ·)) = some b.pairs := by
    refine mapM_of_forall₂ (List.forall₂_map_left_iff.2 (List.forall₂_same.2 fun p hp => ?_))
    rw [Literal.ofJson?_toJson (h p hp)]
    rfl
  rw [options?, hpairs, Option.map_some, Bindings.ofList_pairs]

/-! ### Results -/

/-- A result that there is a JSON value for. -/
structure Encodable (r : Result) : Prop where
  elapsed : r.elapsed.isFinite = true
  options : ∀ p ∈ r.options.pairs, p.2.Encodable

/-- The values of the members of a result before its metadata. -/
def parts (r : Result) : List Json :=
  [.string r.query, .ofBindings r.fields, .string r.source, .string r.timestamp.render,
    .float r.elapsed, .bool r.constraintsSatisfied]

def optionMembers (r : Result) : List (String × Json) :=
  (r.options.mapValues Literal.toJson).pairs

variable {r : Result}

theorem toJson_eq (h : r.Encodable) :
    r.toJson = .object (memberNames.zip (r.parts ++ [r.metadata])) := by
  rw [toJson, if_pos h.elapsed]
  rfl

theorem metadata_eq (r : Result) : r.metadata =
    .object (metadataNames.zip [.integer r.depth.toNat, .object r.optionMembers]) :=
  rfl

theorem ofParts?_parts (h : r.Encodable) :
    ofParts? r.parts (.integer r.depth.toNat) r.optionMembers = some r := by
  have hdepth : 0 ≤ (r.depth.toNat : Int) ∧ (r.depth.toNat : Int) < UInt32.size :=
    ⟨Int.natCast_nonneg _, Int.ofNat_lt.2 r.depth.toNat_lt_size⟩
  simp only [ofParts?, parts, Json.ofBindings, Timestamp.ofText?_render, Json.float?,
    optionMembers, options?_toJson h.options, Option.bind_eq_bind, Option.bind_some, if_pos hdepth,
    Bindings.ofList_pairs, Int.toNat_natCast, UInt32.ofNat_toNat]

/-- A result is decoded from its JSON value. -/
theorem ofJson?_toJson (h : r.Encodable) : ofJson? r.toJson = some r := by
  have hrecord : record? memberNames r.toJson = some (r.parts ++ [r.metadata]) := by
    rw [toJson_eq h]
    exact record?_zip (by decide) rfl
  have hmetadata : record? metadataNames r.metadata =
      some [.integer r.depth.toNat, .object r.optionMembers] := record?_zip (by decide) rfl
  simp only [ofJson?, hrecord, hmetadata, List.getLast?_concat, List.dropLast_concat,
    Option.bind_eq_bind, Option.bind_some]
  exact ofParts?_parts h

/-- A result whose text can be read: what its fields hold is not nested too deeply for it, and its
floats are read back. -/
structure Readable (r : Result) : Prop where
  fields : ∀ p ∈ r.fields.pairs, p.2.isProper = true ∧ p.2.levels ≤ 125
  floats : ∀ x ∈ r.toJson.floats, Json.ReadsBack x

theorem floats_toJson (h : r.Encodable) : r.toJson.floats =
    Json.floatsMembers r.fields.pairs ++ r.elapsed :: Json.floatsMembers r.optionMembers := by
  rw [toJson_eq h, metadata_eq]
  simp [memberNames, metadataNames, parts, Json.ofBindings, Json.floats, Json.floatsMembers]

theorem value?_string (s : String) (n : Nat) :
    (Json.tree (.string s)).value? n = some (.string s) :=
  Json.value?_tree _ n rfl (Nat.zero_le n) (by simp [Json.floats])

theorem value?_fields (h : r.Encodable) (readable : r.Readable) :
    (Json.tree (.ofBindings r.fields)).value? (Json.levelLimit - 1) =
      some (.ofBindings r.fields) := by
  apply Json.value?_tree
  · have hmembers : Json.areProperMembers r.fields.pairs = true :=
      Json.areProperMembers_iff.2 fun p hp => (readable.fields p hp).1
    exact Bool.and_eq_true_iff.2 ⟨decide_eq_true r.fields.ordered, hmembers⟩
  · have hmembers : Json.levelsMembers r.fields.pairs ≤ 125 :=
      Json.levelsMembers_le_iff.2 fun p hp => (readable.fields p hp).2
    exact Nat.succ_le_succ hmembers
  · intro x hx
    apply readable.floats
    rw [floats_toJson h]
    exact List.mem_append_left _ hx

theorem value?_parts (h : r.Encodable) (readable : r.Readable) :
    (r.parts.map Json.tree).mapM (·.value? (Json.levelLimit - 1)) = some r.parts := by
  have helapsed : Json.ReadsBack r.elapsed := by
    apply readable.floats
    rw [floats_toJson h]
    exact List.mem_append_right _ List.mem_cons_self
  refine mapM_of_forall₂ (List.forall₂_map_left_iff.2 ?_)
  refine .cons (value?_string _ _) (.cons (value?_fields h readable) ?_)
  refine .cons (value?_string _ _) (.cons (value?_string _ _) ?_)
  exact .cons (Json.value?_float helapsed _) (.cons rfl .nil)

theorem value?_depth (depth : UInt32) (n : Nat) :
    (Json.tree (.integer depth.toNat)).value? n = some (.integer depth.toNat) := by
  have hfits : Json.Numeral.Fits depth.toNat := by
    have hlt := depth.toNat_lt
    unfold Json.Numeral.Fits
    omega
  have hproper : (Json.integer depth.toNat).isProper = true := by
    rw [Json.isProper]
    exact decide_eq_true hfits
  exact Json.value?_tree _ n hproper (Nat.zero_le n) (by simp [Json.floats])

theorem members?_optionMembers (h : r.Encodable) (readable : r.Readable) (n : Nat) :
    Json.Tree.members? n (Json.treeMembers r.optionMembers) = some r.optionMembers := by
  apply Json.members?_tree
  · rw [Json.areProperMembers_iff, optionMembers, Bindings.mapValues, Bindings.mapNamed,
      List.forall_mem_map]
    exact fun p _ => p.2.isProper_toJson
  · rw [Json.levelsMembers_le_iff, optionMembers, Bindings.mapValues, Bindings.mapNamed,
      List.forall_mem_map]
    intro p _
    rw [p.2.levels_toJson]
    exact Nat.zero_le n
  · intro x hx
    apply readable.floats
    rw [floats_toJson h]
    exact List.mem_append_right _ (List.mem_cons_of_mem _ hx)

/-- A result is decoded from every text that spells its JSON value. -/
theorem ofText?_of_spelt (h : r.Encodable) (readable : r.Readable) {text : String}
    (spelt : Json.Token.Spelt text.toList (Json.tree r.toJson).tokens) :
    ofText? text = some r := by
  have hrecord : recordOfTree? memberNames (Json.tree r.toJson) =
      some (r.parts.map Json.tree ++ [Json.tree r.metadata]) := by
    rw [toJson_eq h, recordOfTree?_tree (by decide) rfl, List.map_append]
    rfl
  have hmetadata : recordOfTree? metadataNames (Json.tree r.metadata) =
      some [Json.tree (.integer r.depth.toNat), .object (Json.treeMembers r.optionMembers)] := by
    rw [metadata_eq]
    exact recordOfTree?_tree (by decide) rfl
  simp only [ofText?, Json.Tree.ofText?_of_spelt spelt, hrecord, hmetadata, List.getLast?_concat,
    List.dropLast_concat, value?_parts h readable, value?_depth,
    members?_optionMembers h readable, Option.bind_eq_bind, Option.bind_some]
  exact ofParts?_parts h

end Result

namespace Engine

variable {σ : Type}

/-- Whatever an engine returns has a JSON value. -/
theorem encodable_run (engine : Engine σ) (clock : Clock) (state : σ) (text : String) :
    (engine.run clock state text).result.Encodable := by
  have hzero : (Binary64.zero false).isFinite = true := rfl
  obtain ⟨message, hfault⟩ | ⟨q, kind, parsed, named⟩ := fault_or_named engine.config.mode text
  · have h := failed_of_fault engine clock state hfault
    constructor
    · rw [h.elapsed]
      exact hzero
    · rw [h.options]
      exact fun p hp => absurd hp List.not_mem_nil
  · have hoptions : ∀ p ∈ q.options.pairs, p.2.Encodable := fun p hp =>
      ((Grammar.wellFormed_of_parse parsed).options p hp).2.encodable
    cases hslot : engine.registry.slot kind with
    | available table =>
      have h := dispatched_of_available clock state parsed named hslot
      constructor
      · simp only [run_of_named engine parsed named, hslot, Registry.dispatch, Result.ofDispatch]
        exact Latency.isFinite_millisOfNanos (UInt64.toNat_lt _)
      · rw [h.options]
        exact hoptions
    | unavailable reason =>
      have h := declined_of_unavailable clock state parsed named hslot
      constructor
      · rw [h.elapsed]
        exact hzero
      · rw [h.options]
        exact hoptions

/-- What an engine returns is decoded from its JSON value, and each literal as what it was. From
the compact text and from the indented one it is decoded if its fields hold proper values that are
not nested too deeply, as far as floats are read back from their own texts. -/
theorem decoded_run (engine : Engine σ) (clock : Clock) (state : σ) (text : String) :
    let r := (engine.run clock state text).result
    Result.ofJson? r.toJson = some r ∧
      (∀ l : Literal, l.Encodable → Literal.ofJson? l.toJson = some l) ∧
      ((∀ p ∈ r.fields.pairs, p.2.isProper = true ∧ p.2.levels ≤ 125) →
        (∀ x ∈ r.toJson.floats, Json.ReadsBack x) →
        Result.ofText? r.toJson.compact = some r ∧ Result.ofText? r.toJson.pretty = some r) := by
  intro r
  have hencodable : r.Encodable := encodable_run engine clock state text
  refine ⟨Result.ofJson?_toJson hencodable, fun l => Literal.ofJson?_toJson, ?_⟩
  intro hfields hfloats
  have hreadable : r.Readable := ⟨hfields, hfloats⟩
  constructor
  · exact Result.ofText?_of_spelt hencodable hreadable (Json.spelt_compact r.toJson)
  · exact Result.ofText?_of_spelt hencodable hreadable (Json.spelt_prettyAt 0 r.toJson)

/-- A result with values of every kind, and with options that look like one another. -/
theorem decoded_run_of_memory :
    let clock : Clock := ⟨⟨⟨2024, 1, 1, 0, 0, 0, 250⟩, by decide⟩, fun _ => 1500000⟩
    let load : Json := .float (Binary64.ofBits 0x3fe0000000000000)
    let pages : Json := .array [.integer (-7), load, .object [("free", .null)], .bool true]
    let table : FieldTable Unit := .ofList [("pages", fun _ => ⟨.value pages, some 0⟩)]
    let engine : Engine Unit := ⟨(∅ : Registry Unit).registerTable .memory table, Config.default⟩
    let text := "INTROSPECT \x7b SELECT pages, size FROM memory WITH a = 2 b = 2.0 c = '2' \x7d"
    let r := (engine.run clock () text).result
    r.options.pairs = [("a", .integer 2), ("b", .float (Binary64.ofInt 2)), ("c", .text "2")] ∧
      Result.ofJson? r.toJson = some r ∧
      Result.ofText? r.toJson.compact = some r ∧ Result.ofText? r.toJson.pretty = some r := by
  intro clock load pages table engine text r
  have h := decoded_run engine clock () text
  have htexts := h.2.2 (by decide +kernel) (by decide +kernel)
  exact ⟨by decide +kernel, h.1, htexts⟩

end Engine
end Introspect
