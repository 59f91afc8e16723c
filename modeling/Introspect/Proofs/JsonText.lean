import Introspect.Proofs.Bindings
import Introspect.Proofs.JsonNumeral

/-!
JSON values are read back from their text, on one line or indented. Of floats this holds as far as
it holds of their numerals: it is assumed of each of them, and everything else rests on that.
-/
namespace Introspect

instance (pairs : List (String × α)) : Decidable (Bindings.Ordered pairs) :=
  inferInstanceAs (Decidable (pairs.Pairwise fun a b => a.1 < b.1))

namespace Json

open Introspect.Json.Token

/-! ### The tree of a value -/

mutual

/-- The tree that a value is written as. -/
def tree : Json → Tree
  | null => .null
  | bool b => .bool b
  | integer n => .number (.ofInt n)
  | float (.finite negative rank) => .number (.ofFloat negative rank)
  | float _ => .null
  | string s => .string (.ofText s)
  | array elements => .array (treeElements elements)
  | object members => .object (treeMembers members)

def treeElements : List Json → List Tree
  | [] => []
  | j :: rest => tree j :: treeElements rest

def treeMembers : List (String × Json) → List (RawString × Tree)
  | [] => []
  | (name, j) :: rest => (.ofText name, tree j) :: treeMembers rest

end

/-! ### Texts that spell tokens -/

def Punctuation.char : Punctuation → Char
  | .beginArray => '['
  | .endArray => ']'
  | .beginObject => '\x7b'
  | .endObject => '\x7d'
  | .nameSeparator => ':'
  | .valueSeparator => ','

namespace Token

theorem spells_punctuation (p : Punctuation) {rest : List Char} {ts : List Token}
    (more : Spells rest ts) : Spells (p.char :: rest) (.punctuation p :: ts) := by
  refine .token [] ?_ ?_ more
  · cases p <;> decide
  · cases p <;> rfl

theorem edge_punctuation (p : Punctuation) (rest : List Char) : Edge (p.char :: rest) := by
  cases p <;> simp [Edge, Punctuation.char]

theorem Spells.gap {gap rest : List Char} {ts : List Token} (hgap : ∀ c ∈ gap, isBlank c = true)
    (more : Spells rest ts) : Spells (gap ++ rest) ts := by
  induction gap with
  | nil => exact more
  | cons c gap ih =>
    obtain ⟨hc, hgap⟩ := List.forall_mem_cons.1 hgap
    exact .blank hc (ih hgap)

theorem edge_gap {gap rest : List Char} (hgap : ∀ c ∈ gap, isBlank c = true) (hrest : Edge rest) :
    Edge (gap ++ rest) := by
  cases gap with
  | nil => exact hrest
  | cons c gap =>
    have hc := hgap c List.mem_cons_self
    simp only [isBlank, Bool.or_eq_true, beq_iff_eq] at hc
    rcases hc with ((rfl | rfl) | rfl) | rfl <;> simp [Edge]

/-- A text that spells tokens wherever no number could go on behind it. -/
def Spelt (cs : List Char) (ts : List Token) : Prop :=
  ∀ (rest : List Char) (more : List Token), Edge rest → Spells rest more →
    Spells (cs ++ rest) (ts ++ more)

theorem Spelt.spells {cs : List Char} {ts : List Token} (h : Spelt cs ts) : Spells cs ts := by
  simpa using h [] [] (by simp [Edge]) .nil

theorem spelt_null : Spelt "null".toList [.null] :=
  fun _ _ _ more => .token ['u', 'l', 'l'] (by decide) rfl more

theorem spelt_bool (b : Bool) : Spelt (if b then "true" else "false").toList [.bool b] := by
  intro rest more _ hmore
  cases b with
  | true => exact .token ['r', 'u', 'e'] (by decide) rfl hmore
  | false => exact .token ['a', 'l', 's', 'e'] (by decide) rfl hmore

theorem spelt_number {n : Numeral} (h : n.Grammatical) : Spelt n.chars [.number n] :=
  fun _ _ hedge hmore => spells_number h hedge hmore

theorem spelt_string (s : String) : Spelt (stringText s).toList [.string (.ofText s)] :=
  fun _ _ _ hmore => spells_string s hmore

/-- Items with a comma between any two of them, and blanks behind the comma. -/
theorem spelt_separated (gap : List Char) (hgap : ∀ c ∈ gap, isBlank c = true)
    {texts : List (List Char)} {items : List (List Token)} (h : List.Forall₂ Spelt texts items) :
    Spelt ((',' :: gap).intercalate texts) (Tree.separated items) := by
  induction h with
  | nil => exact fun _ _ _ hmore => hmore
  | cons hitem hitems ih =>
    cases hitems with
    | nil =>
      rw [List.intercalate_singleton, Tree.separated_singleton]
      exact hitem
    | cons hnext hitems =>
      intro rest more hedge hmore
      rw [List.intercalate_cons_cons, Tree.separated_cons_cons]
      simp only [List.append_assoc, List.cons_append]
      apply hitem
      · exact edge_punctuation .valueSeparator _
      · exact spells_punctuation .valueSeparator ((ih rest more hedge hmore).gap hgap)

/-- A container around what it holds, with blanks inside its ends. -/
theorem Spelt.enclosed {cs : List Char} {ts : List Token} (h : Spelt cs ts) (gap gap' : List Char)
    (hgap : ∀ c ∈ gap, isBlank c = true) (hgap' : ∀ c ∈ gap', isBlank c = true)
    (left right : Punctuation) :
    Spelt (left.char :: (gap ++ cs ++ gap') ++ [right.char])
      (.punctuation left :: (ts ++ [.punctuation right])) := by
  intro rest more hedge hmore
  simp only [List.append_assoc, List.cons_append, List.nil_append]
  refine spells_punctuation left (.gap hgap (h _ _ ?_ ?_))
  · exact edge_gap hgap' (edge_punctuation right rest)
  · exact .gap hgap' (spells_punctuation right hmore)

/-- A member: its name, and its value behind a colon and blanks. -/
theorem Spelt.member {cs : List Char} {ts : List Token} (h : Spelt cs ts) (gap : List Char)
    (hgap : ∀ c ∈ gap, isBlank c = true) (name : String) :
    Spelt ((stringText name).toList ++ ':' :: (gap ++ cs))
      (.string (.ofText name) :: .punctuation .nameSeparator :: ts) := by
  intro rest more hedge hmore
  simp only [List.append_assoc, List.cons_append]
  exact spells_string name (spells_punctuation .nameSeparator (.gap hgap (h rest more hedge hmore)))

end Token

theorem spelt_integer (n : Int) : Spelt n.repr.toList (tree (integer n)).tokens := by
  rw [← Numeral.chars_ofInt]
  exact spelt_number (Numeral.grammatical_ofInt n)

theorem spelt_float (x : Binary64) : Spelt (floatText x).toList (tree (float x)).tokens := by
  cases x with
  | finite negative rank =>
    rw [← Numeral.chars_ofFloat]
    exact spelt_number (Numeral.grammatical_ofFloat negative rank)
  | infinite negative => exact spelt_null
  | nan => exact spelt_null

theorem spelt_enclose {items : List String} {tokens : List (List Token)}
    (h : List.Forall₂ Spelt (items.map String.toList) tokens) (left right : Punctuation) :
    Spelt (enclose (String.singleton left.char) (String.singleton right.char) items).toList
      (.punctuation left :: (Tree.separated tokens ++ [.punctuation right])) := by
  have hspelt := (spelt_separated [] (by simp) h).enclosed [] [] (by simp) (by simp) left right
  simpa [enclose, String.toList_intercalate] using hspelt

mutual

/-- The compact text of a value spells the tokens of its tree. -/
theorem spelt_compact : ∀ j : Json, Spelt j.compact.toList (tree j).tokens
  | null => spelt_null
  | bool b => spelt_bool b
  | integer n => spelt_integer n
  | float x => spelt_float x
  | string s => spelt_string s
  | array elements => by
    rw [compact, tree, Tree.tokens]
    exact spelt_enclose (spelt_compactElements elements) .beginArray .endArray
  | object members => by
    rw [compact, tree, Tree.tokens]
    exact spelt_enclose (spelt_compactMembers members) .beginObject .endObject

theorem spelt_compactElements : ∀ elements : List Json,
    List.Forall₂ Spelt ((compactElements elements).map String.toList)
      (Tree.elementTokens (treeElements elements))
  | [] => .nil
  | j :: rest => .cons (spelt_compact j) (spelt_compactElements rest)

theorem spelt_compactMembers : ∀ members : List (String × Json),
    List.Forall₂ Spelt ((compactMembers members).map String.toList)
      (Tree.memberTokens (treeMembers members))
  | [] => .nil
  | (name, j) :: rest => by
    refine .cons ?_ (spelt_compactMembers rest)
    have hmember := (spelt_compact j).member [] (by simp) name
    simpa using hmember

end

theorem isBlank_newLine (level : Nat) : ∀ c ∈ (newLine level).toList, isBlank c = true := by
  intro c hc
  have htext : (newLine level).toList = '\n' :: List.replicate (2 * level) ' ' := by
    simp [newLine]
  rw [htext, List.mem_cons] at hc
  rcases hc with rfl | hc
  · decide
  · rw [List.eq_of_mem_replicate hc]
    decide

theorem spelt_encloseLines (level : Nat) {items : List String} {tokens : List (List Token)}
    (h : List.Forall₂ Spelt (items.map String.toList) tokens) (left right : Punctuation) :
    Spelt (encloseLines level (String.singleton left.char) (String.singleton right.char)
        items).toList
      (.punctuation left :: (Tree.separated tokens ++ [.punctuation right])) := by
  unfold encloseLines
  split
  · rename_i hempty
    rw [List.isEmpty_iff] at hempty
    subst hempty
    simpa [enclose] using spelt_enclose h left right
  · have hspelt := (spelt_separated _ (isBlank_newLine (level + 1)) h).enclosed _ _
      (isBlank_newLine (level + 1)) (isBlank_newLine level) left right
    simpa [String.toList_intercalate] using hspelt

mutual

/-- The indented text of a value spells the same tokens. -/
theorem spelt_prettyAt (level : Nat) : ∀ j : Json, Spelt (prettyAt level j).toList (tree j).tokens
  | null => spelt_compact null
  | bool b => spelt_compact (bool b)
  | integer n => spelt_compact (integer n)
  | float x => spelt_compact (float x)
  | string s => spelt_compact (string s)
  | array elements => by
    rw [prettyAt, tree, Tree.tokens]
    exact spelt_encloseLines level (spelt_prettyElements (level + 1) elements) .beginArray .endArray
  | object members => by
    rw [prettyAt, tree, Tree.tokens]
    exact spelt_encloseLines level (spelt_prettyMembers (level + 1) members) .beginObject .endObject

theorem spelt_prettyElements (level : Nat) : ∀ elements : List Json,
    List.Forall₂ Spelt ((prettyElements level elements).map String.toList)
      (Tree.elementTokens (treeElements elements))
  | [] => .nil
  | j :: rest => .cons (spelt_prettyAt level j) (spelt_prettyElements level rest)

theorem spelt_prettyMembers (level : Nat) : ∀ members : List (String × Json),
    List.Forall₂ Spelt ((prettyMembers level members).map String.toList)
      (Tree.memberTokens (treeMembers members))
  | [] => .nil
  | (name, j) :: rest => by
    refine .cons ?_ (spelt_prettyMembers level rest)
    have hgap : ∀ c ∈ [' '], isBlank c = true := List.forall_mem_singleton.2 (by decide)
    have hmember := (spelt_prettyAt level j).member [' '] hgap name
    simpa using hmember

end

/-! ### Values that are read back -/

theorem Tree.ofText?_of_spelt {text : String} {t : Tree} (h : Spelt text.toList t.tokens) :
    Tree.ofText? text = some t := by
  rw [Tree.ofText?, h.spells.ofText?, Option.bind_some, Tree.ofTokens?_tokens]

/-- A float that is read back from its own text. -/
def ReadsBack (x : Binary64) : Prop :=
  ofText? (floatText x) = some (.float x)

mutual

/-- How many containers there are around each other in a value. -/
def levels : Json → Nat
  | array elements => levelsElements elements + 1
  | object members => levelsMembers members + 1
  | _ => 0

def levelsElements : List Json → Nat
  | [] => 0
  | j :: rest => max (levels j) (levelsElements rest)

def levelsMembers : List (String × Json) → Nat
  | [] => 0
  | (_, j) :: rest => max (levels j) (levelsMembers rest)

end

mutual

/-- The floats in a value. -/
def floats : Json → List Binary64
  | float x => [x]
  | array elements => floatsElements elements
  | object members => floatsMembers members
  | _ => []

def floatsElements : List Json → List Binary64
  | [] => []
  | j :: rest => floats j ++ floatsElements rest

def floatsMembers : List (String × Json) → List Binary64
  | [] => []
  | (_, j) :: rest => floats j ++ floatsMembers rest

end

mutual

/-- Whether a value keeps to what numbers and objects are: an integer has 64 bits, with or without
sign, and an object has each name once, in the order of the names. -/
def isProper : Json → Bool
  | integer n => decide (Numeral.Fits n)
  | array elements => areProperElements elements
  | object members => decide (Bindings.Ordered members) && areProperMembers members
  | _ => true

def areProperElements : List Json → Bool
  | [] => true
  | j :: rest => isProper j && areProperElements rest

def areProperMembers : List (String × Json) → Bool
  | [] => true
  | (_, j) :: rest => isProper j && areProperMembers rest

end

theorem areProperMembers_iff {members : List (String × Json)} :
    areProperMembers members = true ↔ ∀ p ∈ members, p.2.isProper = true := by
  induction members with
  | nil => simp [areProperMembers]
  | cons p members ih => simp [areProperMembers, ih]

theorem levelsMembers_le_iff {members : List (String × Json)} {n : Nat} :
    levelsMembers members ≤ n ↔ ∀ p ∈ members, p.2.levels ≤ n := by
  induction members with
  | nil => simp [levelsMembers]
  | cons p members ih => simp [levelsMembers, ih]

/-- A float is read back if its numeral is read as it. -/
theorem readsBack_iff {negative : Bool} {rank : Fin Binary64.finiteCount} :
    ReadsBack (.finite negative rank) ↔
      (Numeral.ofFloat negative rank).float? = some (.finite negative rank) := by
  have hpart : (Numeral.ofFloat negative rank).fraction.isSome ∨
      (Numeral.ofFloat negative rank).exponent.isSome := by
    unfold Numeral.ofFloat Numeral.ofDecimal
    split
    · exact .inl rfl
    · exact .inr rfl
  rw [ReadsBack, ofText?, Tree.ofText?_of_spelt (spelt_float _), Option.bind_some, tree,
    Tree.value?, Numeral.value?, if_pos hpart]
  simp

theorem not_readsBack {x : Binary64} (h : x.isFinite = false) : ¬ ReadsBack x := by
  rw [ReadsBack, ofText?, Tree.ofText?_of_spelt (spelt_float x), Option.bind_some]
  cases x with
  | finite negative rank => cases h
  | infinite negative => simp [tree, Tree.value?]
  | nan => simp [tree, Tree.value?]

instance : DecidablePred ReadsBack
  | .finite _ _ => decidable_of_iff _ readsBack_iff.symm
  | .infinite _ => .isFalse (not_readsBack rfl)
  | .nan => .isFalse (not_readsBack rfl)

theorem value?_float {x : Binary64} (h : ReadsBack x) (n : Nat) :
    (tree (float x)).value? n = some (.float x) := by
  rw [ReadsBack, ofText?, Tree.ofText?_of_spelt (spelt_float x), Option.bind_some] at h
  cases x with
  | finite negative rank => exact h
  | infinite negative => exact h
  | nan => exact h

mutual

/-- The tree of a value has that value. -/
theorem value?_tree : ∀ (j : Json) (n : Nat), j.isProper = true → j.levels ≤ n →
    (∀ x ∈ j.floats, ReadsBack x) → (tree j).value? n = some j
  | null, _, _, _, _ => by rw [tree, Tree.value?]
  | bool b, _, _, _, _ => by rw [tree, Tree.value?]
  | integer i, _, hproper, _, _ => by
    rw [tree, Tree.value?]
    exact Numeral.value?_ofInt (of_decide_eq_true hproper)
  | float x, n, _, _, hfloats => value?_float (hfloats x (by simp [floats])) n
  | string s, _, _, _, _ => by
    rw [tree, Tree.value?, RawString.text?_ofText, Option.map_some]
  | array elements, n, hproper, hlevels, hfloats => by
    rw [levels] at hlevels
    have hmore := elements?_tree elements (n - 1) hproper (by omega) hfloats
    rw [tree, Tree.value?, if_neg (by omega), hmore, Option.map_some]
  | object members, n, hproper, hlevels, hfloats => by
    rw [levels] at hlevels
    obtain ⟨hordered, hproper⟩ := Bool.and_eq_true_iff.1 hproper
    have hmore := members?_tree members (n - 1) hproper (by omega) hfloats
    rw [tree, Tree.value?, if_neg (by omega), hmore, Option.map_some,
      Bindings.ofList_pairs ⟨members, of_decide_eq_true hordered⟩]
    rfl

theorem elements?_tree : ∀ (elements : List Json) (n : Nat), areProperElements elements = true →
    levelsElements elements ≤ n → (∀ x ∈ floatsElements elements, ReadsBack x) →
    Tree.elements? n (treeElements elements) = some elements
  | [], _, _, _, _ => by rw [treeElements, Tree.elements?]
  | j :: rest, n, hproper, hlevels, hfloats => by
    rw [areProperElements, Bool.and_eq_true] at hproper
    rw [levelsElements, Nat.max_le] at hlevels
    rw [floatsElements, List.forall_mem_append] at hfloats
    simp only [treeElements, Tree.elements?, value?_tree j n hproper.1 hlevels.1 hfloats.1,
      elements?_tree rest n hproper.2 hlevels.2 hfloats.2]
    rfl

theorem members?_tree : ∀ (members : List (String × Json)) (n : Nat),
    areProperMembers members = true → levelsMembers members ≤ n →
    (∀ x ∈ floatsMembers members, ReadsBack x) →
      Tree.members? n (treeMembers members) = some members
  | [], _, _, _, _ => by rw [treeMembers, Tree.members?]
  | (name, j) :: rest, n, hproper, hlevels, hfloats => by
    rw [areProperMembers, Bool.and_eq_true] at hproper
    rw [levelsMembers, Nat.max_le] at hlevels
    rw [floatsMembers, List.forall_mem_append] at hfloats
    simp only [treeMembers, Tree.members?, RawString.text?_ofText,
      value?_tree j n hproper.1 hlevels.1 hfloats.1,
      members?_tree rest n hproper.2 hlevels.2 hfloats.2]
    rfl

end

/-- A value is read back from either text if it is not nested too deeply. -/
theorem ofText?_text {j : Json} (hproper : j.isProper = true) (hlevels : j.levels ≤ levelLimit)
    (hfloats : ∀ x ∈ j.floats, ReadsBack x) :
    ofText? j.compact = some j ∧ ofText? j.pretty = some j := by
  have hvalue := value?_tree j levelLimit hproper hlevels hfloats
  constructor
  · rw [ofText?, Tree.ofText?_of_spelt (spelt_compact j), Option.bind_some, hvalue]
  · rw [ofText?, pretty, Tree.ofText?_of_spelt (spelt_prettyAt 0 j), Option.bind_some, hvalue]

end Json
end Introspect
