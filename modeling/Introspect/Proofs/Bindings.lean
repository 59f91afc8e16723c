import Introspect.Bindings
import Mathlib.Data.List.Sort

/-!
Bindings through their look-up: what inserting does to it, and that it determines the bindings.
-/
namespace Introspect.Bindings

variable {α : Type u}

theorem lookup_pair (key : String) (p : String × α) (rest : List (String × α)) :
    (p :: rest).lookup key = if key = p.1 then some p.2 else rest.lookup key := by
  rw [List.lookup_cons]
  cases hkey : key == p.1 <;> simp_all

theorem lookup_reverse_cons (key : String) (p : String × α) (rest : List (String × α)) :
    (p :: rest).reverse.lookup key =
      (rest.reverse.lookup key).or (if key = p.1 then some p.2 else none) := by
  rw [List.reverse_cons, List.lookup_append, lookup_pair, List.lookup_nil]

theorem lookup_map (f : String → α → β) (pairs : List (String × α)) (key : String) :
    (pairs.map fun p => (p.1, f p.1 p.2)).lookup key = (pairs.lookup key).map (f key) := by
  induction pairs with
  | nil => rfl
  | cons p rest ih =>
    rw [List.map_cons, lookup_pair, lookup_pair, ih]
    split
    · rename_i hkey
      rw [hkey, Option.map_some]
    · rfl

theorem get?_mapNamed (f : String → α → β) (b : Bindings α) (key : String) :
    (b.mapNamed f).get? key = (b.get? key).map (f key) :=
  lookup_map f b.pairs key

theorem lookup_insertPair (name key : String) (value : α) (pairs : List (String × α)) :
    (insertPair name value pairs).lookup key =
      if key = name then some value else pairs.lookup key := by
  induction pairs with
  | nil => simp [insertPair, lookup_pair]
  | cons p rest ih =>
    rw [insertPair]
    split
    · simp only [lookup_pair]
    · rename_i hge
      split
      · rename_i hgt
        simp only [lookup_pair, ih]
        by_cases hkey : key = name
        · have hne : name ≠ p.1 := fun heq => String.lt_irrefl p.1 (heq ▸ hgt)
          simp [hkey, hne]
        · simp [hkey]
      · rename_i hle
        have heq : name = p.1 := String.le_antisymm (String.not_lt.1 hle) (String.not_lt.1 hge)
        simp only [lookup_pair, heq]
        by_cases hkey : key = p.1 <;> simp [hkey]

@[simp] theorem get?_insert (b : Bindings α) (name key : String) (value : α) :
    (b.insert name value).get? key = if key = name then some value else b.get? key :=
  lookup_insertPair name key value b.pairs

theorem mem_iff_lookup {pairs : List (String × α)} (h : Ordered pairs) {p : String × α} :
    p ∈ pairs ↔ pairs.lookup p.1 = some p.2 := by
  induction pairs with
  | nil => simp
  | cons q rest ih =>
    obtain ⟨hq, hrest⟩ := List.pairwise_cons.1 h
    rw [List.mem_cons, lookup_pair]
    by_cases hkey : p.1 = q.1
    · have habsent : p ∉ rest := fun hmem => String.lt_irrefl q.1 (hkey ▸ hq p hmem)
      simp [hkey, habsent, Prod.ext_iff, eq_comm]
    · have hne : p ≠ q := fun heq => hkey (heq ▸ rfl)
      simp [hkey, hne, ih hrest]

theorem mem_pairs_iff {b : Bindings α} {p : String × α} :
    p ∈ b.pairs ↔ b.get? p.1 = some p.2 :=
  mem_iff_lookup b.ordered

theorem mem_names_iff {b : Bindings α} {name : String} : name ∈ b.names ↔ (b.get? name).isSome := by
  unfold names
  simp only [List.mem_map, mem_pairs_iff, Option.isSome_iff_exists]
  constructor
  · rintro ⟨p, hp, rfl⟩
    exact ⟨p.2, hp⟩
  · rintro ⟨value, h⟩
    exact ⟨(name, value), h, rfl⟩

/-- Bindings that look the same are the same. -/
theorem ext_get? {a b : Bindings α} (h : ∀ key, a.get? key = b.get? key) : a = b := by
  have : Std.Irrefl fun a b : String × α => a.1 < b.1 := ⟨fun a => String.lt_irrefl a.1⟩
  have : Std.Antisymm fun a b : String × α => a.1 < b.1 :=
    ⟨fun a b hab hba => absurd (String.lt_trans hab hba) (String.lt_irrefl a.1)⟩
  have hpairs : a.pairs = b.pairs := a.ordered.eq_of_mem_iff b.ordered fun p => by
    rw [mem_pairs_iff, mem_pairs_iff, h]
  cases a
  cases b
  congr

theorem get?_foldl_insert (b : Bindings α) (pairs : List (String × α)) (key : String) :
    (pairs.foldl (fun b p => b.insert p.1 p.2) b).get? key =
      (pairs.reverse.lookup key).or (b.get? key) := by
  induction pairs generalizing b with
  | nil => simp
  | cons p rest ih =>
    rw [List.foldl_cons, ih, get?_insert, lookup_reverse_cons]
    by_cases hkey : key = p.1 <;> simp [hkey]

/-- A name is bound to its last value. -/
theorem get?_ofList (pairs : List (String × α)) (key : String) :
    (ofList pairs).get? key = pairs.reverse.lookup key := by
  rw [ofList, get?_foldl_insert]
  exact Option.or_none

/-- Among pairs in order, the last value of a name is its only one. -/
theorem lookup_reverse {pairs : List (String × α)} (h : Ordered pairs) (key : String) :
    pairs.reverse.lookup key = pairs.lookup key := by
  induction pairs with
  | nil => rfl
  | cons p rest ih =>
    obtain ⟨hp, hrest⟩ := List.pairwise_cons.1 h
    rw [lookup_reverse_cons, ih hrest, lookup_pair]
    by_cases hkey : key = p.1
    · have habsent : rest.lookup key = none := by
        refine List.lookup_eq_none_iff.2 fun q hq => ?_
        simpa [hkey] using String.ne_of_lt (hp q hq)
      simp [habsent]
    · simp [hkey]

theorem ofList_pairs (b : Bindings α) : ofList b.pairs = b :=
  ext_get? fun key => by rw [get?_ofList, lookup_reverse b.ordered]; rfl

end Introspect.Bindings
